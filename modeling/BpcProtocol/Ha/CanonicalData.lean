import BpcProtocol.Ha.CanonicalJson
import BpcProtocol.Js.Data
import Mathlib.Data.List.GetD
import Mathlib.Data.List.Perm.Subperm

set_option autoImplicit false

/-! # What is canonicalizable

`canonicalize` on values as reflection shows them, with every check on their own properties. The walk
ends on plain data only, on which it is the walk of `canonWalk`; what it writes stands for that data
alone. -/

namespace Ha

open Fallible

/-! ## The checks of the walk -/

/-- `Number.isInteger(idx) && idx >= 0 && String(idx) === k`, for `idx = Number(k)`. -/
def isIndexName (k : JsString) : Bool :=
  match (Js.stringToNumber k).toInt? with
  | some i => decide (0 ≤ i) && Js.numberText (Js.stringToNumber k) == k
  | none => false

/-- The checks of one own property of an array. -/
def checkIndex (p : JsString × Property JsData) : Except HaError Unit := do
  ensure (isIndexName p.1 = true) ("array has non-index property '" ++ Js.message p.1 ++ "'")
  ensure (p.2.hasValue = true ∧ p.2.enumerable = true)
    ("array index '" ++ Js.message p.1 ++ "' must be an enumerable data property")

/-- The checks of an array. -/
def checkArray (length symbols : ℕ) (own : List (JsString × Property JsData)) :
    Except HaError Unit := do
  ensure (symbols = 0) "array with symbol property is not canonicalizable"
  own.forM checkIndex
  ensure (own.length = length) "array is sparse or has divergent index/length"

/-- The checks of one own property of an object. -/
def checkProperty (p : JsString × Property JsData) : Except HaError Unit := do
  ensure (p.2.hasValue = true) ("accessor property '" ++ Js.message p.1 ++ "' is not canonicalizable")
  ensure (p.2.enumerable = true)
    ("non-enumerable property '" ++ Js.message p.1 ++ "' is not canonicalizable")
  ensure (p.1 ≠ Js.lit "__proto__") "__proto__ key is rejected"

/-- The checks of an object. -/
def checkObject (plain : Bool) (symbols : ℕ) (own : List (JsString × Property JsData)) :
    Except HaError Unit := do
  ensure (plain = true) "only plain objects are canonicalizable (no Date/Map/Set/class)"
  ensure (symbols = 0) "symbol keys are not canonicalizable"
  own.forM checkProperty

/-! ## The walk -/

/-- One key of an object, a colon and what stands under the key. -/
def canonKey (walk : JsString → CanonM Unit) (k : JsString) : CanonM Unit := do
  StateT.lift (assertNoLoneSurrogate k)
  let s ← StateT.lift (jcsString k)
  canonPush (s ++ Js.lit ":")
  walk k

/-- `walk(v, depth)`, by the depth that is left. -/
def canonWalkData : ℕ → JsData → CanonM Unit
  | 0, _ => canonFail "max canonicalization depth exceeded"
  | left + 1, v => do
      canonEnter
      match v with
      | .null => canonPush (Js.lit "null")
      | .bool b => canonPush (if b then Js.lit "true" else Js.lit "false")
      | .number n => do
          let s ← StateT.lift (jcsNumber n)
          canonPush s
      | .string s => do
          let s ← StateT.lift (jcsString s)
          canonPush s
      | .undefined => canonFail "undefined is not canonicalizable"
      | .bigint _ => canonFail "bigint is not canonicalizable"
      | .function => canonFail "function is not canonicalizable"
      | .symbol => canonFail "symbol is not canonicalizable"
      | .array length symbols own => do
          StateT.lift (checkArray length symbols own)
          canonPush (Js.lit "[")
          canonSeparated (fun i : ℕ => canonWalkData left (JsData.read own (Js.decimal i)))
            (List.range length)
          canonPush (Js.lit "]")
      | .object plain symbols own => do
          StateT.lift (checkObject plain symbols own)
          canonPush (Js.lit "\x7b")
          canonSeparated (canonKey fun k => canonWalkData left (JsData.read own k))
            ((own.map Prod.fst).insertionSort (· ≤ ·))
          canonPush (Js.lit "\x7d")

/-- `canonicalize(value)`, on a value as reflection shows it. -/
def canonicalizeData (value : JsData) : Except HaError JsString := do
  let (_, st) ← (canonWalkData (canonMaxDepth + 1) value).run { nodes := 0, bytes := 0, parts := [] }
  pure st.parts

/-! ## Index names -/

theorem indexNames_nodup (n : ℕ) : ((List.range n).map fun i : ℕ => Js.decimal i).Nodup :=
  List.nodup_range.map fun _ _ h => Nat.cast_injective (Js.decimal_injective h)

theorem isIndexName_decimal {n : ℕ} (hn : n ≤ 4294967295) : isIndexName (Js.decimal n) = true := by
  have hsafe : Js.isSafeInteger n = true := by
    simp [Js.isSafeInteger, Js.maxSafeInteger]
    omega
  have hnumber : Js.stringToNumber (Js.decimal n) = .fin ((n : ℤ) : ℚ) := by
    rw [Js.decimal_natCast, Js.stringToNumber_natDigits (by omega)]
    simp
  rw [isIndexName, hnumber, JsNumber.toInt?_int, Js.numberText_int hsafe]
  simp

/-- A list of `n` distinct names that has the names of the indices below `n` has no other. -/
theorem index_of_mem {names : List JsString} {n : ℕ} (hlen : names.length = n)
    (hindex : ∀ i : ℕ, i < n → Js.decimal i ∈ names) {k : JsString} (hk : k ∈ names) :
    ∃ i : ℕ, i < n ∧ k = Js.decimal i := by
  have hsubset : ((List.range n).map fun i : ℕ => Js.decimal i) ⊆ names := by
    intro k hk
    obtain ⟨i, hi, rfl⟩ := List.mem_map.mp hk
    exact hindex i (List.mem_range.mp hi)
  have hperm := (List.subperm_of_subset (indexNames_nodup n) hsubset).perm_of_length_le (by simp [hlen])
  obtain ⟨i, hi, hik⟩ := List.mem_map.mp (hperm.mem_iff.mpr hk)
  exact ⟨i, List.mem_range.mp hi, hik.symm⟩

/-! ## Plain data is walked as such -/

theorem checkIndex_eq_ok {p : JsString × Property JsData} :
    checkIndex p = .ok () ↔ isIndexName p.1 = true ∧ ∃ d, p.2 = .data d true := by
  simp only [checkIndex, bind_eq_ok, ensure_eq_ok, exists_unit]
  constructor
  · rintro ⟨hname, hvalue, henumerable⟩
    exact ⟨hname, Property.eq_data hvalue henumerable⟩
  · rintro ⟨hname, d, hd⟩
    exact ⟨hname, by rw [hd]; exact ⟨rfl, rfl⟩⟩

theorem checkProperty_eq_ok {p : JsString × Property JsData} :
    checkProperty p = .ok () ↔ (∃ d, p.2 = .data d true) ∧ p.1 ≠ Js.lit "__proto__" := by
  simp only [checkProperty, bind_eq_ok, ensure_eq_ok, exists_unit]
  constructor
  · rintro ⟨hvalue, henumerable, hproto⟩
    exact ⟨Property.eq_data hvalue henumerable, hproto⟩
  · rintro ⟨⟨d, hd⟩, hproto⟩
    exact ⟨by rw [hd]; rfl, by rw [hd]; rfl, hproto⟩

theorem canonSeparated_map {α β : Type} (entry : β → CanonM Unit) (f : α → β) (l : List α) :
    canonSeparated entry (l.map f) = canonSeparated (fun a => entry (f a)) l := by
  induction l using canonSeparated.induct with
  | case1 => rfl
  | case2 a => rfl
  | case3 a rest hne ih =>
      rw [List.map_cons, canonSeparated, canonSeparated, ih]
      · exact hne
      · exact fun h => hne (List.map_eq_nil_iff.mp h)

theorem canonSeparated_congr {α : Type} {entry entry' : α → CanonM Unit} {l : List α}
    (h : ∀ a ∈ l, entry a = entry' a) : canonSeparated entry l = canonSeparated entry' l := by
  induction l using canonSeparated.induct with
  | case1 => rfl
  | case2 a => exact h a List.mem_cons_self
  | case3 a rest hne ih =>
      rw [canonSeparated, canonSeparated, h a List.mem_cons_self,
        ih fun b hb => h b (List.mem_cons_of_mem _ hb)]
      · exact hne
      · exact hne

/-- The key is checked twice. -/
theorem canonKey_eq (walk : JsString → CanonM Unit) (k : JsString) :
    canonKey walk k = (StateT.lift (jcsString k) >>= fun s => do
      canonPush (s ++ Js.lit ":")
      walk k) := by
  funext st
  unfold canonKey jcsString
  cases assertNoLoneSurrogate k with
  | error e => rfl
  | ok u => rfl

/-- Of the data properties of a plain object only `__proto__` is refused. -/
theorem checkObject_data {own : List (JsString × Property JsData)}
    (hdata : ∀ p ∈ own, ∃ d, p.2 = .data d true) :
    checkObject true 0 own = if own.any fun p => p.1 == Js.lit "__proto__" then
      .error (.contractValidation "__proto__ key is rejected") else .ok () := by
  show own.forM checkProperty = _
  induction own with
  | nil => rfl
  | cons p rest ih =>
      have ih := ih fun q hq => hdata q (List.mem_cons_of_mem _ hq)
      obtain ⟨k, q⟩ := p
      obtain ⟨d, rfl⟩ : ∃ d, q = .data d true := hdata (k, q) List.mem_cons_self
      show (checkProperty (k, .data d true) >>= fun _ => rest.forM checkProperty) = _
      by_cases hk : k = Js.lit "__proto__"
      · rw [hk]
        rfl
      · have hcheck : checkProperty (k, .data d true) = .ok () :=
          checkProperty_eq_ok.mpr ⟨⟨d, rfl⟩, hk⟩
        rw [hcheck, ok_bind, ih, List.any_cons, beq_false_of_ne hk, Bool.false_or]

/-- **On plain data the two walks are one.** -/
theorem canonWalkData_eq (left : ℕ) {d : JsData} {v : JsValue} (h : d.Denotes v) :
    canonWalkData left d = canonWalk left v := by
  induction left generalizing d v with
  | zero => rfl
  | succ left ih =>
      cases h with
      | null => rfl
      | bool b => rfl
      | number n => rfl
      | string s => rfl
      | @array own items hbound hnodup hlen hindex hdata hitems =>
          have hcheck : checkArray items.length 0 own = .ok () := by
            simp only [checkArray, bind_eq_ok, ensure_eq_ok, exists_unit, forM_eq_ok,
              checkIndex_eq_ok]
            refine ⟨trivial, fun p hp => ⟨?_, hdata p hp⟩, hlen⟩
            obtain ⟨i, hi, hname⟩ := index_of_mem (by rw [List.length_map, hlen]) hindex
              (List.mem_map_of_mem hp)
            rw [hname]
            exact isIndexName_decimal (by omega)
          have hitems' : items = (List.range items.length).map fun i => items.getD i .undefined := by
            refine List.ext_getElem (by simp) fun i hi _ => ?_
            simp [List.getElem?_eq_getElem hi]
          have hentries : canonSeparated (canonWalk left) items = canonSeparated
              (fun i : ℕ => canonWalkData left (JsData.read own (Js.decimal i)))
              (List.range items.length) := by
            rw [congrArg (canonSeparated (canonWalk left)) hitems', canonSeparated_map]
            refine canonSeparated_congr fun i hi => ?_
            have hi := List.mem_range.mp hi
            refine (ih (hitems i _ _ (JsData.mem_of_read hdata (hindex i hi)) ?_)).symm
            simp [List.getElem?_eq_getElem hi]
          simp only [canonWalkData, canonWalk, hcheck, hentries]
          rfl
      | @object own fields hnodup hnames hdata hfields =>
          have hkeys : (own.map Prod.fst).insertionSort (· ≤ ·) =
              (fields.insertionSort keyLe).map Prod.fst := by
            rw [hnames]
            exact (List.map_insertionSort keyLe (· ≤ ·) Prod.fst fields fun _ _ _ _ => Iff.rfl).symm
          have hentries : canonSeparated (canonMember (canonWalk left)) (fields.insertionSort keyLe) =
              canonSeparated (canonKey fun k => canonWalkData left (JsData.read own k))
                ((own.map Prod.fst).insertionSort (· ≤ ·)) := by
            rw [hkeys, canonSeparated_map]
            refine canonSeparated_congr fun f hf => ?_
            have hf := (List.mem_insertionSort keyLe).mp hf
            have hkey : f.1 ∈ own.map Prod.fst := hnames ▸ List.mem_map_of_mem hf
            rw [canonKey_eq, ih (hfields f.1 _ f.2 (JsData.mem_of_read hdata hkey) hf)]
            rfl
          have hcheck := checkObject_data hdata
          have hany : (own.any fun p => p.1 == Js.lit "__proto__") =
              fields.any fun f => f.1 == Js.lit "__proto__" := by
            have h := congrArg (List.any · (· == Js.lit "__proto__")) hnames
            rw [List.any_map, List.any_map] at h
            exact h
          rw [hany] at hcheck
          simp only [canonWalkData, canonWalk, hcheck, hentries]
          cases fields.any fun f => f.1 == Js.lit "__proto__" <;> rfl

/-- `canonicalize` of plain data. -/
theorem canonicalizeData_eq {d : JsData} {v : JsValue} (h : d.Denotes v) :
    canonicalizeData d = canonicalize v := by
  rw [canonicalizeData, canonicalize, canonWalkData_eq _ h]

/-! ## Nothing else is walked to the end -/

theorem canonWalkData_undefined (left : ℕ) (st : CanonState) (r : Unit × CanonState) :
    canonWalkData left .undefined st ≠ .ok r := by
  intro h
  cases left with
  | zero => cases h
  | succ left =>
      obtain ⟨u, st'⟩ := r
      unfold canonWalkData at h
      rw [canonBind_eq_ok] at h
      obtain ⟨_, _, -, hfail⟩ := h
      cases hfail

/-- What was read and walked is there. -/
theorem mem_of_walk {own : List (JsString × Property JsData)} {left : ℕ} {k : JsString}
    {st : CanonState} {r : Unit × CanonState}
    (h : canonWalkData left (JsData.read own k) st = .ok r) : k ∈ own.map Prod.fst := by
  by_contra hk
  rw [JsData.read_of_not_mem hk] at h
  exact canonWalkData_undefined left st r h

/-- **Only plain data is walked to the end.** -/
theorem denotes_of_walk (left : ℕ) {d : JsData} (hd : d.Lawful) {st st' : CanonState}
    (h : canonWalkData left d st = .ok ((), st')) : ∃ v, d.Denotes v := by
  induction left generalizing d st st' with
  | zero => cases h
  | succ left ih =>
      unfold canonWalkData at h
      rw [canonBind_eq_ok] at h
      obtain ⟨_, st₀, -, h⟩ := h
      cases hd with
      | undefined => cases h
      | bigint n => cases h
      | symbol => cases h
      | function => cases h
      | null => exact ⟨.null, .null⟩
      | bool b => exact ⟨.bool b, .bool b⟩
      | number n => exact ⟨.number n, .number n⟩
      | string s => exact ⟨.string s, .string s⟩
      | @array length symbols own hbound hnodup hlawful =>
          simp only [canonBind_eq_ok, canonLift_eq_ok] at h
          obtain ⟨_, _, ⟨hcheck, -⟩, _, _, -, _, _, hentries, -⟩ := h
          simp only [checkArray, bind_eq_ok, ensure_eq_ok, exists_unit, forM_eq_ok,
            checkIndex_eq_ok] at hcheck
          obtain ⟨rfl, hown, hlen⟩ := hcheck
          have hdata : ∀ p ∈ own, ∃ d, p.2 = .data d true := fun p hp => (hown p hp).2
          have hread : ∀ i : ℕ, i < length → Js.decimal i ∈ own.map Prod.fst ∧
              ∃ v, (JsData.read own (Js.decimal i)).Denotes v := by
            intro i hi
            obtain ⟨_, _, hwalk⟩ := canonSeparated_entries hentries i (List.mem_range.mpr hi)
            have hmem := mem_of_walk hwalk
            exact ⟨hmem, ih (hlawful _ _ _ (JsData.mem_of_read hdata hmem)) hwalk⟩
          choose! value hvalue using fun i hi => (hread i hi).2
          have hitems : ((List.range length).map value).length = length := by simp
          have hdenotes : JsData.Denotes (.array ((List.range length).map value).length 0 own)
              (.array ((List.range length).map value)) := by
            refine .array (by rwa [hitems]) hnodup (by rw [hitems, hlen])
              (fun i hi => (hread i (hitems ▸ hi)).1) hdata fun i d v hd hv => ?_
            rw [List.getElem?_map, Option.map_eq_some_iff] at hv
            obtain ⟨j, hj, rfl⟩ := hv
            obtain ⟨hi, rfl⟩ : i < length ∧ i = j := by
              simpa [List.getElem?_eq_some_iff] using hj
            rw [← JsData.read_eq hnodup hd]
            exact hvalue i hi
          rw [hitems] at hdenotes
          exact ⟨_, hdenotes⟩
      | @object plain symbols own hnodup hlawful =>
          simp only [canonBind_eq_ok, canonLift_eq_ok] at h
          obtain ⟨_, _, ⟨hcheck, -⟩, _, _, -, _, _, hentries, -⟩ := h
          simp only [checkObject, bind_eq_ok, ensure_eq_ok, exists_unit, forM_eq_ok,
            checkProperty_eq_ok] at hcheck
          obtain ⟨rfl, rfl, hown⟩ := hcheck
          have hdata : ∀ p ∈ own, ∃ d, p.2 = .data d true := fun p hp => (hown p hp).1
          have hread : ∀ k ∈ own.map Prod.fst, ∃ v, (JsData.read own k).Denotes v := by
            intro k hk
            obtain ⟨_, _, hentry⟩ := canonSeparated_entries hentries k
              ((List.mem_insertionSort (· ≤ ·)).mpr hk)
            rw [canonKey_eq] at hentry
            simp only [canonBind_eq_ok] at hentry
            obtain ⟨_, _, -, _, _, -, hwalk⟩ := hentry
            exact ih (hlawful _ _ _ (JsData.mem_of_read hdata hk)) hwalk
          choose! value hvalue using hread
          refine ⟨.object (own.map fun p => (p.1, value p.1)), .object hnodup ?_ hdata ?_⟩
          · rw [List.map_map]
            rfl
          · intro k d v hd hv
            obtain ⟨p, hp, heq⟩ := List.mem_map.mp hv
            obtain ⟨rfl, rfl⟩ := Prod.mk.inj heq
            rw [← JsData.read_eq hnodup hd]
            exact hvalue p.1 (List.mem_map_of_mem hp)

/-- **What is canonicalizable**, and what it is written as. -/
theorem canonicalizeData_eq_ok {d : JsData} (hd : d.Lawful) {t : JsString} :
    canonicalizeData d = .ok t ↔ ∃ v, d.Denotes v ∧ Canonicalizable v ∧ t = canonText v := by
  constructor
  · intro h
    have hwalk := h
    simp only [canonicalizeData, bind_eq_ok, pure_eq_ok, Prod.exists] at hwalk
    obtain ⟨_, _, hwalk, -⟩ := hwalk
    obtain ⟨v, hv⟩ := denotes_of_walk _ hd hwalk
    rw [canonicalizeData_eq hv] at h
    exact ⟨v, hv, canonicalize_eq_ok.mp h⟩
  · rintro ⟨v, hv, hcanon⟩
    rw [canonicalizeData_eq hv]
    exact canonicalize_eq_ok.mpr hcanon

/-! ## Every other value -/

/-- `x` is `d` or stands inside it. -/
inductive Part (d : JsData) : JsData → Prop
  | self : Part d d
  | array {length symbols : ℕ} {own : List (JsString × Property JsData)} {k : JsString} {x : JsData}
      {e : Bool} : Part d (.array length symbols own) → (k, .data x e) ∈ own → Part d x
  | object {plain : Bool} {symbols : ℕ} {own : List (JsString × Property JsData)} {k : JsString}
      {x : JsData} {e : Bool} : Part d (.object plain symbols own) → (k, .data x e) ∈ own → Part d x

/-- What canonical form has no place for. -/
inductive Foreign : JsData → Prop
  | undefined : Foreign .undefined
  | bigint (n : ℤ) : Foreign (.bigint n)
  | symbol : Foreign .symbol
  | function : Foreign .function
  | number {n : JsNumber} : n.isSafeInteger = false → Foreign (.number n)
  | loneSurrogate {s : JsString} : ¬Js.WellFormed s → Foreign (.string s)
  | longString {s : JsString} : canonMaxStringBytes < (Js.utf8 s).length → Foreign (.string s)
  | arraySymbol {length symbols : ℕ} {own : List (JsString × Property JsData)} :
      symbols ≠ 0 → Foreign (.array length symbols own)
  | hole {length symbols i : ℕ} {own : List (JsString × Property JsData)} :
      i < length → Js.decimal i ∉ own.map Prod.fst → Foreign (.array length symbols own)
  | extra {length symbols : ℕ} {own : List (JsString × Property JsData)} {k : JsString} :
      k ∈ own.map Prod.fst → (∀ i : ℕ, i < length → k ≠ Js.decimal i) →
      Foreign (.array length symbols own)
  | arrayProperty {length symbols : ℕ} {own : List (JsString × Property JsData)}
      {p : JsString × Property JsData} : p ∈ own →
      p.2.hasValue = false ∨ p.2.enumerable = false → Foreign (.array length symbols own)
  | classInstance {symbols : ℕ} {own : List (JsString × Property JsData)} :
      Foreign (.object false symbols own)
  | objectSymbol {plain : Bool} {symbols : ℕ} {own : List (JsString × Property JsData)} :
      symbols ≠ 0 → Foreign (.object plain symbols own)
  | objectProperty {plain : Bool} {symbols : ℕ} {own : List (JsString × Property JsData)}
      {p : JsString × Property JsData} : p ∈ own →
      p.2.hasValue = false ∨ p.2.enumerable = false → Foreign (.object plain symbols own)
  | proto {plain : Bool} {symbols : ℕ} {own : List (JsString × Property JsData)} :
      Js.lit "__proto__" ∈ own.map Prod.fst → Foreign (.object plain symbols own)
  | keySurrogate {plain : Bool} {symbols : ℕ} {own : List (JsString × Property JsData)}
      {k : JsString} : k ∈ own.map Prod.fst → ¬Js.WellFormed k → Foreign (.object plain symbols own)
  | longKey {plain : Bool} {symbols : ℕ} {own : List (JsString × Property JsData)} {k : JsString} :
      k ∈ own.map Prod.fst → canonMaxStringBytes < (Js.utf8 k).length →
      Foreign (.object plain symbols own)

/-- The parts of plain data of the class are plain data of the class. -/
theorem Part.denotes {d x : JsData} (h : Part d x) {v : JsValue} (hv : d.Denotes v)
    (hijson : IJson v) : ∃ w, x.Denotes w ∧ IJson w := by
  induction h with
  | self => exact ⟨v, hv, hijson⟩
  | @array length symbols own k x e _ hmem ih =>
      obtain ⟨w, hw, hijson⟩ := ih
      cases hw with
      | @array own items _ hnodup hlen hindex hdata hitems =>
          obtain ⟨i, hi, rfl⟩ := index_of_mem (by rw [List.length_map, hlen]) hindex
            (List.mem_map_of_mem hmem)
          obtain ⟨y, hy⟩ := hdata _ hmem
          obtain ⟨rfl, rfl⟩ : x = y ∧ e = true := by simpa using hy
          cases hijson with
          | array hall =>
              exact ⟨items[i], hitems i x _ hmem (List.getElem?_eq_getElem hi),
                hall _ (List.getElem_mem hi)⟩
  | @object plain symbols own k x e _ hmem ih =>
      obtain ⟨w, hw, hijson⟩ := ih
      cases hw with
      | @object own fields hnodup hnames hdata hfields =>
          have hkey : k ∈ fields.map Prod.fst := hnames ▸ List.mem_map_of_mem hmem
          obtain ⟨f, hf, rfl⟩ := List.mem_map.mp hkey
          obtain ⟨y, hy⟩ := hdata _ hmem
          obtain ⟨rfl, rfl⟩ : x = y ∧ e = true := by simpa using hy
          cases hijson with
          | object _ _ hall => exact ⟨f.2, hfields f.1 x f.2 hmem hf, hall f hf⟩

/-- Nothing of the class is foreign. -/
theorem Foreign.not_denotes {d : JsData} (h : Foreign d) {v : JsValue} (hv : d.Denotes v) :
    ¬IJson v := by
  intro hijson
  cases hv with
  | null => cases h
  | bool b => cases h
  | number n =>
      cases h with
      | number hn =>
          cases hijson with
          | number hsafe => simp [JsNumber.isSafeInteger, hsafe] at hn
  | string s =>
      cases hijson with
      | string hs =>
          cases h with
          | loneSurrogate hwf => exact hwf hs.1
          | longString hlen => exact absurd hs.2 (Nat.not_le_of_lt hlen)
  | @array own items hbound hnodup hlen hindex hdata hitems =>
      cases h with
      | arraySymbol hsymbols => exact hsymbols rfl
      | hole hi hmem => exact hmem (hindex _ hi)
      | extra hmem hne =>
          obtain ⟨i, hi, hk⟩ := index_of_mem (by rw [List.length_map, hlen]) hindex hmem
          exact hne i hi hk
      | arrayProperty hmem hp =>
          obtain ⟨x, hx⟩ := hdata _ hmem
          rw [hx] at hp
          simp [Property.hasValue, Property.enumerable] at hp
  | @object own fields hnodup hnames hdata hfields =>
      cases hijson with
      | object hproto hkeys hall =>
          have hfield : ∀ {k}, k ∈ own.map Prod.fst → ∃ f ∈ fields, f.1 = k := fun hk =>
            List.mem_map.mp (hnames ▸ hk)
          cases h with
          | objectSymbol hsymbols => exact hsymbols rfl
          | objectProperty hmem hp =>
              obtain ⟨x, hx⟩ := hdata _ hmem
              rw [hx] at hp
              simp [Property.hasValue, Property.enumerable] at hp
          | proto hmem =>
              obtain ⟨f, hf, hk⟩ := hfield hmem
              exact hproto f hf hk
          | keySurrogate hmem hwf =>
              obtain ⟨f, hf, rfl⟩ := hfield hmem
              exact hwf (hkeys f hf).1
          | longKey hmem hlen =>
              obtain ⟨f, hf, rfl⟩ := hfield hmem
              exact absurd (hkeys f hf).2 (Nat.not_le_of_lt hlen)

/-- **A value with a foreign part, at any depth, is refused.** -/
theorem canonicalizeData_foreign {d x : JsData} (hd : d.Lawful) (hx : Part d x) (h : Foreign x)
    (t : JsString) : canonicalizeData d ≠ .ok t := by
  intro hok
  obtain ⟨v, hv, hcanon, -⟩ := (canonicalizeData_eq_ok hd).mp hok
  obtain ⟨w, hw, hijson⟩ := hx.denotes hv hcanon.ijson
  exact h.not_denotes hw hijson

/-! ## The encoding is faithful -/

instance : Std.Total keyLe := ⟨fun a b => List.le_total a.1 b.1⟩

instance : IsTrans (JsString × JsValue) keyLe :=
  ⟨fun _ _ _ hab hbc => List.le_trans hab hbc⟩

theorem sortKeys_sortKeys {v : JsValue} (h : IJson v) : sortKeys (sortKeys v) = sortKeys v := by
  induction h with
  | null => rfl
  | bool b => rfl
  | number _ => rfl
  | string _ => rfl
  | @array items _ ih =>
      have hmap : (items.map sortKeys).map sortKeys = items.map sortKeys := by
        rw [List.map_map]
        exact List.map_congr_left ih
      rw [sortKeys, sortKeysItems_eq, sortKeys, sortKeysItems_eq, hmap]
  | @object fields _ _ _ ih =>
      have hsorted := List.pairwise_insertionSort keyLe (sortKeysFields fields)
      have hkeys : sortKeysFields ((sortKeysFields fields).insertionSort keyLe) =
          (sortKeysFields fields).insertionSort keyLe := by
        rw [sort_sortKeysFields, sortKeysFields_eq, List.map_map]
        refine List.map_congr_left fun f hf => ?_
        exact congrArg (Prod.mk f.1) (ih f ((List.mem_insertionSort keyLe).mp hf))
      rw [sortKeys, sortKeys, hkeys, hsorted.insertionSort_eq]

theorem IJson.sortKeys {v : JsValue} (h : IJson v) : IJson (sortKeys v) := by
  induction h with
  | null => exact .null
  | bool b => exact .bool b
  | number h => exact .number h
  | string h => exact .string h
  | @array items _ ih =>
      rw [Ha.sortKeys, sortKeysItems_eq]
      refine .array fun w hw => ?_
      obtain ⟨v, hv, rfl⟩ := List.mem_map.mp hw
      exact ih v hv
  | @object fields hproto hkeys _ ih =>
      have hmem : ∀ {g}, g ∈ (fields.insertionSort keyLe).map (fun f => (f.1, Ha.sortKeys f.2)) →
          ∃ f ∈ fields, g = (f.1, Ha.sortKeys f.2) := by
        intro g hg
        obtain ⟨f, hf, rfl⟩ := List.mem_map.mp hg
        exact ⟨f, (List.mem_insertionSort keyLe).mp hf, rfl⟩
      rw [Ha.sortKeys, sort_sortKeysFields]
      refine .object (fun g hg => ?_) (fun g hg => ?_) fun g hg => ?_
      · obtain ⟨f, hf, rfl⟩ := hmem hg
        exact hproto f hf
      · obtain ⟨f, hf, rfl⟩ := hmem hg
        exact hkeys f hf
      · obtain ⟨f, hf, rfl⟩ := hmem hg
        exact ih f hf

theorem depth_sortKeys {v : JsValue} (h : IJson v) : depth (sortKeys v) ≤ depth v := by
  induction h with
  | null => exact le_rfl
  | bool b => exact le_rfl
  | number _ => exact le_rfl
  | string _ => exact le_rfl
  | @array items _ ih =>
      rw [sortKeys, sortKeysItems_eq, depth, depthItems_le]
      intro w hw
      obtain ⟨v, hv, rfl⟩ := List.mem_map.mp hw
      exact lt_of_le_of_lt (ih v hv) (depthItems_le.mp le_rfl v hv)
  | @object fields _ _ _ ih =>
      rw [sortKeys, sort_sortKeysFields, depth, depthFields_le]
      intro g hg
      obtain ⟨f, hf, rfl⟩ := List.mem_map.mp hg
      have hf := (List.mem_insertionSort keyLe).mp hf
      exact lt_of_le_of_lt (ih f hf) (depthFields_le.mp le_rfl f hf)

theorem nodeCount_sortKeys {v : JsValue} (h : IJson v) : nodeCount (sortKeys v) = nodeCount v := by
  induction h with
  | null => rfl
  | bool b => rfl
  | number _ => rfl
  | string _ => rfl
  | @array items _ ih =>
      have hmap : (items.map sortKeys).map nodeCount = items.map nodeCount := by
        rw [List.map_map]
        exact List.map_congr_left ih
      rw [sortKeys, sortKeysItems_eq, nodeCount, nodeCountItems_eq, hmap, nodeCount,
        nodeCountItems_eq]
  | @object fields _ _ _ ih =>
      have hmap : ((fields.insertionSort keyLe).map fun f => (f.1, sortKeys f.2)).map
          (fun f => nodeCount f.2) = (fields.insertionSort keyLe).map fun f => nodeCount f.2 := by
        rw [List.map_map]
        exact List.map_congr_left fun f hf => ih f ((List.mem_insertionSort keyLe).mp hf)
      have hperm : ((fields.insertionSort keyLe).map fun f => nodeCount f.2).sum =
          (fields.map fun f => nodeCount f.2).sum :=
        ((List.perm_insertionSort keyLe fields).map _).sum_eq
      rw [sortKeys, sort_sortKeysFields, nodeCount, nodeCountFields_eq, hmap, hperm, nodeCount,
        nodeCountFields_eq]

/-- Sorting its keys leaves a value its canonical form. -/
theorem Canonicalizable.sortKeys {v : JsValue} (h : Canonicalizable v) :
    Canonicalizable (sortKeys v) ∧ canonText (sortKeys v) = canonText v := by
  have htext : canonText (Ha.sortKeys v) = canonText v := by
    rw [canonText, canonText, sortKeys_sortKeys h.ijson]
  refine ⟨⟨h.ijson.sortKeys, ?_, ?_, ?_⟩, htext⟩
  · exact le_trans (depth_sortKeys h.ijson) h.depth
  · exact (nodeCount_sortKeys h.ijson).trans_le h.nodes
  · rw [htext]
    exact h.bytes

theorem plain_of_ijson {v : JsValue} (h : IJson v) (hkeys : v.DistinctKeys) : Js.Plain v := by
  induction h with
  | null => exact .null
  | bool b => exact .bool b
  | number hsafe => exact .number (Js.readsBack_int hsafe)
  | string _ => exact .string _
  | array _ ih =>
      cases hkeys with
      | array hall => exact .array fun v hv => ih v hv (hall v hv)
  | object _ _ _ ih =>
      cases hkeys with
      | object hnodup hall => exact .object hnodup fun f hf => ih f hf (hall f hf)

/-- Plain values that agree once their keys are sorted are structurally equal. -/
theorem same_of_sortKeys {v w : JsValue} (hv : Js.Plain v) (hw : Js.Plain w)
    (h : sortKeys v = sortKeys w) : v.Same w := by
  induction hv generalizing w with
  | null =>
      cases hw <;> simp [sortKeys] at h
      exact .refl _
  | bool b =>
      cases hw <;> simp [sortKeys] at h
      rw [h]
      exact .refl _
  | number _ =>
      cases hw <;> simp [sortKeys] at h
      rw [h]
      exact .refl _
  | string s =>
      cases hw <;> simp [sortKeys] at h
      rw [h]
      exact .refl _
  | @array items _ ih =>
      cases hw <;> simp only [sortKeys, reduceCtorEq, JsValue.array.injEq] at h
      next items' hall' =>
        rw [sortKeysItems_eq, sortKeysItems_eq] at h
        exact .array_of_map h fun v hv w hw => ih v hv (hall' w hw)
  | @object fields hnodup _ ih =>
      cases hw <;> simp only [sortKeys, reduceCtorEq, JsValue.object.injEq] at h
      next fields' hnodup' hall' =>
        have hperm : (sortKeysFields fields).Perm (sortKeysFields fields') :=
          (List.perm_insertionSort keyLe _).symm.trans
            (h ▸ List.perm_insertionSort keyLe (sortKeysFields fields'))
        rw [sortKeysFields_eq, sortKeysFields_eq] at hperm
        exact .object_of_perm hnodup' hperm fun m hm m' hm' => ih m hm (hall' m' hm')

theorem le_nodeCountItems (items : List JsValue) :
    items.length ≤ nodeCountItems items ∧ ∀ v ∈ items, nodeCount v ≤ nodeCountItems items := by
  induction items with
  | nil => simp
  | cons v rest ih =>
      have hpos : 1 ≤ nodeCount v := by cases v <;> simp [nodeCount]
      obtain ⟨hlen, hle⟩ := ih
      rw [nodeCountItems, List.length_cons, List.forall_mem_cons]
      exact ⟨by omega, by omega, fun w hw => le_trans (hle w hw) (by omega)⟩

theorem le_nodeCountFields (fields : List (JsString × JsValue)) :
    ∀ f ∈ fields, nodeCount f.2 ≤ nodeCountFields fields := by
  induction fields with
  | nil => simp
  | cons f rest ih =>
      rw [nodeCountFields, List.forall_mem_cons]
      exact ⟨by omega, fun g hg => le_trans (ih g hg) (by omega)⟩

/-- The value that `JSON.parse` builds of plain data. -/
theorem exists_denotes {v : JsValue} (h : Js.Plain v) (hnodes : nodeCount v ≤ 4294967295) :
    ∃ d : JsData, d.Lawful ∧ d.Denotes v := by
  induction h with
  | null => exact ⟨_, .null, .null⟩
  | bool b => exact ⟨_, .bool b, .bool b⟩
  | number _ => exact ⟨_, .number _, .number _⟩
  | string _ => exact ⟨_, .string _, .string _⟩
  | @array items _ ih =>
      rw [nodeCount] at hnodes
      obtain ⟨hlen, hle⟩ := le_nodeCountItems items
      have hitem : ∀ w ∈ items, ∃ d : JsData, d.Lawful ∧ d.Denotes w := fun w hw =>
        ih w hw (le_trans (hle w hw) (by omega))
      choose! data hlawful hdenotes using hitem
      have hmem : ∀ {k v e}, (k, Property.data v e) ∈ (List.range items.length).map (fun i : ℕ =>
          (Js.decimal i, Property.data (data (items.getD i .undefined)) true)) →
          ∃ i, ∃ hi : i < items.length, k = Js.decimal i ∧ v = data items[i] := by
        intro k v e hkv
        obtain ⟨i, hi, heq⟩ := List.mem_map.mp hkv
        have hi := List.mem_range.mp hi
        rw [Prod.mk.injEq, Property.data.injEq] at heq
        refine ⟨i, hi, heq.1.symm, ?_⟩
        rw [← heq.2.1, List.getD_eq_getElem _ _ hi]
      have hnodup : (((List.range items.length).map (fun i : ℕ =>
          (Js.decimal i, Property.data (data (items.getD i .undefined)) true))).map Prod.fst).Nodup := by
        rw [List.map_map]
        exact indexNames_nodup _
      refine ⟨.array items.length 0 _, .array (by omega) hnodup ?_,
        .array (by omega) hnodup (by simp) ?_ ?_ ?_⟩
      · intro k v e hkv
        obtain ⟨i, hi, -, rfl⟩ := hmem hkv
        exact hlawful _ (List.getElem_mem hi)
      · intro i hi
        rw [List.map_map]
        exact List.mem_map.mpr ⟨i, List.mem_range.mpr hi, rfl⟩
      · intro p hp
        obtain ⟨i, -, rfl⟩ := List.mem_map.mp hp
        exact ⟨_, rfl⟩
      · intro i d v hd hv
        obtain ⟨j, hj, hij, rfl⟩ := hmem hd
        obtain rfl : i = j := Nat.cast_injective (Js.decimal_injective hij)
        obtain rfl : items[i] = v := by simpa [List.getElem?_eq_getElem hj] using hv
        exact hdenotes _ (List.getElem_mem hj)
  | @object fields hnodup _ ih =>
      rw [nodeCount] at hnodes
      have hfield : ∀ f ∈ fields, ∃ d : JsData, d.Lawful ∧ d.Denotes f.2 := fun f hf =>
        ih f hf (le_trans (le_nodeCountFields fields f hf) (by omega))
      choose! data hlawful hdenotes using hfield
      have hnames : (fields.map fun f => (f.1, Property.data (data f) true)).map Prod.fst =
          fields.map Prod.fst := by
        rw [List.map_map]
        rfl
      have hmem : ∀ {k v e}, (k, Property.data v e) ∈ fields.map (fun f =>
          (f.1, Property.data (data f) true)) → ∃ f ∈ fields, f.1 = k ∧ data f = v := by
        intro k v e hkv
        obtain ⟨f, hf, heq⟩ := List.mem_map.mp hkv
        rw [Prod.mk.injEq, Property.data.injEq] at heq
        exact ⟨f, hf, heq.1, heq.2.1⟩
      refine ⟨.object true 0 _, .object (hnames ▸ hnodup) ?_,
        .object (hnames ▸ hnodup) hnames ?_ ?_⟩
      · intro k v e hkv
        obtain ⟨f, hf, -, rfl⟩ := hmem hkv
        exact hlawful f hf
      · intro p hp
        obtain ⟨f, -, rfl⟩ := List.mem_map.mp hp
        exact ⟨_, rfl⟩
      · intro k d v hd hv
        obtain ⟨f, hf, rfl, rfl⟩ := hmem hd
        have hone : f = (f.1, v) := List.inj_on_of_nodup_map hnodup hf hv rfl
        have hdenoted := hdenotes f hf
        rwa [show f.2 = v from congrArg Prod.snd hone] at hdenoted

/-- **`canonicalize` is a faithful encoding.** It accepts the plain data within its bounds and
    nothing else. What it writes for a value is written for structurally equal values only, reads
    back as such a value, and is written for that one again. -/
theorem canonicalize_faithful (d : JsData) (hd : d.Lawful) :
    ((∃ t, canonicalizeData d = .ok t) ↔ ∃ v, d.Denotes v ∧ Canonicalizable v) ∧
    (∀ x, Part d x → Foreign x → ∃ e, canonicalizeData d = .error e) ∧
    ∀ t, canonicalizeData d = .ok t →
      (∀ d' : JsData, d'.Lawful → canonicalizeData d' = .ok t →
        ∀ v w, d.Denotes v → d'.Denotes w → v.Same w) ∧
      ∃ p, Js.parseJson t = some p ∧ (∀ v, d.Denotes v → p.Same v) ∧
        (∃ d' : JsData, d'.Lawful ∧ d'.Denotes p) ∧
        ∀ d' : JsData, d'.Denotes p → canonicalizeData d' = .ok t := by
  have hof : ∀ {d : JsData} {v : JsValue} {t : JsString}, d.Denotes v → canonicalizeData d = .ok t →
      Canonicalizable v ∧ t = canonText v ∧ Js.Plain v := by
    intro d v t hv hok
    rw [canonicalizeData_eq hv, canonicalize_eq_ok] at hok
    exact ⟨hok.1, hok.2, plain_of_ijson hok.1.ijson hv.distinctKeys⟩
  refine ⟨?_, ?_, ?_⟩
  · constructor
    · rintro ⟨t, ht⟩
      obtain ⟨v, hv, hcanon, -⟩ := (canonicalizeData_eq_ok hd).mp ht
      exact ⟨v, hv, hcanon⟩
    · rintro ⟨v, hv, hcanon⟩
      exact ⟨_, (canonicalizeData_eq_ok hd).mpr ⟨v, hv, hcanon, rfl⟩⟩
  · intro x hx hforeign
    cases hok : canonicalizeData d with
    | error e => exact ⟨e, rfl⟩
    | ok t => exact absurd hok (canonicalizeData_foreign hd hx hforeign t)
  · intro t ht
    constructor
    · intro d' _ ht' v w hv hw
      obtain ⟨hcanon, rfl, hplain⟩ := hof hv ht
      obtain ⟨hcanon', heq, hplain'⟩ := hof hw ht'
      refine same_of_sortKeys hplain hplain' (sortKeys_eq_of_canonicalize
        (canonicalize_eq_ok.mpr ⟨hcanon, rfl⟩) (canonicalize_eq_ok.mpr ⟨hcanon', heq⟩) hplain hplain')
    · obtain ⟨v, hv, hcanon, rfl⟩ := (canonicalizeData_eq_ok hd).mp ht
      obtain ⟨-, -, hplain⟩ := hof hv ht
      obtain ⟨hsorted, htext⟩ := hcanon.sortKeys
      have hsplain := plain_sortKeys hplain
      refine ⟨sortKeys v, hsplain.parse_stringify hcanon.ijson.hasText, ?_, ?_, ?_⟩
      · intro w hw
        obtain ⟨hcanon', heq, hplain'⟩ := hof hw ht
        refine same_of_sortKeys hsplain hplain' ?_
        rw [sortKeys_sortKeys hcanon.ijson]
        exact sortKeys_eq_of_canonicalize (canonicalize_eq_ok.mpr ⟨hcanon, rfl⟩)
          (canonicalize_eq_ok.mpr ⟨hcanon', heq⟩) hplain hplain'
      · exact exists_denotes hsplain (le_trans hsorted.nodes (by decide))
      · intro d' hd'
        rw [canonicalizeData_eq hd', canonicalize_eq_ok]
        exact ⟨hsorted, htext.symm⟩

/-- `{ b: [1, 'x'], a: null }`. -/
def unsortedData : JsData :=
  .object true 0 [
    (Js.lit "b", .data (.array 2 0 [
      (Js.lit "0", .data (.number (.fin 1)) true), (Js.lit "1", .data (.string (Js.lit "x")) true)])
      true),
    (Js.lit "a", .data .null true)]

theorem unsortedData_lawful : unsortedData.Lawful := by
  refine .object (by decide) fun k v e h => ?_
  simp only [List.mem_cons, Prod.mk.injEq, Property.data.injEq, List.not_mem_nil, or_false] at h
  rcases h with ⟨-, rfl, -⟩ | ⟨-, rfl, -⟩
  · refine .array (by decide) (by decide) fun k v e h => ?_
    simp only [List.mem_cons, Prod.mk.injEq, Property.data.injEq, List.not_mem_nil, or_false] at h
    rcases h with ⟨-, rfl, -⟩ | ⟨-, rfl, -⟩
    · exact .number _
    · exact .string _
  · exact .null

theorem canonicalize_faithful_unsorted :
    ∃ p, Js.parseJson (Js.lit "\x7b\"a\":null,\"b\":[1,\"x\"]\x7d") = some p ∧
      ∀ d' : JsData, d'.Denotes p →
        canonicalizeData d' = .ok (Js.lit "\x7b\"a\":null,\"b\":[1,\"x\"]\x7d") := by
  have hok : canonicalizeData unsortedData =
      .ok (Js.lit "\x7b\"a\":null,\"b\":[1,\"x\"]\x7d") := by decide +kernel
  obtain ⟨-, -, h⟩ := canonicalize_faithful unsortedData unsortedData_lawful
  obtain ⟨-, p, hparse, -, -, hagain⟩ := h _ hok
  exact ⟨p, hparse, hagain⟩

end Ha
