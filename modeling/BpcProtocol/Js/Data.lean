import BpcProtocol.Js.Coerce
import BpcProtocol.Js.JsonRoundTrip

set_option autoImplicit false

/-! # Property descriptors

Values as reflection shows them, every own property with its descriptor, and which of them are
plain data. -/

/-- What `Object.getOwnPropertyDescriptor` answers: a data property or an accessor. -/
inductive Property (α : Type) where
  | data (value : α) (enumerable : Bool)
  | accessor (enumerable : Bool)

namespace Property

variable {α : Type}

/-- `'value' in d`. -/
def hasValue : Property α → Bool
  | data _ _ => true
  | accessor _ => false

/-- `d.enumerable`. -/
def enumerable : Property α → Bool
  | data _ e => e
  | accessor e => e

theorem eq_data {p : Property α} (hvalue : p.hasValue = true) (henumerable : p.enumerable = true) :
    ∃ a, p = data a true := by
  cases p with
  | data a e => exact ⟨a, congrArg (data a) henumerable⟩
  | accessor e => cases hvalue

end Property

/-- A value with the number of its symbol keys and the descriptors of its own properties under
    string keys. The `length` of an array stands apart from the others; an object is plain when its
    prototype is `Object.prototype` or `null`. -/
inductive JsData where
  | undefined
  | null
  | bool (b : Bool)
  | number (n : JsNumber)
  | bigint (n : ℤ)
  | string (s : JsString)
  | symbol
  | function
  | array (length : ℕ) (symbols : ℕ) (own : List (JsString × Property JsData))
  | object (plain : Bool) (symbols : ℕ) (own : List (JsString × Property JsData))

namespace JsData

instance : Inhabited JsData := ⟨.undefined⟩

/-- `v[key]`, of the own properties of `v`. The prototypes of arrays and plain objects have no
    property that is read here. -/
def read (own : List (JsString × Property JsData)) (key : JsString) : JsData :=
  match own.find? fun p => p.1 == key with
  | some (_, .data v _) => v
  | _ => undefined

/-- No object has two properties of one name. -/
inductive Lawful : JsData → Prop
  | undefined : Lawful .undefined
  | null : Lawful .null
  | bool (b : Bool) : Lawful (.bool b)
  | number (n : JsNumber) : Lawful (.number n)
  | bigint (n : ℤ) : Lawful (.bigint n)
  | string (s : JsString) : Lawful (.string s)
  | symbol : Lawful .symbol
  | function : Lawful .function
  | array {length symbols : ℕ} {own : List (JsString × Property JsData)} :
      length ≤ 4294967295 → (own.map Prod.fst).Nodup →
      (∀ k v e, (k, Property.data v e) ∈ own → Lawful v) → Lawful (.array length symbols own)
  | object {plain : Bool} {symbols : ℕ} {own : List (JsString × Property JsData)} :
      (own.map Prod.fst).Nodup → (∀ k v e, (k, Property.data v e) ∈ own → Lawful v) →
      Lawful (.object plain symbols own)

/-- `d` is the plain data `v`: dense arrays without other properties, plain objects, and nothing but
    enumerable data properties in them. -/
inductive Denotes : JsData → JsValue → Prop
  | null : Denotes .null .null
  | bool (b : Bool) : Denotes (.bool b) (.bool b)
  | number (n : JsNumber) : Denotes (.number n) (.number n)
  | string (s : JsString) : Denotes (.string s) (.string s)
  | array {own : List (JsString × Property JsData)} {items : List JsValue} :
      items.length ≤ 4294967295 → (own.map Prod.fst).Nodup → own.length = items.length →
      (∀ i : ℕ, i < items.length → Js.decimal i ∈ own.map Prod.fst) →
      (∀ p ∈ own, ∃ d, p.2 = .data d true) →
      (∀ (i : ℕ) d v, (Js.decimal i, .data d true) ∈ own → items[i]? = some v → Denotes d v) →
      Denotes (.array items.length 0 own) (.array items)
  | object {own : List (JsString × Property JsData)} {fields : List (JsString × JsValue)} :
      (own.map Prod.fst).Nodup → own.map Prod.fst = fields.map Prod.fst →
      (∀ p ∈ own, ∃ d, p.2 = .data d true) →
      (∀ k d v, (k, .data d true) ∈ own → (k, v) ∈ fields → Denotes d v) →
      Denotes (.object true 0 own) (.object fields)

theorem read_eq {own : List (JsString × Property JsData)} {key : JsString} {d : JsData} {e : Bool}
    (hnodup : (own.map Prod.fst).Nodup) (h : (key, Property.data d e) ∈ own) : read own key = d := by
  induction own with
  | nil => cases h
  | cons p rest ih =>
      rw [List.map_cons, List.nodup_cons] at hnodup
      rcases List.mem_cons.mp h with rfl | hrest
      · simp [read]
      · have hne : (p.1 == key) = false := by
          rw [beq_eq_false_iff_ne]
          rintro rfl
          exact hnodup.1 (List.mem_map.mpr ⟨_, hrest, rfl⟩)
        have := ih hnodup.2 hrest
        rwa [read, List.find?_cons, hne]

/-- What is read at a name there is. -/
theorem mem_of_read {own : List (JsString × Property JsData)} {key : JsString}
    (hdata : ∀ p ∈ own, ∃ d, p.2 = Property.data d true) (h : key ∈ own.map Prod.fst) :
    (key, Property.data (read own key) true) ∈ own := by
  obtain ⟨p, hp, rfl⟩ := List.mem_map.mp h
  obtain ⟨q, hq⟩ : ∃ q, own.find? (fun q => q.1 == p.1) = some q := by
    rw [← Option.isSome_iff_exists, List.find?_isSome]
    exact ⟨p, hp, by simp⟩
  have hmem := List.mem_of_find?_eq_some hq
  obtain ⟨d, hd⟩ := hdata q hmem
  have hkey : q.1 = p.1 := by simpa using List.find?_some hq
  have hpair : q = (p.1, Property.data d true) := Prod.ext hkey hd
  rw [read, hq, hpair]
  exact hpair ▸ hmem

/-- Nothing is read at a name there is not. -/
theorem read_of_not_mem {own : List (JsString × Property JsData)} {key : JsString}
    (h : key ∉ own.map Prod.fst) : read own key = undefined := by
  have hnone : own.find? (fun q => q.1 == key) = none := by
    rw [List.find?_eq_none]
    intro p hp hkey
    exact h (List.mem_map.mpr ⟨p, hp, by simpa using hkey⟩)
  rw [read, hnone]

end JsData

namespace JsValue

instance : Inhabited JsValue := ⟨.undefined⟩

/-- No object has two keys of one name. -/
inductive DistinctKeys : JsValue → Prop
  | undefined : DistinctKeys .undefined
  | null : DistinctKeys .null
  | bool (b : Bool) : DistinctKeys (.bool b)
  | number (n : JsNumber) : DistinctKeys (.number n)
  | string (s : JsString) : DistinctKeys (.string s)
  | other : DistinctKeys .other
  | array {items : List JsValue} : (∀ v ∈ items, DistinctKeys v) → DistinctKeys (.array items)
  | object {fields : List (JsString × JsValue)} : (fields.map Prod.fst).Nodup →
      (∀ f ∈ fields, DistinctKeys f.2) → DistinctKeys (.object fields)

/-- Structural equality: the order of an object's keys does not count. -/
inductive Same : JsValue → JsValue → Prop
  | refl (v : JsValue) : Same v v
  | array {items items' : List JsValue} : items.length = items'.length →
      (∀ (i : ℕ) v w, items[i]? = some v → items'[i]? = some w → Same v w) →
      Same (.array items) (.array items')
  | object {fields fields' : List (JsString × JsValue)} :
      (fields.map Prod.fst).Perm (fields'.map Prod.fst) →
      (∀ k v w, (k, v) ∈ fields → (k, w) ∈ fields' → Same v w) →
      Same (.object fields) (.object fields')

section Same

variable {f : JsValue → JsValue}

/-- Arrays are structurally equal where `f` tells their elements apart and finds no difference. -/
theorem Same.array_of_map {items items' : List JsValue} (h : items.map f = items'.map f)
    (hf : ∀ v ∈ items, ∀ w ∈ items', f v = f w → Same v w) : Same (.array items) (.array items') := by
  refine .array (by simpa using congrArg List.length h) fun i v w hi hi' => ?_
  have hget := congrArg (·[i]?) h
  simp only [List.getElem?_map, hi, hi', Option.map_some, Option.some.injEq] at hget
  exact hf v (List.mem_of_getElem? hi) w (List.mem_of_getElem? hi') hget

theorem Same.object_of_perm {fields fields' : List (JsString × JsValue)}
    (hnodup : (fields'.map Prod.fst).Nodup)
    (hperm : (fields.map fun m => (m.1, f m.2)).Perm (fields'.map fun m => (m.1, f m.2)))
    (hf : ∀ m ∈ fields, ∀ m' ∈ fields', f m.2 = f m'.2 → Same m.2 m'.2) :
    Same (.object fields) (.object fields') := by
  have hnames := hperm.map Prod.fst
  rw [List.map_map, List.map_map] at hnames
  refine .object hnames fun k v w hkv hkw => ?_
  have hmem : (k, f v) ∈ fields'.map fun m => (m.1, f m.2) :=
    hperm.mem_iff.mp (List.mem_map.mpr ⟨(k, v), hkv, rfl⟩)
  obtain ⟨m, hm, heq⟩ := List.mem_map.mp hmem
  obtain ⟨hk, hvalue⟩ := Prod.mk.inj heq
  -- one member of that key is there
  have hone : m = (k, w) := List.inj_on_of_nodup_map hnodup hm hkw hk
  rw [hone] at hvalue
  exact hf (k, v) hkv (k, w) hkw hvalue.symm

end Same

end JsValue

namespace JsData

/-- The keys of plain data are distinct. -/
theorem Denotes.distinctKeys {d : JsData} {v : JsValue} (h : Denotes d v) : v.DistinctKeys := by
  induction h with
  | null => exact .null
  | bool b => exact .bool b
  | number n => exact .number n
  | string s => exact .string s
  | @array own items _ _ _ hindex hdata _ ih =>
      refine .array fun v hv => ?_
      obtain ⟨i, hi, hget⟩ := List.mem_iff_getElem.mp hv
      exact ih i _ v (mem_of_read hdata (hindex i hi)) (by rw [List.getElem?_eq_getElem hi, hget])
  | @object own fields hnodup hnames hdata _ ih =>
      refine .object (hnames ▸ hnodup) fun f hf => ?_
      have hkey : f.1 ∈ own.map Prod.fst := hnames ▸ List.mem_map_of_mem hf
      exact ih f.1 _ f.2 (mem_of_read hdata hkey) hf

end JsData

/-! ## Index names -/

namespace Js

theorem isWhiteSpace_of_isDigit {c : UInt16} (h : isDigit c = true) : isWhiteSpace c = false := by
  rw [isDigit_iff] at h
  simp only [isWhiteSpace, Bool.or_eq_false_iff, Bool.and_eq_false_iff, decide_eq_false_iff_not,
    UInt16.le_iff_toNat_le, ← UInt16.toNat_inj]
  simp
  omega

theorem trim_digits {ds : JsString} (h : ∀ c ∈ ds, isDigit c = true) : trim ds = ds := by
  have hkeep : ∀ l : JsString, (∀ c ∈ l, isDigit c = true) → l.dropWhile isWhiteSpace = l := by
    intro l hl
    cases l with
    | nil => rfl
    | cons c cs =>
        rw [List.dropWhile_cons_of_neg]
        simp [isWhiteSpace_of_isDigit (hl c List.mem_cons_self)]
  rw [trim, hkeep ds h, hkeep _ fun c hc => h c (List.mem_reverse.mp hc), List.reverse_reverse]

/-- `Number(String(n))` is `n`. -/
theorem stringToNumber_natDigits {n : ℕ} (hn : n < 2 ^ 53) :
    stringToNumber (natDigits n) = .fin (n : ℚ) := by
  have hdigits : ∀ c ∈ natDigits n, isDigit c = true := fun c hc => isDigit_of_mem_natDigits hc
  have hspan : (natDigits n).span isDigit = (natDigits n, []) := by
    simpa using span_digits hdigits delimited_nil
  have hliteral : unsignedLiteral (natDigits n) = .fin (n : ℚ) := by
    have hword : natDigits n ≠ lit "Infinity" := by
      intro h
      have := hdigits 73 (by rw [h]; decide)
      exact absurd this (by decide)
    have hround : ofRat (decimalValue (natDigits n) [] 0) = .fin (n : ℚ) := by
      rw [show decimalValue (natDigits n) [] 0 = ((n : ℤ) : ℚ) by
        simp [decimalValue, ofDigits_natDigits]]
      exact ofRat_intCast (by simpa using hn)
    simp only [unsignedLiteral, if_neg hword, hspan]
    simp [natDigits_ne_nil, parseExponent, hround]
  unfold stringToNumber
  rw [trim_digits hdigits]
  split
  · next h => exact absurd h (natDigits_ne_nil n)
  · next c ds h =>
      -- a zero stands alone
      have hzero : n = 0 := natDigits_head (by rw [h]; rfl)
      rw [hzero, show natDigits 0 = [48] by decide] at h
      exact absurd (List.cons.inj h).2 (List.cons_ne_nil c ds).symm
  · next rest h => exact absurd (natDigits_head_isDigit h) (by decide)
  · next rest h => exact absurd (natDigits_head_isDigit h) (by decide)
  · exact hliteral

end Js
