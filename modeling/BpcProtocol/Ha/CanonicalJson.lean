import BpcProtocol.Ha.Canonical
import BpcProtocol.Js.JsonRoundTrip
import BpcProtocol.Js.Utf8

set_option autoImplicit false

/-! # Canonical form is JSON

What `canonicalize` writes is the JSON text of the value with its keys sorted, so two values of one
canonical form differ in the order of their keys at most. -/

namespace Ha

open Fallible

/-! ## Strings -/

theorem jcsEscape_eq (c : UInt16) : jcsEscape c = Js.escapeUnit c := by
  unfold jcsEscape Js.escapeUnit
  split_ifs with h34 h92 h8 h12 h10 h13 h9 hlow
  all_goals try rfl
  -- below the blank the two upper digits of the escape are zeros
  have hc : c.toNat < 32 := by simpa [UInt16.lt_iff_toNat_lt] using hlow
  have h4 : c.toNat / 4096 = 0 := by omega
  have h3 : c.toNat / 256 % 16 = 0 := by omega
  have h2 : c.toNat / 16 % 16 = c.toNat / 16 := by omega
  rw [Js.unicodeEscape, h4, h3, h2]
  rfl

theorem assertNoLoneSurrogate_eq_ok {s : JsString} :
    assertNoLoneSurrogate s = .ok () ↔ Js.WellFormed s := by
  induction s using Js.WellFormed.induct with
  | case1 => simp [assertNoLoneSurrogate, Js.WellFormed]
  | case2 c =>
      rw [assertNoLoneSurrogate, Js.WellFormed]
      split
      · next hhigh => simp [hhigh]
      · next hhigh =>
          split
          · next hlow => simp [hlow]
          · next hlow => simp [hhigh, hlow]
  | case3 c d rest hhigh ih =>
      rw [assertNoLoneSurrogate, Js.WellFormed, if_pos hhigh, if_pos hhigh, ← ih]
      split
      · next hlow => simp [hlow]
      · next hlow => simp [hlow]
  | case4 c d rest hhigh ih =>
      rw [assertNoLoneSurrogate, Js.WellFormed, if_neg hhigh, if_neg hhigh, ← ih]
      split
      · next hlow => simp [hlow]
      · next hlow => simp [hlow]

/-- Without lone surrogates every code unit is escaped by itself. -/
theorem escapeText_eq {s : JsString} (h : Js.WellFormed s) :
    Js.escapeText s = s.flatMap jcsEscape := by
  have hsurrogate : ∀ {u : UInt16}, Js.isHighSurrogate u = true ∨ Js.isLowSurrogate u = true →
      jcsEscape u = [u] := by
    intro u hu
    rw [jcsEscape_eq, Js.escapeUnit_of_surrogate hu]
  induction s using Js.WellFormed.induct with
  | case1 => rfl
  | case2 c => simp [Js.escapeText, Js.escapeLone, h.1, h.2, jcsEscape_eq]
  | case3 c d rest hhigh ih =>
      rw [Js.WellFormed, if_pos hhigh] at h
      rw [Js.escapeText, if_pos (by rw [hhigh, h.1]; rfl), ih h.2, List.flatMap_cons,
        List.flatMap_cons, hsurrogate (Or.inl hhigh), hsurrogate (Or.inr h.1)]
      rfl
  | case4 c d rest hhigh ih =>
      rw [Js.WellFormed, if_neg hhigh] at h
      rw [Js.escapeText, if_neg (by simp [hhigh]), ih h.2]
      simp [Js.escapeLone, hhigh, h.1, jcsEscape_eq]

/-- A string that canonical form can write. -/
def JcsString (s : JsString) : Prop :=
  Js.WellFormed s ∧ (Js.utf8 s).length ≤ canonMaxStringBytes

theorem jcsString_eq_ok {s t : JsString} : jcsString s = .ok t ↔ JcsString s ∧ t = Js.quote s := by
  simp only [jcsString, bind_eq_ok, ensure_eq_ok, exists_unit, pure_eq_ok,
    assertNoLoneSurrogate_eq_ok]
  constructor
  · rintro ⟨hwf, hlen, rfl⟩
    refine ⟨⟨hwf, hlen⟩, ?_⟩
    rw [Js.quote, escapeText_eq hwf]
    rfl
  · rintro ⟨⟨hwf, hlen⟩, rfl⟩
    refine ⟨hwf, hlen, ?_⟩
    rw [Js.quote, escapeText_eq hwf]
    rfl

theorem jcsNumber_eq_ok {n : JsNumber} {t : JsString} :
    jcsNumber n = .ok t ↔
      ∃ i : ℤ, n = .fin i ∧ Js.isSafeInteger i = true ∧ t = Js.numberText n := by
  unfold jcsNumber
  constructor
  · intro h
    split at h
    · next i hi =>
        simp only [bind_eq_ok, ensure_eq_ok, exists_unit, pure_eq_ok] at h
        obtain ⟨hsafe, rfl⟩ := h
        have hn : n = .fin (i : ℚ) := by
          cases n with
          | fin q =>
              simp only [JsNumber.toInt?] at hi
              split at hi
              · next hden =>
                  obtain rfl := Option.some.inj hi
                  exact congrArg JsNumber.fin (Rat.ext rfl (by simpa using hden))
              · cases hi
          | nan => cases hi
          | posInf => cases hi
          | negInf => cases hi
        exact ⟨i, hn, hsafe, by rw [hn, Js.numberText_int hsafe]⟩
    · simp at h
  · rintro ⟨i, rfl, hsafe, rfl⟩
    simp only [JsNumber.toInt?_int, bind_eq_ok, ensure_eq_ok, exists_unit, pure_eq_ok]
    exact ⟨hsafe, (Js.numberText_int hsafe).symm⟩

/-! ## Sorted keys -/

mutual

/-- A value with the keys of its objects sorted. -/
def sortKeys : JsValue → JsValue
  | .array items => .array (sortKeysItems items)
  | .object fields => .object ((sortKeysFields fields).insertionSort keyLe)
  | v => v

def sortKeysItems : List JsValue → List JsValue
  | [] => []
  | v :: rest => sortKeys v :: sortKeysItems rest

def sortKeysFields : List (JsString × JsValue) → List (JsString × JsValue)
  | [] => []
  | (k, v) :: rest => (k, sortKeys v) :: sortKeysFields rest

end

theorem sortKeysItems_eq (items : List JsValue) : sortKeysItems items = items.map sortKeys := by
  induction items with
  | nil => rfl
  | cons v rest ih => rw [sortKeysItems, ih, List.map_cons]

theorem sortKeysFields_eq (fields : List (JsString × JsValue)) :
    sortKeysFields fields = fields.map fun f => (f.1, sortKeys f.2) := by
  induction fields with
  | nil => rfl
  | cons f rest ih => rw [sortKeysFields, ih, List.map_cons]

/-- Sorting by key sorts the same whatever stands under the keys. -/
theorem sort_sortKeysFields (fields : List (JsString × JsValue)) :
    (sortKeysFields fields).insertionSort keyLe =
      (fields.insertionSort keyLe).map fun f => (f.1, sortKeys f.2) := by
  rw [sortKeysFields_eq]
  exact (List.map_insertionSort keyLe keyLe (fun f : JsString × JsValue => (f.1, sortKeys f.2))
    fields fun _ _ _ _ => Iff.rfl).symm

/-! ## The text -/

/-- The JSON text of a value with its keys sorted. -/
def canonText (v : JsValue) : JsString := (Js.stringify (sortKeys v)).getD []

/-- A value with a text. -/
def HasText (v : JsValue) : Prop := Js.stringify (sortKeys v) = some (canonText v)

theorem stringifyItems_canonText {items : List JsValue} (h : ∀ v ∈ items, HasText v) :
    Js.stringifyItems (items.map sortKeys) = items.map canonText := by
  induction items with
  | nil => rfl
  | cons v rest ih =>
      rw [List.map_cons, Js.stringifyItems, h v List.mem_cons_self,
        ih fun w hw => h w (List.mem_cons_of_mem _ hw)]
      rfl

/-- A member of an object as canonical form writes it. -/
def canonMemberText (f : JsString × JsValue) : JsString := Js.memberText f.1 (canonText f.2)

theorem stringifyFields_canonText {fields : List (JsString × JsValue)}
    (h : ∀ f ∈ fields, HasText f.2) :
    Js.stringifyFields (fields.map fun f => (f.1, sortKeys f.2)) = fields.map canonMemberText := by
  induction fields with
  | nil => rfl
  | cons f rest ih =>
      rw [List.map_cons, Js.stringifyFields, h f List.mem_cons_self,
        ih fun g hg => h g (List.mem_cons_of_mem _ hg)]
      rfl

theorem hasText_of {v : JsValue} {t : JsString} (h : Js.stringify (sortKeys v) = some t) :
    HasText v ∧ canonText v = t := by
  have ht : canonText v = t := by
    rw [canonText, h]
    rfl
  exact ⟨by rw [HasText, h, ht], ht⟩

theorem text_array {items : List JsValue} (h : ∀ v ∈ items, HasText v) :
    HasText (.array items) ∧
      canonText (.array items) = 91 :: Js.commas (items.map canonText) ++ [93] :=
  hasText_of (by rw [sortKeys, sortKeysItems_eq, Js.stringify, stringifyItems_canonText h])

theorem text_object {fields : List (JsString × JsValue)} (h : ∀ f ∈ fields, HasText f.2) :
    HasText (.object fields) ∧ canonText (.object fields) =
      123 :: Js.commas ((fields.insertionSort keyLe).map canonMemberText) ++ [125] := by
  have hsorted : ∀ f ∈ fields.insertionSort keyLe, HasText f.2 :=
    fun f hf => h f ((List.mem_insertionSort keyLe).mp hf)
  exact hasText_of
    (by rw [sortKeys, sort_sortKeysFields, Js.stringify, stringifyFields_canonText hsorted])

/-! ## The accepted class -/

/-- The values of canonical form, but for the bounds on the whole of it. -/
inductive IJson : JsValue → Prop
  | null : IJson .null
  | bool (b : Bool) : IJson (.bool b)
  | number {i : ℤ} : Js.isSafeInteger i = true → IJson (.number (.fin i))
  | string {s : JsString} : JcsString s → IJson (.string s)
  | array {items : List JsValue} : (∀ v ∈ items, IJson v) → IJson (.array items)
  | object {fields : List (JsString × JsValue)} : (∀ f ∈ fields, f.1 ≠ Js.lit "__proto__") →
      (∀ f ∈ fields, JcsString f.1) → (∀ f ∈ fields, IJson f.2) → IJson (.object fields)

mutual

/-- How many arrays and objects the deepest part of a value is in. -/
def depth : JsValue → ℕ
  | .array items => depthItems items
  | .object fields => depthFields fields
  | _ => 0

def depthItems : List JsValue → ℕ
  | [] => 0
  | v :: rest => max (depth v + 1) (depthItems rest)

def depthFields : List (JsString × JsValue) → ℕ
  | [] => 0
  | (_, v) :: rest => max (depth v + 1) (depthFields rest)

end

mutual

/-- How many values a value is made of. -/
def nodeCount : JsValue → ℕ
  | .array items => 1 + nodeCountItems items
  | .object fields => 1 + nodeCountFields fields
  | _ => 1

def nodeCountItems : List JsValue → ℕ
  | [] => 0
  | v :: rest => nodeCount v + nodeCountItems rest

def nodeCountFields : List (JsString × JsValue) → ℕ
  | [] => 0
  | (_, v) :: rest => nodeCount v + nodeCountFields rest

end

/-- The values that have a canonical form. -/
structure Canonicalizable (v : JsValue) : Prop where
  ijson : IJson v
  depth : depth v ≤ canonMaxDepth
  nodes : nodeCount v ≤ canonMaxNodes
  bytes : (Js.utf8 (canonText v)).length ≤ canonMaxTotalBytes

theorem depthItems_le {items : List JsValue} {n : ℕ} :
    depthItems items ≤ n ↔ ∀ v ∈ items, depth v < n := by
  induction items with
  | nil => simp [depthItems]
  | cons v rest ih =>
      rw [depthItems, max_le_iff, ih, List.forall_mem_cons, Nat.succ_le_iff]

theorem depthFields_le {fields : List (JsString × JsValue)} {n : ℕ} :
    depthFields fields ≤ n ↔ ∀ f ∈ fields, depth f.2 < n := by
  induction fields with
  | nil => simp [depthFields]
  | cons f rest ih =>
      rw [depthFields, max_le_iff, ih, List.forall_mem_cons, Nat.succ_le_iff]

theorem nodeCountItems_eq (items : List JsValue) :
    nodeCountItems items = (items.map nodeCount).sum := by
  induction items with
  | nil => rfl
  | cons v rest ih => rw [nodeCountItems, ih, List.map_cons, List.sum_cons]

theorem nodeCountFields_eq (fields : List (JsString × JsValue)) :
    nodeCountFields fields = (fields.map fun f => nodeCount f.2).sum := by
  induction fields with
  | nil => rfl
  | cons f rest ih => rw [nodeCountFields, ih, List.map_cons, List.sum_cons]

theorem IJson.hasText {v : JsValue} (h : IJson v) : HasText v := by
  induction h with
  | null => exact (hasText_of rfl).1
  | bool b => exact (hasText_of rfl).1
  | number _ => exact (hasText_of rfl).1
  | string _ => exact (hasText_of rfl).1
  | array _ ih => exact (text_array ih).1
  | object _ _ _ ih => exact (text_object ih).1

/-! ## The text is well formed -/

theorem wellFormed_cons {c : UInt16} {s : JsString} (hc : c.toNat < 0xD800) (hs : Js.WellFormed s) :
    Js.WellFormed (c :: s) :=
  Js.wellFormed_append (s := [c]) (Js.wellFormed_of_units (by simpa using hc)) hs

theorem wellFormed_escape {c : UInt16} (hhigh : Js.isHighSurrogate c = false)
    (hlow : Js.isLowSurrogate c = false) : Js.WellFormed (jcsEscape c) := by
  have hhex : ∀ d ∈ Js.unicodeEscape c, d.toNat < 0xD800 := by
    have hdigit : ∀ n : ℕ, n < 16 → (Js.hexDigit n).toNat < 0xD800 := by decide
    have hc : c.toNat < 65536 := c.toNat_lt
    intro d hd
    simp only [Js.unicodeEscape, List.mem_cons, List.not_mem_nil, or_false] at hd
    rcases hd with rfl | rfl | rfl | rfl | rfl | rfl
    · decide
    · decide
    all_goals exact hdigit _ (by omega)
  rw [jcsEscape_eq, Js.escapeUnit]
  split_ifs
  all_goals first
    | exact ⟨hhigh, hlow⟩
    | exact Js.wellFormed_of_units hhex
    | exact Js.Ascii.wellFormed (by decide)

theorem wellFormed_quote {s : JsString} (h : Js.WellFormed s) : Js.WellFormed (Js.quote s) := by
  have hinside : Js.WellFormed (Js.escapeText s) := by
    rw [escapeText_eq h]
    induction s using Js.WellFormed.induct with
    | case1 => trivial
    | case2 c => simpa using wellFormed_escape h.1 h.2
    | case3 c d rest hhigh ih =>
        rw [Js.WellFormed, if_pos hhigh] at h
        have hpair : Js.WellFormed [c, d] := by
          rw [Js.WellFormed, if_pos hhigh]
          exact ⟨h.1, trivial⟩
        have hc : jcsEscape c = [c] := by
          rw [jcsEscape_eq, Js.escapeUnit_of_surrogate (Or.inl hhigh)]
        have hd : jcsEscape d = [d] := by
          rw [jcsEscape_eq, Js.escapeUnit_of_surrogate (Or.inr h.1)]
        rw [List.flatMap_cons, List.flatMap_cons, hc, hd, ← List.append_assoc]
        exact Js.wellFormed_append hpair (ih h.2)
    | case4 c d rest hhigh ih =>
        rw [Js.WellFormed, if_neg hhigh] at h
        exact Js.wellFormed_append (wellFormed_escape (by simpa using hhigh) h.1) (ih h.2)
  exact wellFormed_cons (by decide)
    (Js.wellFormed_append hinside (Js.Ascii.wellFormed (by decide)))

theorem wellFormed_commas {ts : List JsString} (h : ∀ t ∈ ts, Js.WellFormed t) :
    Js.WellFormed (Js.commas ts) := by
  induction ts using Js.commas.induct with
  | case1 => trivial
  | case2 t => exact h t List.mem_cons_self
  | case3 t rest hne ih =>
      rw [Js.commas]
      · exact Js.wellFormed_append (h t List.mem_cons_self)
          (wellFormed_cons (by decide) (ih fun u hu => h u (List.mem_cons_of_mem _ hu)))
      · exact hne

theorem isDigit_lt {c : UInt16} (h : Js.isDigit c = true) : c.toNat < 128 := by
  rw [Js.isDigit_iff] at h
  omega

theorem ascii_natDigits (n : ℕ) : Js.Ascii (Js.natDigits n) := fun _ hc =>
  isDigit_lt (Js.isDigit_of_mem_natDigits hc)

theorem ascii_decimal (n : ℤ) : Js.Ascii (Js.decimal n) := by
  rw [Js.decimal_eq]
  split
  · exact ascii_natDigits _
  · exact List.forall_mem_cons.mpr ⟨by decide, ascii_natDigits _⟩

theorem IJson.wellFormed {v : JsValue} (h : IJson v) : Js.WellFormed (canonText v) := by
  induction h with
  | null => exact Js.Ascii.wellFormed (by decide)
  | bool b => exact Js.Ascii.wellFormed (by cases b <;> decide)
  | @number i hsafe =>
      have htext : canonText (.number (.fin i)) = Js.decimal i :=
        (hasText_of (v := .number (.fin i)) (congrArg some (Js.numberText_int hsafe))).2
      rw [htext]
      exact (ascii_decimal i).wellFormed
  | string hs => exact wellFormed_quote hs.1
  | @array items hitems ih =>
      rw [(text_array fun v hv => (hitems v hv).hasText).2]
      refine wellFormed_cons (by decide) (Js.wellFormed_append (wellFormed_commas ?_)
        (Js.Ascii.wellFormed (by decide)))
      intro t ht
      obtain ⟨v, hv, rfl⟩ := List.mem_map.mp ht
      exact ih v hv
  | @object fields _ hkeys hfields ih =>
      rw [(text_object fun f hf => (hfields f hf).hasText).2]
      refine wellFormed_cons (by decide) (Js.wellFormed_append (wellFormed_commas ?_)
        (Js.Ascii.wellFormed (by decide)))
      intro t ht
      obtain ⟨f, hf, rfl⟩ := List.mem_map.mp ht
      have hf := (List.mem_insertionSort keyLe).mp hf
      exact Js.wellFormed_append (wellFormed_quote (hkeys f hf).1)
        (wellFormed_cons (by decide) (ih f hf))

/-! ## What the walk counts -/

/-- Within the bounds on nodes and bytes. -/
structure CanonState.Within (st : CanonState) : Prop where
  nodes : st.nodes ≤ canonMaxNodes
  bytes : st.bytes ≤ canonMaxTotalBytes

/-- `n` nodes and the text `t` later. -/
def CanonState.charge (st : CanonState) (n : ℕ) (t : JsString) : CanonState :=
  { nodes := st.nodes + n, bytes := st.bytes + (Js.utf8 t).length, parts := st.parts ++ t }

/-- Within the bounds, `x` counts `n` nodes and writes `t` where the bounds allow it, and fails
    elsewhere. -/
def Charges (x : CanonM Unit) (n : ℕ) (t : JsString) : Prop :=
  ∀ st st', st.Within → (x st = .ok ((), st') ↔ st' = st.charge n t ∧ st'.Within)

theorem canonBind_eq_ok {α β : Type} {x : CanonM α} {f : α → CanonM β} {st st'' : CanonState}
    {b : β} : (x >>= f) st = .ok (b, st'') ↔ ∃ a st', x st = .ok (a, st') ∧ f a st' = .ok (b, st'') := by
  show (x st >>= fun p => f p.1 p.2) = _ ↔ _
  rw [bind_eq_ok, Prod.exists]

theorem canonLift_eq_ok {α : Type} {x : Except HaError α} {st st' : CanonState} {a : α} :
    (StateT.lift x : CanonM α) st = .ok (a, st') ↔ x = .ok a ∧ st' = st := by
  show (x >>= fun a => pure (a, st)) = _ ↔ _
  simp only [bind_eq_ok, pure_eq_ok, Prod.mk.injEq]
  constructor
  · rintro ⟨a', hx, rfl, rfl⟩
    exact ⟨hx, rfl⟩
  · rintro ⟨hx, rfl⟩
    exact ⟨a, hx, rfl, rfl⟩

theorem charges_pure : Charges (pure ()) 0 [] := by
  intro st st' hst
  have hcharge : st.charge 0 [] = st := by simp [CanonState.charge, Js.utf8]
  rw [hcharge]
  show Except.ok ((), st) = _ ↔ _
  constructor
  · intro h
    cases h
    exact ⟨rfl, hst⟩
  · rintro ⟨rfl, -⟩
    rfl

theorem charges_push (t : JsString) : Charges (canonPush t) 0 t := by
  intro st st' hst
  simp only [canonPush, bind_eq_ok, ensure_eq_ok, exists_unit, pure_eq_ok, Prod.mk.injEq, true_and]
  constructor
  · rintro ⟨hbytes, rfl⟩
    exact ⟨rfl, hst.nodes, hbytes⟩
  · rintro ⟨rfl, hst'⟩
    exact ⟨hst'.bytes, rfl⟩

theorem charges_enter : Charges canonEnter 1 [] := by
  intro st st' hst
  simp only [canonEnter, bind_eq_ok, ensure_eq_ok, exists_unit, pure_eq_ok, Prod.mk.injEq, true_and]
  constructor
  · rintro ⟨hnodes, rfl⟩
    exact ⟨by simp [CanonState.charge, Js.utf8], hnodes, hst.bytes⟩
  · rintro ⟨rfl, hst'⟩
    exact ⟨hst'.nodes, by simp [CanonState.charge, Js.utf8]⟩

theorem Charges.andThen {x y : CanonM Unit} {n m : ℕ} {t u : JsString} (hx : Charges x n t)
    (hy : Charges y m u) (ht : Js.WellFormed t) : Charges (x >>= fun _ => y) (n + m) (t ++ u) := by
  intro st st'' hst
  have hcharge : (st.charge n t).charge m u = st.charge (n + m) (t ++ u) := by
    simp [CanonState.charge, Js.utf8_append ht, Nat.add_assoc]
  rw [canonBind_eq_ok]
  constructor
  · rintro ⟨_, st', hfirst, hsecond⟩
    obtain ⟨rfl, hst'⟩ := (hx st st' hst).mp hfirst
    rw [← hcharge]
    exact (hy _ st'' hst').mp hsecond
  · rintro ⟨rfl, hst''⟩
    -- what is within the bounds at the end is within them on the way
    have hst' : (st.charge n t).Within := by
      have hnodes := hst''.nodes
      have hbytes := hst''.bytes
      rw [← hcharge] at hnodes hbytes
      exact ⟨le_trans (Nat.le_add_right _ _) hnodes, le_trans (Nat.le_add_right _ _) hbytes⟩
    exact ⟨(), _, (hx st _ hst).mpr ⟨rfl, hst'⟩, (hy _ _ hst').mpr ⟨hcharge.symm, hst''⟩⟩

theorem charges_separated {α : Type} {entry : α → CanonM Unit} {count : α → ℕ}
    {text : α → JsString} {l : List α} (h : ∀ a ∈ l, Charges (entry a) (count a) (text a))
    (hwf : ∀ a ∈ l, Js.WellFormed (text a)) :
    Charges (canonSeparated entry l) (l.map count).sum (Js.commas (l.map text)) := by
  induction l with
  | nil => exact charges_pure
  | cons a rest ih =>
      cases rest with
      | nil => simpa [canonSeparated, Js.commas] using h a List.mem_cons_self
      | cons b rest =>
          have hrest := ih (fun c hc => h c (List.mem_cons_of_mem _ hc))
            fun c hc => hwf c (List.mem_cons_of_mem _ hc)
          have htail := (charges_push (Js.lit ",")).andThen hrest
            (Js.Ascii.wellFormed (by decide))
          rw [Nat.zero_add] at htail
          exact (h a List.mem_cons_self).andThen htail (hwf a List.mem_cons_self)

/-- What is written between brackets. -/
theorem charges_bracketed {x : CanonM Unit} {n : ℕ} {t : JsString} (o c : String)
    (ho : Js.WellFormed (Js.lit o)) (hx : Charges x n t) (ht : Js.WellFormed t) :
    Charges (do canonPush (Js.lit o); x; canonPush (Js.lit c)) n (Js.lit o ++ (t ++ Js.lit c)) := by
  have h := (charges_push (Js.lit o)).andThen (hx.andThen (charges_push (Js.lit c)) ht) ho
  rwa [Nat.zero_add, Nat.add_zero] at h

/-! ## The walk -/

/-- **The walk of a value of the class** writes its text, if the depth that is left is enough. -/
theorem IJson.charges {v : JsValue} (h : IJson v) {left : ℕ} (hdepth : depth v < left) :
    Charges (canonWalk left v) (nodeCount v) (canonText v) := by
  obtain ⟨left, rfl⟩ : ∃ k, left = k + 1 := ⟨left - 1, by omega⟩
  induction h generalizing left with
  | null => exact charges_enter.andThen (charges_push _) trivial
  | bool b => exact charges_enter.andThen (charges_push _) trivial
  | @number i hsafe =>
      have hnum : jcsNumber (.fin i) = .ok (Js.numberText (.fin i)) :=
        jcsNumber_eq_ok.mpr ⟨i, rfl, hsafe, rfl⟩
      have hwalk : canonWalk (left + 1) (.number (.fin i)) =
          (canonEnter >>= fun _ => canonPush (Js.numberText (.fin i))) := by
        simp only [canonWalk, hnum]
        rfl
      rw [hwalk]
      exact charges_enter.andThen (charges_push _) trivial
  | @string s hs =>
      have hwalk : canonWalk (left + 1) (.string s) =
          (canonEnter >>= fun _ => canonPush (Js.quote s)) := by
        simp only [canonWalk, jcsString_eq_ok.mpr ⟨hs, rfl⟩]
        rfl
      rw [hwalk]
      exact charges_enter.andThen (charges_push _) trivial
  | @array items hitems ih =>
      have hdepth : ∀ w ∈ items, depth w < left :=
        depthItems_le.mp (Nat.le_of_lt_succ hdepth)
      have hwf : ∀ w ∈ items, Js.WellFormed (canonText w) := fun w hw => (hitems w hw).wellFormed
      have hcharges : ∀ w ∈ items, Charges (canonWalk left w) (nodeCount w) (canonText w) := by
        intro w hw
        have hleft := hdepth w hw
        obtain ⟨k, rfl⟩ : ∃ k, left = k + 1 := ⟨left - 1, by omega⟩
        exact ih w hw k hleft
      have htexts : Js.WellFormed (Js.commas (items.map canonText)) := wellFormed_commas
        (by simpa using hwf)
      rw [(text_array fun w hw => (hitems w hw).hasText).2, nodeCount, nodeCountItems_eq]
      exact charges_enter.andThen (charges_bracketed "[" "]" (Js.Ascii.wellFormed (by decide))
        (charges_separated hcharges hwf) htexts) trivial
  | @object fields hproto hkeys hfields ih =>
      have hdepth : ∀ f ∈ fields, depth f.2 < left :=
        depthFields_le.mp (Nat.le_of_lt_succ hdepth)
      have hmem : ∀ {f}, f ∈ fields.insertionSort keyLe → f ∈ fields :=
        fun hf => (List.mem_insertionSort keyLe).mp hf
      have hwf : ∀ f ∈ fields.insertionSort keyLe, Js.WellFormed (canonMemberText f) :=
        fun f hf => Js.wellFormed_append (wellFormed_quote (hkeys f (hmem hf)).1)
          (wellFormed_cons (by decide) (hfields f (hmem hf)).wellFormed)
      have hcharges : ∀ f ∈ fields.insertionSort keyLe,
          Charges (canonMember (canonWalk left) f) (nodeCount f.2) (canonMemberText f) := by
        intro f hf
        have hleft := hdepth f (hmem hf)
        obtain ⟨k, rfl⟩ : ∃ k, left = k + 1 := ⟨left - 1, by omega⟩
        have hmember : canonMember (canonWalk (k + 1)) f =
            (canonPush (Js.quote f.1 ++ Js.lit ":") >>= fun _ => canonWalk (k + 1) f.2) := by
          simp only [canonMember, jcsString_eq_ok.mpr ⟨hkeys f (hmem hf), rfl⟩]
          rfl
        have hpush := (charges_push (Js.quote f.1 ++ Js.lit ":")).andThen
          (ih f (hmem hf) k hleft) (Js.wellFormed_append (wellFormed_quote (hkeys f (hmem hf)).1)
            (Js.Ascii.wellFormed (by decide)))
        rw [hmember]
        rwa [Nat.zero_add, List.append_assoc] at hpush
      have htexts : Js.WellFormed (Js.commas ((fields.insertionSort keyLe).map canonMemberText)) :=
        wellFormed_commas fun t ht => by
          obtain ⟨f, hf, rfl⟩ := List.mem_map.mp ht
          exact hwf f hf
      have hany : (fields.any fun f => f.1 == Js.lit "__proto__") = false := by
        rw [List.any_eq_false]
        exact fun f hf => by simpa using hproto f hf
      have hcount : (fields.map fun f => nodeCount f.2).sum =
          ((fields.insertionSort keyLe).map fun f => nodeCount f.2).sum :=
        ((List.perm_insertionSort keyLe fields).map _).sum_eq.symm
      have hwalk : canonWalk (left + 1) (.object fields) = (canonEnter >>= fun _ => do
          canonPush (Js.lit "\x7b")
          canonSeparated (canonMember (canonWalk left)) (fields.insertionSort keyLe)
          canonPush (Js.lit "\x7d")) := by
        simp only [canonWalk, hany]
        rfl
      rw [(text_object fun f hf => (hfields f hf).hasText).2, nodeCount, nodeCountFields_eq, hcount,
        hwalk]
      exact charges_enter.andThen (charges_bracketed "\x7b" "\x7d"
        (Js.Ascii.wellFormed (by decide)) (charges_separated hcharges hwf) htexts) trivial

/-- Every entry of a list that was written has been walked. -/
theorem canonSeparated_entries {α : Type} {entry : α → CanonM Unit} {l : List α}
    {st st' : CanonState} (h : canonSeparated entry l st = .ok ((), st')) :
    ∀ a ∈ l, ∃ st₁ st₂, entry a st₁ = .ok ((), st₂) := by
  induction l generalizing st with
  | nil => simp
  | cons a rest ih =>
      cases rest with
      | nil =>
          intro b hb
          rw [List.mem_singleton.mp hb]
          exact ⟨st, st', h⟩
      | cons b rest =>
          simp only [canonSeparated, canonBind_eq_ok] at h
          obtain ⟨_, st₁, h₁, _, st₂, -, h₃⟩ := h
          intro c hc
          rcases List.mem_cons.mp hc with rfl | hc
          · exact ⟨st, st₁, h₁⟩
          · exact ih h₃ c hc

/-- **Only values of the class are walked to the end**, and only where the depth is enough. -/
theorem ijson_of_walk (left : ℕ) (v : JsValue) {st st' : CanonState}
    (h : canonWalk left v st = .ok ((), st')) : IJson v ∧ depth v < left := by
  induction left generalizing v st st' with
  | zero =>
      simp only [canonWalk, canonFail] at h
      cases h
  | succ left ih =>
      unfold canonWalk at h
      rw [canonBind_eq_ok] at h
      obtain ⟨_, st₀, -, h⟩ := h
      cases v with
      | undefined => cases h
      | other => cases h
      | null => exact ⟨.null, by simp [depth]⟩
      | bool b => exact ⟨.bool b, by simp [depth]⟩
      | number n =>
          simp only [canonBind_eq_ok, canonLift_eq_ok] at h
          obtain ⟨t, _, ⟨hnum, -⟩, -⟩ := h
          obtain ⟨i, rfl, hsafe, -⟩ := jcsNumber_eq_ok.mp hnum
          exact ⟨.number hsafe, by simp [depth]⟩
      | string s =>
          simp only [canonBind_eq_ok, canonLift_eq_ok] at h
          obtain ⟨t, _, ⟨hstr, -⟩, -⟩ := h
          exact ⟨.string (jcsString_eq_ok.mp hstr).1, by simp [depth]⟩
      | array items =>
          simp only [canonBind_eq_ok] at h
          obtain ⟨_, _, -, _, _, hitems, -⟩ := h
          have hall : ∀ w ∈ items, IJson w ∧ depth w < left := by
            intro w hw
            obtain ⟨_, _, hok⟩ := canonSeparated_entries hitems w hw
            exact ih w hok
          exact ⟨.array fun w hw => (hall w hw).1,
            Nat.lt_succ_of_le (depthItems_le.mpr fun w hw => (hall w hw).2)⟩
      | object fields =>
          dsimp only at h
          by_cases hproto : (fields.any fun f => f.1 == Js.lit "__proto__") = true
          · rw [if_pos hproto, canonBind_eq_ok] at h
            obtain ⟨_, _, hfail, -⟩ := h
            cases hfail
          · rw [if_neg hproto] at h
            simp only [canonBind_eq_ok] at h
            obtain ⟨_, _, -, _, _, hfields, -⟩ := h
            have hall : ∀ f ∈ fields, JcsString f.1 ∧ IJson f.2 ∧ depth f.2 < left := by
              intro f hf
              obtain ⟨_, _, hok⟩ := canonSeparated_entries hfields f
                ((List.mem_insertionSort keyLe).mpr hf)
              simp only [canonMember, canonBind_eq_ok, canonLift_eq_ok] at hok
              obtain ⟨k, _, ⟨hk, -⟩, _, _, -, hwalk⟩ := hok
              exact ⟨(jcsString_eq_ok.mp hk).1, ih f.2 hwalk⟩
            rw [Bool.not_eq_true, List.any_eq_false] at hproto
            exact ⟨.object (fun f hf => by simpa using hproto f hf) (fun f hf => (hall f hf).1)
                fun f hf => (hall f hf).2.1,
              Nat.lt_succ_of_le (depthFields_le.mpr fun f hf => (hall f hf).2.2)⟩

/-- **The values that have a canonical form, and what it is**: the JSON text of the value with its
    keys sorted. -/
theorem canonicalize_eq_ok {v : JsValue} {t : JsString} :
    canonicalize v = .ok t ↔ Canonicalizable v ∧ t = canonText v := by
  have hstart : CanonState.Within { nodes := 0, bytes := 0, parts := [] } :=
    ⟨Nat.zero_le _, Nat.zero_le _⟩
  have hend : CanonState.charge { nodes := 0, bytes := 0, parts := [] } (nodeCount v) (canonText v) =
      { nodes := nodeCount v, bytes := (Js.utf8 (canonText v)).length, parts := canonText v } := by
    simp [CanonState.charge]
  simp only [canonicalize, bind_eq_ok, pure_eq_ok, Prod.exists]
  constructor
  · rintro ⟨_, st, hwalk, rfl⟩
    obtain ⟨hijson, hdepth⟩ := ijson_of_walk _ v hwalk
    obtain ⟨hst, hwithin⟩ := (hijson.charges hdepth _ st hstart).mp hwalk
    rw [hend] at hst
    subst hst
    exact ⟨⟨hijson, Nat.le_of_lt_succ hdepth, hwithin.nodes, hwithin.bytes⟩, rfl⟩
  · rintro ⟨hv, rfl⟩
    refine ⟨(), _, (hv.ijson.charges (Nat.lt_succ_of_le hv.depth) _ _ hstart).mpr ⟨rfl, ?_⟩, ?_⟩
    · rw [hend]
      exact ⟨hv.nodes, hv.bytes⟩
    · rw [hend]

theorem canonicalize_spec {v : JsValue} {t : JsString} (h : canonicalize v = .ok t) :
    Js.stringify (sortKeys v) = some t := by
  obtain ⟨hv, rfl⟩ := canonicalize_eq_ok.mp h
  exact hv.ijson.hasText

/-- Sorting the keys of plain data leaves it plain. -/
theorem plain_sortKeys {v : JsValue} (h : Js.Plain v) : Js.Plain (sortKeys v) := by
  induction h with
  | null => exact .null
  | bool b => exact .bool b
  | number hn => exact .number hn
  | string s => exact .string s
  | @array items _ ih =>
      rw [sortKeys, sortKeysItems_eq]
      refine .array fun w hw => ?_
      obtain ⟨v, hv, rfl⟩ := List.mem_map.mp hw
      exact ih v hv
  | @object fields hnodup _ ih =>
      rw [sortKeys, sort_sortKeysFields]
      refine .object ?_ fun g hg => ?_
      · rw [List.map_map]
        exact ((List.perm_insertionSort keyLe fields).map Prod.fst).nodup_iff.mpr hnodup
      · obtain ⟨f, hf, rfl⟩ := List.mem_map.mp hg
        exact ih f ((List.mem_insertionSort keyLe).mp hf)

/-- Plain values of one canonical form are equal but for the order of their keys. -/
theorem sortKeys_eq_of_canonicalize {v w : JsValue} {t : JsString} (hv : canonicalize v = .ok t)
    (hw : canonicalize w = .ok t) (hpv : Js.Plain v) (hpw : Js.Plain w) : sortKeys v = sortKeys w :=
  (plain_sortKeys hpv).eq_of_stringify (plain_sortKeys hpw)
    ((canonicalize_spec hv).trans (canonicalize_spec hw).symm)

end Ha
