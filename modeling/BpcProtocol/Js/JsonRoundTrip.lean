import BpcProtocol.Js.Json

set_option autoImplicit false

/-! # JSON there and back

What `JSON.stringify` writes for plain data, `JSON.parse` reads back. -/

namespace Js

/-! ## Digits -/

theorem isDigit_iff (c : UInt16) : isDigit c = true ↔ 48 ≤ c.toNat ∧ c.toNat ≤ 57 := by
  simp [isDigit, UInt16.le_iff_toNat_le]

private theorem toNat_digit {c : Char} (h : c.isDigit = true) :
    (c.toNat.toUInt16).toNat = c.toNat ∧ 48 ≤ c.toNat ∧ c.toNat ≤ 57 := by
  have hc : 48 ≤ c.toNat ∧ c.toNat ≤ 57 := by
    simpa [Char.isDigit, UInt32.le_iff_toNat_le] using h
  refine ⟨?_, hc⟩
  simp only [Nat.toUInt16, UInt16.toNat_ofNat']
  omega

theorem isDigit_of_mem_natDigits {n : ℕ} {c : UInt16} (h : c ∈ natDigits n) : isDigit c = true := by
  obtain ⟨d, hd, rfl⟩ := List.mem_map.mp h
  obtain ⟨heq, hlo, hhi⟩ := toNat_digit (Nat.isDigit_of_mem_toDigits (by decide) (by decide) hd)
  exact (isDigit_iff _).mpr (by omega)

theorem ofDigits_natDigits (n : ℕ) : ofDigits (natDigits n) = n := by
  have hfold : ∀ (cs : List Char) (i : ℕ), (∀ c ∈ cs, c.isDigit = true) →
      (cs.map fun c => c.toNat.toUInt16).foldl (fun n d => 10 * n + (d.toNat - 48)) i =
        Nat.ofDigitChars 10 cs i := by
    intro cs
    induction cs with
    | nil => intro i _; rfl
    | cons c cs ih =>
        intro i h
        have hc := (toNat_digit (h c List.mem_cons_self)).1
        rw [List.map_cons, List.foldl_cons, hc, ih _ fun d hd => h d (List.mem_cons_of_mem _ hd),
          Nat.ofDigitChars_cons]
        rfl
  unfold ofDigits natDigits
  rw [hfold _ _ fun c hc => Nat.isDigit_of_mem_toDigits (by decide) (by decide) hc]
  exact Nat.ofDigitChars_ten_toDigits

theorem natDigits_ne_nil (n : ℕ) : natDigits n ≠ [] := by
  simp [natDigits, Nat.toDigits_ne_nil]

/-- The digits of a number have no leading zero, except for zero itself. -/
theorem natDigits_head {n : ℕ} (h : (natDigits n).head? = some 48) : n = 0 := by
  induction n using Nat.strongRecOn with
  | ind n ih =>
      rcases Nat.lt_or_ge n 10 with hlt | hge
      · have : ∀ m < 10, (natDigits m).head? = some 48 → m = 0 := by decide +kernel
        exact this n hlt h
      · -- the leading digit is the leading digit of the tenth part
        have hsplit : natDigits n = natDigits (n / 10) ++ natDigits (n % 10) := by
          unfold natDigits
          rw [Nat.toDigits_of_base_le (by decide) hge, List.map_append,
            Nat.toDigits_of_lt_base (Nat.mod_lt n (by decide))]
        rw [hsplit, List.head?_append_of_ne_nil _ (natDigits_ne_nil _)] at h
        have := ih (n / 10) (by omega) h
        omega

/-- The text of an integer: its sign and its digits. -/
theorem decimal_eq (n : ℤ) :
    decimal n = if 0 ≤ n then natDigits n.toNat else 45 :: natDigits (-n).toNat := by
  unfold decimal lit natDigits
  rw [show toString n = n.repr from rfl, Int.repr_eq_if]
  split
  · rw [Nat.toList_repr]
  · rw [String.toList_append, Nat.toList_repr, List.map_append]
    rfl

theorem natDigits_injective : Function.Injective natDigits := by
  intro m n h
  rw [← ofDigits_natDigits m, h, ofDigits_natDigits]

theorem decimal_natCast (n : ℕ) : decimal n = natDigits n := by
  rw [decimal_eq, if_pos (Int.natCast_nonneg n), Int.toNat_natCast]

/-- Integers differ in their texts: a sign is no digit. -/
theorem decimal_injective : Function.Injective decimal := by
  have hsign : ∀ m n : ℕ, natDigits m ≠ 45 :: natDigits n := by
    intro m n h
    exact absurd (isDigit_of_mem_natDigits (h ▸ List.mem_cons_self)) (by decide)
  intro m n h
  rw [decimal_eq, decimal_eq] at h
  split at h <;> split at h
  · have := natDigits_injective h
    omega
  · exact absurd h (hsign _ _)
  · exact absurd h.symm (hsign _ _)
  · have := natDigits_injective (List.cons.inj h).2
    omega

/-! ## Numbers -/

/-- What may stand behind a value: nothing, a comma or a closing bracket. -/
def Delimited (rest : JsString) : Prop :=
  ∀ c ∈ rest.head?, c = 44 ∨ c = 93 ∨ c = 125

theorem delimited_nil : Delimited [] := by simp [Delimited]

theorem delimited_cons {c : UInt16} {rest : JsString} (h : c = 44 ∨ c = 93 ∨ c = 125) :
    Delimited (c :: rest) := by
  simpa [Delimited] using h

theorem Delimited.head_ne {c : UInt16} {rest : JsString} (h : Delimited (c :: rest)) :
    isDigit c = false ∧ c ≠ 46 ∧ c ≠ 101 ∧ c ≠ 69 := by
  have hc : c = 44 ∨ c = 93 ∨ c = 125 := by simpa [Delimited] using h
  rcases hc with rfl | rfl | rfl <;> decide

theorem span_digits {ds rest : JsString} (hds : ∀ c ∈ ds, isDigit c = true)
    (hrest : Delimited rest) : (ds ++ rest).span isDigit = (ds, rest) := by
  rw [List.span_eq_takeWhile_dropWhile, List.takeWhile_append_of_pos hds,
    List.dropWhile_append_of_pos hds]
  cases rest with
  | nil => simp
  | cons c rest => simp [hrest.head_ne.1]

theorem parseFraction_delimited {rest : JsString} (h : Delimited rest) :
    parseFraction rest = some ([], rest) := by
  cases rest with
  | nil => rfl
  | cons c rest =>
      rw [parseFraction]
      rintro _ ⟨⟩
      exact h.head_ne.2.1 rfl

theorem parseExponent_delimited {rest : JsString} (h : Delimited rest) :
    parseExponent rest = some (0, rest) := by
  cases rest with
  | nil => rfl
  | cons c rest =>
      obtain ⟨-, -, he, hE⟩ := h.head_ne
      simp [parseExponent, he, hE]

theorem parseUnsigned_natDigits (n : ℕ) {rest : JsString} (h : Delimited rest) :
    parseUnsigned (natDigits n ++ rest) = some ((n : ℚ), rest) := by
  have hspan : (natDigits n ++ rest).span isDigit = (natDigits n, rest) :=
    span_digits (fun c hc => isDigit_of_mem_natDigits hc) h
  have hzero : ((natDigits n).isEmpty ||
      ((natDigits n).head? = some 48 && 1 < (natDigits n).length)) = false := by
    simp only [Bool.or_eq_false_iff, List.isEmpty_eq_false_iff, ne_eq, natDigits_ne_nil,
      not_false_eq_true, Bool.and_eq_false_imp, decide_eq_true_eq, decide_eq_false_iff_not,
      true_and]
    intro hhead
    rw [natDigits_head hhead]
    decide
  have hvalue : decimalValue (natDigits n) [] 0 = (n : ℚ) := by
    simp [decimalValue, ofDigits_natDigits]
  unfold parseUnsigned
  simp only [hspan, hzero, parseFraction_delimited h, Bool.false_eq_true, if_false,
    Option.bind_eq_bind, Option.bind_some, parseExponent_delimited h, hvalue]
  rfl

theorem natDigits_head_isDigit {n : ℕ} {c : UInt16} {cs : JsString} (h : natDigits n = c :: cs) :
    isDigit c = true :=
  isDigit_of_mem_natDigits (h ▸ List.mem_cons_self)

/-- A number that its text reads back as, wherever a value may end. The first character tells the
    number from every other value. -/
def ReadsBack (n : JsNumber) : Prop :=
  n.isFinite = true ∧ (∃ c cs, numberText n = c :: cs ∧ (isDigit c = true ∨ c = 45)) ∧
    ∀ rest, Delimited rest → parseNumber (numberText n ++ rest) = some (n, rest)

theorem numberText_int {n : ℤ} (h : isSafeInteger n = true) :
    numberText (.fin n) = decimal n := by
  simp [numberText, h]

/-- The text of an integer starts as a number does. -/
theorem decimal_head (n : ℤ) : ∃ c cs, decimal n = c :: cs ∧ (isDigit c = true ∨ c = 45) := by
  rw [decimal_eq]
  split
  · obtain ⟨c, cs, hc⟩ := List.exists_cons_of_ne_nil (natDigits_ne_nil n.toNat)
    exact ⟨c, cs, hc, Or.inl (natDigits_head_isDigit hc)⟩
  · exact ⟨45, _, rfl, Or.inr rfl⟩

/-- An integer is read as the double next to it. -/
theorem parseNumber_decimal (n : ℤ) {rest : JsString} (hrest : Delimited rest) :
    parseNumber (decimal n ++ rest) =
      some (if 0 ≤ n then ofRat n else (ofRat (-n : ℤ)).neg, rest) := by
  rw [decimal_eq]
  split
  · next hn =>
      have hcast : ((n.toNat : ℕ) : ℚ) = (n : ℚ) := by
        exact_mod_cast congrArg (fun z : ℤ => (z : ℚ)) (Int.toNat_of_nonneg hn)
      rw [parseNumber]
      · rw [parseUnsigned_natDigits _ hrest]
        simp [hcast]
      · intro tail htail
        obtain ⟨c, cs, hc⟩ := List.exists_cons_of_ne_nil (natDigits_ne_nil n.toNat)
        have hd := natDigits_head_isDigit hc
        rw [hc, List.cons_append, List.cons.injEq] at htail
        rw [htail.1] at hd
        exact absurd hd (by decide)
  · next hn =>
      have hcast : (((-n).toNat : ℕ) : ℚ) = ((-n : ℤ) : ℚ) := by
        exact_mod_cast congrArg (fun z : ℤ => (z : ℚ))
          (Int.toNat_of_nonneg (show 0 ≤ -n by omega))
      rw [List.cons_append, parseNumber, parseUnsigned_natDigits _ hrest, hcast]
      rfl

theorem readsBack_int {n : ℤ} (h : isSafeInteger n = true) : ReadsBack (.fin n) := by
  have hbits : n.natAbs < 2 ^ 53 := by
    unfold isSafeInteger maxSafeInteger at h
    rw [Bool.and_eq_true, decide_eq_true_iff, decide_eq_true_iff] at h
    omega
  unfold ReadsBack
  rw [numberText_int h]
  refine ⟨rfl, decimal_head n, fun rest hrest => ?_⟩
  rw [parseNumber_decimal n hrest]
  split
  · rw [ofRat_intCast hbits]
  · rw [ofRat_intCast (by omega)]
    simp [JsNumber.neg]

/-! ## Strings -/

theorem hexValue_hexDigit {n : ℕ} (h : n < 16) : hexValue (hexDigit n) = some n := by
  have : ∀ m < 16, hexValue (hexDigit m) = some m := by decide
  exact this n h

theorem hexUnit_unicodeEscape (c : UInt16) :
    hexUnit (hexDigit (c.toNat / 4096)) (hexDigit (c.toNat / 256 % 16))
      (hexDigit (c.toNat / 16 % 16)) (hexDigit (c.toNat % 16)) = some c := by
  have hc : c.toNat < 65536 := c.toNat_lt
  unfold hexUnit
  rw [hexValue_hexDigit (by omega), hexValue_hexDigit (by omega), hexValue_hexDigit (by omega),
    hexValue_hexDigit (by omega)]
  have hsum : 4096 * (c.toNat / 4096) + 256 * (c.toNat / 256 % 16) + 16 * (c.toNat / 16 % 16) +
      c.toNat % 16 = c.toNat := by
    omega
  simp only [Option.bind_eq_bind, Option.bind_some, hsum]
  exact congrArg some (UInt16.ofNat_toNat)

/-- One more code unit in front of a string that was read. -/
def consUnit (c : UInt16) (p : JsString × JsString) : JsString × JsString := (c :: p.1, p.2)

theorem parseChars_unicodeEscape (c : UInt16) (rest : JsString) :
    parseChars (unicodeEscape c ++ rest) = (parseChars rest).map (consUnit c) := by
  simp only [unicodeEscape, List.cons_append, List.nil_append]
  rw [parseChars, hexUnit_unicodeEscape]
  cases parseChars rest <;> rfl

theorem parseChars_shortEscape {c e : UInt16} (rest : JsString) (he : e ≠ 117)
    (h : shortEscape e = some c) :
    parseChars (92 :: e :: rest) = (parseChars rest).map (consUnit c) := by
  rw [parseChars]
  · rw [h]
    cases parseChars rest <;> rfl
  · intro a b d u tail h117
    exact absurd h117 he

theorem parseChars_plain {c : UInt16} (rest : JsString) (h34 : c ≠ 34) (h92 : c ≠ 92)
    (hlow : ¬ c < 32) : parseChars (c :: rest) = (parseChars rest).map (consUnit c) := by
  rw [parseChars]
  · rw [if_neg hlow]
    cases parseChars rest <;> rfl
  · exact h34
  · intro a b d u tail h
    exact absurd h h92
  · intro e tail h
    exact absurd h h92

theorem parseChars_escapeUnit (c : UInt16) (rest : JsString) :
    parseChars (escapeUnit c ++ rest) = (parseChars rest).map (consUnit c) := by
  have hshort : ∀ {e : UInt16}, e ≠ 117 → shortEscape e = some c →
      parseChars ([92, e] ++ rest) = (parseChars rest).map (consUnit c) :=
    fun he h => parseChars_shortEscape rest he h
  unfold escapeUnit
  split_ifs with h34 h92 h8 h12 h10 h13 h9 hlow
  · exact hshort (by decide) (by rw [h34]; decide)
  · exact hshort (by decide) (by rw [h92]; decide)
  · exact hshort (by decide) (by rw [h8]; decide)
  · exact hshort (by decide) (by rw [h12]; decide)
  · exact hshort (by decide) (by rw [h10]; decide)
  · exact hshort (by decide) (by rw [h13]; decide)
  · exact hshort (by decide) (by rw [h9]; decide)
  · exact parseChars_unicodeEscape c rest
  · exact parseChars_plain rest h34 h92 hlow

theorem parseChars_escapeLone (c : UInt16) (rest : JsString) :
    parseChars (escapeLone c ++ rest) = (parseChars rest).map (consUnit c) := by
  unfold escapeLone
  split
  · exact parseChars_unicodeEscape c rest
  · exact parseChars_escapeUnit c rest

theorem le_of_surrogate {c : UInt16} (h : isHighSurrogate c = true ∨ isLowSurrogate c = true) :
    0xD800 ≤ c.toNat := by
  rcases h with h | h
  · simp only [isHighSurrogate, Bool.and_eq_true, decide_eq_true_eq, UInt16.le_iff_toNat_le] at h
    exact h.1
  · simp only [isLowSurrogate, Bool.and_eq_true, decide_eq_true_eq, UInt16.le_iff_toNat_le] at h
    exact Nat.le_trans (by decide) h.1

/-- A code unit behind the ASCII range is none of those that are escaped. -/
theorem not_escaped {c : UInt16} (h : 128 ≤ c.toNat) :
    c ≠ 34 ∧ c ≠ 92 ∧ c ≠ 8 ∧ c ≠ 12 ∧ c ≠ 10 ∧ c ≠ 13 ∧ c ≠ 9 ∧ ¬ c < 32 := by
  have hne : ∀ d : UInt16, d.toNat < 128 → c ≠ d := by
    rintro d hd rfl
    omega
  refine ⟨hne _ (by decide), hne _ (by decide), hne _ (by decide), hne _ (by decide),
    hne _ (by decide), hne _ (by decide), hne _ (by decide), ?_⟩
  rw [UInt16.lt_iff_toNat_lt]
  exact Nat.not_lt.mpr (Nat.le_trans (by decide) h)

theorem escapeUnit_of_surrogate {c : UInt16}
    (h : isHighSurrogate c = true ∨ isLowSurrogate c = true) : escapeUnit c = [c] := by
  obtain ⟨h34, h92, h8, h12, h10, h13, h9, hlow⟩ :=
    not_escaped (Nat.le_trans (by decide) (le_of_surrogate h))
  simp [escapeUnit, h34, h92, h8, h12, h10, h13, h9, hlow]

/-- A surrogate is read as it is written. -/
theorem parseChars_surrogate {c : UInt16} (rest : JsString)
    (h : isHighSurrogate c = true ∨ isLowSurrogate c = true) :
    parseChars (c :: rest) = (parseChars rest).map (consUnit c) := by
  have := parseChars_escapeUnit c rest
  rwa [escapeUnit_of_surrogate h] at this

/-- A quoted string reads back, from behind its opening quote. -/
theorem parseChars_escapeText (s rest : JsString) :
    parseChars (escapeText s ++ 34 :: rest) = some (s, rest) := by
  induction s using escapeText.induct with
  | case1 => rfl
  | case2 c =>
      rw [escapeText, parseChars_escapeLone]
      rfl
  | case3 c d tail hpair ih =>
      rw [Bool.and_eq_true] at hpair
      rw [escapeText, if_pos (by rw [hpair.1, hpair.2]; rfl), List.cons_append, List.cons_append,
        parseChars_surrogate _ (Or.inl hpair.1), parseChars_surrogate _ (Or.inr hpair.2), ih]
      rfl
  | case4 c d tail hpair ih =>
      rw [escapeText, if_neg hpair, List.append_assoc, parseChars_escapeLone, ih]
      rfl

/-! ## Values -/

/-- Plain data: finite numbers that read back, and objects whose keys are distinct. -/
inductive Plain : JsValue → Prop
  | null : Plain .null
  | bool (b : Bool) : Plain (.bool b)
  | number {n : JsNumber} : ReadsBack n → Plain (.number n)
  | string (s : JsString) : Plain (.string s)
  | array {items : List JsValue} : (∀ v ∈ items, Plain v) → Plain (.array items)
  | object {fields : List (JsString × JsValue)} : (fields.map Prod.fst).Nodup →
      (∀ f ∈ fields, Plain f.2) → Plain (.object fields)

/-- A text that a value reads back from, wherever a value may stand. It starts with no blank. -/
structure Reads (v : JsValue) (t : JsString) : Prop where
  head : ∃ c cs, t = c :: cs ∧ isSpace c = false ∧ c ≠ 93 ∧ c ≠ 125
  parse : ∀ fuel, t.length ≤ fuel → ∀ rest, Delimited rest →
    parseValue fuel (t ++ rest) = some (v, rest)

theorem skipSpace_cons {c : UInt16} (h : isSpace c = false) (rest : JsString) :
    skipSpace (c :: rest) = c :: rest := by
  simp [skipSpace, h]

theorem reads_string (s : JsString) : Reads (.string s) (quote s) where
  head := ⟨34, _, rfl, by decide, by decide, by decide⟩
  parse fuel hfuel rest hrest := by
    obtain ⟨fuel, rfl⟩ : ∃ k, fuel = k + 1 := ⟨fuel - 1, by simp [quote] at hfuel; omega⟩
    have hq : quote s ++ rest = 34 :: (escapeText s ++ 34 :: rest) := by simp [quote]
    rw [hq, parseValue, skipSpace_cons (by decide)]
    simp only [parseChars_escapeText, Option.map_some]

/-- A text that starts as a number does and reads as one. -/
theorem reads_of_parseNumber {n : JsNumber} {t : JsString}
    (head : ∃ c cs, t = c :: cs ∧ (isDigit c = true ∨ c = 45))
    (hparse : ∀ rest, Delimited rest → parseNumber (t ++ rest) = some (n, rest)) :
    Reads (.number n) t := by
  obtain ⟨c, cs, hc, hhead⟩ := head
  have hne : isSpace c = false ∧ c ≠ 93 ∧ c ≠ 125 ∧ c ≠ 123 ∧ c ≠ 91 ∧ c ≠ 34 ∧ c ≠ 110 ∧
      c ≠ 116 ∧ c ≠ 102 := by
    rcases hhead with hd | rfl
    · rw [isDigit_iff] at hd
      have hne : ∀ d : UInt16, d.toNat < 48 ∨ 57 < d.toNat → c ≠ d := by
        rintro d hd' rfl
        omega
      refine ⟨?_, ?_, ?_, ?_, ?_, ?_, ?_, ?_, ?_⟩
      · simp [isSpace, hne 32 (by decide), hne 9 (by decide), hne 10 (by decide),
          hne 13 (by decide)]
      all_goals exact hne _ (by decide)
    · decide
  obtain ⟨hspace, h93, h125, h123, h91, h34, h110, h116, h102⟩ := hne
  refine ⟨⟨c, cs, hc, hspace, h93, h125⟩, fun fuel hfuel rest hrest => ?_⟩
  obtain ⟨fuel, rfl⟩ : ∃ k, fuel = k + 1 := ⟨fuel - 1, by rw [hc] at hfuel; simp at hfuel; omega⟩
  rw [parseValue]
  have hskip : skipSpace (t ++ rest) = c :: (cs ++ rest) := by
    rw [hc, List.cons_append, skipSpace_cons hspace]
  have hnum : parseNumber (c :: (cs ++ rest)) = some (n, rest) := by
    have := hparse rest hrest
    rwa [hc] at this
  rw [hskip]
  split <;> simp_all

theorem reads_number {n : JsNumber} (h : ReadsBack n) : Reads (.number n) (numberText n) :=
  reads_of_parseNumber h.2.1 h.2.2

theorem parseItems_reads {items : List JsValue} {ts : List JsString}
    (h : List.Forall₂ Reads items ts) (hne : items ≠ []) {fuel : ℕ}
    (hfuel : (commas ts).length + 1 ≤ fuel) (rest : JsString) :
    parseItems fuel (commas ts ++ 93 :: rest) = some (items, rest) := by
  induction h generalizing fuel with
  | nil => exact absurd rfl hne
  | @cons v t items ts hv hts ih =>
      obtain ⟨fuel, rfl⟩ : ∃ k, fuel = k + 1 := ⟨fuel - 1, by omega⟩
      cases hts with
      | nil =>
          have hparse := hv.parse fuel (by simp only [commas] at hfuel; omega) (93 :: rest)
            (delimited_cons (Or.inr (Or.inl rfl)))
          rw [commas, parseItems, hparse]
          simp only [skipSpace_cons (show isSpace 93 = false by decide)]
      | @cons v' t' items' ts' hv' hts' =>
          have hlen : (commas (t :: t' :: ts')).length = t.length + 1 +
              (commas (t' :: ts')).length := by
            simp [commas]
            omega
          have htext : commas (t :: t' :: ts') ++ 93 :: rest =
              t ++ 44 :: (commas (t' :: ts') ++ 93 :: rest) := by
            simp [commas]
          have hparse := hv.parse fuel (by omega) (44 :: (commas (t' :: ts') ++ 93 :: rest))
            (delimited_cons (Or.inl rfl))
          rw [htext, parseItems, hparse]
          simp only [skipSpace_cons (show isSpace 44 = false by decide)]
          rw [ih (by simp) (by omega)]
          rfl

theorem parseKey_quote (k rest : JsString) :
    parseMembers.parseKey (quote k ++ 58 :: rest) = some (k, rest) := by
  have hq : quote k ++ 58 :: rest = 34 :: (escapeText k ++ 34 :: 58 :: rest) := by simp [quote]
  rw [hq, parseMembers.parseKey, skipSpace_cons (by decide)]
  simp only [parseChars_escapeText, skipSpace_cons (show isSpace 58 = false by decide)]

/-- A member as it is written. -/
def memberText (k t : JsString) : JsString := quote k ++ 58 :: t

/-- A member and its text. -/
def MemberReads (f : JsString × JsValue) (t : JsString) : Prop :=
  ∃ u, t = memberText f.1 u ∧ Reads f.2 u

theorem parseMembers_reads {fields : List (JsString × JsValue)} {ts : List JsString}
    (h : List.Forall₂ MemberReads fields ts) (hne : fields ≠ []) {fuel : ℕ}
    (hfuel : (commas ts).length + 1 ≤ fuel) (rest : JsString) :
    parseMembers fuel (commas ts ++ 125 :: rest) = some (fields, rest) := by
  induction h generalizing fuel with
  | nil => exact absurd rfl hne
  | @cons f t fields ts hf hts ih =>
      obtain ⟨fuel, rfl⟩ : ∃ k, fuel = k + 1 := ⟨fuel - 1, by omega⟩
      obtain ⟨u, rfl, hu⟩ := hf
      have hlen : u.length + 1 ≤ (memberText f.1 u).length := by
        simp [memberText]
      have hmember : ∀ tail, memberText f.1 u ++ tail = quote f.1 ++ 58 :: (u ++ tail) := by
        simp [memberText]
      cases hts with
      | nil =>
          have hparse := hu.parse fuel (by simp only [commas] at hfuel; omega) (125 :: rest)
            (delimited_cons (Or.inr (Or.inr rfl)))
          rw [commas, parseMembers, hmember, parseKey_quote]
          simp only [hparse, skipSpace_cons (show isSpace 125 = false by decide)]
      | @cons f' t' fields' ts' hf' hts' =>
          have hcommas : (commas (memberText f.1 u :: t' :: ts')).length =
              (memberText f.1 u).length + 1 + (commas (t' :: ts')).length := by
            simp [commas]
            omega
          have htext : commas (memberText f.1 u :: t' :: ts') ++ 125 :: rest =
              memberText f.1 u ++ 44 :: (commas (t' :: ts') ++ 125 :: rest) := by
            simp [commas]
          have hparse := hu.parse fuel (by omega) (44 :: (commas (t' :: ts') ++ 125 :: rest))
            (delimited_cons (Or.inl rfl))
          rw [htext, parseMembers, hmember, parseKey_quote]
          simp only [hparse, skipSpace_cons (show isSpace 44 = false by decide)]
          rw [ih (by simp) (by omega)]
          rfl

/-- Members with distinct keys are the properties of the object. -/
theorem ofMembers_of_nodup {fields : List (JsString × JsValue)}
    (h : (fields.map Prod.fst).Nodup) : ofMembers fields = .object fields := by
  have hfold : ∀ (ms acc : List (JsString × JsValue)), ((acc ++ ms).map Prod.fst).Nodup →
      ms.foldl (fun fields m => setField fields m.1 m.2) acc = acc ++ ms := by
    intro ms
    induction ms with
    | nil => intro acc _; simp
    | cons m ms ih =>
        intro acc hnodup
        have hnew : acc.any (fun f => f.1 == m.1) = false := by
          rw [List.any_eq_false]
          intro f hf heq
          rw [List.map_append, List.map_cons, List.nodup_append'] at hnodup
          exact hnodup.2.2 (List.mem_map_of_mem hf) (by simp [eq_of_beq heq])
        rw [List.foldl_cons, setField, if_neg (by simp [hnew]), ih _ (by simpa using hnodup)]
        simp
  rw [ofMembers, hfold fields [] (by simpa using h), List.nil_append]

/-- Texts that are joined start as the first of them does. -/
theorem commas_cons (c : UInt16) (cs : JsString) (ts : List JsString) (rest : JsString) :
    ∃ tail, commas ((c :: cs) :: ts) ++ rest = c :: tail := by
  cases ts <;> exact ⟨_, rfl⟩

theorem reads_array {items : List JsValue} {ts : List JsString}
    (h : List.Forall₂ Reads items ts) : Reads (.array items) (91 :: commas ts ++ [93]) where
  head := ⟨91, _, rfl, by decide, by decide, by decide⟩
  parse fuel hfuel rest hrest := by
    obtain ⟨fuel, rfl⟩ : ∃ k, fuel = k + 1 := ⟨fuel - 1, by simp at hfuel; omega⟩
    have htext : 91 :: commas ts ++ [93] ++ rest = 91 :: (commas ts ++ 93 :: rest) := by simp
    rw [htext, parseValue, skipSpace_cons (by decide)]
    cases h with
    | nil => simp only [commas, List.nil_append, skipSpace_cons (show isSpace 93 = false by decide)]
    | @cons v t items ts hv hts =>
        have hparse : parseItems fuel (commas (t :: ts) ++ 93 :: rest) = some (v :: items, rest) :=
          parseItems_reads (.cons hv hts) (by simp) (by simp at hfuel; omega) rest
        obtain ⟨c, cs, htail, hc, h93, -⟩ := hv.head
        obtain ⟨cs', hcs'⟩ := commas_cons c cs ts (93 :: rest)
        rw [← htail] at hcs'
        simp only [hcs', skipSpace_cons hc]
        rw [hcs'] at hparse
        split
        · simp_all
        · simp only [hparse, Option.map_some]

theorem reads_object {fields : List (JsString × JsValue)} {ts : List JsString}
    (hnodup : (fields.map Prod.fst).Nodup) (h : List.Forall₂ MemberReads fields ts) :
    Reads (.object fields) (123 :: commas ts ++ [125]) where
  head := ⟨123, _, rfl, by decide, by decide, by decide⟩
  parse fuel hfuel rest hrest := by
    obtain ⟨fuel, rfl⟩ : ∃ k, fuel = k + 1 := ⟨fuel - 1, by simp at hfuel; omega⟩
    have htext : 123 :: commas ts ++ [125] ++ rest = 123 :: (commas ts ++ 125 :: rest) := by simp
    rw [htext, parseValue, skipSpace_cons (by decide)]
    cases h with
    | nil =>
        simp only [commas, List.nil_append, skipSpace_cons (show isSpace 125 = false by decide)]
    | @cons f t fields ts hf hts =>
        have hparse : parseMembers fuel (commas (t :: ts) ++ 125 :: rest) = some (f :: fields, rest) :=
          parseMembers_reads (.cons hf hts) (by simp) (by simp at hfuel; omega) rest
        obtain ⟨u, rfl, -⟩ := hf
        obtain ⟨cs', hcs'⟩ : ∃ cs', commas (memberText f.1 u :: ts) ++ 125 :: rest = 34 :: cs' :=
          commas_cons _ _ ts _
        simp only [hcs', skipSpace_cons (show isSpace 34 = false by decide)]
        rw [hcs'] at hparse
        split
        · simp_all
        · simp only [hparse, Option.map_some, ofMembers_of_nodup hnodup]

/-- **Plain data reads back.** -/
theorem Plain.reads {v : JsValue} (h : Plain v) : ∃ t, stringify v = some t ∧ Reads v t := by
  induction h with
  | null =>
      refine ⟨lit "null", rfl, ⟨110, _, rfl, by decide, by decide, by decide⟩, ?_⟩
      intro fuel hfuel rest _
      obtain ⟨fuel, rfl⟩ : ∃ k, fuel = k + 1 := ⟨fuel - 1, by change 4 ≤ fuel at hfuel; omega⟩
      rfl
  | bool b =>
      refine ⟨if b then lit "true" else lit "false", rfl, ?_, ?_⟩
      · cases b
        · exact ⟨102, _, rfl, by decide, by decide, by decide⟩
        · exact ⟨116, _, rfl, by decide, by decide, by decide⟩
      · intro fuel hfuel rest _
        obtain ⟨fuel, rfl⟩ : ∃ k, fuel = k + 1 := by
          refine ⟨fuel - 1, ?_⟩
          cases b
          · change 5 ≤ fuel at hfuel; omega
          · change 4 ≤ fuel at hfuel; omega
        cases b <;> rfl
  | number hn => exact ⟨_, by rw [stringify, if_pos hn.1], reads_number hn⟩
  | string s => exact ⟨_, rfl, reads_string s⟩
  | @array items hitems ih =>
      have hts : List.Forall₂ Reads items (stringifyItems items) := by
        clear hitems
        induction items with
        | nil => exact .nil
        | cons v rest ihrest =>
            obtain ⟨t, ht, hreads⟩ := ih v List.mem_cons_self
            rw [stringifyItems, ht]
            exact .cons hreads (ihrest fun w hw => ih w (List.mem_cons_of_mem _ hw))
      exact ⟨_, rfl, reads_array hts⟩
  | @object fields hnodup hfields ih =>
      have hts : List.Forall₂ MemberReads fields (stringifyFields fields) := by
        clear hnodup hfields
        induction fields with
        | nil => exact .nil
        | cons f rest ihrest =>
            obtain ⟨t, ht, hreads⟩ := ih f List.mem_cons_self
            rw [stringifyFields, ht]
            exact .cons ⟨t, rfl, hreads⟩ (ihrest fun g hg => ih g (List.mem_cons_of_mem _ hg))
      exact ⟨_, rfl, reads_object hnodup hts⟩

/-- `JSON.parse(JSON.stringify(v))` is `v`, for plain data. -/
theorem Plain.parse_stringify {v : JsValue} (h : Plain v) {t : JsString}
    (ht : stringify v = some t) : parseJson t = some v := by
  obtain ⟨t', ht', hreads⟩ := h.reads
  obtain rfl : t' = t := Option.some.inj (ht'.symm.trans ht)
  have hparse := hreads.parse (t'.length + 1) (by omega) [] delimited_nil
  rw [List.append_nil] at hparse
  simp [parseJson, hparse, skipSpace]

/-- Plain data is determined by its text. -/
theorem Plain.eq_of_stringify {v w : JsValue} (hv : Plain v) (hw : Plain w)
    (h : stringify v = stringify w) : v = w := by
  obtain ⟨t, ht, -⟩ := hv.reads
  exact Option.some.inj ((hv.parse_stringify ht).symm.trans (hw.parse_stringify (h ▸ ht)))

end Js
