import BpcProtocol.Js.Text
import BpcProtocol.Lib.Encoding

set_option autoImplicit false

/-! # UTF-8

The encoding of a string without lone surrogates determines the string. -/

namespace Js

open Encoding

/-! ## Code points -/

theorem toUInt8_eq_iff {a b : ℕ} (ha : a < 256) (hb : b < 256) : a.toUInt8 = b.toUInt8 ↔ a = b := by
  constructor
  · intro h
    have hnat := congrArg UInt8.toNat h
    simpa [Nat.toUInt8, UInt8.toNat_ofNat', Nat.mod_eq_of_lt ha, Nat.mod_eq_of_lt hb] using hnat
  · rintro rfl
    rfl

/-- The code points. -/
def IsCodePoint (c : ℕ) : Prop := c < 0x110000

/-- The first byte tells how many follow, and each byte gives its bits back. -/
theorem utf8CodePoint_selfDelimiting : SelfDelimiting IsCodePoint utf8CodePoint := by
  intro a b x y ha hb h
  unfold IsCodePoint at ha hb
  unfold utf8CodePoint at h
  split at h <;> split at h <;> (try split at h) <;> (try split at h) <;> (try split at h) <;>
    (try split at h) <;>
    simp (disch := omega) only [List.cons_append, List.nil_append, List.cons.injEq,
      toUInt8_eq_iff] at h
  all_goals first
    | omega
    | exact h
    | exact ⟨by omega, h.2.2⟩
    | exact ⟨by omega, h.2.2.2⟩
    | exact ⟨by omega, h.2.2.2.2⟩

theorem utf8CodePoint_ne_nil (n : ℕ) (_ : IsCodePoint n) : utf8CodePoint n ≠ [] := by
  unfold utf8CodePoint
  split_ifs <;> simp

/-! ## Strings -/

/-- Every surrogate is one of a pair. -/
def WellFormed : JsString → Prop
  | [] => True
  | [c] => isHighSurrogate c = false ∧ isLowSurrogate c = false
  | c :: d :: rest =>
      if isHighSurrogate c = true then isLowSurrogate d = true ∧ WellFormed rest
      else isLowSurrogate c = false ∧ WellFormed (d :: rest)

/-- The code points of a string. -/
def codePoints : JsString → List ℕ
  | [] => []
  | [c] => [c.toNat]
  | c :: d :: rest =>
      if isHighSurrogate c && isLowSurrogate d then
        (0x10000 + (c.toNat - 0xD800) * 0x400 + (d.toNat - 0xDC00)) :: codePoints rest
      else c.toNat :: codePoints (d :: rest)

theorem isHighSurrogate_iff (c : UInt16) :
    isHighSurrogate c = true ↔ 0xD800 ≤ c.toNat ∧ c.toNat ≤ 0xDBFF := by
  simp [isHighSurrogate, UInt16.le_iff_toNat_le]

theorem isLowSurrogate_iff (c : UInt16) :
    isLowSurrogate c = true ↔ 0xDC00 ≤ c.toNat ∧ c.toNat ≤ 0xDFFF := by
  simp [isLowSurrogate, UInt16.le_iff_toNat_le]

/-- A well-formed string is encoded code point by code point. -/
theorem utf8_eq_flatMap {s : JsString} (h : WellFormed s) :
    utf8 s = (codePoints s).flatMap utf8CodePoint := by
  induction s using WellFormed.induct with
  | case1 => rfl
  | case2 c =>
      obtain ⟨hhigh, hlow⟩ := h
      simp [utf8, codePoints, hhigh, hlow]
  | case3 c d rest hhigh ih =>
      rw [WellFormed, if_pos hhigh] at h
      simp [utf8, codePoints, hhigh, h.1, ih h.2]
  | case4 c d rest hhigh ih =>
      rw [WellFormed, if_neg hhigh] at h
      simp [utf8, codePoints, hhigh, h.1, ih h.2]

theorem codePoints_isCodePoint (s : JsString) : ∀ c ∈ codePoints s, IsCodePoint c := by
  induction s using codePoints.induct with
  | case1 => simp [codePoints]
  | case2 c =>
      intro n hn
      rw [codePoints, List.mem_singleton] at hn
      have hc : c.toNat < 65536 := c.toNat_lt
      unfold IsCodePoint
      omega
  | case3 c d rest hpair ih =>
      intro n hn
      rw [codePoints, if_pos hpair] at hn
      have hsurrogates := hpair
      rw [Bool.and_eq_true, isHighSurrogate_iff, isLowSurrogate_iff] at hsurrogates
      rcases List.mem_cons.mp hn with hn | hn
      · unfold IsCodePoint
        omega
      · exact ih n hn
  | case4 c d rest hpair ih =>
      intro n hn
      rw [codePoints, if_neg hpair] at hn
      rcases List.mem_cons.mp hn with rfl | hn
      · have hc : c.toNat < 65536 := c.toNat_lt
        unfold IsCodePoint
        omega
      · exact ih n hn

/-- The code units of a code point. -/
def codeUnits (n : ℕ) : JsString :=
  if n < 0x10000 then [n.toUInt16]
  else [(0xD800 + (n - 0x10000) / 0x400).toUInt16, (0xDC00 + (n - 0x10000) % 0x400).toUInt16]

theorem codeUnits_toNat (c : UInt16) : codeUnits c.toNat = [c] := by
  have hc : c.toNat < 65536 := c.toNat_lt
  rw [codeUnits, if_pos hc]
  simp [Nat.toUInt16]

theorem codeUnits_pair {c d : UInt16} (hc : isHighSurrogate c = true)
    (hd : isLowSurrogate d = true) :
    codeUnits (0x10000 + (c.toNat - 0xD800) * 0x400 + (d.toNat - 0xDC00)) = [c, d] := by
  rw [isHighSurrogate_iff] at hc
  rw [isLowSurrogate_iff] at hd
  have hhigh : 0xD800 + (0x10000 + (c.toNat - 0xD800) * 0x400 + (d.toNat - 0xDC00) - 0x10000) /
      0x400 = c.toNat := by omega
  have hlow : 0xDC00 + (0x10000 + (c.toNat - 0xD800) * 0x400 + (d.toNat - 0xDC00) - 0x10000) %
      0x400 = d.toNat := by omega
  rw [codeUnits, if_neg (by omega), hhigh, hlow]
  simp [Nat.toUInt16]

theorem codePoints_codeUnits (s : JsString) : (codePoints s).flatMap codeUnits = s := by
  induction s using codePoints.induct with
  | case1 => rfl
  | case2 c => simp [codePoints, codeUnits_toNat]
  | case3 c d rest hpair ih =>
      have hsurrogates := Bool.and_eq_true _ _ ▸ hpair
      rw [codePoints, if_pos hpair, List.flatMap_cons, codeUnits_pair hsurrogates.1 hsurrogates.2,
        ih]
      rfl
  | case4 c d rest hpair ih =>
      rw [codePoints, if_neg hpair, List.flatMap_cons, codeUnits_toNat, ih]
      rfl

/-- **UTF-8 loses nothing** of a well-formed string. -/
theorem utf8_injective {s t : JsString} (hs : WellFormed s) (ht : WellFormed t)
    (h : utf8 s = utf8 t) : s = t := by
  rw [utf8_eq_flatMap hs, utf8_eq_flatMap ht] at h
  have hpoints := utf8CodePoint_selfDelimiting.flatMap_injective utf8CodePoint_ne_nil
    (codePoints_isCodePoint s) (codePoints_isCodePoint t) h
  rw [← codePoints_codeUnits s, hpoints, codePoints_codeUnits t]

/-! ## Putting strings together -/

theorem wellFormed_append {s t : JsString} (hs : WellFormed s) (ht : WellFormed t) :
    WellFormed (s ++ t) := by
  induction s using WellFormed.induct with
  | case1 => exact ht
  | case2 c =>
      cases t with
      | nil => exact hs
      | cons d rest =>
          show WellFormed (c :: d :: rest)
          rw [WellFormed, if_neg (by simp [hs.1])]
          exact ⟨hs.2, ht⟩
  | case3 c d rest hhigh ih =>
      rw [WellFormed, if_pos hhigh] at hs
      show WellFormed (c :: d :: (rest ++ t))
      rw [WellFormed, if_pos hhigh]
      exact ⟨hs.1, ih hs.2⟩
  | case4 c d rest hhigh ih =>
      rw [WellFormed, if_neg hhigh] at hs
      show WellFormed (c :: d :: (rest ++ t))
      rw [WellFormed, if_neg hhigh]
      exact ⟨hs.1, ih hs.2⟩

theorem utf8_append {s t : JsString} (hs : WellFormed s) : utf8 (s ++ t) = utf8 s ++ utf8 t := by
  induction s using WellFormed.induct with
  | case1 => rfl
  | case2 c =>
      cases t with
      | nil => simp [utf8]
      | cons d rest =>
          show utf8 (c :: d :: rest) = _
          simp [utf8, hs.1, hs.2]
  | case3 c d rest hhigh ih =>
      rw [WellFormed, if_pos hhigh] at hs
      show utf8 (c :: d :: (rest ++ t)) = _
      simp [utf8, hhigh, hs.1, ih hs.2]
  | case4 c d rest hhigh ih =>
      rw [WellFormed, if_neg hhigh] at hs
      have ih := ih hs.2
      rw [List.cons_append] at ih
      show utf8 (c :: d :: (rest ++ t)) = _
      simp [utf8, hhigh, hs.1, ih]

/-- A string without surrogates. -/
theorem wellFormed_of_units {s : JsString} (h : ∀ c ∈ s, c.toNat < 0xD800) : WellFormed s := by
  have hnot : ∀ c ∈ s, isHighSurrogate c = false ∧ isLowSurrogate c = false := by
    intro c hc
    have hlt := h c hc
    constructor
    · rw [Bool.eq_false_iff, ne_eq, isHighSurrogate_iff]
      omega
    · rw [Bool.eq_false_iff, ne_eq, isLowSurrogate_iff]
      omega
  clear h
  induction s using WellFormed.induct with
  | case1 => trivial
  | case2 c => exact hnot c List.mem_cons_self
  | case3 c d rest hhigh ih => simp [hnot c List.mem_cons_self] at hhigh
  | case4 c d rest hhigh ih =>
      rw [WellFormed, if_neg hhigh]
      exact ⟨(hnot c List.mem_cons_self).2, ih fun e he => hnot e (List.mem_cons_of_mem _ he)⟩

/-! ## Lone surrogates -/

/-- The code points that are written: U+FFFD stands for a lone surrogate. -/
def scalars : JsString → List ℕ
  | [] => []
  | [c] => [if isHighSurrogate c || isLowSurrogate c then 0xFFFD else c.toNat]
  | c :: d :: rest =>
      if isHighSurrogate c && isLowSurrogate d then
        (0x10000 + (c.toNat - 0xD800) * 0x400 + (d.toNat - 0xDC00)) :: scalars rest
      else (if isHighSurrogate c || isLowSurrogate c then 0xFFFD else c.toNat) :: scalars (d :: rest)

theorem utf8_eq_scalars (s : JsString) : utf8 s = (scalars s).flatMap utf8CodePoint := by
  induction s using scalars.induct with
  | case1 => rfl
  | case2 c => simp [utf8, scalars]
  | case3 c d rest hpair ih => simp only [utf8, scalars, if_pos hpair, List.flatMap_cons, ih]
  | case4 c d rest hpair ih => simp only [utf8, scalars, if_neg hpair, List.flatMap_cons, ih]

theorem scalars_isCodePoint (s : JsString) : ∀ n ∈ scalars s, IsCodePoint n := by
  have hunit : ∀ c : UInt16,
      IsCodePoint (if isHighSurrogate c || isLowSurrogate c then 0xFFFD else c.toNat) := by
    intro c
    have hc : c.toNat < 65536 := c.toNat_lt
    unfold IsCodePoint
    split <;> omega
  induction s using scalars.induct with
  | case1 => simp [scalars]
  | case2 c =>
      rw [scalars, List.forall_mem_singleton]
      exact hunit c
  | case3 c d rest hpair ih =>
      have hsurrogates := hpair
      rw [Bool.and_eq_true, isHighSurrogate_iff, isLowSurrogate_iff] at hsurrogates
      rw [scalars, if_pos hpair, List.forall_mem_cons]
      refine ⟨?_, ih⟩
      unfold IsCodePoint
      omega
  | case4 c d rest hpair ih =>
      rw [scalars, if_neg hpair, List.forall_mem_cons]
      exact ⟨hunit c, ih⟩

/-- What UTF-8 keeps of a string. -/
theorem utf8_eq_iff {s t : JsString} : utf8 s = utf8 t ↔ scalars s = scalars t := by
  rw [utf8_eq_scalars, utf8_eq_scalars]
  constructor
  · exact utf8CodePoint_selfDelimiting.flatMap_injective utf8CodePoint_ne_nil (scalars_isCodePoint s)
      (scalars_isCodePoint t)
  · intro h
    rw [h]

/-- A code unit that is no surrogate stands for itself, between what is before and after it. -/
theorem scalars_append_cons {s t : JsString} {c : UInt16}
    (hc : isHighSurrogate c = false ∧ isLowSurrogate c = false) :
    scalars (s ++ c :: t) = scalars s ++ c.toNat :: scalars t := by
  have hhead : scalars (c :: t) = c.toNat :: scalars t := by
    cases t with
    | nil => simp [scalars, hc]
    | cons d rest => simp [scalars, hc]
  induction s using scalars.induct with
  | case1 => exact hhead
  | case2 a =>
      have hsplit : scalars (a :: c :: t) =
          (if isHighSurrogate a || isLowSurrogate a then 0xFFFD else a.toNat) :: scalars (c :: t) := by
        rw [scalars, if_neg (by simp [hc.2])]
      show scalars (a :: c :: t) = _
      rw [hsplit, hhead]
      simp [scalars]
  | case3 a d rest hpair ih =>
      show scalars (a :: d :: (rest ++ c :: t)) = _
      rw [scalars, if_pos hpair, scalars, if_pos hpair, ih, List.cons_append]
  | case4 a d rest hpair ih =>
      show scalars (a :: d :: (rest ++ c :: t)) = _
      rw [scalars, if_neg hpair, scalars, if_neg hpair, List.cons_append, ← ih]
      rfl

/-- A string without lone surrogates is determined. -/
theorem scalars_eq_codePoints {s : JsString} (h : WellFormed s) : scalars s = codePoints s := by
  induction s using WellFormed.induct with
  | case1 => rfl
  | case2 c => simp [scalars, codePoints, h.1, h.2]
  | case3 c d rest hhigh ih =>
      rw [WellFormed, if_pos hhigh] at h
      simp [scalars, codePoints, hhigh, h.1, ih h.2]
  | case4 c d rest hhigh ih =>
      rw [WellFormed, if_neg hhigh] at h
      simp [scalars, codePoints, hhigh, h.1, ih h.2]

/-! ## ASCII -/

/-- The characters of one byte. -/
def Ascii (s : JsString) : Prop := ∀ c ∈ s, c.toNat < 128

instance (s : JsString) : Decidable (Ascii s) :=
  List.decidableBAll (fun c : UInt16 => c.toNat < 128) s

theorem utf8CodePoint_ascii {n : ℕ} (hn : IsCodePoint n) :
    (∀ b ∈ utf8CodePoint n, b.toNat < 128) ↔ n < 128 := by
  have hbyte : ∀ {m : ℕ}, m < 256 → m.toUInt8.toNat = m := by
    intro m hm
    simp [Nat.toUInt8, Nat.mod_eq_of_lt hm]
  unfold IsCodePoint at hn
  unfold utf8CodePoint
  split_ifs with h₁ h₂ h₃
  · simp [hbyte (show n < 256 by omega), h₁]
  all_goals
    rw [List.forall_mem_cons, hbyte (by omega)]
    omega

theorem scalars_ascii {s : JsString} (h : Ascii s) : scalars s = s.map UInt16.toNat := by
  have hunit : ∀ c ∈ s, isHighSurrogate c = false ∧ isLowSurrogate c = false := by
    intro c hc
    have hlt := h c hc
    rw [Bool.eq_false_iff, ne_eq, isHighSurrogate_iff, Bool.eq_false_iff, ne_eq, isLowSurrogate_iff]
    omega
  clear h
  induction s using scalars.induct with
  | case1 => rfl
  | case2 c => simp [scalars, hunit c List.mem_cons_self]
  | case3 c d rest hpair ih => simp [hunit c List.mem_cons_self] at hpair
  | case4 c d rest hpair ih =>
      rw [scalars, if_neg hpair, ih fun e he => hunit e (List.mem_cons_of_mem c he)]
      simp [hunit c List.mem_cons_self]

/-- ASCII is what is encoded in ASCII. -/
theorem ascii_iff {s : JsString} : (∀ b ∈ utf8 s, b.toNat < 128) ↔ Ascii s := by
  have hunit : ∀ c : UInt16, (∀ b ∈ utf8CodePoint
      (if (isHighSurrogate c || isLowSurrogate c) = true then 0xFFFD else c.toNat),
      b.toNat < 128) ↔ c.toNat < 128 := by
    intro c
    have hc : c.toNat < 65536 := c.toNat_lt
    split
    · next hsurrogate =>
        rw [utf8CodePoint_ascii (by unfold IsCodePoint; omega)]
        rw [Bool.or_eq_true, isHighSurrogate_iff, isLowSurrogate_iff] at hsurrogate
        omega
    · exact utf8CodePoint_ascii (by unfold IsCodePoint; omega)
  induction s using utf8.induct with
  | case1 => simp [utf8, Ascii]
  | case2 c => rw [utf8, hunit, Ascii, List.forall_mem_singleton]
  | case3 c d rest hpair ih =>
      have hsurrogates := hpair
      rw [Bool.and_eq_true, isHighSurrogate_iff, isLowSurrogate_iff] at hsurrogates
      rw [utf8, if_pos hpair, List.forall_mem_append,
        utf8CodePoint_ascii (by unfold IsCodePoint; omega), Ascii, List.forall_mem_cons]
      constructor
      · rintro ⟨hlt, -⟩
        omega
      · rintro ⟨hlt, -⟩
        omega
  | case4 c d rest hpair ih =>
      rw [utf8, if_neg hpair, List.forall_mem_append, hunit, Ascii, List.forall_mem_cons]
      exact and_congr Iff.rfl ih

theorem isAlnum_lt {c : UInt16} (h : isAlnum c = true) : c.toNat < 128 := by
  simp only [isAlnum, isDigit, Bool.or_eq_true, Bool.and_eq_true, decide_eq_true_eq,
    UInt16.le_iff_toNat_le] at h
  simp at h
  omega

/-- The classes of the id patterns: letters, digits and some other characters. -/
theorem idClass_lt {marks : String} (hmarks : Ascii (lit marks)) {c : UInt16}
    (h : (isAlnum c || oneOf marks c) = true) : c.toNat < 128 := by
  rcases Bool.or_eq_true _ _ ▸ h with h | h
  · exact isAlnum_lt h
  · exact hmarks c (by simpa [oneOf] using h)

theorem Ascii.wellFormed {s : JsString} (h : Ascii s) : WellFormed s :=
  wellFormed_of_units fun c hc => Nat.lt_trans (h c hc) (by decide)

/-- Whatever is encoded as an ASCII string is that string. -/
theorem Ascii.eq_of_utf8 {s t : JsString} (hs : Ascii s) (h : utf8 t = utf8 s) : t = s :=
  have ht : Ascii t := ascii_iff.mp (h ▸ ascii_iff.mpr hs)
  utf8_injective ht.wellFormed hs.wellFormed h

/-! ## Lengths -/

/-- A code unit takes three bytes at most. -/
theorem length_utf8_le (s : JsString) : (utf8 s).length ≤ 3 * s.length := by
  have hpoint : ∀ {n : ℕ}, n < 0x10000 → (utf8CodePoint n).length ≤ 3 := by
    intro n hn
    unfold utf8CodePoint
    split_ifs <;> simp
  have hunit : ∀ c : UInt16, (utf8CodePoint
      (if (isHighSurrogate c || isLowSurrogate c) = true then 0xFFFD else c.toNat)).length ≤ 3 := by
    intro c
    have hc : c.toNat < 65536 := c.toNat_lt
    split
    · exact hpoint (by decide)
    · exact hpoint hc
  induction s using utf8.induct with
  | case1 => simp [utf8]
  | case2 c => exact hunit c
  | case3 c d rest hpair ih =>
      have hfour : ∀ n : ℕ, (utf8CodePoint n).length ≤ 4 := by
        intro n
        unfold utf8CodePoint
        split_ifs <;> simp
      rw [utf8, if_pos hpair, List.length_append, List.length_cons, List.length_cons]
      have := hfour (0x10000 + (c.toNat - 0xD800) * 0x400 + (d.toNat - 0xDC00))
      omega
  | case4 c d rest hpair ih =>
      rw [utf8, if_neg hpair, List.length_append, List.length_cons]
      have := hunit c
      omega

/-- `writeUInt32BE` of a number below `2 ^ 32`. -/
theorem u32be_selfDelimiting : SelfDelimiting (fun n => n < 0x100000000) u32be := by
  refine SelfDelimiting.of_length (n := 4) (fun _ _ => rfl) fun a b ha hb h => ?_
  simp only [u32be, List.cons.injEq, and_true] at h
  obtain ⟨h₁, h₂, h₃, h₄⟩ := h
  have hbyte : ∀ {m n : ℕ}, m.toUInt8 = n.toUInt8 → m % 256 = n % 256 := by
    intro m n hmn
    simpa [Nat.toUInt8] using congrArg UInt8.toNat hmn
  have h₁ := hbyte h₁
  have h₂ := hbyte h₂
  have h₃ := hbyte h₃
  have h₄ := hbyte h₄
  omega

end Js
