import BpcProtocol.Durable.PairTables
import BpcProtocol.Js.DoubleText
import Mathlib.Data.List.TakeWhile

set_option autoImplicit false

/-! # Failure scores as decimal text

`finiteNumberToDecimal` writes every double as a decimal without an exponent, which is read back as
the double. -/

namespace Durable

open Ha Fallible
open Js (natDigits isDigit isWhiteSpace Whole ofRat decimalValue)

/-! ## Reading a decimal -/

/-- Digits, and a point with the digits behind it if there are any. -/
def pointed (i f : JsString) : JsString :=
  if f = [] then i else i ++ 46 :: f

theorem mem_pointed {i f : JsString} (hi : ∀ c ∈ i, isDigit c = true)
    (hf : ∀ c ∈ f, isDigit c = true) {c : UInt16} (hc : c ∈ pointed i f) :
    isDigit c = true ∨ c = 46 := by
  unfold pointed at hc
  split at hc
  · exact .inl (hi c hc)
  · rcases List.mem_append.mp hc with hc | hc
    · exact .inl (hi c hc)
    · rcases List.mem_cons.mp hc with rfl | hc
      · exact .inr rfl
      · exact .inl (hf c hc)

/-- A literal of digits around a point. -/
theorem unsignedLiteral_pointed {i f : JsString} (hi : ∀ c ∈ i, isDigit c = true) (hne : i ≠ [])
    (hf : ∀ c ∈ f, isDigit c = true) :
    Js.unsignedLiteral (pointed i f) = ofRat (decimalValue i f 0) := by
  have hword : pointed i f ≠ Js.lit "Infinity" := by
    intro h
    have hmem : (73 : UInt16) ∈ pointed i f := by
      rw [h]
      decide
    rcases mem_pointed hi hf hmem with h73 | h73
    · exact absurd h73 (by decide)
    · exact absurd h73 (by decide)
  unfold Js.unsignedLiteral
  rw [if_neg hword]
  unfold pointed
  by_cases hempty : f = []
  · subst hempty
    have hspan : i.span isDigit = (i, []) := by
      simpa using @Js.span_noDigit i [] hi (by simp [Js.NoDigit])
    simp only [if_true, hspan]
    simp [hne, Js.parseExponent]
  · have hspan : (i ++ 46 :: f).span isDigit = (i, 46 :: f) :=
      Js.span_noDigit hi (Js.noDigit_point f)
    have hspan' : f.span isDigit = (f, []) := by
      simpa using @Js.span_noDigit f [] hf (by simp [Js.NoDigit])
    simp only [if_neg hempty, hspan, hspan']
    simp [hempty, Js.parseExponent]

/-- **A decimal is read as the number that it writes**, to the nearest double. -/
theorem stringToNumber_pointed {i f : JsString} (hi : Whole i) (hf : ∀ c ∈ f, isDigit c = true) :
    Js.stringToNumber (pointed i f) = ofRat (decimalValue i f 0) := by
  obtain ⟨hne, hdigits, hzero⟩ := hi
  have hliteral := unsignedLiteral_pointed hdigits hne hf
  have hspace : ∀ c ∈ pointed i f, isWhiteSpace c = false := by
    intro c hc
    rcases mem_pointed hdigits hf hc with hd | rfl
    · exact Js.isWhiteSpace_of_isDigit hd
    · decide
  obtain ⟨d, ds, hd⟩ := List.exists_cons_of_ne_nil hne
  have hdigit : isDigit d = true := hdigits d (by rw [hd]; exact List.mem_cons_self)
  obtain ⟨tail, htail⟩ : ∃ tail, pointed i f = d :: tail := by
    unfold pointed
    split
    · exact ⟨ds, hd⟩
    · exact ⟨ds ++ 46 :: f, by rw [hd]; rfl⟩
  unfold Js.stringToNumber
  rw [Js.trim_of_noSpace hspace]
  split
  · next h => rw [htail] at h; cases h
  · next c cs h =>
      -- behind a zero stands the point
      rw [htail] at h
      obtain ⟨rfl, htail'⟩ := List.cons.inj h
      have hi1 : i = [48] := by
        have hlength := hzero (by rw [hd]; rfl)
        rw [hd] at hlength ⊢
        simpa using hlength
      have hc : c = 46 := by
        subst hi1
        unfold pointed at htail
        split at htail
        · simp [htail'] at htail
        · simp only [List.cons_append, List.nil_append, List.cons.injEq, true_and] at htail
          rw [htail'] at htail
          exact (List.cons.inj htail).1.symm
      subst hc
      rw [← hliteral, htail, htail']
      simp
  · next rest h =>
      rw [htail] at h
      obtain ⟨rfl, -⟩ := List.cons.inj h
      exact absurd hdigit (by decide)
  · next rest h =>
      rw [htail] at h
      obtain ⟨rfl, -⟩ := List.cons.inj h
      exact absurd hdigit (by decide)
  · exact hliteral

/-! ## Moving the point -/

section Digits

variable {c : ℕ} (hc : c ≠ 0)

theorem digits_of_zeros (k : ℕ) : ∀ d ∈ List.replicate k (48 : UInt16), isDigit d = true := by
  intro d hd
  rw [List.eq_of_mem_replicate hd]
  exact Js.isDigit_zero

include hc

/-- The digits of a number with the point at its place are a decimal, which writes the number. -/
theorem shiftPoint_eq_pointed (n : ℤ) :
    ∃ i f : JsString, shiftPoint (natDigits c) n = pointed i f ∧ Whole i ∧
      (∀ d ∈ f, isDigit d = true) ∧
      decimalValue i f 0 = c * (10 : ℚ) ^ (n - (natDigits c).length) := by
  have hdigits : ∀ d ∈ natDigits c, isDigit d = true := fun d hd => Js.isDigit_of_mem_natDigits hd
  have hpos := Js.natDigits_length_pos c
  unfold shiftPoint
  by_cases hsmall : n ≤ 0
  · have hf : List.replicate (-n).toNat (48 : UInt16) ++ natDigits c ≠ [] := by
      simp [Js.natDigits_ne_nil]
    refine ⟨[48], List.replicate (-n).toNat 48 ++ natDigits c, ?_, ?_, ?_, ?_⟩
    · rw [if_pos hsmall, pointed, if_neg hf]
      simp [Js.lit]
    · exact ⟨by simp, by simp [Js.isDigit_zero], by simp⟩
    · intro d hd
      rcases List.mem_append.mp hd with hd | hd
      · exact digits_of_zeros _ d hd
      · exact hdigits d hd
    · have hvalue : Js.ofDigits ([48] ++ (List.replicate (-n).toNat 48 ++ natDigits c)) = c := by
        rw [List.singleton_append, ← List.cons_append, ← List.replicate_succ,
          Js.ofDigits_zeros_append, Js.ofDigits_natDigits]
      rw [Js.decimalValue_eq, hvalue, List.length_append, List.length_replicate]
      congr 2
      push_cast
      omega
  · rw [if_neg hsmall]
    by_cases hlarge : (natDigits c).length ≤ n
    · refine ⟨natDigits c ++ List.replicate (n - (natDigits c).length).toNat 48, [], ?_, ?_, ?_, ?_⟩
      · rw [if_pos hlarge, pointed, if_pos rfl]
      · exact Js.whole_natDigits_append hc (digits_of_zeros _)
      · simp
      · rw [Js.decimalValue_eq, List.append_nil, Js.ofDigits_append_zeros, Js.ofDigits_natDigits,
          List.length_nil]
        push_cast
        rw [mul_one, ← zpow_natCast, Int.toNat_of_nonneg (by omega)]
    · have hf : (natDigits c).drop n.toNat ≠ [] := by
        rw [ne_eq, List.drop_eq_nil_iff]
        omega
      refine ⟨(natDigits c).take n.toNat, (natDigits c).drop n.toNat, ?_, ?_, ?_, ?_⟩
      · rw [if_neg hlarge, pointed, if_neg hf]
        simp [Js.lit]
      · exact Js.whole_take hc (by omega)
      · exact fun d hd => hdigits d (List.mem_of_mem_drop hd)
      · rw [Js.decimalValue_eq, List.take_append_drop, Js.ofDigits_natDigits, List.length_drop]
        congr 2
        omega

end Digits

theorem length_shiftPoint (ds : JsString) (n : ℤ) :
    (shiftPoint ds n).length ≤ ds.length + n.natAbs + 2 := by
  unfold shiftPoint
  split_ifs with hsmall hlarge
  · simp only [List.length_append, List.length_replicate, Js.lit]
    simp
    omega
  · simp only [List.length_append, List.length_replicate]
    omega
  · simp only [List.length_append, List.length_take, List.length_drop, Js.lit]
    simp
    omega

/-! ## Texts of numbers -/

/-- A character that begins an exponent. -/
def isExponent (c : UInt16) : Bool :=
  c == 101 || c == 69

theorem not_isExponent_of_isDigit {c : UInt16} (h : isDigit c = true) : isExponent c = false := by
  rw [Js.isDigit_iff] at h
  simp only [isExponent, Bool.or_eq_false_iff, beq_eq_false_iff_ne, ne_eq, ← UInt16.toNat_inj]
  constructor
  · intro h101
    rw [h101] at h
    exact absurd h (by decide)
  · intro h69
    rw [h69] at h
    exact absurd h (by decide)

theorem expandDecimal_pointed {i f : JsString} (hi : ∀ c ∈ i, isDigit c = true)
    (hf : ∀ c ∈ f, isDigit c = true) : expandDecimal (pointed i f) = pointed i f := by
  have hall : (pointed i f).all (fun c => !isExponent c) = true := by
    rw [List.all_eq_true]
    intro c hc
    rcases mem_pointed hi hf hc with hd | rfl
    · rw [not_isExponent_of_isDigit hd]
      rfl
    · rfl
  unfold expandDecimal
  exact if_pos hall

/-- The exponent behind its letter. -/
theorem stringToNumber_signed {m : ℕ} (hm : m < 2 ^ 53) (negative : Bool) :
    (Js.stringToNumber ((if negative then 45 else 43) :: natDigits m)).toInt? =
      some (if negative then -(m : ℤ) else m) := by
  have hdigits : ∀ c ∈ natDigits m, isDigit c = true := fun c hc => Js.isDigit_of_mem_natDigits hc
  have hliteral : Js.unsignedLiteral (natDigits m) = .fin ((m : ℤ) : ℚ) := by
    have h := unsignedLiteral_pointed hdigits (Js.natDigits_ne_nil m) (f := []) (by simp)
    rw [pointed, if_pos rfl, Js.decimalValue_eq, List.append_nil, Js.ofDigits_natDigits] at h
    rw [h]
    simpa using Js.ofRat_intCast (n := (m : ℤ)) (by simpa using hm)
  have hspace : ∀ c ∈ (if negative then 45 else 43 : UInt16) :: natDigits m,
      isWhiteSpace c = false := by
    intro c hc
    rcases List.mem_cons.mp hc with rfl | hc
    · cases negative <;> decide
    · exact Js.isWhiteSpace_of_isDigit (hdigits c hc)
  unfold Js.stringToNumber
  rw [Js.trim_of_noSpace hspace]
  cases negative with
  | false =>
      simp only [Bool.false_eq_true, if_false, hliteral]
      exact JsNumber.toInt?_int m
  | true =>
      simp only [if_true, hliteral, JsNumber.neg]
      have := JsNumber.toInt?_int (-(m : ℤ))
      simpa using this

theorem expandDecimal_exponent {coefficient rest : JsString}
    (hnone : ∀ d ∈ coefficient, isExponent d = false) :
    expandDecimal (coefficient ++ 101 :: rest) =
      shiftPoint (coefficient.takeWhile (· != 46) ++ (coefficient.dropWhile (· != 46)).drop 1)
        ((coefficient.takeWhile (· != 46)).length + (Js.stringToNumber rest).toInt?.getD 0) := by
  have hkeep : ∀ d ∈ coefficient, (!isExponent d) = true := by
    intro d hd
    rw [hnone d hd]
    rfl
  have hall : ¬((coefficient ++ 101 :: rest).all fun c => !isExponent c) = true := by
    rw [List.all_eq_true]
    intro h
    exact absurd (h 101 (List.mem_append_right _ List.mem_cons_self)) (by decide)
  have htake : (coefficient ++ 101 :: rest).takeWhile (fun c => !isExponent c) = coefficient := by
    rw [List.takeWhile_append_of_pos hkeep, List.takeWhile_cons_of_neg (by decide), List.append_nil]
  have hdrop : ((coefficient ++ 101 :: rest).dropWhile fun c => !isExponent c).drop 1 = rest := by
    rw [List.dropWhile_append_of_pos hkeep, List.dropWhile_cons_of_neg (by decide)]
    rfl
  unfold expandDecimal
  show (if (coefficient ++ 101 :: rest).all (fun c => !isExponent c) = true then _ else
    shiftPoint (((coefficient ++ 101 :: rest).takeWhile fun c => !isExponent c).takeWhile _ ++
      ((((coefficient ++ 101 :: rest).takeWhile fun c => !isExponent c).dropWhile _).drop 1))
      ((((coefficient ++ 101 :: rest).takeWhile fun c => !isExponent c).takeWhile _).length +
        (Js.stringToNumber (((coefficient ++ 101 :: rest).dropWhile fun c => !isExponent c).drop
          1)).toInt?.getD 0)) = _
  rw [if_neg hall, htake, hdrop]

/-- A text of digits is split at its point. -/
theorem split_pointed {i f : JsString} (hi : ∀ c ∈ i, isDigit c = true) :
    (pointed i f).takeWhile (· != 46) = i ∧ ((pointed i f).dropWhile (· != 46)).drop 1 = f := by
  have hkeep : ∀ c ∈ i, (c != 46) = true := by
    intro c hc
    have hd := hi c hc
    simp only [bne_iff_ne, ne_eq]
    rintro rfl
    exact absurd hd (by decide)
  unfold pointed
  split
  · next h =>
      subst h
      refine ⟨List.takeWhile_eq_self_iff.mpr hkeep, ?_⟩
      rw [List.dropWhile_eq_nil_iff.mpr hkeep]
      rfl
  · constructor
    · rw [List.takeWhile_append_of_pos hkeep, List.takeWhile_cons_of_neg (by decide),
        List.append_nil]
    · rw [List.dropWhile_append_of_pos hkeep, List.dropWhile_cons_of_neg (by decide)]
      rfl

/-- A coefficient with one digit before its point, and an exponent. -/
def scientific (c : ℕ) (negative : Bool) (m : ℕ) : JsString :=
  pointed ((natDigits c).take 1) ((natDigits c).drop 1) ++
    101 :: (if negative then 45 else 43) :: natDigits m

/-- **An exponent is expanded** by moving the point of the coefficient. -/
theorem expandDecimal_scientific {c : ℕ} (negative : Bool) {m : ℕ} (hm : m < 2 ^ 53) :
    expandDecimal (scientific c negative m) =
      shiftPoint (natDigits c) (1 + if negative then -(m : ℤ) else m) := by
  have hdigits : ∀ d ∈ natDigits c, isDigit d = true := fun d hd => Js.isDigit_of_mem_natDigits hd
  have htake : ∀ d ∈ (natDigits c).take 1, isDigit d = true :=
    fun d hd => hdigits d (List.mem_of_mem_take hd)
  have hrest : ∀ d ∈ (natDigits c).drop 1, isDigit d = true :=
    fun d hd => hdigits d (List.mem_of_mem_drop hd)
  have hnone : ∀ d ∈ pointed ((natDigits c).take 1) ((natDigits c).drop 1), isExponent d = false := by
    intro d hd
    rcases mem_pointed htake hrest hd with hdigit | rfl
    · exact not_isExponent_of_isDigit hdigit
    · rfl
  obtain ⟨hwhole, hfraction⟩ := split_pointed (f := (natDigits c).drop 1) htake
  have hlength : ((natDigits c).take 1).length = 1 := by
    have hpos := Js.natDigits_length_pos c
    rw [List.length_take]
    omega
  rw [scientific, expandDecimal_exponent hnone, hwhole, hfraction, List.take_append_drop,
    stringToNumber_signed hm, Option.getD_some, hlength]
  rfl

/-- The coefficient of a text with an exponent has one digit before its point. -/
theorem layoutDigits_exponent {c : ℕ} {n : ℤ} (h1 : ¬(((natDigits c).length : ℤ) ≤ n ∧ n ≤ 21))
    (h2 : ¬(0 < n ∧ n ≤ 21)) (h3 : ¬(-6 < n ∧ n ≤ 0)) :
    Js.layoutDigits (natDigits c) n = scientific c (decide (n ≤ 0)) (n - 1).natAbs := by
  have hpos := Js.natDigits_length_pos c
  have hletter : (if 0 < n then Js.lit "e+" else Js.lit "e-") =
      [101, if decide (n ≤ 0) then 45 else 43] := by
    by_cases h0 : 0 < n
    · rw [if_pos h0, decide_eq_false (by omega)]
      rfl
    · rw [if_neg h0, decide_eq_true (by omega)]
      rfl
  unfold Js.layoutDigits scientific
  simp only [if_neg h1, if_neg h2, if_neg h3, hletter]
  unfold pointed
  by_cases hone : ((natDigits c).length : ℤ) = 1
  · have hlength : (natDigits c).length ≤ 1 := by omega
    rw [if_pos hone, if_pos (List.drop_eq_nil_iff.mpr hlength), List.take_of_length_le hlength]
    rfl
  · have hdrop : ¬(natDigits c).drop 1 = [] := by
      rw [List.drop_eq_nil_iff]
      omega
    rw [if_neg hone, if_neg hdrop]
    simp [Js.lit]

/-- Digits are laid out with their point in place, or with an exponent. -/
theorem layoutDigits_cases (c : ℕ) (n : ℤ) :
    Js.layoutDigits (natDigits c) n = shiftPoint (natDigits c) n ∨
      Js.layoutDigits (natDigits c) n = scientific c (decide (n ≤ 0)) (n - 1).natAbs := by
  have hpos := Js.natDigits_length_pos c
  by_cases h1 : ((natDigits c).length : ℤ) ≤ n ∧ n ≤ 21
  · left
    unfold Js.layoutDigits
    simp only [if_pos h1]
    rw [shiftPoint, if_neg (by omega), if_pos h1.1]
  by_cases h2 : 0 < n ∧ n ≤ 21
  · left
    unfold Js.layoutDigits
    simp only [if_neg h1, if_pos h2]
    rw [shiftPoint, if_neg (by omega), if_neg (by omega)]
  by_cases h3 : -6 < n ∧ n ≤ 0
  · left
    unfold Js.layoutDigits
    simp only [if_neg h1, if_neg h2, if_pos h3]
    rw [shiftPoint, if_pos h3.2]
  · exact .inr (layoutDigits_exponent h1 h2 h3)

/-- **The text of digits without its exponent** is the digits with the point moved to its place. -/
theorem expandDecimal_layoutDigits {c : ℕ} (hc : c ≠ 0) {n : ℤ} (hn : |n| ≤ 340) :
    expandDecimal (Js.layoutDigits (natDigits c) n) = shiftPoint (natDigits c) n := by
  obtain ⟨i, f, hpointed, ⟨-, hi, -⟩, hf, -⟩ := shiftPoint_eq_pointed hc n
  obtain ⟨hlo, hhi⟩ := abs_le.mp hn
  rcases layoutDigits_cases c n with hplain | hexponent
  · rw [hplain, hpointed, expandDecimal_pointed hi hf]
  have hlt : (n - 1).natAbs < 2 ^ 53 := by
    have : (340 : ℤ) + 1 < 2 ^ 53 := by norm_num
    omega
  rw [hexponent, expandDecimal_scientific _ hlt]
  congr 1
  by_cases h0 : n ≤ 0
  · simp only [h0, decide_true, if_true]
    omega
  · simp only [h0, decide_false, Bool.false_eq_true, if_false]
    omega

/-! ## Scores -/

theorem decimalPattern_pointed {i f : JsString} (hi : Whole i) (hf : ∀ c ∈ f, isDigit c = true) :
    decimalPattern (pointed i f) = true := by
  obtain ⟨hne, hdigits, hzero⟩ := hi
  have hlead : (i.length == 1 || i.head? != some 48) = true := by
    by_cases h48 : i.head? = some 48
    · rw [hzero h48]
      rfl
    · rw [Bool.or_eq_true, bne_iff_ne]
      exact .inr h48
  unfold decimalPattern pointed
  by_cases hempty : f = []
  · rw [if_pos hempty]
    simp only [List.takeWhile_eq_self_iff.mpr hdigits, List.dropWhile_eq_nil_iff.mpr hdigits]
    simp only [Bool.or_eq_true, Bool.and_eq_true] at hlead ⊢
    simpa [hne] using hlead
  · have htake : (i ++ 46 :: f).takeWhile isDigit = i := by
      rw [List.takeWhile_append_of_pos hdigits, List.takeWhile_cons_of_neg (by decide),
        List.append_nil]
    have hdrop : (i ++ 46 :: f).dropWhile isDigit = 46 :: f := by
      rw [List.dropWhile_append_of_pos hdigits, List.dropWhile_cons_of_neg (by decide)]
    have hlength : 1 ≤ f.length := List.length_pos_iff.mpr hempty
    rw [if_neg hempty]
    simp only [htake, hdrop]
    simp only [Bool.or_eq_true, Bool.and_eq_true] at hlead ⊢
    simp only [Nat.succ_le_succ_iff, List.length_cons, List.tail_cons, hlength]
    have hlead' : i.length = 1 ∨ ¬i.head? = some 48 := by simpa using hlead
    simpa [hne] using ⟨hlead', hf⟩

/-- The text of a failure score: a decimal that is read back as the score. -/
structure ScoreText (x : ℚ) (text : JsString) : Prop where
  written : finiteNumberToDecimal (.fin x) = .ok text
  score : decimalScore text = true
  read : Js.stringToNumber text = .fin x
  short : text.length ≤ 360
  plain : ∀ c ∈ text, isDigit c = true ∨ c = 46

/-- Digits with the point at its place are a score. -/
theorem scoreText_shiftPoint {x : ℚ} {c : ℕ} {e : ℤ} (hc : c ≠ 0)
    (hround : ofRat (c * (10 : ℚ) ^ e) = .fin x) (hlength : (natDigits c).length ≤ 18)
    (hplace : |e + (natDigits c).length| ≤ 340)
    (hwritten : finiteNumberToDecimal (.fin x) =
      .ok (shiftPoint (natDigits c) (e + (natDigits c).length))) :
    ScoreText x (shiftPoint (natDigits c) (e + (natDigits c).length)) := by
  obtain ⟨i, f, hpointed, hi, hf, hvalue⟩ :=
    shiftPoint_eq_pointed hc (e + (natDigits c).length)
  rw [add_sub_cancel_right] at hvalue
  have hread : Js.stringToNumber (shiftPoint (natDigits c) (e + (natDigits c).length)) = .fin x := by
    rw [hpointed, stringToNumber_pointed hi hf, hvalue, hround]
  refine ⟨hwritten, ?_, hread, ?_, ?_⟩
  · rw [decimalScore, hread, hpointed, decimalPattern_pointed hi hf]
    rfl
  · have hbound := length_shiftPoint (natDigits c) (e + (natDigits c).length)
    obtain ⟨hlo, hhi⟩ := abs_le.mp hplace
    omega
  · intro d hd
    rw [hpointed] at hd
    exact mem_pointed hi.2.1 hf hd

theorem finiteNumberToDecimal_of {x : ℚ} (hx : 0 < x) :
    finiteNumberToDecimal (.fin x) = .ok (expandDecimal (Js.numberText (.fin x))) := by
  have hne : JsNumber.fin x ≠ .fin 0 := by
    intro h
    exact hx.ne' (JsNumber.fin.inj h)
  simp only [finiteNumberToDecimal, bind_eq_ok, ensure_eq_ok, exists_unit, pure_eq_ok, if_neg hne]
  refine ⟨⟨rfl, ?_⟩, trivial⟩
  simp only [JsNumber.lt, decide_eq_false_iff_not, not_lt]
  exact hx.le

/-- **The text of a positive double**: the digits of a safe integer, or the shortest digits that are
    read as the double. -/
theorem numberText_cases {x : ℚ} (hx : 0 < x) (hdouble : Js.IsDouble x) :
    (∃ n : ℕ, n ≠ 0 ∧ (natDigits n).length ≤ 18 ∧ x = (n : ℚ) ∧
      Js.numberText (.fin x) = natDigits n) ∨
    ∃ (c : ℕ) (e : ℤ), c ≠ 0 ∧ (natDigits c).length ≤ 18 ∧ |e + (natDigits c).length| ≤ 340 ∧
      ofRat (c * (10 : ℚ) ^ e) = .fin x ∧
      Js.numberText (.fin x) = Js.layoutDigits (natDigits c) (e + (natDigits c).length) := by
  by_cases hint : ∃ i : ℤ, x = i ∧ Js.isSafeInteger i = true
  · left
    obtain ⟨i, rfl, hi⟩ := hint
    have hipos : 0 < i := by exact_mod_cast hx
    obtain ⟨n, rfl⟩ : ∃ n : ℕ, i = n := ⟨i.toNat, by omega⟩
    have hle : n ≤ 9007199254740991 := by
      have hsafe := hi
      rw [Js.isSafeInteger, Bool.and_eq_true, decide_eq_true_iff, decide_eq_true_iff,
        Js.maxSafeInteger] at hsafe
      omega
    have htext : Js.numberText (.fin ((n : ℤ) : ℚ)) = natDigits n := by
      unfold Js.numberText
      simp only [JsNumber.toInt?_int, hi, if_true, Js.decimal_natCast]
    refine ⟨n, by omega, ?_, by norm_cast, htext⟩
    rw [Js.natDigits_length_le (by decide)]
    exact Nat.lt_of_le_of_lt hle (by decide)
  · right
    have htext : Js.numberText (.fin x) = Js.numberText.text x := by
      apply Js.numberText_text
      intro i hxi
      by_contra hi
      exact hint ⟨i, hxi, by simpa using hi⟩
    obtain ⟨c, e, hdigits, hc, hround, hlength, hplace⟩ := Js.shortestDigits_bounds hx hdouble
    refine ⟨c, e, hc, hlength, hplace, hround, ?_⟩
    rw [htext]
    unfold Js.numberText.text
    rw [abs_of_pos hx, hdigits]
    simp only [if_neg (not_lt.mpr hx.le)]

/-- **Every double that is not negative is written as a score.** -/
theorem exists_scoreText {x : ℚ} (hdouble : Js.IsDouble x) (hx : 0 ≤ x) :
    ∃ text, ScoreText x text := by
  rcases hx.eq_or_lt with rfl | hpos
  · refine ⟨Js.lit "0", by decide, by decide, by decide, by decide, fun c hc => ?_⟩
    rw [List.mem_singleton.mp hc]
    exact .inl (by decide)
  have hwritten := finiteNumberToDecimal_of hpos
  rcases numberText_cases hpos hdouble with
    ⟨n, hn, hlength, rfl, htext⟩ | ⟨c, e, hc, hlength, hplace, hround, htext⟩
  · have hpoint : natDigits n = pointed (natDigits n) [] := by
      rw [pointed, if_pos rfl]
    have hshift : shiftPoint (natDigits n) (0 + (natDigits n).length) = natDigits n := by
      have hlen := Js.natDigits_length_pos n
      rw [zero_add, shiftPoint, if_neg (by omega), if_pos (by omega)]
      simp
    rw [htext, hpoint, expandDecimal_pointed (fun c hc => Js.isDigit_of_mem_natDigits hc) (by simp),
      ← hpoint, ← hshift] at hwritten
    refine ⟨_, scoreText_shiftPoint hn ?_ hlength ?_ hwritten⟩
    · rw [zpow_zero, mul_one]
      exact hdouble
    · rw [zero_add, abs_of_nonneg (by omega)]
      omega
  · rw [htext, expandDecimal_layoutDigits hc hplace] at hwritten
    exact ⟨_, scoreText_shiftPoint hc hround hlength hplace hwritten⟩

end Durable
