import BpcProtocol.Durable.PairReplica
import BpcProtocol.Durable.PairScore
import BpcProtocol.Pair.Score

set_option autoImplicit false

/-! # Renderings of scores

The decimal of a score denotes what the text of the number denotes, digit for digit, whichever of its
texts the language has chosen: the digits are kept, and only the point moves. What failures make of a
score is therefore sealed, opened and normalized again without a change. -/

namespace Durable

open Ha Fallible
open Js (natDigits isDigit Whole ofRat decimalValue)

/-! ## Renderings -/

/-- The texts that the language has for numbers that are not negative: a plain decimal, or a
    coefficient and an exponent. -/
inductive Rendering : JsString → Prop
  | plain {i f : JsString} : Whole i → (∀ d ∈ f, isDigit d = true) → Rendering (pointed i f)
  | scientific {c : ℕ} (negative : Bool) (m : ℕ) : c ≠ 0 → Rendering (scientific c negative m)

/-- The rational that a text denotes: its numeral before it is rounded to a double. -/
def denoted (text : JsString) : Option ℚ :=
  (Js.parseUnsigned text).bind fun numeral => if numeral.2 = [] then some numeral.1 else none

/-- The text renders the number `x`: it denotes a rational that is read as `x`, and only zero is
    written as zero. -/
structure Renders (x : ℚ) (text : JsString) (q : ℚ) : Prop where
  form : Rendering text
  denotes : denoted text = some q
  reads : ofRat q = .fin x
  zero : x = 0 → q = 0

/-- `finiteNumberToDecimal(value)` where `String(value)` is `text`. -/
def decimalOfRendering (text : JsString) (value : JsNumber) : Except HaError JsString := do
  ensure (value.isFinite = true ∧ value.lt (.fin 0) = false) "pair.cumulativeFailures is invalid"
  pure (if value = .fin 0 then Js.lit "0" else expandDecimal text)

theorem finiteNumberToDecimal_eq (value : JsNumber) :
    finiteNumberToDecimal value = decimalOfRendering (Js.numberText value) value :=
  rfl

/-! ## What texts denote -/

theorem denoted_eq_some {text : JsString} {q : ℚ} (h : Js.parseUnsigned text = some (q, [])) :
    denoted text = some q := by
  rw [denoted, h]
  rfl

theorem denoted_pointed {i f : JsString} (hi : Whole i) (hf : ∀ d ∈ f, isDigit d = true) :
    denoted (pointed i f) = some (decimalValue i f 0) := by
  apply denoted_eq_some
  by_cases hempty : f = []
  · subst hempty
    have hparse := Js.parseUnsigned_whole hi Js.delimited_nil.noDigit
      (Js.parseFraction_delimited Js.delimited_nil) (Js.parseExponent_delimited Js.delimited_nil)
    rw [List.append_nil] at hparse
    rwa [pointed, if_pos rfl]
  · have hfraction := Js.parseFraction_digits hf hempty Js.delimited_nil.noDigit
    rw [List.append_nil] at hfraction
    rw [pointed, if_neg hempty]
    exact Js.parseUnsigned_whole hi (Js.noDigit_point f) hfraction
      (Js.parseExponent_delimited Js.delimited_nil)

/-- The exponent that a letter and a sign stand before. -/
def signedExponent (negative : Bool) (m : ℕ) : ℤ :=
  if negative then -(m : ℤ) else m

theorem parseExponent_signed (negative : Bool) (m : ℕ) :
    Js.parseExponent (101 :: (if negative then 45 else 43) :: natDigits m) =
      some (signedExponent negative m, []) := by
  have hdigits := Js.parseExponentDigits_natDigits negative m Js.delimited_nil.noDigit
  rw [List.append_nil] at hdigits
  cases negative with
  | false => exact hdigits
  | true => exact hdigits

theorem denoted_scientific {c : ℕ} (hc : c ≠ 0) (negative : Bool) (m : ℕ) :
    denoted (scientific c negative m) =
      some (c * (10 : ℚ) ^ (signedExponent negative m + 1 - (natDigits c).length)) := by
  apply denoted_eq_some
  have hexponent : Js.parseExponent (101 :: (if negative then 45 else 43) :: natDigits m ++ []) =
      some (signedExponent negative m, []) := by
    rw [List.append_nil]
    exact parseExponent_signed negative m
  have hnodigit : Js.NoDigit (101 :: (if negative then 45 else 43) :: natDigits m ++ []) := by
    simp [Js.NoDigit, isDigit]
  have hpos := Js.natDigits_length_pos c
  unfold scientific pointed
  by_cases hone : (natDigits c).drop 1 = []
  · have hlength : (natDigits c).length = 1 := by
      have := List.drop_eq_nil_iff.mp hone
      omega
    have hparse := Js.parse_single hc hnodigit (by simp [Js.parseFraction]) hexponent
    rw [if_pos hone, List.take_of_length_le hlength.le, hlength]
    rw [List.append_nil] at hparse
    rw [hparse]
    norm_num
  · have hlength : 1 < (natDigits c).length := by
      by_contra hle
      exact hone (List.drop_eq_nil_iff.mpr (by omega))
    have hparse := Js.parse_point hc Nat.one_pos hlength hnodigit hexponent
    rw [if_neg hone]
    simpa [Js.lit] using hparse

/-! ## The exponent of a double -/

section Exponent

variable {c m : ℕ} {x : ℚ}

/-- A text with an exponent is read as a positive double only if the exponent is small. -/
theorem exponent_lt (hc : c ≠ 0) (negative : Bool) (hx : x ≠ 0)
    (hreads : ofRat (c * (10 : ℚ) ^ (signedExponent negative m + 1 - (natDigits c).length)) = .fin x) :
    m < 2 ^ 53 := by
  by_contra hlarge
  have hm : (400 : ℤ) ≤ m := by
    have : 400 ≤ 2 ^ 53 := by norm_num
    omega
  have hpos := Js.natDigits_length_pos c
  have hten : (10 : ℚ) ≠ 0 := by norm_num
  cases negative with
  | false =>
      -- the coefficient has its digits, so the number is beyond the doubles
      have hlow : (10 : ℚ) ^ (((natDigits c).length : ℤ) - 1) ≤ c := by
        rw [show ((natDigits c).length : ℤ) - 1 = (((natDigits c).length - 1 : ℕ) : ℤ) by omega,
          zpow_natCast]
        exact_mod_cast Js.ten_pow_le hc
      have hbig : (10 : ℚ) ^ (400 : ℤ) ≤
          c * (10 : ℚ) ^ (signedExponent false m + 1 - (natDigits c).length) := by
        calc (10 : ℚ) ^ (400 : ℤ) ≤ (10 : ℚ) ^ (m : ℤ) := zpow_le_zpow_right₀ (by norm_num) hm
          _ = (10 : ℚ) ^ (((natDigits c).length : ℤ) - 1) *
              (10 : ℚ) ^ ((m : ℤ) + 1 - (natDigits c).length) := by
            rw [← zpow_add₀ hten]
            congr 1
            ring
          _ ≤ _ := mul_le_mul_of_nonneg_right hlow (zpow_nonneg (by norm_num) _)
      have hinf : ofRat ((10 : ℚ) ^ (400 : ℤ)) = .posInf := by decide +kernel
      have hle := JsNumber.le_ofRat hbig
      rw [hinf, hreads] at hle
      cases hle
  | true =>
      have hhigh : (c : ℚ) ≤ (10 : ℚ) ^ ((natDigits c).length : ℤ) := by
        rw [zpow_natCast]
        exact_mod_cast (Js.lt_ten_pow_length c).le
      have hsmall : c * (10 : ℚ) ^ (signedExponent true m + 1 - (natDigits c).length) ≤
          (10 : ℚ) ^ (-399 : ℤ) := by
        calc c * (10 : ℚ) ^ (signedExponent true m + 1 - (natDigits c).length)
            ≤ (10 : ℚ) ^ ((natDigits c).length : ℤ) *
              (10 : ℚ) ^ (signedExponent true m + 1 - (natDigits c).length) :=
            mul_le_mul_of_nonneg_right hhigh (zpow_nonneg (by norm_num) _)
          _ = (10 : ℚ) ^ (1 - (m : ℤ)) := by
            rw [← zpow_add₀ hten]
            congr 1
            simp only [signedExponent, if_true]
            ring
          _ ≤ (10 : ℚ) ^ (-399 : ℤ) := zpow_le_zpow_right₀ (by norm_num) (by omega)
      have hzero : ofRat ((10 : ℚ) ^ (-399 : ℤ)) = .fin 0 := by decide +kernel
      have hle := JsNumber.le_ofRat hsmall
      rw [hzero, hreads, JsNumber.le_fin] at hle
      have hnonneg : 0 ≤ c * (10 : ℚ) ^ (signedExponent true m + 1 - (natDigits c).length) := by
        positivity
      have hge := JsNumber.le_ofRat hnonneg
      rw [JsNumber.ofRat_zero, hreads, JsNumber.le_fin] at hge
      exact hx (le_antisymm hle hge)

end Exponent

/-! ## The decimal of a rendering -/

/-- What is written for a number: a decimal of the grammar, of the same rational, which is read back as the
    number. -/
structure DecimalOf (x q : ℚ) (text : JsString) : Prop where
  grammar : decimalPattern text = true
  denotes : denoted text = some q
  reads : Js.stringToNumber text = .fin x

theorem decimalOf_pointed {x : ℚ} {i f : JsString} (hi : Whole i) (hf : ∀ d ∈ f, isDigit d = true)
    (hreads : ofRat (decimalValue i f 0) = .fin x) :
    DecimalOf x (decimalValue i f 0) (pointed i f) where
  grammar := decimalPattern_pointed hi hf
  denotes := denoted_pointed hi hf
  reads := (stringToNumber_pointed hi hf).trans hreads

/-- The text of a number without its exponent. -/
theorem decimalOf_expand {x q : ℚ} {text : JsString} (hx : x ≠ 0) (h : Renders x text q) :
    DecimalOf x q (expandDecimal text) := by
  obtain ⟨hform, hdenotes, hreads, -⟩ := h
  cases hform with
  | plain hi hf =>
      rw [denoted_pointed hi hf, Option.some.injEq] at hdenotes
      subst hdenotes
      rw [expandDecimal_pointed hi.2.1 hf]
      exact decimalOf_pointed hi hf hreads
  | scientific negative m hc =>
      rw [denoted_scientific hc, Option.some.injEq] at hdenotes
      subst hdenotes
      rw [expandDecimal_scientific negative (exponent_lt hc negative hx hreads)]
      obtain ⟨i, f, hpointed, hi, hf, hvalue⟩ :=
        shiftPoint_eq_pointed hc (1 + signedExponent negative m)
      rw [add_comm] at hvalue
      rw [← hvalue] at hreads ⊢
      show DecimalOf x _ (shiftPoint _ (1 + signedExponent negative m))
      rw [hpointed]
      exact decimalOf_pointed hi hf hreads

/-- **Whatever rendering of a number it is given**, the decimal denotes what the rendering denotes. -/
theorem decimalOf_rendering {x q : ℚ} {rendering : JsString} (hx : 0 ≤ x)
    (h : Renders x rendering q) :
    ∃ text, decimalOfRendering rendering (.fin x) = .ok text ∧ DecimalOf x q text := by
  have hok : (JsNumber.fin x).isFinite = true ∧ (JsNumber.fin x).lt (.fin 0) = false := by
    refine ⟨rfl, ?_⟩
    simp only [JsNumber.lt, decide_eq_false_iff_not, not_lt]
    exact hx
  simp only [decimalOfRendering, bind_eq_ok, ensure_eq_ok, exists_unit, pure_eq_ok]
  by_cases hzero : x = 0
  · subst hzero
    obtain rfl := h.zero rfl
    exact ⟨_, ⟨hok, if_pos rfl⟩, by decide, by decide +kernel, by decide⟩
  · have hne : JsNumber.fin x ≠ .fin 0 := fun heq => hzero (JsNumber.fin.inj heq)
    exact ⟨_, ⟨hok, if_neg hne⟩, decimalOf_expand hzero h⟩

/-! ## The text of a number -/

theorem rendering_natDigits {n : ℕ} (hn : n ≠ 0) : Rendering (natDigits n) := by
  have hplain := Rendering.plain (f := []) (Js.whole_natDigits hn) (by simp)
  rwa [pointed, if_pos rfl] at hplain

theorem rendering_layoutDigits {c : ℕ} (hc : c ≠ 0) (n : ℤ) :
    Rendering (Js.layoutDigits (natDigits c) n) := by
  have hshift : Rendering (shiftPoint (natDigits c) n) := by
    obtain ⟨i, f, hpointed, hi, hf, -⟩ := shiftPoint_eq_pointed hc n
    rw [hpointed]
    exact .plain hi hf
  rcases layoutDigits_cases c n with hlayout | hlayout
  · rwa [hlayout]
  · rw [hlayout]
    exact .scientific _ _ hc

/-- **`String(x)` renders `x`.** -/
theorem renders_numberText {x : ℚ} (hdouble : Js.IsDouble x) (hx : 0 ≤ x) :
    ∃ q, Renders x (Js.numberText (.fin x)) q := by
  rcases hx.eq_or_lt with rfl | hpos
  · refine ⟨0, ?_, by decide +kernel, rfl, fun _ => rfl⟩
    exact .plain (i := [48]) (f := []) ⟨by simp, by simp [Js.isDigit_zero], by simp⟩ (by simp)
  rcases numberText_cases hpos hdouble with
    ⟨n, hn, -, rfl, htext⟩ | ⟨c, e, hc, -, -, hround, htext⟩
  · refine ⟨n, ?_, ?_, hdouble, fun h => h⟩
    · rw [htext]
      exact rendering_natDigits hn
    · have hparse := Js.parse_plain hn Js.delimited_nil 0
      rw [htext]
      apply denoted_eq_some
      simpa using hparse
  · refine ⟨c * (10 : ℚ) ^ e, ?_, ?_, hround, fun h => absurd h hpos.ne'⟩
    · rw [htext]
      exact rendering_layoutDigits hc _
    · have hparse := Js.parseUnsigned_layoutDigits hc Js.delimited_nil e
      rw [htext]
      apply denoted_eq_some
      rwa [List.append_nil] at hparse

end Durable
