import BpcProtocol.Js.Double
import BpcProtocol.Js.Integers

set_option autoImplicit false

/-! # The order of doubles

Rounding keeps the order of the rationals, so the operators of the language keep the order of their
arguments: what they compute of a larger number is not smaller. -/

namespace Js

/-! ## Rounding keeps the order -/

theorem roundHalfEven_mono {x y : ℚ} (h : x ≤ y) : roundHalfEven x ≤ roundHalfEven y := by
  have hxlo : (x.floor : ℚ) ≤ x := Int.floor_le x
  have hylo : (y.floor : ℚ) ≤ y := Int.floor_le y
  have hfloor : x.floor ≤ y.floor := Int.floor_mono h
  rcases hfloor.lt_or_eq with hlt | heq
  · -- between the two lies an integer
    have hup : roundHalfEven x ≤ x.floor + 1 := by
      unfold roundHalfEven
      simp only
      split_ifs <;> omega
    have hdown : y.floor ≤ roundHalfEven y := le_roundHalfEven hylo
    omega
  · unfold roundHalfEven
    simp only
    rw [heq]
    split_ifs <;> first | omega | (exfalso; linarith)

/-- The rational a number is rounded to, as long as it is finite. -/
def rounded (q : ℚ) : ℚ :=
  roundHalfEven (q / pow2 (lastPlace q)) * pow2 (lastPlace q)

theorem rounded_neg (q : ℚ) : rounded (-q) = -rounded q := by
  have hplace : lastPlace (-q) = lastPlace q := by
    unfold lastPlace
    rw [leadingBit_neg]
  unfold rounded
  rw [hplace, neg_div, roundHalfEven_neg]
  push_cast
  ring

theorem rounded_nonneg {q : ℚ} (hq : 0 ≤ q) : 0 ≤ rounded q := by
  have hquot : ((0 : ℤ) : ℚ) ≤ q / pow2 (lastPlace q) := by
    rw [Int.cast_zero]
    exact div_nonneg hq (pow2_pos _).le
  have hround : (0 : ℚ) ≤ roundHalfEven (q / pow2 (lastPlace q)) := by
    exact_mod_cast le_roundHalfEven hquot
  exact mul_nonneg hround (pow2_pos _).le

/-- A number is rounded to nothing above the power of two behind its last place. -/
theorem rounded_le {x : ℚ} (hx : 0 < x) : rounded x ≤ pow2 (lastPlace x + 53) := by
  have hunit := pow2_pos (lastPlace x)
  have hpow : pow2 (lastPlace x + 53) = ((2 ^ 53 : ℤ) : ℚ) * pow2 (lastPlace x) := by
    rw [pow2_eq_mul (lastPlace x + 53) 53]
    push_cast
    ring_nf
  have hbound := (leadingBit_bounds hx.ne').2
  rw [abs_of_pos hx] at hbound
  have hplace : leadingBit x + 1 ≤ lastPlace x + 53 := by
    unfold lastPlace
    omega
  have hquot : x / pow2 (lastPlace x) < ((2 ^ 53 : ℤ) : ℚ) := by
    rw [div_lt_iff₀ hunit, ← hpow]
    exact hbound.trans_le (pow2_le_pow2 hplace)
  have hpos : 0 < x / pow2 (lastPlace x) := div_pos hx hunit
  have hneg : -((2 ^ 53 : ℤ) : ℚ) < x / pow2 (lastPlace x) := lt_trans (by norm_num) hpos
  have hround := (roundHalfEven_le hneg hquot).2
  rw [hpow]
  exact mul_le_mul_of_nonneg_right (by exact_mod_cast hround) hunit.le

/-- A number above the smallest is rounded to nothing below its leading bit. -/
theorem le_rounded {y : ℚ} (hy : 0 < y) (hplace : lastPlace y = leadingBit y - 52) :
    pow2 (leadingBit y) ≤ rounded y := by
  have hunit := pow2_pos (lastPlace y)
  have hpow : pow2 (leadingBit y) = ((2 ^ 52 : ℤ) : ℚ) * pow2 (lastPlace y) := by
    rw [hplace, pow2_eq_mul (leadingBit y) 52]
    push_cast
    rfl
  have hlo := (leadingBit_bounds hy.ne').1
  rw [abs_of_pos hy] at hlo
  have hround : (2 ^ 52 : ℤ) ≤ roundHalfEven (y / pow2 (lastPlace y)) := by
    refine le_roundHalfEven ((le_div_iff₀ hunit).mpr ?_)
    rw [← hpow]
    exact hlo
  rw [hpow]
  exact mul_le_mul_of_nonneg_right (by exact_mod_cast hround) hunit.le

theorem leadingBit_mono {x y : ℚ} (hx : 0 < x) (h : x ≤ y) : leadingBit x ≤ leadingBit y := by
  have hy : 0 < y := hx.trans_le h
  have hlo := (leadingBit_bounds hx.ne').1
  rw [abs_of_pos hx] at hlo
  exact le_leadingBit hy.ne' (by rw [abs_of_pos hy]; exact hlo.trans h)

theorem rounded_mono_pos {x y : ℚ} (hx : 0 < x) (h : x ≤ y) : rounded x ≤ rounded y := by
  have hy : 0 < y := hx.trans_le h
  have hbit := leadingBit_mono hx h
  have hplace : lastPlace x ≤ lastPlace y := by
    unfold lastPlace
    omega
  rcases hplace.lt_or_eq with hlt | heq
  · -- a power of two lies between the two
    have hnormal : lastPlace y = leadingBit y - 52 := by
      unfold lastPlace at hlt ⊢
      omega
    calc rounded x ≤ pow2 (lastPlace x + 53) := rounded_le hx
      _ ≤ pow2 (leadingBit y) := pow2_le_pow2 (by omega)
      _ ≤ rounded y := le_rounded hy hnormal
  · unfold rounded
    rw [heq]
    have hunit := pow2_pos (lastPlace y)
    have hquot : x / pow2 (lastPlace y) ≤ y / pow2 (lastPlace y) :=
      div_le_div_of_nonneg_right h hunit.le
    exact mul_le_mul_of_nonneg_right (by exact_mod_cast roundHalfEven_mono hquot) hunit.le

theorem rounded_mono {x y : ℚ} (h : x ≤ y) : rounded x ≤ rounded y := by
  rcases lt_or_ge 0 x with hx | hx
  · exact rounded_mono_pos hx h
  rcases lt_or_ge y 0 with hy | hy
  · have hneg := rounded_mono_pos (neg_pos.mpr hy) (neg_le_neg h)
    rw [rounded_neg, rounded_neg] at hneg
    exact neg_le_neg_iff.mp hneg
  · have hlow := rounded_nonneg (neg_nonneg.mpr hx)
    rw [rounded_neg] at hlow
    linarith [rounded_nonneg hy]

end Js

namespace JsNumber

open Js

/-! ## The order -/

/-- Neither side is `NaN`, and the left is at most the right. -/
abbrev Le (a b : JsNumber) : Prop :=
  b.ge a = true

@[simp]
theorem le_fin (a b : ℚ) : Le (.fin a) (.fin b) ↔ a ≤ b := by
  rw [Le, ge_fin, decide_eq_true_iff]

theorem Le.trans {a b c : JsNumber} (hab : Le a b) (hbc : Le b c) : Le a c := by
  have hfalse (h : false = true) : Le a c := absurd h Bool.false_ne_true
  cases b with
  | nan => cases a <;> exact hfalse hab
  | posInf =>
      cases c with
      | posInf => cases a <;> exact hab
      | _ => exact hfalse hbc
  | negInf =>
      cases a with
      | negInf => exact hbc
      | _ => exact hfalse hab
  | fin q =>
      cases a with
      | nan => exact hfalse hab
      | posInf => exact hfalse hab
      | negInf => cases c <;> first | exact hfalse hbc | rfl
      | fin p =>
          cases c with
          | fin r => exact (le_fin p r).mpr (((le_fin p q).mp hab).trans ((le_fin q r).mp hbc))
          | posInf => rfl
          | _ => exact hfalse hbc

theorem le_posInf {a : JsNumber} (h : a ≠ .nan) : Le a .posInf := by
  cases a with
  | nan => exact absurd rfl h
  | _ => rfl

theorem negInf_le {a : JsNumber} (h : a ≠ .nan) : Le .negInf a := by
  cases a with
  | nan => exact absurd rfl h
  | _ => rfl

theorem ofRat_ne_nan (q : ℚ) : ofRat q ≠ .nan := by
  by_cases hq : q = 0
  · subst hq
    simp [ofRat]
  · rw [ofRat_of_ne hq]
    split_ifs <;> simp

/-- What is rounded to infinity is above everything finite, and the other way round. -/
theorem ofRat_eq_rounded (q : ℚ) :
    ofRat q =
      if pow2 1024 ≤ rounded q then .posInf else if rounded q ≤ -pow2 1024 then .negInf
      else .fin (rounded q) := by
  by_cases hq : q = 0
  · subst hq
    have hzero : rounded 0 = 0 := by
      unfold rounded
      have hround : roundHalfEven (0 / pow2 (lastPlace 0)) = 0 := by
        rw [zero_div]
        exact roundHalfEven_intCast 0
      rw [hround, Int.cast_zero, zero_mul]
    have hpos := pow2_pos 1024
    rw [hzero, if_neg (not_le.mpr hpos), if_neg (by linarith)]
    simp [ofRat]
  · exact ofRat_of_ne hq

/-- **Rounding keeps the order.** -/
theorem le_ofRat {x y : ℚ} (h : x ≤ y) : Le (ofRat x) (ofRat y) := by
  have hmono := rounded_mono h
  have hpos := pow2_pos 1024
  by_cases hbig : pow2 1024 ≤ rounded y
  · rw [ofRat_eq_rounded y, if_pos hbig]
    exact le_posInf (ofRat_ne_nan x)
  by_cases hsmall : rounded x ≤ -pow2 1024
  · rw [ofRat_eq_rounded x, if_neg (by linarith), if_pos hsmall]
    exact negInf_le (ofRat_ne_nan y)
  · rw [ofRat_eq_rounded x, ofRat_eq_rounded y, if_neg (by linarith), if_neg hsmall, if_neg hbig,
      if_neg (by linarith)]
    exact (le_fin _ _).mpr hmono

/-! ## Operators -/

theorem Le.ne_nan {a b : JsNumber} (h : Le a b) : a ≠ .nan := by
  rintro rfl
  cases b <;> exact absurd (show false = true from h) Bool.false_ne_true

theorem Le.right_ne_nan {a b : JsNumber} (h : Le a b) : b ≠ .nan := by
  rintro rfl
  cases a <;> exact absurd (show false = true from h) Bool.false_ne_true

theorem le_refl {a : JsNumber} (h : a ≠ .nan) : Le a a := by
  cases a with
  | nan => exact absurd rfl h
  | fin q => exact (le_fin q q).mpr le_rfl
  | posInf => rfl
  | negInf => rfl

/-- An operator that keeps the order of the finite numbers and the two infinities keeps the order. -/
theorem le_map {f : JsNumber → JsNumber} (hfin : ∀ p q, p ≤ q → Le (f (.fin p)) (f (.fin q)))
    (hpos : f .posInf = .posInf) (hneg : f .negInf = .negInf) {a b : JsNumber} (h : Le a b) :
    Le (f a) (f b) := by
  have hnan (q : ℚ) : f (.fin q) ≠ .nan := (hfin q q le_rfl).ne_nan
  have hfalse (h : false = true) : Le (f a) (f b) := absurd h Bool.false_ne_true
  cases a with
  | nan => exact absurd rfl h.ne_nan
  | posInf =>
      cases b with
      | posInf =>
          rw [hpos]
          rfl
      | _ => exact hfalse h
  | negInf =>
      cases b with
      | nan => exact hfalse h
      | negInf =>
          rw [hneg]
          rfl
      | fin q =>
          rw [hneg]
          exact negInf_le (hnan q)
      | posInf =>
          rw [hneg, hpos]
          rfl
  | fin p =>
      cases b with
      | fin q => exact hfin p q ((le_fin p q).mp h)
      | posInf =>
          rw [hpos]
          exact le_posInf (hnan p)
      | _ => exact hfalse h

theorem le_add_fin {a b : JsNumber} (c : ℚ) (h : Le a b) : Le (a.add (.fin c)) (b.add (.fin c)) :=
  le_map (f := fun n => n.add (.fin c)) (fun _ _ hpq => le_ofRat (by linarith)) rfl rfl h

theorem le_incr {a b : JsNumber} (h : Le a b) : Le a.incr b.incr :=
  le_add_fin 1 h

theorem le_div_fin {a b : JsNumber} {c : ℚ} (hc : 0 < c) (h : Le a b) :
    Le (a.div (.fin c)) (b.div (.fin c)) := by
  refine le_map (f := fun n => n.div (.fin c)) (fun p q hpq => ?_) (if_pos hc) (if_pos hc) h
  exact le_ofRat (div_le_div_of_nonneg_right hpq hc.le)

theorem le_floor {a b : JsNumber} (h : Le a b) : Le a.floor b.floor :=
  le_map (f := JsNumber.floor)
    (fun _ _ hpq => (le_fin _ _).mpr (by exact_mod_cast Int.floor_mono hpq)) rfl rfl h

theorem Le.lt_eq_false {a b : JsNumber} (h : Le a b) : b.lt a = false := by
  have hfalse (h : false = true) : b.lt a = false := absurd h Bool.false_ne_true
  cases a with
  | nan => exact absurd rfl h.ne_nan
  | posInf => cases b <;> first | exact hfalse h | rfl
  | negInf => cases b <;> rfl
  | fin p =>
      cases b with
      | fin q => exact decide_eq_false (not_lt.mpr ((le_fin p q).mp h))
      | posInf => rfl
      | _ => exact hfalse h

theorem lt_trans_le {a b c : JsNumber} (hab : a.lt b = true) (hbc : Le b c) :
    a.lt c = true := by
  have hfalse (h : false = true) : a.lt c = true := absurd h Bool.false_ne_true
  cases b with
  | nan => exact absurd rfl hbc.ne_nan
  | negInf => cases a <;> exact hfalse hab
  | posInf =>
      cases c with
      | posInf => exact hab
      | _ => exact hfalse hbc
  | fin q =>
      cases c with
      | fin r =>
          cases a with
          | fin p =>
              exact decide_eq_true (lt_of_lt_of_le (of_decide_eq_true hab) ((le_fin q r).mp hbc))
          | negInf => rfl
          | _ => exact hfalse hab
      | posInf => cases a <;> first | exact hfalse hab | rfl
      | _ => exact hfalse hbc

theorem ofRat_zero : ofRat 0 = .fin 0 :=
  if_pos rfl

theorem le_twoPow {a b : JsNumber} (ha : Le (.fin 0) a) (h : Le a b) : Le a.twoPow b.twoPow := by
  have hne {n : JsNumber} (hn : n ≠ .nan) : n.twoPow ≠ .nan := by
    cases n with
    | nan => exact absurd rfl hn
    | posInf => simp [twoPow]
    | negInf => simp [twoPow]
    | fin q =>
        rw [twoPow]
        split
        · exact ofRat_ne_nan _
        · simp
  have hfalse (h : false = true) : Le a.twoPow b.twoPow := absurd h Bool.false_ne_true
  cases b with
  | posInf => exact le_posInf (hne h.ne_nan)
  | nan => exact absurd rfl h.right_ne_nan
  | negInf => cases a <;> first | exact hfalse h | exact hfalse ha
  | fin r =>
      cases a with
      | fin p =>
          have hpr : p ≤ r := (le_fin p r).mp h
          rw [twoPow, twoPow]
          by_cases hr : r < 1024
          · rw [if_pos hr, if_pos (hpr.trans_lt hr)]
            exact le_ofRat (pow2_le_pow2 (Int.floor_mono hpr))
          · rw [if_neg hr]
            refine le_posInf ?_
            split
            · exact ofRat_ne_nan _
            · simp
      | nan => exact absurd rfl h.ne_nan
      | posInf => exact hfalse h
      | negInf => exact hfalse ha

/-- A larger divisor leaves a smaller quotient. -/
theorem le_div_of_le {q : ℚ} (hq : 0 ≤ q) {a b : JsNumber} (ha : Le (.fin 1) a) (h : Le a b) :
    Le ((JsNumber.fin q).div b) ((JsNumber.fin q).div a) := by
  have hfalse (h : false = true) : Le ((JsNumber.fin q).div b) ((JsNumber.fin q).div a) :=
    absurd h Bool.false_ne_true
  cases a with
  | nan => exact absurd rfl h.ne_nan
  | negInf => exact hfalse ha
  | posInf =>
      cases b with
      | posInf => exact (le_fin 0 0).mpr le_rfl
      | _ => exact hfalse h
  | fin p =>
      have hp : 1 ≤ p := (le_fin 1 p).mp ha
      cases b with
      | fin r =>
          exact le_ofRat (div_le_div_of_nonneg_left hq (by linarith) ((le_fin p r).mp h))
      | posInf =>
          have hle : Le (ofRat 0) (ofRat (q / p)) := le_ofRat (div_nonneg hq (by linarith))
          rw [ofRat_zero] at hle
          exact hle
      | nan => exact absurd rfl h.right_ne_nan
      | negInf => exact hfalse h

theorem le_counted {m n : ℕ} (h : m ≤ n) : Le (counted m) (counted n) :=
  (le_fin _ _).mpr (by exact_mod_cast min_le_min_right (2 ^ 53) h)

end JsNumber
