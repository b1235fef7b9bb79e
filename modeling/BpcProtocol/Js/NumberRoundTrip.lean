import BpcProtocol.Js.JsonRoundTrip
import Mathlib.Algebra.Order.Field.Power
import Mathlib.Tactic.FieldSimp
import Mathlib.Tactic.Linarith
import Mathlib.Tactic.NormNum
import Mathlib.Tactic.Positivity
import Mathlib.Tactic.Ring

set_option autoImplicit false

/-! # Numbers there and back

The text of a double reads back as the double: seventeen significant digits are nearer to it than to
the middle between it and the next one. -/

namespace Js

/-! ## Powers -/

theorem pow2_eq_zpow (e : ℤ) : pow2 e = (2 : ℚ) ^ e := by
  unfold pow2
  split
  · next h =>
      obtain ⟨k, rfl⟩ := Int.eq_ofNat_of_zero_le h
      simp
  · next h =>
      obtain ⟨k, hk⟩ := Int.eq_ofNat_of_zero_le (show 0 ≤ -e by omega)
      obtain rfl : e = -k := by omega
      simp

theorem pow2_le_pow2 {a b : ℤ} (h : a ≤ b) : pow2 a ≤ pow2 b := by
  rw [pow2_eq_zpow, pow2_eq_zpow]
  exact zpow_le_zpow_right₀ (by norm_num) h

theorem pow2_add (a b : ℤ) : pow2 (a + b) = pow2 a * pow2 b := by
  rw [pow2_eq_zpow, pow2_eq_zpow, pow2_eq_zpow]
  exact zpow_add₀ (by norm_num) a b

theorem pow2_add_one (a : ℤ) : pow2 (a + 1) = 2 * pow2 a := by
  rw [pow2_add, mul_comm]
  norm_num [pow2]

theorem pow2_eq_mul (b : ℤ) (k : ℕ) : pow2 b = 2 ^ k * pow2 (b - k) := by
  have hk : pow2 (k : ℤ) = 2 ^ k := by
    rw [pow2_natCast]
    push_cast
    rfl
  rw [← hk, ← pow2_add]
  congr 1
  ring

/-- A power of ten whose exponent may be negative, as the code writes it. -/
theorem ten_zpow (e : ℤ) :
    (10 : ℚ) ^ e =
      if 0 ≤ e then ((10 ^ e.toNat : ℕ) : ℚ) else 1 / ((10 ^ (-e).toNat : ℕ) : ℚ) := by
  split
  · next h =>
      obtain ⟨k, rfl⟩ := Int.eq_ofNat_of_zero_le h
      simp
  · next h =>
      obtain ⟨k, hk⟩ := Int.eq_ofNat_of_zero_le (show 0 ≤ -e by omega)
      obtain rfl : e = -k := by omega
      simp

/-! ## The leading bit -/

theorem abs_eq_natAbs_div (q : ℚ) : |q| = (q.num.natAbs : ℚ) / (q.den : ℚ) := by
  rw [Rat.abs_def, Rat.divInt_eq_div]
  simp

theorem log2_bounds {n : ℕ} (hn : n ≠ 0) :
    pow2 (Nat.log2 n) ≤ (n : ℚ) ∧ (n : ℚ) < pow2 (Nat.log2 n + 1) := by
  have hlo := Nat.log2_self_le hn
  have hhi := Nat.lt_log2_self (n := n)
  constructor
  · rw [pow2_natCast]
    exact_mod_cast hlo
  · rw [show ((Nat.log2 n : ℕ) : ℤ) + 1 = ((Nat.log2 n + 1 : ℕ) : ℤ) by push_cast; rfl, pow2_natCast]
    exact_mod_cast hhi

/-- The leading bit of a number bounds it from both sides. -/
theorem leadingBit_bounds {q : ℚ} (hq : q ≠ 0) :
    pow2 (leadingBit q) ≤ |q| ∧ |q| < pow2 (leadingBit q + 1) := by
  have hnum : q.num.natAbs ≠ 0 := by
    intro h
    exact hq (Rat.num_eq_zero.mp (Int.natAbs_eq_zero.mp h))
  obtain ⟨hnlo, hnhi⟩ := log2_bounds hnum
  obtain ⟨hdlo, hdhi⟩ := log2_bounds q.den_nz
  have hden : (0 : ℚ) < q.den := by exact_mod_cast q.den_pos
  have habs := abs_eq_natAbs_div q
  set a : ℤ := ((Nat.log2 q.num.natAbs : ℕ) : ℤ) with ha
  set b : ℤ := ((Nat.log2 q.den : ℕ) : ℤ) with hb
  have hupper : |q| < pow2 (a - b + 1) := by
    rw [habs, div_lt_iff₀ hden]
    calc (q.num.natAbs : ℚ) < pow2 (a + 1) := hnhi
      _ = pow2 (a - b + 1) * pow2 b := by rw [← pow2_add]; congr 1; ring
      _ ≤ pow2 (a - b + 1) * q.den := mul_le_mul_of_nonneg_left hdlo (pow2_pos _).le
  have hlower : pow2 (a - b - 1) ≤ |q| := by
    rw [habs, le_div_iff₀ hden]
    calc pow2 (a - b - 1) * q.den ≤ pow2 (a - b - 1) * pow2 (b + 1) :=
          mul_le_mul_of_nonneg_left hdhi.le (pow2_pos _).le
      _ = pow2 a := by rw [← pow2_add]; congr 1; ring
      _ ≤ (q.num.natAbs : ℚ) := hnlo
  unfold leadingBit
  simp only [← ha, ← hb]
  split
  · next h => exact ⟨h, hupper⟩
  · next h => exact ⟨hlower, by simpa using not_le.mp h⟩

/-- A number below a power of two has its leading bit below it. -/
theorem leadingBit_lt {q : ℚ} (hq : q ≠ 0) {e : ℤ} (h : |q| < pow2 e) : leadingBit q < e := by
  by_contra hle
  exact absurd (lt_of_le_of_lt ((pow2_le_pow2 (not_lt.mp hle)).trans (leadingBit_bounds hq).1) h)
    (lt_irrefl _)

theorem le_leadingBit {q : ℚ} (hq : q ≠ 0) {e : ℤ} (h : pow2 e ≤ |q|) : e ≤ leadingBit q := by
  by_contra hlt
  have hle : pow2 (leadingBit q + 1) ≤ pow2 e := pow2_le_pow2 (by omega)
  exact absurd (lt_of_le_of_lt (hle.trans h) (leadingBit_bounds hq).2) (lt_irrefl _)

theorem leadingBit_neg (q : ℚ) : leadingBit (-q) = leadingBit q := by
  simp [leadingBit]

/-! ## Rounding -/

theorem rat_floor_eq {q : ℚ} {n : ℤ} (hlo : (n : ℚ) ≤ q) (hhi : q < n + 1) : q.floor = n :=
  Int.floor_eq_iff.mpr ⟨hlo, hhi⟩

/-- A number nearer than a half to an integer is rounded to it. -/
theorem roundHalfEven_eq {q : ℚ} {n : ℤ} (h : |q - n| < 1 / 2) : roundHalfEven q = n := by
  obtain ⟨hlo, hhi⟩ := abs_lt.mp h
  unfold roundHalfEven
  by_cases hq : (n : ℚ) ≤ q
  · rw [rat_floor_eq hq (by linarith), if_pos (by linarith)]
  · have hfloor : q.floor = n - 1 := by
      apply rat_floor_eq <;> push_cast <;> linarith
    have hr : ((n - 1 : ℤ) : ℚ) = n - 1 := by push_cast; rfl
    simp only [hfloor, hr]
    rw [if_neg (by linarith), if_pos (by linarith)]
    ring

theorem roundHalfEven_neg (q : ℚ) : roundHalfEven (-q) = -roundHalfEven q := by
  have hlo : (q.floor : ℚ) ≤ q := Int.floor_le q
  have hhi : q < q.floor + 1 := Int.lt_floor_add_one q
  by_cases hint : (q.floor : ℚ) = q
  · rw [← hint, ← Int.cast_neg, roundHalfEven_intCast, roundHalfEven_intCast]
  · have hlt : (q.floor : ℚ) < q := lt_of_le_of_ne hlo hint
    by_cases hhalf : q - q.floor = 1 / 2
    · -- the middle of two integers: the even one of them
      have hfloor : (-q).floor = -q.floor - 1 := by
        apply rat_floor_eq <;> push_cast <;> linarith
      have hr : -q - ((-q.floor - 1 : ℤ) : ℚ) = 1 / 2 := by push_cast; linarith
      unfold roundHalfEven
      simp only [hfloor, hr, hhalf, lt_irrefl, if_false]
      split <;> split <;> omega
    · rcases lt_or_gt_of_ne hhalf with h | h
      · have hround : roundHalfEven q = q.floor :=
          roundHalfEven_eq (abs_lt.mpr ⟨by linarith, by linarith⟩)
        rw [hround]
        refine roundHalfEven_eq (abs_lt.mpr ⟨?_, ?_⟩) <;> push_cast <;> linarith
      · have hround : roundHalfEven q = q.floor + 1 := by
          refine roundHalfEven_eq (abs_lt.mpr ⟨?_, ?_⟩) <;> push_cast <;> linarith
        rw [hround]
        refine roundHalfEven_eq (abs_lt.mpr ⟨?_, ?_⟩) <;> push_cast <;> linarith

/-- The exponent of the last place of the double nearest to a number. -/
def lastPlace (q : ℚ) : ℤ := max (leadingBit q - 52) (-1074)

theorem ofRat_of_ne {q : ℚ} (hq : q ≠ 0) :
    ofRat q =
      if pow2 1024 ≤ roundHalfEven (q / pow2 (lastPlace q)) * pow2 (lastPlace q) then .posInf
      else if roundHalfEven (q / pow2 (lastPlace q)) * pow2 (lastPlace q) ≤ -pow2 1024 then .negInf
      else .fin (roundHalfEven (q / pow2 (lastPlace q)) * pow2 (lastPlace q)) := by
  unfold ofRat lastPlace
  rw [if_neg hq]

theorem ofRat_neg (q : ℚ) : ofRat (-q) = (ofRat q).neg := by
  by_cases hq : q = 0
  · subst hq
    simp [ofRat, JsNumber.neg]
  · have hplace : lastPlace (-q) = lastPlace q := by
      unfold lastPlace
      rw [leadingBit_neg]
    rw [ofRat_of_ne (neg_ne_zero.mpr hq), ofRat_of_ne hq, hplace, neg_div, roundHalfEven_neg]
    have hpos := pow2_pos 1024
    set v : ℚ := roundHalfEven (q / pow2 (lastPlace q)) * pow2 (lastPlace q) with hv
    have hneg : ((-roundHalfEven (q / pow2 (lastPlace q)) : ℤ) : ℚ) * pow2 (lastPlace q) = -v := by
      rw [hv]
      push_cast
      ring
    rw [hneg]
    by_cases hbig : pow2 1024 ≤ v
    · rw [if_neg (by linarith), if_pos (by linarith), if_pos hbig]
      rfl
    · by_cases hsmall : v ≤ -pow2 1024
      · rw [if_pos (by linarith), if_neg hbig, if_pos hsmall]
        rfl
      · rw [if_neg (by linarith), if_neg (by linarith), if_neg hbig, if_neg hsmall]
        rfl

/-! ## Doubles -/

/-- A number is a double: it is not rounded. -/
def IsDouble (q : ℚ) : Prop :=
  ofRat q = .fin q

theorem IsDouble.neg {q : ℚ} (h : IsDouble q) : IsDouble (-q) := by
  unfold IsDouble
  rw [ofRat_neg, h]
  rfl

theorem IsDouble.abs {q : ℚ} (h : IsDouble q) : IsDouble |q| := by
  rcases abs_choice q with hq | hq <;> rw [hq]
  · exact h
  · exact h.neg

/-- A double is a number of units of its last place, and finite. -/
theorem IsDouble.units {x : ℚ} (h : IsDouble x) (hx : x ≠ 0) :
    (∃ m : ℤ, x = m * pow2 (lastPlace x)) ∧ x < pow2 1024 ∧ -pow2 1024 < x := by
  unfold IsDouble at h
  rw [ofRat_of_ne hx] at h
  split_ifs at h with hbig hsmall
  injection h with h
  rw [h] at hbig hsmall
  exact ⟨⟨_, h.symm⟩, not_le.mp hbig, not_le.mp hsmall⟩

/-- What is rounded to a number of units of its last place, is rounded to the double it makes. -/
theorem ofRat_eq {d x : ℚ} {m : ℤ} (hd : d ≠ 0) (hlo : -pow2 1024 < x) (hhi : x < pow2 1024)
    (hm : x = m * pow2 (lastPlace d)) (hnear : |d - x| < pow2 (lastPlace d) / 2) :
    ofRat d = .fin x := by
  have hunit := pow2_pos (lastPlace d)
  have hround : roundHalfEven (d / pow2 (lastPlace d)) = m := by
    apply roundHalfEven_eq
    have hdiff : d / pow2 (lastPlace d) - m = (d - x) / pow2 (lastPlace d) := by
      rw [hm]
      field_simp
    rw [hdiff, abs_div, abs_of_pos hunit, div_lt_iff₀ hunit]
    linarith
  rw [ofRat_of_ne hd, hround, ← hm, if_neg (not_le.mpr hhi), if_neg (not_le.mpr hlo)]

theorem pow2_neg_54 : pow2 (-54) = 1 / 2 ^ 54 := by
  rw [pow2_eq_zpow]
  norm_num

/-- The significand of a positive double that is not subnormal. -/
theorem IsDouble.significand {x : ℚ} (h : IsDouble x) (hx : 0 < x) (hnormal : -1022 ≤ leadingBit x) :
    ∃ m : ℤ, x = m * pow2 (leadingBit x - 52) ∧ 2 ^ 52 ≤ m ∧ m < 2 ^ 53 := by
  obtain ⟨⟨m, hm⟩, -, -⟩ := h.units hx.ne'
  obtain ⟨hlo, hhi⟩ := leadingBit_bounds hx.ne'
  rw [abs_of_pos hx] at hlo hhi
  have hplace : lastPlace x = leadingBit x - 52 := by
    unfold lastPlace
    omega
  rw [hplace] at hm
  have hunit := pow2_pos (leadingBit x - 52)
  have hbit : pow2 (leadingBit x) = 2 ^ 52 * pow2 (leadingBit x - 52) := pow2_eq_mul _ 52
  have hnext := pow2_add_one (leadingBit x)
  refine ⟨m, hm, ?_, ?_⟩
  · have : (2 : ℚ) ^ 52 ≤ m := by
      by_contra hlt
      nlinarith [not_le.mp hlt]
    exact_mod_cast this
  · have : (m : ℚ) < 2 ^ 53 := by
      by_contra hge
      nlinarith [not_lt.mp hge]
    exact_mod_cast this

section Near

variable {d x : ℚ}

/-- The distance is less than half a unit of the last place. -/
theorem near_lastPlace (hx : 0 < x) (hnear : |d - x| < x * pow2 (-54)) {e : ℤ}
    (he : leadingBit x - 52 ≤ e) : |d - x| < pow2 e / 2 := by
  obtain ⟨-, hhi⟩ := leadingBit_bounds hx.ne'
  rw [abs_of_pos hx] at hhi
  have hpos := pow2_pos (-54)
  calc |d - x| < x * pow2 (-54) := hnear
    _ ≤ pow2 (leadingBit x + 1) * pow2 (-54) := mul_le_mul_of_nonneg_right hhi.le hpos.le
    _ = pow2 (leadingBit x - 52 - 1) := by rw [← pow2_add]; congr 1; ring
    _ ≤ pow2 (e - 1) := pow2_le_pow2 (by omega)
    _ = pow2 e / 2 := by rw [← sub_add_cancel e 1, pow2_add_one, add_sub_cancel_right]; ring

/-- A number whose distance from a positive double is less than `2^-54` of it, is rounded to it:
    half the distance to the next double is not less. -/
theorem ofRat_near (hx : 0 < x) (hdouble : IsDouble x) (hnear : |d - x| < x * pow2 (-54)) :
    ofRat d = .fin x := by
  obtain ⟨hdlo, hdhi⟩ := abs_lt.mp hnear
  have h54 := pow2_neg_54
  rw [h54] at hdlo hdhi
  have hd : 0 < d := by linarith
  obtain ⟨⟨m, hm⟩, hhi, hlo⟩ := hdouble.units hx.ne'
  obtain ⟨hxlo, hxhi⟩ := leadingBit_bounds hx.ne'
  rw [abs_of_pos hx] at hxlo hxhi
  -- with the last place of the double the distance is too short to leave its unit
  have hsame : lastPlace d = lastPlace x → ofRat d = .fin x := by
    intro hplace
    refine ofRat_eq hd.ne' hlo hhi (by rw [hplace]; exact hm) ?_
    rw [hplace]
    exact near_lastPlace hx hnear (le_max_left _ _)
  by_cases hnormal : -1022 ≤ leadingBit x
  · obtain ⟨n, hn, hnlo, hnhi⟩ := hdouble.significand hx hnormal
    set b := leadingBit x with hb
    have hunit := pow2_pos (b - 52)
    have hbit : pow2 b = 2 ^ 52 * pow2 (b - 52) := pow2_eq_mul b 52
    have hnext := pow2_add_one b
    have hnhi' : (n : ℚ) ≤ 2 ^ 53 - 1 := by
      have : n ≤ 2 ^ 53 - 1 := by omega
      exact_mod_cast this
    have hnlo' : (2 : ℚ) ^ 52 ≤ n := by exact_mod_cast hnlo
    have hupper : leadingBit d < b + 1 := by
      apply leadingBit_lt hd.ne'
      rw [abs_of_pos hd]
      nlinarith
    by_cases hpower : n = 2 ^ 52
    · -- the double is a power of two: below it the units are half as large
      have hxpow : x = pow2 b := by
        rw [hn, hpower, hbit]
        push_cast
        rfl
      have hprev : pow2 b = 2 * pow2 (b - 1) := by
        rw [← pow2_add_one, sub_add_cancel]
      have hlower : b - 1 ≤ leadingBit d := by
        apply le_leadingBit hd.ne'
        rw [abs_of_pos hd]
        linarith
      by_cases hbelow : leadingBit d = b ∨ b = -1022
      · apply hsame
        unfold lastPlace
        omega
      · have hplace : lastPlace d = b - 53 := by
          unfold lastPlace
          omega
        refine ofRat_eq (m := 2 ^ 53) hd.ne' hlo hhi ?_ ?_
        · rw [hplace, hxpow]
          push_cast
          exact pow2_eq_mul b 53
        · rw [hplace]
          calc |d - x| < x * pow2 (-54) := hnear
            _ = pow2 (b - 53 - 1) := by
              rw [hxpow, ← pow2_add, show b + -54 = b - 53 - 1 by ring]
            _ = pow2 (b - 53) / 2 := by
              rw [← sub_add_cancel (b - 53) 1, pow2_add_one, add_sub_cancel_right]
              ring
    · have hnlo1 : (2 : ℚ) ^ 52 + 1 ≤ n := by
        have : 2 ^ 52 + 1 ≤ n := by omega
        exact_mod_cast this
      have hlower : b ≤ leadingBit d := by
        apply le_leadingBit hd.ne'
        rw [abs_of_pos hd]
        nlinarith
      apply hsame
      unfold lastPlace
      omega
  · -- subnormal numbers all have one last place
    have hupper : leadingBit d < leadingBit x + 2 := by
      apply leadingBit_lt hd.ne'
      rw [abs_of_pos hd, show leadingBit x + 2 = leadingBit x + 1 + 1 by ring,
        pow2_add_one (leadingBit x + 1)]
      linarith
    apply hsame
    unfold lastPlace
    omega

end Near

/-! ## Seventeen digits -/

theorem decimalValue_eq (i f : JsString) (e : ℤ) :
    decimalValue i f e = ofDigits (i ++ f) * (10 : ℚ) ^ (e - f.length) := by
  simp only [decimalValue]
  rw [ten_zpow]
  split
  · push_cast
    rfl
  · rw [mul_one_div]

theorem natDigits_length_le {n k : ℕ} (hk : 0 < k) : (natDigits n).length ≤ k ↔ n < 10 ^ k := by
  rw [natDigits, List.length_map]
  exact Nat.length_toDigits_le_iff (by decide) hk

theorem natDigits_length_pos (n : ℕ) : 0 < (natDigits n).length :=
  List.length_pos_iff.mpr (natDigits_ne_nil n)

theorem lt_ten_pow_length (n : ℕ) : n < 10 ^ (natDigits n).length :=
  (natDigits_length_le (natDigits_length_pos n)).mp le_rfl

theorem ten_pow_le {n : ℕ} (hn : n ≠ 0) : 10 ^ ((natDigits n).length - 1) ≤ n := by
  rcases Nat.eq_zero_or_pos ((natDigits n).length - 1) with h | h
  · rw [h, pow_zero]
    exact Nat.one_le_iff_ne_zero.mpr hn
  · by_contra hlt
    have := (natDigits_length_le h).mpr (not_le.mp hlt)
    omega

/-- The place of the point bounds a positive number from below. -/
theorem pointPlace_le {x : ℚ} (hx : 0 < x) : (10 : ℚ) ^ (pointPlace x - 1) ≤ x := by
  have hnum : x.num.natAbs ≠ 0 := by
    intro h
    exact hx.ne' (Rat.num_eq_zero.mp (Int.natAbs_eq_zero.mp h))
  have hden : (0 : ℚ) < x.den := by exact_mod_cast x.den_pos
  have habs := abs_eq_natAbs_div x
  rw [abs_of_pos hx] at habs
  set a := (natDigits x.num.natAbs).length with ha
  set b := (natDigits x.den).length with hb
  have hapos : 0 < a := natDigits_length_pos _
  unfold pointPlace
  simp only [← ha, ← hb]
  rw [← ten_zpow]
  split
  · next h => rwa [add_sub_cancel_right]
  · have hlo : (10 : ℚ) ^ ((a : ℤ) - 1) ≤ x.num.natAbs := by
      rw [show (a : ℤ) - 1 = ((a - 1 : ℕ) : ℤ) by omega, zpow_natCast]
      exact_mod_cast ten_pow_le hnum
    have hhi : (x.den : ℚ) ≤ 10 ^ (b : ℤ) := by
      rw [zpow_natCast]
      exact_mod_cast (lt_ten_pow_length x.den).le
    have hpos : (0 : ℚ) < 10 ^ ((a : ℤ) - b - 1) := zpow_pos (by norm_num) _
    rw [habs, le_div_iff₀ hden]
    calc (10 : ℚ) ^ ((a : ℤ) - b - 1) * x.den ≤ 10 ^ ((a : ℤ) - b - 1) * 10 ^ (b : ℤ) :=
          mul_le_mul_of_nonneg_left hhi hpos.le
      _ = 10 ^ ((a : ℤ) - 1) := by
          rw [← zpow_add₀ (by norm_num)]
          congr 1
          ring
      _ ≤ x.num.natAbs := hlo

/-- The candidates are the integers around the number in units of the last digit. -/
theorem shortestCandidates_eq (x : ℚ) (n : ℤ) (k : ℕ) :
    shortestCandidates x n k =
      if x * 10 ^ ((k : ℤ) - n) - ((x * 10 ^ ((k : ℤ) - n)).floor.toNat : ℕ) ≤ 1 / 2 then
        [(x * 10 ^ ((k : ℤ) - n)).floor.toNat, (x * 10 ^ ((k : ℤ) - n)).floor.toNat + 1]
      else [(x * 10 ^ ((k : ℤ) - n)).floor.toNat + 1, (x * 10 ^ ((k : ℤ) - n)).floor.toNat] := by
  have hscaled : (if 0 ≤ n - k then x / ((10 ^ (n - k).toNat : ℕ) : ℚ)
      else x * ((10 ^ (k - n).toNat : ℕ) : ℚ)) = x * 10 ^ ((k : ℤ) - n) := by
    rw [show ((k : ℤ) - n) = -(n - k) by ring, zpow_neg, ten_zpow]
    split
    · rw [div_eq_mul_inv]
    · rw [show -(n - (k : ℤ)) = k - n by ring]
      simp
  unfold shortestCandidates
  simp only [hscaled]

/-- The first candidate is nearer than a half to the number in units of the last digit. -/
theorem shortestCandidates_near {x : ℚ} (hx : 0 < x) (n : ℤ) (k : ℕ) :
    ∃ c ∈ shortestCandidates x n k, |(c : ℚ) - x * 10 ^ ((k : ℤ) - n)| ≤ 1 / 2 := by
  rw [shortestCandidates_eq]
  set y : ℚ := x * 10 ^ ((k : ℤ) - n) with hy
  have hypos : 0 < y := mul_pos hx (zpow_pos (by norm_num) _)
  have hfloor : ((y.floor.toNat : ℕ) : ℚ) = (y.floor : ℚ) := by
    have h0 : 0 ≤ y.floor := Int.floor_nonneg.mpr hypos.le
    exact_mod_cast congrArg (Int.cast (R := ℚ)) (Int.toNat_of_nonneg h0)
  have hlo : (y.floor : ℚ) ≤ y := Int.floor_le y
  have hhi : y < y.floor + 1 := Int.lt_floor_add_one y
  rw [hfloor]
  split
  · refine ⟨_, List.mem_cons_self, ?_⟩
    rw [hfloor, abs_le]
    constructor <;> linarith
  · refine ⟨_, List.mem_cons_self, ?_⟩
    push_cast
    rw [hfloor, abs_le]
    constructor <;> linarith

/-- One of the candidates of seventeen digits is rounded to the double. -/
theorem exists_seventeen {x : ℚ} (hx : 0 < x) (hdouble : IsDouble x) :
    ∃ c ∈ shortestCandidates x (pointPlace x) 17,
      ofRat (decimalValue (natDigits c) [] (pointPlace x - 17)) = .fin x := by
  obtain ⟨c, hc, hnear⟩ := shortestCandidates_near hx (pointPlace x) 17
  refine ⟨c, hc, ofRat_near hx hdouble ?_⟩
  rw [decimalValue_eq, List.append_nil, ofDigits_natDigits, List.length_nil, Nat.cast_zero, sub_zero]
  set n := pointPlace x with hn
  have hunit : (0 : ℚ) < 10 ^ (n - 17) := zpow_pos (by norm_num) _
  have hinv : (10 : ℚ) ^ (((17 : ℕ) : ℤ) - n) * 10 ^ (n - 17) = 1 := by
    rw [← zpow_add₀ (by norm_num)]
    norm_num
  have hdiff : (c : ℚ) * 10 ^ (n - 17) - x =
      (c - x * 10 ^ (((17 : ℕ) : ℤ) - n)) * 10 ^ (n - 17) := by
    rw [sub_mul, mul_assoc x, hinv, mul_one]
  have hpoint : (10 : ℚ) ^ (n - 17) * 10 ^ 16 ≤ x := by
    have h := pointPlace_le hx
    rw [← hn, show n - 1 = n - 17 + 16 by ring, zpow_add₀ (by norm_num)] at h
    exact_mod_cast h
  rw [hdiff, abs_mul, abs_of_pos hunit, pow2_neg_54]
  nlinarith

/-- The digits that a positive double is written with are those of a candidate of at most seventeen
    digits that is rounded to it when the point is put at its place. -/
theorem shortestDigits_candidate {x : ℚ} (hx : 0 < x) (hdouble : IsDouble x) :
    ∃ c k : ℕ, k < 17 ∧ c ∈ shortestCandidates x (pointPlace x) (k + 1) ∧
      shortestDigits x =
        (natDigits c, pointPlace x - ((k : ℤ) + 1) + (natDigits c).length) ∧ c ≠ 0 ∧
      ofRat (c * (10 : ℚ) ^ (pointPlace x - ((k : ℤ) + 1))) = .fin x := by
  unfold shortestDigits
  simp only
  set tries := (List.range 17).flatMap fun k =>
    (shortestCandidates x (pointPlace x) (k + 1)).map fun s =>
      (natDigits s, pointPlace x - (k + 1)) with htries
  set fits := tries.filter fun t => ofRat (decimalValue t.1 [] t.2) = .fin x with hfits
  obtain ⟨c, hc, hround⟩ := exists_seventeen hx hdouble
  have hmem : (natDigits c, pointPlace x - 17) ∈ fits := by
    rw [hfits, List.mem_filter, htries, List.mem_flatMap]
    refine ⟨⟨16, by simp, ?_⟩, by simpa using hround⟩
    exact List.mem_map.mpr ⟨c, hc, by norm_num⟩
  obtain ⟨t, ht⟩ : ∃ t, fits.head? = some t := by
    cases hcase : fits with
    | nil => rw [hcase] at hmem; cases hmem
    | cons t rest => exact ⟨t, rfl⟩
  have htmem := List.mem_of_mem_head? ht
  rw [hfits, List.mem_filter, htries, List.mem_flatMap] at htmem
  obtain ⟨⟨k, hk, htk⟩, hfit⟩ := htmem
  obtain ⟨c', hc', rfl⟩ := List.mem_map.mp htk
  have hvalue : ofRat (c' * (10 : ℚ) ^ (pointPlace x - ((k : ℤ) + 1))) = .fin x := by
    have h := of_decide_eq_true hfit
    rwa [decimalValue_eq, List.append_nil, ofDigits_natDigits, List.length_nil, Nat.cast_zero,
      sub_zero] at h
  refine ⟨c', k, List.mem_range.mp hk, hc', by rw [ht], ?_, hvalue⟩
  rintro rfl
  rw [Nat.cast_zero, zero_mul] at hvalue
  simp only [ofRat, if_true, JsNumber.fin.injEq] at hvalue
  exact hx.ne hvalue

theorem shortestDigits_spec {x : ℚ} (hx : 0 < x) (hdouble : IsDouble x) :
    ∃ c : ℕ, ∃ e : ℤ, shortestDigits x = (natDigits c, e + (natDigits c).length) ∧ c ≠ 0 ∧
      ofRat (c * (10 : ℚ) ^ e) = .fin x := by
  obtain ⟨c, k, -, -, hdigits, hc, hround⟩ := shortestDigits_candidate hx hdouble
  exact ⟨c, _, hdigits, hc, hround⟩

/-! ## Reading a decimal -/

/-- What is no part of a number's digits. -/
def NoDigit (rest : JsString) : Prop :=
  ∀ c ∈ rest.head?, isDigit c = false

theorem Delimited.noDigit {rest : JsString} (h : Delimited rest) : NoDigit rest := by
  cases rest with
  | nil => simp [NoDigit]
  | cons c rest =>
      have := h.head_ne.1
      simpa [NoDigit] using this

theorem span_noDigit {ds rest : JsString} (hds : ∀ c ∈ ds, isDigit c = true) (hrest : NoDigit rest) :
    (ds ++ rest).span isDigit = (ds, rest) := by
  rw [List.span_eq_takeWhile_dropWhile, List.takeWhile_append_of_pos hds,
    List.dropWhile_append_of_pos hds]
  cases rest with
  | nil => simp
  | cons c rest =>
      have hc : isDigit c = false := hrest c rfl
      simp [hc]

/-- Digits that may stand before the point. -/
def Whole (i : JsString) : Prop :=
  i ≠ [] ∧ (∀ c ∈ i, isDigit c = true) ∧ (i.head? = some 48 → i.length = 1)

theorem parseUnsigned_whole {i tail : JsString} (hi : Whole i) (htail : NoDigit tail)
    {f s rest : JsString} {e : ℤ} (hf : parseFraction tail = some (f, s))
    (he : parseExponent s = some (e, rest)) :
    parseUnsigned (i ++ tail) = some (decimalValue i f e, rest) := by
  obtain ⟨hne, hdigits, hzero⟩ := hi
  have hok : (i.isEmpty || (i.head? = some 48 && 1 < i.length)) = false := by
    simp only [Bool.or_eq_false_iff, List.isEmpty_eq_false_iff, ne_eq, hne, not_false_eq_true,
      Bool.and_eq_false_imp, decide_eq_true_eq, decide_eq_false_iff_not, true_and]
    intro h
    rw [hzero h]
    decide
  unfold parseUnsigned
  simp only [span_noDigit hdigits htail, hok, Bool.false_eq_true, if_false, hf,
    Option.bind_eq_bind, Option.bind_some, he]
  rfl

theorem parseFraction_digits {f rest : JsString} (hf : ∀ c ∈ f, isDigit c = true) (hne : f ≠ [])
    (hrest : NoDigit rest) : parseFraction (46 :: (f ++ rest)) = some (f, rest) := by
  simp only [parseFraction, span_noDigit hf hrest]
  rw [if_neg (by simpa using hne)]

theorem parseExponentDigits_natDigits (negative : Bool) (n : ℕ) {rest : JsString}
    (hrest : NoDigit rest) :
    parseExponentDigits negative (natDigits n ++ rest) =
      some (if negative = true then -(n : ℤ) else n, rest) := by
  have hspan := span_noDigit (fun c hc => isDigit_of_mem_natDigits (n := n) hc) hrest
  simp only [parseExponentDigits, hspan]
  rw [if_neg (by simp [natDigits_ne_nil]), ofDigits_natDigits]

/-- The exponent that a layout writes behind its digits. -/
theorem parseExponent_layout (n : ℤ) {rest : JsString} (hrest : NoDigit rest) :
    parseExponent ((if 0 < n then lit "e+" else lit "e-") ++ natDigits (n - 1).natAbs ++ rest) =
      some (n - 1, rest) := by
  by_cases hn : 0 < n
  · rw [if_pos hn, List.append_assoc, show lit "e+" = [101, 43] from rfl]
    simp only [List.cons_append, List.nil_append, parseExponent, decide_true, Bool.true_or, if_true,
      parseExponentDigits_natDigits false _ hrest, Bool.false_eq_true, if_false]
    congr 2
    omega
  · rw [if_neg hn, List.append_assoc, show lit "e-" = [101, 45] from rfl]
    simp only [List.cons_append, List.nil_append, parseExponent, decide_true, Bool.true_or, if_true,
      parseExponentDigits_natDigits true _ hrest]
    congr 2
    omega

theorem isDigit_zero : isDigit 48 = true := by decide

theorem ofDigits_append_zeros (s : JsString) (k : ℕ) :
    ofDigits (s ++ List.replicate k 48) = ofDigits s * 10 ^ k := by
  induction k with
  | zero => simp
  | succ k ih =>
      rw [List.replicate_succ', ← List.append_assoc, ofDigits, List.foldl_append, ← ofDigits, ih]
      simp [pow_succ]
      ring

theorem ofDigits_zeros_append (k : ℕ) (s : JsString) :
    ofDigits (List.replicate k 48 ++ s) = ofDigits s := by
  induction k with
  | zero => simp
  | succ k ih =>
      rw [List.replicate_succ, List.cons_append]
      exact ih

theorem noDigit_point (tail : JsString) : NoDigit (46 :: tail) := by
  simp [NoDigit, isDigit]

section Layout

variable {c : ℕ} (hc : c ≠ 0) {rest : JsString} (hrest : Delimited rest)
include hc

theorem natDigits_head_ne : (natDigits c).head? ≠ some 48 :=
  fun h => hc (natDigits_head h)

theorem whole_natDigits : Whole (natDigits c) :=
  ⟨natDigits_ne_nil c, fun _ hd => isDigit_of_mem_natDigits hd,
    fun h => absurd h (natDigits_head_ne hc)⟩

theorem whole_natDigits_append {z : JsString} (hz : ∀ d ∈ z, isDigit d = true) :
    Whole (natDigits c ++ z) := by
  refine ⟨by simp [natDigits_ne_nil], ?_, ?_⟩
  · intro d hd
    rcases List.mem_append.mp hd with hd | hd
    · exact isDigit_of_mem_natDigits hd
    · exact hz d hd
  · rw [List.head?_append_of_ne_nil _ (natDigits_ne_nil c)]
    exact fun h => absurd h (natDigits_head_ne hc)

theorem whole_take {n : ℕ} (hn : 0 < n) : Whole ((natDigits c).take n) := by
  obtain ⟨d, ds, hd⟩ := List.exists_cons_of_ne_nil (natDigits_ne_nil c)
  obtain ⟨m, rfl⟩ : ∃ m, n = m + 1 := ⟨n - 1, by omega⟩
  refine ⟨by simp [hd], fun e he => isDigit_of_mem_natDigits (List.mem_of_mem_take he), ?_⟩
  intro h
  refine absurd ?_ (natDigits_head_ne hc)
  simpa [hd] using h

theorem parse_plain (hrest : Delimited rest) (k : ℕ) :
    parseUnsigned (natDigits c ++ List.replicate k 48 ++ rest) =
      some (c * (10 : ℚ) ^ (k : ℤ), rest) := by
  have hzero : ∀ d ∈ List.replicate k (48 : UInt16), isDigit d = true := by
    intro d hd
    rw [List.eq_of_mem_replicate hd]
    exact isDigit_zero
  rw [parseUnsigned_whole (whole_natDigits_append hc hzero) hrest.noDigit
    (parseFraction_delimited hrest) (parseExponent_delimited hrest), decimalValue_eq,
    List.append_nil, ofDigits_append_zeros, ofDigits_natDigits]
  simp

/-- Digits around a point, and an exponent behind them. -/
theorem parse_point {n : ℕ} (hn : 0 < n) (hlt : n < (natDigits c).length) {x : JsString} {k : ℤ}
    (hx : NoDigit (x ++ rest)) (hk : parseExponent (x ++ rest) = some (k, rest)) :
    parseUnsigned ((natDigits c).take n ++ lit "." ++ (natDigits c).drop n ++ x ++ rest) =
      some (c * (10 : ℚ) ^ (k + n - (natDigits c).length), rest) := by
  have hfraction : parseFraction (46 :: ((natDigits c).drop n ++ (x ++ rest))) =
      some ((natDigits c).drop n, x ++ rest) := by
    refine parseFraction_digits (fun d hd => isDigit_of_mem_natDigits (List.mem_of_mem_drop hd)) ?_ hx
    rw [ne_eq, List.drop_eq_nil_iff]
    omega
  have htext : (natDigits c).take n ++ lit "." ++ (natDigits c).drop n ++ x ++ rest =
      (natDigits c).take n ++ 46 :: ((natDigits c).drop n ++ (x ++ rest)) := by
    simp [lit]
  rw [htext, parseUnsigned_whole (whole_take hc hn) (noDigit_point _) hfraction hk, decimalValue_eq,
    List.take_append_drop, ofDigits_natDigits, List.length_drop]
  congr 4
  omega

/-- One digit, and an exponent behind it. -/
theorem parse_single {x : JsString} {k : ℤ} (hx : NoDigit (x ++ rest))
    (hpoint : parseFraction (x ++ rest) = some ([], x ++ rest))
    (hk : parseExponent (x ++ rest) = some (k, rest)) :
    parseUnsigned (natDigits c ++ x ++ rest) = some (c * (10 : ℚ) ^ k, rest) := by
  rw [List.append_assoc, parseUnsigned_whole (whole_natDigits hc) hx hpoint hk, decimalValue_eq,
    List.append_nil, ofDigits_natDigits]
  simp

omit hc in
/-- Zeros between the point and the digits. -/
theorem parse_zeros (hrest : Delimited rest) (k : ℕ) :
    parseUnsigned (lit "0." ++ List.replicate k 48 ++ natDigits c ++ rest) =
      some (c * (10 : ℚ) ^ (-((k : ℤ) + (natDigits c).length)), rest) := by
  have hdigits : ∀ d ∈ List.replicate k (48 : UInt16) ++ natDigits c, isDigit d = true := by
    intro d hd
    rcases List.mem_append.mp hd with hd | hd
    · rw [List.eq_of_mem_replicate hd]
      exact isDigit_zero
    · exact isDigit_of_mem_natDigits hd
  have hwhole : Whole [48] := ⟨by simp, by simp [isDigit_zero], by simp⟩
  have hfraction := parseFraction_digits hdigits (by simp [natDigits_ne_nil]) hrest.noDigit
  have htext : lit "0." ++ List.replicate k 48 ++ natDigits c ++ rest =
      [48] ++ 46 :: (List.replicate k 48 ++ natDigits c ++ rest) := by
    simp [lit]
  have hvalue : ofDigits ([48] ++ (List.replicate k 48 ++ natDigits c)) = c := by
    rw [List.singleton_append, ← List.cons_append, ← List.replicate_succ, ofDigits_zeros_append,
      ofDigits_natDigits]
  rw [htext, parseUnsigned_whole hwhole (noDigit_point _) hfraction
    (parseExponent_delimited hrest), decimalValue_eq, hvalue, List.length_append,
    List.length_replicate]
  congr 4
  push_cast
  ring

/-- Every layout of the digits is read as the number that they make with the point at its place. -/
theorem parseUnsigned_layoutDigits (hrest : Delimited rest) (e : ℤ) :
    parseUnsigned (layoutDigits (natDigits c) (e + (natDigits c).length) ++ rest) =
      some (c * (10 : ℚ) ^ e, rest) := by
  have hpos := natDigits_length_pos c
  set len := (natDigits c).length with hlen
  unfold layoutDigits
  simp only [← hlen]
  by_cases hplain : (len : ℤ) ≤ e + len ∧ e + len ≤ 21
  · rw [if_pos hplain, parse_plain hc hrest]
    congr 4
    omega
  · rw [if_neg hplain]
    by_cases hpoint : 0 < e + len ∧ e + len ≤ 21
    · have h := parse_point hc (n := (e + len).toNat) (x := []) (k := 0) (by omega)
        (by omega) hrest.noDigit (parseExponent_delimited hrest)
      rw [List.append_nil] at h
      rw [if_pos hpoint, h]
      congr 4
      omega
    · rw [if_neg hpoint]
      by_cases hzeros : -6 < e + len ∧ e + len ≤ 0
      · rw [if_pos hzeros, parse_zeros hrest]
        congr 4
        omega
      · rw [if_neg hzeros]
        have hexp := parseExponent_layout (e + len) hrest.noDigit
        set x := (if 0 < e + len then lit "e+" else lit "e-") ++ natDigits (e + len - 1).natAbs
          with hx
        obtain ⟨tail, htail⟩ : ∃ tail, x ++ rest = 101 :: tail := by
          rw [hx]
          split <;> exact ⟨_, rfl⟩
        have hnodigit : NoDigit (x ++ rest) := by
          rw [htail]
          simp [NoDigit, isDigit]
        by_cases hone : (len : ℤ) = 1
        · have hfraction : parseFraction (x ++ rest) = some ([], x ++ rest) := by
            rw [htail]
            rfl
          rw [if_pos hone, parse_single hc hnodigit hfraction hexp]
          congr 4
          omega
        · rw [if_neg hone]
          have h := parse_point hc (n := 1) (x := x) (by omega) (by omega) hnodigit
            hexp
          rw [h]
          congr 4
          omega

end Layout

/-! ## Doubles read back -/

theorem layoutDigits_head {ds : JsString} (hds : ∀ d ∈ ds, isDigit d = true) (hne : ds ≠ [])
    (n : ℤ) : ∃ c cs, layoutDigits ds n = c :: cs ∧ isDigit c = true := by
  obtain ⟨d, rest, rfl⟩ := List.exists_cons_of_ne_nil hne
  have hd : isDigit d = true := hds d List.mem_cons_self
  unfold layoutDigits
  simp only
  split_ifs with h1 h2 h3 h4 h5
  · exact ⟨d, _, rfl, hd⟩
  · obtain ⟨m, hm⟩ : ∃ m, n.toNat = m + 1 := ⟨n.toNat - 1, by omega⟩
    rw [hm]
    exact ⟨d, _, rfl, hd⟩
  all_goals first
    | exact ⟨d, _, rfl, hd⟩
    | exact ⟨48, _, rfl, isDigit_zero⟩

/-- The text of a positive double is read as the double. -/
theorem parseUnsigned_text {x : ℚ} (hx : 0 < x) (hdouble : IsDouble x) {rest : JsString}
    (hrest : Delimited rest) :
    ∃ c cs, layoutDigits (shortestDigits x).1 (shortestDigits x).2 = c :: cs ∧ isDigit c = true ∧
      ∃ q, parseUnsigned (c :: cs ++ rest) = some (q, rest) ∧ ofRat q = .fin x := by
  obtain ⟨m, e, hdigits, hm, hround⟩ := shortestDigits_spec hx hdouble
  rw [hdigits]
  obtain ⟨c, cs, hc, hd⟩ := layoutDigits_head (fun d hd => isDigit_of_mem_natDigits (n := m) hd)
    (natDigits_ne_nil m) (e + (natDigits m).length)
  refine ⟨c, cs, hc, hd, _, ?_, hround⟩
  rw [← hc]
  exact parseUnsigned_layoutDigits hm hrest e

/-- The text of a number that is no safe integer. -/
theorem numberText_text {q : ℚ} (h : ∀ i : ℤ, q = i → isSafeInteger i = false) :
    numberText (.fin q) = numberText.text q := by
  unfold numberText
  simp only
  split
  · next i hi =>
      have hqi : q = i := by
        simp only [JsNumber.toInt?] at hi
        split at hi
        · next hden =>
            cases hi
            exact (Rat.coe_int_num_of_den_eq_one hden).symm
        · cases hi
      rw [if_neg (by simp [h i hqi])]
  · rfl

theorem parseNumber_of_digit {c : UInt16} {cs : JsString} (hc : isDigit c = true) :
    parseNumber (c :: cs) = (parseUnsigned (c :: cs)).bind fun p => some (ofRat p.1, p.2) := by
  rw [parseNumber]
  · rfl
  · rintro tail h
    cases h
    exact absurd hc (by decide)

/-- **Every double reads back.** -/
theorem readsBack_double {q : ℚ} (h : IsDouble q) : ReadsBack (.fin q) := by
  by_cases hint : ∃ i : ℤ, q = i ∧ isSafeInteger i = true
  · obtain ⟨i, rfl, hi⟩ := hint
    exact readsBack_int hi
  · have htext : numberText (.fin q) = numberText.text q := by
      apply numberText_text
      intro i hqi
      by_contra hi
      exact hint ⟨i, hqi, by simpa using hi⟩
    have hq : q ≠ 0 := by
      rintro rfl
      exact hint ⟨0, by simp, by decide⟩
    unfold ReadsBack
    rw [htext]
    unfold numberText.text
    by_cases hneg : q < 0
    · have habs : |q| = -q := abs_of_neg hneg
      refine ⟨rfl, ⟨45, _, by simp only [if_pos hneg]; rfl, .inr rfl⟩, fun rest hrest => ?_⟩
      obtain ⟨c, cs, hc, -, v, hv, hround⟩ := parseUnsigned_text (abs_pos.mpr hq) h.abs hrest
      simp only [hc, if_pos hneg]
      rw [show lit "-" = [45] from rfl, List.cons_append, List.nil_append, List.cons_append,
        parseNumber, hv]
      simp [hround, habs, JsNumber.neg]
    · have habs : |q| = q := abs_of_nonneg (not_lt.mp hneg)
      have hpos : 0 < q := lt_of_le_of_ne (not_lt.mp hneg) hq.symm
      obtain ⟨c, cs, hc, hd, -⟩ := parseUnsigned_text (abs_pos.mpr hq) h.abs delimited_nil
      refine ⟨rfl, ⟨c, cs, by simp only [if_neg hneg, hc], .inl hd⟩, fun rest hrest => ?_⟩
      obtain ⟨c, cs, hc, hd, v, hv, hround⟩ := parseUnsigned_text (abs_pos.mpr hq) h.abs hrest
      simp only [hc, if_neg hneg]
      rw [List.cons_append, parseNumber_of_digit hd, ← List.cons_append, hv, Option.bind_some,
        hround, habs]

end Js
