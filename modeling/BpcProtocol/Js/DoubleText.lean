import BpcProtocol.Js.NumberRoundTrip
import BpcProtocol.Js.Coerce

set_option autoImplicit false

/-! # The texts of doubles

A number that has been rounded is a double, and the digits that a double is written with are few. -/

namespace Js

/-! ## Rounding once -/

/-- A multiple of a larger unit is one of a smaller. -/
theorem units_of_le {x : ℚ} {m a b : ℤ} (hx : x = m * pow2 b) (hab : a ≤ b) :
    ∃ n : ℤ, x = n * pow2 a := by
  obtain ⟨k, hk⟩ : ∃ k : ℕ, b - a = k := ⟨(b - a).toNat, by omega⟩
  refine ⟨m * 2 ^ k, ?_⟩
  rw [hx, pow2_eq_mul b k, ← hk, show b - (b - a) = a by ring]
  push_cast
  ring

/-- A finite number of units of its last place is not rounded. -/
theorem isDouble_of_units {x : ℚ} (hx : x ≠ 0) {m : ℤ} (hm : x = m * pow2 (lastPlace x))
    (hlo : -pow2 1024 < x) (hhi : x < pow2 1024) : IsDouble x := by
  refine ofRat_eq hx hlo hhi hm ?_
  rw [sub_self, abs_zero]
  exact half_pos (pow2_pos _)

theorem roundHalfEven_le {q : ℚ} {n : ℤ} (hlo : -n < q) (hhi : q < n) :
    -n ≤ roundHalfEven q ∧ roundHalfEven q ≤ n := by
  have hfloor : q.floor < n := Int.floor_lt.mpr hhi
  have hbelow : -n ≤ q.floor := Int.le_floor.mpr hlo.le
  unfold roundHalfEven
  simp only
  split_ifs <;> constructor <;> omega

/-- **What has been rounded is a double.** -/
theorem isDouble_of_ofRat {y x : ℚ} (h : ofRat y = .fin x) : IsDouble x := by
  by_cases hy : y = 0
  · subst hy
    simp only [ofRat, if_true, JsNumber.fin.injEq] at h
    subst h
    rfl
  rw [ofRat_of_ne hy] at h
  set e := lastPlace y with he
  set m := roundHalfEven (y / pow2 e) with hm
  split_ifs at h with hbig hsmall
  injection h with h
  rw [h] at hbig hsmall
  by_cases hx : x = 0
  · subst hx
    rfl
  have hunit := pow2_pos e
  -- the significand has 53 bits, or is the next power of two
  have hbound : -(2 ^ 53) ≤ m ∧ m ≤ 2 ^ 53 := by
    obtain ⟨-, hlt⟩ := leadingBit_bounds hy
    have hle : pow2 (leadingBit y + 1) ≤ 2 ^ 53 * pow2 e := by
      have hpow : pow2 (e + 53) = 2 ^ 53 * pow2 e := by
        rw [pow2_eq_mul (e + 53) 53]
        congr 2
        ring
      rw [← hpow]
      apply pow2_le_pow2
      rw [he]
      unfold lastPlace
      omega
    obtain ⟨hylo, hyhi⟩ := abs_lt.mp (lt_of_lt_of_le hlt hle)
    have hround := roundHalfEven_le (q := y / pow2 e) (n := 2 ^ 53)
      (by push_cast; rw [lt_div_iff₀ hunit]; linarith)
      (by push_cast; rw [div_lt_iff₀ hunit]; linarith)
    exact hround
  have hplace : ∃ n : ℤ, x = n * pow2 (lastPlace x) := by
    by_cases hpower : m = 2 ^ 53 ∨ m = -(2 ^ 53)
    · -- a power of two, of which the last place may be one higher
      have hlast : lastPlace x ≤ e + 1 := by
        have hbit : leadingBit x < e + 54 := by
          apply leadingBit_lt hx
          rw [← h, abs_mul, abs_of_pos hunit, pow2_eq_mul (e + 54) 54, show e + 54 - (54 : ℕ) = e by
            push_cast; ring]
          have hcast : |(m : ℚ)| = 2 ^ 53 := by
            rcases hpower with hp | hp <;> rw [hp] <;> norm_num
          rw [hcast]
          nlinarith
        unfold lastPlace
        have : -1074 ≤ e := by
          rw [he]
          exact le_max_right _ _
        omega
      have hhalf : ∃ n : ℤ, x = n * pow2 (e + 1) := by
        rcases hpower with hp | hp
        · refine ⟨2 ^ 52, ?_⟩
          rw [← h, hp, pow2_add_one]
          push_cast
          ring
        · refine ⟨-(2 ^ 52), ?_⟩
          rw [← h, hp, pow2_add_one]
          push_cast
          ring
      obtain ⟨n, hn⟩ := hhalf
      exact units_of_le hn hlast
    · have hlast : lastPlace x ≤ e := by
        have hbit : leadingBit x < e + 53 := by
          apply leadingBit_lt hx
          rw [← h, abs_mul, abs_of_pos hunit, pow2_eq_mul (e + 53) 53, show e + 53 - (53 : ℕ) = e by
            push_cast; ring]
          have hlt : |m| < 2 ^ 53 := by
            rw [abs_lt]
            omega
          have hcast : |(m : ℚ)| < 2 ^ 53 := by exact_mod_cast hlt
          nlinarith
        unfold lastPlace
        have : -1074 ≤ e := by
          rw [he]
          exact le_max_right _ _
        omega
      exact units_of_le h.symm hlast
  obtain ⟨n, hn⟩ := hplace
  exact isDouble_of_units hx hn (not_le.mp hsmall) (not_le.mp hbig)

/-! ## Few digits -/

/-- The place of the point bounds a positive number from above. -/
theorem lt_pointPlace {x : ℚ} (hx : 0 < x) : x < (10 : ℚ) ^ pointPlace x := by
  have hden : (0 : ℚ) < x.den := by exact_mod_cast x.den_pos
  have habs := abs_eq_natAbs_div x
  rw [abs_of_pos hx] at habs
  set a := (natDigits x.num.natAbs).length with ha
  set b := (natDigits x.den).length with hb
  have hbpos : 0 < b := natDigits_length_pos _
  unfold pointPlace
  simp only [← ha, ← hb]
  rw [← ten_zpow]
  split
  · have hhi : (x.num.natAbs : ℚ) < 10 ^ (a : ℤ) := by
      rw [zpow_natCast]
      exact_mod_cast lt_ten_pow_length x.num.natAbs
    have hlo : (10 : ℚ) ^ ((b : ℤ) - 1) ≤ x.den := by
      rw [show (b : ℤ) - 1 = ((b - 1 : ℕ) : ℤ) by omega, zpow_natCast]
      exact_mod_cast ten_pow_le x.den_ne_zero
    have hpos : (0 : ℚ) < 10 ^ ((a : ℤ) - b + 1) := zpow_pos (by norm_num) _
    rw [habs, div_lt_iff₀ hden]
    calc (x.num.natAbs : ℚ) < 10 ^ (a : ℤ) := hhi
      _ = 10 ^ ((a : ℤ) - b + 1) * 10 ^ ((b : ℤ) - 1) := by
          rw [← zpow_add₀ (by norm_num)]
          congr 1
          ring
      _ ≤ 10 ^ ((a : ℤ) - b + 1) * x.den := mul_le_mul_of_nonneg_left hlo hpos.le
  · next h => exact not_le.mp h

theorem pointPlace_bounds {x : ℚ} (hx : 0 < x) (hdouble : IsDouble x) :
    -324 < pointPlace x ∧ pointPlace x ≤ 309 := by
  obtain ⟨⟨m, hm⟩, hhi, -⟩ := hdouble.units hx.ne'
  have hten : (1 : ℚ) < 10 := by norm_num
  constructor
  · -- at least one unit of the last place
    have hunit := pow2_pos (lastPlace x)
    have hmpos : 1 ≤ m := by
      have : (0 : ℚ) < m := by
        by_contra hneg
        nlinarith [not_lt.mp hneg]
      exact_mod_cast this
    have hleast : pow2 (-1074) ≤ x := by
      calc pow2 (-1074) ≤ pow2 (lastPlace x) := pow2_le_pow2 (le_max_right _ _)
        _ ≤ m * pow2 (lastPlace x) := by
            have : (1 : ℚ) ≤ m := by exact_mod_cast hmpos
            nlinarith
        _ = x := hm.symm
    have hsmall : (10 : ℚ) ^ (-324 : ℤ) < pow2 (-1074) := by
      rw [pow2_eq_zpow, zpow_neg, zpow_neg]
      refine inv_strictAnti₀ (by positivity) ?_
      exact_mod_cast (by decide +kernel : (2 : ℕ) ^ 1074 < 10 ^ 324)
    exact (zpow_lt_zpow_iff_right₀ hten).mp (hsmall.trans (hleast.trans_lt (lt_pointPlace hx)))
  · have hlarge : pow2 1024 < (10 : ℚ) ^ (309 : ℤ) := by
      rw [pow2_eq_zpow]
      exact_mod_cast (by decide +kernel : (2 : ℕ) ^ 1024 < 10 ^ 309)
    have hlt := (zpow_lt_zpow_iff_right₀ hten).mp ((pointPlace_le hx).trans_lt (hhi.trans hlarge))
    omega

theorem shortestCandidates_le {x : ℚ} (hx : 0 < x) {k c : ℕ}
    (hc : c ∈ shortestCandidates x (pointPlace x) k) : c ≤ 10 ^ k := by
  have hlt : x * 10 ^ ((k : ℤ) - pointPlace x) < 10 ^ k := by
    have hpos : (0 : ℚ) < 10 ^ ((k : ℤ) - pointPlace x) := zpow_pos (by norm_num) _
    calc x * 10 ^ ((k : ℤ) - pointPlace x)
        < 10 ^ pointPlace x * 10 ^ ((k : ℤ) - pointPlace x) :=
          mul_lt_mul_of_pos_right (lt_pointPlace hx) hpos
      _ = 10 ^ k := by
          rw [← zpow_add₀ (by norm_num), add_sub_cancel, zpow_natCast]
  rw [shortestCandidates_eq] at hc
  have hfloor : (x * 10 ^ ((k : ℤ) - pointPlace x)).floor < (10 : ℤ) ^ k :=
    Int.floor_lt.mpr (by exact_mod_cast hlt)
  have hle : (x * 10 ^ ((k : ℤ) - pointPlace x)).floor.toNat + 1 ≤ 10 ^ k := by
    have hpow : (1 : ℤ) ≤ 10 ^ k := by exact_mod_cast Nat.one_le_pow k 10 (by decide)
    zify
    omega
  split at hc
  · simp only [List.mem_cons, List.not_mem_nil, or_false] at hc
    omega
  · simp only [List.mem_cons, List.not_mem_nil, or_false] at hc
    omega

/-- **The digits of a positive double**: at most eighteen of them, with the point no more than 340
    places away. -/
theorem shortestDigits_bounds {x : ℚ} (hx : 0 < x) (hdouble : IsDouble x) :
    ∃ (c : ℕ) (e : ℤ), shortestDigits x = (natDigits c, e + (natDigits c).length) ∧ c ≠ 0 ∧
      ofRat (c * (10 : ℚ) ^ e) = .fin x ∧ (natDigits c).length ≤ 18 ∧
      |e + (natDigits c).length| ≤ 340 := by
  obtain ⟨c, k, hk, hmem, hdigits, hc, hround⟩ := shortestDigits_candidate hx hdouble
  have hlength : (natDigits c).length ≤ k + 2 := by
    rw [natDigits_length_le (by omega)]
    calc c ≤ 10 ^ (k + 1) := shortestCandidates_le hx hmem
      _ < 10 ^ (k + 2) := Nat.pow_lt_pow_right (by decide) (by omega)
  obtain ⟨hlo, hhi⟩ := pointPlace_bounds hx hdouble
  have hpos := natDigits_length_pos c
  refine ⟨c, _, hdigits, hc, hround, by omega, abs_le.mpr ⟨?_, ?_⟩⟩ <;> omega

end Js
