import BpcProtocol.Js.Arithmetic
import BpcProtocol.Js.NumberRoundTrip

set_option autoImplicit false

/-! # Safe integers

Sums and differences of safe integers are rounded only beyond fifty-three bits, where they stay
beyond: a comparison with a safe integer comes out as it does for the exact values. -/

namespace Js

theorem le_roundHalfEven {q : ℚ} {n : ℤ} (h : (n : ℚ) ≤ q) : n ≤ roundHalfEven q := by
  have hfloor : n ≤ q.floor := Int.le_floor.mpr h
  simp only [roundHalfEven]
  split_ifs <;> omega

theorem ofRat_nonneg {q : ℚ} (hq : 0 < q) :
    ofRat q = .posInf ∨ ∃ v, ofRat q = .fin v ∧ 0 ≤ v := by
  have hquot : ((0 : ℤ) : ℚ) ≤ q / pow2 (lastPlace q) := by
    rw [Int.cast_zero]
    exact div_nonneg hq.le (pow2_pos _).le
  have hround : (0 : ℚ) ≤ roundHalfEven (q / pow2 (lastPlace q)) := by
    exact_mod_cast le_roundHalfEven hquot
  have hv := mul_nonneg hround (pow2_pos (lastPlace q)).le
  rw [ofRat_of_ne hq.ne']
  split
  · exact Or.inl rfl
  · split
    · next hneg =>
        have hpos := pow2_pos 1024
        linarith
    · exact Or.inr ⟨_, rfl, hv⟩

/-- A number is rounded to nothing below the power of two that its leading bit stands for. -/
theorem ofRat_leadingBit {q : ℚ} (hq : 0 < q) (hbit : -1022 ≤ leadingBit q) :
    ofRat q = .posInf ∨ ∃ v, ofRat q = .fin v ∧ pow2 (leadingBit q) ≤ v := by
  have hunit : lastPlace q = leadingBit q - 52 := max_eq_left (by omega)
  have hlo : pow2 (leadingBit q) ≤ q := by
    have hbounds := (leadingBit_bounds hq.ne').1
    rwa [abs_of_pos hq] at hbounds
  have hpow : pow2 (leadingBit q) = ((2 ^ 52 : ℤ) : ℚ) * pow2 (lastPlace q) := by
    rw [hunit, pow2_eq_mul (leadingBit q) 52]
    push_cast
    rfl
  have hround : (2 ^ 52 : ℤ) ≤ roundHalfEven (q / pow2 (lastPlace q)) := by
    refine le_roundHalfEven ((le_div_iff₀ (pow2_pos _)).mpr ?_)
    rw [← hpow]
    exact hlo
  have hv : pow2 (leadingBit q) ≤
      roundHalfEven (q / pow2 (lastPlace q)) * pow2 (lastPlace q) := by
    rw [hpow]
    exact mul_le_mul_of_nonneg_right (by exact_mod_cast hround) (pow2_pos _).le
  rw [ofRat_of_ne hq.ne']
  split
  · exact Or.inl rfl
  · split
    · next hneg =>
        have hpos := pow2_pos (leadingBit q)
        have hpos' := pow2_pos 1024
        linarith
    · exact Or.inr ⟨_, rfl, hv⟩

/-- What has more than fifty-three bits keeps them. -/
theorem ofRat_large {q : ℚ} (h : 2 ^ 53 ≤ q) :
    ofRat q = .posInf ∨ ∃ v, ofRat q = .fin v ∧ 2 ^ 53 ≤ v := by
  have hq : 0 < q := lt_of_lt_of_le (by norm_num) h
  have hpow : pow2 53 = 2 ^ 53 := by
    rw [show (53 : ℤ) = ((53 : ℕ) : ℤ) from rfl, pow2_natCast]
    norm_num
  have hbit : 53 ≤ leadingBit q := le_leadingBit hq.ne' (by rw [hpow, abs_of_pos hq]; exact h)
  rcases ofRat_leadingBit hq (by omega) with hinf | ⟨v, hv, hle⟩
  · exact Or.inl hinf
  · exact Or.inr ⟨v, hv, (hpow ▸ pow2_le_pow2 hbit).trans hle⟩

end Js

namespace JsNumber

open Js

/-- Of more than fifty-three bits. -/
def Large (n : JsNumber) : Prop :=
  n = .posInf ∨ ∃ v, n = .fin v ∧ 2 ^ 53 ≤ v

theorem Large.lt {n : JsNumber} (h : n.Large) {f : ℤ} (hf : f < 2 ^ 53) :
    JsNumber.lt (fin f) n = true := by
  rcases h with rfl | ⟨v, rfl, hv⟩
  · rfl
  · have hf' : (f : ℚ) < 2 ^ 53 := by exact_mod_cast hf
    exact decide_eq_true (hf'.trans_le hv)

theorem Large.not_ge {n : JsNumber} (h : n.Large) {f : ℤ} (hf : f < 2 ^ 53) :
    ge (fin f) n = false := by
  rcases h with rfl | ⟨v, rfl, hv⟩
  · rfl
  · have hf' : (f : ℚ) < 2 ^ 53 := by exact_mod_cast hf
    rw [ge_fin]
    exact decide_eq_false (not_le.mpr (hf'.trans_le hv))

theorem Large.add {n : JsNumber} (h : n.Large) {m : ℤ} (hm : 0 ≤ m) : (n.add (fin m)).Large := by
  rcases h with rfl | ⟨v, rfl, hv⟩
  · exact Or.inl rfl
  · have hm' : (0 : ℚ) ≤ m := by exact_mod_cast hm
    exact ofRat_large (hv.trans (le_add_of_nonneg_right hm'))

theorem Large.abs {n : JsNumber} (h : n.Large) : n.abs.Large := by
  rcases h with rfl | ⟨v, rfl, hv⟩
  · exact Or.inl rfl
  · exact Or.inr ⟨_, rfl, hv.trans (le_abs_self v)⟩

@[simp]
theorem abs_neg_self (n : JsNumber) : n.neg.abs = n.abs := by
  cases n with
  | fin q => exact congrArg fin (abs_neg q)
  | nan => rfl
  | posInf => rfl
  | negInf => rfl

theorem ofInt_large {n : ℤ} (h : 2 ^ 53 ≤ n) : (ofRat (n : ℚ)).Large :=
  ofRat_large (by exact_mod_cast h)

/-- The difference of a safe integer and something large is negative. -/
theorem Large.sub_not_ge {n p : JsNumber} (h : n.Large) {r : ℤ} (hr : r < 2 ^ 53)
    (hp : JsNumber.lt (fin 0) p = true) : ge ((fin r).sub n) p = false := by
  have hpos : ∀ x : JsNumber, x = .posInf ∨ (∃ v, x = .fin v ∧ 0 ≤ v) → ge x.neg p = false := by
    rintro x (rfl | ⟨v, rfl, hv⟩)
    · cases p <;> first | rfl | cases hp
    · cases p with
      | nan => cases hp
      | negInf => cases hp
      | posInf => rfl
      | fin q =>
          have hq : (0 : ℚ) < q := of_decide_eq_true hp
          show ge (fin (-v)) (fin q) = false
          rw [ge_fin]
          exact decide_eq_false (by linarith)
  rcases h with rfl | ⟨v, rfl, hv⟩
  · exact hpos .posInf (Or.inl rfl)
  · have hr' : (r : ℚ) < 2 ^ 53 := by exact_mod_cast hr
    have hdiff : 0 < v - r := by linarith
    have hneg : (fin (r : ℚ)).sub (fin v) = (ofRat (v - r)).neg := by
      rw [← ofRat_neg, neg_sub]
      exact congrArg ofRat (sub_eq_add_neg _ _).symm
    rw [hneg]
    exact hpos _ (ofRat_nonneg hdiff)

/-- `f < |a - b|` of integers, of which `f` is safe. -/
theorem lt_abs_sub {a b f : ℤ} (hf : 0 ≤ f) (hlt : f < 2 ^ 53) :
    lt (fin f) ((fin a).sub (fin b)).abs = true ↔ f < |a - b| := by
  have hsub : (fin (a : ℚ)).sub (fin b) = ofRat ((a - b : ℤ) : ℚ) := by
    show ofRat ((a : ℚ) + -b) = _
    rw [Int.cast_sub, sub_eq_add_neg]
  rw [hsub]
  rcases lt_or_ge (a - b).natAbs (2 ^ 53) with hsmall | hbig
  · rw [ofRat_intCast hsmall]
    show decide ((f : ℚ) < |((a - b : ℤ) : ℚ)|) = true ↔ _
    rw [decide_eq_true_iff]
    exact_mod_cast Iff.rfl
  · have hd : f < |a - b| := by
      rw [Int.abs_eq_natAbs]
      omega
    refine iff_of_true ?_ hd
    rcases le_total 0 (a - b) with hpos | hneg
    · exact (ofInt_large (by omega)).abs.lt hlt
    · have hround : (ofRat ((-(a - b) : ℤ) : ℚ)).Large := ofInt_large (by omega)
      rw [Int.cast_neg, ofRat_neg] at hround
      rw [← abs_neg_self]
      exact hround.abs.lt hlt

theorem mulNat_two_of_lt {n : ℤ} (hn : 0 ≤ n) (h : 2 * n < 2 ^ 53) :
    (fin n).mulNat 2 = fin ((2 * n : ℤ) : ℚ) := by
  have hround : ofRat ((2 * n : ℤ) : ℚ) = fin ((2 * n : ℤ) : ℚ) := ofRat_intCast (by omega)
  rw [← hround]
  show ofRat ((n : ℚ) * ((2 : ℕ) : ℚ)) = _
  push_cast
  rw [mul_comm]

theorem mulNat_two_of_ge {n : ℤ} (h : 2 ^ 53 ≤ 2 * n) : ((fin n).mulNat 2).Large := by
  have hround := ofInt_large h
  push_cast at hround
  show (ofRat ((n : ℚ) * ((2 : ℕ) : ℚ))).Large
  push_cast
  rwa [mul_comm]

/-- `2 * f + m`, exactly or beyond fifty-three bits. -/
theorem double_add {f m : ℤ} (hf : 0 ≤ f) (hm : 0 ≤ m) :
    ((fin f).mulNat 2).add (fin m) = fin ((2 * f + m : ℤ) : ℚ) ∧ 2 * f + m < 2 ^ 53 ∨
      (((fin f).mulNat 2).add (fin m)).Large ∧ 2 ^ 53 ≤ 2 * f + m := by
  rcases lt_or_ge (2 * f) (2 ^ 53) with hlt | hge
  · have hsum : ((fin f).mulNat 2).add (fin m) = ofRat ((2 * f + m : ℤ) : ℚ) := by
      rw [mulNat_two_of_lt hf hlt, Int.cast_add]
      rfl
    rw [hsum]
    rcases lt_or_ge (2 * f + m) (2 ^ 53) with hlt' | hge'
    · exact Or.inl ⟨ofRat_intCast (by omega), hlt'⟩
    · exact Or.inr ⟨ofInt_large hge', hge'⟩
  · exact Or.inr ⟨(mulNat_two_of_ge hge).add hm, by omega⟩

/-- `r - 2 * s >= 2 * f + m` of safe integers comes out as it does for the exact values. -/
theorem ge_horizon {r s f m : ℤ} (hr : 0 ≤ r) (hr' : r < 2 ^ 53) (hs : 0 ≤ s) (hf : 0 ≤ f)
    (hm : 0 < m) :
    ge ((fin r).sub ((fin s).mulNat 2)) (((fin f).mulNat 2).add (fin m)) = true ↔
      2 * f + m ≤ r - 2 * s := by
  rcases lt_or_ge (2 * s) (2 ^ 53) with hlt | hge
  · have hsub : (fin (r : ℚ)).sub ((fin s).mulNat 2) = fin ((r - 2 * s : ℤ) : ℚ) := by
      rw [mulNat_two_of_lt hs hlt, ← ofRat_intCast (n := r - 2 * s) (by omega), Int.cast_sub,
        sub_eq_add_neg]
      rfl
    rw [hsub]
    rcases double_add hf hm.le with ⟨hsum, -⟩ | ⟨hlarge, hge⟩
    · rw [hsum, ge_fin, decide_eq_true_iff]
      exact Int.cast_le
    · rw [hlarge.not_ge (by omega)]
      exact iff_of_false (by simp) (by omega)
  · have hpos : JsNumber.lt (fin 0) (((fin f).mulNat 2).add (fin m)) = true := by
      rcases double_add hf hm.le with ⟨hsum, -⟩ | ⟨hlarge, -⟩
      · rw [hsum]
        refine decide_eq_true ?_
        have hpos' : 0 < 2 * f + m := by omega
        exact_mod_cast hpos'
      · have hlt := hlarge.lt (f := 0) (by norm_num)
        rwa [Int.cast_zero] at hlt
    rw [(mulNat_two_of_ge hge).sub_not_ge hr' hpos]
    exact iff_of_false (by simp) (by omega)

end JsNumber
