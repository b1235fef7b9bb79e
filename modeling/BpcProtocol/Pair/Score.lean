import BpcProtocol.Pair.Activity

set_option autoImplicit false

/-! # The score of a pair

The score of a pair is halved for every window that has elapsed and raised by one for every failure.
It never leaves what a counter can count, later halvings take more of it than earlier ones, and
raising a smaller score leaves a smaller one. -/

namespace Pair

open JsNumber

/-! ## Scores -/

/-- A number that a counter of failures may come to. -/
structure IsScore (n : JsNumber) : Prop where
  nonneg : Le (.fin 0) n
  bounded : Le n (.fin (2 ^ 53))
  double : ∀ q, n = .fin q → Js.IsDouble q

theorem isScore_zero : IsScore (.fin 0) where
  nonneg := le_refl (by simp)
  bounded := (le_fin _ _).mpr (by norm_num)
  double q hq := by
    rw [← JsNumber.fin.inj hq]
    exact ofRat_zero

theorem IsScore.exists_fin {n : JsNumber} (h : IsScore n) :
    ∃ q, n = .fin q ∧ 0 ≤ q ∧ q ≤ 2 ^ 53 ∧ Js.IsDouble q := by
  have hlo := h.nonneg
  have hhi := h.bounded
  cases n with
  | fin q => exact ⟨q, rfl, (le_fin _ _).mp hlo, (le_fin _ _).mp hhi, h.double q rfl⟩
  | nan => exact absurd rfl hhi.ne_nan
  | posInf => exact absurd (show false = true from hhi) Bool.false_ne_true
  | negInf => exact absurd (show false = true from hlo) Bool.false_ne_true

theorem incr_two_pow : (JsNumber.fin (2 ^ 53)).incr = .fin (2 ^ 53) := by
  have h := incr_two_pow_53
  push_cast at h
  exact h

theorem IsScore.le_incr {n : JsNumber} (h : IsScore n) : Le n n.incr := by
  obtain ⟨q, rfl, -, -, hdouble⟩ := h.exists_fin
  have hle : Le (Js.ofRat q) (Js.ofRat (q + 1)) := le_ofRat (by linarith)
  rw [hdouble] at hle
  exact hle

theorem IsScore.incr {n : JsNumber} (h : IsScore n) : IsScore n.incr where
  nonneg := h.nonneg.trans h.le_incr
  bounded := incr_two_pow ▸ JsNumber.le_incr h.bounded
  double := incr_isDouble n

/-- What is between zero and a score, and is rounded, is a score. -/
theorem IsScore.of_le {n m : JsNumber} (h : IsScore n) (hlo : Le (.fin 0) m) (hhi : Le m n)
    (hdouble : ∀ q, m = .fin q → Js.IsDouble q) : IsScore m :=
  ⟨hlo, hhi.trans h.bounded, hdouble⟩

/-! ## More failures -/

/-- The score after `n` more failures of one moment. -/
def raised (n : ℕ) (score : JsNumber) : JsNumber :=
  JsNumber.incr^[n] score

theorem raised_succ (n : ℕ) (score : JsNumber) : raised (n + 1) score = (raised n score).incr :=
  Function.iterate_succ_apply' _ _ _

theorem isScore_raised {score : JsNumber} (h : IsScore score) (n : ℕ) : IsScore (raised n score) := by
  induction n with
  | zero => exact h
  | succ n ih =>
      rw [raised_succ]
      exact ih.incr

theorem raised_mono {score : JsNumber} (h : IsScore score) {m n : ℕ} (hmn : m ≤ n) :
    Le (raised m score) (raised n score) := by
  induction hmn with
  | refl => exact JsNumber.le_refl (Le.right_ne_nan (isScore_raised h m).nonneg)
  | @step n _ ih =>
      rw [raised_succ]
      exact ih.trans (isScore_raised h n).le_incr

/-! ## Halving -/

/-- What is elapsed is a whole number, or too much to tell. -/
theorem one_le_twoPow {elapsed : JsNumber} (h : (JsNumber.fin 0).lt elapsed = true) :
    Le (.fin 1) elapsed.twoPow := by
  have hone : (JsNumber.fin 0).twoPow = .fin 1 := by decide +kernel
  have hle : Le (.fin 0) elapsed := by
    rw [Le, ge, h, Bool.true_or]
  rw [← hone]
  exact le_twoPow (JsNumber.le_refl (by simp)) hle

theorem div_one {q : ℚ} (h : Js.IsDouble q) : (JsNumber.fin q).div (.fin 1) = .fin q := by
  show Js.ofRat (q / 1) = _
  rwa [show q / 1 = q by ring]

theorem div_isDouble {q : ℚ} {a : JsNumber} (ha : Le (.fin 1) a) (r : ℚ)
    (h : (JsNumber.fin q).div a = .fin r) : Js.IsDouble r := by
  cases a with
  | fin p => exact Js.isDouble_of_ofRat h
  | posInf =>
      rw [← JsNumber.fin.inj h]
      exact ofRat_zero
  | nan => exact absurd rfl ha.right_ne_nan
  | negInf => exact absurd (show false = true from ha) Bool.false_ne_true

/-- A score is halved for every window that has elapsed. -/
theorem IsScore.halved_le {score elapsed : JsNumber} (h : IsScore score)
    (helapsed : (JsNumber.fin 0).lt elapsed = true) :
    Le (.fin 0) (score.div elapsed.twoPow) ∧ Le (score.div elapsed.twoPow) score := by
  obtain ⟨q, rfl, hnonneg, -, hdouble⟩ := h.exists_fin
  have hone := one_le_twoPow helapsed
  have hdiv := le_div_of_le hnonneg (JsNumber.le_refl (by simp)) hone
  rw [div_one hdouble] at hdiv
  exact ⟨le_div_of_le hnonneg hone (le_posInf hone.right_ne_nan), hdiv⟩

theorem IsScore.halved {score elapsed : JsNumber} (h : IsScore score)
    (helapsed : (JsNumber.fin 0).lt elapsed = true) : IsScore (score.div elapsed.twoPow) := by
  obtain ⟨hlo, hhi⟩ := h.halved_le helapsed
  refine h.of_le hlo hhi fun r hr => ?_
  obtain ⟨q, rfl, -⟩ := h.exists_fin
  exact div_isDouble (one_le_twoPow helapsed) r hr

section Decayed

variable {p : StoredPair}

/-- The score that is kept, `0` where there is none. -/
def storedScore (p : StoredPair) : JsNumber :=
  p.cumulativeFailures.getD (.fin 0)

theorem decayedScore_le (h : IsScore (storedScore p)) (now : JsNumber) :
    Le (.fin 0) (decayedScore p now) ∧ Le (decayedScore p now) (storedScore p) := by
  unfold decayedScore
  split
  · next helapsed => exact h.halved_le helapsed
  · exact ⟨h.nonneg, JsNumber.le_refl (Le.right_ne_nan h.nonneg)⟩

theorem isScore_decayedScore (h : IsScore (storedScore p)) (now : JsNumber) :
    IsScore (decayedScore p now) := by
  unfold decayedScore
  split
  · next helapsed => exact h.halved helapsed
  · exact h

/-! ### What failures make of a score -/

/-- The scores that halvings and failures make, from none on. -/
inductive Produced : JsNumber → Prop
  | zero : Produced (.fin 0)
  | halved {score elapsed : JsNumber} : Produced score → (JsNumber.fin 0).lt elapsed = true →
      Produced (score.div elapsed.twoPow)
  | raised {score : JsNumber} : Produced score → Produced score.incr

theorem Produced.isScore {score : JsNumber} (h : Produced score) : IsScore score := by
  induction h with
  | zero => exact isScore_zero
  | halved _ helapsed ih => exact ih.halved helapsed
  | raised _ ih => exact ih.incr

/-- **A failure halves a score and raises it.** -/
theorem produced_applyCumulativeDecay (h : Produced (storedScore p)) (now : JsNumber) :
    Produced (storedScore (applyCumulativeDecay p now)) := by
  have hdecayed : Produced (decayedScore p now) := by
    unfold decayedScore
    split
    · next helapsed => exact h.halved helapsed
    · exact h
  exact hdecayed.raised

/-! ### Moments -/

/-- **The later a failure comes, the less of the score it finds.** -/
theorem decayedScore_anti (h : IsScore (storedScore p))
    (hcycle : ∀ t, p.firstFailureAt.getD none = some t → ∃ f : ℚ, t = .fin f) {m n : ℤ}
    (hmn : m ≤ n) : Le (decayedScore p (.fin (n : ℤ))) (decayedScore p (.fin (m : ℤ))) := by
  have hrefl {now : JsNumber} : Le (decayedScore p now) (decayedScore p now) :=
    JsNumber.le_refl (Le.ne_nan (decayedScore_le h now).2)
  cases hstart : p.firstFailureAt.getD none with
  | none =>
      -- a cycle that begins now has not decayed
      have hkeep (k : ℤ) : decayedScore p (.fin (k : ℤ)) = storedScore p := by
        unfold decayedScore elapsedWindows
        rw [hstart, Option.getD_none, windowsElapsed_within (by omega), if_neg Bool.false_ne_true]
        rfl
      rw [hkeep, ← hkeep m]
      exact hrefl
  | some t =>
      obtain ⟨f, rfl⟩ := hcycle t hstart
      have hmono := windowsElapsed_mono f hmn
      have helapsed (k : ℤ) : elapsedWindows p (.fin (k : ℤ)) = windowsElapsed (.fin f) (.fin k) := by
        unfold elapsedWindows
        rw [hstart, Option.getD_some]
      by_cases hm : (JsNumber.fin 0).lt (windowsElapsed (.fin f) (.fin m)) = true
      · have hn := lt_trans_le hm hmono
        obtain ⟨q, hq, hnonneg, -⟩ := h.exists_fin
        have hzero : Le (.fin 0) (windowsElapsed (.fin f) (.fin m)) := by
          rw [Le, ge, hm, Bool.true_or]
        unfold decayedScore
        rw [helapsed, helapsed, hm, hn, if_pos rfl, if_pos rfl,
          show p.cumulativeFailures.getD (.fin 0) = .fin q from hq]
        exact le_div_of_le hnonneg (one_le_twoPow hm) (le_twoPow hzero hmono)
      · have hwhole : decayedScore p (.fin (m : ℤ)) = storedScore p := by
          unfold decayedScore
          rw [helapsed, if_neg hm]
          rfl
        rw [hwhole]
        exact (decayedScore_le h _).2

/-- A second failure of one moment finds the whole score that the first has left. -/
theorem decayedScore_recordFailure (count : Option JsNumber) (lockoutCount : JsNumber) (now : ℤ) :
    decayedScore (recordFailure p count lockoutCount (.fin (now : ℤ))) (.fin (now : ℤ)) =
      (decayedScore p (.fin (now : ℤ))).incr := by
  obtain ⟨-, hscore, hcycle⟩ := @recordFailure_record p count lockoutCount (.fin (now : ℤ))
  have hfresh : (JsNumber.fin 0).lt
      (elapsedWindows (recordFailure p count lockoutCount (.fin (now : ℤ))) (.fin (now : ℤ))) =
        false := by
    unfold elapsedWindows
    rw [hcycle, Option.getD_some, Option.getD_some]
    unfold cycleStart
    split
    · exact windowsElapsed_within (by omega)
    · next hnot => exact Bool.not_eq_true _ ▸ hnot
  conv_lhs => unfold decayedScore
  rw [hfresh, if_neg Bool.false_ne_true, hscore, Option.getD_some]

end Decayed

end Pair
