import Mathlib.Logic.Relation

set_option autoImplicit false

/-! # Transition systems

States, the steps between them, and the two ways a fact about one step becomes a fact about every
run: an invariant of the reachable states, and a relation between an earlier state of a run and a
later one. -/

namespace Transition

/-- Initial states and steps. -/
structure System (σ : Type*) where
  init : σ → Prop
  next : σ → σ → Prop

variable {σ : Type*} (S : System σ)

/-- The states of the system's runs. -/
inductive Reachable : σ → Prop
  | init {s : σ} : S.init s → Reachable s
  | next {s t : σ} : Reachable s → S.next s t → Reachable t

/-- A run from `s` to `t`. -/
def Run : σ → σ → Prop :=
  Relation.ReflTransGen S.next

variable {S}

theorem Run.reachable {s t : σ} (h : Run S s t) (hs : Reachable S s) : Reachable S t := by
  induction h with
  | refl => exact hs
  | tail _ hstep ih => exact ih.next hstep

/-- The invariant rule: what holds initially and is kept by every step from a reachable state holds
    of every reachable state. -/
theorem Reachable.invariant {I : σ → Prop} (hinit : ∀ s, S.init s → I s)
    (hnext : ∀ s t, Reachable S s → I s → S.next s t → I t) {s : σ} (h : Reachable S s) : I s := by
  induction h with
  | init h0 => exact hinit _ h0
  | next hs hstep ih => exact hnext _ _ hs ih hstep

/-- The monotonicity rule: a preorder that every step from a reachable state respects relates the
    ends of every run. -/
theorem Run.monotone {R : σ → σ → Prop} (hrefl : ∀ s, R s s)
    (htrans : ∀ s t u, R s t → R t u → R s u)
    (hnext : ∀ s t, Reachable S s → S.next s t → R s t) {s t : σ} (h : Run S s t)
    (hs : Reachable S s) : R s t := by
  induction h with
  | refl => exact hrefl _
  | tail hrun hstep ih => exact htrans _ _ _ ih (hnext _ _ (Run.reachable hrun hs) hstep)

/-- A run from a state that satisfies `P` to one that does not has a step that leaves `P`. -/
theorem Run.exists_step {P : σ → Prop} {s t : σ} (h : Run S s t) (hs : P s) (ht : ¬P t) :
    ∃ u v, Run S s u ∧ S.next u v ∧ Run S v t ∧ P u ∧ ¬P v := by
  induction h with
  | refl => exact absurd hs ht
  | @tail u v hrun hstep ih =>
      by_cases hu : P u
      · exact ⟨u, v, hrun, hstep, .refl, hu, ht⟩
      · obtain ⟨u', v', hsu, hstep', hvt, hu', hv'⟩ := ih hu
        exact ⟨u', v', hsu, hstep', hvt.tail hstep, hu', hv'⟩

/-- The system whose steps are those of `S` that meet a condition. -/
def System.restrict (S : System σ) (cond : σ → σ → Prop) : System σ where
  init := S.init
  next s t := S.next s t ∧ cond s t

theorem Run.of_restrict {cond : σ → σ → Prop} {s t : σ} (h : Run (S.restrict cond) s t) :
    Run S s t := by
  induction h with
  | refl => exact .refl
  | tail _ hstep ih => exact ih.tail hstep.1

theorem Reachable.of_restrict {cond : σ → σ → Prop} {s : σ} (h : Reachable (S.restrict cond) s) :
    Reachable S s := by
  induction h with
  | init h0 => exact .init h0
  | next _ hstep ih => exact ih.next hstep.1

end Transition
