import Mathlib.Data.List.Basic

set_option autoImplicit false

/-! # Machines in lockstep

Two machines read the same inputs, each from its own state. Where a relation of their states decides
after every input whether they answer the same, and is kept for as long as they do, their answers to
a whole run agree exactly when no input of it tells them apart. -/

namespace Lockstep

variable {σ τ ι ο : Type*}

/-- A machine answers an input and goes on to a next state. -/
structure Machine (σ ι ο : Type*) where
  step : σ → ι → ο × σ

namespace Machine

/-- The answers to a sequence of inputs. -/
def outputs (m : Machine σ ι ο) : σ → List ι → List ο
  | _, [] => []
  | s, i :: rest => (m.step s i).1 :: m.outputs (m.step s i).2 rest

/-- The state behind a sequence of inputs. -/
def after (m : Machine σ ι ο) (s : σ) (inputs : List ι) : σ :=
  inputs.foldl (fun s i => (m.step s i).2) s

/-- `P` holds of every input and the state in which it is read. -/
def Throughout (m : Machine σ ι ο) (P : σ → ι → Prop) : σ → List ι → Prop
  | _, [] => True
  | s, i :: rest => P s i ∧ m.Throughout P (m.step s i).2 rest

/-- Both machines at once. -/
def both (m : Machine σ ι ο) (n : Machine τ ι ο) : Machine (σ × τ) ι (ο × ο) where
  step s i := (((m.step s.1 i).1, (n.step s.2 i).1), (m.step s.1 i).2, (n.step s.2 i).2)

@[simp]
theorem outputs_nil (m : Machine σ ι ο) (s : σ) : m.outputs s [] = [] :=
  rfl

@[simp]
theorem outputs_cons (m : Machine σ ι ο) (s : σ) (i : ι) (rest : List ι) :
    m.outputs s (i :: rest) = (m.step s i).1 :: m.outputs (m.step s i).2 rest :=
  rfl

end Machine

open Machine

variable {m : Machine σ ι ο} {n : Machine τ ι ο}

/-- A relation of two states and the inputs to come: where `P` holds, both machines answer the same
    and are related again, and elsewhere they answer differently. -/
structure Decides (m : Machine σ ι ο) (n : Machine τ ι ο) (P : σ × τ → ι → Prop)
    (R : σ → τ → List ι → Prop) : Prop where
  agree : ∀ s t i rest, R s t (i :: rest) → P (s, t) i →
    (m.step s i).1 = (n.step t i).1 ∧ R (m.step s i).2 (n.step t i).2 rest
  differ : ∀ s t i rest, R s t (i :: rest) → ¬P (s, t) i → (m.step s i).1 ≠ (n.step t i).1

/-- **Two machines answer a run alike exactly when no input tells them apart.** -/
theorem Decides.outputs_eq_iff {P : σ × τ → ι → Prop} {R : σ → τ → List ι → Prop}
    (h : Decides m n P R) {inputs : List ι} {s : σ} {t : τ} (hR : R s t inputs) :
    m.outputs s inputs = n.outputs t inputs ↔ (m.both n).Throughout P (s, t) inputs := by
  induction inputs generalizing s t with
  | nil => simp [Throughout]
  | cons i rest ih =>
      rw [outputs_cons, outputs_cons, List.cons.injEq]
      constructor
      · rintro ⟨hfirst, hrest⟩
        have hP : P (s, t) i := by
          by_contra hP
          exact h.differ s t i rest hR hP hfirst
        exact ⟨hP, (ih (h.agree s t i rest hR hP).2).mp hrest⟩
      · rintro ⟨hP, hrest⟩
        have hagree := h.agree s t i rest hR hP
        exact ⟨hagree.1, (ih hagree.2).mpr hrest⟩

end Lockstep
