import Mathlib.Data.List.Basic

set_option autoImplicit false

/-! # Fallible computations

Inversion rules for `Except`: what is known of the parts of a sequence of checks once the whole of
it has succeeded. A function written as checks (`require`) followed by an effect is analysed by one
`simp only` with these rules, which turns "it returned `ok`" into the conjunction of its checks. -/

namespace Fallible

variable {ε α β : Type}

/-- Fail with `e` unless `p` holds. -/
def require (p : Prop) [Decidable p] (e : ε) : Except ε Unit :=
  if p then .ok () else .error e

@[simp]
theorem require_eq_ok (p : Prop) [Decidable p] (e : ε) (u : Unit) :
    require p e = .ok u ↔ p := by
  unfold require
  split
  · next h => simp [h]
  · next h => simp [h]

theorem require_of {p : Prop} [Decidable p] (h : p) (e : ε) : require p e = .ok () :=
  if_pos h

theorem require_of_not {p : Prop} [Decidable p] (h : ¬p) (e : ε) : require p e = .error e :=
  if_neg h

/-- A sequence succeeds exactly when its first part does and the rest does on its result. -/
@[simp]
theorem bind_eq_ok (x : Except ε α) (f : α → Except ε β) (b : β) :
    (x >>= f) = .ok b ↔ ∃ a, x = .ok a ∧ f a = .ok b := by
  cases x with
  | error e => simp [bind, Except.bind]
  | ok a => simp [bind, Except.bind]

/-- A sequence fails where its first part does, or the rest on its result. -/
theorem bind_eq_error (x : Except ε α) (f : α → Except ε β) (e : ε) :
    (x >>= f) = .error e ↔ x = .error e ∨ ∃ a, x = .ok a ∧ f a = .error e := by
  cases x with
  | error e' => simp [bind, Except.bind]
  | ok a => simp [bind, Except.bind]

/-- A check has only one result, so its success carries no value. -/
@[simp]
theorem exists_unit {p : Unit → Prop} : (∃ u, p u) ↔ p () :=
  ⟨fun ⟨_, h⟩ => h, fun h => ⟨(), h⟩⟩

@[simp]
theorem pure_eq_ok (a b : α) : (pure a : Except ε α) = .ok b ↔ a = b := by
  simp [pure, Except.pure]

@[simp]
theorem ok_bind (a : α) (f : α → Except ε β) : (Except.ok a >>= f) = f a :=
  rfl

@[simp]
theorem error_bind (e : ε) (f : α → Except ε β) : ((Except.error e : Except ε α) >>= f) = .error e :=
  rfl

/-- A list of checks succeeds exactly when each of them does. -/
@[simp]
theorem forM_eq_ok {check : α → Except ε Unit} {l : List α} {u : Unit} :
    l.forM check = .ok u ↔ ∀ a ∈ l, check a = .ok () := by
  induction l with
  | nil => simp [pure, Except.pure]
  | cons a rest ih =>
      show (check a >>= fun _ => rest.forM check) = .ok u ↔ _
      rw [bind_eq_ok, exists_unit, List.forall_mem_cons, ih]

/-- The result of a computation that succeeds. -/
def result (x : Except ε α) (h : x.isOk = true) : α :=
  match x, h with
  | .ok a, _ => a

theorem eq_ok_result (x : Except ε α) (h : x.isOk = true) : x = .ok (result x h) := by
  cases x with
  | error e => cases h
  | ok a => rfl

theorem eq_ok_result_pair (x : Except ε (α × β)) (h : x.isOk = true) :
    x = .ok ((result x h).1, (result x h).2) :=
  eq_ok_result x h

/-- The result, or `s` where there is none: a transaction that is rolled back when its body fails. -/
def orElse {σ : Type} (x : Except ε σ) (s : σ) : σ :=
  match x with
  | .ok s' => s'
  | .error _ => s

/-- A rolled-back transaction keeps whatever its successful runs keep. -/
theorem orElse_induction {σ : Type} {P : σ → Prop} {x : Except ε σ} {s : σ} (h : P s)
    (hok : ∀ s', x = .ok s' → P s') : P (orElse x s) := by
  cases x with
  | error e => exact h
  | ok s' => exact hok s' rfl

end Fallible
