import BpcProtocol.Lib.Fallible

set_option autoImplicit false

/-! # Transactions

A transaction body is a function on the whole database that fails or gives a result and a new
database. Under serializable isolation a transaction is one atomic step, and what its caller learns
of it may differ from what became of it (`Outcome`). -/

namespace Transaction

variable {σ ε α : Type}

/-- What a caller sees of one transaction and what it leaves: the result of a commit; an error with
    nothing changed (the body threw, the database aborted the transaction, or the connection failed
    before the commit); or an error although the transaction committed (the acknowledgement was
    lost). -/
inductive Outcome (body : σ → Except ε (α × σ)) (s : σ) : Except ε α → σ → Prop
  | commit {a : α} {s' : σ} : body s = .ok (a, s') → Outcome body s (.ok a) s'
  | rollback (e : ε) : Outcome body s (.error e) s
  | lostAck {a : α} {s' : σ} (e : ε) : body s = .ok (a, s') → Outcome body s (.error e) s'

variable {body : σ → Except ε (α × σ)} {s s' : σ} {r : Except ε α}

/-- A transaction left the database unchanged or as its body made it. -/
theorem Outcome.unchanged_or_ran (h : Outcome body s r s') :
    s' = s ∨ ∃ a, body s = .ok (a, s') := by
  cases h with
  | commit h => exact Or.inr ⟨_, h⟩
  | rollback => exact Or.inl rfl
  | lostAck _ h => exact Or.inr ⟨_, h⟩

/-- What the body keeps, the transaction keeps. -/
theorem Outcome.induction {P : σ → Prop} (h : Outcome body s r s') (hs : P s)
    (hbody : ∀ a t, body s = .ok (a, t) → P t) : P s' := by
  rcases h.unchanged_or_ran with rfl | ⟨a, ha⟩
  · exact hs
  · exact hbody a _ ha

/-- A transaction that runs to its end: it commits, or its body has thrown. -/
def settle : Except ε (α × σ) → σ → Except ε α × σ
  | .ok (a, s'), _ => (.ok a, s')
  | .error e, s => (.error e, s)

theorem settle_outcome (body : σ → Except ε (α × σ)) (s : σ) :
    Outcome body s (settle (body s) s).1 (settle (body s) s).2 := by
  cases h : body s with
  | ok p => exact .commit h
  | error e => exact .rollback e

theorem settle_eq_ok {x : Except ε (α × σ)} {s s' : σ} {a : α} :
    settle x s = (.ok a, s') ↔ x = .ok (a, s') := by
  cases x with
  | ok p =>
      constructor
      · intro h
        obtain ⟨h₁, h₂⟩ := Prod.mk.inj h
        rw [← Except.ok.inj h₁, ← h₂]
      · rintro ⟨⟩
        rfl
  | error e =>
      constructor
      · intro h
        cases (Prod.mk.inj h).1
      · intro h
        cases h

end Transaction
