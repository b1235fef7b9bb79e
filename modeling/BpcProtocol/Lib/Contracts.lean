import BpcProtocol.Lib.EarlyReturn

set_option autoImplicit false

/-! # Contracts

What a program guarantees where its operations answer as it relies on them to: it does not throw,
and what it returns satisfies a postcondition. -/

namespace Async

variable {Op : Type} {Ans : Op → Type} {ε ρ α β : Type} {A : (o : Op) → Ans o → Prop}

namespace Prog

/-- If every operation answers as `A` says, the program does not throw and returns an `a` with
    `Q a`. -/
def Ensures (A : (o : Op) → Ans o → Prop) (Q : α → Prop) : Prog Op Ans ε α → Prop
  | ret a => Q a
  | fail _ => False
  | await o k => ∀ x, A o x → (k x).Ensures A Q

theorem Ensures.bind {P : α → Prop} {Q : β → Prop} {p : Prog Op Ans ε α} {f : α → Prog Op Ans ε β}
    (h : p.Ensures A P) (hf : ∀ a, P a → (f a).Ensures A Q) : (p >>= f).Ensures A Q := by
  induction p with
  | ret a => exact hf a h
  | fail e => exact h.elim
  | await o k ih =>
      intro x hx
      exact ih x (h x hx)

theorem Ensures.mono {P Q : α → Prop} {p : Prog Op Ans ε α} (h : p.Ensures A P)
    (hPQ : ∀ a, P a → Q a) : p.Ensures A Q := by
  induction p with
  | ret a => exact hPQ a h
  | fail e => exact h.elim
  | await o k ih =>
      intro x hx
      exact ih x (h x hx)

/-- A contract holds where more is relied on. -/
theorem Ensures.weaken {A' : (o : Op) → Ans o → Prop} {Q : α → Prop} {p : Prog Op Ans ε α}
    (h : p.Ensures A' Q) (hA : ∀ o x, A o x → A' o x) : p.Ensures A Q := by
  induction p with
  | ret a => exact h
  | fail e => exact h.elim
  | await o k ih =>
      intro x hx
      exact ih x (h x (hA o x hx))

theorem Ensures.map {P : α → Prop} {p : Prog Op Ans ε α} {f : α → β} (h : p.Ensures A P) :
    (f <$> p).Ensures A fun _ => True :=
  h.bind fun _ _ => trivial

theorem ensures_lift {Q : α → Prop} {x : Except ε α} {a : α} (h : x = .ok a) (ha : Q a) :
    (lift x : Prog Op Ans ε α).Ensures A Q := by
  subst h
  exact ha

theorem ensures_ite {c : Prop} [Decidable c] {Q : α → Prop} {p q : Prog Op Ans ε α}
    (hp : c → p.Ensures A Q) (hq : ¬c → q.Ensures A Q) : (if c then p else q).Ensures A Q := by
  split
  · next hc => exact hp hc
  · next hc => exact hq hc

theorem ensures_elim (v : Option α) {Q : β → Prop} {p : Prog Op Ans ε β} {f : α → Prog Op Ans ε β}
    (hp : p.Ensures A Q) (hf : ∀ a, v = some a → (f a).Ensures A Q) : (v.elim p f).Ensures A Q := by
  cases v with
  | none => exact hp
  | some a => exact hf a rfl

theorem Ensures.and {P Q : α → Prop} {p : Prog Op Ans ε α} (hP : p.Ensures A P)
    (hQ : p.Ensures A Q) : p.Ensures A fun a => P a ∧ Q a := by
  induction p with
  | ret a => exact ⟨hP, hQ⟩
  | fail e => exact hP.elim
  | await o k ih =>
      intro x hx
      exact ih x (hP x hx) (hQ x hx)

/-- A contract that something fulfils can be fulfilled. -/
theorem Ensures.exists {Q : α → Prop} {p : Prog Op Ans ε α} (h : p.Ensures A Q)
    (hA : ∀ o, ∃ x, A o x) : ∃ a, Q a := by
  induction p with
  | ret a => exact ⟨a, h⟩
  | fail e => exact h.elim
  | await o k ih =>
      obtain ⟨x, hx⟩ := hA o
      exact ih x (h x hx)

theorem Ensures.not_fail {Q : α → Prop} {p : Prog Op Ans ε α} (h : p.Ensures A Q) (e : ε) :
    p ≠ .fail e := by
  rintro rfl
  exact h

end Prog

/-- What is left of a program keeps its contract. -/
theorem Trace.ensures {Q : α → Prop} {p q : Prog Op Ans ε α} {es : List (Made Op Ans)}
    (h : Trace p es q) (hanswers : ∀ e ∈ es, A e.1 e.2) (hp : p.Ensures A Q) : q.Ensures A Q := by
  induction h with
  | nil p => exact hp
  | cons x _ ih =>
      have hx := hanswers _ List.mem_cons_self
      exact ih (fun e he => hanswers e (List.mem_cons_of_mem _ he)) (hp x hx)

/-- The contract rule: in a run whose operations answer as a request's program relies on them to,
    its calls keep their contract. -/
theorem Service.ensures_of_reachable {Req σ ι : Type} [DecidableEq ι]
    {S : Service Req Op Ans ε α σ} {Q : α → Prop} {cfg : Config ι Req Op Ans ε α σ}
    (hreach : Transition.Reachable (S.system ι) cfg)
    (hanswers : ∀ e ∈ cfg.log, A e.made.1 e.made.2) {i : ι} {r : Req} {q : Prog Op Ans ε α}
    (hi : cfg.calls i = some ⟨r, q⟩) (hbody : (S.body r).Ensures A Q) : q.Ensures A Q := by
  obtain ⟨-, htrace⟩ := (Service.trace_of_reachable hreach i).1 r q hi
  refine htrace.ensures (fun e he => ?_) hbody
  obtain ⟨entry, hentry, -, rfl⟩ := exists_entry he
  exact hanswers entry hentry

/-! ## Stages -/

namespace Stage

/-- The stage does not throw, what it goes on with satisfies `Q`, and what it returns early
    satisfies `R`. -/
def Ensures (A : (o : Op) → Ans o → Prop) (Q : α → Prop) (R : ρ → Prop) (s : Stage Op Ans ε ρ α) :
    Prop :=
  (ExceptT.run s).Ensures A fun x => (∀ a, x = .ok a → Q a) ∧ ∀ r, x = .error r → R r

variable {R : ρ → Prop}

theorem Ensures.bind {P : α → Prop} {Q : β → Prop} {s : Stage Op Ans ε ρ α}
    {f : α → Stage Op Ans ε ρ β} (h : Ensures A P R s) (hf : ∀ a, P a → Ensures A Q R (f a)) :
    Ensures A Q R (s >>= f) := by
  unfold Ensures
  rw [run_bind]
  refine Prog.Ensures.bind h fun x hx => ?_
  cases x with
  | ok a => exact hf a (hx.1 a rfl)
  | error r =>
      constructor
      · intro a ha
        cases ha
      · intro r' hr
        cases hr
        exact hx.2 r rfl

theorem Ensures.mono {P Q : α → Prop} {s : Stage Op Ans ε ρ α} (h : Ensures A P R s)
    (hPQ : ∀ a, P a → Q a) : Ensures A Q R s :=
  Prog.Ensures.mono h fun _ hx => ⟨fun a ha => hPQ a (hx.1 a ha), hx.2⟩

theorem Ensures.weaken {A' : (o : Op) → Ans o → Prop} {Q : α → Prop} {s : Stage Op Ans ε ρ α}
    (h : Ensures A' Q R s) (hA : ∀ o x, A o x → A' o x) : Ensures A Q R s :=
  Prog.Ensures.weaken h hA

theorem ensures_pure {Q : α → Prop} {a : α} (h : Q a) :
    Ensures A Q R (pure a : Stage Op Ans ε ρ α) := by
  constructor
  · intro b hb
    cases hb
    exact h
  · intro r hr
    cases hr

theorem ensures_await {Q : α → Prop} {p : Prog Op Ans ε α} (h : p.Ensures A Q) :
    Ensures A Q R (await p : Stage Op Ans ε ρ α) := by
  refine Prog.Ensures.bind h fun a ha => ?_
  constructor
  · intro b hb
    cases hb
    exact ha
  · intro r hr
    cases hr

theorem ensures_exit {Q : α → Prop} {p : Prog Op Ans ε ρ} (h : p.Ensures A R) :
    Ensures A Q R (exit p : Stage Op Ans ε ρ α) := by
  refine Prog.Ensures.bind h fun r hr => ?_
  constructor
  · intro b hb
    cases hb
  · intro r' hr'
    cases hr'
    exact hr

theorem ensures_exitIf {c : Prop} [Decidable c] {p : Prog Op Ans ε ρ} (h : c → p.Ensures A R) :
    Ensures A (fun _ => ¬c) R (exitIf c p) := by
  unfold exitIf
  split
  · next hc => exact ensures_exit (h hc)
  · next hc => exact ensures_pure hc

theorem ensures_toProg {s : Stage Op Ans ε ρ ρ} (h : Ensures A R R s) : s.toProg.Ensures A R := by
  refine Prog.Ensures.bind h fun x hx => ?_
  cases x with
  | ok r => exact hx.1 r rfl
  | error r => exact hx.2 r rfl

end Stage

end Async
