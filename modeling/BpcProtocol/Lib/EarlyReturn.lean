import BpcProtocol.Lib.Async

set_option autoImplicit false

/-! # Early return

A stage is a piece of an asynchronous function that goes on with a value or returns from the whole
function. What the traces of a sequence of stages are is told from the traces of each. -/

namespace Async

variable {Op : Type} {Ans : Op → Type} {ε ρ α β : Type}

/-- A piece of a function with result `ρ`: it goes on with an `α`, or the function returns. -/
abbrev Stage (Op : Type) (Ans : Op → Type) (ε ρ α : Type) := ExceptT ρ (Prog Op Ans ε) α

namespace Stage

/-- Await a program and go on with its result. -/
def await (p : Prog Op Ans ε α) : Stage Op Ans ε ρ α :=
  ExceptT.mk (p >>= fun a => .ret (.ok a))

/-- `return p`. -/
def exit (p : Prog Op Ans ε ρ) : Stage Op Ans ε ρ α :=
  ExceptT.mk (p >>= fun r => .ret (.error r))

/-- `if (c) return p`. -/
def exitIf (c : Prop) [Decidable c] (p : Prog Op Ans ε ρ) : Stage Op Ans ε ρ Unit :=
  if c then exit p else pure ()

/-- The value of a function whose stages have come to an end. -/
def merge : Except ρ ρ → ρ
  | .ok r => r
  | .error r => r

/-- The function that consists of these stages. -/
def toProg (s : Stage Op Ans ε ρ ρ) : Prog Op Ans ε ρ :=
  ExceptT.run s >>= fun x => .ret (merge x)

/-! ## Operations used -/

theorem run_bind (s : Stage Op Ans ε ρ α) (f : α → Stage Op Ans ε ρ β) :
    ExceptT.run (s >>= f) = ExceptT.run s >>= ExceptT.bindCont f :=
  rfl

theorem bind_assoc {γ : Type} (s : Stage Op Ans ε ρ α) (f : α → Stage Op Ans ε ρ β)
    (g : β → Stage Op Ans ε ρ γ) : s >>= f >>= g = s >>= fun a => f a >>= g := by
  refine (Prog.bind_assoc (ExceptT.run s) (ExceptT.bindCont f) (ExceptT.bindCont g)).trans ?_
  refine congrArg (fun k => (ExceptT.run s).bind k) (funext fun x => ?_)
  cases x <;> rfl

theorem uses_bind {P : Op → Prop} {s : Stage Op Ans ε ρ α} {f : α → Stage Op Ans ε ρ β}
    (h : (ExceptT.run s).Uses P) (hf : ∀ a, (ExceptT.run (f a)).Uses P) :
    (ExceptT.run (s >>= f)).Uses P := by
  rw [run_bind]
  refine h.bind fun x => ?_
  cases x with
  | ok a => exact hf a
  | error r => trivial

theorem uses_pure {P : Op → Prop} (a : α) :
    (ExceptT.run (pure a : Stage Op Ans ε ρ α)).Uses P :=
  trivial

theorem uses_await {P : Op → Prop} {p : Prog Op Ans ε α} (h : p.Uses P) :
    (ExceptT.run (await p : Stage Op Ans ε ρ α)).Uses P :=
  h.bind fun _ => trivial

theorem uses_exit {P : Op → Prop} {p : Prog Op Ans ε ρ} (h : p.Uses P) :
    (ExceptT.run (exit p : Stage Op Ans ε ρ α)).Uses P :=
  h.bind fun _ => trivial

theorem uses_exitIf {P : Op → Prop} {c : Prop} [Decidable c] {p : Prog Op Ans ε ρ} (h : p.Uses P) :
    (ExceptT.run (exitIf c p)).Uses P := by
  unfold exitIf
  split
  · exact uses_exit h
  · exact uses_pure ()

theorem uses_toProg {P : Op → Prop} {s : Stage Op Ans ε ρ ρ} (h : (ExceptT.run s).Uses P) :
    s.toProg.Uses P :=
  h.bind fun _ => trivial

/-! ## Traces -/

/-- The stage can make these operations and go on with `a`. -/
def Passes (s : Stage Op Ans ε ρ α) (es : List (Made Op Ans)) (a : α) : Prop :=
  Trace (ExceptT.run s) es (.ret (.ok a))

/-- The stage can make these operations and return `r`. -/
def Exits (s : Stage Op Ans ε ρ α) (es : List (Made Op Ans)) (r : ρ) : Prop :=
  Trace (ExceptT.run s) es (.ret (.error r))

theorem Passes.of_bind {s : Stage Op Ans ε ρ α} {f : α → Stage Op Ans ε ρ β}
    {es : List (Made Op Ans)} {b : β} (h : Passes (s >>= f) es b) :
    ∃ es₁ es₂ a, es = es₁ ++ es₂ ∧ Passes s es₁ a ∧ Passes (f a) es₂ b := by
  obtain ⟨es₁, es₂, x, rfl, h₁, h₂⟩ := Trace.of_bind (p := ExceptT.run s) h
  cases x with
  | ok a => exact ⟨es₁, es₂, a, rfl, h₁, h₂⟩
  | error r => cases (trace_ret.mp h₂).2

/-- A sequence of stages that returns does so in its first part or in its second. -/
theorem Exits.of_bind {s : Stage Op Ans ε ρ α} {f : α → Stage Op Ans ε ρ β}
    {es : List (Made Op Ans)} {r : ρ} (h : Exits (s >>= f) es r) :
    Exits s es r ∨ ∃ es₁ es₂ a, es = es₁ ++ es₂ ∧ Passes s es₁ a ∧ Exits (f a) es₂ r := by
  obtain ⟨es₁, es₂, x, rfl, h₁, h₂⟩ := Trace.of_bind (p := ExceptT.run s) h
  cases x with
  | ok a => exact Or.inr ⟨es₁, es₂, a, rfl, h₁, h₂⟩
  | error r' =>
      obtain ⟨rfl, heq⟩ := trace_ret.mp h₂
      cases heq
      exact Or.inl (by simpa [Exits] using h₁)

theorem passes_pure {a b : α} {es : List (Made Op Ans)} :
    Passes (pure a : Stage Op Ans ε ρ α) es b ↔ es = [] ∧ a = b := by
  refine trace_ret.trans (and_congr_right fun _ => ?_)
  exact ⟨fun h => by cases h; rfl, fun h => by rw [h]⟩

theorem not_exits_pure {a : α} {es : List (Made Op Ans)} {r : ρ} :
    ¬Exits (pure a : Stage Op Ans ε ρ α) es r := by
  intro h
  cases (trace_ret.mp h).2

theorem Passes.of_await {p : Prog Op Ans ε α} {es : List (Made Op Ans)} {a : α}
    (h : Passes (await p : Stage Op Ans ε ρ α) es a) : Trace p es (.ret a) := by
  obtain ⟨es₁, es₂, b, rfl, h₁, h₂⟩ := Trace.of_bind (p := p) h
  obtain ⟨rfl, heq⟩ := trace_ret.mp h₂
  cases heq
  simpa using h₁

theorem Passes.of_perform {o : Op} {es : List (Made Op Ans)} {a : Ans o}
    (h : Passes (await (Prog.perform o) : Stage Op Ans ε ρ (Ans o)) es a) : es = [⟨o, a⟩] := by
  obtain ⟨x, es', rfl, h'⟩ := trace_await_ret.mp h.of_await
  obtain ⟨rfl, heq⟩ := trace_ret.mp h'
  cases heq
  rfl

/-- A stage that starts with one operation. -/
theorem trace_perform_bind {o : Op} {f : Ans o → Stage Op Ans ε ρ β} {es : List (Made Op Ans)}
    {x : Except ρ β} (h : Trace (ExceptT.run (await (Prog.perform o) >>= f)) es (.ret x)) :
    ∃ a es', es = ⟨o, a⟩ :: es' ∧ Trace (ExceptT.run (f a)) es' (.ret x) :=
  trace_await_ret.mp h

theorem not_exits_await {p : Prog Op Ans ε α} {es : List (Made Op Ans)} {r : ρ} :
    ¬Exits (await p : Stage Op Ans ε ρ α) es r := by
  intro h
  obtain ⟨es₁, es₂, b, rfl, -, h₂⟩ := Trace.of_bind (p := p) h
  cases (trace_ret.mp h₂).2

theorem not_passes_exit {p : Prog Op Ans ε ρ} {es : List (Made Op Ans)} {a : α} :
    ¬Passes (exit p : Stage Op Ans ε ρ α) es a := by
  intro h
  obtain ⟨es₁, es₂, b, rfl, -, h₂⟩ := Trace.of_bind (p := p) h
  cases (trace_ret.mp h₂).2

theorem Exits.of_exit {p : Prog Op Ans ε ρ} {es : List (Made Op Ans)} {r : ρ}
    (h : Exits (exit p : Stage Op Ans ε ρ α) es r) : Trace p es (.ret r) := by
  obtain ⟨es₁, es₂, b, rfl, h₁, h₂⟩ := Trace.of_bind (p := p) h
  obtain ⟨rfl, heq⟩ := trace_ret.mp h₂
  cases heq
  simpa using h₁

theorem Passes.of_exitIf {c : Prop} [Decidable c] {p : Prog Op Ans ε ρ} {es : List (Made Op Ans)}
    (h : Passes (exitIf c p) es ()) : es = [] ∧ ¬c := by
  unfold exitIf at h
  split at h
  · exact absurd h not_passes_exit
  · next hc => exact ⟨(passes_pure.mp h).1, hc⟩

theorem Exits.of_exitIf {c : Prop} [Decidable c] {p : Prog Op Ans ε ρ} {es : List (Made Op Ans)}
    {r : ρ} (h : Exits (exitIf c p) es r) : c ∧ Trace p es (.ret r) := by
  unfold exitIf at h
  split at h
  · next hc => exact ⟨hc, h.of_exit⟩
  · exact absurd h not_exits_pure

/-- Whatever the stage returns satisfies `Q`. -/
def ExitsWith (Q : ρ → Prop) (s : Stage Op Ans ε ρ α) : Prop :=
  ∀ es r, Exits s es r → Q r

theorem ExitsWith.bind {Q : ρ → Prop} {s : Stage Op Ans ε ρ α} {f : α → Stage Op Ans ε ρ β}
    (h : ExitsWith Q s) (hf : ∀ a, ExitsWith Q (f a)) : ExitsWith Q (s >>= f) := by
  intro es r hexits
  rcases hexits.of_bind with hs | ⟨es₁, es₂, a, -, -, hfa⟩
  · exact h es r hs
  · exact hf a es₂ r hfa

theorem exitsWith_pure {Q : ρ → Prop} (a : α) : ExitsWith Q (pure a : Stage Op Ans ε ρ α) :=
  fun _ _ h => absurd h not_exits_pure

theorem exitsWith_await {Q : ρ → Prop} (p : Prog Op Ans ε α) :
    ExitsWith Q (await p : Stage Op Ans ε ρ α) :=
  fun _ _ h => absurd h not_exits_await

theorem exitsWith_exit {Q : ρ → Prop} {p : Prog Op Ans ε ρ}
    (h : ∀ es r, Trace p es (.ret r) → Q r) : ExitsWith Q (exit p : Stage Op Ans ε ρ α) :=
  fun es r hexits => h es r hexits.of_exit

theorem exitsWith_exitIf {Q : ρ → Prop} {c : Prop} [Decidable c] {p : Prog Op Ans ε ρ}
    (h : ∀ es r, Trace p es (.ret r) → Q r) : ExitsWith Q (exitIf c p) :=
  fun es r hexits => h es r hexits.of_exitIf.2

theorem Passes.uses {P : Op → Prop} {s : Stage Op Ans ε ρ α} {es : List (Made Op Ans)} {a : α}
    (h : Passes s es a) (huses : (ExceptT.run s).Uses P) : ∀ e ∈ es, P e.1 :=
  (Trace.uses h huses).1

theorem Exits.uses {P : Op → Prop} {s : Stage Op Ans ε ρ α} {es : List (Made Op Ans)} {r : ρ}
    (h : Exits s es r) (huses : (ExceptT.run s).Uses P) : ∀ e ∈ es, P e.1 :=
  (Trace.uses h huses).1

/-- A function returns what its last stage passes or what a stage returns early. -/
theorem trace_toProg {s : Stage Op Ans ε ρ ρ} {es : List (Made Op Ans)} {r : ρ}
    (h : Trace s.toProg es (.ret r)) : Passes s es r ∨ Exits s es r := by
  obtain ⟨es₁, es₂, x, rfl, h₁, h₂⟩ := Trace.of_bind h
  obtain ⟨rfl, heq⟩ := trace_ret.mp h₂
  rw [List.append_nil]
  cases x with
  | ok a =>
      cases heq
      exact Or.inl h₁
  | error r' =>
      cases heq
      exact Or.inr h₁

end Stage

end Async
