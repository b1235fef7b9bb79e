import BpcProtocol.Lib.Transition
import Mathlib.Data.List.Basic
import Mathlib.Data.List.Pairwise
import Mathlib.Data.Nat.Notation
import Mathlib.Logic.Function.Basic

set_option autoImplicit false

/-! # Asynchronous calls over shared state

A call is a program that awaits one atomic operation after another; between two awaits any other
call, or the environment, may act on the shared state. `Service.system` is the transition system of
any number of calls interleaving in any order, with the log of every operation made. `Trace` says
what one program can have done by itself, and `Service.trace_of_reachable` projects the log of any
run onto each call's own trace. -/

namespace Async

/-! ## Programs -/

/-- A program: a result, an error thrown, or an operation awaited whose answer it goes on with. -/
inductive Prog (Op : Type) (Ans : Op → Type) (ε α : Type) where
  | ret (a : α)
  | fail (e : ε)
  | await (o : Op) (k : Ans o → Prog Op Ans ε α)

namespace Prog

variable {Op : Type} {Ans : Op → Type} {ε α β : Type}

protected def bind (f : α → Prog Op Ans ε β) : Prog Op Ans ε α → Prog Op Ans ε β
  | ret a => f a
  | fail e => fail e
  | await o k => await o fun x => (k x).bind f

instance : Monad (Prog Op Ans ε) where
  pure := ret
  bind p f := p.bind f

/-- Await one operation. -/
def perform (o : Op) : Prog Op Ans ε (Ans o) :=
  await o ret

/-- `try p catch (e) { handler(e) }`. -/
def tryCatch (handler : ε → Prog Op Ans ε α) : Prog Op Ans ε α → Prog Op Ans ε α
  | ret a => ret a
  | fail e => handler e
  | await o k => await o fun x => (k x).tryCatch handler

/-- A synchronous computation that may throw. -/
def lift : Except ε α → Prog Op Ans ε α
  | .ok a => ret a
  | .error e => fail e

@[simp]
theorem ret_bind (a : α) (f : α → Prog Op Ans ε β) : (ret a >>= f) = f a :=
  rfl

@[simp]
theorem pure_bind' (a : α) (f : α → Prog Op Ans ε β) :
    ((pure a : Prog Op Ans ε α) >>= f) = f a :=
  rfl

@[simp]
theorem fail_bind (e : ε) (f : α → Prog Op Ans ε β) :
    ((fail e : Prog Op Ans ε α) >>= f) = fail e :=
  rfl

@[simp]
theorem await_bind (o : Op) (k : Ans o → Prog Op Ans ε α) (f : α → Prog Op Ans ε β) :
    (await o k >>= f) = await o fun x => k x >>= f :=
  rfl

@[simp]
theorem perform_bind (o : Op) (f : Ans o → Prog Op Ans ε β) :
    (perform o >>= f) = await o f :=
  rfl

theorem bind_assoc {γ : Type} (p : Prog Op Ans ε α) (f : α → Prog Op Ans ε β)
    (g : β → Prog Op Ans ε γ) : p >>= f >>= g = p >>= fun a => f a >>= g := by
  induction p with
  | ret a => rfl
  | fail e => rfl
  | await o k ih =>
      rw [await_bind, await_bind, await_bind]
      exact congrArg (await o) (funext ih)

end Prog

/-! ## The operations a program uses -/

namespace Prog

variable {Op : Type} {Ans : Op → Type} {ε α β : Type}

/-- Every operation the program may ever make satisfies `P`. -/
def Uses (P : Op → Prop) : Prog Op Ans ε α → Prop
  | ret _ => True
  | fail _ => True
  | await o k => P o ∧ ∀ x, (k x).Uses P

theorem Uses.bind {P : Op → Prop} {p : Prog Op Ans ε α} {f : α → Prog Op Ans ε β} (h : p.Uses P)
    (hf : ∀ a, (f a).Uses P) : (p >>= f).Uses P := by
  induction p with
  | ret a => exact hf a
  | fail e => trivial
  | await o k ih => exact ⟨h.1, fun x => ih x (h.2 x)⟩

theorem Uses.map {P : Op → Prop} {p : Prog Op Ans ε α} {f : α → β} (h : p.Uses P) :
    (f <$> p).Uses P :=
  h.bind fun _ => trivial

theorem Uses.tryCatch {P : Op → Prop} {handler : ε → Prog Op Ans ε α} {p : Prog Op Ans ε α}
    (h : p.Uses P) (hhandler : ∀ e, (handler e).Uses P) : (p.tryCatch handler).Uses P := by
  induction p with
  | ret a => trivial
  | fail e => exact hhandler e
  | await o k ih => exact ⟨h.1, fun x => ih x (h.2 x)⟩

@[simp]
theorem uses_perform {P : Op → Prop} {o : Op} :
    (perform o : Prog Op Ans ε (Ans o)).Uses P ↔ P o := by
  simp [perform, Uses]

@[simp]
theorem uses_lift {P : Op → Prop} {x : Except ε α} : (lift x : Prog Op Ans ε α).Uses P := by
  cases x <;> trivial

/-- After a synchronous computation that may throw, only its results matter. -/
theorem uses_lift_bind {P : Op → Prop} {x : Except ε α} {f : α → Prog Op Ans ε β}
    (h : ∀ a, x = .ok a → (f a).Uses P) : (lift x >>= f : Prog Op Ans ε β).Uses P := by
  cases x with
  | ok a => exact h a rfl
  | error e => trivial

theorem Uses.mono {P Q : Op → Prop} (hPQ : ∀ o, P o → Q o) {p : Prog Op Ans ε α} (h : p.Uses P) :
    p.Uses Q := by
  induction p with
  | ret a => trivial
  | fail e => trivial
  | await o k ih => exact ⟨hPQ o h.1, fun x => ih x (h.2 x)⟩

theorem uses_ite {P : Op → Prop} {c : Prop} [Decidable c] {p q : Prog Op Ans ε α} (hp : p.Uses P)
    (hq : q.Uses P) : (if c then p else q).Uses P := by
  split
  · exact hp
  · exact hq

theorem uses_elim {P : Op → Prop} (v : Option α) {p : Prog Op Ans ε β} {f : α → Prog Op Ans ε β}
    (hp : p.Uses P) (hf : ∀ a, (f a).Uses P) : (v.elim p f).Uses P := by
  cases v with
  | none => exact hp
  | some a => exact hf a

end Prog

/-! ## Traces -/

/-- An operation and its answer. -/
abbrev Made (Op : Type) (Ans : Op → Type) := Σ o : Op, Ans o

variable {Op : Type} {Ans : Op → Type} {ε α β : Type}

/-- The program `p` can make these operations, with these answers, and become `q`. -/
inductive Trace : Prog Op Ans ε α → List (Made Op Ans) → Prog Op Ans ε α → Prop
  | nil (p : Prog Op Ans ε α) : Trace p [] p
  | cons {o : Op} {k : Ans o → Prog Op Ans ε α} {q : Prog Op Ans ε α} {es : List (Made Op Ans)}
      (x : Ans o) : Trace (k x) es q → Trace (.await o k) (⟨o, x⟩ :: es) q

theorem Trace.concat {p q : Prog Op Ans ε α} {o : Op} {k : Ans o → Prog Op Ans ε α}
    {es : List (Made Op Ans)} (h : Trace p es q) (hq : q = .await o k) (x : Ans o) :
    Trace p (es ++ [⟨o, x⟩]) (k x) := by
  induction h with
  | nil p =>
      subst hq
      exact .cons x (.nil _)
  | cons y _ ih => exact .cons y (ih hq)

theorem trace_ret {a : α} {es : List (Made Op Ans)} {q : Prog Op Ans ε α} :
    Trace (.ret a) es q ↔ es = [] ∧ q = .ret a := by
  constructor
  · intro h
    cases h
    exact ⟨rfl, rfl⟩
  · rintro ⟨rfl, rfl⟩
    exact .nil _

theorem trace_fail {e : ε} {es : List (Made Op Ans)} {q : Prog Op Ans ε α} :
    Trace (.fail e) es q ↔ es = [] ∧ q = .fail e := by
  constructor
  · intro h
    cases h
    exact ⟨rfl, rfl⟩
  · rintro ⟨rfl, rfl⟩
    exact .nil _

/-- A program that has returned made its first operation first. -/
theorem trace_await_ret {o : Op} {k : Ans o → Prog Op Ans ε α} {es : List (Made Op Ans)} {a : α} :
    Trace (.await o k) es (.ret a) ↔
      ∃ x es', es = ⟨o, x⟩ :: es' ∧ Trace (k x) es' (.ret a) := by
  constructor
  · intro h
    cases h with
    | cons x h' => exact ⟨x, _, rfl, h'⟩
  · rintro ⟨x, es', rfl, h⟩
    exact .cons x h

/-- A sequence that has returned ran its first part to a result and then its second. -/
theorem Trace.of_bind {p : Prog Op Ans ε α} {f : α → Prog Op Ans ε β} {es : List (Made Op Ans)}
    {b : β} (h : Trace (p >>= f) es (.ret b)) :
    ∃ es₁ es₂ a, es = es₁ ++ es₂ ∧ Trace p es₁ (.ret a) ∧ Trace (f a) es₂ (.ret b) := by
  induction p generalizing es with
  | ret a => exact ⟨[], es, a, rfl, .nil _, h⟩
  | fail e => exact absurd (trace_fail.mp h).2 (by simp)
  | await o k ih =>
      obtain ⟨x, es', rfl, h'⟩ := trace_await_ret.mp h
      obtain ⟨es₁, es₂, a, rfl, h₁, h₂⟩ := ih x h'
      exact ⟨⟨o, x⟩ :: es₁, es₂, a, rfl, .cons x h₁, h₂⟩

theorem trace_lift_ret {x : Except ε α} {es : List (Made Op Ans)} {a : α} :
    Trace (Prog.lift x) es (.ret a) ↔ es = [] ∧ x = .ok a := by
  cases x with
  | ok b => simp [Prog.lift, trace_ret, eq_comm]
  | error e => simp [Prog.lift, trace_fail]

theorem trace_lift_bind {x : Except ε α} {f : α → Prog Op Ans ε β} {es : List (Made Op Ans)} {b : β} :
    Trace (Prog.lift x >>= f) es (.ret b) ↔ ∃ a, x = .ok a ∧ Trace (f a) es (.ret b) := by
  cases x with
  | ok a => simp [Prog.lift]
  | error e => simp [Prog.lift, trace_fail]

theorem trace_of_map {f : α → β} {p : Prog Op Ans ε α} {es : List (Made Op Ans)} {b : β}
    (h : Trace (f <$> p) es (.ret b)) : ∃ a, b = f a ∧ Trace p es (.ret a) := by
  obtain ⟨es₁, es₂, a, rfl, h₁, h₂⟩ := Trace.of_bind h
  obtain ⟨rfl, hb⟩ := trace_ret.mp h₂
  rw [List.append_nil]
  exact ⟨a, by simpa using hb, h₁⟩

/-- A program under `catch` that has returned did so itself, or its handler did. -/
theorem Trace.of_tryCatch {handler : ε → Prog Op Ans ε α} {p : Prog Op Ans ε α}
    {es : List (Made Op Ans)} {a : α} (h : Trace (p.tryCatch handler) es (.ret a)) :
    Trace p es (.ret a) ∨
      ∃ es₁ es₂ e, es = es₁ ++ es₂ ∧ Trace p es₁ (.fail e) ∧ Trace (handler e) es₂ (.ret a) := by
  induction p generalizing es with
  | ret b => exact Or.inl h
  | fail e => exact Or.inr ⟨[], es, e, rfl, .nil _, h⟩
  | await o k ih =>
      obtain ⟨x, es', rfl, h'⟩ := trace_await_ret.mp h
      rcases ih x h' with hp | ⟨es₁, es₂, e, rfl, h₁, h₂⟩
      · exact Or.inl (.cons x hp)
      · exact Or.inr ⟨⟨o, x⟩ :: es₁, es₂, e, rfl, .cons x h₁, h₂⟩

/-- What a program makes is among the operations it uses, and so is what it goes on to make. -/
theorem Trace.uses {P : Op → Prop} {p q : Prog Op Ans ε α} {es : List (Made Op Ans)}
    (h : Trace p es q) (huses : p.Uses P) : (∀ e ∈ es, P e.1) ∧ q.Uses P := by
  induction h with
  | nil p => exact ⟨fun e he => by simp at he, huses⟩
  | cons x _ ih =>
      obtain ⟨hes, hq⟩ := ih (huses.2 x)
      refine ⟨fun e he => ?_, hq⟩
      rcases List.mem_cons.mp he with rfl | he
      · exact huses.1
      · exact hes e he

/-- Whatever its operations answer, the program does not return. -/
def Prog.Throws : Prog Op Ans ε α → Prop
  | ret _ => False
  | fail _ => True
  | await _ k => ∀ x, (k x).Throws

theorem Prog.Throws.bind {p : Prog Op Ans ε α} {f : α → Prog Op Ans ε β}
    (hf : ∀ a, (f a).Throws) : (p >>= f).Throws := by
  induction p with
  | ret a => exact hf a
  | fail e => trivial
  | await o k ih => exact fun x => ih x

theorem Prog.Throws.not_trace {p : Prog Op Ans ε α} (h : p.Throws) {es : List (Made Op Ans)}
    {a : α} : ¬Trace p es (.ret a) := by
  induction p generalizing es with
  | ret b => exact h.elim
  | fail e => exact fun ht => by cases (trace_fail.mp ht).2
  | await o k ih =>
      intro ht
      obtain ⟨x, es', -, h'⟩ := trace_await_ret.mp ht
      exact ih x (h x) h'

/-! ## Services -/

/-- A service: the program each request runs, the requests that may arrive, and the effect of
    operations and of the environment on the shared state. -/
structure Service (Req Op : Type) (Ans : Op → Type) (ε α σ : Type) where
  body : Req → Prog Op Ans ε α
  admits : Req → Prop
  init : σ → Prop
  exec : σ → (o : Op) → Ans o → σ → Prop
  env : σ → σ → Prop

/-- A call in progress: its request and what is left of its program. -/
structure Call (Req Op : Type) (Ans : Op → Type) (ε α : Type) where
  req : Req
  rest : Prog Op Ans ε α

/-- An operation of a call, with the state it was made in. -/
structure Entry (ι Op : Type) (Ans : Op → Type) (σ : Type) where
  call : ι
  made : Made Op Ans
  state : σ

/-- The shared state, the calls so far, and the log of their operations. -/
structure Config (ι Req Op : Type) (Ans : Op → Type) (ε α σ : Type) where
  shared : σ
  calls : ι → Option (Call Req Op Ans ε α)
  log : List (Entry ι Op Ans σ)

variable {ι Req σ : Type} [DecidableEq ι]

/-- One step: a call starts, a call makes its next operation, or the environment acts. A call that
    crashes makes no further step. -/
inductive Service.Step (S : Service Req Op Ans ε α σ) :
    Config ι Req Op Ans ε α σ → Config ι Req Op Ans ε α σ → Prop
  | start {cfg : Config ι Req Op Ans ε α σ} (i : ι) (r : Req) :
      S.admits r → cfg.calls i = none →
      Step S cfg { cfg with calls := Function.update cfg.calls i (some ⟨r, S.body r⟩) }
  | exec {cfg : Config ι Req Op Ans ε α σ} (i : ι) (r : Req) (o : Op)
      (k : Ans o → Prog Op Ans ε α) (x : Ans o) (s : σ) :
      cfg.calls i = some ⟨r, .await o k⟩ → S.exec cfg.shared o x s →
      Step S cfg
        { shared := s
          calls := Function.update cfg.calls i (some ⟨r, k x⟩)
          log := cfg.log ++ [⟨i, ⟨o, x⟩, cfg.shared⟩] }
  | env {cfg : Config ι Req Op Ans ε α σ} (s : σ) :
      S.env cfg.shared s → Step S cfg { cfg with shared := s }

/-- The transition system of any number of interleaving calls. -/
def Service.system (S : Service Req Op Ans ε α σ) (ι : Type) [DecidableEq ι] :
    Transition.System (Config ι Req Op Ans ε α σ) where
  init cfg := S.init cfg.shared ∧ (∀ i, cfg.calls i = none) ∧ cfg.log = []
  next := S.Step

/-- What one call did, in order. -/
def ownTrace (i : ι) (log : List (Entry ι Op Ans σ)) : List (Made Op Ans) :=
  (log.filter fun e => e.call = i).map Entry.made

@[simp]
theorem ownTrace_append (i : ι) (l l' : List (Entry ι Op Ans σ)) :
    ownTrace i (l ++ l') = ownTrace i l ++ ownTrace i l' := by
  simp [ownTrace]

theorem ownTrace_singleton (i : ι) (e : Entry ι Op Ans σ) :
    ownTrace i [e] = if e.call = i then [e.made] else [] := by
  unfold ownTrace
  split
  · next h => simp [h]
  · next h => simp [h]

/-- Two operations of one call, in the order in which it made them, stand in the log in that
    order. -/
theorem exists_entries {i : ι} {log : List (Entry ι Op Ans σ)} {l₁ l₂ l₃ : List (Made Op Ans)}
    {a b : Made Op Ans} (h : ownTrace i log = l₁ ++ a :: (l₂ ++ b :: l₃)) :
    ∃ e e', [e, e'].Sublist log ∧ e.call = i ∧ e.made = a ∧ e'.call = i ∧ e'.made = b := by
  have hsub : [a, b].Sublist (ownTrace i log) := by
    rw [h]
    refine List.Sublist.trans ?_ (List.sublist_append_right _ _)
    refine List.Sublist.cons_cons a (List.Sublist.trans ?_ (List.sublist_append_right _ _))
    exact List.Sublist.cons_cons b (List.nil_sublist _)
  obtain ⟨l, hl, heq⟩ := List.sublist_map_iff.mp hsub
  obtain ⟨e, e', rfl⟩ : ∃ e e', l = [e, e'] := by
    have hlen : l.length = 2 := by simpa using (congrArg List.length heq).symm
    exact List.length_eq_two.mp hlen
  simp only [List.map_cons, List.map_nil, List.cons.injEq, and_true] at heq
  have hcall : ∀ f ∈ [e, e'], f.call = i := by
    intro f hf
    simpa using (List.mem_filter.mp (hl.subset hf)).2
  exact ⟨e, e', hl.trans List.filter_sublist, hcall e (by simp), heq.1.symm,
    hcall e' (by simp), heq.2.symm⟩

theorem exists_entry {i : ι} {log : List (Entry ι Op Ans σ)} {a : Made Op Ans}
    (h : a ∈ ownTrace i log) : ∃ e ∈ log, e.call = i ∧ e.made = a := by
  obtain ⟨e, he, rfl⟩ := List.mem_map.mp h
  obtain ⟨hlog, hcall⟩ := List.mem_filter.mp he
  exact ⟨e, hlog, by simpa using hcall, rfl⟩

theorem mem_ownTrace {i : ι} {log : List (Entry ι Op Ans σ)} {e : Entry ι Op Ans σ} (he : e ∈ log)
    (hcall : e.call = i) : e.made ∈ ownTrace i log :=
  List.mem_map_of_mem (List.mem_filter.mpr ⟨he, by simpa using hcall⟩)

section Rules

variable {S : Service Req Op Ans ε α σ}

/-- What a call has left to do uses only operations that its request's program uses. -/
theorem Service.uses_of_request {P : Req → Op → Prop}
    (huses : ∀ r, S.admits r → (S.body r).Uses (P r)) {cfg : Config ι Req Op Ans ε α σ}
    (h : Transition.Reachable (S.system ι) cfg) :
    ∀ i call, cfg.calls i = some call → call.rest.Uses (P call.req) := by
  refine Transition.Reachable.invariant
    (I := fun cfg => ∀ i call, cfg.calls i = some call → call.rest.Uses (P call.req)) ?_ ?_ h
  · rintro cfg ⟨-, hcalls, -⟩ i call hi
    rw [hcalls] at hi
    cases hi
  · rintro cfg cfg' - ih hstep
    cases hstep with
    | start j r hadm hj =>
        intro i call hi
        by_cases hij : i = j
        · subst hij
          obtain rfl : _ = call := by simpa using hi
          exact huses r hadm
        · exact ih i call (by simpa [Function.update_of_ne hij] using hi)
    | exec j r o k x s hj hx =>
        intro i call hi
        by_cases hij : i = j
        · subst hij
          obtain rfl : _ = call := by simpa using hi
          exact (ih _ _ hj).2 x
        · exact ih i call (by simpa [Function.update_of_ne hij] using hi)
    | env s hs => exact ih

theorem Service.uses_of_reachable {P : Op → Prop} (huses : ∀ r, S.admits r → (S.body r).Uses P)
    {cfg : Config ι Req Op Ans ε α σ} (h : Transition.Reachable (S.system ι) cfg) :
    ∀ i call, cfg.calls i = some call → call.rest.Uses P :=
  Service.uses_of_request (P := fun _ => P) huses h

/-- The invariant rule for the shared state: what the environment keeps, and every operation that
    the admitted programs use, holds under any interleaving of any calls. -/
theorem Service.invariant {P : Op → Prop} (huses : ∀ r, S.admits r → (S.body r).Uses P)
    {I : σ → Prop} (hinit : ∀ s, S.init s → I s)
    (hexec : ∀ s o x t, P o → I s → S.exec s o x t → I t)
    (henv : ∀ s t, I s → S.env s t → I t)
    {cfg : Config ι Req Op Ans ε α σ} (h : Transition.Reachable (S.system ι) cfg) :
    I cfg.shared := by
  refine Transition.Reachable.invariant (I := fun cfg => I cfg.shared) ?_ ?_ h
  · rintro cfg ⟨h0, -⟩
    exact hinit _ h0
  · rintro cfg cfg' hreach hI hstep
    cases hstep with
    | start => exact hI
    | exec i r o k x s hi hx =>
        exact hexec _ _ _ _ (Service.uses_of_reachable huses hreach i _ hi).1 hI hx
    | env s hs => exact henv _ _ hI hs

/-- The projection of a run onto one call: the operations it made in the log are a trace of its
    request's program. -/
theorem Service.trace_of_reachable {cfg : Config ι Req Op Ans ε α σ}
    (h : Transition.Reachable (S.system ι) cfg) (i : ι) :
    (∀ r q, cfg.calls i = some ⟨r, q⟩ → S.admits r ∧ Trace (S.body r) (ownTrace i cfg.log) q) ∧
      (cfg.calls i = none → ownTrace i cfg.log = []) := by
  refine Transition.Reachable.invariant (I := fun cfg =>
    (∀ r q, cfg.calls i = some ⟨r, q⟩ → S.admits r ∧ Trace (S.body r) (ownTrace i cfg.log) q) ∧
      (cfg.calls i = none → ownTrace i cfg.log = [])) ?_ ?_ h
  · rintro cfg ⟨-, hcalls, hlog⟩
    refine ⟨fun r q hq => ?_, fun _ => by simp [hlog, ownTrace]⟩
    rw [hcalls] at hq
    cases hq
  · rintro cfg cfg' - ⟨htrace, hnone⟩ hstep
    cases hstep with
    | start j r hadm hj =>
        by_cases hij : i = j
        · subst hij
          refine ⟨fun r' q hq => ?_, fun hq => ?_⟩
          · simp only [Function.update_self, Option.some.injEq, Call.mk.injEq] at hq
            obtain ⟨rfl, rfl⟩ := hq
            rw [hnone hj]
            exact ⟨hadm, .nil _⟩
          · simp at hq
        · simpa [Function.update_of_ne hij] using ⟨htrace, hnone⟩
    | exec j r o k x s hj hx =>
        by_cases hij : i = j
        · subst hij
          refine ⟨fun r' q hq => ?_, fun hq => ?_⟩
          · simp only [Function.update_self, Option.some.injEq, Call.mk.injEq] at hq
            obtain ⟨rfl, rfl⟩ := hq
            obtain ⟨hadm, ht⟩ := htrace _ _ hj
            rw [ownTrace_append, ownTrace_singleton, if_pos rfl]
            exact ⟨hadm, ht.concat rfl x⟩
          · simp at hq
        · have hji : ¬ j = i := fun he => hij he.symm
          simpa [Function.update_of_ne hij, ownTrace_singleton, hji] using ⟨htrace, hnone⟩
    | env s hs => exact ⟨htrace, hnone⟩

/-- Every operation in the log was made in the state that it is logged with. -/
theorem Service.exec_of_reachable {cfg : Config ι Req Op Ans ε α σ}
    (h : Transition.Reachable (S.system ι) cfg) :
    ∀ e ∈ cfg.log, ∃ t, S.exec e.state e.made.1 e.made.2 t := by
  refine Transition.Reachable.invariant
    (I := fun cfg => ∀ e ∈ cfg.log, ∃ t, S.exec e.state e.made.1 e.made.2 t) ?_ ?_ h
  · rintro cfg ⟨-, -, hlog⟩ e he
    rw [hlog] at he
    cases he
  · rintro cfg cfg' - ih hstep
    cases hstep with
    | start i r hadm hi => exact ih
    | env s hs => exact ih
    | exec i r o k x s hi hx =>
        intro e he
        rcases List.mem_append.mp he with he | he
        · exact ih e he
        · rw [List.mem_singleton.mp he]
          exact ⟨s, hx⟩

/-- The monotonicity rule for the log: what every operation and the environment respect relates the
    states of the log, each to the later ones and to the present. -/
theorem Service.log_monotone {I : σ → Prop} {R : σ → σ → Prop}
    (hI : ∀ cfg, Transition.Reachable (S.system ι) cfg → I cfg.shared)
    (htrans : ∀ s t u, R s t → R t u → R s u) (hexec : ∀ s o x t, I s → S.exec s o x t → R s t)
    (henv : ∀ s t, I s → S.env s t → R s t) {cfg : Config ι Req Op Ans ε α σ}
    (h : Transition.Reachable (S.system ι) cfg) :
    (cfg.log.Pairwise fun e e' => R e.state e'.state) ∧
      ∀ e ∈ cfg.log, R e.state cfg.shared ∧ I e.state := by
  refine Transition.Reachable.invariant (I := fun cfg =>
    (cfg.log.Pairwise fun e e' => R e.state e'.state) ∧
      ∀ e ∈ cfg.log, R e.state cfg.shared ∧ I e.state) ?_ ?_ h
  · rintro cfg ⟨-, -, hlog⟩
    rw [hlog]
    exact ⟨.nil, fun e he => by cases he⟩
  · rintro cfg cfg' hreach ⟨hpairwise, hpresent⟩ hstep
    have hI' := hI cfg hreach
    cases hstep with
    | start i r hadm hi => exact ⟨hpairwise, hpresent⟩
    | env s hs =>
        exact ⟨hpairwise, fun e he =>
          ⟨htrans _ _ _ (hpresent e he).1 (henv _ _ hI' hs), (hpresent e he).2⟩⟩
    | exec i r o k x s hi hx =>
        have hstep := hexec _ _ _ _ hI' hx
        refine ⟨List.pairwise_append.mpr ⟨hpairwise, List.pairwise_singleton _ _, ?_⟩, ?_⟩
        · intro e he e' he'
          rw [List.mem_singleton.mp he']
          exact (hpresent e he).1
        · intro e he
          rcases List.mem_append.mp he with he | he
          · exact ⟨htrans _ _ _ (hpresent e he).1 hstep, (hpresent e he).2⟩
          · rw [List.mem_singleton.mp he]
            exact ⟨hstep, hI'⟩

/-- The monotonicity rule for the shared state of runs, with the log that a run adds: a preorder
    that every operation and the environment respect relates the state at the start to the state of
    each operation made since, and to the state at the end. -/
theorem Service.run_monotone {P : Op → Prop} (huses : ∀ r, S.admits r → (S.body r).Uses P)
    {I : σ → Prop} (hI : ∀ cfg, Transition.Reachable (S.system ι) cfg → I cfg.shared)
    {R : σ → σ → Prop} (hrefl : ∀ s, R s s) (htrans : ∀ s t u, R s t → R t u → R s u)
    (hexec : ∀ s o x t, P o → I s → S.exec s o x t → R s t)
    (henv : ∀ s t, I s → S.env s t → R s t) {cfg cfg' : Config ι Req Op Ans ε α σ}
    (h : Transition.Reachable (S.system ι) cfg) (hrun : Transition.Run (S.system ι) cfg cfg') :
    R cfg.shared cfg'.shared ∧
      ∃ es, cfg'.log = cfg.log ++ es ∧ ∀ e ∈ es, R cfg.shared e.state := by
  induction hrun with
  | refl => exact ⟨hrefl _, [], (List.append_nil _).symm, fun e he => by cases he⟩
  | @tail mid last hmid hstep ih =>
      obtain ⟨hR, es, hlog, hes⟩ := ih
      have hreach := Transition.Run.reachable hmid h
      cases hstep with
      | start i r hadm hi => exact ⟨hR, es, hlog, hes⟩
      | env s hs => exact ⟨htrans _ _ _ hR (henv _ _ (hI _ hreach) hs), es, hlog, hes⟩
      | exec i r o k x s hi hx =>
          have hP := (Service.uses_of_reachable huses hreach i _ hi).1
          refine ⟨htrans _ _ _ hR (hexec _ _ _ _ hP (hI _ hreach) hx),
            es ++ [⟨i, ⟨o, x⟩, mid.shared⟩], ?_, ?_⟩
          · show mid.log ++ _ = _
            rw [hlog, List.append_assoc]
          · intro e he
            rcases List.mem_append.mp he with he | he
            · exact hes e he
            · rw [List.mem_singleton.mp he]
              exact hR

/-- Of two operations in the log, the later one was made in a state that follows what the earlier
    one left. -/
theorem Service.log_pairwise {P : Op → Prop} (huses : ∀ r, S.admits r → (S.body r).Uses P)
    {I : σ → Prop} (hI : ∀ cfg, Transition.Reachable (S.system ι) cfg → I cfg.shared)
    {R : σ → σ → Prop} (hrefl : ∀ s, R s s) (htrans : ∀ s t u, R s t → R t u → R s u)
    (hexec : ∀ s o x t, P o → I s → S.exec s o x t → R s t)
    (henv : ∀ s t, I s → S.env s t → R s t) {cfg : Config ι Req Op Ans ε α σ}
    (h : Transition.Reachable (S.system ι) cfg) :
    (cfg.log.Pairwise fun e e' =>
        ∃ t, S.exec e.state e.made.1 e.made.2 t ∧ R t e'.state) ∧
      ∀ e ∈ cfg.log, ∃ t, S.exec e.state e.made.1 e.made.2 t ∧ R t cfg.shared := by
  refine Transition.Reachable.invariant (I := fun cfg =>
    (cfg.log.Pairwise fun e e' =>
        ∃ t, S.exec e.state e.made.1 e.made.2 t ∧ R t e'.state) ∧
      ∀ e ∈ cfg.log, ∃ t, S.exec e.state e.made.1 e.made.2 t ∧ R t cfg.shared) ?_ ?_ h
  · rintro cfg ⟨-, -, hlog⟩
    rw [hlog]
    exact ⟨.nil, fun e he => by cases he⟩
  · rintro cfg cfg' hreach ⟨hpairwise, hpresent⟩ hstep
    have hI' := hI cfg hreach
    cases hstep with
    | start i r hadm hi => exact ⟨hpairwise, hpresent⟩
    | env s hs =>
        refine ⟨hpairwise, fun e he => ?_⟩
        obtain ⟨t, ht, hR⟩ := hpresent e he
        exact ⟨t, ht, htrans _ _ _ hR (henv _ _ hI' hs)⟩
    | exec i r o k x s hi hx =>
        have hP := (Service.uses_of_reachable huses hreach i _ hi).1
        refine ⟨List.pairwise_append.mpr ⟨hpairwise, List.pairwise_singleton _ _, ?_⟩, ?_⟩
        · intro e he e' he'
          rw [List.mem_singleton.mp he']
          exact hpresent e he
        · intro e he
          rcases List.mem_append.mp he with he | he
          · obtain ⟨t, ht, hR⟩ := hpresent e he
            exact ⟨t, ht, htrans _ _ _ hR (hexec _ _ _ _ hP hI' hx)⟩
          · rw [List.mem_singleton.mp he]
            exact ⟨s, hx, hrefl s⟩

/-- Of two operations in the log one is the earlier. -/
theorem Service.log_ordered {P : Op → Prop} (huses : ∀ r, S.admits r → (S.body r).Uses P)
    {I : σ → Prop} (hI : ∀ cfg, Transition.Reachable (S.system ι) cfg → I cfg.shared)
    {R : σ → σ → Prop} (hrefl : ∀ s, R s s) (htrans : ∀ s t u, R s t → R t u → R s u)
    (hexec : ∀ s o x t, P o → I s → S.exec s o x t → R s t)
    (henv : ∀ s t, I s → S.env s t → R s t) {cfg : Config ι Req Op Ans ε α σ}
    (h : Transition.Reachable (S.system ι) cfg) {e e' : Entry ι Op Ans σ} (he : e ∈ cfg.log)
    (he' : e' ∈ cfg.log) (hne : e ≠ e') :
    (∃ t, S.exec e.state e.made.1 e.made.2 t ∧ R t e'.state) ∨
      ∃ t, S.exec e'.state e'.made.1 e'.made.2 t ∧ R t e.state := by
  obtain ⟨hpairwise, -⟩ := Service.log_pairwise huses hI hrefl htrans hexec henv h
  have heither : cfg.log.Pairwise fun e e' : Entry ι Op Ans σ =>
      (∃ t, S.exec e.state e.made.1 e.made.2 t ∧ R t e'.state) ∨
        ∃ t, S.exec e'.state e'.made.1 e'.made.2 t ∧ R t e.state :=
    hpairwise.imp fun h => Or.inl h
  have hsymm : Std.Symm fun e e' : Entry ι Op Ans σ =>
      (∃ t, S.exec e.state e.made.1 e.made.2 t ∧ R t e'.state) ∨
        ∃ t, S.exec e'.state e'.made.1 e'.made.2 t ∧ R t e.state :=
    ⟨fun _ _ h => h.symm⟩
  exact heither.forall he he' hne

end Rules

/-! ## Calls served one after another -/

section Serve

/-- Run a program to its end, every operation answered by `run`: what is left of it, the state, and
    the log. -/
def Prog.drive (run : σ → (o : Op) → Ans o × σ) (i : ι) :
    Prog Op Ans ε α → σ → List (Entry ι Op Ans σ) →
      Prog Op Ans ε α × σ × List (Entry ι Op Ans σ)
  | .ret a, s, log => (.ret a, s, log)
  | .fail e, s, log => (.fail e, s, log)
  | .await o k, s, log => (k (run s o).1).drive run i (run s o).2 (log ++ [⟨i, ⟨o, (run s o).1⟩, s⟩])

omit [DecidableEq ι] in
theorem Prog.drive_await {run : σ → (o : Op) → Ans o × σ} {s s' : σ} {o : Op} {x : Ans o}
    (h : run s o = (x, s')) (i : ι) (k : Ans o → Prog Op Ans ε α) (log : List (Entry ι Op Ans σ)) :
    (Prog.await o k).drive run i s log = (k x).drive run i s' (log ++ [⟨i, ⟨o, x⟩, s⟩]) := by
  rw [Prog.drive, h]

omit [DecidableEq ι] in
/-- A sequence goes on from where its first part has come. -/
theorem Prog.drive_bind {run : σ → (o : Op) → Ans o × σ} {i : ι} {p : Prog Op Ans ε α}
    {f : α → Prog Op Ans ε β} {s s' : σ} {log log' : List (Entry ι Op Ans σ)} {a : α}
    (h : p.drive run i s log = (.ret a, s', log')) :
    (p >>= f).drive run i s log = (f a).drive run i s' log' := by
  induction p generalizing s log with
  | ret b =>
      obtain ⟨hb, rfl, rfl⟩ : Prog.ret b = (Prog.ret a : Prog Op Ans ε α) ∧ s = s' ∧ log = log' := by
        simpa [Prog.drive] using h
      obtain rfl := Prog.ret.inj hb
      rfl
  | fail e =>
      rw [Prog.drive, Prod.mk.injEq] at h
      cases h.1
  | await o k ih =>
      rw [Prog.drive] at h
      rw [Prog.await_bind, Prog.drive]
      exact ih _ h

omit [DecidableEq ι] in
/-- How a program ends, and the state it leaves, do not depend on the log. -/
theorem Prog.drive_unlogged {κ : Type} (run : σ → (o : Op) → Ans o × σ) (p : Prog Op Ans ε α) (s : σ)
    (i : ι) (j : κ) (log : List (Entry ι Op Ans σ)) (log' : List (Entry κ Op Ans σ)) :
    (p.drive run i s log).1 = (p.drive run j s log').1 ∧
      (p.drive run i s log).2.1 = (p.drive run j s log').2.1 := by
  induction p generalizing s log log' with
  | ret a => exact ⟨rfl, rfl⟩
  | fail e => exact ⟨rfl, rfl⟩
  | await o k ih => exact ih _ _ _ _

omit [DecidableEq ι] in
/-- A program adds to the log. -/
theorem Prog.drive_log {run : σ → (o : Op) → Ans o × σ} (p : Prog Op Ans ε α) (s : σ) (i : ι)
    (log : List (Entry ι Op Ans σ)) : log <+: (p.drive run i s log).2.2 := by
  induction p generalizing s log with
  | ret a => exact List.prefix_rfl
  | fail e => exact List.prefix_rfl
  | await o k ih => exact (List.prefix_append _ _).trans (ih _ _ _)

variable (S : Service Req Op Ans ε α σ) (run : σ → (o : Op) → Ans o × σ)

/-- Serve one call from its start to its end. -/
def Service.serve (cfg : Config ι Req Op Ans ε α σ) (i : ι) (r : Req) :
    Config ι Req Op Ans ε α σ :=
  let done := (S.body r).drive run i cfg.shared cfg.log
  { shared := done.2.1
    calls := Function.update cfg.calls i (some ⟨r, done.1⟩)
    log := done.2.2 }

/-- Serve calls one after another, under the numbers from `n` on. -/
def Service.serveAll (cfg : Config ℕ Req Op Ans ε α σ) (n : ℕ) :
    List Req → Config ℕ Req Op Ans ε α σ
  | [] => cfg
  | r :: rest => Service.serveAll (S.serve run cfg n r) (n + 1) rest

variable {S run}

theorem Service.run_drive (hrun : ∀ s o, S.exec s o (run s o).1 (run s o).2) {i : ι} {r : Req}
    (p : Prog Op Ans ε α) (cfg : Config ι Req Op Ans ε α σ) (hi : cfg.calls i = some ⟨r, p⟩) :
    Transition.Run (S.system ι) cfg
      { shared := (p.drive run i cfg.shared cfg.log).2.1
        calls := Function.update cfg.calls i (some ⟨r, (p.drive run i cfg.shared cfg.log).1⟩)
        log := (p.drive run i cfg.shared cfg.log).2.2 } := by
  have hsame : ∀ q : Prog Op Ans ε α, cfg.calls i = some ⟨r, q⟩ →
      Function.update cfg.calls i (some ⟨r, q⟩) = cfg.calls := by
    intro q hq
    rw [← hq, Function.update_eq_self]
  induction p generalizing cfg with
  | ret a =>
      simp only [Prog.drive, hsame _ hi]
      exact .refl
  | fail e =>
      simp only [Prog.drive, hsame _ hi]
      exact .refl
  | await o k ih =>
      let next : Config ι Req Op Ans ε α σ :=
        { shared := (run cfg.shared o).2
          calls := Function.update cfg.calls i (some ⟨r, k (run cfg.shared o).1⟩)
          log := cfg.log ++ [⟨i, ⟨o, (run cfg.shared o).1⟩, cfg.shared⟩] }
      have hnext : next.calls i = some ⟨r, k (run cfg.shared o).1⟩ := Function.update_self i _ _
      have hstep : S.Step cfg next := .exec i r o k _ _ hi (hrun cfg.shared o)
      have hrest := ih (run cfg.shared o).1 next hnext fun q hq => by
        rw [← hq, Function.update_eq_self]
      simp only [next] at hrest
      simp only [Function.update_idem] at hrest
      exact (Relation.ReflTransGen.single hstep).trans hrest

/-- Serving a call is a run. -/
theorem Service.run_serve (hrun : ∀ s o, S.exec s o (run s o).1 (run s o).2)
    {cfg : Config ι Req Op Ans ε α σ} {i : ι} {r : Req} (hadm : S.admits r)
    (hi : cfg.calls i = none) : Transition.Run (S.system ι) cfg (S.serve run cfg i r) := by
  have hstart : S.Step cfg
      { cfg with calls := Function.update cfg.calls i (some ⟨r, S.body r⟩) } :=
    .start i r hadm hi
  have hrest := Service.run_drive hrun (S.body r)
    { cfg with calls := Function.update cfg.calls i (some ⟨r, S.body r⟩) }
    (Function.update_self i _ _)
  simp only [Function.update_idem] at hrest
  exact (Relation.ReflTransGen.single hstart).trans hrest

theorem Service.serve_of_ne {cfg : Config ι Req Op Ans ε α σ} {i j : ι} {r : Req} (h : j ≠ i) :
    (S.serve run cfg i r).calls j = cfg.calls j :=
  Function.update_of_ne h _ _

theorem Service.run_serveAll (hrun : ∀ s o, S.exec s o (run s o).1 (run s o).2)
    {cfg : Config ℕ Req Op Ans ε α σ} {n : ℕ} (hfree : ∀ i, n ≤ i → cfg.calls i = none)
    {rs : List Req} (hadm : ∀ r ∈ rs, S.admits r) :
    Transition.Run (S.system ℕ) cfg (S.serveAll run cfg n rs) := by
  induction rs generalizing cfg n with
  | nil => exact .refl
  | cons r rest ih =>
      have hserve := Service.run_serve hrun (hadm r List.mem_cons_self) (hfree n (Nat.le_refl n))
      refine hserve.trans (ih (fun i hi => ?_) fun r' hr' => hadm r' (List.mem_cons_of_mem r hr'))
      rw [Service.serve_of_ne (by omega)]
      exact hfree i (by omega)

/-- The numbers behind the calls served stay free. -/
theorem Service.serveAll_free {cfg : Config ℕ Req Op Ans ε α σ} {n : ℕ}
    (hfree : ∀ i, n ≤ i → cfg.calls i = none) (rs : List Req) :
    ∀ i, n + rs.length ≤ i → (S.serveAll run cfg n rs).calls i = none := by
  induction rs generalizing cfg n with
  | nil => exact hfree
  | cons r rest ih =>
      intro i hi
      refine ih (fun j hj => ?_) i (by simp only [List.length_cons] at hi; omega)
      rw [Service.serve_of_ne (by omega)]
      exact hfree j (by omega)

end Serve

end Async
