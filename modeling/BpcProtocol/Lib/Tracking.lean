import BpcProtocol.Lib.Async

set_option autoImplicit false

/-! # Programs and ghost state

A ghost state follows the operations that a program makes, one after another. `Prog.Keeps` says of a
program, from a ghost state on, that every operation keeps an invariant, that a result is returned
only with `post` and an error thrown only with `throws`. Its rules follow the program's text;
`Service.keeps_of_reachable` turns what they give into a fact about a call in any run. -/

namespace Async

variable {Op : Type} {Ans : Op → Type} {ε ε' α β γ : Type}

namespace Prog

/-- `try p catch (e) { handler(e) }`, where the handler throws errors of another kind. -/
def rescue (handler : ε → Prog Op Ans ε' α) : Prog Op Ans ε α → Prog Op Ans ε' α
  | ret a => ret a
  | fail e => handler e
  | await o k => await o fun x => (k x).rescue handler

/-- `try p finally { cleanup }`. -/
def andFinally (cleanup : Prog Op Ans ε Unit) : Prog Op Ans ε α → Prog Op Ans ε α
  | ret a => cleanup >>= fun _ => ret a
  | fail e => cleanup >>= fun _ => fail e
  | await o k => await o fun x => andFinally cleanup (k x)

/-- Every operation keeps `I`, and the ends are as `post` and `throws` say. -/
def Keeps (track : γ → (o : Op) → Ans o → γ) (I : γ → Prop) (post : γ → α → Prop)
    (throws : γ → ε → Prop) : Prog Op Ans ε α → γ → Prop
  | ret a, g => post g a
  | fail e, g => throws g e
  | await o k, g => ∀ x, I (track g o x) ∧ (k x).Keeps track I post throws (track g o x)

variable {track : γ → (o : Op) → Ans o → γ} {I : γ → Prop}

theorem Keeps.mono {post post' : γ → α → Prop} {throws throws' : γ → ε → Prop}
    {p : Prog Op Ans ε α} {g : γ} (h : p.Keeps track I post throws g)
    (hpost : ∀ g a, post g a → post' g a) (hthrows : ∀ g e, throws g e → throws' g e) :
    p.Keeps track I post' throws' g := by
  induction p generalizing g with
  | ret a => exact hpost g a h
  | fail e => exact hthrows g e h
  | await o k ih => exact fun x => ⟨(h x).1, ih x (h x).2⟩

/-- The invariant holds at the ends too. -/
theorem Keeps.with_invariant {post : γ → α → Prop} {throws : γ → ε → Prop} {p : Prog Op Ans ε α}
    {g : γ} (h : p.Keeps track I post throws g) (hI : I g) :
    p.Keeps track I (fun g a => I g ∧ post g a) (fun g e => I g ∧ throws g e) g := by
  induction p generalizing g with
  | ret a => exact ⟨hI, h⟩
  | fail e => exact ⟨hI, h⟩
  | await o k ih => exact fun x => ⟨(h x).1, ih x (h x).2 (h x).1⟩

/-- A sequence: the second part goes on from where the first has come. -/
theorem Keeps.bind {post : γ → β → Prop} {throws : γ → ε → Prop} {p : Prog Op Ans ε α}
    {f : α → Prog Op Ans ε β} {g : γ}
    (h : p.Keeps track I (fun g a => (f a).Keeps track I post throws g) throws g) :
    (p >>= f).Keeps track I post throws g := by
  induction p generalizing g with
  | ret a => exact h
  | fail e => exact h
  | await o k ih => exact fun x => ⟨(h x).1, ih x (h x).2⟩

theorem Keeps.rescue {handler : ε → Prog Op Ans ε' α} {post : γ → α → Prop}
    {throws : γ → ε' → Prop} {p : Prog Op Ans ε α} {g : γ}
    (h : p.Keeps track I post (fun g e => (handler e).Keeps track I post throws g) g) :
    (p.rescue handler).Keeps track I post throws g := by
  induction p generalizing g with
  | ret a => exact h
  | fail e => exact h
  | await o k ih => exact fun x => ⟨(h x).1, ih x (h x).2⟩

theorem Keeps.andFinally {cleanup : Prog Op Ans ε Unit} {post : γ → α → Prop}
    {throws : γ → ε → Prop} {p : Prog Op Ans ε α} {g : γ}
    (h : p.Keeps track I (fun g a => cleanup.Keeps track I (fun g _ => post g a) throws g)
      (fun g e => cleanup.Keeps track I (fun g _ => throws g e) throws g) g) :
    (andFinally cleanup p).Keeps track I post throws g := by
  induction p generalizing g with
  | ret a => exact Keeps.bind h
  | fail e => exact Keeps.bind h
  | await o k ih => exact fun x => ⟨(h x).1, ih x (h x).2⟩

/-- A program of operations that the ghost state does not follow leaves it as it was. -/
theorem Keeps.of_uses {P : Op → Prop} (hsilent : ∀ g o x, P o → track g o x = g)
    {post : γ → α → Prop} {throws : γ → ε → Prop} {p : Prog Op Ans ε α} {g : γ} (h : p.Uses P)
    (hI : I g) (hpost : ∀ a, post g a) (hthrows : ∀ e, throws g e) :
    p.Keeps track I post throws g := by
  induction p with
  | ret a => exact hpost a
  | fail e => exact hthrows e
  | await o k ih =>
      intro x
      rw [hsilent g o x h.1]
      exact ⟨hI, ih x (h.2 x)⟩

/-- What is left of a program after a trace keeps what the program kept. -/
theorem Keeps.of_trace {post : γ → α → Prop} {throws : γ → ε → Prop} {p q : Prog Op Ans ε α}
    {es : List (Made Op Ans)} (htrace : Trace p es q) {g : γ} (h : p.Keeps track I post throws g)
    (hI : I g) :
    I (es.foldl (fun g e => track g e.1 e.2) g) ∧
      q.Keeps track I post throws (es.foldl (fun g e => track g e.1 e.2) g) := by
  induction htrace generalizing g with
  | nil p => exact ⟨hI, h⟩
  | cons x _ ih => exact ih (h x).2 (h x).1

theorem Uses.rescue {P : Op → Prop} {handler : ε → Prog Op Ans ε' α} {p : Prog Op Ans ε α}
    (h : p.Uses P) (hhandler : ∀ e, (handler e).Uses P) : (p.rescue handler).Uses P := by
  induction p with
  | ret a => trivial
  | fail e => exact hhandler e
  | await o k ih => exact ⟨h.1, fun x => ih x (h.2 x)⟩

theorem Uses.andFinally {P : Op → Prop} {cleanup : Prog Op Ans ε Unit} {p : Prog Op Ans ε α}
    (h : p.Uses P) (hcleanup : cleanup.Uses P) : (andFinally cleanup p).Uses P := by
  induction p with
  | ret a => exact hcleanup.bind fun _ => trivial
  | fail e => exact hcleanup.bind fun _ => trivial
  | await o k ih => exact ⟨h.1, fun x => ih x (h.2 x)⟩

theorem Throws.rescue {handler : ε → Prog Op Ans ε' α} {p : Prog Op Ans ε α} (h : p.Throws)
    (hhandler : ∀ e, (handler e).Throws) : (p.rescue handler).Throws := by
  induction p with
  | ret a => exact h.elim
  | fail e => exact hhandler e
  | await o k ih => exact fun x => ih x (h x)

/-- What follows a program that throws is not reached. -/
theorem Uses.bind_of_throws {P : Op → Prop} {p : Prog Op Ans ε α} {f : α → Prog Op Ans ε β}
    (h : p.Uses P) (hthrows : p.Throws) : (p >>= f).Uses P := by
  induction p with
  | ret a => exact hthrows.elim
  | fail e => trivial
  | await o k ih => exact ⟨h.1, fun x => ih x (h.2 x) (hthrows x)⟩

end Prog

/-! ## What an operation follows -/

namespace Prog

/-- Of every operation that the program may make, `P` holds with what was made before it. -/
def UsesAfter (P : List (Made Op Ans) → Op → Prop) :
    List (Made Op Ans) → Prog Op Ans ε α → Prop
  | _, ret _ => True
  | _, fail _ => True
  | made, await o k => P made o ∧ ∀ x, (k x).UsesAfter P (made ++ [⟨o, x⟩])

variable {P : List (Made Op Ans) → Op → Prop} {made : List (Made Op Ans)}

theorem UsesAfter.lift_bind {x : Except ε α} {f : α → Prog Op Ans ε β}
    (h : ∀ a, x = .ok a → (f a).UsesAfter P made) : (lift x >>= f : Prog Op Ans ε β).UsesAfter P made := by
  cases x with
  | ok a => exact h a rfl
  | error e => trivial

theorem usesAfter_lift {x : Except ε α} : (lift x : Prog Op Ans ε α).UsesAfter P made := by
  cases x <;> trivial

theorem UsesAfter.map {p : Prog Op Ans ε α} {f : α → β} (h : p.UsesAfter P made) :
    (f <$> p).UsesAfter P made := by
  induction p generalizing made with
  | ret a => trivial
  | fail e => trivial
  | await o k ih => exact ⟨h.1, fun x => ih x (h.2 x)⟩

/-- An operation of a trace, with what the trace has before it. -/
theorem UsesAfter.of_trace {p q : Prog Op Ans ε α} {es : List (Made Op Ans)} (htrace : Trace p es q)
    (h : p.UsesAfter P made) {l₁ l₂ : List (Made Op Ans)} {a : Made Op Ans}
    (hes : es = l₁ ++ a :: l₂) : P (made ++ l₁) a.1 := by
  induction htrace generalizing made l₁ with
  | nil p => simp at hes
  | @cons o k q es x _ ih =>
      cases l₁ with
      | nil =>
          obtain ⟨rfl, -⟩ := List.cons.inj hes
          rw [List.append_nil]
          exact h.1
      | cons b l₁ =>
          obtain ⟨rfl, hrest⟩ := List.cons.inj hes
          rw [List.append_cons]
          exact ih (h.2 x) hrest

end Prog

variable {Req ι σ : Type} [DecidableEq ι] {S : Service Req Op Ans ε α σ}

/-- An operation of a call in a run follows what the program of that call says. -/
theorem Service.usesAfter_of_call {P : Req → List (Made Op Ans) → Op → Prop}
    (hbody : ∀ r, S.admits r → (S.body r).UsesAfter (P r) []) {cfg : Config ι Req Op Ans ε α σ}
    (h : Transition.Reachable (S.system ι) cfg) {e : Entry ι Op Ans σ} (he : e ∈ cfg.log) :
    ∃ r q, S.admits r ∧ cfg.calls e.call = some ⟨r, q⟩ ∧
      ∃ l₁ l₂, ownTrace e.call cfg.log = l₁ ++ e.made :: l₂ ∧ P r l₁ e.made.1 := by
  obtain ⟨l₁, l₂, hsplit⟩ := List.append_of_mem (mem_ownTrace he rfl)
  obtain ⟨hsome, hnone⟩ := Service.trace_of_reachable h e.call
  cases hcall : cfg.calls e.call with
  | none =>
      rw [hnone hcall] at hsplit
      simp at hsplit
  | some call =>
      obtain ⟨r, q⟩ := call
      obtain ⟨hadm, htrace⟩ := hsome r q hcall
      exact ⟨r, q, hadm, rfl, l₁, l₂, hsplit, Prog.UsesAfter.of_trace htrace (hbody r hadm) hsplit⟩

theorem Service.usesAfter_of_reachable {P : List (Made Op Ans) → Op → Prop}
    (hbody : ∀ r, S.admits r → (S.body r).UsesAfter P []) {cfg : Config ι Req Op Ans ε α σ}
    (h : Transition.Reachable (S.system ι) cfg) {e : Entry ι Op Ans σ} (he : e ∈ cfg.log) :
    ∃ l₁ l₂, ownTrace e.call cfg.log = l₁ ++ e.made :: l₂ ∧ P l₁ e.made.1 := by
  obtain ⟨r, q, -, -, hfollows⟩ := Service.usesAfter_of_call (P := fun _ => P) hbody h he
  exact hfollows

/-! ## Histories and ends -/

namespace Prog

/-- Every operation is allowed after what was made before it, and the ends are as `post` and
    `throws` say. -/
def Obeys (allowed : List (Made Op Ans) → Op → Prop) (post : List (Made Op Ans) → α → Prop)
    (throws : List (Made Op Ans) → ε → Prop) : Prog Op Ans ε α → List (Made Op Ans) → Prop
  | ret a, made => post made a
  | fail e, made => throws made e
  | await o k, made => allowed made o ∧ ∀ x, (k x).Obeys allowed post throws (made ++ [⟨o, x⟩])

variable {allowed : List (Made Op Ans) → Op → Prop} {made : List (Made Op Ans)}

theorem Obeys.mono {post post' : List (Made Op Ans) → α → Prop}
    {throws throws' : List (Made Op Ans) → ε → Prop} {p : Prog Op Ans ε α}
    (h : p.Obeys allowed post throws made) (hpost : ∀ made a, post made a → post' made a)
    (hthrows : ∀ made e, throws made e → throws' made e) : p.Obeys allowed post' throws' made := by
  induction p generalizing made with
  | ret a => exact hpost made a h
  | fail e => exact hthrows made e h
  | await o k ih => exact ⟨h.1, fun x => ih x (h.2 x)⟩

theorem Obeys.bind {post : List (Made Op Ans) → β → Prop} {throws : List (Made Op Ans) → ε → Prop}
    {p : Prog Op Ans ε α} {f : α → Prog Op Ans ε β}
    (h : p.Obeys allowed (fun made a => (f a).Obeys allowed post throws made) throws made) :
    (p >>= f).Obeys allowed post throws made := by
  induction p generalizing made with
  | ret a => exact h
  | fail e => exact h
  | await o k ih => exact ⟨h.1, fun x => ih x (h.2 x)⟩

theorem Obeys.rescue {handler : ε → Prog Op Ans ε' α} {post : List (Made Op Ans) → α → Prop}
    {throws : List (Made Op Ans) → ε' → Prop} {p : Prog Op Ans ε α}
    (h : p.Obeys allowed post (fun made e => (handler e).Obeys allowed post throws made) made) :
    (p.rescue handler).Obeys allowed post throws made := by
  induction p generalizing made with
  | ret a => exact h
  | fail e => exact h
  | await o k ih => exact ⟨h.1, fun x => ih x (h.2 x)⟩

theorem Obeys.andFinally {cleanup : Prog Op Ans ε Unit} {post : List (Made Op Ans) → α → Prop}
    {throws : List (Made Op Ans) → ε → Prop} {p : Prog Op Ans ε α}
    (h : p.Obeys allowed
      (fun made a => cleanup.Obeys allowed (fun made _ => post made a) throws made)
      (fun made e => cleanup.Obeys allowed (fun made _ => throws made e) throws made) made) :
    (andFinally cleanup p).Obeys allowed post throws made := by
  induction p generalizing made with
  | ret a => exact Obeys.bind h
  | fail e => exact Obeys.bind h
  | await o k ih => exact ⟨h.1, fun x => ih x (h.2 x)⟩

/-- Operations that are allowed after anything. -/
theorem Obeys.of_uses {P : Op → Prop} (hallowed : ∀ made o, P o → allowed made o)
    {post : List (Made Op Ans) → α → Prop} {throws : List (Made Op Ans) → ε → Prop}
    {p : Prog Op Ans ε α} (h : p.Uses P)
    (hpost : ∀ es, (∀ e ∈ es, P e.1) → ∀ a, post (made ++ es) a)
    (hthrows : ∀ es, (∀ e ∈ es, P e.1) → ∀ e, throws (made ++ es) e) :
    p.Obeys allowed post throws made := by
  have hnone : ∀ e ∈ ([] : List (Made Op Ans)), P e.1 := fun e he => by cases he
  induction p generalizing made with
  | ret a =>
      have hend := hpost [] hnone a
      rwa [List.append_nil] at hend
  | fail e =>
      have hend := hthrows [] hnone e
      rwa [List.append_nil] at hend
  | await o k ih =>
      have hfirst : ∀ {x : Ans o} {es : List (Made Op Ans)}, (∀ e ∈ es, P e.1) →
          ∀ e ∈ (⟨o, x⟩ : Made Op Ans) :: es, P e.1 := fun hes =>
        List.forall_mem_cons.mpr ⟨h.1, hes⟩
      refine ⟨hallowed made o h.1, fun x => ih x (h.2 x) (fun es hes a => ?_) fun es hes e => ?_⟩
      · rw [List.append_assoc]
        exact hpost (⟨o, x⟩ :: es) (hfirst hes) a
      · rw [List.append_assoc]
        exact hthrows (⟨o, x⟩ :: es) (hfirst hes) e

/-- What is left of a program after a trace obeys what the program obeyed. -/
theorem Obeys.of_trace {post : List (Made Op Ans) → α → Prop}
    {throws : List (Made Op Ans) → ε → Prop} {p q : Prog Op Ans ε α} {es : List (Made Op Ans)}
    (htrace : Trace p es q) (h : p.Obeys allowed post throws made) :
    q.Obeys allowed post throws (made ++ es) := by
  induction htrace generalizing made with
  | nil p => simpa using h
  | @cons o k q es x _ ih =>
      rw [List.append_cons]
      exact ih (h.2 x)

end Prog

/-- What is left of a call in a run obeys what its body obeys, after its own operations. -/
theorem Service.obeys_of_reachable {allowed : List (Made Op Ans) → Op → Prop}
    {post : List (Made Op Ans) → α → Prop} {throws : List (Made Op Ans) → ε → Prop} {r : Req}
    (hbody : (S.body r).Obeys allowed post throws []) {cfg : Config ι Req Op Ans ε α σ}
    (h : Transition.Reachable (S.system ι) cfg) {i : ι} {q : Prog Op Ans ε α}
    (hi : cfg.calls i = some ⟨r, q⟩) : q.Obeys allowed post throws (ownTrace i cfg.log) :=
  Prog.Obeys.of_trace ((Service.trace_of_reachable h i).1 r q hi).2 hbody

/-! ## Calls of a run -/

variable {track : γ → (o : Op) → Ans o → γ} {I : γ → Prop}

/-- The ghost state of a call in a run, and what is known of what is left of it. -/
theorem Service.keeps_of_reachable {post : γ → α → Prop} {throws : γ → ε → Prop} {g : γ} {r : Req}
    (hbody : (S.body r).Keeps track I post throws g) (hI : I g) {cfg : Config ι Req Op Ans ε α σ}
    (h : Transition.Reachable (S.system ι) cfg) {i : ι} {q : Prog Op Ans ε α}
    (hi : cfg.calls i = some ⟨r, q⟩) :
    I ((ownTrace i cfg.log).foldl (fun g e => track g e.1 e.2) g) ∧
      q.Keeps track I post throws ((ownTrace i cfg.log).foldl (fun g e => track g e.1 e.2) g) :=
  Prog.Keeps.of_trace ((Service.trace_of_reachable h i).1 r q hi).2 hbody hI

end Async
