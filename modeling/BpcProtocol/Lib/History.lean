import BpcProtocol.Lib.EarlyReturn

set_option autoImplicit false

/-! # Programs and their past

What a program may do, told from what it has done: every operation it makes is one that its history
permits, and what it returns stands to its history as a postcondition says. Of a program that throws
nothing is said but that its operations were permitted. -/

namespace Async

variable {Op : Type} {Ans : Op → Type} {ε ρ α β : Type}
  {May : List (Made Op Ans) → Op → Prop} {h : List (Made Op Ans)}

namespace Prog

/-- Behind the history `h`, the program makes operations that `May` permits and returns an `a` with
    `Q` of the history by then. -/
def Follows (May : List (Made Op Ans) → Op → Prop) (Q : List (Made Op Ans) → α → Prop) :
    Prog Op Ans ε α → List (Made Op Ans) → Prop
  | ret a, h => Q h a
  | fail _, _ => True
  | await o k, h => May h o ∧ ∀ x, (k x).Follows May Q (h ++ [⟨o, x⟩])

variable {P Q : List (Made Op Ans) → α → Prop} {R : List (Made Op Ans) → β → Prop}

theorem Follows.mono {p : Prog Op Ans ε α} (hp : p.Follows May P h)
    (hPQ : ∀ h' a, h <+: h' → P h' a → Q h' a) : p.Follows May Q h := by
  induction p generalizing h with
  | ret a => exact hPQ h a List.prefix_rfl hp
  | fail e => trivial
  | await o k ih =>
      refine ⟨hp.1, fun x => ih x (hp.2 x) fun h' a hle => ?_⟩
      exact hPQ h' a ((List.prefix_append h _).trans hle)

/-- What follows a program is judged behind a history that has grown. -/
theorem Follows.bind {p : Prog Op Ans ε α} {f : α → Prog Op Ans ε β} (hp : p.Follows May P h)
    (hf : ∀ h' a, h <+: h' → P h' a → (f a).Follows May R h') : (p >>= f).Follows May R h := by
  induction p generalizing h with
  | ret a => exact hf h a List.prefix_rfl hp
  | fail e => trivial
  | await o k ih =>
      refine ⟨hp.1, fun x => ih x (hp.2 x) fun h' a hle => ?_⟩
      exact hf h' a ((List.prefix_append h _).trans hle)

theorem follows_perform {o : Op} {Q : List (Made Op Ans) → Ans o → Prop} (hmay : May h o)
    (hQ : ∀ x, Q (h ++ [⟨o, x⟩]) x) : (perform o : Prog Op Ans ε (Ans o)).Follows May Q h :=
  ⟨hmay, hQ⟩

theorem follows_lift {x : Except ε α} (hx : ∀ a, x = .ok a → Q h a) :
    (lift x : Prog Op Ans ε α).Follows May Q h := by
  cases x with
  | error e => trivial
  | ok a => exact hx a rfl

theorem follows_ite {c : Prop} [Decidable c] {p q : Prog Op Ans ε α} (hp : c → p.Follows May Q h)
    (hq : ¬c → q.Follows May Q h) : (if c then p else q).Follows May Q h := by
  split
  · next hc => exact hp hc
  · next hc => exact hq hc

theorem follows_elim (v : Option α) {p : Prog Op Ans ε β} {f : α → Prog Op Ans ε β}
    (hp : v = none → p.Follows May R h) (hf : ∀ a, v = some a → (f a).Follows May R h) :
    (v.elim p f).Follows May R h := by
  cases v with
  | none => exact hp rfl
  | some a => exact hf a rfl

end Prog

variable {p q : Prog Op Ans ε α} {Q : List (Made Op Ans) → α → Prop} {es : List (Made Op Ans)}

/-- What is left of a program follows the same rules. -/
theorem Trace.follows (htrace : Trace p es q) (hp : p.Follows May Q h) : q.Follows May Q (h ++ es) := by
  induction htrace generalizing h with
  | nil p => simpa using hp
  | cons x _ ih => simpa using ih (hp.2 x)

/-- Every operation of a trace was permitted when it was made. -/
theorem Trace.permitted (htrace : Trace p es q) (hp : p.Follows May Q h)
    {es₁ es₂ : List (Made Op Ans)} {e : Made Op Ans} (hes : es = es₁ ++ e :: es₂) :
    May (h ++ es₁) e.1 := by
  induction htrace generalizing h es₁ with
  | nil p => simp at hes
  | cons x _ ih =>
      cases es₁ with
      | nil =>
          obtain ⟨rfl, -⟩ := List.cons.inj hes
          simpa using hp.1
      | cons e' es₁ =>
          obtain ⟨rfl, hrest⟩ := List.cons.inj hes
          simpa using ih (hp.2 x) hrest

/-- What a trace returns satisfies the postcondition. -/
theorem Trace.returns {a : α} (htrace : Trace p es (.ret a)) (hp : p.Follows May Q h) :
    Q (h ++ es) a :=
  htrace.follows hp

theorem Prog.Follows.map {p : Prog Op Ans ε α} (hp : p.Follows May Q h) (f : α → β) :
    (f <$> p).Follows May (fun _ _ => True) h :=
  hp.bind fun _ _ _ _ => trivial

section Steps

variable {Req σ ι : Type} [DecidableEq ι] {S : Service Req Op Ans ε α σ}
  {cfg cfg' : Config ι Req Op Ans ε α σ}

/-- A call keeps its request. -/
theorem Service.Step.request (hstep : S.Step cfg cfg') {i : ι} {r : Req} {q : Prog Op Ans ε α}
    (hi : cfg.calls i = some ⟨r, q⟩) : ∃ q', cfg'.calls i = some ⟨r, q'⟩ := by
  cases hstep with
  | env s _ => exact ⟨q, hi⟩
  | start j r' _ hj =>
      have hne : i ≠ j := by
        rintro rfl
        rw [hi] at hj
        cases hj
      exact ⟨q, (Function.update_of_ne hne _ _).trans hi⟩
  | exec j r' o k x s hj _ =>
      by_cases hij : i = j
      · subst hij
        rw [hi, Option.some.injEq, Call.mk.injEq] at hj
        obtain ⟨rfl, -⟩ := hj
        exact ⟨k x, Function.update_self _ _ _⟩
      · exact ⟨q, (Function.update_of_ne hij _ _).trans hi⟩

theorem Service.Step.log (hstep : S.Step cfg cfg') : cfg.log <+: cfg'.log := by
  cases hstep with
  | start => exact List.prefix_rfl
  | env => exact List.prefix_rfl
  | exec => exact List.prefix_append _ _

theorem Service.Step.ownTrace (hstep : S.Step cfg cfg') (i : ι) :
    ownTrace i cfg.log <+: Async.ownTrace i cfg'.log := by
  obtain ⟨rest, hrest⟩ := hstep.log
  rw [← hrest, ownTrace_append]
  exact List.prefix_append _ _

/-- An operation of the log was made in a state that the run went through, with the log before it. -/
theorem Service.reachable_before (hreach : Transition.Reachable (S.system ι) cfg)
    {log₁ log₂ : List (Entry ι Op Ans σ)} {e : Entry ι Op Ans σ}
    (hlog : cfg.log = log₁ ++ e :: log₂) :
    ∃ before, Transition.Reachable (S.system ι) before ∧ Transition.Run (S.system ι) before cfg ∧
      before.log = log₁ ∧ before.shared = e.state := by
  induction hreach generalizing log₂ with
  | init hinit =>
      rw [hinit.2.2] at hlog
      cases log₁ <;> cases hlog
  | @next s t hs hstep ih =>
      have hcarry : ∀ rest, s.log = log₁ ++ e :: rest → ∃ before,
          Transition.Reachable (S.system ι) before ∧ Transition.Run (S.system ι) before t ∧
            before.log = log₁ ∧ before.shared = e.state := by
        intro rest hlog
        obtain ⟨before, hreach, hrun, hbefore⟩ := ih hlog
        exact ⟨before, hreach, hrun.tail hstep, hbefore⟩
      cases hstep with
      | start => exact hcarry _ hlog
      | env => exact hcarry _ hlog
      | exec i r o k x s' hi hx =>
          rcases List.eq_nil_or_concat log₂ with rfl | ⟨rest, last, rfl⟩
          · -- it is the operation of this step
            obtain ⟨rfl, heq⟩ := List.append_inj' hlog rfl
            obtain rfl := (List.cons.inj heq).1
            exact ⟨s, hs, .single (.exec i r o k x s' hi hx), rfl, rfl⟩
          · rw [List.concat_eq_append] at hlog
            have hsplit : s.log ++ [⟨i, ⟨o, x⟩, s.shared⟩] = (log₁ ++ e :: rest) ++ [last] := by
              simpa using hlog
            exact hcarry rest (List.append_inj' hsplit rfl).1

end Steps

/-- The rule for runs: every operation that a call has made was permitted by its own history. -/
theorem Service.permitted_of_reachable {Req σ ι : Type} [DecidableEq ι]
    {S : Service Req Op Ans ε α σ} {cfg : Config ι Req Op Ans ε α σ}
    (hreach : Transition.Reachable (S.system ι) cfg) {i : ι} {r : Req} {q : Prog Op Ans ε α}
    (hi : cfg.calls i = some ⟨r, q⟩) (hbody : (S.body r).Follows May Q [])
    {log₁ log₂ : List (Entry ι Op Ans σ)} {e : Entry ι Op Ans σ}
    (hlog : cfg.log = log₁ ++ e :: log₂) (he : e.call = i) : May (ownTrace i log₁) e.made.1 := by
  obtain ⟨-, htrace⟩ := (Service.trace_of_reachable hreach i).1 r q hi
  have hown : ownTrace i cfg.log = ownTrace i log₁ ++ e.made :: ownTrace i log₂ := by
    rw [hlog, ownTrace_append, ← List.singleton_append, ownTrace_append, ownTrace_singleton,
      if_pos he]
    rfl
  simpa using htrace.permitted hbody hown

/-- Every operation of the log is one that the admitted programs use. -/
theorem Service.uses_of_mem_log {Req σ ι : Type} [DecidableEq ι] {S : Service Req Op Ans ε α σ}
    {P : Op → Prop} (huses : ∀ r, S.admits r → (S.body r).Uses P) {cfg : Config ι Req Op Ans ε α σ}
    (hreach : Transition.Reachable (S.system ι) cfg) {e : Entry ι Op Ans σ} (he : e ∈ cfg.log) :
    P e.made.1 := by
  have hown := mem_ownTrace he rfl
  obtain ⟨hcall, hnone⟩ := Service.trace_of_reachable hreach e.call
  cases hc : cfg.calls e.call with
  | none =>
      rw [hnone hc] at hown
      cases hown
  | some call =>
      obtain ⟨hadm, htrace⟩ := hcall call.req call.rest hc
      exact (htrace.uses (huses call.req hadm)).1 e.made hown

/-! ## What the operations do -/

section Runs

variable {σ : Type} {exec : σ → (o : Op) → Ans o → σ → Prop} {s t : σ}

/-- The operations, made one after another, take the state from `s` to `t`. -/
inductive Runs (exec : σ → (o : Op) → Ans o → σ → Prop) : σ → List (Made Op Ans) → σ → Prop
  | nil (s : σ) : Runs exec s [] s
  | cons {s t u : σ} {o : Op} {x : Ans o} {es : List (Made Op Ans)} :
      exec s o x t → Runs exec t es u → Runs exec s (⟨o, x⟩ :: es) u

/-- An operation of a run was made in some state. -/
theorem Runs.exec_of_mem (hrun : Runs exec s es t) {e : Made Op Ans} (he : e ∈ es) :
    ∃ u v, exec u e.1 e.2 v := by
  induction hrun with
  | nil s => cases he
  | cons hexec _ ih =>
      rcases List.mem_cons.mp he with rfl | he
      · exact ⟨_, _, hexec⟩
      · exact ih he

/-- What every operation relates, the run relates. -/
theorem Runs.relates {R : σ → σ → Prop} (hrun : Runs exec s es t) (hrefl : ∀ s, R s s)
    (htrans : ∀ s t u, R s t → R t u → R s u)
    (hstep : ∀ e ∈ es, ∀ s t, exec s e.1 e.2 t → R s t) : R s t := by
  induction hrun with
  | nil s => exact hrefl s
  | @cons s t u o x es hexec _ ih =>
      refine htrans s t u (hstep ⟨o, x⟩ List.mem_cons_self s t hexec) (ih fun e he => ?_)
      exact hstep e (List.mem_cons_of_mem _ he)

/-- A state that the run has changed, one of its operations has changed. -/
theorem Runs.exists_change {τ : Type} {f : σ → τ} (hrun : Runs exec s es t) (hne : f t ≠ f s) :
    ∃ es₁ e es₂ u v, es = es₁ ++ e :: es₂ ∧ exec u e.1 e.2 v ∧ f v ≠ f u := by
  induction hrun with
  | nil s => exact absurd rfl hne
  | @cons s t u o x es hexec _ ih =>
      by_cases hsame : f t = f s
      · obtain ⟨es₁, e, es₂, v, w, hes, hchange⟩ := ih (hsame ▸ hne)
        exact ⟨⟨o, x⟩ :: es₁, e, es₂, v, w, by rw [hes]; rfl, hchange⟩
      · exact ⟨[], ⟨o, x⟩, es, s, t, rfl, hexec, hsame⟩

/-- A program that is driven makes a trace and a run, which the log tells of. -/
theorem Prog.runs_drive {ι : Type} {run : σ → (o : Op) → Ans o × σ}
    (hexec : ∀ s o, exec s o (run s o).1 (run s o).2) (p : Prog Op Ans ε α) (s : σ) (i : ι)
    (log : List (Entry ι Op Ans σ)) :
    ∃ es, Trace p es (p.drive run i s log).1 ∧ Runs exec s es (p.drive run i s log).2.1 ∧
      (p.drive run i s log).2.2.map Entry.made = log.map Entry.made ++ es := by
  induction p generalizing s log with
  | ret a => exact ⟨[], .nil _, .nil s, by simp [drive]⟩
  | fail e => exact ⟨[], .nil _, .nil s, by simp [drive]⟩
  | await o k ih =>
      obtain ⟨es, htrace, hrun, hlog⟩ := ih (run s o).1 (run s o).2 (log ++ [⟨i, ⟨o, (run s o).1⟩, s⟩])
      refine ⟨⟨o, (run s o).1⟩ :: es, .cons _ htrace, .cons (hexec s o) hrun, ?_⟩
      simpa [drive] using hlog

end Runs

/-! ## Runs that have ended -/

section Ended

variable {x : Except ε α} {y : Except ε β}

theorem trace_lift {x' : Except ε α} :
    Trace (Prog.lift x : Prog Op Ans ε α) es (Prog.lift x') ↔ es = [] ∧ x' = x := by
  cases x with
  | ok a => cases x' <;> simp [Prog.lift, trace_ret]
  | error e => cases x' <;> simp [Prog.lift, trace_fail]

theorem trace_await_lift {o : Op} {k : Ans o → Prog Op Ans ε α} :
    Trace (.await o k) es (Prog.lift x) ↔
      ∃ a es', es = ⟨o, a⟩ :: es' ∧ Trace (k a) es' (Prog.lift x) := by
  constructor
  · intro h
    generalize hq : (Prog.lift x : Prog Op Ans ε α) = q at h
    cases h with
    | nil => cases x <;> cases hq
    | cons a hrest => exact ⟨a, _, rfl, hq ▸ hrest⟩
  · rintro ⟨a, es', rfl, hrest⟩
    exact .cons a hrest

theorem trace_fail_lift {e : ε} :
    Trace (.fail e : Prog Op Ans ε α) es (Prog.lift x) ↔ es = [] ∧ x = .error e :=
  trace_lift (x := .error e)

end Ended

section Steps

variable {Req σ ι : Type} [DecidableEq ι] {S : Service Req Op Ans ε α σ}
  {cfg : Config ι Req Op Ans ε α σ} {i : ι} {r : Req} {o : Op} {k : Ans o → Prog Op Ans ε α}
  {x : Ans o} {s : σ}

/-- A call makes its next operation. -/
theorem Service.run_next (hi : cfg.calls i = some ⟨r, .await o k⟩) (hx : S.exec cfg.shared o x s) :
    Transition.Run (S.system ι) cfg
      { shared := s
        calls := Function.update cfg.calls i (some ⟨r, k x⟩)
        log := cfg.log ++ [⟨i, ⟨o, x⟩, cfg.shared⟩] } :=
  Relation.ReflTransGen.single (Service.Step.exec i r o k x s hi hx)

/-- A call starts, and makes its first operation. -/
theorem Service.run_first (hadm : S.admits r) (hi : cfg.calls i = none)
    (hbody : S.body r = .await o k) (hx : S.exec cfg.shared o x s) :
    Transition.Run (S.system ι) cfg
      { shared := s
        calls := Function.update cfg.calls i (some ⟨r, k x⟩)
        log := cfg.log ++ [⟨i, ⟨o, x⟩, cfg.shared⟩] } := by
  have hstart : S.Step cfg { cfg with calls := Function.update cfg.calls i (some ⟨r, S.body r⟩) } :=
    .start i r hadm hi
  rw [hbody] at hstart
  have hnext : Transition.Run (S.system ι)
      { cfg with calls := Function.update cfg.calls i (some ⟨r, .await o k⟩) } _ :=
    Service.run_next (Function.update_self i _ _) hx
  simp only [Function.update_idem] at hnext
  exact (Relation.ReflTransGen.single hstart).trans hnext

end Steps

/-- The calls that have been served are those that there were, and those that were to be served. -/
theorem Service.request_of_serveAll {Req σ : Type} {S : Service Req Op Ans ε α σ}
    {run : σ → (o : Op) → Ans o × σ} {cfg : Config ℕ Req Op Ans ε α σ} {n i : ℕ} {rs : List Req}
    {r : Req} {q : Prog Op Ans ε α} (hi : (S.serveAll run cfg n rs).calls i = some ⟨r, q⟩) :
    cfg.calls i = some ⟨r, q⟩ ∨ r ∈ rs := by
  induction rs generalizing cfg n with
  | nil => exact .inl hi
  | cons r' rest ih =>
      rcases ih hi with hserved | hmem
      · by_cases heq : i = n
        · subst heq
          have hcall := (Function.update_self i _ cfg.calls).symm.trans hserved
          rw [Option.some.injEq, Call.mk.injEq] at hcall
          exact .inr (hcall.1 ▸ List.mem_cons_self)
        · rw [Service.serve_of_ne heq] at hserved
          exact .inl hserved
      · exact .inr (List.mem_cons_of_mem r' hmem)

/-! ## Stages -/

namespace Stage

/-- The stage makes permitted operations; it goes on with an `a` that satisfies `Q` or returns an `r`
    that satisfies `R`. -/
def Follows (May : List (Made Op Ans) → Op → Prop) (Q : List (Made Op Ans) → α → Prop)
    (R : List (Made Op Ans) → ρ → Prop) (s : Stage Op Ans ε ρ α) (h : List (Made Op Ans)) : Prop :=
  (ExceptT.run s).Follows May (fun h' x => (∀ a, x = .ok a → Q h' a) ∧ ∀ r, x = .error r → R h' r) h

variable {R : List (Made Op Ans) → ρ → Prop}

theorem Follows.mono {P Q : List (Made Op Ans) → α → Prop} {R R' : List (Made Op Ans) → ρ → Prop}
    {s : Stage Op Ans ε ρ α} (hs : Follows May P R s h) (hPQ : ∀ h' a, h <+: h' → P h' a → Q h' a)
    (hR : ∀ h' r, h <+: h' → R h' r → R' h' r) : Follows May Q R' s h :=
  Prog.Follows.mono hs fun h' _ hle hx =>
    ⟨fun a ha => hPQ h' a hle (hx.1 a ha), fun r hr => hR h' r hle (hx.2 r hr)⟩

/-- What a stage returns may be told by less. -/
theorem Follows.exits_mono {P : List (Made Op Ans) → α → Prop} {R R' : List (Made Op Ans) → ρ → Prop}
    {s : Stage Op Ans ε ρ α} (hs : Follows May P R s h) (hR : ∀ h' r, R h' r → R' h' r) :
    Follows May P R' s h :=
  hs.mono (fun _ _ _ ha => ha) fun h' r _ hr => hR h' r hr

theorem Follows.bind {P : List (Made Op Ans) → α → Prop} {Q : List (Made Op Ans) → β → Prop}
    {s : Stage Op Ans ε ρ α} {f : α → Stage Op Ans ε ρ β} (hs : Follows May P R s h)
    (hf : ∀ h' a, h <+: h' → P h' a → Follows May Q R (f a) h') : Follows May Q R (s >>= f) h := by
  unfold Follows
  rw [run_bind]
  refine Prog.Follows.bind hs fun h' x hle hx => ?_
  cases x with
  | ok a => exact hf h' a hle (hx.1 a rfl)
  | error r =>
      constructor
      · intro a ha
        cases ha
      · intro r' hr
        cases hr
        exact hx.2 r rfl

variable {Q : List (Made Op Ans) → α → Prop}

theorem follows_pure {a : α} (ha : Q h a) : Follows May Q R (pure a : Stage Op Ans ε ρ α) h := by
  constructor
  · intro b hb
    cases hb
    exact ha
  · intro r hr
    cases hr

theorem follows_await {p : Prog Op Ans ε α} (hp : p.Follows May Q h) :
    Follows May Q R (await p : Stage Op Ans ε ρ α) h := by
  refine Prog.Follows.bind hp fun h' a _ ha => ?_
  constructor
  · intro b hb
    cases hb
    exact ha
  · intro r hr
    cases hr

theorem follows_exit {p : Prog Op Ans ε ρ} (hp : p.Follows May R h) :
    Follows May Q R (exit p : Stage Op Ans ε ρ α) h := by
  refine Prog.Follows.bind hp fun h' r _ hr => ?_
  constructor
  · intro b hb
    cases hb
  · intro r' hr'
    cases hr'
    exact hr

theorem follows_exitIf {c : Prop} [Decidable c] {p : Prog Op Ans ε ρ} (hp : c → p.Follows May R h) :
    Follows May (fun h' _ => h' = h ∧ ¬c) R (exitIf c p) h := by
  unfold exitIf
  split
  · next hc => exact follows_exit (hp hc)
  · next hc => exact follows_pure ⟨rfl, hc⟩

theorem follows_toProg {R : List (Made Op Ans) → ρ → Prop} {s : Stage Op Ans ε ρ ρ}
    (hs : Follows May R R s h) : s.toProg.Follows May R h := by
  refine Prog.Follows.bind hs fun h' x _ hx => ?_
  cases x with
  | ok r => exact hx.1 r rfl
  | error r => exact hx.2 r rfl

/-- What a stage goes on with, and what it returns, satisfy the postconditions. -/
theorem Passes.follows {s : Stage Op Ans ε ρ α} {a : α} (hpass : Passes s es a)
    (hs : Follows May Q R s h) : Q (h ++ es) a :=
  (Trace.returns hpass hs).1 a rfl

theorem Exits.follows {s : Stage Op Ans ε ρ α} {r : ρ} (hexit : Exits s es r)
    (hs : Follows May Q R s h) : R (h ++ es) r :=
  (Trace.returns hexit hs).2 r rfl

end Stage

end Async
