import BpcProtocol.Durable.BoundScope

set_option autoImplicit false

/-! # What the scope of a durable transaction returns

The reactions that the queue has before the continuation of the body's `await` belong to queries
that were settled before the body had returned. So the counter, read by that continuation, tells
whether every query was. -/

namespace Durable

open Transition

namespace BoundScope

variable {E α : Type}

/-! ## The order of events -/

/-- One event has happened before another. -/
def Before (s : BoundScope E α) (e e' : ScopeEvent) : Prop :=
  [e, e'].Sublist s.log

theorem sublist_snoc {l : List ScopeEvent} {e e' x : ScopeEvent} :
    [e, e'].Sublist (l ++ [x]) ↔ [e, e'].Sublist l ∨ e ∈ l ∧ e' = x := by
  constructor
  · intro h
    obtain ⟨l₁, l₂, hsplit, h₁, h₂⟩ := List.sublist_append_iff.mp h
    rcases List.sublist_cons_iff.mp h₂ with hnil | ⟨r, rfl, hr⟩
    · rw [List.sublist_nil.mp hnil, List.append_nil] at hsplit
      exact Or.inl (hsplit ▸ h₁)
    · rw [List.sublist_nil.mp hr] at hsplit
      have hpair : [e] ++ [e'] = l₁ ++ [x] := hsplit
      obtain ⟨rfl, hx⟩ := List.append_inj' hpair rfl
      exact Or.inr ⟨List.singleton_sublist.mp h₁, (List.cons.inj hx).1⟩
  · rintro (h | ⟨hmem, rfl⟩)
    · exact h.trans (List.sublist_append_left l [x])
    · exact (List.singleton_sublist.mpr hmem).append (List.Sublist.refl [e'])

/-- What is in the queue before the continuation of the body's `await` was settled before the body,
    and so was, once the scope closes without a query in flight, every query. -/
structure Ordered (s : BoundScope E α) : Prop where
  waiting : .resume ∈ s.queue → ∀ i,
    i ∈ s.observed ∨ [Microtask.observe i, .resume].Sublist s.queue →
      ∃ b, s.Before (.settled i b) .bodySettled
  returned : s.closing = true → (∀ e, s.stage ≠ .ended (.error e)) →
    s.hadUnawaitedInFlight = false → ∀ i, s.queries i ≠ none →
      i ∈ s.observed ∧ ∃ b, s.Before (.settled i b) .bodySettled
  late : ∀ i, ¬s.Before .closing (.dispatched i)

section Ordered

variable {s t : BoundScope E α}

theorem microtasks_snoc {l : List Microtask} {m m' x : Microtask} (hne : m' ≠ x)
    (h : [m, m'].Sublist (l ++ [x])) : [m, m'].Sublist l := by
  obtain ⟨l₁, l₂, hsplit, h₁, h₂⟩ := List.sublist_append_iff.mp h
  rcases List.sublist_cons_iff.mp h₂ with hnil | ⟨r, rfl, hr⟩
  · rw [List.sublist_nil.mp hnil, List.append_nil] at hsplit
    exact hsplit ▸ h₁
  · rw [List.sublist_nil.mp hr] at hsplit
    have hpair : [m] ++ [m'] = l₁ ++ [x] := hsplit
    obtain ⟨-, hx⟩ := List.append_inj' hpair rfl
    exact absurd (List.cons.inj hx).1 hne

theorem Ordered.query (h : Ordered s) (hc : Consistent s) {i : ℕ} {threw : Bool}
    (ht : s.query i threw = .ok t) : Ordered t := by
  obtain ⟨hclosing, -, rfl⟩ := query_eq_ok.mp ht
  constructor
  · intro hresume j hj
    obtain ⟨b, hb⟩ := h.waiting hresume j hj
    exact ⟨b, sublist_snoc.mpr (Or.inl hb)⟩
  · intro hclosed
    have hnow : s.closing = true := hclosed
    rw [hclosing] at hnow
    cases hnow
  · intro j hlate
    rcases sublist_snoc.mp hlate with hlate | ⟨hmem, -⟩
    · exact h.late j hlate
    · rw [hc.closing, hclosing] at hmem
      cases hmem

theorem Ordered.settle (h : Ordered s) {i : ℕ} {result : Launched E} {b : Bool}
    (hi : s.queries i = some .running) : Ordered (s.settle i result b) := by
  have hkeep : ∀ {e e'}, s.Before e e' → (s.settle i result b).Before e e' := fun hb =>
    sublist_snoc.mpr (Or.inl hb)
  constructor
  · intro hresume j hj
    have hqueued : .resume ∈ s.queue := by simpa [BoundScope.settle] using hresume
    obtain ⟨b', hb'⟩ := h.waiting hqueued j (hj.imp id (microtasks_snoc (by simp)))
    exact ⟨b', hkeep hb'⟩
  · intro hclosed hopen hflag j hj
    have hlaunched : s.queries j ≠ none := by
      by_cases hji : j = i
      · subst hji
        simp [hi]
      · simpa [BoundScope.settle, hji] using hj
    obtain ⟨hobserved, b', hbefore⟩ := h.returned hclosed hopen hflag j hlaunched
    exact ⟨hobserved, b', hkeep hbefore⟩
  · intro j hlate
    rcases sublist_snoc.mp hlate with hlate | ⟨-, heq⟩
    · exact h.late j hlate
    · cases heq

theorem Ordered.bodySettles (h : Ordered s) (hc : Consistent s) {outcome : Except E α}
    (hbody : s.body = none) : Ordered (s.bodySettles outcome) := by
  constructor
  · rintro - i hi
    -- whatever was observed or queued so far was settled before
    have hsettled : ∃ b, .settled i b ∈ s.log := by
      rcases hi with hobserved | hqueued
      · exact hc.observed i hobserved
      · have hmem : .observe i ∈ s.queue ++ [.resume] :=
          hqueued.subset (List.mem_cons_self)
        have hobserve : .observe i ∈ s.queue := by simpa using hmem
        exact ((hc.queued i).mp hobserve).1
    obtain ⟨b, hb⟩ := hsettled
    exact ⟨b, sublist_snoc.mpr (Or.inr ⟨hb, rfl⟩)⟩
  · intro hclosed
    exact absurd (hc.unsettled hbody) (hc.stage.mp hclosed)
  · intro i hlate
    rcases sublist_snoc.mp hlate with hlate | ⟨-, heq⟩
    · exact h.late i hlate
    · cases heq

theorem Ordered.observe (h : Ordered s) {i : ℕ} {rest : List Microtask}
    (hqueue : s.queue = .observe i :: rest) :
    Ordered (({ s with queue := rest } : BoundScope E α).observe i) := by
  obtain ⟨seen, reason, heq, -⟩ := observe_eq { s with queue := rest } i
  rw [heq]
  constructor
  · intro hresume j hj
    have hqueued : .resume ∈ s.queue := by
      rw [hqueue]
      exact List.mem_cons_of_mem _ hresume
    refine h.waiting hqueued j ?_
    rcases hj with hobserved | hsublist
    · rcases List.mem_append.mp hobserved with hobserved | hobserved
      · exact Or.inl hobserved
      · rw [List.mem_singleton.mp hobserved, hqueue]
        exact Or.inr ((List.singleton_sublist.mpr hresume).cons_cons _)
    · rw [hqueue]
      exact Or.inr (hsublist.cons _)
  · intro hclosed hopen hflag j hj
    obtain ⟨hobserved, hbefore⟩ := h.returned hclosed hopen hflag j hj
    exact ⟨List.mem_append_left _ hobserved, hbefore⟩
  · exact h.late

/-- Where no query is in flight when the body has returned, every query was settled before. -/
theorem Ordered.resume (h : Ordered s) (hc : Consistent s) {rest : List Microtask}
    (hqueue : s.queue = .resume :: rest) :
    Ordered ({ s with queue := rest } : BoundScope E α).resume := by
  have hwaiting : .resume ∈ s.queue := by simp [hqueue]
  obtain ⟨hbody, hstage⟩ := hc.resuming.mp hwaiting
  have hnodup := hc.nodup
  rw [hqueue, List.nodup_cons] at hnodup
  obtain ⟨active, flag, stage, heq, hleft, hnot, hflag⟩ := resume_eq { s with queue := rest } hbody
  rw [heq]
  constructor
  · exact fun hresume => absurd hresume hnodup.1
  · intro _ hopen hfalse i hi
    have hpending : s.pending = 0 := by
      cases stage with
      | awaitingBody => exact absurd rfl hleft
      | ended outcome =>
          cases outcome with
          | ok result => exact absurd rfl (hnot result)
          | error e => exact absurd rfl (hopen e)
      | draining result =>
          have hcount := hflag result rfl
          rw [show flag = false from hfalse] at hcount
          have hzero : ¬s.pending > 0 := of_decide_eq_false hcount.symm
          omega
    obtain ⟨u, hcard, hu⟩ := hc.counted
    rw [hpending, Finset.card_eq_zero] at hcard
    have hobserved : i ∈ s.observed := by
      by_contra hunobserved
      have hmem := (hu i).mpr ⟨hi, hunobserved⟩
      rw [hcard] at hmem
      simp at hmem
    obtain ⟨b, hb⟩ := h.waiting hwaiting i (Or.inl hobserved)
    exact ⟨hobserved, b, sublist_snoc.mpr (Or.inl hb)⟩
  · intro i hlate
    rcases sublist_snoc.mp hlate with hlate | ⟨-, heq⟩
    · exact h.late i hlate
    · cases heq

theorem Ordered.drained (h : Ordered s) (hc : Consistent s) {text : Option E → String} {result : α}
    (hstage : s.stage = .draining result) : Ordered (s.drained text result) := by
  have hclosing : s.closing = true := hc.stage.mpr (by simp [hstage])
  exact ⟨h.waiting, fun _ _ => h.returned hclosing (by simp [hstage]), h.late⟩

theorem Ordered.step {text : Option E → String} {ms : ℕ} (h : Ordered s) (hc : Consistent s)
    (hstep : Step text ms s t) : Ordered t := by
  cases hstep with
  | query i threw hi ht => exact h.query hc ht
  | fulfil i hi => exact h.settle hi
  | reject i reason hi => exact h.settle hi
  | body outcome hbody => exact h.bodySettles hc hbody
  | microtask m rest hqueue =>
      cases m with
      | observe i => exact h.observe hqueue
      | resume => exact h.resume hc hqueue
  | drained result hstage _ => exact h.drained hc hstage
  | deadline _ => exact ⟨h.waiting, h.returned, h.late⟩
  | commit result _ _ => exact ⟨h.waiting, h.returned, h.late⟩
  | rollBack e _ => exact ⟨h.waiting, h.returned, h.late⟩

theorem ordered_start : Ordered (start : BoundScope E α) where
  waiting := fun hresume => by cases hresume
  returned := fun hclosed => by cases hclosed
  late := fun i hlate => by cases hlate

theorem ordered_of_reachable {text : Option E → String} {ms : ℕ}
    (h : Reachable (system text ms) s) : Ordered s := by
  refine Reachable.invariant (I := Ordered) ?_ ?_ h
  · rintro s rfl
    exact ordered_start
  · exact fun s t hreach hs hstep => hs.step (consistent_of_reachable hreach) hstep

end Ordered

/-! ## What a scope returns -/

/-- Of a scope that has returned every query was fulfilled before its body had returned; only then
    does the transaction commit, and the caller get a result. -/
structure Concluded (s : BoundScope E α) : Prop where
  returned : ∀ result, s.stage = .ended (.ok result) → ∀ i, s.queries i ≠ none →
    s.Before (.settled i true) .bodySettled
  committed : ∀ result, s.tx = .committed result → s.stage = .ended (.ok result)
  scope : ∀ result, s.scope = some (.ok result) → s.tx = .committed result

section Concluded

variable {s t : BoundScope E α}

/-- A step after which an ended scope is as it was, and has no new queries. -/
theorem Concluded.of_same (h : Concluded s) (hstage : t.stage = s.stage) (htx : t.tx = s.tx)
    (hscope : t.scope = s.scope)
    (hbefore : ∀ {e e'}, s.Before e e' → t.Before e e')
    (hqueries : ∀ i, s.closing = true → t.queries i ≠ none → s.queries i ≠ none)
    (hc : Consistent s) : Concluded t where
  returned := fun result hended i hi => by
    have hbefore' : s.stage = .ended (.ok result) := hstage ▸ hended
    have hclosing : s.closing = true := hc.stage.mpr (by simp [hbefore'])
    exact hbefore (h.returned result hbefore' i (hqueries i hclosing hi))
  committed := fun result hresult => hstage ▸ h.committed result (htx ▸ hresult)
  scope := fun result hresult => htx ▸ h.scope result (hscope ▸ hresult)

/-- A step from a scope that has not ended. -/
theorem Concluded.of_open (h : Concluded s) (hopen : ∀ outcome, s.stage ≠ .ended outcome)
    (htx : t.tx = s.tx) (hscope : t.scope = s.scope)
    (hreturned : ∀ result, t.stage = .ended (.ok result) → ∀ i, t.queries i ≠ none →
      t.Before (.settled i true) .bodySettled) : Concluded t where
  returned := hreturned
  committed := fun result hresult => absurd (h.committed result (htx ▸ hresult)) (hopen _)
  scope := fun result hresult => by
    have hcommitted := h.scope result (hscope ▸ hresult)
    exact absurd (h.committed result hcommitted) (hopen _)

theorem Concluded.drained (h : Concluded s) (hc : Consistent s) (ho : Ordered s)
    {text : Option E → String} {result : α} (hstage : s.stage = .draining result) :
    Concluded (s.drained text result) := by
  refine h.of_open (by simp [hstage]) rfl rfl fun result' hended i hi => ?_
  have houtcome : s.outcome text result = .ok result' := by
    simpa [BoundScope.drained] using hended
  have hclean : s.rejectionSeen = false ∧ s.hadUnawaitedInFlight = false := by
    unfold outcome at houtcome
    split at houtcome
    · cases houtcome
    · next hseen =>
        split at houtcome
        · cases houtcome
        · next hflag => exact ⟨by simpa using hseen, by simpa using hflag⟩
  have hclosing : s.closing = true := hc.stage.mpr (by simp [hstage])
  obtain ⟨hobserved, b, hb⟩ := ho.returned hclosing (by simp [hstage]) hclean.2 i hi
  cases b with
  | true => exact hb
  | false =>
      have hseen := hc.rejection i hobserved (hb.subset List.mem_cons_self)
      rw [hclean.1] at hseen
      cases hseen

theorem Concluded.step {text : Option E → String} {ms : ℕ} (h : Concluded s) (hc : Consistent s)
    (ho : Ordered s) (hstep : Step text ms s t) : Concluded t := by
  cases hstep with
  | query i threw hi ht =>
      obtain ⟨hclosing, -, rfl⟩ := query_eq_ok.mp ht
      refine h.of_same rfl rfl rfl (fun hb => sublist_snoc.mpr (Or.inl hb)) ?_ hc
      intro j hclosed
      rw [hclosing] at hclosed
      cases hclosed
  | fulfil i hi =>
      refine h.of_same rfl rfl rfl (fun hb => sublist_snoc.mpr (Or.inl hb)) (fun j _ hj => ?_) hc
      by_cases hji : j = i
      · simp [hji, hi]
      · simpa [BoundScope.settle, hji] using hj
  | reject i reason hi =>
      refine h.of_same rfl rfl rfl (fun hb => sublist_snoc.mpr (Or.inl hb)) (fun j _ hj => ?_) hc
      by_cases hji : j = i
      · simp [hji, hi]
      · simpa [BoundScope.settle, hji] using hj
  | body outcome hbody =>
      exact h.of_same rfl rfl rfl (fun hb => sublist_snoc.mpr (Or.inl hb)) (fun _ _ hi => hi) hc
  | microtask m rest hqueue =>
      cases m with
      | observe i =>
          obtain ⟨seen, reason, heq, -⟩ := observe_eq { s with queue := rest } i
          show Concluded (BoundScope.observe { s with queue := rest } i)
          rw [heq]
          exact h.of_same rfl rfl rfl id (fun _ _ hi => hi) hc
      | resume =>
          obtain ⟨hbody, hstage⟩ := hc.resuming.mp (by simp [hqueue])
          obtain ⟨active, flag, stage, heq, -, hnot, -⟩ :=
            resume_eq { s with queue := rest } hbody
          show Concluded (BoundScope.resume { s with queue := rest })
          rw [heq]
          exact h.of_open (by simp [hstage]) rfl rfl fun result hended => absurd hended (hnot result)
  | drained result hstage _ => exact h.drained hc ho hstage
  | deadline hnone =>
      exact ⟨h.returned, h.committed, fun result hresult => by cases hresult⟩
  | commit result hended hrunning =>
      refine ⟨h.returned, fun result' hcommitted => ?_, fun result' hresult => ?_⟩
      · cases hcommitted
        exact hended
      · cases hscope : s.scope with
        | none =>
            rw [hscope] at hresult
            cases hresult
            rfl
        | some outcome =>
            rw [hscope] at hresult
            have hbefore := h.scope result' (hscope.trans hresult)
            rw [hrunning] at hbefore
            cases hbefore
  | rollBack e hrunning =>
      refine ⟨h.returned, fun result hcommitted => (by cases hcommitted), fun result hresult => ?_⟩
      cases hscope : s.scope with
      | none =>
          rw [hscope] at hresult
          cases hresult
      | some outcome =>
          rw [hscope] at hresult
          have hbefore := h.scope result (hscope.trans hresult)
          rw [hrunning] at hbefore
          cases hbefore

theorem concluded_of_reachable {text : Option E → String} {ms : ℕ}
    (h : Reachable (system text ms) s) : Concluded s := by
  refine Reachable.invariant (I := Concluded) ?_ ?_ h
  · rintro s rfl
    exact ⟨fun _ hended => (by cases hended), fun _ hcommitted => (by cases hcommitted),
      fun _ hscope => (by cases hscope)⟩
  · exact fun s t hreach hs hstep =>
      hs.step (consistent_of_reachable hreach) (ordered_of_reachable hreach) hstep

/-- A query was rejected, or was not fulfilled before the body had returned. -/
def Spoiled (s : BoundScope E α) : Prop :=
  (∃ i, .settled i false ∈ s.log) ∨
    ∃ i, .dispatched i ∈ s.log ∧ .bodySettled ∈ s.log ∧ ¬s.Before (.settled i true) .bodySettled

/-- The body and the queries are settled, and the scope has nothing more to do. -/
def Quiescent (s : BoundScope E α) : Prop :=
  s.body ≠ none ∧ (∀ i, s.queries i ≠ some .running) ∧ s.queue = [] ∧
    ¬∃ result, s.stage = .draining result ∧ ∀ i ∈ s.settlements, i ∈ s.observed

theorem ended_of_quiescent (hc : Consistent s) (h : s.Quiescent) :
    ∃ outcome, s.stage = .ended outcome := by
  obtain ⟨hbody, hrunning, hqueue, hdrained⟩ := h
  cases hstage : s.stage with
  | ended outcome => exact ⟨outcome, rfl⟩
  | awaitingBody =>
      have hresume := hc.resuming.mpr ⟨hbody, hstage⟩
      rw [hqueue] at hresume
      cases hresume
  | draining result =>
      refine absurd ⟨result, hstage, fun i hi => ?_⟩ hdrained
      obtain ⟨hlaunched, hthrew⟩ := hc.retained i hi
      by_contra hunobserved
      have hsettled : ∃ b, .settled i b ∈ s.log := by
        obtain ⟨q, hq⟩ := Option.ne_none_iff_exists'.mp hlaunched
        have hof : ∀ b, q.settled = some b → ∃ b, .settled i b ∈ s.log := fun b hb =>
          ⟨b, (hc.settled i b).mpr (by rw [hq]; exact hb)⟩
        cases q with
        | threw => exact absurd hq hthrew
        | running => exact absurd hq (hrunning i)
        | fulfilled => exact hof true rfl
        | rejected e => exact hof false rfl
      have hqueued := (hc.queued i).mpr ⟨hsettled, hunobserved⟩
      rw [hqueue] at hqueued
      cases hqueued

/-- **The scope of a durable transaction.** If it returns, every query that was ever launched was
    fulfilled before its body had returned. No query is dispatched after the scope has begun to
    close. A query that was rejected, or was not settled in time, keeps the scope from returning and
    the transaction from committing: once everything is settled the scope has thrown, and before
    that the deadline can reject what its caller awaits. -/
theorem scope_integrity {text : Option E → String} {ms : ℕ} (h : Reachable (system text ms) s) :
    (∀ result, s.stage = .ended (.ok result) → ∀ i, .dispatched i ∈ s.log →
      s.Before (.settled i true) .bodySettled) ∧
    (∀ i, ¬s.Before .closing (.dispatched i)) ∧
    (s.Spoiled → (∀ result, s.stage ≠ .ended (.ok result)) ∧
      (∀ result, s.tx ≠ .committed result) ∧ (∀ result, s.scope ≠ some (.ok result)) ∧
      (s.Quiescent → ∃ e, s.stage = .ended (.error e)) ∧
      (s.scope = none → ∃ t, Step text ms s t ∧ t.scope = some (.error (deadlineError ms)))) := by
  have hc := consistent_of_reachable h
  have hconcluded := concluded_of_reachable h
  have hreturned : ∀ result, s.stage = .ended (.ok result) → ∀ i, .dispatched i ∈ s.log →
      s.Before (.settled i true) .bodySettled := fun result hended i hi =>
    hconcluded.returned result hended i ((hc.dispatched i).mp hi)
  refine ⟨hreturned, (ordered_of_reachable h).late, fun hspoiled => ?_⟩
  have hnot : ∀ result, s.stage ≠ .ended (.ok result) := by
    intro result hended
    rcases hspoiled with ⟨i, hrejected⟩ | ⟨i, hdispatched, -, hlate⟩
    · have hsettled := (hc.settled i false).mp hrejected
      have hlaunched : s.queries i ≠ none := fun hnone => by
        rw [hnone] at hsettled
        cases hsettled
      have hfulfilled := hconcluded.returned result hended i hlaunched
      have hsettled' := (hc.settled i true).mp (hfulfilled.subset List.mem_cons_self)
      rw [hsettled] at hsettled'
      cases hsettled'
    · exact hlate (hreturned result hended i hdispatched)
  have hopen : ∀ result, s.tx ≠ .committed result := fun result hcommitted =>
    hnot result (hconcluded.committed result hcommitted)
  refine ⟨hnot, hopen, fun result hscope => hopen result (hconcluded.scope result hscope),
    fun hquiescent => ?_, fun hnone => ⟨_, .deadline hnone, rfl⟩⟩
  obtain ⟨outcome, hended⟩ := ended_of_quiescent hc hquiescent
  cases outcome with
  | ok result => exact absurd hended (hnot result)
  | error e => exact ⟨e, hended⟩

end Concluded

/-! ## Two runs -/

/-- A query is launched. -/
def launchedScope : BoundScope ℕ ℕ :=
  { start with
    pending := 1
    queries := Function.update (fun _ => none) 0 (some .running)
    settlements := [0]
    log := [.dispatched 0] }

/-- The body awaits it and returns 7. -/
def awaitedScope : BoundScope ℕ ℕ :=
  let settled := launchedScope.settle 0 .fulfilled true
  let observed := ({ settled with queue := [] } : BoundScope ℕ ℕ).observe 0
  let returned := observed.bodySettles (.ok 7)
  ({ returned with queue := [] } : BoundScope ℕ ℕ).resume.drained (fun _ => "") 7

/-- The body returns 7 without awaiting it. -/
def unawaitedScope : BoundScope ℕ ℕ :=
  let returned := launchedScope.bodySettles (.ok 7)
  let closing := ({ returned with queue := [] } : BoundScope ℕ ℕ).resume
  let settled := closing.settle 0 .fulfilled true
  (({ settled with queue := [] } : BoundScope ℕ ℕ).observe 0).drained (fun _ => "") 7

theorem reachable_launched : Reachable (system (fun _ => "") 1000) launchedScope :=
  (Reachable.init rfl).next (Step.query 0 false rfl rfl)

theorem reachable_awaited : Reachable (system (fun _ => "") 1000) awaitedScope :=
  ((((reachable_launched.next (.fulfil 0 rfl)).next (.microtask (.observe 0) [] rfl)).next
    (.body (.ok 7) rfl)).next (.microtask .resume [] rfl)).next (.drained 7 rfl (by decide))

theorem reachable_unawaited : Reachable (system (fun _ => "") 1000) unawaitedScope :=
  ((((reachable_launched.next (.body (.ok 7) rfl)).next (.microtask .resume [] rfl)).next
    (.fulfil 0 rfl)).next (.microtask (.observe 0) [] rfl)).next (.drained 7 rfl (by decide))

theorem scope_integrity_sample :
    awaitedScope.Before (.settled 0 true) .bodySettled ∧
      ∀ result, unawaitedScope.stage ≠ .ended (.ok result) :=
  ⟨(scope_integrity reachable_awaited).1 7 rfl 0 (by decide),
    ((scope_integrity reachable_unawaited).2.2
      (Or.inr ⟨0, by decide, by decide, by unfold Before; decide⟩)).1⟩

end BoundScope

end Durable
