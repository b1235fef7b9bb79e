import BpcProtocol.Lib.Transition
import Mathlib.Data.Finset.Card
import Mathlib.Data.List.Sublists
import Mathlib.Logic.Function.Basic

set_option autoImplicit false

/-! # The scope of a durable transaction

`withBoundTx` hands its body an executor that counts the queries it launches and retains how each of
them is settled. The body may await them or not, catch what they throw, and keep the executor. The
reactions to settled promises and the continuation of the body's `await` are taken from one queue, in
the order in which they came; the body's own code, and the queries, may come between any two of
them. -/

namespace Durable

open Transition

/-! ## State -/

/-- A query that was launched: what `exec.query` threw at once, or its promise. `E` is what queries
    and bodies throw. -/
inductive Launched (E : Type) where
  | threw
  | running
  | fulfilled
  | rejected (reason : E)

/-- How its promise is settled, if it is. -/
def Launched.settled {E : Type} : Launched E → Option Bool
  | threw | running => none
  | fulfilled => some true
  | rejected _ => some false

/-- What the queue of microtasks has for the scope. -/
inductive Microtask where
  /-- A reaction of `p.then(…)`, of a query. -/
  | observe (query : ℕ)
  /-- What follows `await body(tx, scoped)`. -/
  | resume
  deriving DecidableEq

/-- What a scope throws. -/
inductive ScopeError (E : Type) where
  | contractValidation (message : String)
  | thrown (e : E)

/-- Where `withBoundTx` stands. -/
inductive Stage (E α : Type) where
  | awaitingBody
  /-- `await Promise.allSettled(settlements)`, with what the body returned. -/
  | draining (result : α)
  | ended (outcome : Except (ScopeError E) α)

/-- What has happened, for the order of it. -/
inductive ScopeEvent where
  /-- `exec.query(sql, params)` was called. -/
  | dispatched (query : ℕ)
  | settled (query : ℕ) (fulfilled : Bool)
  | bodySettled
  /-- `closing` was set. -/
  | closing
  deriving DecidableEq

/-- The transaction around the scope. -/
inductive SurroundingTx (α : Type) where
  | running
  | committed (result : α)
  | rolledBack

/-- A scope, its queries, and what is around it. -/
structure BoundScope (E α : Type) where
  closing : Bool
  /-- `TX_STATE.has(tx)`. -/
  active : Bool
  rejectionSeen : Bool
  firstRejection : Option E
  pending : ℕ
  /-- The promises of `settlements`, by their queries. -/
  settlements : List ℕ
  hadUnawaitedInFlight : Bool
  stage : Stage E α
  queries : ℕ → Option (Launched E)
  /-- The queries whose promise in `settlements` is fulfilled. -/
  observed : List ℕ
  /-- How the body's promise is settled. -/
  body : Option (Except E α)
  queue : List Microtask
  tx : SurroundingTx α
  /-- How the promise of `runScoped` is settled. -/
  scope : Option (Except (ScopeError E) α)
  log : List ScopeEvent

namespace BoundScope

variable {E α : Type}

/-! ## The code -/

/-- `scoped.query(sql, params)`: refused, or launched as the query `i`; `exec.query` may throw. -/
def query (s : BoundScope E α) (i : ℕ) (threw : Bool) : Except (ScopeError E) (BoundScope E α) :=
  if s.closing = true ∨ s.active = false then
    .error (.contractValidation "DurableTx query issued outside its active transaction scope")
  else
    .ok { s with
      pending := s.pending + 1
      queries := Function.update s.queries i (some (if threw then .threw else .running))
      settlements := if threw then s.settlements else s.settlements ++ [i]
      log := s.log ++ [.dispatched i] }

/-- The promise of a query is settled; whoever reacts to it is queued. -/
def settle (s : BoundScope E α) (i : ℕ) (result : Launched E) (fulfilled : Bool) : BoundScope E α :=
  { s with
    queries := Function.update s.queries i (some result)
    queue := s.queue ++ [.observe i]
    log := s.log ++ [.settled i fulfilled] }

/-- The promise of the body is settled. -/
def bodySettles (s : BoundScope E α) (outcome : Except E α) : BoundScope E α :=
  { s with
    body := some outcome
    queue := s.queue ++ [.resume]
    log := s.log ++ [.bodySettled] }

/-- The reactions to a settled query: `pending--`, and the first rejection is kept. -/
def observe (s : BoundScope E α) (i : ℕ) : BoundScope E α :=
  let seen := { s with pending := s.pending - 1, observed := s.observed ++ [i] }
  match s.queries i with
  | some (.rejected reason) =>
      if s.rejectionSeen then seen
      else { seen with rejectionSeen := true, firstRejection := some reason }
  | _ => seen

/-- What follows `await body(tx, scoped)`, up to the next `await`. What the body throws goes through
    the `finally`. -/
def resume (s : BoundScope E α) : BoundScope E α :=
  match s.body with
  | some (.ok result) =>
      { s with
        closing := true
        hadUnawaitedInFlight := decide (s.pending > 0)
        stage := .draining result
        log := s.log ++ [.closing] }
  | some (.error e) =>
      { s with
        closing := true
        active := false
        stage := .ended (.error (.thrown e))
        log := s.log ++ [.closing] }
  | none => s

/-- What the scope comes to when its queries are drained; `text` is
    `String(reason?.message ?? reason)`. -/
def outcome (text : Option E → String) (s : BoundScope E α) (result : α) :
    Except (ScopeError E) α :=
  if s.rejectionSeen then
    .error (.contractValidation
      ("a query launched in this DurableTx scope rejected — rolling back: " ++
        text s.firstRejection))
  else if s.hadUnawaitedInFlight then
    .error (.contractValidation
      "DurableTx scope ended with unawaited in-flight queries — rolling back")
  else .ok result

/-- What follows `await Promise.allSettled(settlements)`, with the `finally`. -/
def drained (text : Option E → String) (s : BoundScope E α) (result : α) : BoundScope E α :=
  { s with
    closing := true
    active := false
    stage := .ended (s.outcome text result) }

def run (s : BoundScope E α) : Microtask → BoundScope E α
  | .observe i => s.observe i
  | .resume => s.resume

/-- The deadline of `runScoped`. -/
def deadlineError (ms : ℕ) : ScopeError E :=
  .contractValidation ("transaction scope deadline exceeded (" ++ toString ms ++ "ms) — aborting; " ++
    "the transactor must cancel the in-flight query and discard this connection")

/-! ## What may happen -/

/-- One step of the scope, of its body or its queries, or of what is around it. A query that is
    refused changes nothing. A transactor commits only what the callback has returned, and may roll
    back at any time; should it begin again, that has a scope of its own. -/
inductive Step (text : Option E → String) (ms : ℕ) : BoundScope E α → BoundScope E α → Prop
  | query {s t : BoundScope E α} (i : ℕ) (threw : Bool) : s.queries i = none →
      s.query i threw = .ok t → Step text ms s t
  | fulfil {s : BoundScope E α} (i : ℕ) : s.queries i = some .running →
      Step text ms s (s.settle i .fulfilled true)
  | reject {s : BoundScope E α} (i : ℕ) (reason : E) : s.queries i = some .running →
      Step text ms s (s.settle i (.rejected reason) false)
  | body {s : BoundScope E α} (outcome : Except E α) : s.body = none →
      Step text ms s (s.bodySettles outcome)
  | microtask {s : BoundScope E α} (m : Microtask) (rest : List Microtask) : s.queue = m :: rest →
      Step text ms s ({ s with queue := rest }.run m)
  | drained {s : BoundScope E α} (result : α) : s.stage = .draining result →
      (∀ i ∈ s.settlements, i ∈ s.observed) → Step text ms s (s.drained text result)
  | deadline {s : BoundScope E α} : s.scope = none →
      Step text ms s { s with scope := some (.error (deadlineError ms)) }
  | commit {s : BoundScope E α} (result : α) : s.stage = .ended (.ok result) → s.tx = .running →
      Step text ms s
        { s with tx := .committed result, scope := s.scope.or (some (.ok result)) }
  | rollBack {s : BoundScope E α} (e : ScopeError E) : s.tx = .running →
      Step text ms s { s with tx := .rolledBack, scope := s.scope.or (some (.error e)) }

/-- `body(tx, scoped)` is called. -/
def start : BoundScope E α where
  closing := false
  active := true
  rejectionSeen := false
  firstRejection := none
  pending := 0
  settlements := []
  hadUnawaitedInFlight := false
  stage := .awaitingBody
  queries _ := none
  observed := []
  body := none
  queue := []
  tx := .running
  scope := none
  log := []

/-- The runs of a scope. -/
def system (text : Option E → String) (ms : ℕ) : System (BoundScope E α) where
  init s := s = start
  next := Step text ms

/-! ## Promises and the queue -/

/-- The state of the queries, the queue and the counter agree. -/
structure Consistent (s : BoundScope E α) : Prop where
  dispatched : ∀ i, .dispatched i ∈ s.log ↔ s.queries i ≠ none
  settled : ∀ i b, .settled i b ∈ s.log ↔ (s.queries i).bind Launched.settled = some b
  retained : ∀ i ∈ s.settlements, s.queries i ≠ none ∧ s.queries i ≠ some .threw
  queued : ∀ i, .observe i ∈ s.queue ↔ (∃ b, .settled i b ∈ s.log) ∧ i ∉ s.observed
  observed : ∀ i ∈ s.observed, ∃ b, .settled i b ∈ s.log
  nodup : s.queue.Nodup
  /-- The counter is the number of launched queries that were not observed. -/
  counted : ∃ u : Finset ℕ, u.card = s.pending ∧
    ∀ i, i ∈ u ↔ s.queries i ≠ none ∧ i ∉ s.observed
  rejection : ∀ i ∈ s.observed, .settled i false ∈ s.log → s.rejectionSeen = true
  resuming : .resume ∈ s.queue ↔ s.body ≠ none ∧ s.stage = .awaitingBody
  closing : .closing ∈ s.log ↔ s.closing = true
  stage : s.closing = true ↔ s.stage ≠ .awaitingBody
  unsettled : s.body = none → s.stage = .awaitingBody

section Consistent

variable {s t : BoundScope E α}

theorem query_eq_ok {i : ℕ} {threw : Bool} :
    s.query i threw = .ok t ↔ s.closing = false ∧ s.active = true ∧ t =
      { s with
        pending := s.pending + 1
        queries := Function.update s.queries i (some (if threw then .threw else .running))
        settlements := if threw then s.settlements else s.settlements ++ [i]
        log := s.log ++ [.dispatched i] } := by
  unfold query
  split
  · next h =>
      refine ⟨fun hok => (by cases hok), ?_⟩
      rintro ⟨hclosing, hactive, -⟩
      rcases h with h | h
      · rw [hclosing] at h
        cases h
      · rw [hactive] at h
        cases h
  · next h =>
      rw [not_or, Bool.not_eq_true, Bool.not_eq_false] at h
      rw [Except.ok.injEq]
      exact ⟨fun hok => ⟨h.1, h.2, hok.symm⟩, fun hok => hok.2.2.symm⟩

theorem Consistent.not_settled (h : Consistent s) {i : ℕ} {b : Bool}
    (hi : (s.queries i).bind Launched.settled = none) : .settled i b ∉ s.log := by
  rw [h.settled, hi]
  simp

theorem Consistent.query (h : Consistent s) {i : ℕ} {threw : Bool} (hi : s.queries i = none)
    (ht : s.query i threw = .ok t) : Consistent t := by
  obtain ⟨hclosing, -, rfl⟩ := query_eq_ok.mp ht
  have hnew : (some (if threw then Launched.threw else .running) : Option (Launched E)) ≠ none := by
    simp
  have hnone : ∀ b, .settled i b ∉ s.log := fun b => h.not_settled (by rw [hi]; rfl)
  have hunobserved : i ∉ s.observed := fun hmem => by
    obtain ⟨b, hb⟩ := h.observed i hmem
    exact hnone b hb
  constructor
  · intro j
    by_cases hj : j = i
    · subst hj
      simp
    · simp [h.dispatched j, hj]
  · intro j b
    by_cases hj : j = i
    · subst hj
      have hsettled : (some (if threw then Launched.threw else .running) :
          Option (Launched E)).bind Launched.settled = none := by cases threw <;> rfl
      simp [hnone b, hsettled]
    · simp [h.settled j b, hj]
  · intro j hj
    by_cases hji : j = i
    · subst hji
      cases threw with
      | false => simp
      | true =>
          have hmem : j ∈ s.settlements := hj
          exact absurd hi (h.retained j hmem).1
    · have hmem : j ∈ s.settlements := by
        cases threw with
        | true => exact hj
        | false => simpa [hji] using hj
      simpa [hji] using h.retained j hmem
  · exact fun j => by simp [h.queued j]
  · intro j hj
    obtain ⟨b, hb⟩ := h.observed j hj
    exact ⟨b, List.mem_append_left _ hb⟩
  · exact h.nodup
  · obtain ⟨u, hcard, hu⟩ := h.counted
    have hfresh : i ∉ u := fun hmem => ((hu i).mp hmem).1 hi
    refine ⟨insert i u, by rw [Finset.card_insert_of_notMem hfresh, hcard], fun j => ?_⟩
    by_cases hj : j = i
    · subst hj
      simp [hunobserved]
    · simp [hj, hu j]
  · exact fun j hj hb => h.rejection j hj (by simpa using hb)
  · exact h.resuming
  · simp [h.closing]
  · exact h.stage
  · exact h.unsettled

/-- A running query is settled. -/
theorem Consistent.settle (h : Consistent s) {i : ℕ} {result : Launched E} {b : Bool}
    (hi : s.queries i = some .running) (hresult : result.settled = some b) :
    Consistent (s.settle i result b) := by
  have hnone : ∀ b, .settled i b ∉ s.log := fun b => h.not_settled (by rw [hi]; rfl)
  have hunobserved : i ∉ s.observed := fun hmem => by
    obtain ⟨b, hb⟩ := h.observed i hmem
    exact hnone b hb
  have hunqueued : .observe i ∉ s.queue := fun hmem => by
    obtain ⟨⟨b, hb⟩, -⟩ := (h.queued i).mp hmem
    exact hnone b hb
  constructor
  · intro j
    by_cases hj : j = i
    · subst hj
      simp [BoundScope.settle, h.dispatched j, hi]
    · simp [BoundScope.settle, h.dispatched j, hj]
  · intro j b'
    by_cases hj : j = i
    · subst hj
      simp [BoundScope.settle, hnone b', hresult, eq_comm]
    · simp [BoundScope.settle, h.settled j b', hj]
  · intro j hj
    by_cases hji : j = i
    · subst hji
      have hthrew : result ≠ .threw := by
        rintro rfl
        cases hresult
      simp [BoundScope.settle, hthrew]
    · simpa [BoundScope.settle, hji] using h.retained j hj
  · intro j
    by_cases hj : j = i
    · subst hj
      simp [BoundScope.settle, hunobserved]
    · simp [BoundScope.settle, h.queued j, hj]
  · intro j hj
    obtain ⟨b', hb'⟩ := h.observed j hj
    exact ⟨b', List.mem_append_left _ hb'⟩
  · exact h.nodup.append (List.nodup_singleton _) (by simpa using hunqueued)
  · obtain ⟨u, hcard, hu⟩ := h.counted
    refine ⟨u, hcard, fun j => ?_⟩
    by_cases hj : j = i
    · subst hj
      simp [BoundScope.settle, hu j, hi]
    · simp [BoundScope.settle, hu j, hj]
  · intro j hj hb
    rcases List.mem_append.mp hb with hb | hb
    · exact h.rejection j hj hb
    · obtain ⟨rfl, -⟩ := ScopeEvent.settled.inj (List.mem_singleton.mp hb)
      exact absurd hj hunobserved
  · simp [BoundScope.settle, h.resuming]
  · simp [BoundScope.settle, h.closing]
  · exact h.stage
  · exact h.unsettled

theorem Consistent.bodySettles (h : Consistent s) {outcome : Except E α} (hbody : s.body = none) :
    Consistent (s.bodySettles outcome) := by
  have hstage := h.unsettled hbody
  have hunqueued : .resume ∉ s.queue := fun hmem => (h.resuming.mp hmem).1 hbody
  constructor
  · exact fun i => by simp [BoundScope.bodySettles, h.dispatched i]
  · exact fun i b => by simp [BoundScope.bodySettles, h.settled i b]
  · exact h.retained
  · exact fun i => by simp [BoundScope.bodySettles, h.queued i]
  · intro i hi
    obtain ⟨b, hb⟩ := h.observed i hi
    exact ⟨b, List.mem_append_left _ hb⟩
  · exact h.nodup.append (List.nodup_singleton _) (by simpa using hunqueued)
  · exact h.counted
  · exact fun i hi hb => h.rejection i hi (by simpa [BoundScope.bodySettles] using hb)
  · simp [BoundScope.bodySettles, hstage]
  · simp [BoundScope.bodySettles, h.closing]
  · exact h.stage
  · exact fun hnone => (by cases hnone)

/-- What the reactions to a settled query change. -/
theorem observe_eq (s : BoundScope E α) (i : ℕ) :
    ∃ seen reason, s.observe i =
        { s with
          pending := s.pending - 1, observed := s.observed ++ [i]
          rejectionSeen := seen, firstRejection := reason } ∧
      (seen = true ↔ s.rejectionSeen = true ∨ ∃ e, s.queries i = some (.rejected e)) := by
  unfold observe
  split
  · next reason hreason =>
      split
      · next hseen => exact ⟨s.rejectionSeen, s.firstRejection, rfl, by simp [hseen]⟩
      · exact ⟨true, some reason, rfl, by simp [hreason]⟩
  · next hother =>
      exact ⟨s.rejectionSeen, s.firstRejection, rfl,
        Or.inl, fun h => h.elim id fun ⟨e, he⟩ => absurd he (hother e)⟩

theorem Consistent.observe (h : Consistent s) {i : ℕ} {rest : List Microtask}
    (hqueue : s.queue = .observe i :: rest) :
    Consistent (({ s with queue := rest } : BoundScope E α).observe i) := by
  obtain ⟨⟨b, hb⟩, hunobserved⟩ := (h.queued i).mp (by simp [hqueue])
  have hnodup := h.nodup
  rw [hqueue, List.nodup_cons] at hnodup
  obtain ⟨seen, reason, heq, hseen⟩ := observe_eq { s with queue := rest } i
  rw [heq]
  constructor
  · exact h.dispatched
  · exact h.settled
  · exact h.retained
  · intro j
    have hj := h.queued j
    rw [hqueue, List.mem_cons] at hj
    show .observe j ∈ rest ↔ _ ∧ j ∉ s.observed ++ [i]
    by_cases hji : j = i
    · subst hji
      simp [hnodup.1]
    · simpa [hji] using hj
  · intro j hj
    rcases List.mem_append.mp hj with hj | hj
    · exact h.observed j hj
    · rw [List.mem_singleton.mp hj]
      exact ⟨b, hb⟩
  · exact hnodup.2
  · obtain ⟨u, hcard, hu⟩ := h.counted
    have hlaunched : s.queries i ≠ none := fun hnone => by
      have hsettled := (h.settled i b).mp hb
      rw [hnone] at hsettled
      cases hsettled
    have hmem : i ∈ u := (hu i).mpr ⟨hlaunched, hunobserved⟩
    refine ⟨u.erase i, by rw [Finset.card_erase_of_mem hmem, hcard], fun j => ?_⟩
    by_cases hji : j = i
    · subst hji
      simp
    · simp [hji, hu j]
  · intro j hj hrejected
    refine hseen.mpr ?_
    rcases List.mem_append.mp hj with hj | hj
    · exact Or.inl (h.rejection j hj hrejected)
    · obtain rfl := List.mem_singleton.mp hj
      obtain ⟨q, hq, hfalse⟩ := Option.bind_eq_some_iff.mp ((h.settled j false).mp hrejected)
      cases q with
      | rejected e => exact Or.inr ⟨e, hq⟩
      | _ => cases hfalse
  · have hresuming := h.resuming
    rw [hqueue, List.mem_cons] at hresuming
    simpa using hresuming
  · exact h.closing
  · exact h.stage
  · exact h.unsettled

/-- What follows `await body(tx, scoped)` sets `closing` and leaves the first `await`. -/
theorem resume_eq (s : BoundScope E α) (hbody : s.body ≠ none) :
    ∃ active flag stage, s.resume =
        { s with
          closing := true, active := active, hadUnawaitedInFlight := flag, stage := stage
          log := s.log ++ [.closing] } ∧ stage ≠ .awaitingBody ∧
      (∀ result, stage ≠ .ended (.ok result)) ∧
      ∀ result, stage = .draining result → flag = decide (s.pending > 0) := by
  unfold resume
  split
  · next result _ => exact ⟨s.active, _, .draining result, rfl, by simp, by simp, fun _ _ => rfl⟩
  · next e _ => exact ⟨false, s.hadUnawaitedInFlight, _, rfl, by simp, by simp, by simp⟩
  · next hnone => exact absurd hnone hbody

theorem Consistent.resume (h : Consistent s) {rest : List Microtask}
    (hqueue : s.queue = .resume :: rest) :
    Consistent ({ s with queue := rest } : BoundScope E α).resume := by
  obtain ⟨hbody, hstage⟩ := h.resuming.mp (by simp [hqueue])
  have hnodup := h.nodup
  rw [hqueue, List.nodup_cons] at hnodup
  obtain ⟨active, flag, stage, heq, hleft, -, -⟩ := resume_eq { s with queue := rest } hbody
  rw [heq]
  constructor
  · exact fun i => by simp [h.dispatched i]
  · exact fun i b => by simp [h.settled i b]
  · exact h.retained
  · intro i
    have hi := h.queued i
    rw [hqueue, List.mem_cons] at hi
    simpa using hi
  · intro i hi
    obtain ⟨b, hb⟩ := h.observed i hi
    exact ⟨b, List.mem_append_left _ hb⟩
  · exact hnodup.2
  · exact h.counted
  · exact fun i hi hb => h.rejection i hi (by simpa using hb)
  · exact ⟨fun hmem => absurd hmem hnodup.1, fun hwaiting => absurd hwaiting.2 hleft⟩
  · simp
  · simp [hleft]
  · exact fun hnone => absurd hnone hbody

theorem Consistent.drained (h : Consistent s) {text : Option E → String} {result : α}
    (hstage : s.stage = .draining result) : Consistent (s.drained text result) := by
  have hclosing : s.closing = true := h.stage.mpr (by simp [hstage])
  have hbody : s.body ≠ none := fun hnone => by
    have hwaiting := h.unsettled hnone
    rw [hstage] at hwaiting
    cases hwaiting
  refine ⟨h.dispatched, h.settled, h.retained, h.queued, h.observed, h.nodup, h.counted,
    h.rejection, ?_, ?_, ?_, fun hnone => absurd hnone hbody⟩
  · have hresuming := h.resuming
    rw [hstage] at hresuming
    simpa [BoundScope.drained] using hresuming
  · exact h.closing.trans ⟨fun _ => rfl, fun _ => hclosing⟩
  · simp [BoundScope.drained]

/-- **Every step keeps the queries, the queue and the counter in agreement.** -/
theorem Consistent.step {text : Option E → String} {ms : ℕ} (h : Consistent s)
    (hstep : Step text ms s t) : Consistent t := by
  cases hstep with
  | query i threw hi ht => exact h.query hi ht
  | fulfil i hi => exact h.settle hi rfl
  | reject i reason hi => exact h.settle hi rfl
  | body outcome hbody => exact h.bodySettles hbody
  | microtask m rest hqueue =>
      cases m with
      | observe i => exact h.observe hqueue
      | resume => exact h.resume hqueue
  | drained result hstage _ => exact h.drained hstage
  | deadline _ =>
      exact ⟨h.dispatched, h.settled, h.retained, h.queued, h.observed, h.nodup, h.counted,
        h.rejection, h.resuming, h.closing, h.stage, h.unsettled⟩
  | commit result _ _ =>
      exact ⟨h.dispatched, h.settled, h.retained, h.queued, h.observed, h.nodup, h.counted,
        h.rejection, h.resuming, h.closing, h.stage, h.unsettled⟩
  | rollBack e _ =>
      exact ⟨h.dispatched, h.settled, h.retained, h.queued, h.observed, h.nodup, h.counted,
        h.rejection, h.resuming, h.closing, h.stage, h.unsettled⟩

theorem consistent_start : Consistent (start : BoundScope E α) := by
  refine ⟨?_, ?_, ?_, ?_, ?_, List.nodup_nil, ⟨∅, rfl, ?_⟩, ?_, ?_, ?_, ?_, fun _ => rfl⟩
  all_goals simp [start]

theorem consistent_of_reachable {text : Option E → String} {ms : ℕ}
    (h : Reachable (system text ms) s) : Consistent s := by
  refine Reachable.invariant (I := Consistent) ?_ ?_ h
  · rintro s rfl
    exact consistent_start
  · exact fun s t _ hs hstep => hs.step hstep

end Consistent

end BoundScope

end Durable
