import BpcProtocol.Pair.Types
import Mathlib.Data.List.Induction

set_option autoImplicit false

/-! # The replication queue

A `ReplicatingPairStore` queues what it has written and one drainer pushes the head of the queue to
the replica. The code between two awaits is one step: `enqueue` behind its sequence number, the
drainer behind a push, the drainer behind its sleep. -/

namespace Replication

open Pair

/-- `ReplicaOp`. -/
inductive ReplicaOp where
  | set (pair : StoredPair)
  | delete (pairId : JsString)
  | setPending (token : JsString) (registration : PairRegistration) (requestedAt : JsNumber)
  | deletePending (token : JsString)

/-- An entry of the queue. The ticket is the identity of the object: every call of `enqueue` makes a
    new one. -/
structure Queued where
  ticket : ℕ
  sequence : ℕ
  op : ReplicaOp

/-- Where `drain` waits: it has returned, it awaits a push, or it awaits the backoff. -/
inductive Drainer where
  | idle
  | pushing (queued : Queued)
  | sleeping

/-- The fields of a `ReplicatingPairStore` that its queue needs. -/
structure ReplicationQueue where
  queue : List Queued
  drainer : Drainer
  attempt : ℕ

namespace ReplicationQueue

def empty : ReplicationQueue where
  queue := []
  drainer := .idle
  attempt := 0

variable (q : ReplicationQueue)

/-- The loop of `drain` from its head to the next await. -/
def loop : ReplicationQueue :=
  match q.queue with
  | [] => { q with drainer := .idle }
  | queued :: _ => { q with drainer := .pushing queued }

/-- `drain()`: there is one drainer. -/
def drain : ReplicationQueue :=
  match q.drainer with
  | .idle => q.loop
  | _ => q

/-- What `enqueue` sheds: the oldest entry of a full queue. -/
def shed (maxQueue : ℕ) : List Queued :=
  if maxQueue ≤ q.queue.length then q.queue.take 1 else []

/-- What `enqueue` leaves of the queue. -/
def kept (maxQueue : ℕ) : List Queued :=
  if maxQueue ≤ q.queue.length then q.queue.drop 1 else q.queue

/-- `enqueue` behind `sequenceSource.next()`. -/
def enqueue (maxQueue : ℕ) (queued : Queued) : ReplicationQueue :=
  drain { q with queue := q.kept maxQueue ++ [queued] }

/-- `drain` behind a push that resolved to `ok`. -/
def settle (ok : Bool) : ReplicationQueue :=
  if ok = true then loop { q with queue := q.queue.drop 1, attempt := 0 }
  else { q with attempt := q.attempt + 1, drainer := .sleeping }

/-- `drain` behind a push that rejected, because `onPush` threw. -/
def reject : ReplicationQueue :=
  { q with drainer := .idle }

@[simp]
theorem queue_loop : q.loop.queue = q.queue := by
  unfold loop
  split <;> rfl

@[simp]
theorem queue_drain : q.drain.queue = q.queue := by
  unfold drain
  split
  · exact queue_loop q
  · rfl

@[simp]
theorem queue_enqueue (maxQueue : ℕ) (queued : Queued) :
    (q.enqueue maxQueue queued).queue = q.kept maxQueue ++ [queued] := by
  simp [enqueue]

@[simp]
theorem queue_settle (ok : Bool) :
    (q.settle ok).queue = if ok = true then q.queue.drop 1 else q.queue := by
  unfold settle
  split <;> simp

/-- The loop pushes the head of the queue. -/
theorem loop_pushing {queued : Queued} (h : q.loop.drainer = .pushing queued) :
    q.queue.head? = some queued := by
  unfold loop at h
  split at h
  · cases h
  · next hq =>
      cases h
      rw [hq]
      rfl

theorem shed_append_kept (maxQueue : ℕ) : q.shed maxQueue ++ q.kept maxQueue = q.queue := by
  unfold shed kept
  split
  · exact List.take_append_drop 1 q.queue
  · rfl

theorem mem_kept {maxQueue : ℕ} {queued : Queued} (h : queued ∈ q.kept maxQueue) :
    queued ∈ q.queue := by
  rw [← q.shed_append_kept maxQueue]
  exact List.mem_append_right _ h

theorem mem_shed {maxQueue : ℕ} {queued : Queued} (h : queued ∈ q.shed maxQueue) :
    queued ∈ q.queue := by
  rw [← q.shed_append_kept maxQueue]
  exact List.mem_append_left _ h

end ReplicationQueue

/-! ## What becomes of the entries -/

/-- The queue with its past: the entries that were queued, those that a successful push has
    acknowledged, and those that `onDrop` has reported. -/
structure QueueHistory where
  state : ReplicationQueue
  enqueued : List Queued
  acknowledged : List Queued
  dropped : List Queued

/-- What may happen next. -/
inductive QueueEvent where
  | enqueue (sequence : ℕ) (op : ReplicaOp)
  | settle (ok : Bool)
  | reject
  | wake

namespace QueueHistory

def empty : QueueHistory where
  state := .empty
  enqueued := []
  acknowledged := []
  dropped := []

variable (h : QueueHistory)

/-- The entry that the next call of `enqueue` makes. -/
def fresh (sequence : ℕ) (op : ReplicaOp) : Queued where
  ticket := h.enqueued.length
  sequence
  op

def enqueue (maxQueue : ℕ) (sequence : ℕ) (op : ReplicaOp) : QueueHistory where
  state := h.state.enqueue maxQueue (h.fresh sequence op)
  enqueued := h.enqueued ++ [h.fresh sequence op]
  acknowledged := h.acknowledged
  dropped := h.dropped ++ h.state.shed maxQueue

def settle (queued : Queued) (ok : Bool) : QueueHistory :=
  { h with
    state := h.state.settle ok
    acknowledged := h.acknowledged ++ if ok = true then [queued] else [] }

/-- One step, `none` where the drainer does not wait for the event. -/
def step (maxQueue : ℕ) (e : QueueEvent) : Option QueueHistory :=
  match e, h.state.drainer with
  | .enqueue sequence op, _ => some (h.enqueue maxQueue sequence op)
  | .settle ok, .pushing queued => some (h.settle queued ok)
  | .reject, .pushing _ => some { h with state := h.state.reject }
  | .wake, .sleeping => some { h with state := h.state.loop }
  | _, _ => none

/-- The state behind a run from the empty queue. -/
def run (maxQueue : ℕ) (events : List QueueEvent) : Option QueueHistory :=
  events.foldlM (fun h e => step h maxQueue e) empty

/-- No entry is lost silently. -/
def NoSilentLoss : Prop :=
  ∀ queued ∈ h.enqueued,
    queued ∈ h.state.queue ∨ queued ∈ h.acknowledged ∨ queued ∈ h.dropped

/-- When a push succeeds, the entry that was pushed is still the head of the queue: it was not shed
    while it was in flight. -/
def HeadInFlight (e : QueueEvent) : Prop :=
  ∀ queued, e = .settle true → h.state.drainer = .pushing queued → h.state.queue.head? = some queued

/-- What a step does. -/
inductive Effect (maxQueue : ℕ) : QueueHistory → QueueEvent → QueueHistory → Prop
  | enqueue {h : QueueHistory} (sequence : ℕ) (op : ReplicaOp) :
      Effect maxQueue h (.enqueue sequence op) (h.enqueue maxQueue sequence op)
  | settle {h : QueueHistory} {queued : Queued} (ok : Bool) :
      h.state.drainer = .pushing queued → Effect maxQueue h (.settle ok) (h.settle queued ok)
  | reject {h : QueueHistory} : Effect maxQueue h .reject { h with state := h.state.reject }
  | wake {h : QueueHistory} : Effect maxQueue h .wake { h with state := h.state.loop }

theorem step_effect {maxQueue : ℕ} {h t : QueueHistory} {e : QueueEvent}
    (hstep : h.step maxQueue e = some t) : Effect maxQueue h e t := by
  unfold step at hstep
  split at hstep
  · cases hstep
    exact .enqueue _ _
  · next hpush =>
      cases hstep
      exact .settle _ hpush
  · cases hstep
    exact .reject
  · cases hstep
    exact .wake
  · cases hstep

/-! ## No silent loss while the head is in flight -/

theorem Effect.noSilentLoss {maxQueue : ℕ} {h t : QueueHistory} {e : QueueEvent}
    (heffect : Effect maxQueue h e t) (hloss : h.NoSilentLoss) (hhead : h.HeadInFlight e) :
    t.NoSilentLoss := by
  cases heffect with
  | enqueue sequence op =>
      intro queued hqueued
      simp only [QueueHistory.enqueue, ReplicationQueue.queue_enqueue, List.mem_append,
        List.mem_singleton] at hqueued ⊢
      rcases hqueued with hold | hnew
      · rcases hloss queued hold with hin | hack | hdrop
        · rw [← h.state.shed_append_kept maxQueue, List.mem_append] at hin
          rcases hin with hshed | hkept
          · exact .inr (.inr (.inr hshed))
          · exact .inl (.inl hkept)
        · exact .inr (.inl hack)
        · exact .inr (.inr (.inl hdrop))
      · exact .inl (.inr hnew)
  | @settle pushed ok hpush =>
      intro queued hqueued
      simp only [QueueHistory.settle, ReplicationQueue.queue_settle, List.mem_append] at hqueued ⊢
      by_cases hok : ok = true
      · subst hok
        -- what leaves the queue is what was pushed
        obtain ⟨rest, hrest⟩ := List.head?_eq_some_iff.mp (hhead pushed rfl hpush)
        rcases hloss queued hqueued with hin | hack | hdrop
        · rw [hrest] at hin ⊢
          rcases List.mem_cons.mp hin with rfl | hin
          · exact .inr (.inl (.inr (by simp)))
          · exact .inl (by simpa using hin)
        · exact .inr (.inl (.inl hack))
        · exact .inr (.inr hdrop)
      · rcases hloss queued hqueued with hin | hack | hdrop
        · exact .inl (by rwa [if_neg hok])
        · exact .inr (.inl (.inl hack))
        · exact .inr (.inr hdrop)
  | reject => exact hloss
  | wake =>
      intro queued hqueued
      simpa using hloss queued hqueued

/-! ## A loss when it is not -/

/-- Every entry is at one place, and the entry in flight is the head of the queue or shed. -/
structure Inv (h : QueueHistory) : Prop where
  ticket : ∀ queued ∈ h.enqueued, queued.ticket < h.enqueued.length
  nodup : h.state.queue.Nodup
  queue : ∀ queued ∈ h.state.queue, queued ∈ h.enqueued
  gone : ∀ queued ∈ h.acknowledged ++ h.dropped, queued ∈ h.enqueued ∧ queued ∉ h.state.queue
  flight : ∀ queued, h.state.drainer = .pushing queued → h.state.queue ≠ [] ∧
    queued ∈ h.enqueued ∧ (h.state.queue.head? = some queued ∨ queued ∉ h.state.queue)

theorem inv_empty : Inv empty where
  ticket := by simp [empty]
  nodup := by simp [empty, ReplicationQueue.empty]
  queue := by simp [empty, ReplicationQueue.empty]
  gone := by simp [empty]
  flight := by simp [empty, ReplicationQueue.empty]

theorem Inv.fresh_not_mem {h : QueueHistory} (hinv : Inv h) (sequence : ℕ) (op : ReplicaOp) :
    h.fresh sequence op ∉ h.enqueued := by
  intro hmem
  exact Nat.lt_irrefl _ (hinv.ticket _ hmem)

/-- An entry that the loop pushes is the head of the queue. -/
theorem flight_of_loop {q : ReplicationQueue} {queued : Queued} {enqueued : List Queued}
    (hsub : ∀ e ∈ q.queue, e ∈ enqueued) (hpush : q.loop.drainer = .pushing queued) :
    q.loop.queue ≠ [] ∧ queued ∈ enqueued ∧
      (q.loop.queue.head? = some queued ∨ queued ∉ q.loop.queue) := by
  have hhead := q.loop_pushing hpush
  rw [q.queue_loop]
  refine ⟨?_, hsub _ (List.mem_of_mem_head? hhead), .inl hhead⟩
  intro hnil
  rw [hnil] at hhead
  cases hhead

/-- Shedding takes the head, so it leaves the entry in flight at the head or takes it away. -/
theorem flight_of_shed {q : ReplicationQueue} {maxQueue : ℕ} {queued new : Queued}
    (hnodup : q.queue.Nodup) (hnew : queued ≠ new)
    (h : q.queue.head? = some queued ∨ queued ∉ q.queue) :
    (q.kept maxQueue ++ [new]).head? = some queued ∨ queued ∉ q.kept maxQueue ++ [new] := by
  rcases h with hhead | hout
  · obtain ⟨rest, hrest⟩ := List.head?_eq_some_iff.mp hhead
    unfold ReplicationQueue.kept
    split
    · right
      rw [hrest] at hnodup ⊢
      simpa [hnew] using (List.nodup_cons.mp hnodup).1
    · left
      simp [hrest]
  · right
    intro hmem
    rcases List.mem_append.mp hmem with hmem | hmem
    · exact hout (q.mem_kept hmem)
    · exact hnew (List.mem_singleton.mp hmem)

theorem Inv.enqueue {h : QueueHistory} (hinv : Inv h) (maxQueue sequence : ℕ) (op : ReplicaOp) :
    Inv (h.enqueue maxQueue sequence op) := by
  have hfresh := hinv.fresh_not_mem sequence op
  have hsub : ∀ e ∈ h.state.kept maxQueue ++ [h.fresh sequence op],
      e ∈ h.enqueued ++ [h.fresh sequence op] := by
    intro e he
    rcases List.mem_append.mp he with he | he
    · exact List.mem_append_left _ (hinv.queue e (h.state.mem_kept he))
    · exact List.mem_append_right _ he
  have hparts : (h.state.shed maxQueue ++ h.state.kept maxQueue).Nodup := by
    rw [h.state.shed_append_kept maxQueue]
    exact hinv.nodup
  have hnodup := List.nodup_append.mp hparts
  constructor
  · intro e he
    simp only [QueueHistory.enqueue, List.mem_append, List.mem_singleton, List.length_append,
      List.length_singleton] at he ⊢
    rcases he with he | rfl
    · exact Nat.lt_succ_of_lt (hinv.ticket e he)
    · exact Nat.lt_succ_self _
  · simp only [QueueHistory.enqueue, ReplicationQueue.queue_enqueue]
    refine List.nodup_append.mpr ⟨hnodup.2.1, List.nodup_singleton _, ?_⟩
    intro e he e' he' heq
    rw [List.mem_singleton.mp he'] at heq
    exact hfresh (heq ▸ hinv.queue e (h.state.mem_kept he))
  · simpa only [QueueHistory.enqueue, ReplicationQueue.queue_enqueue] using hsub
  · intro e he
    simp only [QueueHistory.enqueue, ReplicationQueue.queue_enqueue] at he ⊢
    rw [← List.append_assoc, List.mem_append] at he
    rcases he with he | he
    · obtain ⟨hin, hout⟩ := hinv.gone e he
      refine ⟨List.mem_append_left _ hin, ?_⟩
      intro hmem
      rcases List.mem_append.mp hmem with hmem | hmem
      · exact hout (h.state.mem_kept hmem)
      · exact hfresh (List.mem_singleton.mp hmem ▸ hin)
    · have hin := hinv.queue e (h.state.mem_shed he)
      refine ⟨List.mem_append_left _ hin, ?_⟩
      intro hmem
      rcases List.mem_append.mp hmem with hmem | hmem
      · exact hnodup.2.2 e he e hmem rfl
      · exact hfresh (List.mem_singleton.mp hmem ▸ hin)
  · intro pushed hpush
    simp only [QueueHistory.enqueue, ReplicationQueue.enqueue] at hpush ⊢
    unfold ReplicationQueue.drain at hpush ⊢
    split at hpush
    · exact flight_of_loop hsub hpush
    · obtain ⟨-, hin, hplace⟩ := hinv.flight pushed hpush
      refine ⟨by simp, List.mem_append_left _ hin, ?_⟩
      exact flight_of_shed hinv.nodup (fun heq => hfresh (heq ▸ hin)) hplace

theorem Inv.settle {h : QueueHistory} (hinv : Inv h) {pushed : Queued} (ok : Bool)
    (hpush : h.state.drainer = .pushing pushed) : Inv (h.settle pushed ok) := by
  obtain ⟨-, hin, hplace⟩ := hinv.flight pushed hpush
  by_cases hok : ok = true
  · subst hok
    have hdrop : ∀ e, e ∈ h.state.queue.drop 1 → e ∈ h.state.queue :=
      fun e he => List.mem_of_mem_drop he
    constructor
    · exact hinv.ticket
    · simpa [QueueHistory.settle] using hinv.nodup.sublist (List.drop_sublist 1 _)
    · intro e he
      exact hinv.queue e (hdrop e (by simpa [QueueHistory.settle] using he))
    · intro e he
      simp only [QueueHistory.settle, ReplicationQueue.queue_settle, if_true, List.mem_append,
        List.mem_singleton] at he ⊢
      rcases he with (he | rfl) | he
      · obtain ⟨hin, hout⟩ := hinv.gone e (List.mem_append_left _ he)
        exact ⟨hin, fun hmem => hout (hdrop e hmem)⟩
      · refine ⟨hin, ?_⟩
        rcases hplace with hhead | hout
        · obtain ⟨rest, hrest⟩ := List.head?_eq_some_iff.mp hhead
          have hnodup := hinv.nodup
          rw [hrest] at hnodup ⊢
          exact (List.nodup_cons.mp hnodup).1
        · exact fun hmem => hout (hdrop _ hmem)
      · obtain ⟨hin, hout⟩ := hinv.gone e (List.mem_append_right _ he)
        exact ⟨hin, fun hmem => hout (hdrop e hmem)⟩
    · intro next hnext
      exact flight_of_loop (fun e he => hinv.queue e (hdrop e he)) hnext
  · constructor
    · exact hinv.ticket
    · simpa [QueueHistory.settle, hok] using hinv.nodup
    · simpa [QueueHistory.settle, hok] using hinv.queue
    · simpa [QueueHistory.settle, hok] using hinv.gone
    · intro next hnext
      simp [QueueHistory.settle, ReplicationQueue.settle, hok] at hnext

theorem Effect.inv {maxQueue : ℕ} {h t : QueueHistory} {e : QueueEvent}
    (heffect : Effect maxQueue h e t) (hinv : Inv h) : Inv t := by
  cases heffect with
  | enqueue sequence op => exact hinv.enqueue maxQueue sequence op
  | settle ok hpush => exact hinv.settle ok hpush
  | reject => exact ⟨hinv.ticket, hinv.nodup, hinv.queue, hinv.gone, by
      simp [ReplicationQueue.reject]⟩
  | wake =>
      constructor
      · exact hinv.ticket
      · simpa using hinv.nodup
      · simpa using hinv.queue
      · simpa using hinv.gone
      · intro pushed hpush
        exact flight_of_loop hinv.queue hpush

/-- A push that succeeds for an entry that was shed takes the next entry with it. -/
theorem Inv.loss_of_shed {h : QueueHistory} (hinv : Inv h) {pushed : Queued}
    (hpush : h.state.drainer = .pushing pushed) (hhead : h.state.queue.head? ≠ some pushed) :
    ¬(h.settle pushed true).NoSilentLoss := by
  obtain ⟨hne, -, hplace⟩ := hinv.flight pushed hpush
  obtain ⟨next, rest, hqueue⟩ := List.exists_cons_of_ne_nil hne
  have hmem : next ∈ h.state.queue := by simp [hqueue]
  have hout : pushed ∉ h.state.queue := hplace.resolve_left hhead
  have hnodup := hinv.nodup
  rw [hqueue] at hnodup
  intro hloss
  have hnext := hloss next (hinv.queue next hmem)
  simp only [QueueHistory.settle, ReplicationQueue.queue_settle, if_true, List.mem_append,
    List.mem_singleton] at hnext
  rcases hnext with hin | (hack | rfl) | hdrop
  · rw [hqueue] at hin
    exact (List.nodup_cons.mp hnodup).1 hin
  · exact (hinv.gone next (List.mem_append_left _ hack)).2 hmem
  · exact hout hmem
  · exact (hinv.gone next (List.mem_append_right _ hdrop)).2 hmem

/-! ## Runs -/

theorem run_concat (maxQueue : ℕ) (events : List QueueEvent) (e : QueueEvent) :
    run maxQueue (events ++ [e]) = (run maxQueue events).bind fun h => h.step maxQueue e := by
  unfold run
  rw [List.foldlM_append]
  cases List.foldlM (fun h e => step h maxQueue e) empty events with
  | none => rfl
  | some h => simp

theorem inv_of_run {maxQueue : ℕ} {events : List QueueEvent} {h : QueueHistory}
    (hrun : run maxQueue events = some h) : Inv h := by
  induction events using List.reverseRecOn generalizing h with
  | nil =>
      cases hrun
      exact inv_empty
  | append_singleton events e ih =>
      rw [run_concat, Option.bind_eq_some_iff] at hrun
      obtain ⟨s, hs, hstep⟩ := hrun
      exact (step_effect hstep).inv (ih hs)

/-- Nothing is lost silently at any moment of a run. -/
def AlwaysAccounted (maxQueue : ℕ) (events : List QueueEvent) : Prop :=
  ∀ pre, pre <+: events → ∀ h, run maxQueue pre = some h → h.NoSilentLoss

/-- Whenever a push of the run succeeds, its entry is still the head of the queue. -/
def AlwaysHead (maxQueue : ℕ) (events : List QueueEvent) : Prop :=
  ∀ pre e, pre ++ [e] <+: events → ∀ h, run maxQueue pre = some h → h.HeadInFlight e

/-- A run of the replication queue accounts for every entry at every moment if and only if no entry
    is shed whose push succeeds afterwards. -/
theorem alwaysAccounted_iff (maxQueue : ℕ) (events : List QueueEvent) :
    AlwaysAccounted maxQueue events ↔ AlwaysHead maxQueue events := by
  constructor
  · intro hall pre e hpre h hrun pushed he hpush
    subst he
    by_contra hhead
    refine (inv_of_run hrun).loss_of_shed hpush hhead (hall _ hpre _ ?_)
    rw [run_concat, hrun, Option.bind_some]
    unfold step
    rw [hpush]
  · intro hall pre hpre
    induction pre using List.reverseRecOn with
    | nil =>
        intro h hrun
        cases hrun
        intro queued hqueued
        cases hqueued
    | append_singleton pre e ih =>
        intro h hrun
        rw [run_concat, Option.bind_eq_some_iff] at hrun
        obtain ⟨s, hs, hstep⟩ := hrun
        have hbefore := ih ((List.prefix_append pre [e]).trans hpre) s hs
        exact (step_effect hstep).noSilentLoss hbefore (hall pre e hpre s hs)

/-- With room for one entry: the first is shed while it is in flight, and its success takes the
    second out of the queue, which was never pushed. -/
theorem shed_in_flight_loses :
    ∃ h, run 1
        [.enqueue 1 (.delete (Js.lit "bpc_first")), .enqueue 2 (.delete (Js.lit "bpc_second")),
          .settle true] = some h ∧
      ¬h.NoSilentLoss := by
  refine ⟨_, rfl, ?_⟩
  intro hloss
  have hsecond := hloss ⟨1, 2, .delete (Js.lit "bpc_second")⟩ (by
    simp [settle, enqueue, fresh, empty])
  simp [settle, enqueue, fresh, empty, ReplicationQueue.empty, ReplicationQueue.enqueue,
    ReplicationQueue.settle, ReplicationQueue.drain, ReplicationQueue.loop, ReplicationQueue.kept,
    ReplicationQueue.shed] at hsecond

end QueueHistory

end Replication
