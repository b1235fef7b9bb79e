import BpcProtocol.Lib.Transition
import BpcProtocol.Replication.Queue

set_option autoImplicit false

/-! # The order of the queue

`enqueue` awaits its sequence number before it queues, so the queue is in the order in which the
numbers arrive. Where they arrive in the order in which they were allocated, and nothing is shed, the
queue is sorted and what is pushed is the smallest number that is not yet acknowledged. -/

namespace Replication

open Transition

/-- A store whose writes await their numbers: the queue with its past, the numbers that `next()` has
    allocated, and the writes that still await theirs. -/
structure NumberedQueue where
  history : QueueHistory
  allocated : List ℕ
  awaiting : List (ℕ × ReplicaOp)

/-- What may happen next: a write calls `next()`, which allocates a number; the number arrives; or
    the drainer goes on. -/
inductive NumberedEvent where
  | allocate (sequence : ℕ) (op : ReplicaOp)
  | arrive (sequence : ℕ) (op : ReplicaOp)
  | drain (e : QueueEvent)

namespace NumberedQueue

def empty : NumberedQueue := ⟨.empty, [], []⟩

variable (s : NumberedQueue) (maxQueue : ℕ)

/-- The drainer's own events. -/
def ofDrainer : QueueEvent → Bool
  | .enqueue _ _ => false
  | _ => true

/-- The source allocates strictly increasing numbers, and a number arrives once. -/
inductive Step : NumberedQueue → NumberedEvent → NumberedQueue → Prop
  | allocate {s : NumberedQueue} (sequence : ℕ) (op : ReplicaOp) :
      (∀ n ∈ s.allocated, n < sequence) →
      Step s (.allocate sequence op)
        { s with
          allocated := s.allocated ++ [sequence]
          awaiting := s.awaiting ++ [(sequence, op)] }
  | arrive {s : NumberedQueue} (before after : List (ℕ × ReplicaOp)) (sequence : ℕ)
      (op : ReplicaOp) :
      s.awaiting = before ++ (sequence, op) :: after →
      Step s (.arrive sequence op)
        { s with
          history := s.history.enqueue maxQueue sequence op
          awaiting := before ++ after }
  | drain {s : NumberedQueue} (e : QueueEvent) (h : QueueHistory) :
      ofDrainer e = true → s.history.step maxQueue e = some h →
      Step s (.drain e) { s with history := h }

/-- A number arrives before all that were allocated after it, and finds room in the queue. -/
def InTurn : NumberedEvent → Prop
  | .arrive sequence _ =>
      (∀ w ∈ s.awaiting, sequence ≤ w.1) ∧ s.history.state.queue.length < maxQueue
  | _ => True

/-- The runs whose events all satisfy `cond`. -/
def system (cond : NumberedQueue → NumberedEvent → Prop) : System NumberedQueue where
  init s := s = empty
  next s t := ∃ e, cond s e ∧ Step maxQueue s e t

/-- The numbers in the queue. -/
def queued : List ℕ :=
  s.history.state.queue.map Queued.sequence

/-- The numbers that a successful push has acknowledged. -/
def acknowledged : List ℕ :=
  s.history.acknowledged.map Queued.sequence

/-- Every number is acknowledged, in the queue or awaited, in this order; and what is in flight is
    the head of the queue. -/
structure InOrder (s : NumberedQueue) : Prop where
  increasing : s.allocated.Pairwise (· < ·)
  places : s.allocated = s.acknowledged ++ s.queued ++ s.awaiting.map Prod.fst
  flight : ∀ pushed, s.history.state.drainer = .pushing pushed →
    s.history.state.queue.head? = some pushed

variable {s maxQueue} {t : NumberedQueue}

theorem inOrder_empty : InOrder empty where
  increasing := .nil
  places := rfl
  flight _ h := nomatch h

/-- Where nothing is shed, an arrival goes behind the queue and leaves the flight alone. -/
theorem InOrder.arrive (h : InOrder s) {sequence : ℕ} {op : ReplicaOp}
    {after : List (ℕ × ReplicaOp)} (hfirst : s.awaiting = (sequence, op) :: after)
    (hroom : s.history.state.queue.length < maxQueue) :
    InOrder { s with
      history := s.history.enqueue maxQueue sequence op
      awaiting := after } where
  increasing := h.increasing
  places := by
    have hkept : s.history.state.kept maxQueue = s.history.state.queue :=
      if_neg (Nat.not_le.mpr hroom)
    have hplaces := h.places
    rw [hfirst] at hplaces
    simpa [queued, acknowledged, QueueHistory.enqueue, QueueHistory.fresh, hkept] using hplaces
  flight pushed hpush := by
    have hkept : s.history.state.kept maxQueue = s.history.state.queue :=
      if_neg (Nat.not_le.mpr hroom)
    simp only [QueueHistory.enqueue, ReplicationQueue.queue_enqueue] at hpush ⊢
    unfold ReplicationQueue.enqueue ReplicationQueue.drain at hpush
    split at hpush
    · have hhead := ReplicationQueue.loop_pushing _ hpush
      exact hhead
    · rw [hkept]
      have hhead := h.flight pushed hpush
      obtain ⟨rest, hrest⟩ := List.head?_eq_some_iff.mp hhead
      rw [hrest]
      rfl

/-- A push that succeeds moves the head of the queue to what is acknowledged. -/
theorem InOrder.settle (h : InOrder s) {pushed : Queued} (ok : Bool)
    (hpush : s.history.state.drainer = .pushing pushed) :
    InOrder { s with history := s.history.settle pushed ok } := by
  obtain ⟨rest, hrest⟩ := List.head?_eq_some_iff.mp (h.flight pushed hpush)
  cases ok with
  | false =>
      refine ⟨h.increasing, ?_, fun next hnext => ?_⟩
      · simpa [queued, acknowledged, QueueHistory.settle] using h.places
      · simp [QueueHistory.settle, ReplicationQueue.settle] at hnext
  | true =>
      refine ⟨h.increasing, ?_, fun next hnext => ?_⟩
      · have hplaces := h.places
        simpa [queued, acknowledged, QueueHistory.settle, hrest] using hplaces
      · have hhead := ReplicationQueue.loop_pushing _ hnext
        simpa [QueueHistory.settle] using hhead

theorem InOrder.step (h : InOrder s) {e : NumberedEvent} (hturn : s.InTurn maxQueue e)
    (hstep : Step maxQueue s e t) : InOrder t := by
  cases hstep with
  | allocate sequence op hlast =>
      refine ⟨?_, ?_, h.flight⟩
      · refine List.pairwise_append.mpr ⟨h.increasing, List.pairwise_singleton _ _, ?_⟩
        intro n hn m hm
        rw [List.mem_singleton.mp hm]
        exact hlast n hn
      · show s.allocated ++ [sequence] = _
        rw [h.places, List.append_assoc, List.map_append]
        rfl
  | arrive before after sequence op hawaiting =>
      obtain ⟨hleast, hroom⟩ := hturn
      -- the arriving number is the first of those awaited
      have hbefore : before = [] := by
        cases before with
        | nil => rfl
        | cons w rest =>
            have hle := hleast w (by rw [hawaiting]; exact List.mem_cons_self)
            have hincreasing := h.increasing
            rw [h.places, hawaiting, List.map_append, List.map_cons] at hincreasing
            have htail := (List.pairwise_append.mp hincreasing).2.1
            have hlt := (List.pairwise_append.mp htail).2.2 w.1 List.mem_cons_self sequence
              List.mem_cons_self
            exact absurd hlt (Nat.not_lt.mpr hle)
      subst hbefore
      exact h.arrive hawaiting hroom
  | drain e next hdrainer hstep =>
      have heffect := QueueHistory.step_effect hstep
      cases heffect with
      | enqueue sequence op => cases hdrainer
      | settle ok hpush => exact h.settle ok hpush
      | reject => exact ⟨h.increasing, h.places, fun pushed hpush => nomatch hpush⟩
      | wake =>
          refine ⟨h.increasing, ?_, fun pushed hpush => ?_⟩
          · simpa [queued, acknowledged] using h.places
          · have hhead := ReplicationQueue.loop_pushing _ hpush
            simpa using hhead

/-- **The queue is sorted and what is pushed is the smallest number that is not acknowledged**, in
    every run in which numbers arrive in turn and nothing is shed. -/
theorem queue_in_order (h : Reachable (system maxQueue fun s e => s.InTurn maxQueue e) s) :
    s.queued.Pairwise (· < ·) ∧
      ∀ pushed, s.history.state.drainer = .pushing pushed →
        ∀ n ∈ s.allocated, n ∉ s.acknowledged → pushed.sequence ≤ n := by
  have horder : InOrder s := by
    refine Reachable.invariant (I := InOrder) ?_ ?_ h
    · rintro s rfl
      exact inOrder_empty
    · rintro s t - horder ⟨e, hturn, hstep⟩
      exact horder.step hturn hstep
  have hincreasing := horder.increasing
  rw [horder.places, List.append_assoc] at hincreasing
  have hbehind := (List.pairwise_append.mp hincreasing).2.1
  refine ⟨(List.pairwise_append.mp hbehind).1, fun pushed hpush n hn hout => ?_⟩
  obtain ⟨rest, hrest⟩ := List.head?_eq_some_iff.mp (horder.flight pushed hpush)
  have hqueue : s.queued = pushed.sequence :: rest.map Queued.sequence := by
    rw [queued, hrest, List.map_cons]
  rw [hqueue, List.cons_append, List.pairwise_cons] at hbehind
  rw [horder.places, List.append_assoc, List.mem_append, hqueue, List.cons_append,
    List.mem_cons] at hn
  rcases hn with hack | rfl | hlater
  · exact absurd hack hout
  · exact Nat.le_refl _
  · exact Nat.le_of_lt (hbehind.1 n hlater)

/-! ## Runs -/

/-- A number arrives for the write that has waited for it the longest. -/
def arrived (s : NumberedQueue) (maxQueue : ℕ) (after : List (ℕ × ReplicaOp)) (sequence : ℕ)
    (op : ReplicaOp) : NumberedQueue :=
  { s with history := s.history.enqueue maxQueue sequence op, awaiting := after }

/-- Two writes await their numbers. -/
def twoWrites : NumberedQueue where
  history := .empty
  allocated := [1, 2]
  awaiting := [(1, .delete (Js.lit "bpc_first")), (2, .delete (Js.lit "bpc_second"))]

/-- Two writes may call `next()` before either number arrives. -/
theorem reachable_twoWrites {cond : NumberedQueue → NumberedEvent → Prop}
    (hcond : ∀ s sequence op, cond s (.allocate sequence op)) :
    Reachable (system maxQueue cond) twoWrites := by
  have hfirst : Reachable (system maxQueue cond)
      ⟨.empty, [1], [(1, .delete (Js.lit "bpc_first"))]⟩ :=
    (Reachable.init rfl).next ⟨_, hcond empty _ _, .allocate 1 _ fun n hn => nomatch hn⟩
  refine hfirst.next ⟨_, hcond _ _ _, .allocate 2 (.delete (Js.lit "bpc_second")) fun n hn => ?_⟩
  rw [List.mem_singleton.mp hn]
  exact Nat.one_lt_two

/-- The first number arrives first and is pushed first. -/
theorem queue_in_order_sample :
    Reachable (system 5000 fun s e => s.InTurn 5000 e)
        (twoWrites.arrived 5000 [(2, .delete (Js.lit "bpc_second"))] 1
          (.delete (Js.lit "bpc_first"))) ∧
      (twoWrites.arrived 5000 [(2, .delete (Js.lit "bpc_second"))] 1
        (.delete (Js.lit "bpc_first"))).queued.Pairwise (· < ·) := by
  have hreach : Reachable (system 5000 fun s e => s.InTurn 5000 e)
      (twoWrites.arrived 5000 [(2, .delete (Js.lit "bpc_second"))] 1
        (.delete (Js.lit "bpc_first"))) := by
    refine (reachable_twoWrites fun _ _ _ => trivial).next
      ⟨.arrive 1 (.delete (Js.lit "bpc_first")), ?_, .arrive [] _ 1 _ rfl⟩
    refine ⟨fun w hw => ?_, by decide⟩
    rcases List.mem_cons.mp hw with rfl | hw
    · exact Nat.le_refl 1
    · rw [List.mem_singleton.mp hw]
      exact Nat.le_succ 1
  exact ⟨hreach, (queue_in_order hreach).1⟩

/-- The second number arrives first: it is pushed while the first is not acknowledged, and the first
    is queued behind it. -/
theorem queue_out_of_order :
    ∃ s : NumberedQueue, Reachable (system 5000 fun _ _ => True) s ∧
      ¬s.queued.Pairwise (· < ·) ∧
      ∃ pushed, s.history.state.drainer = .pushing pushed ∧
        ∃ n ∈ s.allocated, n ∉ s.acknowledged ∧ n < pushed.sequence := by
  have hwrites : Reachable (system 5000 fun _ _ => True) twoWrites :=
    reachable_twoWrites fun _ _ _ => trivial
  have hsecond := hwrites.next
    ⟨.arrive 2 (.delete (Js.lit "bpc_second")), trivial,
      .arrive [(1, .delete (Js.lit "bpc_first"))] [] 2 _ rfl⟩
  refine ⟨_, hsecond.next ⟨.arrive 1 (.delete (Js.lit "bpc_first")), trivial, .arrive [] [] 1 _ rfl⟩,
    ?_, ?_⟩
  · show ¬[2, 1].Pairwise (· < ·)
    decide
  · exact ⟨_, rfl, 1, List.mem_cons_self, List.not_mem_nil, Nat.one_lt_two⟩

end NumberedQueue

end Replication
