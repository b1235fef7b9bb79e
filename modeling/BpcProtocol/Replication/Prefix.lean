import BpcProtocol.Replication.Mirror

set_option autoImplicit false

/-! # The replica holds a prefix

The replica's store is what the operations numbered `1` to `k` lead to, where `k` is the last number
that its guard has committed, or one operation further while that one has been written and not
committed. -/

namespace Replication

open Transition (Reachable Run)

namespace Mirror

/-- An entry carries the operation of its number. -/
def Numbered (s : Mirror) (q : Queued) : Prop :=
  ∃ i, q.sequence = i + 1 ∧ s.numbered[i]? = some q.op

/-- A call carries what the replica receives of the operation of its number. -/
def Received (cfg : MirrorConfig) (s : Mirror) (call : ApplyCall) : Prop :=
  call.sourceId = cfg.replica.expectedSourceId ∧
    ∃ i op, call.sequence = i + 1 ∧ s.numbered[i]? = some op ∧ op.received = some call.op

/-- A request was made of a numbered operation. -/
def Sent (cfg : MirrorConfig) (s : Mirror) (r : ReplicaRequest) : Prop :=
  ∃ q sentAt, s.Numbered q ∧ Js.Genuine (.number sentAt) ∧
    Js.stringify (q.envelope cfg.sourceId sentAt).toJs = some r.body

/-- How many operations the store of the replica holds. -/
def held (cfg : MirrorConfig) (s : Mirror) : ℕ :=
  s.lastSequence cfg + if s.ahead then 1 else 0

/-- What holds of both sides and of the network at every moment. -/
structure Inv (cfg : MirrorConfig) (s : Mirror) : Prop where
  genuine : ∀ op ∈ s.unallocated ++ s.numbered, Js.Genuine op.toJs
  double : ∀ i < s.numbered.length, Js.IsDouble ((i + 1 : ℕ) : ℤ)
  allocated : ∀ q ∈ s.allocated, s.Numbered q
  queue : ∀ q ∈ s.sender.queue, s.Numbered q
  flight : ∀ q, s.sender.drainer = .pushing q → s.sender.queue.head? = some q
  requests : ∀ r ∈ s.requests, s.Sent cfg r
  waiting : ∀ call ∈ s.waiting, s.Received cfg call
  current : ∀ app, s.current = some app → s.Received cfg app.call ∧
    app.call.sequence = s.lastSequence cfg + 1 ∧ (app.written = true → s.ahead = true)
  answered : ∀ n ∈ s.answered, n ≤ s.lastSequence cfg
  accounted : ∀ i < s.numbered.length, i < s.lastSequence cfg ∨
    ∃ q ∈ s.allocated ++ s.sender.queue, q.sequence = i + 1
  held : s.held cfg ≤ s.numbered.length
  valid : ∀ op ∈ s.numbered.take (s.held cfg), op.received.isSome = true
  store : s.store = s.replica (s.held cfg)

theorem inv_empty (cfg : MirrorConfig) : Inv cfg .empty where
  genuine := by simp [empty]
  double := by simp [empty]
  allocated := by simp [empty]
  queue := by simp [empty, ReplicationQueue.empty]
  flight := by simp [empty, ReplicationQueue.empty]
  requests := by simp [empty]
  waiting := by simp [empty]
  current := by simp [empty]
  answered := by simp [empty]
  accounted := by simp [empty]
  held := by simp [empty, held, lastSequence]
  valid := by simp [empty]
  store := by simp [empty, replica, held, lastSequence]

variable {cfg : MirrorConfig} {s : Mirror}

theorem Inv.write (h : Inv cfg s) {op : ReplicaOp} (hop : Js.Genuine op.toJs) :
    Inv cfg (s.write op) :=
  { h with
    genuine := by
      intro o ho
      simp only [Mirror.write, List.append_assoc, List.mem_append, List.mem_singleton] at ho
      rcases ho with ho | rfl | ho
      · exact h.genuine o (List.mem_append_left _ ho)
      · exact hop
      · exact h.genuine o (List.mem_append_right _ ho) }

/-! ### Numbers -/

theorem getElem?_append_of_some {α : Type} {l : List α} {i : ℕ} {a : α} (h : l[i]? = some a)
    (tail : List α) : (l ++ tail)[i]? = some a := by
  obtain ⟨hi, -⟩ := List.getElem?_eq_some_iff.mp h
  rw [List.getElem?_append_left hi, h]

theorem Numbered.allocate {q : Queued} (h : s.Numbered q) (op : ReplicaOp)
    (unallocated : List ReplicaOp) : (s.allocate op unallocated).Numbered q := by
  obtain ⟨i, hseq, hop⟩ := h
  exact ⟨i, hseq, getElem?_append_of_some hop _⟩

theorem Received.allocate {call : ApplyCall} (h : s.Received cfg call) (op : ReplicaOp)
    (unallocated : List ReplicaOp) : (s.allocate op unallocated).Received cfg call := by
  obtain ⟨hsource, i, o, hseq, ho, hr⟩ := h
  exact ⟨hsource, i, o, hseq, getElem?_append_of_some ho _, hr⟩

theorem Inv.allocate (h : Inv cfg s) {pre post : List ReplicaOp} {op : ReplicaOp}
    (hop : s.unallocated = pre ++ op :: post)
    (hnum : Js.IsDouble ((s.numbered.length + 1 : ℕ) : ℤ)) :
    Inv cfg (s.allocate op (pre ++ post)) where
  genuine := by
    intro o ho
    apply h.genuine o
    rw [hop]
    simp only [Mirror.allocate, List.mem_append, List.mem_cons, List.not_mem_nil, or_false] at ho ⊢
    tauto
  double := by
    intro i hi
    rw [Mirror.allocate, List.length_append, List.length_singleton] at hi
    rcases Nat.lt_succ_iff_lt_or_eq.mp hi with hi | rfl
    · exact h.double i hi
    · exact hnum
  allocated := by
    intro q hq
    rcases List.mem_append.mp hq with hq | hq
    · exact (h.allocated q hq).allocate op _
    · rw [List.mem_singleton.mp hq]
      exact ⟨s.numbered.length, rfl, List.getElem?_concat_length⟩
  queue := fun q hq => (h.queue q hq).allocate op _
  flight := h.flight
  requests := by
    intro r hr
    obtain ⟨q, sentAt, hq, hsent⟩ := h.requests r hr
    exact ⟨q, sentAt, hq.allocate op _, hsent⟩
  waiting := fun call hcall => (h.waiting call hcall).allocate op _
  current := by
    intro app happ
    obtain ⟨hreceived, hrest⟩ := h.current app happ
    exact ⟨hreceived.allocate op _, hrest⟩
  answered := h.answered
  accounted := by
    intro i hi
    rw [Mirror.allocate, List.length_append, List.length_singleton] at hi
    rcases Nat.lt_succ_iff_lt_or_eq.mp hi with hi | rfl
    · rcases h.accounted i hi with hlast | ⟨q, hq, hseq⟩
      · exact .inl hlast
      · refine .inr ⟨q, ?_, hseq⟩
        simp only [Mirror.allocate, List.mem_append] at hq ⊢
        tauto
    · exact .inr ⟨_, List.mem_append_left _ (List.mem_append_right _ (List.mem_singleton.mpr rfl)), rfl⟩
  held := by
    have := h.held
    rw [Mirror.allocate, List.length_append]
    exact this.trans (Nat.le_add_right _ _)
  valid := by
    intro o ho
    apply h.valid o
    have htake : (s.numbered ++ [op]).take (s.held cfg) = s.numbered.take (s.held cfg) :=
      List.take_append_of_le_length h.held
    rw [← htake]
    exact ho
  store := by
    have hstore : s.store = Replay.upTo ReplicaStore.receive .empty (s.numbered ++ [op]) (s.held cfg) := by
      rw [Replay.upTo_append _ h.held]
      exact h.store
    exact hstore

/-! ### The queue -/

/-- With room in the queue nothing is shed. -/
theorem queue_enqueue_of_lt {q : ReplicationQueue} {maxQueue : ℕ} (h : q.queue.length < maxQueue)
    (new : Queued) : (q.enqueue maxQueue new).queue = q.queue ++ [new] := by
  rw [ReplicationQueue.queue_enqueue, ReplicationQueue.kept, if_neg (not_le.mpr h)]

/-- The drainer holds the head of the queue, also behind the loop and behind an entry that was added
    at the end. -/
theorem flight_enqueue {q : ReplicationQueue} {maxQueue : ℕ} (h : q.queue.length < maxQueue)
    {new : Queued} (hflight : ∀ e, q.drainer = .pushing e → q.queue.head? = some e) (e : Queued)
    (hpush : (q.enqueue maxQueue new).drainer = .pushing e) :
    (q.enqueue maxQueue new).queue.head? = some e := by
  rw [queue_enqueue_of_lt h]
  unfold ReplicationQueue.enqueue ReplicationQueue.drain at hpush
  simp only [ReplicationQueue.kept, if_neg (not_le.mpr h)] at hpush
  split at hpush
  · exact ReplicationQueue.loop_pushing _ hpush
  · obtain ⟨rest, hrest⟩ := List.head?_eq_some_iff.mp (hflight e hpush)
    simp [hrest]

theorem Inv.enqueue (h : Inv cfg s) {pre post : List Queued} {q : Queued}
    (hq : s.allocated = pre ++ q :: post) (hroom : s.sender.queue.length < cfg.maxQueue) :
    Inv cfg (s.enqueue cfg.maxQueue q (pre ++ post)) :=
  { h with
    allocated := by
      intro e he
      apply h.allocated e
      rw [hq]
      simp only [Mirror.enqueue, List.mem_append, List.mem_cons] at he ⊢
      tauto
    queue := by
      intro e he
      simp only [Mirror.enqueue, queue_enqueue_of_lt hroom, List.mem_append, List.mem_singleton] at he
      rcases he with he | rfl
      · exact h.queue e he
      · exact h.allocated e (by simp [hq])
    flight := flight_enqueue hroom h.flight
    accounted := by
      intro i hi
      rcases h.accounted i hi with hlast | ⟨e, he, hseq⟩
      · exact .inl hlast
      · refine .inr ⟨e, ?_, hseq⟩
        simp only [Mirror.enqueue, queue_enqueue_of_lt hroom, hq, List.mem_append, List.mem_cons,
          List.not_mem_nil, or_false] at he ⊢
        tauto }

theorem Inv.send (h : Inv cfg s) {q : Queued} {sentAt : JsNumber} {signature body : JsString}
    (hpush : s.sender.drainer = .pushing q) (hsentAt : Js.Genuine (.number sentAt))
    (hbody : Js.stringify (q.envelope cfg.sourceId sentAt).toJs = some body) :
    Inv cfg { s with requests := s.requests ++ [⟨signature, body⟩] } :=
  { h with
    requests := by
      intro r hr
      rcases List.mem_append.mp hr with hr | hr
      · exact h.requests r hr
      · rw [List.mem_singleton.mp hr]
        exact ⟨q, sentAt, h.queue q (List.mem_of_mem_head? (h.flight q hpush)), hsentAt, hbody⟩ }

theorem Inv.settle (h : Inv cfg s) {q : Queued} (ok : Bool) (hpush : s.sender.drainer = .pushing q)
    (hok : ok = true → q.sequence ∈ s.answered) :
    Inv cfg { s with sender := s.sender.settle ok } := by
  by_cases htrue : ok = true
  · subst htrue
    obtain ⟨rest, hrest⟩ := List.head?_eq_some_iff.mp (h.flight q hpush)
    have hqueue : (s.sender.settle true).queue = rest := by
      rw [ReplicationQueue.queue_settle, if_pos rfl, hrest]
      rfl
    exact
      { h with
        queue := by
          intro e he
          apply h.queue e
          rw [hrest]
          exact List.mem_cons_of_mem _ (by rwa [← hqueue])
        flight := by
          intro e he
          have hhead := ReplicationQueue.loop_pushing _ he
          rw [hqueue]
          simpa [hrest] using hhead
        accounted := by
          intro i hi
          rcases h.accounted i hi with hlast | ⟨e, he, hseq⟩
          · exact .inl hlast
          · rw [hrest, List.mem_append, List.mem_cons] at he
            rcases he with he | rfl | he
            · exact .inr ⟨e, List.mem_append_left _ he, hseq⟩
            · -- the entry that leaves the queue has been answered
              have hanswered := h.answered _ (hok rfl)
              have hlast : i < s.lastSequence cfg := by omega
              exact .inl hlast
            · refine .inr ⟨e, List.mem_append_right _ ?_, hseq⟩
              rw [hqueue]
              exact he }
  · have hqueue : (s.sender.settle ok).queue = s.sender.queue := by
      rw [ReplicationQueue.queue_settle, if_neg htrue]
    exact
      { h with
        queue := fun e he => h.queue e (hqueue ▸ he)
        flight := by
          intro e he
          simp [ReplicationQueue.settle, htrue] at he
        accounted := by
          intro i hi
          rw [hqueue]
          exact h.accounted i hi }

theorem Inv.reject (h : Inv cfg s) : Inv cfg { s with sender := s.sender.reject } :=
  { h with
    flight := by
      intro e he
      cases he }

theorem Inv.wake (h : Inv cfg s) : Inv cfg { s with sender := s.sender.loop } :=
  { h with
    queue := fun e he => h.queue e (s.sender.queue_loop ▸ he)
    flight := by
      intro e he
      rw [ReplicationQueue.queue_loop]
      exact ReplicationQueue.loop_pushing _ he
    accounted := by
      intro i hi
      rw [ReplicationQueue.queue_loop]
      exact h.accounted i hi }

/-! ### The replica -/

theorem Inv.deliver (h : Inv cfg s) {r : ReplicaRequest} (hr : r ∈ s.requests) (now : JsNumber) :
    Inv cfg (s.deliver cfg r now) :=
  { h with
    waiting := by
      intro call hcall
      rcases List.mem_append.mp hcall with hcall | hcall
      · exact h.waiting call hcall
      · obtain ⟨q, sentAt, ⟨i, hseq, hop⟩, hsentAt, hbody⟩ := h.requests r hr
        obtain ⟨hi, -⟩ := List.getElem?_eq_some_iff.mp hop
        have hgenuine := h.genuine q.op (List.mem_append_right _ (List.mem_of_getElem? hop))
        obtain ⟨hsource, hsequence, hreceived⟩ :=
          call_of_request (hseq ▸ h.double i hi) hsentAt hgenuine hbody hcall
        exact ⟨hsource, i, q.op, hsequence.trans hseq, hop, hreceived⟩ }

theorem Inv.check (h : Inv cfg s) {call : ApplyCall} {waiting : List ApplyCall}
    (hwaiting : s.waiting = call :: waiting) :
    Inv cfg (s.check call waiting) := by
  have hrest : ∀ c ∈ waiting, s.Received cfg c := by
    intro c hc
    exact h.waiting c (by rw [hwaiting]; exact List.mem_cons_of_mem _ hc)
  have hcall := h.waiting call (by rw [hwaiting]; exact List.mem_cons_self)
  have hlast : s.guard.lastSequence call.sourceId = s.lastSequence cfg := by
    rw [hcall.1, lastSequence]
  unfold Mirror.check
  split
  · next hnext =>
      have hsequence : call.sequence = s.lastSequence cfg + 1 := by
        rw [← hlast]
        exact disposition_next hnext
      refine { h with waiting := hrest, current := ?_ }
      intro app happ
      cases happ
      exact ⟨hcall, hsequence, fun hwritten => absurd hwritten Bool.false_ne_true⟩
  · next hduplicate =>
      refine { h with waiting := hrest, answered := ?_ }
      intro n hn
      rcases List.mem_append.mp hn with hn | hn
      · exact h.answered n hn
      · rw [List.mem_singleton.mp hn, disposition_duplicate hduplicate, hlast]
        exact Nat.le_refl _
  · exact { h with waiting := hrest }

/-- The operation that the guard lets through is the one behind those that it has committed. -/
theorem Inv.next (h : Inv cfg s) {app : Application} (hcurrent : s.current = some app) :
    ∃ op, s.numbered[s.lastSequence cfg]? = some op ∧ op.received = some app.call.op := by
  obtain ⟨⟨-, i, op, hseq, hop, hreceived⟩, hlast, -⟩ := h.current app hcurrent
  obtain rfl : i = s.lastSequence cfg := by omega
  exact ⟨op, hop, hreceived⟩

theorem receive_eq {op : ReplicaOp} {r : ReceivedOp} (h : op.received = some r) (t : ReplicaStore) :
    t.receive op = t.apply r := by
  rw [ReplicaStore.receive, h, Option.elim_some]

/-- What the store holds when the next operation has been written. -/
theorem Inv.replica_succ (h : Inv cfg s) {app : Application} (hcurrent : s.current = some app) :
    s.replica (s.lastSequence cfg + 1) = (s.replica (s.lastSequence cfg)).apply app.call.op := by
  obtain ⟨op, hop, hreceived⟩ := h.next hcurrent
  rw [replica, Replay.upTo_succ _ hop, receive_eq hreceived, replica]

theorem Inv.valid_succ (h : Inv cfg s) {app : Application} (hcurrent : s.current = some app) :
    ∀ op ∈ s.numbered.take (s.lastSequence cfg + 1), op.received.isSome = true := by
  obtain ⟨op, hop, hreceived⟩ := h.next hcurrent
  intro o ho
  rw [List.take_add_one, hop] at ho
  rcases List.mem_append.mp ho with ho | ho
  · have hle : s.lastSequence cfg ≤ s.held cfg := Nat.le_add_right _ _
    exact h.valid o ((List.take_prefix_take_left hle).subset ho)
  · rw [Option.toList_some, List.mem_singleton] at ho
    rw [ho, hreceived]
    rfl

theorem Inv.apply (h : Inv cfg s) {call : ApplyCall} (hcurrent : s.current = some ⟨call, false⟩) :
    Inv cfg (s.apply call) := by
  obtain ⟨hreceived, hsequence, -⟩ := h.current _ hcurrent
  have hheld : (s.apply call).held cfg = s.lastSequence cfg + 1 := rfl
  obtain ⟨op, hop, -⟩ := h.next hcurrent
  obtain ⟨hlength, -⟩ := List.getElem?_eq_some_iff.mp hop
  have hstore : s.store.apply call.op = s.replica (s.lastSequence cfg + 1) := by
    rw [h.store, h.replica_succ hcurrent, Mirror.held]
    by_cases hahead : s.ahead = true
    · -- the operation has been written before: writing it again changes nothing
      rw [if_pos hahead, h.replica_succ hcurrent, ReplicaStore.apply_apply]
    · rw [if_neg hahead, Nat.add_zero]
  exact
    { h with
      current := by
        intro app happ
        cases happ
        exact ⟨hreceived, hsequence, fun _ => rfl⟩
      held := by
        rw [hheld]
        exact hlength
      valid := by
        rw [hheld]
        exact h.valid_succ hcurrent
      store := by
        rw [hheld]
        exact hstore }

theorem lastSequence_commit {call : ApplyCall}
    (hsource : call.sourceId = cfg.replica.expectedSourceId) :
    (s.commit call).lastSequence cfg = call.sequence := by
  rw [lastSequence, Mirror.commit, ← hsource, MemoryReplicaApplyGuard.lastSequence_commit]

theorem Inv.commit (h : Inv cfg s) {call : ApplyCall} (hcurrent : s.current = some ⟨call, true⟩) :
    Inv cfg (s.commit call) := by
  obtain ⟨⟨hsource, -⟩, hsequence, hahead⟩ := h.current _ hcurrent
  have hahead : s.ahead = true := hahead rfl
  have hlast : (s.commit call).lastSequence cfg = s.lastSequence cfg + 1 := by
    rw [lastSequence_commit hsource, hsequence]
  have hheld : (s.commit call).held cfg = s.held cfg := by
    rw [Mirror.held, hlast, Mirror.held, hahead]
    rfl
  exact
    { h with
      current := by
        intro app happ
        cases happ
      answered := by
        intro n hn
        rw [hlast]
        rcases List.mem_append.mp hn with hn | hn
        · exact (h.answered n hn).trans (Nat.le_succ _)
        · rw [List.mem_singleton.mp hn, hsequence]
      accounted := by
        intro i hi
        rcases h.accounted i hi with hi | hi
        · left
          rw [hlast]
          exact hi.trans (Nat.lt_succ_self _)
        · exact .inr hi
      held := by
        rw [hheld]
        exact h.held
      valid := by
        rw [hheld]
        exact h.valid
      store := by
        rw [hheld]
        exact h.store }

theorem Inv.fail (h : Inv cfg s) : Inv cfg s.fail :=
  { h with
    current := by
      intro app happ
      cases happ }

/-! ### Runs -/

theorem Inv.step (h : Inv cfg s) {t : Mirror} (hstep : MirrorStep cfg s t) : Inv cfg t := by
  cases hstep with
  | write op hop => exact h.write hop
  | allocate hop hnum => exact h.allocate hop hnum
  | enqueue hq hroom => exact h.enqueue hq hroom
  | send hpush hsentAt hsign hbody => exact h.send hpush hsentAt hbody
  | settle ok hpush hok => exact h.settle ok hpush hok
  | reject hpush => exact h.reject
  | wake hsleep => exact h.wake
  | deliver now hr => exact h.deliver hr now
  | check hcurrent hwaiting => exact h.check hwaiting
  | apply hcurrent => exact h.apply hcurrent
  | commit hcurrent => exact h.commit hcurrent
  | fail hcurrent => exact h.fail

theorem inv_of_reachable (h : Reachable (mirrorSystem cfg) s) : Inv cfg s := by
  refine h.invariant ?_ ?_
  · rintro s rfl
    exact inv_empty cfg
  · intro s t _ hs hstep
    exact hs.step hstep

/-- The guard never goes back. -/
theorem lastSequence_step (h : Inv cfg s) {t : Mirror} (hstep : MirrorStep cfg s t) :
    s.lastSequence cfg ≤ t.lastSequence cfg := by
  cases hstep with
  | check hcurrent hwaiting =>
      unfold Mirror.check
      split <;> exact Nat.le_refl _
  | commit hcurrent =>
      obtain ⟨⟨hsource, -⟩, hsequence, -⟩ := h.current _ hcurrent
      rw [lastSequence_commit hsource, hsequence]
      exact Nat.le_succ _
  | _ => exact Nat.le_refl _

theorem lastSequence_run {t : Mirror} (h : Reachable (mirrorSystem cfg) s)
    (hrun : Run (mirrorSystem cfg) s t) : s.lastSequence cfg ≤ t.lastSequence cfg :=
  hrun.monotone (R := fun a b => a.lastSequence cfg ≤ b.lastSequence cfg)
    (fun _ => Nat.le_refl _) (fun _ _ _ => Nat.le_trans)
    (fun _ _ ha hstep => lastSequence_step (inv_of_reachable ha) hstep) h

/-- Only an application that has not written changes the store. -/
theorem store_step {t : Mirror} (hstep : MirrorStep cfg s t) :
    t.store = s.store ∨ ∃ call, s.current = some ⟨call, false⟩ ∧ t = s.apply call := by
  cases hstep with
  | check hcurrent hwaiting =>
      left
      unfold Mirror.check
      split <;> rfl
  | apply hcurrent => exact .inr ⟨_, hcurrent, rfl⟩
  | _ => exact .inl rfl

/-- The replica holds exactly what its guard has committed. -/
def PrefixConsistent (cfg : MirrorConfig) (s : Mirror) : Prop :=
  s.store = s.replica (s.lastSequence cfg)

/-- An operation numbered `k` or less is never applied again. -/
def NeverReplayed (cfg : MirrorConfig) (s : Mirror) : Prop :=
  ∀ t, Run (mirrorSystem cfg) s t → ∀ app, t.current = some app →
    s.lastSequence cfg < app.call.sequence

/-- **The replica holds a prefix.** With `k` the last number that the guard has committed, the store
    is what the operations numbered `1` to `k` lead to, each applied once and in order, or those
    numbered `1` to `k + 1` while the store has written the next one and the guard has not committed
    it. The store changes only by the application of an operation, and never again by one numbered
    `k` or less. -/
theorem replicaPrefix (h : Reachable (mirrorSystem cfg) s) :
    (s.ahead = false → s.PrefixConsistent cfg) ∧
      (s.ahead = true → s.store = s.replica (s.lastSequence cfg + 1)) ∧
      (∀ t, MirrorStep cfg s t →
        t.store = s.store ∨ ∃ call, s.current = some ⟨call, false⟩ ∧ t = s.apply call) ∧
      s.NeverReplayed cfg := by
  have hinv := inv_of_reachable h
  refine ⟨fun hahead => ?_, fun hahead => ?_, fun t => store_step, fun t hrun app happ => ?_⟩
  · rw [PrefixConsistent, hinv.store, Mirror.held, hahead]
    rfl
  · rw [hinv.store, Mirror.held, hahead]
    rfl
  · have hle := lastSequence_run h hrun
    have hsequence := ((inv_of_reachable (hrun.reachable h)).current app happ).2.1
    omega

/-! ### One operation -/

/-- The state behind the first push of a registration: the entry is in flight. -/
def pushedOnce : Mirror :=
  ((Mirror.empty.write sampleOp).allocate sampleOp []).enqueue 2 ⟨0, 1, sampleOp⟩ []

theorem reachable_pushedOnce : Reachable (mirrorSystem sampleConfig) pushedOnce := by
  have h0 : Reachable (mirrorSystem sampleConfig) .empty := .init rfl
  have h1 := h0.next (.write sampleOp sampleOp_genuine)
  have h2 := h1.next (@MirrorStep.allocate sampleConfig _ [] [] sampleOp rfl (by decide +kernel))
  exact h2.next (@MirrorStep.enqueue sampleConfig _ [] [] ⟨0, 1, sampleOp⟩ rfl (by decide))

/-- The call of that push at the replica, which its guard lets through. -/
theorem pushedOnce_call :
    ∃ call, sampleCall ⟨0, 1, sampleOp⟩ = some call ∧
      call.sourceId = sampleConfig.replica.expectedSourceId ∧
      call.sequence = 1 ∧ sampleOp.received = some call.op ∧
      MemoryReplicaApplyGuard.empty.disposition call = .next := by
  obtain ⟨call, hcall⟩ : ∃ call, sampleCall ⟨0, 1, sampleOp⟩ = some call :=
    Option.isSome_iff_exists.mp (by decide +kernel)
  obtain ⟨hsource, hsequence, hreceived⟩ :=
    sampleCall_spec (by decide +kernel) sampleOp_genuine hcall
  refine ⟨call, hcall, hsource, hsequence, hreceived, ?_⟩
  simp [MemoryReplicaApplyGuard.disposition, hsequence]

/-- The first operation is applied and committed. -/
theorem replicaPrefix_committed :
    ∃ s, Reachable (mirrorSystem sampleConfig) s ∧ s.lastSequence sampleConfig = 1 ∧
      s.store = s.replica 1 := by
  obtain ⟨call, hcall, hsource, hsequence, -, hnext⟩ := pushedOnce_call
  have h1 := (run_received rfl rfl rfl hcall hnext).reachable reachable_pushedOnce
  have h2 := (h1.next (.apply rfl)).next (.commit rfl)
  have hconsistent := (replicaPrefix h2).1 rfl
  rw [PrefixConsistent, lastSequence_commit hsource, hsequence] at hconsistent
  exact ⟨_, h2, (lastSequence_commit hsource).trans hsequence, hconsistent⟩

/-- The store of the replica writes the first operation and then fails: nothing is under way any
    more, the guard has committed nothing, and the store holds the operation. -/
theorem prefix_torn :
    ∃ s, Reachable (mirrorSystem sampleConfig) s ∧ s.current = none ∧ s.waiting = [] ∧
      s.lastSequence sampleConfig = 0 ∧ ¬s.PrefixConsistent sampleConfig := by
  obtain ⟨call, hcall, -, -, hreceived, hnext⟩ := pushedOnce_call
  have h1 := (run_received rfl rfl rfl hcall hnext).reachable reachable_pushedOnce
  have h2 := h1.next (.apply rfl)
  have h3 := h2.next (.fail rfl)
  refine ⟨_, h3, rfl, rfl, rfl, fun hconsistent => ?_⟩
  obtain ⟨v, hv⟩ := image_registration sampleRegistration
  have hop := received_setPending hv hreceived
  have hempty : (ReplicaStore.empty.apply call.op).pending.get (Js.lit "token") = none :=
    congrArg (fun t => t.pending.get (Js.lit "token")) hconsistent
  rw [hop, ReplicaStore.apply, OrderedMap.get_set_self] at hempty
  cases hempty

end Mirror

end Replication
