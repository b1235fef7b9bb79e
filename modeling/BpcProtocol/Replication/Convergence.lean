import BpcProtocol.Replication.Prefix

set_option autoImplicit false

/-! # Convergence

A write gets its number when the primary has settled it, so the order of the numbers may differ from
the order in which the primary applied the writes. Where it does not differ on any key, a drained
queue leaves the replica with the records of the primary. -/

namespace Replication

open Transition (Reachable Run System)

namespace Mirror

/-- A step that gives a write its number leaves no earlier write to the same record without one. -/
def InOrder (s t : Mirror) : Prop :=
  t.numbered = s.numbered ∨
    ∃ pre op post, s.unallocated = pre ++ op :: post ∧ t.unallocated = pre ++ post ∧
      t.numbered = s.numbered ++ [op] ∧ ∀ o ∈ pre, o.key ≠ op.key

/-- The writes of a log to one record. -/
def writesTo (key : RecordKey) (log : List ReplicaOp) : List ReplicaOp :=
  log.filter fun op => op.key = key

@[simp]
theorem writesTo_append (key : RecordKey) (log log' : List ReplicaOp) :
    writesTo key (log ++ log') = writesTo key log ++ writesTo key log' :=
  List.filter_append ..

theorem writesTo_cons (key : RecordKey) (op : ReplicaOp) (log : List ReplicaOp) :
    writesTo key (op :: log) = writesTo key [op] ++ writesTo key log :=
  writesTo_append key [op] log

theorem writesTo_eq_nil {key : RecordKey} {log : List ReplicaOp} (h : ∀ o ∈ log, o.key ≠ key) :
    writesTo key log = [] := by
  rw [writesTo, List.filter_eq_nil_iff]
  intro o ho
  simpa using h o ho

/-- A write may be moved before others to other records. -/
theorem writesTo_move {op : ReplicaOp} {pre : List ReplicaOp} (h : ∀ o ∈ pre, o.key ≠ op.key)
    (key : RecordKey) : writesTo key [op] ++ writesTo key pre = writesTo key pre ++ writesTo key [op] := by
  by_cases hk : op.key = key
  · subst hk
    rw [writesTo_eq_nil h, List.append_nil, List.nil_append]
  · have hop : writesTo key [op] = [] := by simp [writesTo, hk]
    rw [hop, List.append_nil, List.nil_append]

/-- The primary holds what its writes lead to, and the numbers follow the order of the primary on
    every record. -/
structure Ordered (s : Mirror) : Prop where
  primary : s.primary = s.applied.foldl applyPrimary .empty
  order : ∀ key, writesTo key s.applied = writesTo key s.numbered ++ writesTo key s.unallocated

theorem ordered_empty : Ordered .empty where
  primary := rfl
  order := fun _ => rfl

variable {cfg : MirrorConfig} {s : Mirror}

theorem Ordered.write (h : Ordered s) (op : ReplicaOp) : Ordered (s.write op) where
  primary := by
    simp only [Mirror.write, List.foldl_append, List.foldl_cons, List.foldl_nil, ← h.primary]
  order := by
    intro key
    simp only [Mirror.write, writesTo_append, h.order key, List.append_assoc]

theorem Ordered.allocate (h : Ordered s) {pre post : List ReplicaOp} {op : ReplicaOp}
    (hop : s.unallocated = pre ++ op :: post) (hpre : ∀ o ∈ pre, o.key ≠ op.key) (key : RecordKey) :
    writesTo key s.applied = writesTo key (s.numbered ++ [op]) ++ writesTo key (pre ++ post) := by
  calc
    writesTo key s.applied
      = writesTo key s.numbered ++ (writesTo key pre ++ writesTo key [op]) ++ writesTo key post := by
        rw [h.order key, hop, writesTo_append, writesTo_cons]
        simp only [List.append_assoc]
    _ = writesTo key s.numbered ++ (writesTo key [op] ++ writesTo key pre) ++ writesTo key post := by
        rw [writesTo_move hpre]
    _ = writesTo key (s.numbered ++ [op]) ++ writesTo key (pre ++ post) := by
        simp only [writesTo_append, List.append_assoc]

/-- A step other than a write and an allocation changes neither the primary nor a number. -/
theorem unchanged_of_step {t : Mirror} (hstep : MirrorStep cfg s t) :
    (∃ op, t = s.write op) ∨
      (∃ pre op post, s.unallocated = pre ++ op :: post ∧ t = s.allocate op (pre ++ post)) ∨
      (t.primary = s.primary ∧ t.applied = s.applied ∧ t.numbered = s.numbered ∧
        t.unallocated = s.unallocated) := by
  cases hstep with
  | write op hop => exact .inl ⟨op, rfl⟩
  | allocate hop hnum => exact .inr (.inl ⟨_, _, _, hop, rfl⟩)
  | check hcurrent hwaiting =>
      right
      right
      unfold Mirror.check
      split <;> exact ⟨rfl, rfl, rfl, rfl⟩
  | _ => exact .inr (.inr ⟨rfl, rfl, rfl, rfl⟩)

theorem Ordered.step (h : Ordered s) {t : Mirror} (hstep : MirrorStep cfg s t)
    (horder : InOrder s t) : Ordered t := by
  rcases unchanged_of_step hstep with ⟨op, rfl⟩ | ⟨pre, op, post, hop, rfl⟩ | ⟨hp, ha, hn, hu⟩
  · exact h.write op
  · refine ⟨h.primary, ?_⟩
    rcases horder with hsame | ⟨pre', op', post', hop', hrest, hnumbered, hpre⟩
    · have hlength := congrArg List.length hsame
      simp [Mirror.allocate] at hlength
    · intro key
      rw [hnumbered, hrest]
      exact h.allocate hop' hpre key
  · refine ⟨?_, ?_⟩
    · rw [hp, ha]
      exact h.primary
    · rw [ha, hn, hu]
      exact h.order

/-- Every write has its number, is queued, and has left the queue. -/
def Drained (s : Mirror) : Prop :=
  s.unallocated = [] ∧ s.allocated = [] ∧ s.sender.queue = []

/-- The replica holds the records of the primary. -/
def Converged (s : Mirror) : Prop :=
  ∀ key, s.store.read key = readPrimary s.primary key

/-- A drained queue leaves a replica that holds every operation. -/
theorem Inv.drained (h : Inv cfg s) (hdrained : s.Drained) :
    s.store = s.numbered.foldl ReplicaStore.receive .empty ∧
      ∀ op ∈ s.numbered, op.received.isSome = true := by
  obtain ⟨-, hallocated, hqueue⟩ := hdrained
  have hlast : s.numbered.length ≤ s.lastSequence cfg := by
    by_contra hlt
    rcases h.accounted _ (not_le.mp hlt) with hself | ⟨q, hq, -⟩
    · exact absurd hself (lt_irrefl _)
    · simp [hallocated, hqueue] at hq
  have hheld : s.held cfg = s.numbered.length := by
    have hle := h.held
    have : s.lastSequence cfg ≤ s.held cfg := Nat.le_add_right _ _
    omega
  have hvalid := h.valid
  have hstore := h.store
  rw [hheld, List.take_length] at hvalid
  rw [hheld, replica, Replay.upTo_length] at hstore
  exact ⟨hstore, hvalid⟩

theorem Ordered.converged (h : Ordered s) (hinv : Inv cfg s) (hdrained : s.Drained) :
    s.Converged := by
  obtain ⟨hstore, hvalid⟩ := hinv.drained hdrained
  intro key
  rw [hstore, h.primary]
  refine Replay.read_eq_of_filter (fun op hop => writes_replica (hvalid op hop))
    (fun op _ => writes_primary op) ?_ ?_
  · have horder := h.order key
    rw [hdrained.1, writesTo, writesTo, writesTo, List.filter_nil, List.append_nil] at horder
    exact horder.symm
  · cases key <;> rfl

/-- The runs in which a write gets its number behind all earlier writes to its record. -/
def orderedSystem (cfg : MirrorConfig) : System Mirror :=
  (mirrorSystem cfg).restrict InOrder

theorem Reachable.of_ordered (h : Reachable (orderedSystem cfg) s) :
    Reachable (mirrorSystem cfg) s := by
  induction h with
  | init hinit => exact .init hinit
  | next _ hstep ih => exact ih.next hstep.1

/-- A run that numbers nothing is ordered. -/
theorem Run.ordered {t : Mirror} (h : Run (mirrorSystem cfg) s t)
    (hnumbered : t.numbered.length = s.numbered.length) : Run (orderedSystem cfg) s t := by
  have hgrows : ∀ {a b : Mirror}, MirrorStep cfg a b → a.numbered.length ≤ b.numbered.length := by
    intro a b hstep
    rcases unchanged_of_step hstep with ⟨op, rfl⟩ | ⟨pre, op, post, -, rfl⟩ | ⟨-, -, hn, -⟩
    · exact Nat.le_refl _
    · simp [Mirror.allocate]
    · rw [hn]
  have hmono : ∀ {b : Mirror}, Run (mirrorSystem cfg) s b → s.numbered.length ≤ b.numbered.length := by
    intro b hrun
    induction hrun with
    | refl => exact Nat.le_refl _
    | tail _ hstep ih => exact ih.trans (hgrows hstep)
  induction h with
  | refl => exact .refl
  | tail hrun hstep ih =>
      have hle := hmono hrun
      have hle' := hgrows hstep
      have hbefore := ih (by omega)
      refine hbefore.tail ⟨hstep, ?_⟩
      rcases unchanged_of_step hstep with ⟨op, rfl⟩ | ⟨pre, op, post, -, rfl⟩ | ⟨-, -, hn, -⟩
      · exact .inl rfl
      · simp only [Mirror.allocate, List.length_append, List.length_singleton] at hnumbered hle
        omega
      · exact .inl hn

theorem ordered_of_reachable (h : Reachable (orderedSystem cfg) s) : Ordered s := by
  refine h.invariant ?_ ?_
  · rintro s rfl
    exact ordered_empty
  · intro s t _ hs hstep
    exact hs.step hstep.1 hstep.2

/-- A push that the replica applies, commits and answers. -/
theorem run_replicated {s : Mirror} {q : Queued} {call : ApplyCall}
    (hpush : s.sender.drainer = .pushing q) (hwaiting : s.waiting = []) (hcurrent : s.current = none)
    (hcall : sampleCall q = some call) (hnext : s.guard.disposition call = .next)
    (hsequence : call.sequence = q.sequence) :
    Run (mirrorSystem sampleConfig) s
      { s with
        requests := s.requests ++ [⟨List.replicate 64 48, sampleBody q⟩]
        waiting := []
        current := none
        store := s.store.apply call.op
        guard := s.guard.commit call.sourceId ⟨call.sequence, call.operationDigest⟩
        answered := s.answered ++ [call.sequence]
        ahead := false
        sender := s.sender.settle true } := by
  have h1 := run_received hpush hwaiting hcurrent hcall hnext
  have h2 := (h1.tail (.apply rfl)).tail (.commit rfl)
  refine h2.tail (.settle true hpush fun _ => ?_)
  rw [← hsequence]
  exact List.mem_append_right _ List.mem_cons_self

/-- The operation that takes the registration back. -/
def sampleDelete : ReplicaOp :=
  .deletePending (Js.lit "token")

theorem sampleDelete_genuine : Js.Genuine sampleDelete.toJs :=
  .of_check (by decide +kernel)

/-- The state in which two writes to one record have been numbered and queued, the later one of the
    primary first. -/
def overtaken : Mirror :=
  (((((Mirror.empty.write sampleOp).write sampleDelete).allocate sampleDelete [sampleOp]).allocate
    sampleOp []).enqueue 2 ⟨0, 1, sampleDelete⟩ [⟨1, 2, sampleOp⟩]).enqueue 2 ⟨1, 2, sampleOp⟩ []

theorem reachable_overtaken : Reachable (mirrorSystem sampleConfig) overtaken := by
  have h0 : Reachable (mirrorSystem sampleConfig) .empty := .init rfl
  have h1 := (h0.next (.write sampleOp sampleOp_genuine)).next (.write sampleDelete sampleDelete_genuine)
  have h2 := h1.next (@MirrorStep.allocate sampleConfig _ [sampleOp] [] sampleDelete rfl
    (by decide +kernel))
  have h3 := h2.next (@MirrorStep.allocate sampleConfig _ [] [] sampleOp rfl (by decide +kernel))
  have h4 := h3.next (@MirrorStep.enqueue sampleConfig _ [] [⟨1, 2, sampleOp⟩] ⟨0, 1, sampleDelete⟩
    rfl (by decide))
  exact h4.next (@MirrorStep.enqueue sampleConfig _ [] [] ⟨1, 2, sampleOp⟩ rfl (by decide))

/-- The calls of the two pushes. -/
theorem overtaken_calls :
    ∃ c d, sampleCall ⟨0, 1, sampleDelete⟩ = some c ∧ sampleCall ⟨1, 2, sampleOp⟩ = some d ∧
      c.sourceId = Js.lit "primary" ∧ d.sourceId = Js.lit "primary" ∧ c.sequence = 1 ∧
      d.sequence = 2 ∧ sampleOp.received = some d.op := by
  obtain ⟨c, hc⟩ : ∃ c, sampleCall ⟨0, 1, sampleDelete⟩ = some c :=
    Option.isSome_iff_exists.mp (by decide +kernel)
  obtain ⟨d, hd⟩ : ∃ d, sampleCall ⟨1, 2, sampleOp⟩ = some d :=
    Option.isSome_iff_exists.mp (by decide +kernel)
  obtain ⟨hcsource, hcsequence, -⟩ := sampleCall_spec (by decide +kernel) sampleDelete_genuine hc
  obtain ⟨hdsource, hdsequence, hreceived⟩ :=
    sampleCall_spec (by decide +kernel) sampleOp_genuine hd
  exact ⟨c, d, hc, hd, hcsource, hdsource, hcsequence, hdsequence, hreceived⟩

end Mirror

end Replication
