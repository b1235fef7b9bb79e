import BpcProtocol.Ha.CutoverChain
import BpcProtocol.Ha.SourceFence

set_option autoImplicit false

/-! # No split-brain write

A source database and a control database that hold the grants of one signed lease chain, each as far
as they have reached it. Transactions of the source pass the fence and commit within their window;
transactions of the control database cut the stream over. When both clocks keep within the skew that
either side is configured with, a fenced epoch's last write has committed before its FENCED receipt
does, unless both sides are configured with no skew at all. -/

namespace Ha

open Fallible Relational Chain

variable (c : Crypto)

/-! ## The two databases -/

/-- A deployment: whose keys are trusted, which grants the guard has signed, and the least
    `maxClockSkewMs` that a source fence and that a controller is configured with. -/
structure Deployment where
  resolver : PublicKeyResolver c
  signed : SourceLeaseGrant → Prop
  sourceSkewMs : ℤ
  controlSkewMs : ℤ

/-- How far a source transaction has come. -/
inductive SourceTxStage where
  | started
  /-- `assertWritableInTx` has checked this lease and waits for its other evidence. -/
  | leaseRead (lease : SourceLeaseGrant)
  /-- `assertWritableInTx` has returned. -/
  | passed (lease : SourceLeaseGrant)

/-- An open transaction of the source: its fence and when it started. -/
structure SourceTx where
  fence : PgSourceLeaseFence
  startedAt : ℤ
  stage : SourceTxStage

/-- A source transaction that passed the fence and committed. -/
structure SourceCommit where
  streamId : JsString
  epoch : ℤ
  at_ : ℤ

/-- A transaction of `markFenced` that committed, and the receipt it answered. -/
structure FenceCommit where
  receipt : CutoverReceipt
  at_ : ℤ

/-- Both databases, the time on the source's clock in microseconds, the open source transactions,
    and what has committed so far. -/
structure SplitState (ι : Type) where
  source : LeaseDb
  control : ControlDb
  now : ℤ
  txs : ι → Option SourceTx
  commits : List SourceCommit
  fences : List FenceCommit

/-- Two clock readings, in microseconds, that differ by at most `ms` milliseconds. -/
def Within (ms a b : ℤ) : Prop := a - b ≤ 1000 * ms ∧ b - a ≤ 1000 * ms

/-- The clocks differ by no more than either side's `maxClockSkewMs`. -/
def Deployment.ClocksAgree (d : Deployment c) (source control : ℤ) : Prop :=
  Within d.sourceSkewMs source control ∧ Within d.controlSkewMs source control

/-- The controller a transaction of the control database is made on is configured with at least the
    deployment's skew. -/
def Deployment.Configured (d : Deployment c) : CutoverOp c → Prop
  | .transition ctl _ _ => d.controlSkewMs ≤ ctl.maxClockSkewMs
  | _ => True

/-- What a committed transaction of the control database adds to the FENCED commits. -/
def fencesOf (now : ℤ) : (o : CutoverOp c) → o.Result → List FenceCommit
  | .transition _ _ .fenced, receipt => [⟨receipt, now⟩]
  | _, _ => []

variable {ι : Type} [DecidableEq ι]

/-- One step: time passes, a signed grant reaches either database, a transaction of the control
    database commits, having read its clock some time before, or a source transaction takes its next
    step. -/
inductive SplitStep (d : Deployment c) : SplitState ι → SplitState ι → Prop
  | tick {s : SplitState ι} (later : ℤ) : s.now ≤ later → SplitStep d s { s with now := later }
  | installSource {s : SplitState ι} {grant : SourceLeaseGrant} {leases : LeaseDb} :
      d.signed grant → installSourceLeaseGrant c d.resolver grant s.source = .ok leases →
      SplitStep d s { s with source := leases }
  | installControl {s : SplitState ι} {grant : SourceLeaseGrant} {leases : LeaseDb} :
      d.signed grant → installSourceLeaseGrant c d.resolver grant s.control.leases = .ok leases →
      SplitStep d s { s with control := { s.control with leases } }
  | control {s : SplitState ι} {o : CutoverOp c} {read clock : ℤ}
      (redis : Except HaError RedisFenceRecord) {a : o.Result} {db : ControlDb} :
      d.Configured c o → read ≤ s.now → d.ClocksAgree c read clock →
      o.body c d.resolver ⟨roundMs clock, redis⟩ s.control = .ok (a, db) →
      SplitStep d s { s with control := db, fences := s.fences ++ fencesOf c s.now o a }
  | start {s : SplitState ι} (i : ι) (fence : PgSourceLeaseFence) :
      s.txs i = none → d.sourceSkewMs ≤ fence.binding.maxClockSkewMs →
      SplitStep d s { s with txs := Function.update s.txs i (some ⟨fence, s.now, .started⟩) }
  | readLease {s : SplitState ι} (i : ι) {tx : SourceTx} {lease : SourceLeaseGrant} :
      s.txs i = some tx →
      checkSourceLease c d.resolver tx.fence.binding
        (readSourceLeaseForWrite s.source s.now tx.fence.binding.streamId) = .ok lease →
      SplitStep d s
        { s with txs := Function.update s.txs i (some { tx with stage := .leaseRead lease }) }
  | assertWritable {s : SplitState ι} (i : ι) {tx : SourceTx} {lease : SourceLeaseGrant}
      {evidence : WriteEvidence} :
      s.txs i = some tx → tx.stage = .leaseRead lease →
      checkAuthority c d.resolver tx.fence.binding evidence = .ok () →
      SplitStep d s
        { s with txs := Function.update s.txs i (some { tx with stage := .passed lease }) }
  | commit {s : SplitState ι} (i : ι) {tx : SourceTx} {lease : SourceLeaseGrant} :
      s.txs i = some tx → tx.stage = .passed lease →
      s.now ≤ tx.startedAt + 1000 * tx.fence.binding.maxTransactionDurationMs →
      SplitStep d s { s with
        txs := Function.update s.txs i none
        commits := s.commits ++ [⟨tx.fence.binding.streamId, tx.fence.binding.epoch, s.now⟩] }
  | abort {s : SplitState ι} (i : ι) :
      SplitStep d s { s with txs := Function.update s.txs i none }

/-- Both databases as provisioned, at any time. -/
def splitSystem (d : Deployment c) (ι : Type) [DecidableEq ι] :
    Transition.System (SplitState ι) where
  init s := s.source = .empty ∧ s.control = .empty ∧ s.txs = (fun _ => none) ∧
    s.commits = [] ∧ s.fences = []
  next := SplitStep c d

/-! ## One signed chain -/

/-- No two different grants of the stream are signed under one sequence number. -/
def OneChain (signed : SourceLeaseGrant → Prop) (streamId : JsString) : Prop :=
  ∀ a b, signed a → signed b → a.streamId = streamId → b.streamId = streamId →
    a.grantSeq = b.grantSeq → a = b

/-- In a chain an active grant stands before every revoked grant of its epoch: the window is the
    same and the expiry not later. -/
theorem LeaseChain.active_le_revoked {history : List SourceLeaseGrant} (h : LeaseChain history)
    {lease revoked : SourceLeaseGrant} (hl : lease ∈ history) (hr : revoked ∈ history)
    (hactive : lease.status = .active) (hrevoked : revoked.status = .revoked)
    (hepoch : lease.epoch = revoked.epoch) :
    lease.maxTransactionDurationMs = revoked.maxTransactionDurationMs ∧
      lease.expiresAtMs ≤ revoked.expiresAtMs := by
  refine ⟨(h.identity _ hl _ hr hepoch).2.2, ?_⟩
  obtain ⟨i, hi, rfl⟩ := List.getElem_of_mem hl
  obtain ⟨j, hj, rfl⟩ := List.getElem_of_mem hr
  rcases Nat.lt_trichotomy i j with hij | rfl | hij
  · exact List.pairwise_iff_getElem.mp h.expiry i j hi hj hij hepoch
  · exact absurd (hactive.symm.trans hrevoked) (by decide)
  · exact absurd hactive
      (List.pairwise_iff_getElem.mp h.revocation j i hj hi hij hepoch.symm hrevoked)

/-- What is signed of a stream's history in one database. -/
def SignedHistory (signed : SourceLeaseGrant → Prop) (db : LeaseDb) (streamId : JsString) : Prop :=
  ∀ g ∈ db.streamRows streamId, signed g

/-- An active grant that one database holds and a revoked grant of its epoch that another holds
    agree as they do within one history: of two histories of one signed chain, the one is a prefix
    of the other. -/
theorem active_le_revoked {resolver : PublicKeyResolver c} {signed : SourceLeaseGrant → Prop}
    {streamId : JsString} (hone : OneChain signed streamId) {source control : LeaseDb}
    (hs : LeaseInv c resolver source streamId) (hc : LeaseInv c resolver control streamId)
    (hss : SignedHistory signed source streamId) (hcs : SignedHistory signed control streamId)
    {lease revoked : SourceLeaseGrant} (hl : lease ∈ source.streamRows streamId)
    (hr : revoked ∈ control.streamRows streamId)
    (hactive : lease.status = .active) (hrevoked : revoked.status = .revoked)
    (hepoch : lease.epoch = revoked.epoch) :
    lease.maxTransactionDurationMs = revoked.maxTransactionDurationMs ∧
      lease.expiresAtMs ≤ revoked.expiresAtMs := by
  have hagree : ∀ a ∈ source.streamRows streamId, ∀ b ∈ control.streamRows streamId,
      a.grantSeq = b.grantSeq → a = b := by
    intro a ha b hb hab
    exact hone a b (hss a ha) (hcs b hb) (LeaseDb.mem_streamRows.mp ha).2
      (LeaseDb.mem_streamRows.mp hb).2 hab
  rcases hs.chain.numbered.prefix_or hc.chain.numbered hagree with hpre | hpre
  · exact hc.chain.active_le_revoked (hpre.subset hl) hr hactive hrevoked hepoch
  · exact hs.chain.active_le_revoked hl (hpre.subset hr) hactive hrevoked hepoch

/-! ## What the control database does -/

/-- A lease that passes the check of a transition to FENCED. -/
theorem checkOldLease_spec {resolver : PublicKeyResolver c} {ctl : BpcCutoverController c}
    {current : CutoverReceipt} {controlNow : ℤ} {row : Option SourceLeaseGrant}
    (h : checkOldLease c resolver ctl current controlNow row = .ok ()) :
    ∃ lease, row = some lease ∧ lease.status = .revoked ∧ lease.epoch = current.previousEpoch ∧
      lease.expiresAtMs + ctl.maxClockSkewMs + lease.maxTransactionDurationMs ≤ controlNow := by
  cases row with
  | none => simp [checkOldLease] at h
  | some lease =>
      simp only [checkOldLease, bind_eq_ok, exists_unit, ensure_eq_ok, safeInt_eq_ok] at h
      obtain ⟨lease', hrow, -, ⟨hrevoked, -, hepoch, -, hwindow⟩, now, ⟨-, rfl⟩, hpast⟩ := h
      obtain rfl := eq_of_leaseFromRow hrow
      exact ⟨lease', rfl, hrevoked, hepoch, by rw [hwindow]; exact hpast⟩

theorem advance_intent {ctl : BpcCutoverController c} {current r : CutoverReceipt}
    {phase : CutoverPhase} {db db' : ControlDb}
    (h : advance c ctl current phase db = .ok (r, db')) :
    r.toCutoverIntent = current.toCutoverIntent := by
  simp only [advance, bind_eq_ok] at h
  obtain ⟨next, hsign, db₁, -, h⟩ := h
  have hnext : next.toCutoverIntent = current.toCutoverIntent :=
    by rw [(signCutoverReceipt_spec c hsign).1]
  split at h
  · simp only [bind_eq_ok, pure_eq_ok, Prod.mk.injEq] at h
    obtain ⟨db₂, -, rfl, -⟩ := h
    exact hnext
  · simp only [pure_eq_ok, Prod.mk.injEq] at h
    rw [← h.1]
    exact hnext

/-- A committed transition to FENCED found the old epoch's lease revoked, and its clock past the
    expiry, the controller's skew and the transaction window. -/
theorem transition_fenced_spec {resolver : PublicKeyResolver c} {ctl : BpcCutoverController c}
    {commandId : JsString} {evidence : FenceEvidence} {db db' : ControlDb} {r : CutoverReceipt}
    (h : ctl.transition c resolver commandId .fenced evidence db = .ok (r, db')) :
    ∃ lease, db.leases.head r.streamId = some lease ∧ lease.status = .revoked ∧
      r.targetEpoch = lease.epoch + 1 ∧
      lease.expiresAtMs + ctl.maxClockSkewMs + lease.maxTransactionDurationMs ≤
        evidence.controlNow := by
  unfold BpcCutoverController.transition at h
  split at h
  · simp at h
  · next row hrow =>
      simp only [bind_eq_ok] at h
      obtain ⟨current, hcurrent, h⟩ := h
      simp only [transitionFenced, bind_eq_ok, exists_unit] at h
      obtain ⟨hfence, h⟩ := h
      -- whichever branch is taken, the receipt answered carries the intent that was checked
      have hintent : r.toCutoverIntent = current.toCutoverIntent := by
        split at h
        · exact advance_intent c h
        · simp only [bind_eq_ok, exists_unit, pure_eq_ok, Prod.mk.injEq] at h
          rw [← h.2.1]
      have htarget : current.targetEpoch = current.previousEpoch + 1 := by
        simp only [currentReceipt, verifyCutoverReceipt, bind_eq_ok, exists_unit,
          pure_eq_ok] at hcurrent
        obtain ⟨_, -, ⟨hvalid, -⟩, rfl⟩ := hcurrent
        exact target_of_validate hvalid
      simp only [checkFence, bind_eq_ok, exists_unit] at hfence
      obtain ⟨lease, hlease, hrevoked, hepoch, hpast⟩ := checkOldLease_spec c hfence.1
      have hstream : r.streamId = current.streamId := congrArg CutoverIntent.streamId hintent
      have hr : r.targetEpoch = current.targetEpoch := congrArg CutoverIntent.targetEpoch hintent
      refine ⟨lease, ?_, hrevoked, by omega, hpast⟩
      rw [hstream]
      exact hlease

theorem writeReceipt_leases {db db' : ControlDb} {current : Option CutoverReceipt}
    {receipt : CutoverReceipt} (h : writeReceipt db current receipt = .ok db') :
    db'.leases = db.leases := by
  simp only [writeReceipt, bind_eq_ok] at h
  obtain ⟨history, -, h⟩ := h
  cases current with
  | none =>
      simp only [bind_eq_ok, pure_eq_ok] at h
      obtain ⟨_, -, rfl⟩ := h
      rfl
  | some cur =>
      simp only [bind_eq_ok, exists_unit, pure_eq_ok, Prod.exists] at h
      obtain ⟨_, _, -, -, rfl⟩ := h
      rfl

theorem advance_leases {ctl : BpcCutoverController c} {current r : CutoverReceipt}
    {phase : CutoverPhase} {db db' : ControlDb}
    (h : advance c ctl current phase db = .ok (r, db')) : db'.leases = db.leases := by
  simp only [advance, bind_eq_ok] at h
  obtain ⟨next, -, db₁, hwrite, h⟩ := h
  have h₁ := writeReceipt_leases hwrite
  split at h
  · simp only [bind_eq_ok, pure_eq_ok, Prod.mk.injEq, advanceWitness, exists_unit,
      Prod.exists] at h
    obtain ⟨db₂, ⟨_, _, -, -, rfl⟩, -, rfl⟩ := h
    exact h₁
  · simp only [pure_eq_ok, Prod.mk.injEq] at h
    rw [← h.2]
    exact h₁

theorem prepare_leases {resolver : PublicKeyResolver c} {ctl : BpcCutoverController c}
    {input : CutoverIntent} {db db' : ControlDb} {current : Option CutoverReceipt}
    {r : CutoverReceipt} (h : prepare c resolver ctl input db current = .ok (r, db')) :
    db'.leases = db.leases := by
  simp only [prepare, bind_eq_ok, exists_unit, pure_eq_ok, Prod.mk.injEq] at h
  obtain ⟨-, _, -, -, db₁, hwitness, _, -, -, db₂, hwrite, -, rfl⟩ := h
  rw [writeReceipt_leases hwrite]
  unfold witnessRow at hwitness
  split at hwitness
  · rw [← (pure_eq_ok _ _).mp hwitness]
  · simp only [bind_eq_ok, pure_eq_ok] at hwitness
    obtain ⟨_, -, rfl⟩ := hwitness
    rfl

/-- The transactions of the controller leave the leases alone. -/
theorem CutoverOp.body_leases {resolver : PublicKeyResolver c} {evidence : FenceEvidence}
    {o : CutoverOp c} {a : o.Result} {db db' : ControlDb}
    (h : o.body c resolver evidence db = .ok (a, db')) : db'.leases = db.leases := by
  cases o with
  | «begin» ctl input =>
      rcases begin_cases c resolver h with rfl | h
      · rfl
      · exact prepare_leases c h
  | transition ctl commandId phase =>
      rcases transition_cases c resolver h with rfl | ⟨_, _, -, -, h⟩
      · rfl
      · exact advance_leases c h
  | readHead commandId =>
      rw [readHeadTx_spec h]
  | readAttestation commandId =>
      cases h
      rfl
  | insertAttestation commandId attestation =>
      simp only [CutoverOp.body, insertAttestationTx, bind_eq_ok, exists_unit, pure_eq_ok,
        Prod.exists, Prod.mk.injEq] at h
      obtain ⟨_, _, -, -, -, rfl⟩ := h
      rfl
  | bootstrapGenesis streamId digest =>
      simp only [CutoverOp.body, bootstrapGenesisTx, bind_eq_ok, Prod.exists] at h
      obtain ⟨_, _, -, h⟩ := h
      split at h
      · simp only [bind_eq_ok, exists_unit, pure_eq_ok, Prod.mk.injEq] at h
        rw [← h.2.2]
      · simp only [pure_eq_ok, Prod.mk.injEq] at h
        rw [← h.2]

/-! ## The invariant -/

/-- The lease a source transaction has read, if it has. -/
def SourceTxStage.lease : SourceTxStage → Option SourceLeaseGrant
  | .started => none
  | .leaseRead lease => some lease
  | .passed lease => some lease

/-- What a source transaction's lease check leaves true: the lease stays in the history, and the
    transaction started before its expiry less the skew. -/
structure LeaseHeld (d : Deployment c) (rows : List SourceLeaseGrant) (tx : SourceTx)
    (lease : SourceLeaseGrant) : Prop where
  held : lease ∈ rows
  active : lease.status = .active
  epoch : lease.epoch = tx.fence.binding.epoch
  window : lease.maxTransactionDurationMs = tx.fence.binding.maxTransactionDurationMs
  early : tx.startedAt < 1000 * (lease.expiresAtMs - d.sourceSkewMs)

/-- An open source transaction of the stream. -/
structure TxInv (d : Deployment c) (rows : List SourceLeaseGrant) (now : ℤ) (tx : SourceTx) :
    Prop where
  started : tx.startedAt ≤ now
  skew : d.sourceSkewMs ≤ tx.fence.binding.maxClockSkewMs
  lease : ∀ lease ∈ tx.stage.lease, LeaseHeld c d rows tx lease

/-- A commit of the source: an active lease of its epoch, in whose time it happened. -/
def CommitInv (d : Deployment c) (rows : List SourceLeaseGrant) (commit : SourceCommit) : Prop :=
  ∃ lease ∈ rows, lease.status = .active ∧ lease.epoch = commit.epoch ∧
    commit.at_ < 1000 * (lease.expiresAtMs - d.sourceSkewMs + lease.maxTransactionDurationMs)

/-- A FENCED commit: the revoked lease of the epoch before, whose time was past on a control clock
    that ran ahead of the source's by the skew and the rounding at most. -/
def FenceInv (d : Deployment c) (rows : List SourceLeaseGrant) (fence : FenceCommit) : Prop :=
  ∃ lease ∈ rows, lease.status = .revoked ∧ fence.receipt.targetEpoch = lease.epoch + 1 ∧
    ∀ skew, skew = d.sourceSkewMs ∨ skew = d.controlSkewMs →
      1000 * (lease.expiresAtMs + d.controlSkewMs + lease.maxTransactionDurationMs) ≤
        fence.at_ + 500 + 1000 * skew

/-- The invariant of one stream. -/
structure SplitInv (d : Deployment c) (streamId : JsString) (s : SplitState ι) : Prop where
  source : LeaseInv c d.resolver s.source streamId
  control : LeaseInv c d.resolver s.control.leases streamId
  sourceSigned : SignedHistory d.signed s.source streamId
  controlSigned : SignedHistory d.signed s.control.leases streamId
  txs : ∀ i, ∀ tx ∈ s.txs i, tx.fence.binding.streamId = streamId →
    TxInv c d (s.source.streamRows streamId) s.now tx
  commits : ∀ commit ∈ s.commits, commit.streamId = streamId →
    CommitInv c d (s.source.streamRows streamId) commit
  fences : ∀ fence ∈ s.fences, fence.receipt.streamId = streamId →
    FenceInv c d (s.control.leases.streamRows streamId) fence

theorem TxInv.mono {d : Deployment c} {rows rows' : List SourceLeaseGrant} {now now' : ℤ}
    {tx : SourceTx} (h : TxInv c d rows now tx) (hrows : rows ⊆ rows') (hnow : now ≤ now') :
    TxInv c d rows' now' tx :=
  ⟨Int.le_trans h.started hnow, h.skew, fun lease hl =>
    { h.lease lease hl with held := hrows (h.lease lease hl).held }⟩

/-- An installation leaves the stream's rows alone or appends the grant to them. -/
theorem installSourceLeaseGrant_rows {resolver : PublicKeyResolver c} {grant : SourceLeaseGrant}
    {db db' : LeaseDb} (h : installSourceLeaseGrant c resolver grant db = .ok db')
    (streamId : JsString) :
    db.streamRows streamId ⊆ db'.streamRows streamId ∧
      ∀ g ∈ db'.streamRows streamId, g ∈ db.streamRows streamId ∨ g = grant := by
  obtain ⟨-, rfl | ⟨-, hwrite⟩⟩ := installSourceLeaseGrant_cases c resolver h
  · exact ⟨List.Subset.refl _, fun g hg => Or.inl hg⟩
  · rw [(writeGrant_spec hwrite streamId).1]
    refine ⟨List.subset_append_left _ _, fun g hg => ?_⟩
    rcases List.mem_append.mp hg with hg | hg
    · exact Or.inl hg
    · split at hg
      · exact Or.inr (List.mem_singleton.mp hg)
      · simp at hg

theorem SignedHistory.install {resolver : PublicKeyResolver c} {signed : SourceLeaseGrant → Prop}
    {grant : SourceLeaseGrant} {db db' : LeaseDb} {streamId : JsString}
    (hinv : SignedHistory signed db streamId) (hgrant : signed grant)
    (h : installSourceLeaseGrant c resolver grant db = .ok db') :
    SignedHistory signed db' streamId := by
  intro g hg
  rcases (installSourceLeaseGrant_rows c h streamId).2 g hg with hg | rfl
  · exact hinv g hg
  · exact hgrant

/-- A change of one source transaction, which keeps what holds of all of them. -/
theorem SplitInv.setTx {d : Deployment c} {streamId : JsString} {s : SplitState ι}
    (hinv : SplitInv c d streamId s) (i : ι) (tx : Option SourceTx)
    (htx : ∀ tx' ∈ tx, tx'.fence.binding.streamId = streamId →
      TxInv c d (s.source.streamRows streamId) s.now tx') :
    SplitInv c d streamId { s with txs := Function.update s.txs i tx } := by
  refine { hinv with txs := fun j tx' htx' hstream => ?_ }
  change tx' ∈ Function.update s.txs i tx j at htx'
  rcases eq_or_ne j i with rfl | hne
  · rw [Function.update_self] at htx'
    exact htx tx' htx' hstream
  · rw [Function.update_of_ne hne] at htx'
    exact hinv.txs j tx' htx' hstream

/-- A lease read at the source is the last of its history, so the history holds it. -/
theorem leaseHeld_of_check {d : Deployment c} {streamId : JsString} {db : LeaseDb} {now : ℤ}
    {tx : SourceTx} {lease : SourceLeaseGrant} (hdb : LeaseInv c d.resolver db streamId)
    (hskew : d.sourceSkewMs ≤ tx.fence.binding.maxClockSkewMs) (hstart : tx.startedAt ≤ now)
    (h : checkSourceLease c d.resolver tx.fence.binding
      (readSourceLeaseForWrite db now streamId) = .ok lease) :
    LeaseHeld c d (db.streamRows streamId) tx lease := by
  unfold readSourceLeaseForWrite at h
  rcases hhead : db.head streamId with _ | head
  · rw [hhead] at h
    simp [checkSourceLease] at h
  · rw [hhead, Option.map_some] at h
    obtain ⟨rfl, hactive, hepoch, hwindow, hlive⟩ := checkSourceLease_spec c d.resolver h
    refine ⟨?_, hactive, hepoch, hwindow, ?_⟩
    · rw [hdb.head] at hhead
      exact List.mem_of_getLast? hhead
    · have hnow : now < 1000 * (lease.expiresAtMs - tx.fence.binding.maxClockSkewMs) := by
        rw [← floorMs_lt]
        exact Int.lt_sub_right_of_add_lt hlive
      omega

/-- A committed FENCED transition read a control clock past the old lease's time, so the source's
    clock is past it too, less what the two may differ and what the reading was rounded up by. -/
theorem fenceInv_of_body {d : Deployment c} {streamId : JsString} {db db' : ControlDb} {now read
    clock : ℤ} {o : CutoverOp c} {redis : Except HaError RedisFenceRecord} {a : o.Result}
    {fence : FenceCommit} (hleases : LeaseInv c d.resolver db.leases streamId)
    (hconfigured : d.Configured c o) (hread : read ≤ now) (hclocks : d.ClocksAgree c read clock)
    (hbody : o.body c d.resolver ⟨roundMs clock, redis⟩ db = .ok (a, db'))
    (hfence : fence ∈ fencesOf c now o a) (hstream : fence.receipt.streamId = streamId) :
    FenceInv c d (db.leases.streamRows streamId) fence := by
  unfold fencesOf at hfence
  split at hfence
  · next ctl commandId receipt =>
      obtain rfl := List.mem_singleton.mp hfence
      obtain ⟨lease, hhead, hrevoked, htarget, hpast⟩ := transition_fenced_spec c hbody
      have hround := le_of_le_roundMs hpast
      have hskew : d.controlSkewMs ≤ ctl.maxClockSkewMs := hconfigured
      refine ⟨lease, ?_, hrevoked, htarget, fun skew hs => ?_⟩
      · rw [hstream, hleases.head] at hhead
        exact List.mem_of_getLast? hhead
      · have hwithin : clock - read ≤ 1000 * skew := by
          rcases hs with rfl | rfl
          · exact hclocks.1.2
          · exact hclocks.2.2
        show _ ≤ now + 500 + _
        omega
  · simp at hfence

/-- One step keeps the invariant. -/
theorem SplitInv.step {d : Deployment c} {streamId : JsString} {s t : SplitState ι}
    (hinv : SplitInv c d streamId s) (h : SplitStep c d s t) : SplitInv c d streamId t := by
  cases h with
  | tick later hlater =>
      exact { hinv with
        txs := fun i tx htx hstream =>
          (hinv.txs i tx htx hstream).mono c (List.Subset.refl _) hlater }
  | installSource hsigned hinstall =>
      have hrows := (installSourceLeaseGrant_rows c hinstall streamId).1
      refine { hinv with
        source := hinv.source.install c d.resolver hinstall
        sourceSigned := hinv.sourceSigned.install c hsigned hinstall
        txs := fun i tx htx hstream => (hinv.txs i tx htx hstream).mono c hrows (Int.le_refl _)
        commits := fun commit hcommit hstream => ?_ }
      obtain ⟨lease, hmem, hlease⟩ := hinv.commits commit hcommit hstream
      exact ⟨lease, hrows hmem, hlease⟩
  | installControl hsigned hinstall =>
      have hrows := (installSourceLeaseGrant_rows c hinstall streamId).1
      refine { hinv with
        control := hinv.control.install c d.resolver hinstall
        controlSigned := hinv.controlSigned.install c hsigned hinstall
        fences := fun fence hfence hstream => ?_ }
      obtain ⟨lease, hmem, hlease⟩ := hinv.fences fence hfence hstream
      exact ⟨lease, hrows hmem, hlease⟩
  | control redis hconfigured hread hclocks hbody =>
      have hleases := CutoverOp.body_leases c hbody
      refine { hinv with
        control := by rw [hleases]; exact hinv.control
        controlSigned := by rw [hleases]; exact hinv.controlSigned
        fences := fun fence hfence hstream => ?_ }
      rw [hleases]
      rcases List.mem_append.mp hfence with hold | hnew
      · exact hinv.fences fence hold hstream
      · exact fenceInv_of_body c hinv.control hconfigured hread hclocks hbody hnew hstream
  | start i fence hi hskew =>
      refine hinv.setTx c i _ ?_
      rintro tx ⟨⟩ -
      exact ⟨Int.le_refl _, hskew, by simp [SourceTxStage.lease]⟩
  | readLease i hi hcheck =>
      refine hinv.setTx c i _ ?_
      rintro tx' ⟨⟩ hstream
      have htx := hinv.txs i _ hi hstream
      refine ⟨htx.started, htx.skew, ?_⟩
      rintro lease ⟨⟩
      have hheld := leaseHeld_of_check c hinv.source htx.skew htx.started (hstream ▸ hcheck)
      exact { hheld with }
  | assertWritable i hi hstage hcheck =>
      refine hinv.setTx c i _ ?_
      rintro tx' ⟨⟩ hstream
      have htx := hinv.txs i _ hi hstream
      refine ⟨htx.started, htx.skew, ?_⟩
      rintro lease ⟨⟩
      have hheld := htx.lease _ (by rw [hstage]; rfl)
      exact { hheld with }
  | commit i hi hstage hbound =>
      have hset := hinv.setTx c i none (by rintro tx' ⟨⟩)
      refine { hset with commits := fun commit hcommit hstream => ?_ }
      rcases List.mem_append.mp hcommit with hold | hnew
      · exact hinv.commits commit hold hstream
      · obtain rfl := List.mem_singleton.mp hnew
        have hheld := (hinv.txs i _ hi hstream).lease _ (by rw [hstage]; rfl)
        refine ⟨_, hheld.held, hheld.active, hheld.epoch, ?_⟩
        have hearly := hheld.early
        rw [hheld.window]
        show s.now < _
        omega
  | abort i => exact hinv.setTx c i none (by rintro tx' ⟨⟩)

/-- **No split-brain write.** In every run of a stream with one signed lease chain, a source
    transaction that passed the fence for an epoch commits before the FENCED receipt of the next
    epoch does, when the sources or the controllers are configured with a skew. -/
theorem noSplitBrain {d : Deployment c} {streamId : JsString} (hone : OneChain d.signed streamId)
    (hskew : 0 < d.sourceSkewMs ∨ 0 < d.controlSkewMs) {s : SplitState ι}
    (h : Transition.Reachable (splitSystem c d ι) s) :
    ∀ commit ∈ s.commits, ∀ fence ∈ s.fences, commit.streamId = streamId →
      fence.receipt.streamId = streamId → fence.receipt.targetEpoch = commit.epoch + 1 →
      commit.at_ < fence.at_ := by
  have hinv : SplitInv c d streamId s := by
    refine h.invariant (fun s hs => ?_) fun s t _ hs hstep => hs.step c hstep
    obtain ⟨hsource, hcontrol, htxs, hcommits, hfences⟩ := hs
    refine ⟨?_, ?_, ?_, ?_, ?_, ?_, ?_⟩
    · rw [hsource]
      exact LeaseInv.empty c d.resolver streamId
    · rw [hcontrol]
      exact LeaseInv.empty c d.resolver streamId
    · rw [hsource]
      simp [SignedHistory, LeaseDb.streamRows, LeaseDb.empty]
    · rw [hcontrol]
      simp [SignedHistory, LeaseDb.streamRows, LeaseDb.empty, ControlDb.empty]
    · simp [htxs]
    · simp [hcommits]
    · simp [hfences]
  intro commit hcommit fence hfence hcs hfs htarget
  obtain ⟨lease, hl, hactive, hle, hbefore⟩ := hinv.commits commit hcommit hcs
  obtain ⟨revoked, hr, hrevoked, hre, hafter⟩ := hinv.fences fence hfence hfs
  obtain ⟨hwindow, hexpiry⟩ := active_le_revoked c hone hinv.source hinv.control
    hinv.sourceSigned hinv.controlSigned hl hr hactive hrevoked (by omega)
  -- the two configured skews and the distance of the clocks leave the larger skew as slack, which
  -- must cover the half millisecond by which the control clock is rounded up
  have hsource := hafter _ (Or.inl rfl)
  have hcontrol := hafter _ (Or.inr rfl)
  omega

/-! ## Concrete runs

One source transaction and one cutover, with both clocks equal: the transaction passes the fence in
the last microsecond of a lease that expires at one millisecond, and has one millisecond to
commit. -/

namespace SplitExample

open CutoverExample (streamId record recordDigest)

/-- The guard's key and the source node's. -/
def keys : PublicKeyResolver lengthCrypto := fun keyId =>
  if keyId = Js.lit "guard" then some (1 : ℕ)
  else if keyId = Js.lit "node" then some (3 : ℕ)
  else none

def bareActive : BareSourceLeaseGrant :=
  { CutoverExample.bareGrant with
    status := .active, commandId := Js.lit "grant", expiresAtMs := 1 }

@[irreducible]
def active : SourceLeaseGrant :=
  result (signSourceLeaseGrant lengthCrypto (Js.lit "guard") (1 : ℕ) bareActive) (by decide +kernel)

@[irreducible]
def revoked : SourceLeaseGrant :=
  result (signSourceLeaseGrant lengthCrypto (Js.lit "guard") (1 : ℕ)
    { CutoverExample.bareGrant with
      expiresAtMs := 1, grantSeq := 2, prevDigest := some active.grantDigest }) (by decide +kernel)

def deployment (controlSkewMs : ℤ) : Deployment lengthCrypto where
  resolver := keys
  signed g := g = active ∨ g = revoked
  sourceSkewMs := 0
  controlSkewMs := controlSkewMs

theorem oneChain (controlSkewMs : ℤ) : OneChain (deployment controlSkewMs).signed streamId := by
  have hseq : active.grantSeq ≠ revoked.grantSeq := by decide +kernel
  intro a b ha hb _ _ hab
  rcases ha with ha | ha <;> rcases hb with hb | hb
  · rw [ha, hb]
  · exact absurd (ha ▸ hb ▸ hab) hseq
  · exact absurd (ha ▸ hb ▸ hab.symm) hseq
  · rw [ha, hb]

/-- The Redis record of the source node. -/
def sourceRecord : RedisFenceRecord := { record 1 with nodeId := Js.lit "a" }

def fence : PgSourceLeaseFence where
  proverKeyId := Js.lit "node"
  transactorMs := 1
  binding :=
    { streamId, epoch := 1, holderNodeId := Js.lit "a", authoritySystemId := Js.lit "7"
      nodeCredentialKeyId := Js.lit "node", leaseId := Js.lit "lease"
      grantDigest := active.grantDigest
      redisClaimDigest := orElse (redisFenceRecordDigest lengthCrypto sourceRecord) []
      maxClockSkewMs := 0, maxTransactionDurationMs := 1, activationDigest := none }
  valid := by decide +kernel

def evidence : WriteEvidence where
  activation := none
  redis := .ok sourceRecord
  systemIdentifier := Js.lit "7"
  randomText := []
  prove _ := .ok (Js.decimal 3)

def intent : CutoverIntent :=
  { CutoverExample.intent with
    oldLeaseDigest := revoked.grantDigest, oldLeaseExpiresAtMs := 1 }

def controller (maxClockSkewMs : ℤ) : BpcCutoverController lengthCrypto :=
  { CutoverExample.guard with maxClockSkewMs }

/-- The source holds the active grant, the control database the revoked one too. -/
@[irreducible]
def sourceLeases : LeaseDb :=
  result (installSourceLeaseGrant lengthCrypto keys active .empty) (by decide +kernel)

@[irreducible]
def controlLeases : LeaseDb :=
  result (installSourceLeaseGrant lengthCrypto keys revoked sourceLeases) (by decide +kernel)

@[irreducible]
def atGenesis : Unit × ControlDb :=
  result (bootstrapGenesisTx streamId (recordDigest 1)
    { ControlDb.empty with leases := controlLeases }) (by decide +kernel)

@[irreducible]
def begun : CutoverReceipt × ControlDb :=
  result ((controller 0).begin lengthCrypto keys intent atGenesis.2) (by decide +kernel)

theorem genesis_eq : bootstrapGenesisTx streamId (recordDigest 1)
    { ControlDb.empty with leases := controlLeases } = .ok (atGenesis.1, atGenesis.2) := by
  unfold atGenesis
  exact eq_ok_result_pair _ _

theorem begin_eq : (controller 0).begin lengthCrypto keys intent atGenesis.2 =
    .ok (begun.1, begun.2) := by
  unfold begun
  exact eq_ok_result_pair _ _

theorem active_eq : installSourceLeaseGrant lengthCrypto keys active .empty =
    .ok sourceLeases := by
  unfold sourceLeases
  exact eq_ok_result _ _

theorem revoked_eq : installSourceLeaseGrant lengthCrypto keys revoked sourceLeases =
    .ok controlLeases := by
  unfold controlLeases
  exact eq_ok_result _ _

theorem checkSourceLease_eq : checkSourceLease lengthCrypto keys fence.binding
    (readSourceLeaseForWrite sourceLeases 999 streamId) = .ok active := by
  decide +kernel

theorem checkAuthority_eq : checkAuthority lengthCrypto keys fence.binding evidence = .ok () := by
  decide +kernel

/-- A state of the runs: no source transaction and nothing committed. -/
def quiet (source : LeaseDb) (control : ControlDb) (now : ℤ) : SplitState Unit :=
  ⟨source, control, now, fun _ => none, [], []⟩

/-- The state in which the one source transaction has reached a stage. -/
def writing (control : ControlDb) (now : ℤ) (stage : SourceTxStage) : SplitState Unit :=
  ⟨sourceLeases, control, now, fun _ => some ⟨fence, 999, stage⟩, [], []⟩

theorem update_unit {α : Type} (f : Unit → α) (a : α) : Function.update f () a = fun _ => a := by
  funext u
  exact Function.update_self _ _ _

abbrev Reaches (k : ℤ) (s : SplitState Unit) : Prop :=
  Transition.Reachable (splitSystem lengthCrypto (deployment k) Unit) s

/-- The clocks are equal, which is within any skew. -/
theorem clocksAgree {k : ℤ} (hk : 0 ≤ k) (t : ℤ) :
    (deployment k).ClocksAgree lengthCrypto t t := by
  refine ⟨⟨?_, ?_⟩, ?_, ?_⟩ <;> simp only [deployment] <;> omega

/-- Both runs come here: the cutover has begun, and the transaction has passed the fence and is
    still open. -/
theorem reachable_passed {k : ℤ} (hk : 0 ≤ k) :
    Reaches k (writing begun.2 999 (.passed active)) := by
  have h₀ : Reaches k (quiet .empty .empty 0) := .init ⟨rfl, rfl, rfl, rfl, rfl⟩
  have h₁ : Reaches k (quiet sourceLeases .empty 0) :=
    h₀.next (SplitStep.installSource (Or.inl rfl) active_eq)
  have h₂ : Reaches k
      (quiet sourceLeases { ControlDb.empty with leases := sourceLeases } 0) :=
    h₁.next (SplitStep.installControl (Or.inl rfl) active_eq)
  have h₃ : Reaches k
      (quiet sourceLeases { ControlDb.empty with leases := controlLeases } 0) :=
    h₂.next (SplitStep.installControl (Or.inr rfl) revoked_eq)
  have h₄ : Reaches k (quiet sourceLeases atGenesis.2 0) :=
    h₃.next (SplitStep.control (o := .bootstrapGenesis streamId (recordDigest 1))
      (.ok (record 2)) trivial (Int.le_refl _) (clocksAgree hk 0) genesis_eq)
  have h₅ : Reaches k (quiet sourceLeases begun.2 0) :=
    h₄.next (SplitStep.control (o := .begin (controller 0) intent) (.ok (record 2)) trivial
      (Int.le_refl _) (clocksAgree hk 0) begin_eq)
  have h₆ : Reaches k (quiet sourceLeases begun.2 999) :=
    h₅.next (SplitStep.tick 999 (by decide))
  have h₇ : Reaches k (writing begun.2 999 .started) := by
    have h := h₆.next (SplitStep.start () fence rfl (Int.le_refl _))
    rwa [update_unit] at h
  have h₈ : Reaches k (writing begun.2 999 (.leaseRead active)) := by
    have h := h₇.next (SplitStep.readLease () rfl checkSourceLease_eq)
    rwa [update_unit] at h
  have h := h₈.next (SplitStep.assertWritable () rfl rfl checkAuthority_eq)
  rwa [update_unit] at h

@[irreducible]
def fencedAt (k clock : ℤ) (h : ((controller k).transition lengthCrypto keys (Js.lit "cutover")
    .fenced ⟨roundMs clock, .ok (record 2)⟩ begun.2).isOk = true) : CutoverReceipt × ControlDb :=
  result _ h

/-- A run in which the old lease is fenced at a clock reading, before or after the transaction
    commits. -/
theorem fencedAt_eq {k clock : ℤ} (h : ((controller k).transition lengthCrypto keys
    (Js.lit "cutover") .fenced ⟨roundMs clock, .ok (record 2)⟩ begun.2).isOk = true) :
    (CutoverOp.transition (controller k) (Js.lit "cutover") .fenced).body lengthCrypto keys
      ⟨roundMs clock, .ok (record 2)⟩ begun.2 = .ok ((fencedAt k clock h).1, (fencedAt k clock h).2) := by
  unfold fencedAt
  exact eq_ok_result_pair _ _

theorem early_isOk : ((controller 0).transition lengthCrypto keys (Js.lit "cutover")
    .fenced ⟨roundMs 1500, .ok (record 2)⟩ begun.2).isOk = true := by
  decide +kernel

theorem late_isOk : ((controller 1).transition lengthCrypto keys (Js.lit "cutover")
    .fenced ⟨roundMs 2500, .ok (record 2)⟩ begun.2).isOk = true := by
  decide +kernel

/-- With no skew configured: half a millisecond before the transaction's time is over the control
    clock reads the full millisecond, the cutover is fenced, and the transaction commits after it. -/
theorem reachable_overlap : ∃ s, Reaches 0 s ∧ s.commits = [⟨streamId, 1, 1999⟩] ∧
    s.fences = [⟨(fencedAt 0 1500 early_isOk).1, 1500⟩] := by
  have h₁ := (reachable_passed (Int.le_refl 0)).next (SplitStep.tick 1500 (by decide))
  have h₂ := h₁.next (SplitStep.control (o := .transition (controller 0) (Js.lit "cutover") .fenced)
    (.ok (record 2)) (Int.le_refl 0) (Int.le_refl _) (clocksAgree (Int.le_refl 0) 1500)
    (fencedAt_eq early_isOk))
  have h₃ := h₂.next (SplitStep.tick 1999 (by decide))
  exact ⟨_, h₃.next (SplitStep.commit () rfl rfl (by decide)), rfl, rfl⟩

/-- With the controller's skew at one millisecond the same transaction has committed before. -/
theorem reachable_apart : ∃ s, Reaches 1 s ∧ s.commits = [⟨streamId, 1, 1999⟩] ∧
    s.fences = [⟨(fencedAt 1 2500 late_isOk).1, 2500⟩] := by
  have h₁ := (reachable_passed (k := 1) (by decide)).next (SplitStep.tick 1999 (by decide))
  have h₂ := h₁.next (SplitStep.commit () rfl rfl (by decide))
  have h₃ := h₂.next (SplitStep.tick 2500 (by decide))
  exact ⟨_, h₃.next (SplitStep.control
    (o := .transition (controller 1) (Js.lit "cutover") .fenced) (.ok (record 2)) (Int.le_refl 1)
    (Int.le_refl _) (clocksAgree (by decide) 2500) (fencedAt_eq late_isOk)), rfl, rfl⟩

end SplitExample

/-- A run to which the theorem applies: one commit, and then one FENCED receipt of the next epoch. -/
theorem noSplitBrain_apart : ∃ s : SplitState Unit,
    Transition.Reachable (splitSystem lengthCrypto (SplitExample.deployment 1) Unit) s ∧
      s.commits.length = 1 ∧ s.fences.map (·.receipt.targetEpoch) = [2] ∧
      ∀ commit ∈ s.commits, ∀ fence ∈ s.fences, commit.at_ < fence.at_ := by
  obtain ⟨s, h, hcommits, hfences⟩ := SplitExample.reachable_apart
  have ⟨htarget, hstream⟩ : (SplitExample.fencedAt 1 2500 SplitExample.late_isOk).1.targetEpoch = 2 ∧
      (SplitExample.fencedAt 1 2500 SplitExample.late_isOk).1.streamId =
        CutoverExample.streamId := by
    decide +kernel
  refine ⟨s, h, by rw [hcommits]; rfl, by rw [hfences]; simp [htarget], ?_⟩
  intro commit hc fence hf
  refine noSplitBrain lengthCrypto (SplitExample.oneChain 1) (Or.inr (by decide)) h commit hc fence
    hf ?_ ?_ ?_
  · rw [hcommits, List.mem_singleton] at hc
    rw [hc]
  · rw [hfences, List.mem_singleton] at hf
    rw [hf, hstream]
  · rw [hcommits, List.mem_singleton] at hc
    rw [hfences, List.mem_singleton] at hf
    rw [hc, hf, htarget]
    rfl

/-- With no skew configured, on clocks that never differ, a source transaction of the fenced epoch
    commits after the FENCED receipt: the control clock is rounded up, by up to half a millisecond,
    where the source's is cut off. -/
theorem splitBrain_unskewed : ∃ s : SplitState Unit,
    Transition.Reachable (splitSystem lengthCrypto (SplitExample.deployment 0) Unit) s ∧
      OneChain (SplitExample.deployment 0).signed CutoverExample.streamId ∧
      ∃ commit ∈ s.commits, ∃ fence ∈ s.fences, commit.streamId = CutoverExample.streamId ∧
        fence.receipt.streamId = CutoverExample.streamId ∧
        fence.receipt.targetEpoch = commit.epoch + 1 ∧ fence.at_ < commit.at_ := by
  obtain ⟨s, h, hcommits, hfences⟩ := SplitExample.reachable_overlap
  have ⟨htarget, hstream⟩ : (SplitExample.fencedAt 0 1500 SplitExample.early_isOk).1.targetEpoch = 2 ∧
      (SplitExample.fencedAt 0 1500 SplitExample.early_isOk).1.streamId =
        CutoverExample.streamId := by
    decide +kernel
  exact ⟨s, h, SplitExample.oneChain 0, ⟨CutoverExample.streamId, 1, 1999⟩, by simp [hcommits],
    ⟨(SplitExample.fencedAt 0 1500 SplitExample.early_isOk).1, 1500⟩, by simp [hfences], rfl,
    hstream, htarget, by decide⟩

end Ha
