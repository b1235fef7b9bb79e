import BpcProtocol.Durable.Promotion
import BpcProtocol.Durable.Publisher

set_option autoImplicit false

/-! # The checkpoint of the receiver

`PgReceiverCheckpoint` decides on a delivered record in one transaction: it checks the record, the
fence and its own checkpoint, and applies the record that is next. What applying a record does to the
data of the receiver is up to the applier. -/

namespace Durable

open Ha Fallible Relational

/-- The tables of a receiver that the checkpoint reads and writes, and the data that records are
    applied to. -/
structure ReceiverSide (σ : Type) where
  fence : Table fenceSchema
  receiverCheckpoint : Table receiverCheckpointSchema
  applied : Table appliedSchema
  data : σ

namespace ReceiverSide

variable {σ : Type} (db : ReceiverSide σ)

/-- `SELECT fence_token FROM ha_outbox_fence WHERE stream_id = $1`. -/
def fenceOf (streamId : JsString) : Option FenceRow :=
  db.fence.select fun r => r.streamId == streamId

/-- `SELECT source_epoch, sequence FROM ha_outbox_receiver_checkpoint WHERE stream_id = $1`. -/
def checkpointOf (streamId : JsString) : Option ReceiverCheckpointRow :=
  db.receiverCheckpoint.select fun r => r.streamId == streamId

/-- `SELECT op_digest FROM ha_outbox_applied WHERE stream_id = $1 AND source_epoch = $2 AND
    sequence = $3`. -/
def appliedOf (streamId sourceEpoch : JsString) (sequence : ℤ) : Option AppliedRow :=
  db.applied.select fun r =>
    r.streamId == streamId && r.sourceEpoch == sourceEpoch && r.sequence == sequence

/-- The records of a stream that were applied, in their order. -/
def historyOf (streamId : JsString) : List AppliedRow :=
  db.applied.rows.filter fun r => r.streamId == streamId

end ReceiverSide

/-- What a receiver is constructed with. -/
structure ReceiverOptions (σ : Type) where
  streamId : JsString
  assertSanitized : JsValue → Except HaError Unit
  applyInTx : σ → OutboxRecord → Except HaError σ

variable {σ : Type} (c : Crypto) (opts : ReceiverOptions σ)

/-- The record that is next is applied, and the checkpoint advances to it. -/
def applyNext (db : ReceiverSide σ) (record : OutboxRecord) :
    Except HaError (ReceiverDecision × ReceiverSide σ) := do
  let data ← opts.applyInTx db.data record
  let applied ← query (db.applied.insert
    { streamId := record.streamId, sourceEpoch := record.sourceEpoch, sequence := record.sequence,
      opDigest := record.opDigest })
  let upd ← query (db.receiverCheckpoint.update (fun r => r.streamId == record.streamId)
    fun r => { r with sequence := record.sequence })
  affectedOne upd.2 "receiver checkpoint advance"
  pure (.applied, { db with data, applied, receiverCheckpoint := upd.1 })

/-- What is decided of a record that is not past the checkpoint. -/
def decidePrior (db : ReceiverSide σ) (record : OutboxRecord) : ReceiverDecision :=
  match db.appliedOf record.streamId record.sourceEpoch record.sequence with
  | some prior => if prior.opDigest = record.opDigest then .duplicateOk else .rejectFork
  | none => .rejectStale

/-- The record against the checkpoint of the receiver. -/
def decideAt (db : ReceiverSide σ) (record : OutboxRecord) :
    Except HaError (ReceiverDecision × ReceiverSide σ) := do
  let checkpoint ← found (db.checkpointOf record.streamId) "receiver stream not provisioned"
  let cpSeq ← safeSeq checkpoint.sequence "receiver.checkpoint.sequence"
  if record.sourceEpoch ≠ checkpoint.sourceEpoch then pure (.rejectEpoch, db)
  else if record.sequence ≤ cpSeq then pure (decidePrior db record, db)
  else if cpSeq + 1 < record.sequence then pure (.rejectGap, db)
  else applyNext opts db record

/-- The token of a record is the token of the fence; both are canonical decimals. -/
def fenceMatches (db : ReceiverSide σ) (record : OutboxRecord) : Bool :=
  (db.fenceOf record.streamId).any fun r => record.fenceToken == Js.decimal r.fenceToken

/-- `verifyAndApplyInTx(tx, record)`. -/
def verifyAndApplyInTx (record : OutboxRecord) (db : ReceiverSide σ) :
    Except HaError (ReceiverDecision × ReceiverSide σ) := do
  let record ← snapshotRecord record
  ensure (record.streamId = opts.streamId) "streamId mismatch for this receiver"
  assertHeaderConformant record
  if (opts.assertSanitized record.mutation).isOk = false then pure (.rejectUnsanitized, db)
  else do
    let recomputed ← canonicalOpDigest c (recordDigestInput record)
    if recomputed ≠ record.opDigest then pure (.rejectFork, db)
    else if fenceMatches db record = false then pure (.rejectFence, db)
    else decideAt opts db record

/-- A call of `verifyAndApplyDelivered(record)`: it is refused before its transaction, or its
    transaction has the outcome. -/
inductive Delivery (record : OutboxRecord) (db : ReceiverSide σ) :
    Except HaError ReceiverDecision → ReceiverSide σ → Prop
  | refused {e : HaError} : snapshotRecord record = .error e → Delivery record db (.error e) db
  | ran {captured : OutboxRecord} {r : Except HaError ReceiverDecision} {db' : ReceiverSide σ} :
      snapshotRecord record = .ok captured →
      Transaction.Outcome (verifyAndApplyInTx c opts captured) db r db' → Delivery record db r db'

/-! ## What a delivery does -/

/-- What a receiver that has applied a record has done. -/
structure AppliedNext (db : ReceiverSide σ) (record : OutboxRecord) (db' : ReceiverSide σ) :
    Prop where
  checkpoint : db.checkpointOf record.streamId =
    some ⟨record.streamId, record.sourceEpoch, record.sequence - 1⟩
  digest : canonicalOpDigest c (recordDigestInput record) = .ok record.opDigest
  data : opts.applyInTx db.data record = .ok db'.data
  applied : db'.applied.rows = db.applied.rows ++
    [⟨record.streamId, record.sourceEpoch, record.sequence, record.opDigest⟩]
  advanced : db'.checkpointOf record.streamId =
    some ⟨record.streamId, record.sourceEpoch, record.sequence⟩
  fence : db'.fence = db.fence

/-- **What a delivery does to a receiver**: a record that is next is applied, and every other leaves
    the receiver as it was. A duplicate is in the history with its digest. -/
theorem verifyAndApplyInTx_eq_ok {record : OutboxRecord} {db db' : ReceiverSide σ}
    {decision : ReceiverDecision}
    (h : verifyAndApplyInTx c opts record db = .ok (decision, db')) :
    ∃ captured, snapshotRecord record = .ok captured ∧ captured.streamId = opts.streamId ∧
      (decision = .applied ∧ AppliedNext c opts db captured db' ∨
        db' = db ∧ decision ≠ .applied ∧
          (decision = .duplicateOk →
            ⟨captured.streamId, captured.sourceEpoch, captured.sequence, captured.opDigest⟩ ∈
              db.applied.rows)) := by
  simp only [verifyAndApplyInTx, bind_eq_ok, ensure_eq_ok, exists_unit] at h
  obtain ⟨captured, hcaptured, hstream, -, h⟩ := h
  refine ⟨captured, hcaptured, hstream, ?_⟩
  by_cases hsanitized : (opts.assertSanitized captured.mutation).isOk = false
  · rw [if_pos hsanitized] at h
    obtain ⟨rfl, rfl⟩ := Prod.mk.inj (Except.ok.inj h)
    exact .inr ⟨rfl, by decide, by simp⟩
  rw [if_neg hsanitized] at h
  simp only [bind_eq_ok] at h
  obtain ⟨recomputed, hdigest, h⟩ := h
  by_cases hfork : recomputed = captured.opDigest
  swap
  · rw [if_pos hfork] at h
    obtain ⟨rfl, rfl⟩ := Prod.mk.inj (Except.ok.inj h)
    exact .inr ⟨rfl, by decide, by simp⟩
  subst hfork
  have hsame : ¬captured.opDigest ≠ captured.opDigest := not_not.mpr rfl
  rw [if_neg hsame] at h
  by_cases hfence : fenceMatches db captured = false
  · rw [if_pos hfence] at h
    obtain ⟨rfl, rfl⟩ := Prod.mk.inj (Except.ok.inj h)
    exact .inr ⟨rfl, by decide, by simp⟩
  rw [if_neg hfence] at h
  simp only [decideAt, safeSeq, bind_eq_ok, found_eq_ok, ensure_eq_ok, exists_unit, pure_eq_ok] at h
  obtain ⟨checkpoint, hcheckpoint, cpSeq, ⟨-, rfl⟩, h⟩ := h
  obtain ⟨cpStream, cpEpoch, cpSeq⟩ := checkpoint
  obtain rfl : cpStream = captured.streamId := by simpa using (Table.mem_of_select hcheckpoint).2
  split_ifs at h with hepoch hprior hgap
  · obtain ⟨rfl, rfl⟩ := Prod.mk.inj (Except.ok.inj h)
    exact .inr ⟨rfl, by decide, by simp⟩
  · obtain ⟨rfl, rfl⟩ := Prod.mk.inj (Except.ok.inj h)
    refine .inr ⟨rfl, ?_, ?_⟩
    · unfold decidePrior
      split
      · split <;> decide
      · decide
    · intro hduplicate
      unfold decidePrior at hduplicate
      split at hduplicate
      · next prior hselect =>
          split_ifs at hduplicate with hsame
          obtain ⟨hmem, hkey⟩ := Table.mem_of_select hselect
          simp only [Bool.and_eq_true, beq_iff_eq] at hkey
          obtain ⟨stream, epoch, sequence, digest⟩ := prior
          obtain ⟨⟨rfl, rfl⟩, rfl⟩ := hkey
          obtain rfl : digest = captured.opDigest := hsame
          exact hmem
      · cases hduplicate
  · obtain ⟨rfl, rfl⟩ := Prod.mk.inj (Except.ok.inj h)
    exact .inr ⟨rfl, by decide, by simp⟩
  · rw [not_not] at hepoch
    simp only [applyNext, affectedOne, bind_eq_ok, query_eq_ok, ensure_eq_ok, exists_unit,
      pure_eq_ok] at h
    obtain ⟨data, hdata, applied, happlied, upd, hupd, -, heq⟩ := h
    obtain ⟨rfl, rfl⟩ := Prod.mk.inj heq
    have hnext : captured.sequence - 1 = cpSeq := by
      simp only at hprior hgap
      omega
    subst hepoch
    refine .inl ⟨rfl,
      { checkpoint := by rw [hcheckpoint, hnext]
        digest := hdigest
        data := hdata
        applied := Table.insert_eq_ok.mp happlied
        advanced := ?_
        fence := rfl }⟩
    have hselect := Table.select_update (q := fun r => r.streamId == captured.streamId) hupd
      fun r => rfl
    rw [ReceiverSide.checkpointOf] at hcheckpoint ⊢
    rw [hselect, hcheckpoint]
    simp

end Durable
