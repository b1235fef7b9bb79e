import BpcProtocol.Durable.PairReplica
import BpcProtocol.Lib.Transaction
import BpcProtocol.Lib.Transition

set_option autoImplicit false

/-! # Promotion of a receiver

`promoteReceiverToSource` makes the receiver of a stream its source: under a signed FENCED receipt it
checks the applied history and the pair tables against the snapshot bundle, raises the fence, starts
the source checkpoint and retains a receipt, all in one transaction. -/

namespace Durable

open Ha Fallible Relational

/-! ## Tables -/

/-- A row of `ha_outbox_receiver_checkpoint`. -/
structure ReceiverCheckpointRow where
  streamId : JsString
  sourceEpoch : JsString
  sequence : ℤ
  deriving DecidableEq

/-- `ha_outbox_receiver_checkpoint`: one row for each stream. -/
def receiverCheckpointSchema : Schema ReceiverCheckpointRow where
  check r := textWithin 512 r.streamId && textWithin 512 r.sourceEpoch && safeFrom 0 r.sequence
  clash a b := a.streamId == b.streamId

/-- A row of `ha_outbox_applied`. -/
structure AppliedRow where
  streamId : JsString
  sourceEpoch : JsString
  sequence : ℤ
  opDigest : JsString
  deriving DecidableEq

/-- `ha_outbox_applied`: one row for each stream, epoch and sequence. -/
def appliedSchema : Schema AppliedRow where
  check r := textWithin 512 r.streamId && textWithin 512 r.sourceEpoch && safeFrom 1 r.sequence &&
    hex64 r.opDigest
  clash a b := a.streamId == b.streamId && a.sourceEpoch == b.sourceEpoch &&
    a.sequence == b.sequence

/-- A row of `bpc_ha.promotion_receipt`. -/
structure PromotionReceiptRow where
  streamId : JsString
  targetEpoch : ℤ
  sourceManifestDigest : JsString
  finalSourceSequence : ℤ
  stateDigest : JsString
  sourceKeyId : JsString
  sourceSignature : JsString
  guardKeyId : JsString
  guardSignature : JsString
  deriving DecidableEq

/-- `bpc_ha.promotion_receipt`: one row for each stream and target epoch. -/
def promotionReceiptSchema : Schema PromotionReceiptRow where
  check r := decide (1 ≤ r.targetEpoch ∧ r.targetEpoch ≤ maxEpoch) &&
    hex64 r.sourceManifestDigest && safeFrom 0 r.finalSourceSequence && hex64 r.stateDigest
  clash a b := a.streamId == b.streamId && a.targetEpoch == b.targetEpoch

/-- The database of the receiver: the source side that it is promoted to, and what it has applied. -/
structure ReceiverDb where
  source : SourceDb
  receiverCheckpoint : Table receiverCheckpointSchema
  applied : Table appliedSchema
  promotionReceipt : Table promotionReceiptSchema

namespace ReceiverDb

variable (db : ReceiverDb)

/-- A stream's row of `ha_outbox_fence`. -/
abbrev fenceOf (streamId : JsString) : Option FenceRow :=
  db.source.outbox.fenceOf streamId

/-- A stream's row of `ha_outbox_source_checkpoint`. -/
abbrev checkpointOf (streamId : JsString) : Option SourceCheckpointRow :=
  db.source.outbox.checkpointOf streamId

/-- A stream's row of `ha_outbox_receiver_checkpoint`. -/
def receiverOf (streamId : JsString) : Option ReceiverCheckpointRow :=
  db.receiverCheckpoint.select fun r => r.streamId == streamId

/-- `SELECT … FROM ha_outbox_applied WHERE stream_id = $1 AND source_epoch = $2 AND sequence <= $3
    ORDER BY sequence`. -/
def appliedHistory (streamId sourceEpoch : JsString) (finalSequence : ℤ) : List AppliedRow :=
  orderBy (·.sequence) (db.applied.rows.filter fun r =>
    r.streamId == streamId && r.sourceEpoch == sourceEpoch && decide (r.sequence ≤ finalSequence))

/-- The receipt of a promotion that has been made. -/
def receiptOf (streamId : JsString) (targetEpoch : ℤ) : Option PromotionReceiptRow :=
  db.promotionReceipt.select fun r => r.streamId == streamId && r.targetEpoch == targetEpoch

end ReceiverDb

/-! ## Digests -/

/-- What PostgreSQL writes for the pair tables: the rows of `bpc_pairs` and of `bpc_pending`, each as
    the text of one JSON array. -/
structure TableText where
  pairs : PairTables → JsString
  pending : PairTables → JsString

variable (c : Crypto) (text : TableText)

/-- `stateDigest(exec)`. -/
def stateDigest (tables : PairTables) : JsString :=
  c.sha256 (frame [.text (Js.lit "bpc-pair-state/v1"), .text (text.pairs tables),
    .text (text.pending tables)])

/-- A manifest as the object it is. -/
def manifestValue (m : PairSnapshotManifest) : JsValue :=
  .object [(Js.lit "streamId", .string m.streamId), (Js.lit "sourceEpoch", .string m.sourceEpoch),
    (Js.lit "finalSequence", .number (.fin m.finalSequence)),
    (Js.lit "sourceSystemId", .string m.sourceSystemId),
    (Js.lit "stateDigest", .string m.stateDigest), (Js.lit "historyDigest", .string m.historyDigest),
    (Js.lit "issuedAtMs", .number (.fin m.issuedAtMs)), (Js.lit "keyId", .string m.keyId),
    (Js.lit "signature", .string m.signature)]

/-- `pairSnapshotManifestDigest(manifest)`. -/
def pairSnapshotManifestDigest (manifest : PairSnapshotManifest) : Except HaError JsString := do
  let canonical ← canonicalize (manifestValue manifest)
  pure (c.sha256 (Js.utf8 canonical))

/-! ## The promotion -/

/-- The arguments of `promoteReceiverToSource`. -/
structure Promotion where
  sourceResolver : PublicKeyResolver c
  bundle : PairSnapshotBundle
  assertSanitized : JsValue → Except HaError Unit
  targetEpoch : ℤ
  targetSourceEpoch : JsString
  guardResolver : PublicKeyResolver c
  fencedReceipt : CutoverReceipt

namespace Promotion

variable {c} (p : Promotion c)

/-- The manifest of the bundle. -/
abbrev manifest : PairSnapshotManifest := p.bundle.manifest

/-- The FENCED receipt names this promotion. -/
def Binds (manifestDigest : JsString) : Prop :=
  p.fencedReceipt.phase = .fenced ∧ p.fencedReceipt.streamId = p.manifest.streamId ∧
    p.fencedReceipt.targetEpoch = p.targetEpoch ∧
    p.fencedReceipt.targetSourceEpoch = p.targetSourceEpoch ∧
    p.fencedReceipt.manifestDigest = manifestDigest ∧
    p.fencedReceipt.finalSourceSequence = p.manifest.finalSequence ∧
    p.fencedReceipt.stateDigest = p.manifest.stateDigest

instance (manifestDigest : JsString) : Decidable (p.Binds manifestDigest) :=
  inferInstanceAs (Decidable (_ ∧ _))

/-- What is checked before the transaction: the bundle, the epochs and the FENCED receipt. The
    digest of the manifest is the result. -/
def verifyPromotion : Except HaError JsString := do
  verifyBundle c p.sourceResolver p.bundle p.assertSanitized
  verifyPairSnapshotManifest c p.sourceResolver p.manifest
  let _ ← safeInt p.targetEpoch "targetEpoch" 1 maxEpoch
  id p.targetSourceEpoch idRe "targetSourceEpoch"
  verifyCutoverReceipt c p.guardResolver p.fencedReceipt
  let manifestDigest ← pairSnapshotManifestDigest c p.manifest
  ensure (p.Binds manifestDigest) "signed FENCED receipt does not bind this promotion"
  pure manifestDigest

/-- The receipt that a promotion retains. -/
def receipt (manifestDigest : JsString) : PromotionReceiptRow where
  streamId := p.manifest.streamId
  targetEpoch := p.targetEpoch
  sourceManifestDigest := manifestDigest
  finalSourceSequence := p.manifest.finalSequence
  stateDigest := p.manifest.stateDigest
  sourceKeyId := p.manifest.keyId
  sourceSignature := p.manifest.signature
  guardKeyId := p.fencedReceipt.keyId
  guardSignature := p.fencedReceipt.signature

/-- The error of a retry that is not exact. -/
def conflict : String := "existing promotion conflicts with exact retry"

/-- The checks of a retry: the receipt, the fence and the source epoch are as this promotion made
    them. -/
def checkRetry (manifestDigest : JsString) (db : ReceiverDb) (existing : PromotionReceiptRow) :
    Except HaError Unit := do
  ensure (existing.sourceManifestDigest = manifestDigest) conflict
  let finalSequence ← safeInt existing.finalSourceSequence "existing final sequence"
  ensure (finalSequence = p.manifest.finalSequence ∧
    existing.stateDigest = p.manifest.stateDigest ∧ existing.sourceKeyId = p.manifest.keyId ∧
    existing.sourceSignature = p.manifest.signature ∧
    existing.guardKeyId = p.fencedReceipt.keyId ∧
    existing.guardSignature = p.fencedReceipt.signature) conflict
  let fence ← found (db.fenceOf p.manifest.streamId) conflict
  let fenceToken ← safeInt fence.fenceToken "existing fence"
  ensure (fenceToken = p.targetEpoch) conflict
  let source ← found (db.checkpointOf p.manifest.streamId) conflict
  ensure (source.sourceEpoch = p.targetSourceEpoch) conflict

/-- The checks of one applied row against the record of the bundle at its index. -/
def checkApplied (index : ℕ) (row : AppliedRow) : Except HaError Unit := do
  let sequence ← safeInt row.sequence "applied sequence" 1
  ensure (sequence = index + 1 ∧ (p.bundle.records[index]?.map (·.opDigest)) = some row.opDigest)
    "receiver applied-history does not match the signed source history"

/-- The receiver has applied the whole history of the bundle, and its pair tables are those of the
    snapshot. -/
def checkReceiver (db : ReceiverDb) : Except HaError Unit := do
  let incomplete := "receiver has not applied the complete frozen source tail"
  let receiver ← found (db.receiverOf p.manifest.streamId) incomplete
  ensure (receiver.sourceEpoch = p.manifest.sourceEpoch) incomplete
  let sequence ← safeInt receiver.sequence "receiverSequence"
  ensure (sequence = p.manifest.finalSequence) incomplete
  let applied :=
    db.appliedHistory p.manifest.streamId p.manifest.sourceEpoch p.manifest.finalSequence
  ensure (applied.length = p.bundle.records.length)
    "receiver applied-history does not match the signed source history"
  applied.zipIdx.forM fun r => p.checkApplied r.2 r.1
  ensure (stateDigest c text db.source.tables = p.manifest.stateDigest)
    "receiver state does not match signed source snapshot"

end Promotion

/-- `INSERT INTO ha_outbox_source_checkpoint … ON CONFLICT(stream_id) DO UPDATE SET
    source_epoch = EXCLUDED.source_epoch, sequence = 0 WHERE sequence = 0`. -/
def initCheckpoint (t : Table sourceCheckpointSchema) (row : SourceCheckpointRow) :
    Except SqlError (Table sourceCheckpointSchema × ℕ) :=
  if (t.select fun r => r.streamId == row.streamId).isSome then
    t.update (fun r => r.streamId == row.streamId && r.sequence == 0)
      fun r => { r with sourceEpoch := row.sourceEpoch, sequence := 0 }
  else do
    let inserted ← t.insert row
    pure (inserted, 1)

namespace Promotion

variable {c} (p : Promotion c)

/-- The writes of a promotion. -/
def write (manifestDigest : JsString) (db : ReceiverDb) : Except HaError ReceiverDb := do
  let fence ← query (db.source.outbox.fence.update
    (fun r => r.streamId == p.manifest.streamId && decide (r.fenceToken < p.targetEpoch.toNat))
    fun r => { r with fenceToken := p.targetEpoch.toNat })
  ensure (fence.2 = 1) "promotion fence advance failed"
  let cp ← query (initCheckpoint db.source.outbox.sourceCheckpoint
    { streamId := p.manifest.streamId, sourceEpoch := p.targetSourceEpoch, sequence := 0 })
  ensure (cp.2 = 1) "promotion source checkpoint initialization failed"
  let promotionReceipt ← query (db.promotionReceipt.insert (p.receipt manifestDigest))
  pure { db with
    source := { db.source with
      outbox := { db.source.outbox with fence := fence.1, sourceCheckpoint := cp.1 } }
    promotionReceipt }

/-- The transaction of `promoteReceiverToSource`. -/
def promoteInTx (manifestDigest : JsString) (db : ReceiverDb) :
    Except HaError (Unit × ReceiverDb) :=
  (db.receiptOf p.manifest.streamId p.targetEpoch).elim
    (do
      p.checkReceiver text db
      let db' ← p.write manifestDigest db
      pure ((), db'))
    fun existing => do
      p.checkRetry manifestDigest db existing
      pure ((), db)

/-- A call of `promoteReceiverToSource`: it is refused before its transaction, or its transaction has
    the outcome. -/
inductive Call (db : ReceiverDb) : Except HaError Unit → ReceiverDb → Prop
  | refused {e : HaError} : p.verifyPromotion = .error e → Call db (.error e) db
  | ran {manifestDigest : JsString} {r : Except HaError Unit} {db' : ReceiverDb} :
      p.verifyPromotion = .ok manifestDigest →
      Transaction.Outcome (p.promoteInTx text manifestDigest) db r db' → Call db r db'

end Promotion

/-! ## What a promotion does -/

/-- An initialisation that affects a row finds no checkpoint that has advanced, and leaves its own. -/
theorem initCheckpoint_eq_ok {t t' : Table sourceCheckpointSchema} {row : SourceCheckpointRow}
    (hzero : row.sequence = 0) (h : initCheckpoint t row = .ok (t', 1)) :
    (∀ cp, t.select (fun r => r.streamId == row.streamId) = some cp → cp.sequence = 0) ∧
      ∀ streamId, t'.select (fun r => r.streamId == streamId) =
        if row.streamId == streamId then some row
        else t.select fun r => r.streamId == streamId := by
  have hclash : ∀ a b, sourceCheckpointSchema.clash a b = (a.streamId == b.streamId) :=
    fun _ _ => rfl
  rw [initCheckpoint] at h
  cases hcp : t.select fun r => r.streamId == row.streamId with
  | none =>
      rw [hcp, Option.isSome_none, if_neg (by decide)] at h
      simp only [bind_eq_ok, pure_eq_ok, Prod.mk.injEq] at h
      obtain ⟨inserted, hinserted, rfl, -⟩ := h
      refine ⟨fun _ heq => ?_, Table.select_key_insert _ hinserted hcp⟩
      cases heq
  | some cp =>
      rw [hcp, Option.isSome_some, if_pos rfl] at h
      have hcount := Table.count_update hclash h
      rw [hcp, Option.any_some] at hcount
      have hunused : cp.sequence = 0 := by
        by_contra hne
        rw [if_neg (by simpa using hne)] at hcount
        cases hcount
      refine ⟨fun _ heq => Option.some.inj heq ▸ hunused, ?_⟩
      refine Table.select_key_update _ h ?_ (fun _ => rfl) hcp (by simpa using hunused)
      intro x hx
      obtain ⟨stream, epoch, sequence⟩ := row
      cases hzero
      cases hx
      rfl

namespace Promotion

variable {c text} {p : Promotion c} {manifestDigest : JsString}

/-- A bundle that is verified numbers its records from one. -/
theorem sequence_of_verified (h : p.verifyPromotion = .ok manifestDigest) {index : ℕ}
    {record : OutboxRecord} (hrecord : p.bundle.records[index]? = some record) :
    record.sequence = index + 1 := by
  simp only [verifyPromotion, verifyBundle, bind_eq_ok, exists_unit, forM_eq_ok] at h
  obtain ⟨⟨-, -, _, -, -, hrecords⟩, -⟩ := h
  have hmem : (record, index) ∈ p.bundle.records.zipIdx :=
    List.mk_mem_zipIdx_iff_getElem?.mpr hrecord
  have hchecked := hrecords _ hmem
  simp only [verifyBundleRecord, bind_eq_ok, ensure_eq_ok, exists_unit] at hchecked
  exact hchecked.2.1.2.2

variable (text p) in
/-- What a receiver holds when it may be promoted: the checkpoint, the applied history and the pair
    tables of the bundle. -/
structure ReceiverHolds (db : ReceiverDb) : Prop where
  checkpoint : db.receiverOf p.manifest.streamId =
    some ⟨p.manifest.streamId, p.manifest.sourceEpoch, p.manifest.finalSequence⟩
  history :
    (db.appliedHistory p.manifest.streamId p.manifest.sourceEpoch p.manifest.finalSequence).map
      (fun r => (r.sequence, r.opDigest)) = p.bundle.records.map fun r => (r.sequence, r.opDigest)
  state : stateDigest c text db.source.tables = p.manifest.stateDigest

theorem checkReceiver_eq_ok {db : ReceiverDb} (hverified : p.verifyPromotion = .ok manifestDigest)
    (h : p.checkReceiver text db = .ok ()) : p.ReceiverHolds text db := by
  simp only [checkReceiver, bind_eq_ok, ensure_eq_ok, exists_unit, found_eq_ok, safeInt_eq_ok,
    forM_eq_ok] at h
  obtain ⟨receiver, hreceiver, hepoch, _, ⟨-, rfl⟩, hsequence, hlength, happlied, hstate⟩ := h
  refine ⟨?_, ?_, hstate⟩
  · obtain ⟨stream, epoch, sequence⟩ := receiver
    have hstream : stream = p.manifest.streamId := by
      simpa using (Table.mem_of_select hreceiver).2
    rw [hreceiver]
    cases hstream
    cases hepoch
    cases hsequence
    rfl
  · refine List.ext_getElem (by simpa using hlength) fun index hrow hrecord => ?_
    rw [List.length_map] at hrow hrecord
    rw [List.getElem_map, List.getElem_map]
    have hchecked := happlied _ (List.mk_mem_zipIdx_iff_getElem?.mpr (List.getElem?_eq_getElem hrow))
    have hrecordAt := List.getElem?_eq_getElem hrecord
    simp only [checkApplied, bind_eq_ok, safeInt_eq_ok, ensure_eq_ok, hrecordAt, Option.map_some,
      Option.some.injEq] at hchecked
    obtain ⟨_, ⟨-, rfl⟩, hindex, hdigest⟩ := hchecked
    rw [hindex, ← hdigest, sequence_of_verified hverified hrecordAt]

variable (text p) in
/-- The state change of a promotion: the fence is raised to the target epoch, the source checkpoint
    starts the new epoch, and the receipt is retained. -/
structure Promoted (manifestDigest : JsString) (db db' : ReceiverDb) : Prop where
  verified : p.verifyPromotion = .ok manifestDigest
  receiver : p.ReceiverHolds text db
  fresh : db.receiptOf p.manifest.streamId p.targetEpoch = none
  below : ∃ fence, db.fenceOf p.manifest.streamId = some fence ∧ fence.fenceToken < p.targetEpoch
  unused : ∀ cp, db.checkpointOf p.manifest.streamId = some cp → cp.sequence = 0
  fence : ∀ streamId, db'.fenceOf streamId =
    if p.manifest.streamId == streamId then some ⟨p.manifest.streamId, p.targetEpoch.toNat⟩
    else db.fenceOf streamId
  checkpoint : ∀ streamId, db'.checkpointOf streamId =
    if p.manifest.streamId == streamId then some ⟨p.manifest.streamId, p.targetSourceEpoch, 0⟩
    else db.checkpointOf streamId
  receipts : db'.promotionReceipt.rows = db.promotionReceipt.rows ++ [p.receipt manifestDigest]
  rest : db'.receiverCheckpoint = db.receiverCheckpoint ∧ db'.applied = db.applied ∧
    db'.source.outbox.rows = db.source.outbox.rows ∧ db'.source.tables = db.source.tables

theorem write_eq_ok {db db' : ReceiverDb} (hverified : p.verifyPromotion = .ok manifestDigest)
    (hreceiver : p.ReceiverHolds text db)
    (hfresh : db.receiptOf p.manifest.streamId p.targetEpoch = none)
    (h : p.write manifestDigest db = .ok db') : p.Promoted text manifestDigest db db' := by
  simp only [write, bind_eq_ok, query_eq_ok, ensure_eq_ok, exists_unit, pure_eq_ok] at h
  obtain ⟨⟨fences, n⟩, hfences, hn, ⟨checkpoints, m⟩, hcheckpoints, hm, receipts, hreceipts, rfl⟩ := h
  cases hn
  cases hm
  have hclash : ∀ a b, fenceSchema.clash a b = (a.streamId == b.streamId) := fun _ _ => rfl
  obtain ⟨hunused, hcheckpointOf⟩ := initCheckpoint_eq_ok rfl hcheckpoints
  have hcount := Table.count_update hclash hfences
  cases hfence : db.fenceOf p.manifest.streamId with
  | none =>
      have hselect : (db.source.outbox.fence.select fun x => x.streamId == p.manifest.streamId) =
        none := hfence
      rw [hselect] at hcount
      cases hcount
  | some fence =>
      have hselect : (db.source.outbox.fence.select fun x => x.streamId == p.manifest.streamId) =
        some fence := hfence
      rw [hselect, Option.any_some] at hcount
      have hbelow : fence.fenceToken < p.targetEpoch.toNat := by
        by_contra hnot
        rw [if_neg (by simpa using hnot)] at hcount
        cases hcount
      let raised : FenceRow := ⟨p.manifest.streamId, p.targetEpoch.toNat⟩
      have hraised : ∀ streamId, fences.select (fun x => x.streamId == streamId) =
          if p.manifest.streamId == streamId then some raised
          else db.source.outbox.fence.select fun x => x.streamId == streamId := by
        refine Table.select_key_update (r := raised) (fun x : FenceRow => x.streamId) hfences ?_
          (fun _ => rfl) hselect (decide_eq_true hbelow)
        rintro ⟨stream, token⟩ rfl
        rfl
      exact
        { verified := hverified
          receiver := hreceiver
          fresh := hfresh
          below := ⟨fence, hfence, by omega⟩
          unused := hunused
          fence := hraised
          checkpoint := hcheckpointOf
          receipts := Table.insert_eq_ok.mp hreceipts
          rest := ⟨rfl, rfl, rfl, rfl⟩ }

/-- The transaction returns with nothing changed, or has made the whole change. -/
theorem promoteInTx_eq_ok {db db' : ReceiverDb} {u : Unit}
    (hverified : p.verifyPromotion = .ok manifestDigest)
    (h : p.promoteInTx text manifestDigest db = .ok (u, db')) :
    db' = db ∨ p.Promoted text manifestDigest db db' := by
  cases hexisting : db.receiptOf p.manifest.streamId p.targetEpoch with
  | none =>
      right
      rw [promoteInTx, hexisting] at h
      simp only [Option.elim_none, bind_eq_ok, exists_unit, pure_eq_ok, Prod.mk.injEq] at h
      obtain ⟨hreceiver, written, hwritten, -, rfl⟩ := h
      exact write_eq_ok hverified (checkReceiver_eq_ok hverified hreceiver) hexisting hwritten
  | some existing =>
      left
      rw [promoteInTx, hexisting] at h
      simp only [Option.elim_some, bind_eq_ok, exists_unit, pure_eq_ok, Prod.mk.injEq] at h
      exact h.2.2.symm

/-- A call that has changed the tables is one whose transaction ran to its end. -/
theorem Call.unchanged_or_ran {db db' : ReceiverDb} {r : Except HaError Unit}
    (h : p.Call text db r db') :
    db' = db ∨ ∃ manifestDigest, p.verifyPromotion = .ok manifestDigest ∧
      p.promoteInTx text manifestDigest db = .ok ((), db') := by
  cases h with
  | refused _ => exact .inl rfl
  | ran hverified houtcome =>
      rcases houtcome.unchanged_or_ran with rfl | ⟨_, hran⟩
      · exact .inl rfl
      · exact .inr ⟨_, hverified, hran⟩

theorem Call.unchanged_or_promoted {db db' : ReceiverDb} {r : Except HaError Unit}
    (h : p.Call text db r db') :
    db' = db ∨ ∃ manifestDigest, p.Promoted text manifestDigest db db' := by
  rcases h.unchanged_or_ran with rfl | ⟨manifestDigest, hverified, hran⟩
  · exact .inl rfl
  · exact (promoteInTx_eq_ok hverified hran).imp_right fun hpromoted => ⟨_, hpromoted⟩

end Promotion

/-! ## Appends -/

variable {c}

variable (c) in
/-- A write of a pair store: one row is appended to the outbox of its stream, and the pair tables are
    written. -/
inductive PairWrite (db db' : SourceDb) : Prop
  | mk {opts : OutboxOptions} {mutation : JsValue} {entry : OutboxEntry} :
      Appended c opts db.outbox mutation entry db'.outbox →
      (∀ streamId, streamId ≠ opts.streamId →
        db'.outbox.checkpointOf streamId = db.outbox.checkpointOf streamId) →
      db'.governed = db.governed → PairWrite db db'

/-- An append leaves the checkpoints of the other streams. -/
theorem checkpointOf_appendInTx {opts : OutboxOptions} {db db' : OutboxDb} {input : AppendInput}
    {record : OutboxRecord} (h : appendInTx c opts db input = .ok (record, db')) {streamId : JsString}
    (hother : streamId ≠ opts.streamId) : db'.checkpointOf streamId = db.checkpointOf streamId := by
  simp only [appendInTx, allocate, bind_eq_ok, ensure_eq_ok, exists_unit, pure_eq_ok, require_eq_ok,
    query_eq_ok] at h
  obtain ⟨_, -, _, -, _, -, -, _, -, _, -, -, _, -, -, _, -, _, -, -, _, -, _, -, upd, hupd, -, -,
    heq⟩ := h
  cases heq
  show upd.1.select _ = _
  rw [Table.select_update (q := fun r => r.streamId == streamId) hupd fun r => rfl]
  rw [OutboxDb.checkpointOf]
  cases hcp : db.sourceCheckpoint.select fun r => r.streamId == streamId with
  | none => rfl
  | some cp =>
      have hstream : cp.streamId = streamId := by simpa using (Table.mem_of_select hcp).2
      rw [Option.map_some, if_neg (by simpa [hstream] using hother)]

/-- A transaction of a pair store leaves the database as it was, or is one write. -/
theorem committed_pairWrite {α : Type} (store : PgTransactionalPairStore) (db : SourceDb)
    (body : PairTables → Except PairStoreError (Plan α)) :
    committed db (store.withOutboxTx c db body) = db ∨
      PairWrite c db (committed db (store.withOutboxTx c db body)) := by
  cases htx : store.withOutboxTx c db body with
  | error e => exact .inl rfl
  | ok res =>
      obtain ⟨a, db'⟩ := res
      show db' = db ∨ PairWrite c db db'
      simp only [PgTransactionalPairStore.withOutboxTx, bind_eq_ok] at htx
      obtain ⟨plan, -, hexecute⟩ := htx
      cases plan with
      | done b =>
          cases hexecute
          exact .inl rfl
      | write mutation dml result =>
          right
          simp only [PgTransactionalPairStore.execute, bind_eq_ok, ofHa_eq_ok, pure_eq_ok]
            at hexecute
          obtain ⟨⟨record, outbox⟩, happend, tables, -, _, -, _, -, heq⟩ := hexecute
          cases heq
          obtain ⟨_, entry, -, -, -, happended⟩ := appendInTx_eq_ok c happend
          exact .mk happended (fun _ => checkpointOf_appendInTx happend) rfl

/-- Every operation of a pair store is one write at most. -/
theorem perform_pairWrite (store : PgTransactionalPairStore) (db : SourceDb) (op : PairOperation) :
    store.perform c db op = db ∨ PairWrite c db (store.perform c db op) := by
  cases op <;> exact committed_pairWrite store db _

/-! ## Runs -/

variable (c)

/-- The steps on the receiver's database: a call of `promoteReceiverToSource`, an operation of a pair
    store, or a write that a pair store makes through the functions of an HA authority. -/
inductive PromotionStep (db : ReceiverDb) : ReceiverDb → Prop
  | promote (p : Promotion c) {r : Except HaError Unit} {db' : ReceiverDb} :
      p.Call text db r db' → PromotionStep db db'
  | operate (store : PgTransactionalPairStore) (op : PairOperation) :
      PromotionStep db { db with source := store.perform c db.source op }
  | governed {source : SourceDb} :
      PairWrite c db.source source → PromotionStep db { db with source }

/-- The runs from any receiver. -/
def promotionSystem : Transition.System ReceiverDb where
  init _ := True
  next := PromotionStep c text

/-- What a later database keeps of an earlier one: no fence is lower, a source sequence that has
    advanced is not reset, and the receipts are still there. -/
structure Later (db db' : ReceiverDb) : Prop where
  fence : ∀ streamId fence, db.fenceOf streamId = some fence →
    ∃ fence', db'.fenceOf streamId = some fence' ∧ fence.fenceToken ≤ fence'.fenceToken
  sequence : ∀ streamId cp, db.checkpointOf streamId = some cp → 0 < cp.sequence →
    ∃ cp', db'.checkpointOf streamId = some cp' ∧ cp'.sourceEpoch = cp.sourceEpoch ∧
      cp.sequence ≤ cp'.sequence
  receipts : db.promotionReceipt.rows <+: db'.promotionReceipt.rows

variable {c text}

theorem Later.refl (db : ReceiverDb) : Later db db where
  fence _ fence h := ⟨fence, h, le_refl _⟩
  sequence _ cp h _ := ⟨cp, h, rfl, le_refl _⟩
  receipts := List.prefix_refl _

theorem Later.trans {db db' db'' : ReceiverDb} (h : Later db db') (h' : Later db' db'') :
    Later db db'' where
  fence streamId fence hfence := by
    obtain ⟨fence', hfence', hle⟩ := h.fence streamId fence hfence
    obtain ⟨fence'', hfence'', hle'⟩ := h'.fence streamId fence' hfence'
    exact ⟨fence'', hfence'', hle.trans hle'⟩
  sequence streamId cp hcp hpos := by
    obtain ⟨cp', hcp', hepoch, hle⟩ := h.sequence streamId cp hcp hpos
    obtain ⟨cp'', hcp'', hepoch', hle'⟩ := h'.sequence streamId cp' hcp' (hpos.trans_le hle)
    exact ⟨cp'', hcp'', hepoch'.trans hepoch, hle.trans hle'⟩
  receipts := h.receipts.trans h'.receipts

/-- A write of a pair store moves the sequence of its stream forward, and nothing else of this. -/
theorem PairWrite.later {db : ReceiverDb} {source : SourceDb} (h : PairWrite c db.source source) :
    Later db { db with source } := by
  obtain ⟨happended, hothers, -⟩ := h
  rename_i opts mutation entry
  refine ⟨fun streamId fence hfence => ⟨fence, ?_, le_refl _⟩, fun streamId cp hcp _ => ?_,
    List.prefix_refl _⟩
  · show source.outbox.fenceOf streamId = some fence
    rw [OutboxDb.fenceOf, happended.fences]
    exact hfence
  · by_cases hstream : streamId = opts.streamId
    · subst hstream
      have hbefore : db.checkpointOf opts.streamId = _ := happended.checkpoint
      rw [hcp] at hbefore
      cases hbefore
      exact ⟨_, happended.advanced, rfl, by simp⟩
    · exact ⟨cp, (hothers streamId hstream).trans hcp, rfl, le_refl _⟩

theorem Promotion.Promoted.later {p : Promotion c} {manifestDigest : JsString} {db db' : ReceiverDb}
    (h : p.Promoted text manifestDigest db db') : Later db db' where
  fence streamId fence hfence := by
    rw [h.fence]
    by_cases hstream : p.manifest.streamId = streamId
    · obtain ⟨below, hbelow, hlt⟩ := h.below
      rw [hstream, hfence] at hbelow
      cases hbelow
      rw [if_pos (beq_iff_eq.mpr hstream)]
      exact ⟨_, rfl, by show fence.fenceToken ≤ p.targetEpoch.toNat; omega⟩
    · rw [if_neg (by simpa using hstream)]
      exact ⟨fence, hfence, le_refl _⟩
  sequence streamId cp hcp hpos := by
    rw [h.checkpoint]
    by_cases hstream : p.manifest.streamId = streamId
    · -- a checkpoint that has advanced is not one that a promotion starts
      have hunused := h.unused cp (by rw [hstream]; exact hcp)
      omega
    · rw [if_neg (by simpa using hstream)]
      exact ⟨cp, hcp, rfl, le_refl _⟩
  receipts := by
    rw [h.receipts]
    exact List.prefix_append _ _

theorem Promotion.Call.later {p : Promotion c} {db db' : ReceiverDb} {r : Except HaError Unit}
    (h : p.Call text db r db') : Later db db' := by
  rcases h.unchanged_or_promoted with rfl | ⟨_, hpromoted⟩
  · exact .refl _
  · exact hpromoted.later

theorem PromotionStep.later {db db' : ReceiverDb} (h : PromotionStep c text db db') :
    Later db db' := by
  cases h with
  | promote p hcall => exact hcall.later
  | operate store op =>
      rcases perform_pairWrite (c := c) store db.source op with hsame | hwrite
      · rw [hsame]
        exact .refl _
      · exact hwrite.later
  | governed hwrite => exact hwrite.later

/-- **Runs keep what promotions have done.** -/
theorem later_of_run {db db' : ReceiverDb} (h : Transition.Run (promotionSystem c text) db db') :
    Later db db' :=
  h.monotone Later.refl (fun _ _ _ => Later.trans) (fun _ _ _ hstep => PromotionStep.later hstep)
    (.init trivial)

/-- A promotion of a stream to an epoch whose receipt is retained changes nothing. -/
theorem Promotion.Call.unchanged_of_receipt {p q : Promotion c} {manifestDigest : JsString}
    {db db' : ReceiverDb} {r : Except HaError Unit}
    (hreceipt : q.receipt manifestDigest ∈ db.promotionReceipt.rows)
    (hstream : p.manifest.streamId = q.manifest.streamId) (hepoch : p.targetEpoch = q.targetEpoch)
    (h : p.Call text db r db') : db' = db := by
  rcases h.unchanged_or_promoted with rfl | ⟨_, hpromoted⟩
  · rfl
  · have hfresh := Table.select_eq_none.mp hpromoted.fresh _ hreceipt
    simp [receipt, hstream, hepoch] at hfresh

/-- **A promotion is applied once.** A call, in whatever state it finds the receiver, leaves the
    tables as they are or makes the whole change, and makes it only of a receiver whose applied
    history and pair tables are the bundle's. Once it is made, whatever promotions and writes of pair
    stores follow, no promotion of the stream to the epoch changes anything. No call lowers a fence,
    or touches a source checkpoint that has advanced. A call that throws leaves the tables as they
    are, unless its transaction ran to its end and only the acknowledgement was lost. -/
theorem promoteReceiverToSource_once {p : Promotion c} {db db' : ReceiverDb}
    {r : Except HaError Unit} (hcall : p.Call text db r db') :
    (db' = db ∨ ∃ manifestDigest, p.Promoted text manifestDigest db db') ∧
      (∀ manifestDigest, p.Promoted text manifestDigest db db' →
        ∀ u u' (q : Promotion c) (r' : Except HaError Unit),
          Transition.Run (promotionSystem c text) db' u →
          q.manifest.streamId = p.manifest.streamId → q.targetEpoch = p.targetEpoch →
          q.Call text u r' u' → u' = u) ∧
      (∀ streamId fence, db.fenceOf streamId = some fence →
        ∃ fence', db'.fenceOf streamId = some fence' ∧ fence.fenceToken ≤ fence'.fenceToken) ∧
      (∀ streamId cp, db.checkpointOf streamId = some cp → 0 < cp.sequence →
        db'.checkpointOf streamId = some cp) ∧
      ∀ e, r = .error e → db' = db ∨ ∃ manifestDigest,
        p.verifyPromotion = .ok manifestDigest ∧
          p.promoteInTx text manifestDigest db = .ok ((), db') := by
  refine ⟨hcall.unchanged_or_promoted, ?_, hcall.later.fence, ?_, fun _ _ => hcall.unchanged_or_ran⟩
  · intro manifestDigest hpromoted u u' q r' hrun hstream hepoch hcall'
    have hmem : p.receipt manifestDigest ∈ db'.promotionReceipt.rows := by
      rw [hpromoted.receipts]
      exact List.mem_append_right _ List.mem_cons_self
    exact hcall'.unchanged_of_receipt ((later_of_run hrun).receipts.subset hmem) hstream hepoch
  · intro streamId cp hcp hpos
    rcases hcall.unchanged_or_promoted with rfl | ⟨_, hpromoted⟩
    · exact hcp
    · rw [hpromoted.checkpoint, if_neg]
      · exact hcp
      · intro hstream
        rw [beq_iff_eq] at hstream
        have := hpromoted.unused cp (by rw [hstream]; exact hcp)
        omega

/-! ## A concrete promotion

The receiver of a stream whose source has written nothing. -/

namespace PromotionExample

/-- Empty tables are written as empty arrays. -/
def tableText : TableText := ⟨fun _ => Js.lit "[]", fun _ => Js.lit "[]"⟩

def sourceKeys : PublicKeyResolver lengthCrypto := fun keyId =>
  if keyId = Js.lit "snapshot" then some (2 : ℕ) else none

def guardKeys : PublicKeyResolver lengthCrypto := fun keyId =>
  if keyId = Js.lit "guard" then some (1 : ℕ) else none

def manifest : PairSnapshotManifest where
  streamId := Js.lit "stream"
  sourceEpoch := Js.lit "first"
  finalSequence := 0
  sourceSystemId := Js.lit "7"
  stateDigest := stateDigest lengthCrypto tableText PairTables.empty
  historyDigest := lengthCrypto.sha256 (Js.utf8 (Js.lit "[]"))
  issuedAtMs := 0
  keyId := Js.lit "snapshot"
  signature := Js.decimal 2

def fencedReceipt : CutoverReceipt :=
  let bare : BareCutover :=
    { streamId := Js.lit "stream", commandId := Js.lit "cutover", previousEpoch := 0
      targetEpoch := 1, targetNodeId := Js.lit "b", targetSourceEpoch := Js.lit "next"
      manifestDigest := orElse (pairSnapshotManifestDigest lengthCrypto manifest) []
      finalSourceSequence := 0, stateDigest := manifest.stateDigest, redisClaimDigest := digestOf []
      oldLeaseDigest := digestOf [], oldLeaseExpiresAtMs := 0, sourceTransactionWindowMs := 1
      phase := .fenced, prevStateDigest := none }
  { bare with
    stateDigestSigned := lengthCrypto.sha256 (cutoverMessage bare [])
    keyId := Js.lit "guard", signature := Js.decimal 1 }

def promotion : Promotion lengthCrypto where
  sourceResolver := sourceKeys
  bundle := ⟨manifest, []⟩
  assertSanitized := fun _ => .ok ()
  targetEpoch := 1
  targetSourceEpoch := Js.lit "next"
  guardResolver := guardKeys
  fencedReceipt := fencedReceipt

/-- A receiver at the genesis of its source's epoch. -/
def receiver : ReceiverDb where
  source :=
    { outbox :=
        { fence := ⟨[⟨Js.lit "stream", 0⟩], by decide⟩
          sourceCheckpoint := .empty _
          rows := .empty _ }
      tables := PairTables.empty
      governed := false }
  receiverCheckpoint := ⟨[⟨Js.lit "stream", Js.lit "first", 0⟩], by decide⟩
  applied := .empty _
  promotionReceipt := .empty _

/-- The digest of the manifest, and the database that the promotion leaves. -/
def manifestDigest : JsString := orElse promotion.verifyPromotion []

def promoted : ReceiverDb :=
  (orElse (promotion.promoteInTx tableText manifestDigest receiver) ((), receiver)).2

theorem promotion_computes :
    promotion.verifyPromotion.isOk = true ∧
      (promotion.promoteInTx tableText manifestDigest receiver).isOk = true ∧
      promoted.promotionReceipt.rows.length = 1 := by
  decide +kernel

theorem verified : promotion.verifyPromotion = .ok manifestDigest := by
  obtain ⟨hok, -⟩ := promotion_computes
  rw [manifestDigest]
  cases hverified : promotion.verifyPromotion with
  | error e =>
      rw [hverified] at hok
      cases hok
  | ok digest => rfl

theorem ran : promotion.promoteInTx tableText manifestDigest receiver = .ok ((), promoted) := by
  obtain ⟨-, hok, -⟩ := promotion_computes
  rw [promoted]
  cases hran : promotion.promoteInTx tableText manifestDigest receiver with
  | error e =>
      rw [hran] at hok
      cases hok
  | ok res => rfl

theorem promoted_ne : promoted ≠ receiver := by
  intro heq
  have hone := promotion_computes.2.2
  rw [heq] at hone
  cases hone

end PromotionExample

open PromotionExample in
/-- A call throws although the tables have changed: its transaction committed, and the
    acknowledgement was lost. -/
theorem promoteReceiverToSource_lostAck :
    ¬∀ (db' : ReceiverDb) (e : HaError), promotion.Call tableText receiver (.error e) db' →
      db' = receiver := by
  intro h
  exact promoted_ne (h promoted (.contractValidation "ambiguous") (.ran verified (.lostAck _ ran)))

open PromotionExample in
/-- After the lost acknowledgement, whatever follows, the retry changes nothing. -/
theorem promoteReceiverToSource_once_sample :
    promoted ≠ receiver ∧
      ∀ u u' (r : Except HaError Unit),
        Transition.Run (promotionSystem lengthCrypto tableText) promoted u →
        promotion.Call tableText u r u' → u' = u := by
  have hcall : promotion.Call tableText receiver (.error (.contractValidation "ambiguous"))
      promoted := .ran verified (.lostAck _ ran)
  obtain ⟨hchange, hsecond, -⟩ := promoteReceiverToSource_once hcall
  rcases hchange with heq | ⟨digest, hpromoted⟩
  · exact absurd heq promoted_ne
  · exact ⟨promoted_ne, fun u u' r hrun h => hsecond digest hpromoted u u' promotion r hrun rfl rfl h⟩

end Durable
