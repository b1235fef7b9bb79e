import BpcProtocol.Durable.Outbox
import BpcProtocol.Js.JsonParsed
import BpcProtocol.Lib.Transaction
import BpcProtocol.Transport.Acknowledgement

set_option autoImplicit false

/-! # The publisher of the outbox

`PgDurablePublisher` delivers the rows of a stream in their order. A drain takes the stream's lease,
reads the lowest row that is not acknowledged, delivers it outside of any transaction, and
acknowledges or quarantines it as the signed receipt decides. Each transaction is a function of the
tables of the source; what a drain does between two awaits is a function of what it was answered. -/

namespace Durable

open Ha Fallible Relational
open Transport (AckReceipt)

/-! ## Tables -/

/-- A row of `ha_outbox_publisher_lease`, its time in milliseconds. -/
structure LeaseRow where
  streamId : JsString
  leaseToken : Option JsString
  leaseUntil : Option ℤ
  deriving DecidableEq

/-- `ha_outbox_publisher_lease`: one row for each stream. -/
def leaseSchema : Schema LeaseRow where
  check r := textWithin 512 r.streamId
  clash a b := a.streamId == b.streamId

/-- A row of `ha_outbox_quarantine`. -/
structure QuarantineRow where
  streamId : JsString
  sourceEpoch : JsString
  sequence : ℤ
  opDigest : JsString
  decision : JsString
  deriving DecidableEq

/-- `ha_outbox_quarantine`: one row for each stream, epoch and sequence. -/
def quarantineSchema : Schema QuarantineRow where
  check r := textWithin 512 r.streamId && textWithin 512 r.sourceEpoch && safeFrom 1 r.sequence &&
    hex64 r.opDigest
  clash a b := a.streamId == b.streamId && a.sourceEpoch == b.sourceEpoch &&
    a.sequence == b.sequence

/-- The tables of a source whose outbox is published. -/
structure PublishedDb extends OutboxDb where
  lease : Table leaseSchema
  quarantine : Table quarantineSchema

namespace PublishedDb

variable (db : PublishedDb)

/-- `SELECT … FROM ha_outbox_publisher_lease WHERE stream_id = $1`. -/
def leaseOf (streamId : JsString) : Option LeaseRow :=
  db.lease.select fun r => r.streamId == streamId

/-- `SELECT … FROM ha_outbox_quarantine WHERE stream_id = $1 AND source_epoch = $2 AND
    sequence = $3`. -/
def quarantineOf (streamId sourceEpoch : JsString) (sequence : ℤ) : Option QuarantineRow :=
  db.quarantine.select fun r =>
    r.streamId == streamId && r.sourceEpoch == sourceEpoch && r.sequence == sequence

/-- `SELECT … FROM ha_outbox_rows WHERE stream_id = $1 AND acked_at IS NULL ORDER BY sequence ASC
    LIMIT 1`. -/
def lowestUnacked (streamId : JsString) : Option OutboxEntry :=
  (orderBy (·.sequence) (db.rows.rows.filter fun r => r.streamId == streamId && !r.acked)).head?

end PublishedDb

/-! ## Decisions -/

/-- `ReceiverDecision`. -/
inductive ReceiverDecision where
  | applied
  | duplicateOk
  | rejectGap
  | rejectFence
  | rejectFork
  | rejectStale
  | rejectUnsanitized
  | rejectEpoch
  deriving DecidableEq, Repr

namespace ReceiverDecision

def text : ReceiverDecision → JsString
  | applied => Js.lit "applied"
  | duplicateOk => Js.lit "duplicate-ok"
  | rejectGap => Js.lit "reject-gap"
  | rejectFence => Js.lit "reject-fence"
  | rejectFork => Js.lit "reject-fork"
  | rejectStale => Js.lit "reject-stale"
  | rejectUnsanitized => Js.lit "reject-unsanitized"
  | rejectEpoch => Js.lit "reject-epoch"

/-- `ACK_DECISIONS`: the receiver owns the record. -/
def ackDecisions : List ReceiverDecision := [applied, duplicateOk]

/-- `TRANSIENT_DECISIONS`: to be delivered again later. -/
def transientDecisions : List ReceiverDecision := [rejectGap, rejectFence]

/-- `TERMINAL_DECISIONS`: the two sides have diverged. -/
def terminalDecisions : List ReceiverDecision :=
  [rejectFork, rejectStale, rejectUnsanitized, rejectEpoch]

/-- `KNOWN_DECISIONS`. -/
def knownDecisions : List ReceiverDecision :=
  ackDecisions ++ transientDecisions ++ terminalDecisions

/-- The decision that a text is, if it is one that the source interprets. -/
def ofText (s : JsString) : Option ReceiverDecision :=
  knownDecisions.find? fun d => d.text == s

theorem ofText_eq_some {s : JsString} {d : ReceiverDecision} (h : ofText s = some d) : d.text = s := by
  simpa using List.find?_some h

theorem text_injective {d d' : ReceiverDecision} (h : d.text = d'.text) : d = d' := by
  cases d <;> cases d' <;> first | rfl | exact absurd h (by decide)

end ReceiverDecision

/-! ## Transactions -/

/-- What a publisher is constructed with. -/
structure PublisherOptions where
  streamId : JsString
  leaseMs : ℤ
  assertSanitized : JsValue → Except HaError Unit

section Transactions

variable (opts : PublisherOptions)

/-- The transaction of `acquireLease(leaseToken)`: a lease is taken over once it has expired. -/
def acquireLease (leaseToken : JsString) (now : ℤ) (db : PublishedDb) :
    Except HaError (Bool × PublishedDb) :=
  match db.leaseOf opts.streamId with
  | none => do
      let lease ← query (db.lease.insert
        { streamId := opts.streamId, leaseToken := some leaseToken,
          leaseUntil := some (now + opts.leaseMs) })
      pure (true, { db with lease })
  | some row =>
      if row.leaseUntil.all fun leaseUntil => decide (leaseUntil < now) then do
        let upd ← query (db.lease.update (fun r => r.streamId == opts.streamId)
          fun r => { r with leaseToken := some leaseToken, leaseUntil := some (now + opts.leaseMs) })
        pure (decide (upd.2 = 1), { db with lease := upd.1 })
      else pure (false, db)

/-- The transaction of `releaseLease(leaseToken)`. -/
def releaseLease (leaseToken : JsString) (db : PublishedDb) : Except HaError (Unit × PublishedDb) := do
  let upd ← query (db.lease.update
    (fun r => r.streamId == opts.streamId && r.leaseToken == some leaseToken)
    fun r => { r with leaseToken := none, leaseUntil := none })
  pure ((), { db with lease := upd.1 })

/-- The lease is still held under the token. -/
def assertLease (leaseToken : JsString) (message : String) (db : PublishedDb) :
    Except HaError Unit := do
  let lease ← found (db.leaseOf opts.streamId) message
  ensure (lease.leaseToken = some leaseToken) message

/-- The transaction of `nextDeliverable(leaseToken)`: a quarantined row is not passed over. -/
def nextDeliverable (leaseToken : JsString) (db : PublishedDb) :
    Except HaError (Option OutboxEntry × PublishedDb) := do
  assertLease opts leaseToken "publisher lease lost — aborting drain" db
  pure ((db.lowestUnacked opts.streamId).filter fun r => !r.quarantined, db)

/-- A row of the record that is neither acknowledged nor quarantined. -/
def isOpen (record : OutboxRecord) (r : OutboxEntry) : Bool :=
  r.streamId == opts.streamId && r.sourceEpoch == record.sourceEpoch &&
    r.sequence == record.sequence && !r.acked && !r.quarantined

/-- The transaction that acknowledges the row of a record. -/
def acknowledge (leaseToken : JsString) (record : OutboxRecord) (db : PublishedDb) :
    Except HaError (Unit × PublishedDb) := do
  assertLease opts leaseToken "publisher lease lost — not acking" db
  let upd ← query (db.rows.update (fun r => isOpen opts record r && r.opDigest == record.opDigest)
    fun r => { r with acked := true })
  affectedOne upd.2 "publisher ack"
  pure ((), { db with rows := upd.1 })

/-- A quarantine that exists already is the same one. -/
def checkQuarantine (record : OutboxRecord) (decision : JsString) (inserted : ℕ)
    (db : PublishedDb) : Except HaError Unit :=
  if inserted = 0 then do
    let existing ← found (db.quarantineOf opts.streamId record.sourceEpoch record.sequence)
      "quarantine conflict without an existing row"
    ensure (existing.opDigest = record.opDigest ∧ existing.decision = decision)
      "quarantine record conflict: existing digest/decision differ from this record"
  else ensure (inserted = 1) "quarantine insert affected unexpected row count"

/-- The transaction of `quarantineRecord(leaseToken, sourceEpoch, sequence, storedDigest,
    decision)`. -/
def quarantineRecord (leaseToken : JsString) (record : OutboxRecord) (decision : JsString)
    (db : PublishedDb) : Except HaError (Unit × PublishedDb) := do
  assertLease opts leaseToken "publisher lease lost — not quarantining" db
  let ins ← query (db.quarantine.insertOrIgnore
    { streamId := opts.streamId, sourceEpoch := record.sourceEpoch, sequence := record.sequence,
      opDigest := record.opDigest, decision })
  checkQuarantine opts record decision ins.2 db
  let mark ← query (db.rows.update (isOpen opts record) fun r => { r with quarantined := true })
  affectedOne mark.2 "quarantine mark"
  pure ((), { db with quarantine := ins.1, rows := mark.1 })

end Transactions

/-! ## What the transactions do -/

/-- The rows of a stream, in the order in which they were appended. -/
def OutboxDb.rowsOf (db : OutboxDb) (streamId : JsString) : List OutboxEntry :=
  db.rows.rows.filter fun r => r.streamId == streamId

/-- Rows are marked, and nothing else is done to the outbox. -/
structure Marks (mark : OutboxEntry → OutboxEntry) (db db' : PublishedDb) : Prop where
  rows : db'.rows.rows = db.rows.rows.map mark
  sourceCheckpoint : db'.sourceCheckpoint = db.sourceCheckpoint
  fence : db'.fence = db.fence

section Transactions

variable {opts : PublisherOptions} {db db' : PublishedDb} {leaseToken decision : JsString}
  {record : OutboxRecord}

/-- A lease is a matter of its own table. -/
theorem outbox_of_acquireLease {now : ℤ} {held : Bool}
    (h : acquireLease opts leaseToken now db = .ok (held, db')) :
    db'.toOutboxDb = db.toOutboxDb := by
  unfold acquireLease at h
  split at h
  · simp only [bind_eq_ok, pure_eq_ok] at h
    obtain ⟨lease, -, heq⟩ := h
    cases heq
    rfl
  · split_ifs at h
    · simp only [bind_eq_ok, pure_eq_ok] at h
      obtain ⟨upd, -, heq⟩ := h
      cases heq
      rfl
    · cases h
      rfl

theorem outbox_of_releaseLease (h : releaseLease opts leaseToken db = .ok ((), db')) :
    db'.toOutboxDb = db.toOutboxDb := by
  simp only [releaseLease, bind_eq_ok, pure_eq_ok] at h
  obtain ⟨upd, -, heq⟩ := h
  cases heq
  rfl

/-- **The row that is delivered next** waits, and every row before it is acknowledged. -/
theorem nextDeliverable_eq_ok {row : Option OutboxEntry}
    (h : nextDeliverable opts leaseToken db = .ok (row, db')) :
    db' = db ∧ ∀ r ∈ row, r ∈ db.rowsOf opts.streamId ∧ r.acked = false ∧ r.quarantined = false ∧
      ∀ lower ∈ db.rowsOf opts.streamId, lower.sequence < r.sequence → lower.acked = true := by
  simp only [nextDeliverable, bind_eq_ok, pure_eq_ok] at h
  obtain ⟨-, -, heq⟩ := h
  cases heq
  refine ⟨rfl, fun r hr => ?_⟩
  obtain ⟨hlowest, hwaits⟩ := Option.filter_eq_some_iff.mp (Option.mem_def.mp hr)
  obtain ⟨hmem, hleast⟩ := orderBy_head hlowest
  rw [List.mem_filter, Bool.and_eq_true] at hmem
  obtain ⟨hrow, hstream, hacked⟩ := hmem
  refine ⟨List.mem_filter.mpr ⟨hrow, hstream⟩, by simpa using hacked, by simpa using hwaits, ?_⟩
  intro lower hlower hlt
  obtain ⟨hin, hsame⟩ := List.mem_filter.mp hlower
  by_contra hnot
  have hle := hleast lower (List.mem_filter.mpr ⟨hin, by
    rw [Bool.and_eq_true]
    exact ⟨hsame, by simpa using hnot⟩⟩)
  omega

variable (opts record) in
/-- A row as the acknowledgement of a record leaves it. -/
def markAcked (r : OutboxEntry) : OutboxEntry :=
  if isOpen opts record r && r.opDigest == record.opDigest then { r with acked := true } else r

variable (opts record) in
/-- A row as the quarantine of a record leaves it. -/
def markQuarantined (r : OutboxEntry) : OutboxEntry :=
  if isOpen opts record r then { r with quarantined := true } else r

theorem acknowledge_eq_ok (h : acknowledge opts leaseToken record db = .ok ((), db')) :
    Marks (markAcked opts record) db db' := by
  simp only [acknowledge, bind_eq_ok, exists_unit, query_eq_ok, pure_eq_ok] at h
  obtain ⟨-, upd, hupd, -, heq⟩ := h
  cases heq
  exact ⟨(Table.update_eq_ok.mp hupd).1, rfl, rfl⟩

theorem quarantineRecord_eq_ok
    (h : quarantineRecord opts leaseToken record decision db = .ok ((), db')) :
    Marks (markQuarantined opts record) db db' := by
  simp only [quarantineRecord, bind_eq_ok, exists_unit, query_eq_ok, pure_eq_ok] at h
  obtain ⟨-, ins, -, -, mark, hmark, -, heq⟩ := h
  cases heq
  exact ⟨(Table.update_eq_ok.mp hmark).1, rfl, rfl⟩

end Transactions

/-! ## Records -/

/-- `snapshotRecord(record)`: every field but the mutation comes back as it is. -/
def snapshotRecord (r : OutboxRecord) : Except HaError OutboxRecord := do
  let snapshot ← snapshotJson r.toValue "outbox record"
  let record := { r with mutation := snapshot.get (Js.lit "mutation") }
  assertHeaderConformant record
  pure record

/-- A row as the driver returns it: a `bigint` and a `numeric` are texts. -/
def OutboxEntry.databaseRow (r : OutboxEntry) : JsValue :=
  .object [(Js.lit "source_epoch", .string r.sourceEpoch),
    (Js.lit "sequence", .string (Js.decimal r.sequence)),
    (Js.lit "fence_token", .string (Js.decimal r.fenceToken)),
    (Js.lit "op_digest", .string r.opDigest), (Js.lit "mutation", r.mutation)]

/-- What is read back is a value of `JSON.parse`. -/
theorem json_of_snapshotJson {v w : JsValue} {label : String} (h : snapshotJson v label = .ok w) :
    Js.Json w := by
  simp only [snapshotJson, bind_eq_ok] at h
  obtain ⟨text, -, hparse⟩ := h
  cases hvalue : Js.parseJson text with
  | none =>
      rw [hvalue] at hparse
      cases hparse
  | some parsed =>
      rw [hvalue] at hparse
      cases hparse
      exact Js.json_of_parse hvalue

theorem distinctKeys_sortKeys {v : JsValue} (h : v.DistinctKeys) : (sortKeys v).DistinctKeys := by
  induction h with
  | array _ ih =>
      rw [sortKeys, sortKeysItems_eq]
      refine .array fun w hw => ?_
      obtain ⟨v, hv, rfl⟩ := List.mem_map.mp hw
      exact ih v hv
  | @object fields hnodup _ ih =>
      rw [sortKeys, sort_sortKeysFields]
      refine .object ?_ fun g hg => ?_
      · rw [List.map_map]
        exact ((List.perm_insertionSort keyLe fields).map Prod.fst).nodup_iff.mpr hnodup
      · obtain ⟨f, hf, rfl⟩ := List.mem_map.mp hg
        exact ih f ((List.mem_insertionSort keyLe).mp hf)
  | undefined => exact .undefined
  | null => exact .null
  | bool b => exact .bool b
  | number n => exact .number n
  | string s => exact .string s
  | other => exact .other

theorem OutboxRecord.distinctKeys {r : OutboxRecord} (h : r.mutation.DistinctKeys) :
    r.toValue.DistinctKeys := by
  refine .object (show (["contractVersion", "streamId", "sourceEpoch", "sequence", "fenceToken",
    "opDigest", "mutation"].map Js.lit).Nodup by decide) fun f hf => ?_
  simp only [List.mem_cons, List.not_mem_nil, or_false] at hf
  rcases hf with rfl | rfl | rfl | rfl | rfl | rfl | rfl
  · exact .string _
  · exact .string _
  · exact .string _
  · exact .number _
  · exact .string _
  · exact .string _
  · exact h

theorem OutboxEntry.distinctKeys {r : OutboxEntry} (h : r.mutation.DistinctKeys) :
    r.databaseRow.DistinctKeys := by
  refine .object (show (["source_epoch", "sequence", "fence_token", "op_digest", "mutation"].map
    Js.lit).Nodup by decide) fun f hf => ?_
  simp only [List.mem_cons, List.not_mem_nil, or_false] at hf
  rcases hf with rfl | rfl | rfl | rfl | rfl
  · exact .string _
  · exact .string _
  · exact .string _
  · exact .string _
  · exact h

/-- A record is read back with the keys of its mutation sorted. -/
theorem snapshotRecord_eq_ok {r captured : OutboxRecord} (h : r.mutation.DistinctKeys)
    (hsnapshot : snapshotRecord r = .ok captured) :
    captured = { r with mutation := sortKeys r.mutation } ∧ IJson r.mutation := by
  simp only [snapshotRecord, bind_eq_ok, exists_unit, pure_eq_ok] at hsnapshot
  obtain ⟨snapshot, hjson, -, rfl⟩ := hsnapshot
  have hkeys := OutboxRecord.distinctKeys h
  obtain ⟨hcanon, rfl⟩ := (snapshotJson_eq_ok hkeys).mp hjson
  constructor
  · have hget : (sortKeys r.toValue).get (Js.lit "mutation") = sortKeys r.mutation := by
      rw [OutboxRecord.toValue] at hkeys ⊢
      cases hkeys with
      | object hnodup _ => exact Transport.get_sortKeys hnodup "mutation"
    rw [hget]
  · have hijson := hcanon.ijson
    rw [OutboxRecord.toValue] at hijson
    cases hijson with
    | object _ _ hfields => exact hfields (Js.lit "mutation", r.mutation) (by simp)

variable (c : Crypto)

/-- What is hashed into the digest of a record. -/
def recordDigestInput (r : OutboxRecord) : OpDigestInput :=
  { streamId := r.streamId, sourceEpoch := r.sourceEpoch, sequence := r.sequence,
    fenceToken := r.fenceToken, mutation := r.mutation }

/-- What a drain makes of the row it has read: the record to be delivered. -/
def deliverable (opts : PublisherOptions) (r : OutboxEntry) : Except HaError OutboxRecord := do
  let row ← snapshotJson r.databaseRow "outbox database row"
  let sequence ← safeSeq r.sequence "row.sequence"
  let record ← snapshotRecord
    { contractVersion := Js.lit "1", streamId := opts.streamId, sourceEpoch := r.sourceEpoch,
      sequence, fenceToken := Js.decimal r.fenceToken, opDigest := r.opDigest,
      mutation := row.get (Js.lit "mutation") }
  opts.assertSanitized record.mutation
  let recomputed ← canonicalOpDigest c (recordDigestInput record)
  ensure (recomputed = record.opDigest)
    ("corrupted outbox row: digest mismatch at " ++ Js.message opts.streamId ++ "/" ++
      Js.message record.sourceEpoch ++ "/" ++ toString record.sequence)
  pure record

/-- A row as it is delivered: its record, with the keys of the mutation sorted. -/
def published (r : OutboxRow) : OutboxRecord :=
  { contractVersion := Js.lit "1", streamId := r.streamId, sourceEpoch := r.sourceEpoch,
    sequence := r.sequence, fenceToken := Js.decimal r.fenceToken, opDigest := r.opDigest,
    mutation := sortKeys r.mutation }

/-- **A row is delivered as it is stored.** -/
theorem deliverable_eq_ok {opts : PublisherOptions} {row : OutboxEntry} {record : OutboxRecord}
    (hkeys : row.mutation.DistinctKeys) (hstream : row.streamId = opts.streamId)
    (h : deliverable c opts row = .ok record) :
    record = published row.toOutboxRow ∧ IJson row.mutation := by
  simp only [deliverable, safeSeq, bind_eq_ok, ensure_eq_ok, exists_unit, pure_eq_ok] at h
  obtain ⟨stored, hstored, -, ⟨-, rfl⟩, record, hrecord, -, -, -, -, rfl⟩ := h
  have hdistinct := OutboxEntry.distinctKeys hkeys
  obtain ⟨hcanon, rfl⟩ := (snapshotJson_eq_ok hdistinct).mp hstored
  have hijson : IJson row.mutation := by
    have hrow := hcanon.ijson
    rw [OutboxEntry.databaseRow] at hrow
    cases hrow with
    | object _ _ hfields => exact hfields (Js.lit "mutation", row.mutation) (by simp)
  have hget : (sortKeys row.databaseRow).get (Js.lit "mutation") = sortKeys row.mutation := by
    rw [OutboxEntry.databaseRow] at hdistinct ⊢
    cases hdistinct with
    | object hnodup _ => exact Transport.get_sortKeys hnodup "mutation"
  rw [hget] at hrecord
  refine ⟨?_, hijson⟩
  rw [(snapshotRecord_eq_ok (distinctKeys_sortKeys hkeys) hrecord).1, published, sortKeys_sortKeys hijson, hstream]

/-- A record that is delivered is read back as it is. -/
theorem snapshotRecord_published {row : OutboxRow} {captured : OutboxRecord}
    (hkeys : row.mutation.DistinctKeys) (hijson : IJson row.mutation)
    (h : snapshotRecord (published row) = .ok captured) : captured = published row := by
  have hmutation : (published row).mutation.DistinctKeys := distinctKeys_sortKeys hkeys
  rw [(snapshotRecord_eq_ok hmutation h).1, published, sortKeys_sortKeys hijson]

/-- `snapshotAckReceipt(receipt)`, of a receipt with fields of their types. -/
def snapshotAckReceipt (receipt : AckReceipt) : Except HaError AckReceipt := do
  let _ ← snapshotJson receipt.toValue "ACK receipt"
  ensure (receipt.sequence.isSafeInteger = true ∧ receipt.sequence.lt (.fin 1) = false)
    "ACK receipt has invalid field types"
  pure receipt

theorem snapshotAckReceipt_eq_ok {receipt receipt' : AckReceipt}
    (h : snapshotAckReceipt receipt = .ok receipt') : receipt' = receipt := by
  simp only [snapshotAckReceipt, bind_eq_ok, exists_unit, pure_eq_ok] at h
  obtain ⟨-, -, -, rfl⟩ := h
  rfl

/-! ## A drain -/

/-- `DrainResult`. -/
structure DrainResult where
  published : ℕ
  acked : ℕ
  quarantined : ℕ
  retriable : Bool
  deriving DecidableEq, Repr

/-- What ends a drain: an error of its own or of a transaction, or one that the transport or the
    verifier has thrown. -/
inductive DrainError where
  | ha (e : HaError)
  | thrown
  deriving DecidableEq

/-- What `deliverAndAwaitAck` comes to: a receipt, an error that is not retriable, or another. -/
inductive Delivered where
  | receipt (receipt : AckReceipt)
  | terminal
  | failed

/-- What a drain awaits. Behind `releasing`, it returns its result or throws. -/
inductive DrainPhase where
  | acquiring
  | reading
  | delivering (record : OutboxRecord)
  | verifying (record : OutboxRecord) (receipt : AckReceipt)
  | acking (record : OutboxRecord)
  | quarantining (record : OutboxRecord) (decision : JsString)
  | releasing (outcome : Except DrainError Unit)
  | ended (outcome : Except DrainError Unit)

/-- A call of `drainOnce`. -/
structure Drain where
  leaseToken : JsString
  phase : DrainPhase
  result : DrainResult

namespace Drain

/-- A drain that awaits its lease. -/
def start (leaseToken : JsString) : Drain where
  leaseToken
  phase := .acquiring
  result := ⟨0, 0, 0, false⟩

variable (opts : PublisherOptions) (d : Drain)

/-- The drain throws, its lease held. -/
def fail (e : DrainError) : Drain :=
  { d with phase := .releasing (.error e) }

/-- Behind `acquireLease`: without the lease there is nothing to do and nothing to release. -/
def acquired : Except HaError Bool → Drain
  | .ok true => { d with phase := .reading }
  | .ok false => { d with phase := .ended (.ok ()), result := { d.result with retriable := true } }
  | .error e => { d with phase := .ended (.error (.ha e)) }

/-- Behind `nextDeliverable`. -/
def read : Except HaError (Option OutboxEntry) → Drain
  | .ok none => { d with phase := .releasing (.ok ()) }
  | .ok (some row) =>
      match deliverable c opts row with
      | .ok record => { d with phase := .delivering record }
      | .error e => d.fail (.ha e)
  | .error e => d.fail (.ha e)

/-- Behind `deliverAndAwaitAck`. -/
def delivered (record : OutboxRecord) : Delivered → Drain
  | .receipt receipt =>
      match snapshotAckReceipt receipt with
      | .ok receipt =>
          { d with
            phase := .verifying record receipt
            result := { d.result with published := d.result.published + 1 } }
      | .error e => d.fail (.ha e)
  | .terminal => { d with phase := .quarantining record (Js.lit "reject-transport-terminal") }
  | .failed => d.fail .thrown

/-- The receipt names the record. -/
def names (record : OutboxRecord) (receipt : AckReceipt) : Prop :=
  receipt.streamId = opts.streamId ∧ receipt.sourceEpoch = record.sourceEpoch ∧
    receipt.sequence = .fin (record.sequence : ℤ) ∧ receipt.opDigest = record.opDigest

instance (record : OutboxRecord) (receipt : AckReceipt) : Decidable (names opts record receipt) :=
  inferInstanceAs (Decidable (_ ∧ _))

/-- What follows from a decision. -/
def decided (record : OutboxRecord) (decision : ReceiverDecision) : Drain :=
  if decision ∈ ReceiverDecision.ackDecisions then { d with phase := .acking record }
  else if decision ∈ ReceiverDecision.transientDecisions then
    { d with phase := .releasing (.ok ()), result := { d.result with retriable := true } }
  else { d with phase := .quarantining record decision.text }

/-- Behind `ackVerifier.verify`, which returns or throws. -/
def verified (record : OutboxRecord) (receipt : AckReceipt) (accepted : Bool) : Drain :=
  if accepted = false then d.fail .thrown
  else if ¬names opts record receipt then
    d.fail (.ha (.contractValidation "ACK receipt does not match the delivered record — not acking"))
  else
    (ReceiverDecision.ofText receipt.decision).elim
      (d.fail (.ha (.contractValidation
        ("unknown receiver decision: " ++ Js.message receipt.decision))))
      (d.decided record)

/-- Behind the transaction that acknowledges. -/
def acknowledged : Except HaError Unit → Drain
  | .ok () => { d with phase := .reading, result := { d.result with acked := d.result.acked + 1 } }
  | .error e => d.fail (.ha e)

/-- Behind `quarantineRecord`: the drain stops there. -/
def parked : Except HaError Unit → Drain
  | .ok () =>
      { d with
        phase := .releasing (.ok ())
        result := { d.result with quarantined := d.result.quarantined + 1 } }
  | .error e => d.fail (.ha e)

/-- Behind `releaseLease`, whose error takes the place of the one before. -/
def released (outcome : Except DrainError Unit) : Except HaError Unit → Drain
  | .ok () => { d with phase := .ended outcome }
  | .error e => { d with phase := .ended (.error (.ha e)) }

end Drain

end Durable
