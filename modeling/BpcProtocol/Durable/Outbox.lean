import BpcProtocol.Ha.CanonicalData
import BpcProtocol.Ha.Snapshot

set_option autoImplicit false

/-! # The durable outbox

The source-side tables of the outbox and `appendInTx`, which runs inside its caller's transaction:
fence check, admission, allocation of the sequence, digest and row. -/

namespace Durable

open Ha Fallible Relational

/-! ## Tables -/

mutual

/-- What `jsonb` can store: no string in it has the character zero. -/
def storable : JsValue → Bool
  | .string s => !s.contains 0
  | .array items => itemsStorable items
  | .object fields => fieldsStorable fields
  | _ => true

def itemsStorable : List JsValue → Bool
  | [] => true
  | v :: rest => storable v && itemsStorable rest

def fieldsStorable : List (JsString × JsValue) → Bool
  | [] => true
  | (k, v) :: rest => !k.contains 0 && storable v && fieldsStorable rest

end

/-- `length(text) BETWEEN 1 AND max` of a text, which counts characters and has none that is zero. -/
def textWithin (max : ℕ) (text : JsString) : Bool :=
  !text.contains 0 && decide (1 ≤ (Js.codePoints text).length) &&
    decide ((Js.codePoints text).length ≤ max)

/-- A number that JavaScript holds exactly, from `min` on. -/
def safeFrom (min n : ℤ) : Bool :=
  decide (min ≤ n) && decide (n ≤ Js.maxSafeInteger)

/-- A row of `ha_outbox_fence`. -/
structure FenceRow where
  streamId : JsString
  fenceToken : ℕ
  deriving DecidableEq

/-- `ha_outbox_fence`: one row for each stream. -/
def fenceSchema : Schema FenceRow where
  check r := textWithin 512 r.streamId && decide (r.fenceToken < 10 ^ 39)
  clash a b := a.streamId == b.streamId

/-- A row of `ha_outbox_source_checkpoint`. -/
structure SourceCheckpointRow where
  streamId : JsString
  sourceEpoch : JsString
  sequence : ℤ
  deriving DecidableEq

/-- `ha_outbox_source_checkpoint`: one row for each stream. -/
def sourceCheckpointSchema : Schema SourceCheckpointRow where
  check r := textWithin 512 r.streamId && textWithin 512 r.sourceEpoch && safeFrom 0 r.sequence
  clash a b := a.streamId == b.streamId

/-- A row of `ha_outbox_rows` with its markers. -/
structure OutboxEntry extends OutboxRow where
  acked : Bool
  quarantined : Bool

/-- `ha_outbox_rows`: one row for each stream, epoch and sequence. -/
def outboxRowSchema : Schema OutboxEntry where
  check r := textWithin 512 r.streamId && textWithin 512 r.sourceEpoch && safeFrom 1 r.sequence &&
    decide (r.fenceToken < 10 ^ 39) && hex64 r.opDigest && storable r.mutation
  clash a b := a.streamId == b.streamId && a.sourceEpoch == b.sourceEpoch &&
    a.sequence == b.sequence

/-- The source side of the outbox. -/
structure OutboxDb where
  fence : Table fenceSchema
  sourceCheckpoint : Table sourceCheckpointSchema
  rows : Table outboxRowSchema

namespace OutboxDb

variable (db : OutboxDb)

/-- `SELECT fence_token FROM ha_outbox_fence WHERE stream_id = $1`. -/
def fenceOf (streamId : JsString) : Option FenceRow :=
  db.fence.select fun r => r.streamId == streamId

/-- `SELECT … FROM ha_outbox_source_checkpoint WHERE stream_id = $1`. -/
def checkpointOf (streamId : JsString) : Option SourceCheckpointRow :=
  db.sourceCheckpoint.select fun r => r.streamId == streamId

/-- A row that is neither acknowledged nor quarantined. -/
def isPending (streamId : JsString) (r : OutboxEntry) : Bool :=
  r.streamId == streamId && !r.acked && !r.quarantined

/-- The number of rows of a stream that are neither acknowledged nor quarantined. -/
def pendingCount (streamId : JsString) : ℕ :=
  db.rows.rows.countP (isPending streamId)

/-- The rows of a stream in one of its epochs. -/
def history (streamId sourceEpoch : JsString) : List OutboxEntry :=
  db.rows.rows.filter fun r => r.streamId == streamId && r.sourceEpoch == sourceEpoch

end OutboxDb

/-! ## Appending -/

/-- `snapshotJson(value, label)`. -/
def snapshotJson (value : JsValue) (label : String) : Except HaError JsValue := do
  let text ← canonicalize value
  (Js.parseJson text).elim (.error (.contractValidation (label ++ " is not canonical I-JSON"))) pure

/-- The row a query must return. -/
def found {α : Type} (row : Option α) (message : String) : Except HaError α :=
  row.elim (.error (.contractValidation message)) pure

@[simp]
theorem found_eq_ok {α : Type} {row : Option α} {message : String} {a : α} :
    found row message = .ok a ↔ row = some a := by
  cases row with
  | none => simp [found]
  | some b => simp [found]

/-- `safeSeq(v, label)`. -/
def safeSeq (v : ℤ) (label : String) : Except HaError ℤ := do
  ensure (0 ≤ v ∧ v ≤ Js.maxSafeInteger) (label ++ " out of safe-integer range: " ++ toString v)
  pure v

/-- `affectedOne(res, label)`. -/
def affectedOne (n : ℕ) (label : String) : Except HaError Unit :=
  ensure (n = 1) (label ++ ": expected exactly 1 affected row, got " ++ toString n)

/-- `PgOutboxOptions`, of which an append reads these. -/
structure OutboxOptions where
  streamId : JsString
  maxPendingRows : ℕ
  backpressure : PublisherBackpressure
  sanitize : JsValue → Except HaError JsValue

/-- The argument of `appendInTx`. -/
structure AppendInput where
  streamId : JsString
  rawMutation : JsValue
  fenceToken : ℤ

/-- `fenceTokenToDecimal(t)`, as the number it writes. -/
def fenceTokenToDecimal (t : ℤ) : Except HaError ℕ := do
  ensure (0 ≤ t) "fenceToken must be a non-negative bigint"
  pure t.toNat

variable (c : Crypto)

/-- What is hashed into the digest of a row. -/
def OutboxEntry.digestInput (r : OutboxEntry) : OpDigestInput :=
  { streamId := r.streamId, sourceEpoch := r.sourceEpoch, sequence := r.sequence,
    fenceToken := Js.decimal r.fenceToken, mutation := r.mutation }

/-- The record of a row, as it is published. -/
def OutboxEntry.record (r : OutboxEntry) : OutboxRecord :=
  { contractVersion := Js.lit "1", streamId := r.streamId, sourceEpoch := r.sourceEpoch,
    sequence := r.sequence, fenceToken := Js.decimal r.fenceToken, opDigest := r.opDigest,
    mutation := r.mutation }

/-- The allocation of a row after a checkpoint, and what of it is inserted and returned. -/
def allocate (opts : OutboxOptions) (db : OutboxDb) (fenceToken : ℕ) (mutation : JsValue) :
    Except HaError (OutboxRecord × OutboxDb) := do
  let checkpoint ← found (db.checkpointOf opts.streamId)
    "stream not provisioned (no source checkpoint row)"
  let cur ← safeSeq checkpoint.sequence "source.checkpoint.sequence"
  ensure (cur < Js.maxSafeInteger) "source sequence exhausted safe-integer range"
  let opDigest ← canonicalOpDigest c
    { streamId := opts.streamId, sourceEpoch := checkpoint.sourceEpoch, sequence := cur + 1,
      fenceToken := Js.decimal fenceToken, mutation }
  let entry : OutboxEntry :=
    { streamId := opts.streamId, sourceEpoch := checkpoint.sourceEpoch, sequence := cur + 1,
      fenceToken, opDigest, mutation, acked := false, quarantined := false }
  let rows ← query (db.rows.insert entry)
  let upd ← query (db.sourceCheckpoint.update (fun r => r.streamId == opts.streamId)
    fun r => { r with sequence := cur + 1 })
  affectedOne upd.2 "source checkpoint advance"
  assertHeaderConformant entry.record
  pure (entry.record, { db with sourceCheckpoint := upd.1, rows })

/-- `appendInTx(tx, input)` on the tables of the transaction, without an external authority. The
    header is returned with the mutation it is the header of. -/
def appendInTx (opts : OutboxOptions) (db : OutboxDb) (input : AppendInput) :
    Except HaError (OutboxRecord × OutboxDb) := do
  let rawMutation ← snapshotJson input.rawMutation "raw mutation"
  let clean ← opts.sanitize rawMutation
  let mutation ← snapshotJson clean "sanitized mutation"
  ensure (input.streamId = opts.streamId) "streamId mismatch for this outbox"
  let fenceToken ← fenceTokenToDecimal input.fenceToken
  let persistedFence ← found (db.fenceOf opts.streamId)
    "no authoritative fence row — stream not provisioned (fail closed)"
  require (fenceToken = persistedFence.fenceToken) (.staleFence fenceToken persistedFence.fenceToken)
  let pending ← safeSeq (db.pendingCount opts.streamId) "pending-count"
  require (pending < opts.maxPendingRows) (.outboxBackpressure opts.backpressure)
  allocate c opts db fenceToken mutation

/-! ## What an append does -/

/-- The stored form of a value is the value with its keys sorted. -/
theorem snapshotJson_eq_ok {v w : JsValue} {label : String} (hv : v.DistinctKeys) :
    snapshotJson v label = .ok w ↔ Canonicalizable v ∧ w = sortKeys v := by
  simp only [snapshotJson, bind_eq_ok, canonicalize_eq_ok]
  constructor
  · rintro ⟨_, ⟨hcanon, rfl⟩, hparse⟩
    have htext := (plain_sortKeys (plain_of_ijson hcanon.ijson hv)).parse_stringify
      hcanon.ijson.hasText
    rw [htext] at hparse
    exact ⟨hcanon, (pure_eq_ok _ _).mp hparse.symm |>.symm ▸ rfl⟩
  · rintro ⟨hcanon, rfl⟩
    have htext := (plain_sortKeys (plain_of_ijson hcanon.ijson hv)).parse_stringify
      hcanon.ijson.hasText
    exact ⟨_, ⟨hcanon, rfl⟩, by rw [htext]; rfl⟩

/-- What an append that succeeds has done: `entry` is the row it added. -/
structure Appended (opts : OutboxOptions) (db : OutboxDb) (mutation : JsValue) (entry : OutboxEntry)
    (db' : OutboxDb) : Prop where
  checkpoint : db.checkpointOf opts.streamId =
    some ⟨opts.streamId, entry.sourceEpoch, entry.sequence - 1⟩
  fence : db.fenceOf opts.streamId = some ⟨opts.streamId, entry.fenceToken⟩
  admitted : db.pendingCount opts.streamId < opts.maxPendingRows
  stream : entry.streamId = opts.streamId
  mutation : entry.mutation = mutation
  waits : entry.acked = false ∧ entry.quarantined = false
  digest : canonicalOpDigest c entry.digestInput = .ok entry.opDigest
  conformant : assertHeaderConformant entry.record = .ok ()
  rows : db'.rows.rows = db.rows.rows ++ [entry]
  fences : db'.fence = db.fence
  advanced : db'.checkpointOf opts.streamId =
    some ⟨opts.streamId, entry.sourceEpoch, entry.sequence⟩

/-- The mutation that an append stores for a raw one. -/
def sanitized (opts : OutboxOptions) (raw : JsValue) : Except HaError JsValue := do
  let rawMutation ← snapshotJson raw "raw mutation"
  let clean ← opts.sanitize rawMutation
  snapshotJson clean "sanitized mutation"

theorem appendInTx_eq_ok {opts : OutboxOptions} {db db' : OutboxDb} {input : AppendInput}
    {record : OutboxRecord} (h : appendInTx c opts db input = .ok (record, db')) :
    ∃ mutation entry, sanitized opts input.rawMutation = .ok mutation ∧
      input.fenceToken = entry.fenceToken ∧ record = entry.record ∧
      Appended c opts db mutation entry db' := by
  simp only [appendInTx, allocate, fenceTokenToDecimal, safeSeq, affectedOne, bind_eq_ok,
    ensure_eq_ok, exists_unit, pure_eq_ok, found_eq_ok, require_eq_ok, query_eq_ok] at h
  obtain ⟨raw, hraw, clean, hclean, mutation, hmutation, -, token, ⟨htoken, rfl⟩, fence, hfence,
    hcurrent, pending, ⟨-, rfl⟩, hadmitted, cp, hcp, cur, ⟨-, rfl⟩, -, digest, hdigest, rows, hrows,
    upd, hupd, -, hconformant, heq⟩ := h
  cases heq
  obtain ⟨cpStream, epoch, cur⟩ := cp
  obtain ⟨fenceStream, persisted⟩ := fence
  obtain rfl : cpStream = opts.streamId := by simpa using (Table.mem_of_select hcp).2
  obtain rfl : fenceStream = opts.streamId := by simpa using (Table.mem_of_select hfence).2
  obtain rfl : input.fenceToken.toNat = persisted := hcurrent
  refine ⟨mutation, _, ?_, (Int.toNat_of_nonneg htoken).symm, rfl,
    { checkpoint := ?_
      fence := hfence
      admitted := by exact_mod_cast hadmitted
      stream := rfl
      mutation := rfl
      waits := ⟨rfl, rfl⟩
      digest := hdigest
      conformant := hconformant
      rows := Table.insert_eq_ok.mp hrows
      fences := rfl
      advanced := ?_ }⟩
  · simp only [sanitized, bind_eq_ok]
    exact ⟨raw, hraw, clean, hclean, hmutation⟩
  · simpa using hcp
  · have hselect := Table.select_update (q := fun r => r.streamId == opts.streamId) hupd
      fun r => rfl
    rw [OutboxDb.checkpointOf] at hcp ⊢
    rw [hselect, hcp]
    simp

end Durable
