import BpcProtocol.Ha.CutoverService
import BpcProtocol.Ha.Digests

set_option autoImplicit false

/-! # Pair snapshots and promotion readiness

The signed bundle of a source's whole history, its verification record by record, and the
attestation that a promoted target is ready. -/

namespace Ha

open Fallible Relational

/-! ## Outbox records -/

/-- `OutboxRecord`. -/
structure OutboxRecord where
  contractVersion : JsString
  streamId : JsString
  sourceEpoch : JsString
  sequence : ℤ
  fenceToken : JsString
  opDigest : JsString
  mutation : JsValue

/-- The record as the object it is. -/
def OutboxRecord.toValue (r : OutboxRecord) : JsValue :=
  .object [(Js.lit "contractVersion", .string r.contractVersion),
    (Js.lit "streamId", .string r.streamId), (Js.lit "sourceEpoch", .string r.sourceEpoch),
    (Js.lit "sequence", .number (.fin r.sequence)), (Js.lit "fenceToken", .string r.fenceToken),
    (Js.lit "opDigest", .string r.opDigest), (Js.lit "mutation", r.mutation)]

/-- The records of a bundle as the array they are. -/
def recordsValue (records : List OutboxRecord) : JsValue :=
  .array (records.map OutboxRecord.toValue)

/-- `assertHeaderConformant(h)`. -/
def assertHeaderConformant (h : OutboxRecord) : Except HaError Unit := do
  ensure (h.contractVersion = Js.lit "1")
    ("unsupported contractVersion " ++ Js.message h.contractVersion)
  assertId h.streamId "streamId"
  assertNoLoneSurrogate h.streamId
  assertId h.sourceEpoch "sourceEpoch"
  assertNoLoneSurrogate h.sourceEpoch
  ensure (Js.isSafeInteger h.sequence ∧ 1 ≤ h.sequence)
    "mutation record sequence must be a safe integer >= 1 (0 is genesis)"
  assertFenceToken h.fenceToken
  ensure (hex64 h.opDigest = true) "opDigest must be 64 lowercase hex"

/-- A row of `ha_outbox_rows`. -/
structure OutboxRow where
  streamId : JsString
  sourceEpoch : JsString
  sequence : ℤ
  fenceToken : ℕ
  opDigest : JsString
  mutation : JsValue

/-- The record of a row. -/
def recordOfRow (streamId : JsString) (row : OutboxRow) : Except HaError OutboxRecord := do
  let sequence ← safeInt row.sequence "sequence" 1
  pure
    { contractVersion := Js.lit "1", streamId, sourceEpoch := row.sourceEpoch, sequence,
      fenceToken := Js.decimal row.fenceToken, opDigest := row.opDigest, mutation := row.mutation }

/-- The sequence numbers of records without a gap. -/
def sequencesFrom (n : ℕ) : List ℤ := (List.range n).map fun index => (index : ℤ) + 1

/-! ## Manifests -/

/-- `BareSnapshot`. -/
structure BareSnapshot where
  streamId : JsString
  sourceEpoch : JsString
  finalSequence : ℤ
  sourceSystemId : JsString
  stateDigest : JsString
  historyDigest : JsString
  issuedAtMs : ℤ
  deriving DecidableEq, Repr

/-- `PairSnapshotManifest`. -/
structure PairSnapshotManifest extends BareSnapshot where
  keyId : JsString
  signature : JsString
  deriving DecidableEq, Repr

/-- `PairSnapshotBundle`. -/
structure PairSnapshotBundle where
  manifest : PairSnapshotManifest
  records : List OutboxRecord

/-- `snapshotMessage(value)`. -/
def snapshotMessage (value : BareSnapshot) : Bytes :=
  frame [.text (Js.lit "bpc-pair-snapshot/v1"), .text value.streamId, .text value.sourceEpoch,
    .number value.finalSequence, .text value.sourceSystemId, .text value.stateDigest,
    .text value.historyDigest, .number value.issuedAtMs]

/-- What the transaction of `buildPairSnapshotBundle` reads: the stream's source checkpoint, the
    outbox, the identity of the database and the digest of its pair tables. -/
structure SnapshotSource where
  checkpoint : Option (JsString × ℤ)
  rows : List OutboxRow
  systemId : JsString
  stateDigest : JsString

/-- `source checkpoint missing`. -/
def sourceCheckpoint (source : SnapshotSource) : Except HaError (JsString × ℤ) :=
  match source.checkpoint with
  | some cp => pure cp
  | none => .error (.contractValidation "source checkpoint missing")

variable (c : Crypto)

/-- `buildPairSnapshotBundle(db, streamId, throughSequence, keyId, key, now)`, from what its
    transaction reads. -/
def buildPairSnapshotBundle (source : SnapshotSource) (streamId : JsString) (throughSequence : ℤ)
    (keyId : JsString) (key : c.PrivateKey) (now : ℤ) : Except HaError PairSnapshotBundle := do
  id streamId streamRe "streamId"
  let (sourceEpoch, sequence) ← sourceCheckpoint source
  let sourceSequence ← safeInt sequence "sourceSequence"
  let finalSequence ← safeInt throughSequence "throughSequence"
  ensure (finalSequence = sourceSequence)
    "snapshot must capture the locked committed source head exactly"
  let rows := orderBy (·.sequence) (source.rows.filter fun r =>
    r.streamId == streamId && r.sourceEpoch == sourceEpoch && decide (r.sequence ≤ finalSequence))
  let records ← rows.mapM (recordOfRow streamId)
  ensure ((records.length : ℤ) = finalSequence ∧
    records.map (·.sequence) = sequencesFrom records.length)
    "snapshot history is not contiguous from genesis"
  let history ← canonicalize (recordsValue records)
  let issuedAtMs ← safeInt now "issuedAtMs" 0 maxMs
  let bare : BareSnapshot :=
    { streamId, sourceEpoch, finalSequence, sourceSystemId := source.systemId,
      stateDigest := source.stateDigest, historyDigest := c.sha256 (Js.utf8 history), issuedAtMs }
  let signature ← sign c keyId key (snapshotMessage bare)
  pure { manifest := { bare with keyId, signature }, records }

/-- `verifyPairSnapshotManifest(resolver, manifest)`. -/
def verifyPairSnapshotManifest (resolver : PublicKeyResolver c) (manifest : PairSnapshotManifest) :
    Except HaError Unit := do
  id manifest.streamId streamRe "streamId"
  id manifest.sourceEpoch idRe "sourceEpoch"
  let _ ← safeInt manifest.finalSequence "finalSequence"
  let _ ← safeInt manifest.issuedAtMs "issuedAtMs" 0 maxMs
  ensure (digits manifest.sourceSystemId = true ∧ hex64 manifest.stateDigest = true ∧
    hex64 manifest.historyDigest = true) "snapshot manifest malformed"
  verify c resolver manifest.keyId (snapshotMessage manifest.toBareSnapshot) manifest.signature

/-- The checks of `verifyBundle` on the record at an index. -/
def verifyBundleRecord (assertSanitized : JsValue → Except HaError Unit)
    (manifest : PairSnapshotManifest) (index : ℕ) (record : OutboxRecord) : Except HaError Unit := do
  assertHeaderConformant record
  ensure (record.streamId = manifest.streamId ∧ record.sourceEpoch = manifest.sourceEpoch ∧
    record.sequence = index + 1) "snapshot history is gapped/reordered/misbinding"
  assertSanitized record.mutation
  let digest ← canonicalOpDigest c
    { streamId := record.streamId, sourceEpoch := record.sourceEpoch, sequence := record.sequence,
      fenceToken := record.fenceToken, mutation := record.mutation }
  ensure (digest = record.opDigest) "snapshot record digest mismatch"

/-- `verifyBundle(resolver, bundle, sanitizer)`. -/
def verifyBundle (resolver : PublicKeyResolver c) (bundle : PairSnapshotBundle)
    (assertSanitized : JsValue → Except HaError Unit) : Except HaError Unit := do
  verifyPairSnapshotManifest c resolver bundle.manifest
  ensure ((bundle.records.length : ℤ) = bundle.manifest.finalSequence)
    "snapshot history digest/length mismatch"
  let history ← canonicalize (recordsValue bundle.records)
  ensure (c.sha256 (Js.utf8 history) = bundle.manifest.historyDigest)
    "snapshot history digest/length mismatch"
  bundle.records.zipIdx.forM fun p =>
    verifyBundleRecord c assertSanitized bundle.manifest p.2 p.1

/-! ## Promotion readiness -/

/-- What the transaction of `buildPromotionReadinessAttestation` reads: the receiver's sequence,
    the source checkpoint, the digest of the pair tables and the identity of the database. -/
structure PromotedTarget where
  appliedSequence : Option ℤ
  source : Option (JsString × ℤ)
  stateDigest : JsString
  systemId : JsString

/-- The promoted receiver holds the fenced state, and its new source is at genesis. -/
def PromotedTarget.Ready (target : PromotedTarget) (fenced : CutoverReceipt) : Prop :=
  target.appliedSequence = some fenced.finalSourceSequence ∧
    target.source = some (fenced.targetSourceEpoch, 0) ∧ target.stateDigest = fenced.stateDigest

instance (target : PromotedTarget) (fenced : CutoverReceipt) : Decidable (target.Ready fenced) :=
  inferInstanceAs (Decidable (_ ∧ _))

/-- `buildPromotionReadinessAttestation(db, fenced, snapshotKeyId, keyId, key)`, from what its
    transaction reads. -/
def buildPromotionReadinessAttestation (target : PromotedTarget) (fenced : CutoverReceipt)
    (snapshotKeyId keyId : JsString) (key : c.PrivateKey) :
    Except HaError PromotionReadinessAttestation := do
  ensure (fenced.phase = .fenced) "readiness attestation requires FENCED cutover"
  ensure (target.Ready fenced) "promoted receiver/source state is not ready"
  let bare : PromotionReadinessAttestation :=
    { streamId := fenced.streamId, commandId := fenced.commandId,
      targetEpoch := fenced.targetEpoch, targetSourceEpoch := fenced.targetSourceEpoch,
      targetSystemId := target.systemId, snapshotKeyId, manifestDigest := fenced.manifestDigest,
      appliedSequence := fenced.finalSourceSequence, stateDigest := fenced.stateDigest,
      fencedDigest := fenced.stateDigestSigned, keyId, attestationDigest := [], signature := [] }
  let attestationDigest := c.sha256 (promotionAttestationMessage bare [])
  let signature ← sign c keyId key (promotionAttestationMessage bare attestationDigest)
  pure { bare with attestationDigest, signature }

end Ha
