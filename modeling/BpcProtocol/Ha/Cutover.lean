import BpcProtocol.Ha.RedisFenceRecord
import BpcProtocol.Ha.SourceLease
import Mathlib.Data.Prod.Lex

set_option autoImplicit false

/-! # Cutovers

The signed receipts of a cutover (PREPARING, FENCED, ACTIVE), the control database that retains
them, and the transactions of `BpcCutoverController` and `PgRedisFenceWitness` on it. -/

namespace Ha

open Fallible Relational

/-! ## Receipts -/

inductive CutoverPhase where
  | preparing
  | fenced
  | active
  deriving DecidableEq, Repr

/-- A phase as the text it is stored and framed as. -/
def CutoverPhase.text : CutoverPhase → JsString
  | .preparing => Js.lit "PREPARING"
  | .fenced => Js.lit "FENCED"
  | .active => Js.lit "ACTIVE"

/-- The place of a phase in the order of `verifyCutoverChain`. -/
def CutoverPhase.rank : CutoverPhase → ℤ
  | .preparing => 1
  | .fenced => 2
  | .active => 3

/-- The argument of `begin`: a cutover without its phase and its link. -/
structure CutoverIntent where
  streamId : JsString
  commandId : JsString
  previousEpoch : ℤ
  targetEpoch : ℤ
  targetNodeId : JsString
  targetSourceEpoch : JsString
  manifestDigest : JsString
  finalSourceSequence : ℤ
  stateDigest : JsString
  redisClaimDigest : JsString
  oldLeaseDigest : JsString
  oldLeaseExpiresAtMs : ℤ
  sourceTransactionWindowMs : ℤ
  deriving DecidableEq, Repr

/-- `BareCutover`. -/
structure BareCutover extends CutoverIntent where
  phase : CutoverPhase
  prevStateDigest : Option JsString
  deriving DecidableEq, Repr

/-- `CutoverReceipt`. A row of `bpc_ha.cutover_head` and of its history holds exactly these fields,
    in columns of its own. -/
structure CutoverReceipt extends BareCutover where
  stateDigestSigned : JsString
  keyId : JsString
  signature : JsString
  deriving DecidableEq, Repr

/-- `cutoverMessage(v, digest)`. -/
def cutoverMessage (v : BareCutover) (digest : JsString) : Bytes :=
  frame [.text (Js.lit "bpc-cutover/v1"), .text v.streamId, .text v.commandId, .text v.phase.text,
    .number v.previousEpoch, .number v.targetEpoch, .text v.targetNodeId,
    .text v.targetSourceEpoch, .text v.manifestDigest, .number v.finalSourceSequence,
    .text v.stateDigest, .text v.redisClaimDigest, .text v.oldLeaseDigest,
    .number v.oldLeaseExpiresAtMs, .number v.sourceTransactionWindowMs,
    .ofOption v.prevStateDigest, .text digest]

/-- `validateBareCutover(v)`. -/
def validateBareCutover (v : BareCutover) : Except HaError Unit := do
  id v.streamId streamRe "streamId"
  id v.commandId idRe "commandId"
  id v.targetNodeId idRe "targetNodeId"
  id v.targetSourceEpoch idRe "targetSourceEpoch"
  let _ ← safeInt v.previousEpoch "previousEpoch" 0 (maxEpoch - 1)
  let _ ← safeInt v.targetEpoch "targetEpoch" 1 maxEpoch
  let _ ← safeInt v.finalSourceSequence "finalSourceSequence"
  let _ ← safeInt v.oldLeaseExpiresAtMs "oldLeaseExpiresAtMs" 0 maxMs
  let _ ← safeInt v.sourceTransactionWindowMs "sourceTransactionWindowMs" 1 300000
  ensure (v.targetEpoch = v.previousEpoch + 1) "cutover epoch must advance exactly once"
  ensure (hex64 v.manifestDigest = true) "invalid manifestDigest"
  ensure (hex64 v.stateDigest = true) "invalid stateDigest"
  ensure (hex64 v.redisClaimDigest = true) "invalid redisClaimDigest"
  ensure (hex64 v.oldLeaseDigest = true) "invalid oldLeaseDigest"
  ensure (v.prevStateDigest.all hex64 = true) "invalid previous cutover digest"

variable (c : Crypto)

/-- `signCutoverReceipt(keyId, key, bare)`. -/
def signCutoverReceipt (keyId : JsString) (key : c.PrivateKey) (bare : BareCutover) :
    Except HaError CutoverReceipt := do
  validateBareCutover bare
  let stateDigestSigned := c.sha256 (cutoverMessage bare [])
  let signature ← sign c keyId key (cutoverMessage bare stateDigestSigned)
  pure { bare with stateDigestSigned, keyId, signature }

/-- `verifyCutoverReceipt(resolver, value)`. -/
def verifyCutoverReceipt (resolver : PublicKeyResolver c) (value : CutoverReceipt) :
    Except HaError Unit := do
  validateBareCutover value.toBareCutover
  ensure (hex64 value.stateDigestSigned = true ∧
    c.sha256 (cutoverMessage value.toBareCutover []) = value.stateDigestSigned)
    "cutover state digest mismatch"
  verify c resolver value.keyId (cutoverMessage value.toBareCutover value.stateDigestSigned)
    value.signature

/-- `cutoverFromRow(r)`. -/
def cutoverFromRow (r : CutoverReceipt) : Except HaError CutoverReceipt := do
  let previousEpoch ← safeInt r.previousEpoch "previousEpoch" 0 (maxEpoch - 1)
  let targetEpoch ← safeInt r.targetEpoch "targetEpoch" 1 maxEpoch
  let finalSourceSequence ← safeInt r.finalSourceSequence "finalSourceSequence"
  let oldLeaseExpiresAtMs ← safeInt r.oldLeaseExpiresAtMs "oldLeaseExpiresAtMs" 0 maxMs
  let sourceTransactionWindowMs ←
    safeInt r.sourceTransactionWindowMs "sourceTransactionWindowMs" 1 300000
  pure { r with
    previousEpoch, targetEpoch, finalSourceSequence, oldLeaseExpiresAtMs, sourceTransactionWindowMs }

/-! ## The control database -/

/-- The `CHECK` constraints of `bpc_ha.cutover_head`, which its history copies. -/
def cutoverCheck (r : CutoverReceipt) : Bool :=
  decide (0 ≤ r.previousEpoch ∧ r.previousEpoch ≤ maxEpoch - 1) &&
  decide (1 ≤ r.targetEpoch ∧ r.targetEpoch ≤ maxEpoch) &&
  hex64 r.manifestDigest &&
  decide (0 ≤ r.finalSourceSequence ∧ r.finalSourceSequence ≤ Js.maxSafeInteger) &&
  hex64 r.stateDigest && hex64 r.redisClaimDigest && hex64 r.oldLeaseDigest &&
  decide (0 ≤ r.oldLeaseExpiresAtMs ∧ r.oldLeaseExpiresAtMs ≤ maxMs) &&
  decide (1 ≤ r.sourceTransactionWindowMs ∧ r.sourceTransactionWindowMs ≤ 300000) &&
  hex64 r.stateDigestSigned

/-- `bpc_ha.cutover_head`, keyed by stream and unique in its commands. -/
def cutoverHeadSchema : Schema CutoverReceipt where
  check := cutoverCheck
  clash a b := a.streamId == b.streamId || a.commandId == b.commandId

/-- `bpc_ha.cutover_history`: keyed by stream, target epoch and phase, and unique in the stream's
    digests. -/
def cutoverHistorySchema : Schema CutoverReceipt where
  check := cutoverCheck
  clash a b := a.streamId == b.streamId &&
    ((a.targetEpoch == b.targetEpoch && a.phase == b.phase) ||
      a.stateDigestSigned == b.stateDigestSigned)

/-- A row of `bpc_ha.epoch_witness`. -/
structure EpochWitness where
  streamId : JsString
  epoch : ℤ
  stateDigest : JsString
  deriving DecidableEq, Repr

/-- `bpc_ha.epoch_witness`, keyed by stream. -/
def epochWitnessSchema : Schema EpochWitness where
  check r := decide (0 ≤ r.epoch ∧ r.epoch ≤ maxEpoch) && hex64 r.stateDigest
  clash a b := a.streamId == b.streamId

/-- The columns of `bpc_ha.promotion_attestation` that the code reads. -/
structure AttestationRow where
  commandId : JsString
  attestationDigest : JsString
  keyId : JsString
  signature : JsString
  deriving DecidableEq, Repr

/-- `bpc_ha.promotion_attestation`, keyed by command. -/
def promotionAttestationSchema : Schema AttestationRow where
  check r := hex64 r.attestationDigest
  clash a b := a.commandId == b.commandId

/-- The control database. -/
@[ext]
structure ControlDb where
  leases : LeaseDb
  cutoverHead : Table cutoverHeadSchema
  cutoverHistory : Table cutoverHistorySchema
  epochWitness : Table epochWitnessSchema
  promotionAttestation : Table promotionAttestationSchema
  deriving DecidableEq

/-- The control database as provisioned. -/
def ControlDb.empty : ControlDb := ⟨.empty, .empty _, .empty _, .empty _, .empty _⟩

/-- A stream's row of `bpc_ha.cutover_head`. -/
def ControlDb.head (db : ControlDb) (streamId : JsString) : Option CutoverReceipt :=
  db.cutoverHead.select fun r => r.streamId == streamId

/-- A stream's row of `bpc_ha.epoch_witness`. -/
def ControlDb.witness (db : ControlDb) (streamId : JsString) : Option EpochWitness :=
  db.epochWitness.select fun r => r.streamId == streamId

/-- The retained receipts of a stream, as stored. -/
def ControlDb.receipts (db : ControlDb) (streamId : JsString) : List CutoverReceipt :=
  db.cutoverHistory.rows.filter fun r => r.streamId == streamId

/-- The retained receipts of a stream, by target epoch and phase. -/
def ControlDb.history (db : ControlDb) (streamId : JsString) : List CutoverReceipt :=
  orderBy (fun r => toLex (r.targetEpoch, r.phase.rank)) (db.receipts streamId)

/-! ## Verifying the chain -/

/-- The loop of `verifyCutoverChain` over the retained rows: each receipt is verified and links to
    the one before it (`previous`). -/
def verifyCutoverRows (resolver : PublicKeyResolver c) :
    List CutoverReceipt → Option CutoverReceipt → Except HaError (Option CutoverReceipt)
  | [], last => pure last
  | row :: rest, last => do
      let receipt ← cutoverFromRow row
      verifyCutoverReceipt c resolver receipt
      ensure (receipt.prevStateDigest = last.map (·.stateDigestSigned))
        "cutover retained history chain is broken"
      verifyCutoverRows resolver rest (some receipt)

/-- `verifyCutoverChain(exec, resolver, streamId)`. -/
def verifyCutoverChain (resolver : PublicKeyResolver c) (db : ControlDb) (streamId : JsString) :
    Except HaError (Option CutoverReceipt) := do
  let last ← verifyCutoverRows c resolver (db.history streamId) none
  match db.head streamId with
  | none => do
      ensure (last = none) "cutover history exists without authority head"
      pure none
  | some headRow => do
      let head ← cutoverFromRow headRow
      verifyCutoverReceipt c resolver head
      ensure (last.map (·.stateDigestSigned) = some head.stateDigestSigned)
        "cutover head is not the latest retained history state"
      pure (some head)

/-! ## The controller -/

/-- `BpcCutoverController`: the guard key it signs with and the skew it allows between clocks. -/
structure BpcCutoverController where
  guardKeyId : JsString
  guardKey : c.PrivateKey
  maxClockSkewMs : ℤ

/-- The head row's new columns: the receipt's, under the row's own stream. -/
def cutoverColumns (receipt row : CutoverReceipt) : CutoverReceipt :=
  { receipt with streamId := row.streamId }

/-- A new receipt is retained, and the head moved to it from the digest that was read. -/
def writeReceipt (db : ControlDb) (current : Option CutoverReceipt) (receipt : CutoverReceipt) :
    Except HaError ControlDb := do
  let history ← query (db.cutoverHistory.insert receipt)
  match current with
  | none => do
      let head ← query (db.cutoverHead.insert receipt)
      pure { db with cutoverHead := head, cutoverHistory := history }
  | some cur => do
      let (head, rowCount) ← query (db.cutoverHead.update
        (fun r => r.streamId == receipt.streamId && r.stateDigestSigned == cur.stateDigestSigned)
        (cutoverColumns receipt))
      ensure (rowCount = 1) "cutover head forward-CAS failed"
      pure { db with cutoverHead := head, cutoverHistory := history }

/-- The witness row of a stream, created at epoch zero where there is none. -/
def witnessRow (db : ControlDb) (streamId : JsString) : Except HaError ControlDb :=
  match db.witness streamId with
  | some _ => pure db
  | none => do
      let epochWitness ← query (db.epochWitness.insert
        { streamId, epoch := 0, stateDigest := List.replicate 64 48 })
      pure { db with epochWitness }

/-- `witness ? safeInt(witness.epoch, 'witnessEpoch', 0, MAX_EPOCH) : 0`. -/
def witnessEpoch (db : ControlDb) (streamId : JsString) : Except HaError ℤ :=
  match db.witness streamId with
  | none => pure 0
  | some w => safeInt w.epoch "witnessEpoch" 0 maxEpoch

/-- A stream's head receipt, read back and verified. -/
def currentReceipt (resolver : PublicKeyResolver c) (row : CutoverReceipt) :
    Except HaError CutoverReceipt := do
  let current ← cutoverFromRow row
  verifyCutoverReceipt c resolver current
  pure current

/-- `begin` past its early return: the intent is admitted against the head (`current`) and the
    epoch witness, signed, verified and written. -/
def prepare (resolver : PublicKeyResolver c) (ctl : BpcCutoverController c) (input : CutoverIntent)
    (db : ControlDb) (current : Option CutoverReceipt) :
    Except HaError (CutoverReceipt × ControlDb) := do
  ensure (∀ cur ∈ current, cur.phase = .active ∧ input.previousEpoch = cur.targetEpoch)
    "another cutover intent is already authoritative"
  let epoch ← witnessEpoch db input.streamId
  ensure (epoch = input.previousEpoch) "cutover does not advance the external epoch witness"
  let db ← witnessRow db input.streamId
  let preparing ← signCutoverReceipt c ctl.guardKeyId ctl.guardKey
    { input with phase := .preparing, prevStateDigest := current.map (·.stateDigestSigned) }
  verifyCutoverReceipt c resolver preparing
  let db ← writeReceipt db current preparing
  pure (preparing, db)

/-- `begin(input)`: one transaction under the stream's advisory lock. -/
def BpcCutoverController.begin (resolver : PublicKeyResolver c) (ctl : BpcCutoverController c)
    (input : CutoverIntent) (db : ControlDb) : Except HaError (CutoverReceipt × ControlDb) :=
  match db.head input.streamId with
  | none => prepare c resolver ctl input db none
  | some row => do
      let current ← currentReceipt c resolver row
      if current.toCutoverIntent = input then pure (current, db)
      else prepare c resolver ctl input db (some current)

/-! ## Transitions -/

/-- What `transition` reads outside its database: the control clock (`control_now`) and the record
    of the Redis quorum, when one was given and has a majority. -/
structure FenceEvidence where
  controlNow : ℤ
  redis : Except HaError RedisFenceRecord

/-- The old source lease is the revoked grant that the intent names, and its expiry, the clock skew
    and the transaction window have passed on the control clock. -/
def checkOldLease (resolver : PublicKeyResolver c) (ctl : BpcCutoverController c)
    (current : CutoverReceipt) (controlNow : ℤ) :
    Option SourceLeaseGrant → Except HaError Unit
  | none => .error (.contractValidation "old source lease evidence missing")
  | some leaseRow => do
      let lease ← leaseFromRow leaseRow
      verifySourceLeaseGrant c resolver lease
      ensure (lease.status = .revoked ∧ lease.grantDigest = current.oldLeaseDigest ∧
        lease.epoch = current.previousEpoch ∧ lease.expiresAtMs = current.oldLeaseExpiresAtMs ∧
        lease.maxTransactionDurationMs = current.sourceTransactionWindowMs)
        "old source lease is not exactly revoked or its transaction window is not bound"
      let controlNow ← safeInt controlNow "control clock" 0 maxMs
      ensure (lease.expiresAtMs + ctl.maxClockSkewMs + current.sourceTransactionWindowMs ≤ controlNow)
        "old source lease expiry plus signed transaction window has not been proven"

/-- The Redis quorum holds exactly the record that the intent names. -/
def checkRedis (current : CutoverReceipt) (redis : RedisFenceRecord) : Except HaError Unit := do
  ensure (redis.streamId = current.streamId ∧ redis.epoch = current.targetEpoch ∧
    redis.nodeId = current.targetNodeId ∧ redis.commandId = current.commandId)
    "Redis quorum does not match the signed cutover intent"
  let digest ← redisFenceRecordDigest c redis
  ensure (digest = current.redisClaimDigest)
    "Redis quorum does not match the signed cutover intent"

/-- The checks of a transition to FENCED. -/
def checkFence (resolver : PublicKeyResolver c) (ctl : BpcCutoverController c) (db : ControlDb)
    (current : CutoverReceipt) (evidence : FenceEvidence) : Except HaError Unit := do
  checkOldLease c resolver ctl current evidence.controlNow
    (db.leases.sourceLease.select fun r => r.streamId == current.streamId)
  let redis ← evidence.redis
  checkRedis c current redis

/-- The retry of a transition to FENCED that has already been made. -/
def checkFencedRetry (resolver : PublicKeyResolver c) (db : ControlDb) (current : CutoverReceipt) :
    Except HaError Unit := do
  let verified ← verifyCutoverChain c resolver db current.streamId
  ensure (verified.map (·.stateDigestSigned) = some current.stateDigestSigned)
    "FENCED retry lost its signed PostgreSQL witness"
  match db.witness current.streamId with
  | none => .error (.contractValidation "FENCED retry lost its signed PostgreSQL witness")
  | some w => do
      let epoch ← safeInt w.epoch "witnessEpoch" 1 maxEpoch
      ensure (epoch = current.targetEpoch ∧ w.stateDigest = current.stateDigestSigned)
        "FENCED retry lost its signed PostgreSQL witness"

/-- The witness moves forward to a FENCED receipt's target epoch. -/
def advanceWitness (db : ControlDb) (next : CutoverReceipt) : Except HaError ControlDb := do
  let (epochWitness, rowCount) ← query (db.epochWitness.update
    (fun w => w.streamId == next.streamId && w.epoch == next.previousEpoch)
    (fun w => { w with epoch := next.targetEpoch, stateDigest := next.stateDigestSigned }))
  ensure (rowCount = 1) "epoch witness forward-CAS failed"
  pure { db with epochWitness }

/-- The receipt of the next phase is signed and written, and for FENCED the witness advanced. -/
def advance (ctl : BpcCutoverController c) (current : CutoverReceipt) (phase : CutoverPhase)
    (db : ControlDb) : Except HaError (CutoverReceipt × ControlDb) := do
  let next ← signCutoverReceipt c ctl.guardKeyId ctl.guardKey
    { current with phase, prevStateDigest := some current.stateDigestSigned }
  let db ← writeReceipt db (some current) next
  if phase = .fenced then do
    let db ← advanceWitness db next
    pure (next, db)
  else pure (next, db)

/-- The target of `transition`. -/
inductive TransitionPhase where
  | fenced
  | active
  deriving DecidableEq, Repr

/-- `transition(commandId, 'FENCED', quorum)` from the head receipt. -/
def transitionFenced (resolver : PublicKeyResolver c) (ctl : BpcCutoverController c)
    (current : CutoverReceipt) (evidence : FenceEvidence) (db : ControlDb) :
    Except HaError (CutoverReceipt × ControlDb) := do
  checkFence c resolver ctl db current evidence
  if current.phase = .preparing then advance c ctl current .fenced db
  else do
    checkFencedRetry c resolver db current
    pure (current, db)

/-- `transition(commandId, 'ACTIVE')` from the head receipt. -/
def transitionActive (ctl : BpcCutoverController c) (current : CutoverReceipt) (db : ControlDb) :
    Except HaError (CutoverReceipt × ControlDb) :=
  match current.phase with
  | .active => pure (current, db)
  | .preparing => .error (.contractValidation "cutover phase transition out of order")
  | .fenced => advance c ctl current .active db

/-- `transition(commandId, phase, quorum)`: one transaction. -/
def BpcCutoverController.transition (resolver : PublicKeyResolver c)
    (ctl : BpcCutoverController c) (commandId : JsString) (phase : TransitionPhase)
    (evidence : FenceEvidence) (db : ControlDb) : Except HaError (CutoverReceipt × ControlDb) :=
  match db.cutoverHead.select fun r => r.commandId == commandId with
  | none => .error (.contractValidation "cutover intent missing")
  | some row => do
      let current ← currentReceipt c resolver row
      match phase with
      | .fenced => transitionFenced c resolver ctl current evidence db
      | .active => transitionActive c ctl current db

end Ha
