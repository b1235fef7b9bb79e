import BpcProtocol.Ha.CutoverService
import BpcProtocol.Ha.SourceLeaseChain

set_option autoImplicit false

/-! # The source fence

`PgSourceLeaseFence.assertWritableInTx`: the checks a transaction of the source passes before it
writes, on the lease its own database holds, on that database's clock, and on what the Redis
authority and the node's identity prove. -/

namespace Ha

open Fallible Relational

/-! ## Clocks

`clock_timestamp()` counts microseconds; the code reads it in whole milliseconds. -/

/-- `floor(extract(epoch FROM clock_timestamp())*1000)::bigint`. -/
def floorMs (micros : ℤ) : ℤ := micros / 1000

/-- `(extract(epoch FROM clock_timestamp())*1000)::bigint`: the cast rounds half away from zero. -/
def roundMs (micros : ℤ) : ℤ :=
  if 0 ≤ micros then (micros + 500) / 1000 else -((-micros + 500) / 1000)

theorem floorMs_lt {micros n : ℤ} : floorMs micros < n ↔ micros < 1000 * n := by
  unfold floorMs
  omega

/-- A rounded reading runs at most half a millisecond ahead of its clock. -/
theorem le_of_le_roundMs {micros n : ℤ} (h : n ≤ roundMs micros) : 1000 * n ≤ micros + 500 := by
  unfold roundMs at h
  split at h <;> omega

/-! ## The binding -/

/-- `SourceLeaseBinding`. -/
structure SourceLeaseBinding where
  streamId : JsString
  epoch : ℤ
  holderNodeId : JsString
  authoritySystemId : JsString
  nodeCredentialKeyId : JsString
  leaseId : JsString
  grantDigest : JsString
  redisClaimDigest : JsString
  maxClockSkewMs : ℤ
  maxTransactionDurationMs : ℤ
  activationDigest : Option JsString
  deriving DecidableEq, Repr

/-- The checks of the constructor of `PgSourceLeaseFence`, for a prover with the given key id and a
    transactor with the given window. -/
def validateSourceLeaseBinding (proverKeyId : JsString) (transactorMs : ℤ) (b : SourceLeaseBinding) :
    Except HaError Unit := do
  id b.streamId streamRe "streamId"
  id b.holderNodeId idRe "holderNodeId"
  id b.leaseId idRe "leaseId"
  ensure (digits b.authoritySystemId = true) "invalid authoritySystemId"
  id b.nodeCredentialKeyId keyRe "nodeCredentialKeyId"
  ensure (proverKeyId = b.nodeCredentialKeyId)
    "node identity prover does not match the signed authority binding"
  let _ ← safeInt b.epoch "epoch" 1 maxEpoch
  let _ ← safeInt b.maxClockSkewMs "maxClockSkewMs" 0 60000
  let _ ← safeInt b.maxTransactionDurationMs "maxTransactionDurationMs" 1 300000
  ensure (transactorMs = b.maxTransactionDurationMs)
    "source transaction window is not bound to the configured PgTransactor"
  ensure (hex64 b.grantDigest = true) "invalid grantDigest"
  ensure (hex64 b.redisClaimDigest = true) "invalid redisClaimDigest"
  ensure (1 < b.epoch → b.activationDigest.any hex64 = true)
    "promoted source requires a signed ACTIVE cutover digest"

/-- `PgSourceLeaseFence`: a binding that passed its constructor. -/
structure PgSourceLeaseFence where
  proverKeyId : JsString
  transactorMs : ℤ
  binding : SourceLeaseBinding
  valid : validateSourceLeaseBinding proverKeyId transactorMs binding = .ok ()

/-! ## The lease check -/

/-- What `bpc_ha.read_source_lease_for_write` answers: the head row, the last row of the history and
    the database clock. -/
structure LeaseForWrite where
  lease : SourceLeaseGrant
  latest : Option SourceLeaseGrant
  dbNowMs : ℤ
  deriving DecidableEq, Repr

/-- `bpc_ha.read_source_lease_for_write(requested_stream)`, with the clock at `micros`. -/
def readSourceLeaseForWrite (db : LeaseDb) (micros : ℤ) (requestedStream : JsString) :
    Option LeaseForWrite :=
  (db.head requestedStream).map fun lease =>
    { lease, latest := (db.history requestedStream).getLast?, dbNowMs := floorMs micros }

variable (c : Crypto) (resolver : PublicKeyResolver c)

/-- The head row is the last row of the history. -/
def checkLatest (lease : SourceLeaseGrant) : Option SourceLeaseGrant → Except HaError Unit
  | none => .error (.contractValidation
      ("latest grantSeq must be a safe integer in [1, " ++ toString Js.maxSafeInteger ++ "]"))
  | some latest => do
      let latestGrantSeq ← safeInt latest.grantSeq "latest grantSeq" 1
      ensure (latestGrantSeq = lease.grantSeq ∧ latest.grantDigest = lease.grantDigest)
        "source lease head/history mismatch"

/-- The first part of `assertWritableInTx`: the lease that was read is active, is the one the fence
    is bound to, and has not expired on the source's clock. -/
def checkSourceLease (b : SourceLeaseBinding) :
    Option LeaseForWrite → Except HaError SourceLeaseGrant
  | none => .error (.contractValidation "source lease missing (fail closed)")
  | some row => do
      let lease ← leaseFromRow row.lease
      verifySourceLeaseGrant c resolver lease
      checkLatest lease row.latest
      ensure (lease.status = .active ∧ lease.epoch = b.epoch ∧ lease.holderNodeId = b.holderNodeId ∧
        lease.leaseId = b.leaseId ∧ lease.grantDigest = b.grantDigest ∧
        lease.maxTransactionDurationMs = b.maxTransactionDurationMs)
        "source lease binding is stale or revoked"
      let dbNow ← safeInt row.dbNowMs "database clock" 0 maxMs
      ensure (¬ lease.expiresAtMs ≤ dbNow + b.maxClockSkewMs) "source lease expired (fail closed)"
      pure lease

/-- A lease that passes is the active one of the binding's epoch, with its window, and the clock
    plus the configured skew lies before its expiry. -/
theorem checkSourceLease_spec {b : SourceLeaseBinding} {row : LeaseForWrite}
    {lease : SourceLeaseGrant} (h : checkSourceLease c resolver b (some row) = .ok lease) :
    lease = row.lease ∧ lease.status = .active ∧ lease.epoch = b.epoch ∧
      lease.maxTransactionDurationMs = b.maxTransactionDurationMs ∧
      row.dbNowMs + b.maxClockSkewMs < lease.expiresAtMs := by
  simp only [checkSourceLease, bind_eq_ok, exists_unit, ensure_eq_ok, safeInt_eq_ok,
    pure_eq_ok] at h
  obtain ⟨lease', hrow, -, -, ⟨hstatus, hepoch, -, -, -, hwindow⟩, now, ⟨-, rfl⟩, hlive, rfl⟩ := h
  exact ⟨eq_of_leaseFromRow hrow, hstatus, hepoch, hwindow, Int.not_le.mp hlive⟩

/-! ## The rest of the assertion -/

/-- A row of `bpc_ha.source_activation`. -/
structure SourceActivation where
  stateDigestSigned : JsString
  receipt : CutoverReceipt
  readiness : PromotionReadinessAttestation

/-- What `assertWritableInTx` reads after the lease: the epoch's activation row, the record of the
    Redis quorum, the identity of the database it runs on, the random text of its challenge, and
    the proof the node answers to the challenge. -/
structure WriteEvidence where
  activation : Option SourceActivation
  redis : Except HaError RedisFenceRecord
  systemIdentifier : JsString
  randomText : JsString
  prove : Bytes → Except HaError JsString

/-- A promoted source holds the ACTIVE receipt of its epoch, and the readiness evidence for it. -/
def checkActivation (b : SourceLeaseBinding) : Option SourceActivation → Except HaError Unit
  | none => .error (.contractValidation "promoted source ACTIVE receipt missing or stale")
  | some active => do
      ensure (some active.stateDigestSigned = b.activationDigest)
        "promoted source ACTIVE receipt missing or stale"
      verifyCutoverReceipt c resolver active.receipt
      verifyPromotionReadinessAttestation c resolver active.readiness
      ensure (active.receipt.phase = .active ∧ active.receipt.streamId = b.streamId ∧
        active.receipt.targetEpoch = b.epoch ∧
        some active.receipt.stateDigestSigned = b.activationDigest ∧
        some active.readiness.fencedDigest = active.receipt.prevStateDigest ∧
        active.readiness.targetSystemId = b.authoritySystemId)
        "promoted source ACTIVE/readiness binding invalid"

/-- The Redis authority names this node for this epoch. -/
def checkRedisAuthority (b : SourceLeaseBinding) (redis : RedisFenceRecord) :
    Except HaError Unit := do
  ensure (redis.streamId = b.streamId ∧ redis.epoch = b.epoch ∧ redis.nodeId = b.holderNodeId ∧
    redis.nodeCredentialKeyId = b.nodeCredentialKeyId)
    "external Redis fence authority is missing, stale, or conflicting"
  let digest ← redisFenceRecordDigest c redis
  ensure (digest = b.redisClaimDigest)
    "external Redis fence authority is missing, stale, or conflicting"

/-- The challenge a node proves its identity on. -/
def sourceWriteChallenge (b : SourceLeaseBinding) (evidence : WriteEvidence) : Bytes :=
  frame [.text (Js.lit "bpc-source-write/v1"), .text b.streamId, .number b.epoch,
    .text evidence.systemIdentifier, .text b.grantDigest, .text b.redisClaimDigest,
    .text evidence.randomText]

/-- The second part of `assertWritableInTx`. -/
def checkAuthority (b : SourceLeaseBinding) (evidence : WriteEvidence) : Except HaError Unit := do
  if 1 < b.epoch then checkActivation c resolver b evidence.activation else pure ()
  let redis ← evidence.redis
  checkRedisAuthority c b redis
  ensure (evidence.systemIdentifier = b.authoritySystemId ∧
    redis.authoritySystemId = evidence.systemIdentifier)
    "source authority PostgreSQL identity does not match its signed fence"
  let challenge := sourceWriteChallenge b evidence
  let proof ← evidence.prove challenge
  verify c resolver b.nodeCredentialKeyId (nodeIdentityMessage challenge) proof

/-- `assertWritableInTx(exec)`, from what the lease query and the later reads answer. -/
def PgSourceLeaseFence.assertWritableInTx (fence : PgSourceLeaseFence)
    (row : Option LeaseForWrite) (evidence : WriteEvidence) : Except HaError Unit := do
  let _ ← checkSourceLease c resolver fence.binding row
  checkAuthority c resolver fence.binding evidence

end Ha
