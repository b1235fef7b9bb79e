import BpcProtocol.Lib.Async
import BpcProtocol.Nonce.Governed

set_option autoImplicit false

/-! # The governed nonce store

Verifiers over one Redis namespace. Each has a gate in memory that follows what the scripts reply;
its calls and its reconcile loop interleave at their awaits with those of every other verifier,
while time passes, keys expire, commands time out and are executed late, and Redis loses its
state. -/

namespace Nonce

open Fallible Async

/-! ## The gate -/

/-- `SharedContinuityGate`. -/
structure SharedContinuityGate where
  epoch : Option JsString
  quarantinedUntilMs : JsNumber
  reason : QuarantineReason
  stopped : Bool

namespace SharedContinuityGate

def new : SharedContinuityGate := ⟨none, .posInf, .continuityStoreUnavailable, false⟩

variable (g : SharedContinuityGate)

/-- `get continuityEpoch()`. -/
def continuityEpoch : Except NonceError JsString :=
  match g.epoch with
  | none => .error (.authorizationQuarantine g.reason g.quarantinedUntilMs)
  | some epoch => .ok epoch

/-- `assertAcceptable(nowMs)`. -/
def assertAcceptable (nowMs : ℤ) : Except NonceError Unit :=
  require (g.stopped = false ∧ g.epoch.isSome = true ∧
      JsNumber.lt (.fin nowMs) g.quarantinedUntilMs = false)
    (.authorizationQuarantine g.reason g.quarantinedUntilMs)

/-- `expectedEpoch()`. -/
def expectedEpoch (nowMs : ℤ) : Except NonceError JsString := do
  g.assertAcceptable nowMs
  g.continuityEpoch

/-- `apply(epoch, ttlMs, reason)`. -/
def apply (nowMs : ℤ) (epoch : JsString) (ttlMs : ℤ) (reason : QuarantineReason) :
    Except NonceError SharedContinuityGate := do
  let epoch ← validateEpoch epoch "Redis continuity epoch"
  if g.stopped then pure g
  else pure { g with
    epoch := some epoch, reason
    quarantinedUntilMs := if 0 < ttlMs then .fin (nowMs + ttlMs : ℤ) else .fin 0 }

/-- `failClosed()`. -/
def failClosed : SharedContinuityGate :=
  { g with reason := .continuityStoreUnavailable, quarantinedUntilMs := .posInf }

/-- `close()`. -/
def close : SharedContinuityGate :=
  { g.failClosed with stopped := true }

end SharedContinuityGate

/-! ## Calls -/

/-- What a call of the verifier `v : ν` does between two awaits, or awaits. -/
inductive GovernedOp (ν : Type) where
  | assertNoEvictionPolicy
  | makeEpoch
  | dateNow
  | reconcile (a : ReconcileArgs)
  | consume (a : ConsumeArgs)
  | gateNew (v : ν)
  | gateContinuityEpoch (v : ν)
  | gateExpectedEpoch (v : ν)
  | gateApply (v : ν) (epoch : JsString) (ttlMs : ℤ) (reason : QuarantineReason)
  | gateFailClosed (v : ν)
  | gateClose (v : ν)

abbrev GovernedOp.Answer {ν : Type} : GovernedOp ν → Type
  | assertNoEvictionPolicy => Except NonceError Unit
  | makeEpoch => JsString
  | dateNow => ℤ
  | reconcile _ => Except NonceError ScriptReply
  | consume _ => Except NonceError ScriptReply
  | gateNew _ => Unit
  | gateContinuityEpoch _ => Except NonceError JsString
  | gateExpectedEpoch _ => Except NonceError JsString
  | gateApply _ _ _ _ => Except NonceError Unit
  | gateFailClosed _ => Unit
  | gateClose _ => Unit

variable {ν : Type}

abbrev GovernedProg (ν α : Type) := Prog (GovernedOp ν) GovernedOp.Answer NonceError α

/-- One operation. -/
def perform (o : GovernedOp ν) : GovernedProg ν o.Answer :=
  Prog.perform o

/-- An operation that may throw. -/
def attempt {α : Type} (p : GovernedProg ν (Except NonceError α)) : GovernedProg ν α :=
  p >>= Prog.lift

/-- `validateEpoch(newEpoch(), 'newEpoch() result')`. -/
def makeEpoch : GovernedProg ν JsString := do
  let epoch : JsString ← perform .makeEpoch
  Prog.lift (validateEpoch epoch "newEpoch() result")

variable (cfg : GovernedConfig) (v : ν)

/-- The reply of a script that found or caused a quarantine. -/
def enterQuarantine (reply : ScriptReply) (reason : QuarantineReason) : GovernedProg ν Bool := do
  let epoch ← Prog.lift (validateEpoch reply.epoch "Redis governed epoch")
  Prog.lift (require (0 < reply.ttlMs)
    (NonceError.nonceStoreUnavailable "response lacked a positive quarantine TTL"))
  attempt (perform (.gateApply v epoch reply.ttlMs reason))
  let nowMs : ℤ ← perform .dateNow
  Prog.fail (.authorizationQuarantine reason (.fin (nowMs + reply.ttlMs : ℤ)))

/-- A reply that decides about the nonce: `replay` or fresh. -/
def decided (expectedEpoch : JsString) (reply : ScriptReply) (replay : Bool) :
    GovernedProg ν Bool := do
  Prog.lift (require (reply.epoch = expectedEpoch ∧ reply.ttlMs = -2)
    (NonceError.nonceStoreUnavailable "response violated epoch/TTL invariants"))
  pure replay

/-- What `checkAndConsume` does with the reply of `CONSUME_SCRIPT`. -/
def onConsumeReply (expectedEpoch : JsString) (reply : ScriptReply) : GovernedProg ν Bool :=
  match reply.status with
  | .fresh => decided expectedEpoch reply false
  | .replay => decided expectedEpoch reply true
  | .epochChanged => enterQuarantine v reply .continuityEpochChanged
  | .configMissing => enterQuarantine v reply .continuityConfigMismatch
  | .configMismatch => enterQuarantine v reply .continuityConfigMismatch
  | .configInvalid => enterQuarantine v reply .continuityConfigMismatch
  | .missing => enterQuarantine v reply .continuityMarkerLost
  | .malformed => enterQuarantine v reply .continuityMarkerLost
  | .quarantined => enterQuarantine v reply .continuityMarkerLost
  | _ => Prog.fail (.nonceStoreUnavailable "Unknown governed Redis status")

/-- The `catch` of `checkAndConsume`: all but a quarantine fails the gate closed. -/
def onConsumeError : NonceError → GovernedProg ν Bool
  | .authorizationQuarantine reason untilMs =>
      Prog.fail (.authorizationQuarantine reason untilMs)
  | .nonceStoreUnavailable cause =>
      Prog.await (.gateFailClosed v) fun _ => Prog.fail (.nonceStoreUnavailable cause)
  | _ => Prog.await (.gateFailClosed v) fun _ => Prog.fail (.nonceStoreUnavailable "cause")

/-- `CONSUME_SCRIPT` for one nonce, and what follows its reply. -/
def consumeNonce (nonce expectedEpoch newEpoch : JsString) : GovernedProg ν Bool := do
  let reply ← attempt (perform (.consume
    { nonce, expectedEpoch, newEpoch, quarantineMs := cfg.quarantineMs
      ttlMs := cfg.retentionMs, config := cfg.continuityConfig }))
  onConsumeReply v expectedEpoch reply

/-- `AtomicContinuityNonceStore.checkAndConsume(nonce, ttlMs)`, with the retention that its
    `ServerNonceStore` passes. -/
def checkAndConsume (nonce : JsString) : GovernedProg ν Bool := do
  let _ ← Prog.lift (positiveSafeInteger cfg.retentionMs "ttlMs")
  let expectedEpoch ← attempt (perform (.gateExpectedEpoch v))
  let newEpoch ← makeEpoch
  (consumeNonce cfg v nonce expectedEpoch newEpoch).tryCatch (onConsumeError v)

/-- `ServerNonceStore.checkAndConsume(nonce)`. -/
def serverCheckAndConsume (nonce : JsString) : GovernedProg ν Bool :=
  (checkAndConsume cfg v nonce).tryCatch fun e =>
    match e with
    | .nonceStoreUnavailable cause => Prog.fail (.nonceStoreUnavailable cause)
    | .authorizationQuarantine reason untilMs =>
        Prog.fail (.authorizationQuarantine reason untilMs)
    | _ => Prog.fail (.nonceStoreUnavailable "cause")

/-- The checks on a reply of `RECONCILE_SCRIPT` that bootstrap and reconcile share. -/
def checkReconcileReply (fail : String → NonceError) (reply : ScriptReply) :
    Except NonceError JsString := do
  require (reply.status ≠ .configMismatch ∧ reply.status ≠ .configInvalid)
    (NonceError.continuityConfiguration reply.status)
  require (reply.status = .ok ∨ reply.status = .configEstablished ∨ reply.status = .missing ∨
    reply.status = .epochChanged) (fail "Unknown continuity status")
  let epoch ← validateEpoch reply.epoch "Redis continuity epoch"
  require (0 < reply.ttlMs ∨ reply.status = .ok ∧ reply.ttlMs = -2)
    (fail "response had an invalid quarantine TTL")
  pure epoch

/-- The reason with which a reply of `RECONCILE_SCRIPT` is applied to the gate. -/
def reconcileReason : ScriptStatus → QuarantineReason
  | .epochChanged => .continuityEpochChanged
  | .configEstablished => .continuityConfigMismatch
  | _ => .continuityMarkerLost

/-- `RECONCILE_SCRIPT` with the verifier's configuration. -/
def evalReconcile (newEpoch expectedEpoch : JsString) : GovernedProg ν ScriptReply :=
  attempt (perform (.reconcile
    { newEpoch, quarantineMs := cfg.quarantineMs, expectedEpoch, config := cfg.continuityConfig }))

/-- The epoch of a reply is the expected one where it must be, and another where it has changed. -/
def checkReconcileEpoch (fail : String → NonceError) (status : ScriptStatus)
    (epoch expectedEpoch : JsString) : Except NonceError Unit := do
  require ((status = .ok ∨ status = .configEstablished) → epoch = expectedEpoch)
    (fail "response violated the expected epoch")
  require (status = .epochChanged → epoch ≠ expectedEpoch)
    (fail "EPOCH_CHANGED response retained the expected epoch")

/-- `reconcile()`, without its `catch`. -/
def reconcileBody : GovernedProg ν Unit := do
  attempt (perform .assertNoEvictionPolicy)
  let expectedEpoch ← attempt (perform (.gateContinuityEpoch v))
  let newEpoch ← makeEpoch
  let reply ← evalReconcile cfg newEpoch expectedEpoch
  let epoch ← Prog.lift (checkReconcileReply .error reply)
  Prog.lift (checkReconcileEpoch .error reply.status epoch expectedEpoch)
  attempt (perform (.gateApply v epoch reply.ttlMs (reconcileReason reply.status)))

/-- `reconcile()`. -/
def reconcile : GovernedProg ν Unit :=
  (reconcileBody cfg v).tryCatch fun e => Prog.await (.gateFailClosed v) fun _ => Prog.fail e

/-- The check of `createGovernedRedisBackedNonceStore` on the bootstrap epoch: without an expected
    epoch none can have been violated or changed. -/
def checkBootstrapEpoch (status : ScriptStatus) (epoch expectedEpoch : JsString) :
    Except NonceError Unit :=
  if expectedEpoch = [] then
    require (status ≠ .epochChanged)
      (.nonceStoreUnavailable "EPOCH_CHANGED response violated bootstrap invariants")
  else checkReconcileEpoch .nonceStoreUnavailable status epoch expectedEpoch

/-- `createGovernedRedisBackedNonceStore(redis, options)` once its options are derived. -/
def createGovernedRedisBackedNonceStore : GovernedProg ν Unit := do
  let initialEpoch ← makeEpoch
  perform (.gateNew v)
  attempt (perform .assertNoEvictionPolicy)
  let reply ← evalReconcile cfg initialEpoch cfg.expectedEpoch
  let epoch ← Prog.lift (checkReconcileReply .nonceStoreUnavailable reply)
  Prog.lift (checkBootstrapEpoch reply.status epoch cfg.expectedEpoch)
  attempt (perform (.gateApply v epoch reply.ttlMs (reconcileReason reply.status)))

end Nonce
