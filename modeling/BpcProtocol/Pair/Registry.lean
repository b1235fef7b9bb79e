import BpcProtocol.Lib.EarlyReturn
import BpcProtocol.Nonce.Governed
import BpcProtocol.Pair.MemoryStore

set_option autoImplicit false

/-! # The pair registry

`PairRegistry` over a memory store: what it checks, the mutations it hands to `atomicMutate`, and
its methods as programs that await one operation after another. -/

namespace Pair

open Fallible Async

/-! ## Registration -/

/-- `ALLOWED_SCOPES`. -/
def allowedScopes : List JsString :=
  [Js.lit "read", Js.lit "read-write", Js.lit "admin"]

/-- `ALLOWED_MODES`. -/
def allowedModes : List JsString :=
  [Js.lit "development", Js.lit "production"]

/-- `typeof v === 'object'` for a value that is not `null`. -/
def isObject : JsValue → Bool
  | .array _ => true
  | .object _ => true
  | _ => false

/-- `validateRegistration(registration)`. -/
def validateRegistration (registration : PairRegistration) : Except ServerError Unit := do
  ensure (43 ≤ registration.secretHash.length)
    ("Registration rejected: secretHash must be at least 43 characters. " ++
      "Use hashSecret() to derive a proper HKDF key from your secret.")
  ensure (registration.name ≠ []) "Registration rejected: name is required"
  ensure (registration.name.length ≤ 128)
    "Registration rejected: name must be at most 128 characters"
  ensure (registration.scope ∈ allowedScopes)
    "Registration rejected: scope must be one of: read, read-write, admin"
  ensure (registration.mode ∈ allowedModes)
    "Registration rejected: mode must be one of: development, production"
  ensure (isObject registration.pubJwk.1 = true) "Registration rejected: pubJwk is required"

/-- The pair that `approvePairing` makes of a registration. -/
def newPair (pairId : JsString) (registration : PairRegistration) (created : JsNumber) :
    StoredPair where
  id := pairId
  name := registration.name
  scope := registration.scope
  mode := registration.mode
  secretHash := registration.secretHash
  pubJwk := registration.pubJwk
  status := .active
  created := created
  lastActive := none
  requests := .fin 0
  failedSigs := .fin 0
  cumulativeFailures := none
  firstFailureAt := none
  expiresAt := registration.expiresAt
  maxRequests := registration.maxRequests
  kind := some (kindOf registration.kind)
  canaryClass := registration.canaryClass

/-! ## Mutations -/

/-- `IP_FAILURE_WINDOW_MS`. -/
def ipFailureWindowMs : JsNumber := .fin 300000

/-- The callbacks that the registry hands to `atomicMutate`. -/
inductive PairMutation where
  | revoke
  | unlock
  | recordFailure (ipFailures : Option JsNumber) (lockoutCount now : JsNumber)
  | update (updates : PairUpdates)

/-- The whole windows since the first failure of the cycle. -/
def windowsElapsed (firstFailure now : JsNumber) : JsNumber :=
  ((now.sub firstFailure).div ipFailureWindowMs).floor

/-- `_applyCumulativeDecay(pair, now)`. -/
def applyCumulativeDecay (p : StoredPair) (now : JsNumber) : StoredPair :=
  let firstFailure := (p.firstFailureAt.getD none).getD now
  let elapsed := windowsElapsed firstFailure now
  let decays := (JsNumber.fin 0).lt elapsed
  let cumulative := p.cumulativeFailures.getD (.fin 0)
  let decayed := if decays then cumulative.div elapsed.twoPow else cumulative
  { p with
    cumulativeFailures := some (decayed.add (.fin 1))
    firstFailureAt := some (some (if decays then now else firstFailure)) }

/-- A pair whose failures, of this window or over all, have reached the limit is locked. -/
def lockAtThreshold (p : StoredPair) (lockoutCount : JsNumber) : StoredPair :=
  if p.status = .active ∧
      (p.failedSigs.ge lockoutCount = true ∨
        (p.cumulativeFailures.getD (.fin 0)).ge (lockoutCount.mulNat 2) = true) then
    p.withStatus .locked
  else p

/-- The `apply` of `recordActivity`: the failures of the source address, or one failure more. -/
def recordFailure (p : StoredPair) (ipFailures : Option JsNumber) (lockoutCount now : JsNumber) :
    StoredPair :=
  lockAtThreshold
    (applyCumulativeDecay { p with failedSigs := ipFailures.getD p.failedSigs.incr } now)
    lockoutCount

/-- The `apply` of `updatePair`. -/
def applyUpdates (p : StoredPair) (updates : PairUpdates) : Except ServerError StoredPair := do
  ensure (∀ scope ∈ updates.scope, scope ∈ allowedScopes)
    ("Invalid scope: " ++ Js.message (updates.scope.getD []) ++
      ". Must be one of: read, read-write, admin")
  pure
    { p with
      scope := updates.scope.getD p.scope
      expiresAt := updates.expiresAt.getD p.expiresAt
      maxRequests := updates.maxRequests.getD p.maxRequests
      name := updates.name.getD p.name }

/-- The callback of `unlock`. -/
def unlocked (p : StoredPair) : StoredPair :=
  if p.status = .locked then { p with status := .active, failedSigs := .fin 0 } else p

def PairMutation.apply (m : PairMutation) (p : StoredPair) :
    Except ServerError (Option StoredPair) :=
  match m with
  | revoke => .ok (some (p.withStatus .revoked))
  | unlock => .ok (some (unlocked p))
  | recordFailure ipFailures lockoutCount now =>
      .ok (some (Pair.recordFailure p ipFailures lockoutCount now))
  | update updates => some <$> applyUpdates p updates

/-! ## Failures of source addresses -/

/-- An entry of `ipFailureTracker`. -/
structure IpFailures where
  count : JsNumber
  windowStart : JsNumber

abbrev IpFailureTracker := OrderedMap JsString IpFailures

/-- `now - entry.windowStart > this.IP_FAILURE_WINDOW_MS`. -/
def IpFailures.stale (entry : IpFailures) (now : JsNumber) : Bool :=
  ipFailureWindowMs.lt (now.sub entry.windowStart)

/-- `evictStaleIpEntries()`. -/
def evictStaleIpEntries (tracker : IpFailureTracker) (now : JsNumber) : IpFailureTracker :=
  tracker.filter fun _ entry => !entry.stale now

/-- One failure more of a source address, or the first of a new window. -/
def nextIpFailures (entry : Option IpFailures) (now : JsNumber) : IpFailures :=
  match entry with
  | none => ⟨.fin 1, now⟩
  | some entry => if entry.stale now then ⟨.fin 1, now⟩ else ⟨entry.count.incr, entry.windowStart⟩

/-- `this.ipFailureTracker.get(ipKey).count` once the failure is counted. -/
def trackIpFailure (tracker : IpFailureTracker) (ipKey : JsString) (now : JsNumber) :
    JsNumber × IpFailureTracker :=
  let entry := nextIpFailures (tracker.get ipKey) now
  (entry.count, tracker.set ipKey entry)

/-- What a successful use clears: the entries whose key starts with `pairId:`. -/
def clearIpFailures (tracker : IpFailureTracker) (pairId : JsString) : IpFailureTracker :=
  tracker.filter fun key _ => !(pairId ++ Js.lit ":").isPrefixOf key

/-! ## Operations -/

/-- The operations of the store that the registry, the rotation handler and the verifier use. -/
inductive StoreOp where
  | get (pairId : JsString)
  | list
  | getPending (token : JsString)
  | setPending (token : JsString) (pending : PendingPairing)
  | atomicMutate (pairId : JsString) (m : PairMutation)
  | approvePending (token : JsString) (expected : PendingPairing) (pair : StoredPair)
      (maxActivePairs : JsNumber)
  | rotatePair (expectedOld replacement : StoredPair)
  | claimSuccessfulUse (pairId : JsString) (at_ : JsNumber) (expected : SuccessfulUsePolicy)
  | expireIfElapsed (pairId : JsString) (now : JsNumber)
  | expireIfUsageExhausted (pairId : JsString)
  | lockIfFailureThreshold (pairId : JsString) (minimumFailures : JsNumber)

abbrev StoreOp.Answer : StoreOp → Type
  | get _ => Option StoredPair
  | list => List StoredPair
  | getPending _ => Option PendingPairing
  | setPending _ _ => Unit
  | atomicMutate _ _ => Except ServerError (Option StoredPair)
  | approvePending _ _ _ _ => Except ServerError Bool
  | rotatePair _ _ => Bool
  | claimSuccessfulUse _ _ _ => Except ServerError SuccessfulUseClaim
  | expireIfElapsed _ _ => Except ServerError Bool
  | expireIfUsageExhausted _ => Bool
  | lockIfFailureThreshold _ _ => Except ServerError Bool

/-- The answer and the state of an operation that may have thrown. -/
def settle {α : Type} (x : Except ServerError (α × MemoryPairStore)) (s : MemoryPairStore) :
    Except ServerError α × MemoryPairStore :=
  match x with
  | .ok (a, s') => (.ok a, s')
  | .error e => (.error e, s)

/-- One operation of the store. -/
def MemoryPairStore.run (s : MemoryPairStore) : (o : StoreOp) → o.Answer × MemoryPairStore
  | .get pairId => (s.pairs.get pairId, s)
  | .list => (s.pairs.values, s)
  | .getPending token => (s.pending.get token, s)
  | .setPending token pending => ((), s.setPending token pending)
  | .atomicMutate pairId m => settle (s.atomicMutate pairId m.apply) s
  | .approvePending token expected pair maxActivePairs =>
      settle (s.approvePending token expected pair maxActivePairs) s
  | .rotatePair expectedOld replacement => s.rotatePair expectedOld replacement
  | .claimSuccessfulUse pairId at_ expected => settle (s.claimSuccessfulUse pairId at_ expected) s
  | .expireIfElapsed pairId now => settle (s.expireIfElapsed pairId now) s
  | .expireIfUsageExhausted pairId => s.expireIfUsageExhausted pairId
  | .lockIfFailureThreshold pairId minimumFailures =>
      settle (s.lockIfFailureThreshold pairId minimumFailures) s

/-- `AuditAction`, as far as it is written here. -/
inductive AuditAction where
  | verifyPass
  | verifyFail
  | register
  | rotate
  | shadowModeHit
  | shadowModeEnter
  | ghostPairTriggered
  deriving DecidableEq, Repr

/-- `AuditInput`. -/
structure AuditInput where
  action : AuditAction
  severity : Option String := none
  pairId : Option JsString := none
  error : Option String := none
  ip : Option JsString := none
  method : Option JsString := none
  path : Option JsString := none
  detail : Option JsString := none

/-- `AnomalyVerdict`. -/
inductive AnomalyVerdict where
  | clean
  | suspicious
  | shadow
  | attack
  deriving DecidableEq, Repr

/-- What the anomaly engine is told. -/
inductive AnomalyEvent where
  | request (pairId : Option JsString)
  | denied (pairId : Option JsString)
  | sigFailure (pairId : Option JsString)
  | sigFailureForIp (pairId sourceIp : JsString)
  | unknownPair
  | replay (pairId : JsString)
  | expiredTimestamp (pairId : JsString)
  | enterShadowState (pairId sourceIp reason : JsString)

/-- The components that the caller passes in, and the random source. -/
inductive ExternalOp where
  | audit (entry : AuditInput)
  | rateLimit (key : JsString)
  | recordAnomaly (event : AnomalyEvent)
  | isInShadowState (pairId sourceIp : JsString)
  | getVerdict (pairId sourceIp : JsString)
  | delay (ms : JsNumber)
  | assertAcceptable
  | generateId (kind : String)

abbrev ExternalOp.Answer : ExternalOp → Type
  | audit _ => Except ServerError Unit
  | rateLimit _ => Except ServerError Bool
  | recordAnomaly _ => Except ServerError Unit
  | isInShadowState _ _ => Bool
  | getVerdict _ _ => Except ServerError AnomalyVerdict
  | delay _ => Unit
  | assertAcceptable => Except ServerError Unit
  | generateId _ => JsString

/-- What a program does between two awaits, or awaits. -/
inductive ServerOp where
  | store (o : StoreOp)
  | dateNow
  | evictStaleIpEntries (now : JsNumber)
  | trackIpFailure (ipKey : JsString) (now : JsNumber)
  | clearIpFailures (pairId : JsString)
  | checkAndConsume (nonce : JsString) (ttlMs : JsNumber)
  | verifySecretHmac (storedHmacKey nonce : JsString) (timestamp : JsNumber) (secretHmac : JsValue)
  | verifyPayload (pubJwk : JsonWebKey) (payload : JsValue) (signature : JsString)
  | external (o : ExternalOp)

abbrev ServerOp.Answer : ServerOp → Type
  | store o => o.Answer
  | dateNow => JsNumber
  | evictStaleIpEntries _ => Unit
  | trackIpFailure _ _ => JsNumber
  | clearIpFailures _ => Unit
  | checkAndConsume _ _ => Except Nonce.NonceError Bool
  | verifySecretHmac _ _ _ _ => Bool
  | verifyPayload _ _ _ => Except ServerError Bool
  | external o => o.Answer

abbrev ServerProg (α : Type) := Prog ServerOp ServerOp.Answer ServerError α

/-- One operation. -/
def perform (o : ServerOp) : ServerProg o.Answer :=
  Prog.perform o

/-- An operation that may throw. -/
def attempt {α : Type} (p : ServerProg (Except ServerError α)) : ServerProg α :=
  p >>= Prog.lift

/-- `if (c) await p`. -/
def runIf (c : Prop) [Decidable c] (p : ServerProg Unit) : ServerProg Unit :=
  if c then p else pure ()

/-- One operation of the store. -/
def onStore (o : StoreOp) : ServerProg o.Answer :=
  perform (.store o)

/-- `Date.now()`. -/
def dateNow : ServerProg JsNumber :=
  perform .dateNow

/-- `generateId(prefix)`. -/
def generateId (kind : String) : ServerProg JsString :=
  perform (.external (.generateId kind))

/-! ## Methods -/

/-- The limits a registry is constructed with. -/
structure RegistryConfig where
  maxPairs : JsNumber
  lockoutCount : JsNumber

variable (cfg : RegistryConfig)

/-- `requestPairing(registration)`. -/
def requestPairing (registration : PairRegistration) : ServerProg JsString := do
  Prog.lift (validateRegistration registration)
  let pairs : List StoredPair ← onStore .list
  let active := (pairs.filter fun p => decide (p.status = .active)).length
  Prog.lift (ensure (JsNumber.ge (.fin (active : ℚ)) cfg.maxPairs = false)
    ("Maximum pair capacity (" ++ Js.message (Js.numberText cfg.maxPairs) ++ ") reached"))
  let token ← generateId "approval"
  let requestedAt ← dateNow
  onStore (.setPending token ⟨registration, requestedAt⟩)
  pure token

/-- `approvePairing(token)` with the pending registration it has found. -/
def approvePending (token : JsString) (pending : PendingPairing) : ServerProg JsString := do
  let pairId ← generateId "pair"
  let created ← dateNow
  let approved ← attempt (onStore
    (.approvePending token pending (newPair pairId pending.registration created) cfg.maxPairs))
  Prog.lift (ensure (approved = true)
    ("Pending approval changed or was already consumed: " ++ Js.message token))
  pure pairId

/-- `approvePairing(token)`. -/
def approvePairing (token : JsString) : ServerProg JsString := do
  let pending : Option PendingPairing ← onStore (.getPending token)
  pending.elim (Prog.fail (.error ("No pending approval for token: " ++ Js.message token)))
    (approvePending cfg token)

/-- `registerDirect(registration)`. -/
def registerDirect (registration : PairRegistration) : ServerProg JsString := do
  let token ← requestPairing cfg registration
  approvePairing cfg token

/-- `revoke(pairId)`. -/
def revoke (pairId : JsString) : ServerProg Unit := do
  let _ ← attempt (onStore (.atomicMutate pairId .revoke))
  pure ()

/-- `claimSuccessfulUseOutcome(pairId, at, expected)`. -/
def claimSuccessfulUseOutcome (pairId : JsString) (at_ : JsNumber)
    (expected : SuccessfulUsePolicy) : ServerProg SuccessfulUseClaim := do
  let outcome ← attempt (onStore (.claimSuccessfulUse pairId at_ expected))
  runIf (outcome = .claimed) (perform (.clearIpFailures pairId))
  pure outcome

/-- `claimSuccessfulUse(pairId)` on the pair it has found. -/
def claimFresh (pairId : JsString) (pair : StoredPair) : ServerProg Bool := do
  let at_ ← dateNow
  let policy ← Prog.lift (successfulUsePolicy pair)
  let outcome ← claimSuccessfulUseOutcome pairId at_ policy
  pure (decide (outcome = .claimed))

/-- `claimSuccessfulUse(pairId)`. -/
def claimSuccessfulUse (pairId : JsString) : ServerProg Bool := do
  let pair : Option StoredPair ← onStore (.get pairId)
  pair.elim (pure false) (claimFresh pairId)

/-- The failures of the source address within its window, where an address is given. -/
def countIpFailure (pairId : JsString) (now : JsNumber) (ip : JsString) :
    ServerProg (Option JsNumber) :=
  if ip = [] then pure none
  else do
    let count : JsNumber ← perform (.trackIpFailure (pairId ++ Js.lit ":" ++ ip) now)
    pure (some count)

/-- `recordActivity(pairId, false, ip)` behind the eviction. -/
def recordFailedActivity (pairId ip : JsString) : ServerProg Unit := do
  let now ← dateNow
  let ipFailures ← countIpFailure pairId now ip
  let _ ← attempt (onStore
    (.atomicMutate pairId (.recordFailure ipFailures cfg.lockoutCount now)))
  pure ()

/-- `recordActivity(pairId, success, ip)`; without an address `ip` is empty. -/
def recordActivity (pairId : JsString) (success : Bool) (ip : JsString) : ServerProg Unit := do
  let now ← dateNow
  perform (.evictStaleIpEntries now)
  if success then do
    let _ ← claimSuccessfulUse pairId
    pure ()
  else recordFailedActivity cfg pairId ip

/-- `markExpired(pairId, now)`. -/
def markExpired (pairId : JsString) (now : JsNumber) : ServerProg Bool :=
  attempt (onStore (.expireIfElapsed pairId now))

/-- `markUsageExpired(pairId)`. -/
def markUsageExpired (pairId : JsString) : ServerProg Bool :=
  onStore (.expireIfUsageExhausted pairId)

/-- `ensureLocked(pairId, minimumFailures)`. -/
def ensureLocked (pairId : JsString) (minimumFailures : JsNumber) : ServerProg Bool :=
  attempt (onStore (.lockIfFailureThreshold pairId minimumFailures))

/-- `unlock(pairId)`. -/
def unlock (pairId : JsString) : ServerProg Unit := do
  let _ ← attempt (onStore (.atomicMutate pairId .unlock))
  pure ()

/-- `updatePair(pairId, updates)`. -/
def updatePair (pairId : JsString) (updates : PairUpdates) : ServerProg (Option StoredPair) :=
  attempt (onStore (.atomicMutate pairId (.update updates)))

end Pair
