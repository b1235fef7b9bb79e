import BpcProtocol.Js.Coerce
import BpcProtocol.Pair.Rotation

set_option autoImplicit false

/-! # Request verification

`verifyBPCRequest`, the pipeline from the headers of a request to its authorization: each stage goes
on or denies, and the first denial is the result. -/

namespace Pair

open Fallible Async

/-! ## Requests and results -/

/-- `BPCRequestData`. -/
structure BPCRequestData where
  pairId : Option JsString
  signedData : Option JsString
  signature : Option JsString
  method : JsString
  path : JsString
  version : Option JsString
  bodyHash : Option JsString
  ip : Option JsString

/-- `AuthSnapshot`. -/
structure AuthSnapshot where
  pairId : JsString
  scope : JsString
  mode : JsString
  kind : PairKind
  canaryClass : Option CanaryClass
  verifiedAt : JsNumber

/-- `BPCVerifyResult`. -/
structure BPCVerifyResult where
  ok : Bool
  pairId : Option JsString := none
  snapshot : Option AuthSnapshot := none
  error : Option String := none
  shadow : Bool := false
  tarpitDelayMs : Option JsNumber := none

/-- `BPCServerConfig`, of the components only whether they are there, and the retention of the
    nonce store. -/
structure VerifierConfig where
  sigWindowMs : JsNumber
  lockoutCount : Option JsNumber
  ipRateLimiter : Bool
  rateLimiter : Bool
  auditLog : Bool
  enableShadowMode : Option Bool
  enableTarpit : Option Bool
  continuityGuard : Bool
  nonceWindowMs : JsNumber

/-- `AuthorizationContext`. -/
structure AuthorizationContext where
  pairId : JsString
  scope : JsString
  mode : JsString
  kind : PairKind
  canaryClass : Option CanaryClass
  status : PairStatus
  failedSigs : JsNumber
  expiresAt : Option JsNumber
  maxRequests : Option JsNumber
  requests : JsNumber
  secretHash : JsString
  pubJwk : JsonWebKey

/-- `captureAuthorizationContext(pair)`. -/
def captureAuthorizationContext (pair : StoredPair) : Except ServerError AuthorizationContext := do
  let jwk ← canonicalAuthorizationJwk pair.pubJwk
  pure
    { pairId := pair.id
      scope := pair.scope
      mode := pair.mode
      kind := kindOf pair.kind
      canaryClass := pair.canaryClass
      status := pair.status
      failedSigs := pair.failedSigs
      expiresAt := pair.expiresAt
      maxRequests := pair.maxRequests
      requests := pair.requests
      secretHash := pair.secretHash
      pubJwk := jwk.toJwk }

/-- The policy that a use is claimed against. -/
def AuthorizationContext.usePolicy (auth : AuthorizationContext) : SuccessfulUsePolicy where
  status := auth.status
  scope := auth.scope
  mode := auth.mode
  secretHash := auth.secretHash
  pubJwk := auth.pubJwk
  expiresAt := auth.expiresAt
  maxRequests := auth.maxRequests
  kind := auth.kind
  canaryClass := auth.canaryClass

/-! ## Checks -/

/-- `BPC_PROTOCOL_VERSION`. -/
def bpcProtocolVersion : JsString := Js.lit "1.0"

/-- `ALLOWED_METHODS`. -/
def allowedMethods : List JsString :=
  ["GET", "HEAD", "OPTIONS", "POST", "PUT", "PATCH", "DELETE"].map Js.lit

/-- `SCOPE_ALLOWED_METHODS[scope]`. -/
def scopeAllowedMethods (scope : JsString) : Option (List JsString) :=
  if scope = Js.lit "read" then some (["GET", "HEAD", "OPTIONS"].map Js.lit)
  else if scope = Js.lit "read-write" then
    some (["GET", "HEAD", "OPTIONS", "POST", "PUT", "PATCH"].map Js.lit)
  else if scope = Js.lit "admin" then
    some (["GET", "HEAD", "OPTIONS", "POST", "PUT", "PATCH", "DELETE"].map Js.lit)
  else none

/-- The pattern of the `i`-th character of a UUID of version 4, in either case. -/
def uuidUnit (i : ℕ) (c : UInt16) : Bool :=
  if i = 8 ∨ i = 13 ∨ i = 18 ∨ i = 23 then c = 45
  else if i = 14 then c = 52
  else if i = 19 then Js.oneOf "89abAB" c
  else Js.isLowerHex c || (65 ≤ c && c ≤ 70)

/-- `UUID_RE`. -/
def uuidRe (s : JsString) : Bool :=
  decide (s.length = 36) && s.zipIdx.all fun u => uuidUnit u.2 u.1

/-- `/^[A-Za-z0-9_-]+$/`. -/
def pairIdRe (s : JsString) : Bool :=
  !s.isEmpty && s.all fun c => Js.isAlnum c || Js.oneOf "_-" c

/-- `FORBIDDEN_KEYS`. -/
def forbiddenKeys : List JsString :=
  ["__proto__", "constructor", "prototype", "__defineGetter__", "__defineSetter__",
    "__lookupGetter__", "__lookupSetter__"].map Js.lit

/-- `s.includes(t)`. -/
def includes (s t : JsString) : Bool :=
  s.tails.any fun u => t.isPrefixOf u

/-- `assertNoForbiddenKeys(rawJson)`. -/
def assertNoForbiddenKeys (rawJson : JsString) : Option Unit :=
  if forbiddenKeys.any fun key => includes rawJson (34 :: key ++ [34]) then none else some ()

/-- The payload inside `signedData`. -/
def decodePayload (signedData : JsString) : Option JsValue := do
  let json ← Js.atob (Js.base64UrlPadded signedData)
  assertNoForbiddenKeys json
  Js.parseJson json

/-- A value in a condition. -/
def truthy : JsValue → Bool
  | .undefined => false
  | .null => false
  | .bool b => b
  | .number n => n.truthy
  | .string s => !s.isEmpty
  | _ => true

/-- A finite number. -/
def finiteNumber : JsValue → Option JsNumber
  | .number n => if n.isFinite then some n else none
  | _ => none

/-- `s.toUpperCase()` of ASCII text; no other method gets so far. -/
def toUpperCase (s : JsString) : JsString :=
  s.map fun c => if 97 ≤ c && c ≤ 122 then c - 32 else c

/-- `TARPIT_DELAY_MS`. -/
def tarpitDelayMs : AnomalyVerdict → JsNumber
  | .clean => .fin 0
  | .suspicious => .fin 500
  | .shadow => .fin 2000
  | .attack => .fin 0

/-! ## Denials -/

/-- A piece of `verifyBPCRequest`. -/
abbrev VerifyStage (α : Type) := Stage ServerOp ServerOp.Answer ServerError BPCVerifyResult α

variable (registry : RegistryConfig) (cfg : VerifierConfig) (req : BPCRequestData)

/-- A header that is there: neither `null` nor empty. -/
def nonEmpty (s : Option JsString) : Option JsString :=
  s.filter fun s => !s.isEmpty

/-- `req.ip ?? 'unknown'`. -/
def BPCRequestData.sourceIp : JsString :=
  req.ip.getD (Js.lit "unknown")

/-- `config.enableShadowMode !== false`. -/
def VerifierConfig.shadowEnabled : Bool :=
  cfg.enableShadowMode.getD true

/-- `config.enableTarpit !== false`. -/
def VerifierConfig.tarpitEnabled : Bool :=
  cfg.enableTarpit.getD true

/-- One record of the anomaly engine. -/
def recordAnomaly (event : AnomalyEvent) : ServerProg Unit :=
  attempt (perform (.external (.recordAnomaly event)))

/-- What a failed signature is recorded as. -/
def recordSigFailures : ServerProg Unit := do
  recordAnomaly (.sigFailure req.pairId)
  (nonEmpty req.pairId).elim (pure ()) fun pairId =>
    recordAnomaly (.sigFailureForIp pairId req.sourceIp)

/-- The failure that a denial counts against the pair. -/
def recordPairFailure : ServerProg Unit :=
  (nonEmpty req.pairId).elim (pure ()) fun pairId =>
    recordActivity registry pairId false req.sourceIp

/-- `deny(error, doSigFail)`. -/
def deny (error : String) (doSigFail : Bool) : ServerProg BPCVerifyResult := do
  recordAnomaly (.denied req.pairId)
  runIf (doSigFail = true) (recordSigFailures req)
  writeAudit cfg.auditLog
    { action := .verifyFail, pairId := req.pairId, error := some error, ip := req.ip
      method := some req.method, path := some req.path }
  runIf (doSigFail = true) (recordPairFailure registry req)
  pure { ok := false, error := some error }

/-- `if (c) return deny(error, doSigFail)`. -/
def denyIf (c : Prop) [Decidable c] (error : String) (doSigFail : Bool) : VerifyStage Unit :=
  Stage.exitIf c (deny registry cfg req error doSigFail)

/-- A value without which the request is denied. -/
def required {α : Type} (v : Option α) (error : String) (doSigFail : Bool) : VerifyStage α :=
  v.elim (Stage.exit (deny registry cfg req error doSigFail)) pure

/-- A stage that only some requests pass through. -/
def onlyIf (c : Prop) [Decidable c] (s : VerifyStage Unit) : VerifyStage Unit :=
  if c then s else pure ()

/-- `applyTarpit(sourceIp, verdict)`. -/
def applyTarpit (verdict : AnomalyVerdict) : ServerProg JsNumber := do
  runIf ((JsNumber.fin 0).lt (tarpitDelayMs verdict) = true)
    (perform (.external (.delay (tarpitDelayMs verdict))))
  pure (tarpitDelayMs verdict)

/-- `tarpitEnabled ? await anomaly.applyTarpit(sourceIp, 'shadow') : 0`. -/
def shadowDelay : ServerProg JsNumber :=
  if cfg.tarpitEnabled then applyTarpit .shadow else pure (.fin 0)

/-- A denial with shadow metadata. -/
def shadowDenied (pairId : JsString) (error : String) (delayMs : JsNumber) : BPCVerifyResult :=
  { ok := false, pairId := some pairId, error := some error, shadow := true
    tarpitDelayMs := some delayMs }

/-! ## Stages -/

/-- `rateLimiter.check(key)`. -/
def checkRate (key : JsString) : VerifyStage Unit := do
  let allowed ← Stage.await (attempt (perform (.external (.rateLimit key))))
  denyIf registry cfg req (allowed = false) "rate_limit_exceeded" false

/-- The source address is in shadow state for the pair. -/
def denyInShadow (pairId : JsString) : ServerProg BPCVerifyResult := do
  let delayMs ← shadowDelay cfg
  writeAudit cfg.auditLog
    { action := .shadowModeHit, pairId := some pairId, ip := req.ip, method := some req.method
      path := some req.path, severity := some "CRITICAL"
      detail := some (Js.lit "Shadow mode active for IP " ++ req.sourceIp ++ Js.lit " on pair " ++
        pairId) }
  pure (shadowDenied pairId "shadow_denied" delayMs)

/-- The shadow state check. -/
def checkShadowState (pairId : JsString) : VerifyStage Unit := do
  let inShadow : Bool ← Stage.await (perform (.external (.isInShadowState pairId req.sourceIp)))
  Stage.exitIf (inShadow = true) (denyInShadow cfg req pairId)

/-- Everything before the headers are read. -/
def beforeHeaders : VerifyStage Unit := do
  onlyIf (cfg.ipRateLimiter = true ∧ (nonEmpty req.ip).isSome = true)
    (checkRate registry cfg req (Js.lit "ip:" ++ req.ip.getD []))
  onlyIf (cfg.shadowEnabled = true ∧ (nonEmpty req.pairId).isSome = true)
    (checkShadowState cfg req (req.pairId.getD []))
  onlyIf (cfg.rateLimiter = true ∧ (nonEmpty req.pairId).isSome = true)
    (checkRate registry cfg req (Js.lit "pair:" ++ req.pairId.getD []))
  denyIf registry cfg req (req.method ∉ allowedMethods) "invalid_method" false

/-- The headers of a request that has them all. -/
structure Headers where
  pairId : JsString
  signedData : JsString
  signature : JsString

/-- The headers are there, of bounded size, and of this protocol version. -/
def readHeaders : VerifyStage Headers := do
  let pairId ← required registry cfg req (nonEmpty req.pairId) "missing_headers" false
  let signedData ← required registry cfg req (nonEmpty req.signedData) "missing_headers" false
  let signature ← required registry cfg req (nonEmpty req.signature) "missing_headers" false
  denyIf registry cfg req
    (64 < pairId.length ∨ 4096 < signedData.length ∨ 256 < signature.length)
    "invalid_signed_data" false
  denyIf registry cfg req (pairIdRe pairId = false) "invalid_signed_data" false
  denyIf registry cfg req (req.version.getD (Js.lit "1.0") ≠ bpcProtocolVersion)
    "version_mismatch" false
  pure ⟨pairId, signedData, signature⟩

/-- A request for a pair there is not. -/
def denyUnknown : ServerProg BPCVerifyResult := do
  recordAnomaly .unknownPair
  deny registry cfg req "unknown_pair" false

/-- The pair, or the denial of a request without one. -/
def foundPair (pair : Option StoredPair) : VerifyStage StoredPair :=
  pair.elim (Stage.exit (denyUnknown registry cfg req)) pure

/-- The pair as the rest of the pipeline sees it. -/
def capturePair (pairId : JsString) : VerifyStage AuthorizationContext := do
  let found : Option StoredPair ← Stage.await (onStore (.get pairId))
  let pair ← foundPair registry cfg req found
  Stage.await (Prog.lift (captureAuthorizationContext pair))

/-- A request for a locked pair. -/
def denyLocked (pairId : JsString) : ServerProg BPCVerifyResult :=
  if cfg.shadowEnabled then do
    recordAnomaly (.enterShadowState pairId req.sourceIp (Js.lit "pair_locked"))
    let delayMs ← shadowDelay cfg
    writeAudit cfg.auditLog
      { action := .shadowModeEnter, pairId := some pairId, ip := req.ip
        method := some req.method, path := some req.path, severity := some "HIGH"
        detail := some (Js.lit "Locked pair " ++ pairId ++ Js.lit " — attacker IP " ++
          req.sourceIp ++ Js.lit " routed to shadow mode") }
    pure (shadowDenied pairId "pair_locked" delayMs)
  else deny registry cfg req "pair_locked" false

/-- The failures of the pair have reached the limit: it is locked before the denial. -/
def denyAtThreshold (pairId : JsString) (lockoutCount : JsNumber) : ServerProg BPCVerifyResult := do
  let locked ← ensureLocked pairId lockoutCount
  if locked = false then deny registry cfg req "pair_state_changed_retry" false
  else if cfg.shadowEnabled then do
    recordAnomaly (.enterShadowState pairId req.sourceIp (Js.lit "failedSigs_threshold"))
    let delayMs ← shadowDelay cfg
    pure (shadowDenied pairId "pair_locked" delayMs)
  else deny registry cfg req "pair_locked" false

/-- The pair has expired: that is stored before the denial. -/
def denyExpired (pairId : JsString) : ServerProg BPCVerifyResult := do
  let now ← dateNow
  let marked ← markExpired pairId now
  if marked = false then deny registry cfg req "pair_state_changed_retry" false
  else deny registry cfg req "pair_expired" false

/-- `auth.expiresAt && Date.now() > auth.expiresAt`. -/
def checkExpiry (pairId : JsString) (expiresAt : JsNumber) : VerifyStage Unit := do
  let now ← Stage.await dateNow
  Stage.exitIf (expiresAt.lt now = true) (denyExpired registry cfg req pairId)

/-- The pair has used up its requests: that is stored before the denial. -/
def denyUsedUp (pairId : JsString) : ServerProg BPCVerifyResult := do
  let marked ← markUsageExpired pairId
  if marked = false then deny registry cfg req "pair_state_changed_retry" false
  else deny registry cfg req "pair_usage_cap_exceeded" false

/-- `auth.maxRequests && auth.maxRequests > 0 && auth.requests >= auth.maxRequests`. -/
def AuthorizationContext.usedUp (auth : AuthorizationContext) : Bool :=
  auth.maxRequests.any fun m => m.truthy && (JsNumber.fin 0).lt m && auth.requests.ge m

/-- The status and the limits of the pair. -/
def checkStatus (pairId : JsString) (auth : AuthorizationContext) : VerifyStage Unit := do
  denyIf registry cfg req (auth.status = .revoked) "pair_revoked" false
  Stage.exitIf (auth.status = .locked) (denyLocked registry cfg req pairId)
  denyIf registry cfg req (auth.status = .rotated) "pair_rotated" false
  denyIf registry cfg req (auth.status = .expired) "pair_expired" false
  Stage.exitIf (auth.failedSigs.ge (cfg.lockoutCount.getD (.fin 10)) = true)
    (denyAtThreshold registry cfg req pairId (cfg.lockoutCount.getD (.fin 10)))
  onlyIf (auth.expiresAt.any JsNumber.truthy = true)
    (checkExpiry registry cfg req pairId (auth.expiresAt.getD .nan))
  Stage.exitIf (auth.usedUp = true) (denyUsedUp registry cfg req pairId)
  denyIf registry cfg req (auth.status ≠ .active) "pair_revoked" false

/-- What a request from a suspicious address waits, or its denial. -/
def tarpitVerdict (pairId : JsString) (verdict : AnomalyVerdict) : VerifyStage JsNumber :=
  match verdict with
  | .clean => pure (.fin 0)
  | .suspicious => Stage.await (applyTarpit .suspicious)
  | .shadow => Stage.exit do
      recordAnomaly (.enterShadowState pairId req.sourceIp (Js.lit "verdict_shadow"))
      let delayMs ← applyTarpit .shadow
      pure (shadowDenied pairId "shadow_denied" delayMs)
  | .attack => Stage.exit (deny registry cfg req "rate_limit_exceeded" false)

/-- The tarpit for suspicious addresses. -/
def tarpit (pairId : JsString) : VerifyStage JsNumber :=
  if cfg.tarpitEnabled = true ∧ req.sourceIp ≠ Js.lit "unknown" then do
    let verdict ← Stage.await
      (attempt (perform (.external (.getVerdict pairId req.sourceIp))))
    tarpitVerdict registry cfg req pairId verdict
  else pure (.fin 0)

/-- The payload with its nonce and its timestamp. -/
structure SignedPayload where
  payload : JsValue
  nonce : JsString
  timestamp : JsNumber

/-- The payload, its nonce a UUID and its timestamp a finite number. -/
def readPayload (signedData : JsString) : VerifyStage SignedPayload := do
  let payload ← required registry cfg req (decodePayload signedData) "invalid_signed_data" true
  -- reading a property of `null` throws
  Stage.await (Prog.lift (require (isNull payload = false)
    (ServerError.typeError "Cannot read properties of null")))
  let nonce ← required registry cfg req
    ((stringOf (payload.get (Js.lit "nonce"))).filter uuidRe) "invalid_signed_data" true
  let timestamp ← required registry cfg req
    (finiteNumber (payload.get (Js.lit "timestamp"))) "invalid_signed_data" true
  pure ⟨payload, nonce, timestamp⟩

/-- `v.length`. -/
def lengthOf : JsValue → JsValue
  | .string s => .number (.fin (s.length : ℚ))
  | .array items => .number (.fin (items.length : ℚ))
  | v => v.get (Js.lit "length")

/-- `verifySecretHmac` can read what it is given: it compares the length, and matches the text of
    what is not too short. -/
def hmacReadable (secretHmac : JsValue) : Bool :=
  Js.hasText (lengthOf secretHmac) &&
    ((Js.toNumber (lengthOf secretHmac)).lt (.fin 43) || Js.hasText secretHmac)

/-- The HMAC under the user's secret. -/
def checkSecretHmac (auth : AuthorizationContext) (signed : SignedPayload) : VerifyStage Unit := do
  let secretHmac := signed.payload.get (Js.lit "secret_hmac")
  denyIf registry cfg req (truthy secretHmac = false) "missing_secret_hmac" true
  denyIf registry cfg req (auth.secretHash = []) "invalid_secret_hmac" true
  Stage.await (Prog.lift (require (hmacReadable secretHmac = true)
    (ServerError.typeError "Cannot convert object to primitive value")))
  let valid : Bool ← Stage.await
    (perform (.verifySecretHmac auth.secretHash signed.nonce signed.timestamp secretHmac))
  denyIf registry cfg req (valid = false) "invalid_secret_hmac" true

/-- A request outside its window. -/
def denyTimestamp (pairId : JsString) : ServerProg BPCVerifyResult := do
  recordAnomaly (.expiredTimestamp pairId)
  deny registry cfg req "timestamp_expired" true

/-- The timestamp is within the window around `Date.now()`. -/
def checkTimestamp (pairId : JsString) (timestamp : JsNumber) : VerifyStage JsNumber := do
  let now ← Stage.await dateNow
  Stage.exitIf (cfg.sigWindowMs.lt (now.sub timestamp).abs = true)
    (denyTimestamp registry cfg req pairId)
  pure now

/-- The payload is about this request. -/
def checkBinding (pairId : JsString) (payload : JsValue) : VerifyStage Unit := do
  denyIf registry cfg req
    (differs payload "method" (.string req.method) = true ∨
      differs payload "path" (.string req.path) = true) "method_path_mismatch" true
  denyIf registry cfg req (differs payload "pair_id" (.string pairId) = true)
    "pair_id_mismatch" true
  denyIf registry cfg req (differs payload "version" (.string bpcProtocolVersion) = true)
    "version_mismatch" true

/-- The scope of the pair permits the method. -/
def checkScope (scope : JsString) (payload : JsValue) : VerifyStage Unit := do
  let payloadMethod := ((stringOf (payload.get (Js.lit "method"))).map toUpperCase).getD []
  let methods ← required registry cfg req (scopeAllowedMethods scope) "scope_violation" false
  denyIf registry cfg req (toUpperCase req.method ∉ methods ∨ payloadMethod ∉ methods)
    "scope_violation" false

/-- The hash of the body is the signed one. -/
def checkBodyHash (payload : JsValue) : VerifyStage Unit := do
  let payloadBodyHash ← required registry cfg req
    (nonEmpty (stringOf (payload.get (Js.lit "body_hash")))) "missing_body_hash" true
  let bodyHash ← required registry cfg req (nonEmpty req.bodyHash) "missing_body_hash" true
  denyIf registry cfg req (payloadBodyHash ≠ bodyHash) "invalid_body_hash" true

/-- The signature of the payload. -/
def checkSignature (auth : AuthorizationContext) (payload : JsValue) (signature : JsString) :
    VerifyStage Unit := do
  let valid ← Stage.await (verifySignature auth.pubJwk payload signature)
  denyIf registry cfg req (valid = false) "invalid_signature" true

/-- The continuity gate. -/
def checkContinuity : VerifyStage Unit := do
  let acceptable ← Stage.await
    (perform (.external .assertAcceptable) : ServerProg (Except ServerError Unit))
  denyIf registry cfg req (acceptable.isOk = false) "authorization_quarantined" false

/-- `ServerNonceStore.checkAndConsume`: an error that is neither of its own is wrapped. -/
def nonceStoreAnswer (answer : Except Nonce.NonceError Bool) : Except Nonce.NonceError Bool :=
  match answer with
  | .ok replay => .ok replay
  | .error (.nonceStoreUnavailable cause) => .error (.nonceStoreUnavailable cause)
  | .error (.authorizationQuarantine reason untilMs) =>
      .error (.authorizationQuarantine reason untilMs)
  | .error _ => .error (.nonceStoreUnavailable "cause")

/-- A request whose nonce has been seen. -/
def denyReplay (pairId : JsString) : ServerProg BPCVerifyResult := do
  recordAnomaly (.replay pairId)
  deny registry cfg req "replay_detected" false

/-- What follows from the answer of the nonce store. -/
def onNonceAnswer (pairId : JsString) (answer : Except Nonce.NonceError Bool) : VerifyStage Unit :=
  match answer with
  | .ok true => Stage.exit (denyReplay registry cfg req pairId)
  | .ok false => pure ()
  | .error (.authorizationQuarantine _ _) =>
      Stage.exit (deny registry cfg req "authorization_quarantined" false)
  | .error _ => Stage.exit (deny registry cfg req "replay_store_unavailable" false)

/-- The nonce is consumed. -/
def consumeNonce (pairId nonce : JsString) : VerifyStage Unit := do
  let answer ← Stage.await
    (perform (.checkAndConsume nonce cfg.nonceWindowMs) : ServerProg (Except Nonce.NonceError Bool))
  onNonceAnswer registry cfg req pairId (nonceStoreAnswer answer)

/-- `detail` of a triggered ghost pair. -/
def ghostDetail (auth : AuthorizationContext) (now : JsNumber) : Option JsString :=
  Js.stringify (present
    [("canaryClass", auth.canaryClass.map fun c => .string c.text),
     ("sourceIp", some (.string req.sourceIp)),
     ("method", some (.string req.method)),
     ("path", some (.string req.path)),
     ("timestamp", some (.number now)),
     ("alert", some (.string (Js.lit ("CONFIRMED_BREACH — canary credential used. " ++
       "Attacker IP auto-routed to shadow mode."))))])

/-- The credential of a ghost pair has been used. -/
def denyGhost (pairId : JsString) (auth : AuthorizationContext) (now : JsNumber) :
    ServerProg BPCVerifyResult := do
  recordAnomaly (.enterShadowState pairId req.sourceIp
    (Js.lit "ghost_pair_hit:" ++ (auth.canaryClass.map CanaryClass.text).getD (Js.lit "undefined")))
  let delayMs ← shadowDelay cfg
  writeAudit cfg.auditLog
    { action := .ghostPairTriggered, pairId := some pairId, ip := req.ip
      method := some req.method, path := some req.path, severity := some "CRITICAL"
      detail := ghostDetail req auth now }
  pure (shadowDenied pairId "ghost_pair_denied" delayMs)

/-- The use is claimed against the captured policy. -/
def claimUse (pairId : JsString) (auth : AuthorizationContext) : VerifyStage Unit := do
  let at_ ← Stage.await dateNow
  let useClaim ← Stage.await (claimSuccessfulUseOutcome pairId at_ auth.usePolicy)
  denyIf registry cfg req (useClaim = .timeExpired) "pair_expired" false
  denyIf registry cfg req (useClaim = .usageExhausted) "pair_usage_cap_exceeded" false
  denyIf registry cfg req (useClaim ≠ .claimed) "pair_state_changed_retry" false

/-- The result of an authorized request. -/
def authorized (pairId : JsString) (auth : AuthorizationContext) (now tarpitDelay : JsNumber) :
    BPCVerifyResult where
  ok := true
  pairId := some pairId
  snapshot := some
    { pairId := auth.pairId
      scope := auth.scope
      mode := auth.mode
      kind := auth.kind
      canaryClass := auth.canaryClass
      verifiedAt := now }
  tarpitDelayMs := if (JsNumber.fin 0).lt tarpitDelay then some tarpitDelay else none

/-- The pair is found, and neither its status nor the source address speaks against it. -/
def admitPair (pairId : JsString) : VerifyStage (AuthorizationContext × JsNumber) := do
  let auth ← capturePair registry cfg req pairId
  checkStatus registry cfg req pairId auth
  let tarpitDelay ← tarpit registry cfg req pairId
  pure (auth, tarpitDelay)

/-- The payload is fresh, about this request, permitted and signed. -/
def verifySignedPayload (headers : Headers) (auth : AuthorizationContext) :
    VerifyStage (SignedPayload × JsNumber) := do
  let signed ← readPayload registry cfg req headers.signedData
  checkSecretHmac registry cfg req auth signed
  let now ← checkTimestamp registry cfg req headers.pairId signed.timestamp
  checkBinding registry cfg req headers.pairId signed.payload
  checkScope registry cfg req auth.scope signed.payload
  checkBodyHash registry cfg req signed.payload
  checkSignature registry cfg req auth signed.payload headers.signature
  pure (signed, now)

/-- The nonce is consumed and the use claimed. -/
def acceptOnce (pairId nonce : JsString) (auth : AuthorizationContext) (now : JsNumber) :
    VerifyStage Unit := do
  onlyIf (cfg.continuityGuard = true) (checkContinuity registry cfg req)
  consumeNonce registry cfg req pairId nonce
  Stage.exitIf (auth.kind = .ghost) (denyGhost cfg req pairId auth now)
  claimUse registry cfg req pairId auth

/-- `verifyBPCRequest(req, registry, nonceStore, anomaly, config)`. -/
def verifyBPCRequest : ServerProg BPCVerifyResult :=
  Stage.toProg do
    Stage.await (recordAnomaly (.request req.pairId))
    beforeHeaders registry cfg req
    let headers ← readHeaders registry cfg req
    let admitted ← admitPair registry cfg req headers.pairId
    let verified ← verifySignedPayload registry cfg req headers admitted.1
    acceptOnce registry cfg req headers.pairId verified.1.nonce admitted.1 verified.2
    Stage.await (writeAudit cfg.auditLog
      { action := .verifyPass, pairId := some headers.pairId, method := some req.method
        path := some req.path, ip := req.ip })
    pure (authorized headers.pairId admitted.1 verified.2 admitted.2)

end Pair
