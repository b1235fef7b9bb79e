import BpcProtocol.Js.Base64
import BpcProtocol.Pair.Registry

set_option autoImplicit false

/-! # Rotation

`handleRotation`: the old key signs a request that names the new one, and the store swaps the two
records in one operation. -/

namespace Pair

open Fallible Async

/-- `RotationRequest`. -/
structure RotationRequest where
  oldPairId : JsString
  newPubJwk : JsonWebKey
  signature : JsString
  signedData : JsString
  timestamp : JsNumber

/-- `RotationResult`. -/
structure RotationResult where
  ok : Bool
  newPairId : Option JsString := none
  error : Option String := none
  deriving DecidableEq

/-- `isValidPublicJwk(jwk)`. -/
def isValidPublicJwk (jwk : JsValue) : Bool :=
  let has (key : String) : Bool := (stringOf (jwk.get (Js.lit key))).isSome
  let kty := stringOf (jwk.get (Js.lit "kty"))
  isObject jwk &&
    (decide (kty = some (Js.lit "EC")) && has "crv" && has "x" && has "y" ||
      decide (kty = some (Js.lit "OKP")) && has "crv" && has "x" ||
      decide (kty = some (Js.lit "RSA")) && has "n" && has "e")

/-- `a === b` for primitive values; two objects are never the same one. -/
def strictlyEqual : JsValue → JsValue → Bool
  | .undefined, .undefined => true
  | .null, .null => true
  | .bool a, .bool b => a == b
  | .number a, .number b => a.eq b
  | .string a, .string b => a == b
  | _, _ => false

/-- `sameJwk(a, b)`. -/
def sameJwk (a b : JsValue) : Bool :=
  ["kty", "crv", "x", "y", "n", "e"].all fun f =>
    strictlyEqual (a.get (Js.lit f)) (b.get (Js.lit f))

/-- The payload inside `signedData`: base64url, and JSON within. -/
def decodeRotationPayload (signedData : JsString) : Option JsValue := do
  let json ← Js.atob (Js.base64UrlPadded signedData)
  Js.parseJson json

/-- The pair that replaces the old one. -/
def rotatedPair (oldPair : StoredPair) (req : RotationRequest) (newPairId : JsString)
    (created : JsNumber) : StoredPair where
  id := newPairId
  name := oldPair.name
  scope := oldPair.scope
  mode := oldPair.mode
  secretHash := oldPair.secretHash
  pubJwk := req.newPubJwk
  status := .active
  created := created
  lastActive := none
  requests := .fin 0
  failedSigs := .fin 0
  cumulativeFailures := none
  firstFailureAt := none
  expiresAt := oldPair.expiresAt
  maxRequests := oldPair.maxRequests
  kind := oldPair.kind
  canaryClass := oldPair.canaryClass

/-! ## The handler -/

/-- What `handleRotation` is called with besides the request and the store. -/
structure RotationConfig where
  sigWindowMs : JsNumber
  auditLog : Bool

/-- A piece of `handleRotation`. -/
abbrev RotationStage (α : Type) := Stage ServerOp ServerOp.Answer ServerError RotationResult α

variable (cfg : RotationConfig) (req : RotationRequest)

/-- `auditLog?.write(entry)`. -/
def writeAudit (auditLog : Bool) (entry : AuditInput) : ServerProg Unit :=
  if auditLog then attempt (perform (.external (.audit entry))) else pure ()

/-- `fail(error)`. -/
def rotationFails (error : String) : ServerProg RotationResult := do
  runIf (error = "invalid_signature")
    (writeAudit cfg.auditLog
      { action := .verifyFail, pairId := some req.oldPairId, error := some error })
  pure { ok := false, error := some error }

/-- `if (c) return fail(error)`. -/
def rejectIf (c : Prop) [Decidable c] (error : String) : RotationStage Unit :=
  Stage.exitIf c (rotationFails cfg req error)

/-- A value that must be there. -/
def needed {α : Type} (v : Option α) (error : String) : RotationStage α :=
  v.elim (Stage.exit (rotationFails cfg req error)) pure

/-- The validation of the request. -/
def validateRotation : RotationStage Unit := do
  rejectIf cfg req (req.oldPairId = [] ∨ 64 < req.oldPairId.length) "invalid_request"
  rejectIf cfg req (req.signedData = [] ∨ 4096 < req.signedData.length) "invalid_request"
  rejectIf cfg req (req.signature = [] ∨ 200 < req.signature.length) "invalid_request"
  rejectIf cfg req (req.timestamp.isFinite = false) "invalid_request"
  rejectIf cfg req (isValidPublicJwk req.newPubJwk.1 = false) "invalid_request"
  let now ← Stage.await dateNow
  rejectIf cfg req (cfg.sigWindowMs.lt (now.sub req.timestamp).abs = true) "timestamp_expired"

/-- The old pair, which must be active. -/
def lookupOldPair : RotationStage StoredPair := do
  let found : Option StoredPair ← Stage.await (onStore (.get req.oldPairId))
  let oldPair ← needed cfg req found "unknown_pair"
  rejectIf cfg req (oldPair.status ≠ .active) "pair_not_active"
  pure oldPair

/-- `importPublicKeyFromJwk` and `verifyPayload`: what throws does not verify. -/
def verifySignature (pubJwk : JsonWebKey) (payload : JsValue) (signature : JsString) :
    ServerProg Bool := do
  let valid ← (perform (.verifyPayload pubJwk payload signature) : ServerProg _)
  pure (valid.toOption.getD false)

/-- `v === null`. -/
def isNull : JsValue → Bool
  | .null => true
  | _ => false

/-- `payload[key] !== value`. -/
def differs (payload : JsValue) (key : String) (value : JsValue) : Bool :=
  !strictlyEqual (payload.get (Js.lit key)) value

/-- The payload, signed with the old key. -/
def verifyRotationPayload (oldPair : StoredPair) : RotationStage JsValue := do
  let payload ← needed cfg req (decodeRotationPayload req.signedData) "invalid_signed_data"
  let valid ← Stage.await (verifySignature oldPair.pubJwk payload req.signature)
  rejectIf cfg req (valid = false) "invalid_signature"
  -- reading a property of `null` throws
  Stage.await (Prog.lift (require (isNull payload = false)
    (ServerError.typeError "Cannot read properties of null")))
  pure payload

/-- The payload says what the request says. -/
def bindRotationPayload (payload : JsValue) : RotationStage Unit := do
  rejectIf cfg req (differs payload "purpose" (.string (Js.lit "rotation")) = true)
    "payload_field_mismatch"
  rejectIf cfg req (differs payload "old_pair_id" (.string req.oldPairId) = true)
    "payload_field_mismatch"
  rejectIf cfg req (differs payload "timestamp" (.number req.timestamp) = true)
    "payload_field_mismatch"
  let newPubJwkJson ← needed cfg req (stringOf (payload.get (Js.lit "new_pub_jwk_json")))
    "payload_field_mismatch"
  let parsedNewPubJwk ← needed cfg req (Js.parseJson newPubJwkJson) "invalid_signed_data"
  rejectIf cfg req (isValidPublicJwk parsedNewPubJwk = false) "invalid_request"
  rejectIf cfg req (sameJwk parsedNewPubJwk req.newPubJwk.1 = false) "payload_field_mismatch"

/-- The swap of the two records. -/
def commitRotation (oldPair : StoredPair) : RotationStage JsString := do
  let newPairId ← Stage.await (generateId "pair")
  let created ← Stage.await dateNow
  let rotated : Bool ← Stage.await
    (onStore (.rotatePair oldPair (rotatedPair oldPair req newPairId created)))
  rejectIf cfg req (rotated = false) "rotation_conflict"
  pure newPairId

/-- `JSON.stringify({ [key]: id })`. -/
def idDetail (key : String) (id : JsString) : Option JsString :=
  Js.stringify (present [(key, some (.string id))])

/-- The audit events of a rotation. -/
def auditRotation (newPairId : JsString) : ServerProg Unit := do
  writeAudit cfg.auditLog
    { action := .rotate, pairId := some req.oldPairId, detail := idDetail "newPairId" newPairId }
  writeAudit cfg.auditLog
    { action := .register, pairId := some newPairId
      detail := idDetail "rotatedFrom" req.oldPairId }

/-- `handleRotation(req, store, sigWindowMs, auditLog)`. -/
def handleRotation : ServerProg RotationResult :=
  Stage.toProg do
    validateRotation cfg req
    let oldPair ← lookupOldPair cfg req
    let payload ← verifyRotationPayload cfg req oldPair
    bindRotationPayload cfg req payload
    let newPairId ← commitRotation cfg req oldPair
    Stage.await (auditRotation cfg req newPairId)
    pure { ok := true, newPairId := some newPairId }

end Pair
