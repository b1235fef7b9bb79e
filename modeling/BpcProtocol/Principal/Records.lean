import BpcProtocol.Ha.Digests
import BpcProtocol.Replication.Receiver
import BpcProtocol.Wire.Core

set_option autoImplicit false

/-! # Principals, streams and their hashes

The records of `principal-session.ts`, the values that are hashed, and the proof that a session is
bound with. -/

namespace Principal

open Fallible Pair
open Js (lit)
open Replication (canonicalJson)

/-- The members of a plain object. -/
abbrev Fields := List (JsString × JsValue)

/-! ## Sanitizing -/

/-- `s.includes(word)`. -/
def includes (s word : JsString) : Bool :=
  s.tails.any fun t => word.isPrefixOf t

def asciiLower (c : UInt16) : UInt16 :=
  if 65 ≤ c && c ≤ 90 then c + 32 else c

/-- `SENSITIVE_FIELD`. -/
def sensitiveField (name : JsString) : Bool :=
  ["secret", "token", "password", "private", "credential", "apikey", "api_key", "api-key",
    "sharedsecret", "shared_secret", "shared-secret", "rawkey", "raw_key", "raw-key",
    "authorization"].any fun word => includes (name.map asciiLower) (lit word)

/-- `REDACTED`. -/
def redacted : JsValue :=
  .string (lit "[REDACTED]")

mutual

/-- `sanitizeCaptureValue(value)`: assigning to `__proto__` sets no property. -/
def sanitizeCaptureValue : JsValue → JsValue
  | .array items => .array (sanitizeItems items)
  | .object fields => .object (sanitizeFields fields)
  | v => v

def sanitizeItems : List JsValue → List JsValue
  | [] => []
  | v :: rest => sanitizeCaptureValue v :: sanitizeItems rest

def sanitizeFields : Fields → Fields
  | [] => []
  | (k, v) :: rest =>
      if k = lit "__proto__" then sanitizeFields rest
      else (k, if sensitiveField k then redacted else sanitizeCaptureValue v) :: sanitizeFields rest

end

/-- `{ ...base, ...update }`. -/
def overlay (base update : Fields) : Fields :=
  update.foldl (fun fields f => Js.setField fields f.1 f.2) base

/-! ## Records -/

/-- `PRINCIPAL_GENESIS_HASH`. -/
def principalGenesisHash : JsString :=
  List.replicate 64 48

structure PrincipalRecord where
  principalId : JsString
  keyFingerprint : JsString
  publicKeyJwk : JsonWebKey
  createdAt : JsNumber
  updatedAt : JsNumber
  authorizationContext : Fields
  keyVersion : JsNumber
  sessionIds : List JsString
  activeSessionIds : List JsString
  streamIds : List JsString
  checkpointHead : JsString
  checkpointSeq : ℕ

structure PrincipalStreamRecord where
  principalId : JsString
  streamId : JsString
  provider : JsString
  agentInstanceId : JsString
  providerSessionIds : List JsString
  seq : ℕ
  headHash : JsString

inductive PrincipalEventType where
  | sessionBound
  | sessionEvent
  | sessionClosed
  | keyRotated
  | authorizationUpdated
  deriving DecidableEq

def PrincipalEventType.text : PrincipalEventType → JsString
  | sessionBound => lit "session_bound"
  | sessionEvent => lit "session_event"
  | sessionClosed => lit "session_closed"
  | keyRotated => lit "key_rotated"
  | authorizationUpdated => lit "authorization_updated"

/-- An event without its hash. -/
structure BareStreamEvent where
  principalId : JsString
  streamId : JsString
  provider : JsString
  providerSessionId : Option JsString
  agentInstanceId : JsString
  seq : ℕ
  timestamp : JsNumber
  eventType : PrincipalEventType
  policyDigest : Option JsString
  proofDigest : Option JsString
  payloadHash : JsString
  payload : Fields
  prevHash : JsString

structure PrincipalStreamEvent extends BareStreamEvent where
  chainHash : JsString
  bindingHash : Option JsString

/-- `streamHeads`: a `{ seq, chainHash }` for each stream. -/
abbrev StreamHeads := Fields

/-- A checkpoint without its hash. -/
structure BareCheckpoint where
  principalId : JsString
  seq : ℕ
  timestamp : JsNumber
  streamHeads : StreamHeads
  prevHash : JsString

structure PrincipalCheckpoint extends BareCheckpoint where
  checkpointHash : JsString

structure PrincipalSessionProof where
  challengeNonce : JsString
  signedAt : JsNumber
  signature : JsString

structure BindSessionInput where
  publicKeyJwk : JsonWebKey
  proof : PrincipalSessionProof
  provider : JsString
  providerSessionId : JsString
  agentInstanceId : Option JsString
  policyDigest : JsString
  runtimeMetadata : Option JsValue
  authorizationContext : Option JsValue
  maxProofAgeMs : Option JsNumber

/-- ``input.agentInstanceId ?? `${input.provider}:${input.providerSessionId}` ``. -/
def BindSessionInput.agent (input : BindSessionInput) : JsString :=
  input.agentInstanceId.getD (input.provider ++ 58 :: input.providerSessionId)

/-- `input.runtimeMetadata ?? {}`. -/
def BindSessionInput.runtime (input : BindSessionInput) : JsValue :=
  input.runtimeMetadata.getD (.object [])

structure SessionBinding where
  principalId : JsString
  streamId : JsString
  provider : JsString
  providerSessionId : JsString
  agentInstanceId : JsString
  boundAt : JsNumber
  policyDigest : JsString
  authorizationContext : Fields
  runtime : JsValue
  prevHash : JsString
  bindingHash : JsString
  checkpointHash : JsString

structure PrincipalChainVerifyResult where
  valid : Bool
  principalId : JsString
  brokenAt : Option JsString
  reason : Option String
  deriving DecidableEq

structure AuthorizationResolutionInput where
  principalId : JsString
  keyFingerprint : JsString
  policyDigest : JsString
  requested : JsValue

/-! ## Hashes -/

section Hashes

variable {PrivateKey PublicKey : Type} (c : Wire.WebCrypto PrivateKey PublicKey)

/-- `sha256hex(input)`. -/
def sha256hex (input : JsString) : JsString :=
  (c.sha256 (Js.utf8 input)).flatMap Ha.hexByte

/-- `sha256hex(canonicalJson(value))`, of a value that can be written. -/
def hashOf (value : JsValue) : Except ServerError JsString := do
  require (isData value = true) .external
  pure (sha256hex c (canonicalJson value))

/-- `computeFingerprint(jwk)`. -/
def computeFingerprint (jwk : JsonWebKey) : Except ServerError JsString := do
  require (stringOf (jwk.get "kty") = some (lit "EC") ∧ stringOf (jwk.get "crv") = some (lit "P-256") ∧
      truthy (jwk.get "x") = true ∧ truthy (jwk.get "y") = true)
    (.typeError "BPC fingerprint requires an EC P-256 public JWK")
  let text := Js.stringify (.object
    [(lit "crv", jwk.get "crv"), (lit "kty", jwk.get "kty"), (lit "x", jwk.get "x"),
      (lit "y", jwk.get "y")])
  pure ((Wire.b64url (c.sha256 (Js.utf8 (text.getD [])))).take 20)

/-- `principalIdFromFingerprint(keyFingerprint)`. -/
def principalIdFromFingerprint (keyFingerprint : JsString) : JsString :=
  lit "principal_" ++ (sha256hex c (lit "bpc-principal-v1:" ++ keyFingerprint)).take 24

/-- `makeStreamId(principalId, provider, agentInstanceId)`. -/
def makeStreamId (principalId provider agentInstanceId : JsString) : JsString :=
  lit "stream_" ++
    (sha256hex c (principalId ++ 58 :: provider ++ 58 :: agentInstanceId)).take 24

/-- `value ?? null`, of a text. -/
def orNull (value : Option JsString) : JsValue :=
  value.elim .null .string

def ofNat (n : ℕ) : JsValue :=
  .number (.fin n)

/-- `computeStreamEventHash(event)`. -/
def computeStreamEventHash (event : BareStreamEvent) : JsString :=
  sha256hex c (canonicalJson (.array
    [ofNat event.seq, .string event.prevHash, .string event.principalId, .string event.streamId,
      .string event.provider, orNull event.providerSessionId, .string event.agentInstanceId,
      .number event.timestamp, .string event.eventType.text, orNull event.policyDigest,
      orNull event.proofDigest, .string event.payloadHash, .object event.payload]))

/-- `computeCheckpointHash(checkpoint)`. -/
def computeCheckpointHash (checkpoint : BareCheckpoint) : JsString :=
  sha256hex c (canonicalJson (.array
    [ofNat checkpoint.seq, .string checkpoint.prevHash, .string checkpoint.principalId,
      .number checkpoint.timestamp, .object checkpoint.streamHeads]))

/-! ## Proofs -/

/-- `input.proof`, as it is hashed. -/
def PrincipalSessionProof.toJs (proof : PrincipalSessionProof) : JsValue :=
  .object
    [(lit "challengeNonce", .string proof.challengeNonce), (lit "signedAt", .number proof.signedAt),
      (lit "signature", .string proof.signature)]

/-- `assertBindingInput(input)`. -/
def assertBindingInput (input : BindSessionInput) : Except ServerError Unit := do
  ensure (Js.trim input.provider ≠ []) "provider is required"
  ensure (Js.trim input.providerSessionId ≠ []) "providerSessionId is required"
  ensure (Js.trim input.policyDigest ≠ []) "policyDigest is required"

/-- `PRINCIPAL_BINDING_PURPOSE`. -/
def principalBindingPurpose : JsString :=
  lit "bpc.principal.session.bind.v1"

/-- `buildPrincipalSessionProofPayload(input)`, of a binding and the fingerprint of its key. -/
def buildPrincipalSessionProofPayload (input : BindSessionInput) (keyFingerprint : JsString) :
    Except ServerError JsValue := do
  let contextHash ←
    hashOf c (sanitizeCaptureValue (input.authorizationContext.getD (.object [])))
  let runtimeHash ← hashOf c (sanitizeCaptureValue input.runtime)
  pure (.object
    [(lit "purpose", .string principalBindingPurpose),
      (lit "key_fingerprint", .string keyFingerprint), (lit "provider", .string input.provider),
      (lit "provider_session_id", .string input.providerSessionId),
      (lit "agent_instance_id", .string input.agent),
      (lit "policy_digest", .string input.policyDigest),
      (lit "authorization_context_hash", .string contextHash),
      (lit "runtime_metadata_hash", .string runtimeHash),
      (lit "challenge_nonce", .string input.proof.challengeNonce),
      (lit "signed_at", .number input.proof.signedAt)])

/-- `verifyPrincipalSessionProof(input, keyFingerprint)`, at the time `now`. -/
def verifyPrincipalSessionProof (now : JsNumber) (input : BindSessionInput)
    (keyFingerprint : JsString) : Except ServerError Unit := do
  let maxProofAgeMs := input.maxProofAgeMs.getD (.fin 300000)
  ensure (maxProofAgeMs.lt (now.sub input.proof.signedAt).abs = false)
    "principal session proof expired"
  ensure (16 ≤ input.proof.challengeNonce.length) "principal session proof nonce too short"
  let payload ← buildPrincipalSessionProofPayload c input keyFingerprint
  let publicKey ← c.importPublicKey input.publicKeyJwk
  ensure (Wire.verifyPayload c publicKey payload input.proof.signature = true)
    "principal session proof invalid"

end Hashes

end Principal
