import BpcProtocol.Js.Number
import BpcProtocol.Lib.OrderedMap
import BpcProtocol.Wire.Python

set_option autoImplicit false

/-! # The Python verifier

`BPCVerifier.verify` with `InMemoryPairRegistry` and `InMemoryNonceStore`. What it takes from
Python's library is a parameter (`PyLibrary`): the results hold whatever these functions compute. -/

namespace Python

open Fallible
open Wire (PyString b64url)

/-! ## Values and exceptions -/

/-- What `json.loads` returns. -/
inductive PyJson where
  | none
  | bool (b : Bool)
  | int (n : ℤ)
  | float (x : JsNumber)
  | str (s : PyString)
  | list (items : List PyJson)
  | dict (items : List (PyString × PyJson))

/-- The classes of exceptions that the verifier tells apart. -/
inductive ExceptionKind where
  | typeError
  | valueError
  | keyError
  | attributeError
  | overflowError
  | other
  deriving DecidableEq

/-- An exception, with what `str` makes of it. -/
structure PyException where
  kind : ExceptionKind
  text : PyString

/-- The text of an integer. -/
def decimal (n : ℤ) : PyString := .ofUnits (Js.decimal n)

/-- `isinstance(v, int)`: a boolean is an integer too. -/
def PyJson.toInt? : PyJson → Option ℤ
  | .int n => some n
  | .bool b => some (if b then 1 else 0)
  | _ => Option.none

/-- `str(v)` of an integer. -/
def PyJson.intText : PyJson → PyString
  | .bool true => .lit "True"
  | .bool false => .lit "False"
  | v => decimal (v.toInt?.getD 0)

/-- `dict.get(key, default)`. -/
def getOr (items : List (PyString × PyJson)) (key : String) (default : PyJson) : PyJson :=
  ((items.find? fun item => item.1 == .lit key).map Prod.snd).getD default

/-- `v == text` of a string. -/
def PyJson.isText (v : PyJson) (text : PyString) : Bool :=
  match v with
  | .str s => s == text
  | _ => false

/-- The functions of the library: strings, encodings, digests, and the keys and signatures of the
    package `cryptography`. -/
structure PyLibrary (PublicKey : Type) where
  lower : PyString → PyString
  upper : PyString → PyString
  str : PyJson → PyString
  b64decode : PyJson → Except PyException Bytes
  loads : Bytes → Except PyException PyJson
  uuid4 : PyJson → Except PyException Unit
  sha256 : Bytes → Bytes
  hmacSha256 : Bytes → Bytes → Bytes
  publicKey : ℕ → ℕ → Except PyException PublicKey
  verifyEcdsa : PublicKey → ℕ → ℕ → Bytes → Bool

/-! ## The registry -/

/-- `ALLOWED_SCOPES`. -/
def allowedScopes : List PyString := ["read", "read-write", "admin"].map PyString.lit

/-- `SCOPE_METHODS.get(scope, set())`. -/
def scopeMethods (scope : PyString) : List PyString :=
  if scope = .lit "read" then ["GET", "HEAD", "OPTIONS"].map PyString.lit
  else if scope = .lit "read-write" then
    ["GET", "HEAD", "OPTIONS", "POST", "PUT", "PATCH"].map PyString.lit
  else if scope = .lit "admin" then
    ["GET", "HEAD", "OPTIONS", "POST", "PUT", "PATCH", "DELETE"].map PyString.lit
  else []

/-- `PairRecord`, of which the verifier and the registry read these fields. -/
structure PairRecord where
  pairId : PyString
  scope : PyString
  publicKeyJwk : List (PyString × PyJson)
  secretHash : PyString
  status : PyString := .lit "active"
  expiresAt : Option JsNumber := none
  failedSigs : ℤ := 0

/-- `validate_scope(scope)`. -/
def validateScope (scope : PyString) : Except PyException Unit :=
  require (scope ∈ allowedScopes)
    ⟨.valueError, .lit "scope must be one of: admin, read, read-write"⟩

/-- `InMemoryPairRegistry`. -/
abbrev PairRegistry := OrderedMap PyString PairRecord

namespace PairRegistry

variable (registry : PairRegistry)

/-- A change of the record of a pair, if there is one. -/
def modify (pairId : PyString) (f : PairRecord → PairRecord) : PairRegistry :=
  (registry.get pairId).elim registry fun record => registry.set pairId (f record)

/-- `register(record)`. -/
def register (record : PairRecord) : Except PyException PairRegistry := do
  validateScope record.scope
  pure (registry.set record.pairId record)

/-- `revoke(pair_id)`. -/
def revoke (pairId : PyString) : PairRegistry :=
  modify registry pairId fun record => { record with status := .lit "revoked" }

/-- `increment_failed_sigs(pair_id)`. -/
def incrementFailedSigs (pairId : PyString) : PairRegistry :=
  modify registry pairId fun record => { record with failedSigs := record.failedSigs + 1 }

/-- `reset_failed_sigs(pair_id)`. -/
def resetFailedSigs (pairId : PyString) : PairRegistry :=
  modify registry pairId fun record => { record with failedSigs := 0 }

end PairRegistry

/-! ## The nonce store -/

/-- `InMemoryNonceStore`: the expiry of each nonce, in seconds. -/
abbrev NonceStore := OrderedMap PyString JsNumber

/-- `expiry <= now`. -/
def expired (expiry : JsNumber) (now : ℚ) : Bool :=
  expiry.lt (.fin now) || expiry.eq (.fin now)

/-- A float that is not too large. -/
def finiteFloat : JsNumber → Except PyException ℚ
  | .fin q => .ok q
  | _ => .error ⟨.overflowError, .lit "integer division result too large for a float"⟩

/-- `now + (ttl_ms / 1000)`. -/
def nonceExpiry (now : ℚ) (ttlMs : ℤ) : Except PyException JsNumber := do
  let seconds ← finiteFloat (Js.ofRat (ttlMs / 1000))
  pure (Js.ofRat (now + seconds))

namespace NonceStore

variable (nonces : NonceStore)

/-- `_evict(now)`. -/
def evict (now : ℚ) : NonceStore :=
  nonces.filter fun _ expiry => !expired expiry now

/-- `consume(nonce, ttl_ms)` at a time, with the answer. What it raises comes after the eviction. -/
def consume (nonce : PyString) (ttlMs : ℤ) (now : ℚ) : Except PyException Bool × NonceStore :=
  if (evict nonces now).has nonce then (.ok false, evict nonces now)
  else
    ((nonceExpiry now ttlMs).map fun _ => true,
      orElse ((nonceExpiry now ttlMs).map fun expiry => (evict nonces now).set nonce expiry)
        (evict nonces now))

end NonceStore

/-! ## The checks -/

/-- The configuration of a `BPCVerifier`. -/
structure BPCVerifier where
  sigWindowMs : ℤ := 60000
  lockoutCount : ℤ := 10

/-- The arguments of `verify`. -/
structure VerifyRequest where
  headers : List (PyString × PyString)
  method : PyString
  path : PyString
  body : Option Bytes

/-- The clock as one call reads it: for the expiry of the pair, for the timestamp, and as the nonce
    is consumed. -/
structure Clock where
  expiry : ℚ
  timestamp : ℚ
  consumed : ℚ

/-- Why the checks of a request end: a result, with the pair whose failure is counted, or an
    exception that nothing catches. -/
inductive Stop where
  | failure (code : String) (message : PyString) (counted : Option PyString)
  | raised (e : PyException)

abbrev Check (α : Type) := Except Stop α

/-- `return BPCVerificationResult.failure(code, message)` unless `p`. -/
def failUnless (p : Prop) [Decidable p] (code : String) (message : PyString)
    (counted : Option PyString := none) : Check Unit :=
  require p (.failure code message counted)

/-- `except …: return BPCVerificationResult.failure(…)`, of the exceptions that `caught` accepts. -/
def handle {α : Type} (caught : PyException → Option Stop) : Except PyException α → Check α
  | .ok a => .ok a
  | .error e => .error ((caught e).getD (.raised e))

variable {PublicKey : Type} (lib : PyLibrary PublicKey) (cfg : BPCVerifier)

/-- `_b64url_decode(s)`. -/
def b64urlDecode : PyJson → Except PyException Bytes
  | .str s => lib.b64decode
      (.str (s ++ if s.length % 4 = 0 then [] else
        PyString.ofUnits (List.replicate (4 - s.length % 4) 61)))
  | v => lib.b64decode v

/-- `int.from_bytes(bytes, "big")`. -/
def fromBytes (bytes : Bytes) : ℕ :=
  bytes.foldl (fun n b => 256 * n + b.toNat) 0

/-- `jwk[key]`. -/
def member (jwk : List (PyString × PyJson)) (key : String) : Except PyException PyJson :=
  ((jwk.find? fun item => item.1 == .lit key).map Prod.snd).elim
    (.error ⟨.keyError, .lit "'" ++ .lit key ++ .lit "'"⟩) .ok

/-- `_import_public_key_jwk(jwk)`. -/
def importPublicKeyJwk (jwk : List (PyString × PyJson)) : Except PyException PublicKey := do
  let xText ← member jwk "x"
  let x ← b64urlDecode lib xText
  let yText ← member jwk "y"
  let y ← b64urlDecode lib yText
  lib.publicKey (fromBytes x) (fromBytes y)

/-- `{k.lower(): v for k, v in headers.items()}`. -/
def headersLower (headers : List (PyString × PyString)) : OrderedMap PyString PyString :=
  headers.foldl (fun dict item => dict.set (lib.lower item.1) item.2) .empty

/-- The header `name`, which must be there; `key` is its name in lower case. -/
def requiredHeader (headers : OrderedMap PyString PyString) (name key : String) : Check PyString :=
  (headers.get (.lit key)).elim
    (.error (.failure "missing_headers" (.lit "Missing header: " ++ .lit name) none)) .ok

/-- The headers that `verify` reads. -/
structure BpcHeaders where
  pairId : PyString
  signature : PyString
  signedData : PyString

/-- Step 2: the headers are there, and of this version. -/
def readHeaders (req : VerifyRequest) : Check BpcHeaders := do
  let headers := headersLower lib req.headers
  let pairId ← requiredHeader headers "X-BPC-Pair-ID" "x-bpc-pair-id"
  let signature ← requiredHeader headers "X-BPC-Signature" "x-bpc-signature"
  let signedData ← requiredHeader headers "X-BPC-Signed-Data" "x-bpc-signed-data"
  let version ← requiredHeader headers "X-BPC-Version" "x-bpc-version"
  failUnless (version = .lit "1.0") "unsupported_version" (.lit "Unsupported BPC header version")
  pure ⟨pairId, signature, signedData⟩

/-- `pair.expires_at and pair.expires_at < time.time()`: no expiry, and zero, are false. -/
def hasExpired (pair : PairRecord) (now : ℚ) : Bool :=
  pair.expiresAt.any fun expiresAt => !expiresAt.eq (.fin 0) && expiresAt.lt (.fin now)

/-- Steps 3 and 4: the pair. -/
def readPair (registry : PairRegistry) (clock : Clock) (pairId : PyString) : Check PairRecord := do
  let pair ← (registry.get pairId).elim
    (.error (.failure "unknown_pair" (.lit "Unknown pair: " ++ pairId) none)) .ok
  failUnless (pair.status ≠ .lit "revoked") "pair_revoked" (.lit "Pair has been revoked")
  failUnless (hasExpired pair clock.expiry = false) "pair_expired" (.lit "Pair has expired")
  failUnless (pair.scope ∈ allowedScopes) "invalid_scope" (.lit "Stored pair scope is invalid")
  failUnless (pair.failedSigs < cfg.lockoutCount) "pair_locked_out"
    (.lit "Pair locked after " ++ decimal pair.failedSigs ++ .lit " failures")
  pure pair

/-- `except Exception as e` of step 5. -/
def undecodable (e : PyException) : Option Stop :=
  some (.failure "invalid_signed_data" (.lit "Cannot decode signed data: " ++ e.text) none)

/-- The payload, which has a method `get` if it is a dictionary. -/
def asDict : PyJson → Check (List (PyString × PyJson))
  | .dict items => .ok items
  | _ => .error (.raised ⟨.attributeError, .lit "object has no attribute 'get'"⟩)

/-- Step 5: the signed bytes and the payload in them. -/
def readPayload (signedData : PyString) : Check (Bytes × List (PyString × PyJson)) := do
  let canonicalBytes ← handle undecodable (b64urlDecode lib (.str signedData))
  let payload ← handle undecodable (lib.loads canonicalBytes)
  let items ← asDict payload
  pure (canonicalBytes, items)

/-- `int(x)` of a float. -/
def truncate : JsNumber → Check ℤ
  | .fin q => .ok (if 0 ≤ q then q.floor else q.ceil)
  | _ => .error (.raised ⟨.overflowError, .lit "cannot convert float infinity to integer"⟩)

/-- The timestamp of a payload, an integer. -/
def integerTimestamp (ts : PyJson) : Check ℤ :=
  ts.toInt?.elim
    (.error (.failure "invalid_signed_data" (.lit "Timestamp must be an integer") none)) .ok

/-- Steps 6 and 7: the version and the timestamp. -/
def checkTimestamp (clock : Clock) (pairId : PyString) (payload : List (PyString × PyJson)) :
    Check Unit := do
  let version := getOr payload "version" .none
  failUnless (version.isText (.lit "1.0") = true) "unsupported_version"
    (.lit "Unsupported version: " ++ lib.str version)
  let nowMs ← truncate (Js.ofRat (clock.timestamp * 1000))
  let ts := getOr payload "timestamp" (.int 0)
  let n ← integerTimestamp ts
  failUnless (|nowMs - n| ≤ cfg.sigWindowMs) "timestamp_expired"
    (.lit "Timestamp " ++ ts.intText ++ .lit " is outside ±" ++ decimal cfg.sigWindowMs ++
      .lit "ms window") (some pairId)

/-- A string that is concatenated. -/
def asText : PyJson → Except PyException PyString
  | .str s => .ok s
  | _ => .error ⟨.typeError, .lit "unsupported operand type(s) for +"⟩

/-- `s.encode()`. -/
def encode (s : PyString) : Except PyException Bytes :=
  s.encode.elim (.error ⟨.valueError, .lit "surrogates not allowed"⟩) .ok

/-- The nonce, and the HMAC that it and the timestamp should have under the secret of the pair. -/
def expectedHmac (pair : PairRecord) (payload : List (PyString × PyJson)) :
    Except PyException (PyString × PyString) := do
  let nonce := getOr payload "nonce" (.str [])
  lib.uuid4 nonce
  let key ← b64urlDecode lib (.str pair.secretHash)
  let text ← asText nonce
  let message ← encode (text ++ (getOr payload "timestamp" (.int 0)).intText)
  pure (text, .ofUnits (b64url (lib.hmacSha256 key message)))

/-- `except (TypeError, ValueError, KeyError)` of the secret factor. -/
def invalidSecret (e : PyException) : Option Stop :=
  if e.kind = .typeError ∨ e.kind = .valueError ∨ e.kind = .keyError then
    some (.failure "invalid_secret_hmac" (.lit "Invalid nonce or stored HMAC key") none)
  else none

/-- `hmac.compare_digest(a, b)` of two strings, which must be ASCII. -/
def compareDigest (a b : PyString) : Check Bool :=
  if a.all fun c => decide (c.1 < 128) then .ok (a == b)
  else .error (.raised ⟨.typeError,
    .lit "comparing strings with non-ASCII characters is not supported"⟩)

/-- `isinstance(secret_hmac, str) and hmac.compare_digest(secret_hmac, expected_hmac)`. -/
def sameHmac (secretHmac : PyJson) (expected : PyString) : Check Bool :=
  match secretHmac with
  | .str s => compareDigest s expected
  | _ => .ok false

/-- The secret factor; the nonce is the result. -/
def checkSecret (pairId : PyString) (pair : PairRecord) (payload : List (PyString × PyJson)) :
    Check PyString := do
  let expected ← handle invalidSecret (expectedHmac lib pair payload)
  let same ← sameHmac (getOr payload "secret_hmac" (.str [])) expected.2
  failUnless (same = true) "invalid_secret_hmac" (.lit "Secret HMAC verification failed")
    (some pairId)
  pure expected.1

/-- Step 9: the method, the path and the pair. -/
def checkBinding (req : VerifyRequest) (pairId : PyString) (payload : List (PyString × PyJson)) :
    Check Unit := do
  let method := getOr payload "method" .none
  failUnless (method.isText (lib.upper req.method) = true) "method_path_mismatch"
    (.lit "Method mismatch: payload=" ++ lib.str method ++ .lit " request=" ++ lib.upper req.method)
    (some pairId)
  let path := getOr payload "path" .none
  failUnless (path.isText req.path = true) "method_path_mismatch"
    (.lit "Path mismatch: payload=" ++ lib.str path ++ .lit " request=" ++ req.path) (some pairId)
  failUnless ((getOr payload "pair_id" .none).isText pairId = true) "pair_id_mismatch"
    (.lit "Payload pair ID does not match header") (some pairId)

/-- `"sha256:" + …` of the body. -/
def expectedHash (req : VerifyRequest) : PyString :=
  .lit "sha256:" ++ .ofUnits (b64url (lib.sha256 (req.body.getD [])))

/-- Step 10: the body. -/
def checkBody (req : VerifyRequest) (pairId : PyString) (payload : List (PyString × PyJson)) :
    Check Unit := do
  let bodyHash := getOr payload "body_hash" .none
  failUnless (bodyHash.isText (expectedHash lib req) = true) "body_hash_mismatch"
    (.lit "Body hash mismatch: expected=" ++ expectedHash lib req ++ .lit " got=" ++
      lib.str bodyHash) (some pairId)

/-- Whether a signature is right. -/
def signatureValid (pair : PairRecord) (signature : PyString) (canonicalBytes : Bytes) :
    Except PyException Bool := do
  let publicKey ← importPublicKeyJwk lib pair.publicKeyJwk
  let sigBytes ← b64urlDecode lib (.str signature)
  require (sigBytes.length = 64) ⟨.valueError, .lit "ECDSA signature must be 64-byte P1363"⟩
  pure (lib.verifyEcdsa publicKey (fromBytes (sigBytes.take 32)) (fromBytes (sigBytes.drop 32))
    canonicalBytes)

/-- `except Exception as e` of step 11. -/
def signatureError (pairId : PyString) (e : PyException) : Option Stop :=
  some (.failure "signature_invalid" (.lit "Signature error: " ++ e.text) (some pairId))

/-- Step 11: the signature. -/
def checkSignature (pairId : PyString) (pair : PairRecord) (signature : PyString)
    (canonicalBytes : Bytes) : Check Unit := do
  let valid ← handle (signatureError pairId) (signatureValid lib pair signature canonicalBytes)
  failUnless (valid = true) "signature_invalid" (.lit "ECDSA signature verification failed")
    (some pairId)

/-- Step 12: the scope. -/
def checkScope (req : VerifyRequest) (pair : PairRecord) : Check Unit :=
  failUnless (lib.upper req.method ∈ scopeMethods pair.scope) "scope_denied"
    (.lit "Scope '" ++ pair.scope ++ .lit "' does not allow " ++ lib.upper req.method)

/-- What a request that passes every check is for. -/
structure Checked where
  pairId : PyString
  pair : PairRecord
  nonce : PyString

/-- The checks of `verify`, in order. -/
def check (registry : PairRegistry) (clock : Clock) (req : VerifyRequest) : Check Checked := do
  let headers ← readHeaders lib req
  let pair ← readPair cfg registry clock headers.pairId
  let signed ← readPayload lib headers.signedData
  checkTimestamp lib cfg clock headers.pairId signed.2
  let nonce ← checkSecret lib headers.pairId pair signed.2
  checkBinding lib req headers.pairId signed.2
  checkBody lib req headers.pairId signed.2
  checkSignature lib headers.pairId pair headers.signature signed.1
  checkScope lib req pair
  pure ⟨headers.pairId, pair, nonce⟩

/-! ## `verify` -/

/-- `BPCVerificationResult`. -/
structure BPCVerificationResult where
  ok : Bool
  pairId : Option PyString := none
  pair : Option PairRecord := none
  errorCode : Option String := none
  errorMessage : Option PyString := none

/-- The registry and the nonces. -/
structure Store where
  registry : PairRegistry
  nonces : NonceStore

/-- `BPCVerificationResult.failure(code, message)`. -/
def BPCVerificationResult.failure (code : String) (message : PyString) : BPCVerificationResult :=
  { ok := false, errorCode := some code, errorMessage := some message }

/-- `BPCVerificationResult.success(pair_id, pair)`. -/
def BPCVerificationResult.success (pairId : PyString) (pair : PairRecord) : BPCVerificationResult :=
  { ok := true, pairId := some pairId, pair := some pair }

/-- The end of `verify`, once the nonce store has answered. -/
def conclude (checked : Checked) (registry : PairRegistry) :
    Except PyException Bool × NonceStore → Except PyException BPCVerificationResult × Store
  | (.error e, nonces) => (.error e, ⟨registry, nonces⟩)
  | (.ok false, nonces) =>
      (.ok (.failure "replay_detected" (.lit "Nonce already consumed: " ++ checked.nonce)),
        ⟨registry, nonces⟩)
  | (.ok true, nonces) =>
      (.ok (.success checked.pairId { checked.pair with failedSigs := 0 }),
        ⟨registry.resetFailedSigs checked.pairId, nonces⟩)

/-- How long the nonce of an accepted request is kept. -/
def BPCVerifier.ttlMs : ℤ := cfg.sigWindowMs * 2 + 10000

/-- What follows the checks. -/
def afterChecks (clock : Clock) (s : Store) :
    Check Checked → Except PyException BPCVerificationResult × Store
  | .error (.failure code message counted) =>
      (.ok (.failure code message),
        { s with registry := counted.elim s.registry s.registry.incrementFailedSigs })
  | .error (.raised e) => (.error e, s)
  | .ok checked =>
      conclude checked s.registry
        (NonceStore.consume s.nonces checked.nonce cfg.ttlMs clock.consumed)

/-- `verify(headers, method, path, body)`. -/
def verify (clock : Clock) (req : VerifyRequest) (s : Store) :
    Except PyException BPCVerificationResult × Store :=
  afterChecks cfg clock s (check lib cfg s.registry clock req)

end Python
