import BpcProtocol.Ha.Errors
import BpcProtocol.Js.Base64
import BpcProtocol.Js.Coerce
import BpcProtocol.Js.Integers

set_option autoImplicit false

/-! # The outbox receiver

`createHttpOutboxReceiver` admits a signed request while its timestamp is fresh, and at most once
for each nonce that its durable store remembers. What is modelled is everything up to the point
where the request is accepted for processing. -/

namespace Transport

open Fallible Ha

/-- SHA-256 as lowercase hex, and HMAC-SHA256 of a message under a secret. -/
structure NodeCrypto where
  sha256hex : Bytes → JsString
  hmac : Bytes → Bytes → Bytes

/-! ## Configuration -/

/-- A positive safe integer. -/
abbrev PosInt := { n : ℤ // 1 ≤ n ∧ n ≤ Js.maxSafeInteger }

/-- `posInt(n, label)`. -/
def posInt (n : JsNumber) (label : String) : Except HaError PosInt :=
  n.toInt?.elim (.error (.contractValidation (label ++ " must be a positive safe integer"))) fun i =>
    if h : 1 ≤ i ∧ i ≤ Js.maxSafeInteger then .ok ⟨i, h⟩
    else .error (.contractValidation (label ++ " must be a positive safe integer"))

/-- `KEY_ID_RE`. -/
def keyIdRe : JsString → Bool :=
  Js.classPattern (fun c => Js.isAlnum c || Js.oneOf "._-" c) 1 64

/-- `NONCE_RE`. -/
def nonceRe : JsString → Bool :=
  Js.classPattern (fun c => Js.isAlnum c || Js.oneOf "_-" c) 16 128

/-- `/^(0|[1-9][0-9]{0,15})$/`. -/
def timestampRe : JsString → Bool
  | [] => false
  | [c] => Js.isDigit c
  | c :: rest => (Js.isDigit c && c != 48) && Js.classPattern Js.isDigit 0 15 rest

/-- `toSecret(s, label)`, of the bytes of the secret. -/
def toSecret (s : Bytes) (label : String) : Except HaError Bytes := do
  ensure (32 ≤ s.length) (label ++ " must be >= 32 bytes")
  pure s

structure PgReplayNonceStoreOptions where
  retentionMs : Option JsNumber
  maxClockSkewMs : Option JsNumber

/-- `PgReplayNonceStore`. -/
structure PgReplayNonceStore where
  retentionMs : PosInt
  maxClockSkewMs : PosInt

/-- The constructor of `PgReplayNonceStore`. -/
def PgReplayNonceStore.new (opts : PgReplayNonceStoreOptions) :
    Except HaError PgReplayNonceStore := do
  let retentionMs ← posInt (opts.retentionMs.getD (.fin (120000 : ℤ))) "retentionMs"
  let maxClockSkewMs ← posInt (opts.maxClockSkewMs.getD (.fin (5000 : ℤ))) "maxClockSkewMs"
  pure ⟨retentionMs, maxClockSkewMs⟩

/-- `HttpOutboxReceiverOptions`. The store is there if it is one of the durable ones. -/
structure HttpOutboxReceiverOptions where
  expectedPath : JsString
  responseKeyId : JsString
  responseSecret : Bytes
  nonceStore : Option PgReplayNonceStore
  freshnessMs : Option JsNumber
  nonceSafetyMs : Option JsNumber
  maxBodyBytes : Option JsNumber
  bodyReadMs : Option JsNumber

/-- A receiver: what is retained of a nonce under the worst skew covers the time in which its
    request is acceptable, and the safety margin. -/
structure HttpOutboxReceiver where
  expectedPath : JsString
  responseKeyId : JsString
  respSecret : Bytes
  nonceStore : PgReplayNonceStore
  freshnessMs : PosInt
  safetyMs : PosInt
  maxBodyBytes : PosInt
  bodyReadMs : PosInt
  horizon : 2 * freshnessMs.1 + safetyMs.1 ≤
    nonceStore.retentionMs.1 - 2 * nonceStore.maxClockSkewMs.1

/-- `retentionMs - 2 * maxClockSkewMs`. -/
def PgReplayNonceStore.guaranteed (store : PgReplayNonceStore) : JsNumber :=
  (JsNumber.fin store.retentionMs.1).sub ((JsNumber.fin store.maxClockSkewMs.1).mulNat 2)

/-- `guaranteed >= 2 * freshnessMs + safetyMs`. -/
def PgReplayNonceStore.covers (store : PgReplayNonceStore) (freshnessMs safetyMs : PosInt) : Bool :=
  store.guaranteed.ge (((JsNumber.fin freshnessMs.1).mulNat 2).add (.fin safetyMs.1))

/-- Doubles do not blur the horizon. -/
theorem covers_iff (store : PgReplayNonceStore) (freshnessMs safetyMs : PosInt) :
    store.covers freshnessMs safetyMs = true ↔
      2 * freshnessMs.1 + safetyMs.1 ≤ store.retentionMs.1 - 2 * store.maxClockSkewMs.1 := by
  obtain ⟨⟨r, hr⟩, ⟨s, hs⟩⟩ := store
  obtain ⟨f, hf⟩ := freshnessMs
  obtain ⟨m, hm⟩ := safetyMs
  rw [Js.maxSafeInteger] at hr hs hf hm
  exact JsNumber.ge_horizon (r := r) (s := s) (f := f) (m := m) (by omega) (by omega) (by omega)
    (by omega) (by omega)

/-- The error of a retention that is too small. -/
def tooSmall (store : PgReplayNonceStore) (freshnessMs safetyMs : PosInt) : HaError :=
  .contractValidation ("nonce retention too small: guaranteed " ++
    Js.message (Js.numberText store.guaranteed) ++ "ms (retention " ++
    toString store.retentionMs.1 ++ " - 2*skew " ++ toString store.maxClockSkewMs.1 ++
    ") must be >= 2*freshness " ++
    Js.message (Js.numberText ((JsNumber.fin freshnessMs.1).mulNat 2)) ++ " + safety " ++
    toString safetyMs.1)

/-- `createHttpOutboxReceiver(opts)`. -/
def createHttpOutboxReceiver (opts : HttpOutboxReceiverOptions) :
    Except HaError HttpOutboxReceiver := do
  let freshnessMs ← posInt (opts.freshnessMs.getD (.fin (30000 : ℤ))) "freshnessMs"
  let safetyMs ← posInt (opts.nonceSafetyMs.getD (.fin (30000 : ℤ))) "nonceSafetyMs"
  let maxBodyBytes ← posInt (opts.maxBodyBytes.getD (.fin (65536 : ℤ))) "maxBodyBytes"
  let bodyReadMs ← posInt (opts.bodyReadMs.getD (.fin (10000 : ℤ))) "bodyReadMs"
  let nonceStore ← opts.nonceStore.elim
    (.error (.contractValidation "nonceStore is not a durable attested replay authority")) .ok
  ensure (opts.expectedPath.head? = some 47) "expectedPath must be an absolute request path"
  ensure (keyIdRe opts.responseKeyId = true) "invalid responseKeyId"
  let respSecret ← toSecret opts.responseSecret "responseSecret"
  if h : nonceStore.covers freshnessMs safetyMs = true then
    pure
      { expectedPath := opts.expectedPath, responseKeyId := opts.responseKeyId, respSecret
        nonceStore, freshnessMs, safetyMs, maxBodyBytes, bodyReadMs
        horizon := (covers_iff nonceStore freshnessMs safetyMs).mp h }
  else .error (tooSmall nonceStore freshnessMs safetyMs)

/-! ## Requests -/

/-- A header, which may have been sent several times. -/
inductive HeaderValue where
  | text (s : JsString)
  | list (values : List JsString)

/-- What the receiver reads of an `IncomingMessage` before its body. -/
structure HttpRequest where
  method : JsString
  url : Option JsString
  contentType : Option JsString
  headers : String → Option HeaderValue

/-- What is sent when a request is refused. -/
structure Reply where
  status : ℕ
  error : String
  deriving DecidableEq

/-- `header(req, name)`. -/
def header (req : HttpRequest) (name : String) : Option JsString :=
  (req.headers name).bind fun
    | .text s => some s
    | .list values => values.head?

/-- `s.toLowerCase()`, of ASCII letters. -/
def asciiLower (c : UInt16) : UInt16 :=
  if 65 ≤ c && c ≤ 90 then c + 32 else c

/-- `isJsonMime(ct)`. -/
def isJsonMime (ct : Option JsString) : Bool :=
  ct.any fun s => (Js.trim (s.takeWhile (· ≠ 59))).map asciiLower = Js.lit "application/json"

/-- `Buffer.from(a, 'base64url')`: whatever is not of the alphabet is passed over, up to the first
    padding. -/
def decodeBase64Url (a : JsString) : Bytes :=
  Js.fromBase64Url (a.takeWhile (· ≠ 61))

/-- `ctEqualB64u(a, expected)`. -/
def ctEqualB64u (a : JsString) (expected : Bytes) : Bool :=
  decodeBase64Url a = expected

/-- `frame(...parts)`. -/
def frame (parts : List JsString) : Bytes :=
  parts.flatMap fun p => Js.u32be (Js.utf8 p).length ++ Js.utf8 p

/-- The headers that authenticate a request. -/
structure Credentials where
  keyId : JsString
  ts : JsString
  nonce : JsString
  sig : JsString
  deriving DecidableEq

section Handler

variable (crypto : NodeCrypto) (recv : HttpOutboxReceiver)

/-- What is checked before the body is read. -/
def beforeBody (req : HttpRequest) : Except Reply Unit := do
  require (req.method = Js.lit "POST") ⟨405, "method not allowed"⟩
  require (req.url.getD [] = recv.expectedPath) ⟨404, "not found"⟩
  require (isJsonMime req.contentType = true) ⟨415, "unsupported media type"⟩

/-- The four headers, where each is there and has its form. -/
def credentials (req : HttpRequest) : Except Reply Credentials := do
  let cred : Credentials :=
    { keyId := (header req "x-bpc-key-id").getD [], ts := (header req "x-bpc-timestamp").getD []
      nonce := (header req "x-bpc-nonce").getD [], sig := (header req "x-bpc-signature").getD [] }
  require (cred.keyId ≠ [] ∧ cred.ts ≠ [] ∧ cred.nonce ≠ [] ∧ cred.sig ≠ [] ∧
    keyIdRe cred.keyId = true ∧ nonceRe cred.nonce = true) ⟨401, "unauthenticated"⟩
  pure cred

/-- Whether a timestamp is within `freshnessMs` of the clock. -/
def isFresh (ts : JsString) (currentTime : JsNumber) : Bool :=
  let tsNum := Js.stringToNumber ts
  tsNum.isSafeInteger && currentTime.isSafeInteger &&
    !JsNumber.lt (.fin recv.freshnessMs.1) (currentTime.sub tsNum).abs

/-- What is signed. -/
def signedMessage (req : HttpRequest) (cred : Credentials) (body : Bytes) : Bytes :=
  frame [Js.lit "BPCv1-req", cred.keyId, Js.lit "POST", req.url.getD [], cred.ts, cred.nonce,
    crypto.sha256hex body]

/-- What is checked between the end of the body and the nonce store. -/
def authenticate (req : HttpRequest) (body : Bytes) (resolveRequestKey : JsString → Option Bytes)
    (currentTime : JsNumber) : Except Reply Credentials := do
  let cred ← credentials req
  let secret ← (resolveRequestKey cred.keyId).elim (.error ⟨401, "unknown key"⟩) .ok
  require (32 ≤ secret.length) ⟨500, "ingest failed"⟩
  require (timestampRe cred.ts = true) ⟨401, "stale or invalid timestamp"⟩
  require (isFresh recv cred.ts currentTime = true) ⟨401, "stale or invalid timestamp"⟩
  require (ctEqualB64u cred.sig (crypto.hmac secret (signedMessage crypto req cred body)) = true)
    ⟨401, "bad signature"⟩
  pure cred

end Handler

/-! ## The nonce store -/

/-- `bpc_transport_nonce`: when each nonce expires. -/
abbrev NonceTable := JsString → Option ℚ

/-- `DELETE FROM bpc_transport_nonce WHERE expires_at < now()`. -/
def NonceTable.prune (t : NonceTable) (now : ℚ) : NonceTable :=
  fun nonce => (t nonce).filter fun expiresAt => now ≤ expiresAt

/-- `INSERT … ON CONFLICT (nonce) DO NOTHING`, with `rowCount === 1`. -/
def NonceTable.insert (t : NonceTable) (nonce : JsString) (expiresAt : ℚ) : Bool × NonceTable :=
  (t nonce).elim (true, Function.update t nonce (some expiresAt)) fun _ => (false, t)

/-- `(extract(epoch from now()) * 1000)::bigint`. -/
def dbMilliseconds (now : ℚ) : ℤ :=
  (now + 1 / 2).floor

/-- The transaction of `checkAndStore(nonce)`, begun at `now` by the clock of the database. -/
def PgReplayNonceStore.checkAndStore (store : PgReplayNonceStore) (nonce : JsString) (now : ℚ)
    (appNow : JsNumber) (t : NonceTable) : Except HaError (Bool × NonceTable) := do
  ensure (appNow.isSafeInteger = true ∧
      JsNumber.lt (.fin store.maxClockSkewMs.1)
        ((JsNumber.fin (dbMilliseconds now)).sub appNow).abs = false)
    "replay-nonce store: DB/app clock skew exceeds the allowed bound (fail closed)"
  pure ((t.prune now).insert nonce (now + store.retentionMs.1))

end Transport
