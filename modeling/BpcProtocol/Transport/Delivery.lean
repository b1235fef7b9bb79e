import BpcProtocol.Ha.Snapshot
import BpcProtocol.Js.Decoding
import BpcProtocol.Lib.History
import BpcProtocol.Transport.Receiver

set_option autoImplicit false

/-! # Delivery over HTTP

`HttpOutboxTransport` sends a record in a signed request, and returns the receipt of a reply that is
authenticated for this attempt. The handler of `createHttpOutboxReceiver` authenticates a request,
burns its nonce, has the record processed, and signs the receipt for this request. What the network,
the clocks and the callbacks answer is up to them. -/

namespace Transport

open Fallible Ha Async

/-! ## Receipts -/

/-- `AckReceipt`. -/
structure AckReceipt where
  streamId : JsString
  sourceEpoch : JsString
  sequence : JsNumber
  opDigest : JsString
  decision : JsString
  receiverId : JsString
  keyId : JsString
  issuedAt : JsString
  signature : JsString
  deriving DecidableEq

/-- `RECEIPT_KEYS`. -/
def receiptKeys : List String :=
  ["streamId", "sourceEpoch", "sequence", "opDigest", "decision", "receiverId", "keyId", "issuedAt",
    "signature"]

def AckReceipt.fields (r : AckReceipt) : List (JsString × JsValue) :=
  [(Js.lit "streamId", .string r.streamId), (Js.lit "sourceEpoch", .string r.sourceEpoch),
    (Js.lit "sequence", .number r.sequence), (Js.lit "opDigest", .string r.opDigest),
    (Js.lit "decision", .string r.decision), (Js.lit "receiverId", .string r.receiverId),
    (Js.lit "keyId", .string r.keyId), (Js.lit "issuedAt", .string r.issuedAt),
    (Js.lit "signature", .string r.signature)]

/-- The receipt as the object it is. -/
def AckReceipt.toValue (r : AckReceipt) : JsValue :=
  .object r.fields

/-- `isPlainObject(o)`. -/
def isPlainObject : JsValue → Bool
  | .object _ => true
  | _ => false

/-- `hasExactKeys(o, keys)`, of a plain object. -/
def hasExactKeys (o : JsValue) (keys : List String) : Bool :=
  match o with
  | .object fields =>
      decide (fields.length = keys.length) && keys.all fun k => fields.any fun f => f.1 == Js.lit k
  | _ => false

/-- `typeof v === 'string'`. -/
def stringOf : JsValue → Option JsString
  | .string s => some s
  | _ => none

/-- `typeof v === 'number'`. -/
def numberOf : JsValue → Option JsNumber
  | .number n => some n
  | _ => none

/-- A property of a receipt, which has a type. -/
def receiptProperty {α : Type} (read : JsValue → Option α) (type : String) (o : JsValue)
    (k : String) : Except HaError α :=
  (read (o.get (Js.lit k))).elim (.error (.contractValidation
    ("receipt." ++ k ++ " must be an enumerable data property of type " ++ type))) .ok

/-- `strictReceipt(o)`. -/
def strictReceipt (o : JsValue) : Except HaError AckReceipt := do
  ensure (hasExactKeys o receiptKeys = true) "receipt has an invalid key set"
  let streamId ← receiptProperty stringOf "string" o "streamId"
  let sourceEpoch ← receiptProperty stringOf "string" o "sourceEpoch"
  let sequence ← receiptProperty numberOf "number" o "sequence"
  let opDigest ← receiptProperty stringOf "string" o "opDigest"
  let decision ← receiptProperty stringOf "string" o "decision"
  let receiverId ← receiptProperty stringOf "string" o "receiverId"
  let keyId ← receiptProperty stringOf "string" o "keyId"
  let issuedAt ← receiptProperty stringOf "string" o "issuedAt"
  let signature ← receiptProperty stringOf "string" o "signature"
  pure ⟨streamId, sourceEpoch, sequence, opDigest, decision, receiverId, keyId, issuedAt, signature⟩

/-! ## Framed messages -/

/-- A length that `writeUInt32BE` writes. -/
def Fits (part : JsString) : Prop :=
  (Js.utf8 part).length < 0x100000000

instance (part : JsString) : Decidable (Fits part) :=
  inferInstanceAs (Decidable ((Js.utf8 part).length < 0x100000000))

/-- What is framed of a request. -/
def requestParts (keyId path ts nonce bodyDigest : JsString) : List JsString :=
  [Js.lit "BPCv1-req", keyId, Js.lit "POST", path, ts, nonce, bodyDigest]

/-- What is framed of a reply. -/
def ackParts (keyId challenge requestDigest path receipt : JsString) : List JsString :=
  [Js.lit "BPCv1-ack", keyId, challenge, requestDigest, path, receipt]

/-! ## Errors -/

/-- `OutboxTransportError`. -/
structure OutboxTransportError where
  message : String
  retriable : Bool
  deriving DecidableEq

def terminal (m : String) : OutboxTransportError :=
  ⟨m, false⟩

def transient (m : String) : OutboxTransportError :=
  ⟨m, true⟩

/-- What a callback throws. -/
inductive Thrown where
  | transport (e : OutboxTransportError)
  | ackVerificationUnavailable
  | other
  deriving DecidableEq

/-- What `deliverAndAwaitAck` throws. -/
inductive DeliverError where
  | contract (e : HaError)
  | transport (e : OutboxTransportError)
  | thrown (e : Thrown)
  | builtin (name : String)
  deriving DecidableEq

/-- `frame(...parts)`, where no length is out of range. -/
def framed (parts : List JsString) : Except DeliverError Bytes := do
  require (∀ part ∈ parts, Fits part) (.builtin "RangeError")
  pure (frame parts)

/-- `classifyStatus(status)`. -/
def classifyStatus (status : JsNumber) : OutboxTransportError :=
  let m := "transport received HTTP " ++ Js.message (Js.numberText status)
  if JsNumber.ge status (.fin 500) = true ∨ status.eq (.fin 408) = true ∨
      status.eq (.fin 429) = true then transient m
  else terminal m

/-! ## Operations -/

/-- What is handed to `fetch`, with the headers that authenticate it. -/
structure OutgoingRequest where
  url : JsString
  keyId : JsString
  ts : JsString
  nonce : JsString
  sig : JsString
  body : JsString
  deriving DecidableEq

/-- `FetchResponseLike`, before its body is read. -/
structure FetchResponse where
  status : JsNumber
  contentType : Option JsString
  contentLength : Option JsString
  hasBody : Bool

/-- What a read of a response body comes to. -/
inductive Read where
  | chunk (bytes : Bytes)
  | done
  | failed (e : Thrown)

/-- What an incoming request emits. -/
inductive Arrival where
  | data (bytes : Bytes)
  | ended
  | failed (message : String)

/-- What is awaited in the race with the deadline of a delivery. -/
inductive Awaited (α : Type) where
  | value (a : α)
  | threw (e : Thrown)
  | deadline

/-- What an attempt or a handler asks of its environment: `checkMac` is
    `ctEqualB64u(sig, hmac(key, message))`. -/
inductive Op where
  | nonce
  | now
  | mac (key message : Bytes)
  | checkMac (key message : Bytes) (sig : JsString)
  | fetch (request : OutgoingRequest)
  | readReply
  | resolveResponseKey (keyId : JsString)
  | verifyAck (receipt : AckReceipt) (record : JsValue)
  | readRequest
  | resolveRequestKey (keyId : JsString)
  | checkAndStore (nonce : JsString)
  | receive (record : JsValue)

/-- The answers. Of a body that stops arriving there is a last read or event. -/
@[reducible]
def Ans : Op → Type
  | .nonce => Except Thrown JsString
  | .now => Except Thrown JsNumber
  | .mac _ _ => Bytes
  | .checkMac _ _ _ => Bool
  | .fetch _ => Awaited FetchResponse
  | .readReply => List Read
  | .resolveResponseKey _ => Except Thrown (Option Bytes)
  | .verifyAck _ _ => Awaited Unit
  | .readRequest => List Arrival
  | .resolveRequestKey _ => Except Thrown (Option Bytes)
  | .checkAndStore _ => Except Thrown Bool
  | .receive _ => Except Thrown JsValue

/-- How a call fails: a delivery throws, a request is refused. -/
inductive Failure where
  | rejected (e : DeliverError)
  | refused (reply : Reply)
  deriving DecidableEq

abbrev Exchange (α : Type) :=
  Prog Op Ans Failure α

variable {α : Type}

/-- What a delivery computes, or throws. -/
def orReject (x : Except DeliverError α) : Exchange α :=
  .lift (x.mapError .rejected)

/-- What a handler computes, or refuses the request for. -/
def orRefuse (x : Except Reply α) : Exchange α :=
  .lift (x.mapError .refused)

/-- What a callback of a delivery returns. -/
def orRethrow (x : Except Thrown α) : Exchange α :=
  orReject (x.mapError .thrown)

/-- `throw terminal(m)` unless `p`. -/
def demand (p : Prop) [Decidable p] (m : String) : Exchange Unit :=
  orReject (require p (.transport (terminal m)))

/-- Whatever a handler throws is answered alike. -/
def ingestFailed : Reply :=
  ⟨500, "ingest failed"⟩

/-- What a handler goes on with, where nothing is thrown. -/
def orFail {ε : Type} (x : Except ε α) : Exchange α :=
  orRefuse (x.mapError fun _ => ingestFailed)

/-! ## The sender -/

/-- A `URL`, as far as it is read. What is serialized of the path is ASCII. -/
structure Url where
  href : JsString
  protocol : JsString
  username : JsString
  password : JsString
  pathname : JsString
  search : JsString
  hash : JsString
  ascii : Js.Ascii (pathname ++ search)

/-- `HttpOutboxTransportOptions`. There is no `url` where none could be parsed. -/
structure HttpOutboxTransportOptions where
  url : Option Url
  requestKeyId : JsString
  requestSecret : Bytes
  timeoutMs : Option JsNumber
  maxResponseBytes : Option JsNumber
  maxRequestBytes : Option JsNumber

/-- `HttpOutboxTransport`. -/
structure HttpOutboxTransport where
  url : Url
  requestKeyId : JsString
  reqSecret : Bytes
  timeoutMs : PosInt
  maxResponseBytes : PosInt
  maxRequestBytes : PosInt

namespace HttpOutboxTransport

/-- The constructor. -/
def new (opts : HttpOutboxTransportOptions) : Except DeliverError HttpOutboxTransport := do
  (ensure (keyIdRe opts.requestKeyId = true) "invalid requestKeyId").mapError .contract
  let url ← opts.url.elim (.error (.builtin "TypeError")) .ok
  Except.mapError .contract do
    ensure (url.protocol = Js.lit "http:" ∨ url.protocol = Js.lit "https:")
      "transport url must be http(s)"
    ensure (url.username = [] ∧ url.password = []) "transport url must not embed credentials"
    ensure (url.hash = []) "transport url must not contain a fragment"
    let reqSecret ← toSecret opts.requestSecret "requestSecret"
    let timeoutMs ← posInt (opts.timeoutMs.getD (.fin (5000 : ℤ))) "timeoutMs"
    let maxResponseBytes ←
      posInt (opts.maxResponseBytes.getD (.fin (65536 : ℤ))) "maxResponseBytes"
    let maxRequestBytes ← posInt (opts.maxRequestBytes.getD (.fin (65536 : ℤ))) "maxRequestBytes"
    pure ⟨url, opts.requestKeyId, reqSecret, timeoutMs, maxResponseBytes, maxRequestBytes⟩

variable (crypto : NodeCrypto) (t : HttpOutboxTransport)

/-- `this.path`. -/
def path : JsString :=
  t.url.pathname ++ t.url.search

/-- What the deadline of a delivery rejects with. -/
def deadlineExceeded : DeliverError :=
  .transport (transient ("transport deadline " ++ toString t.timeoutMs.1 ++ "ms exceeded"))

/-- `readCapped(res, signal)`, behind what has been read. -/
def readCapped (read : Bytes) : List Read → Except DeliverError Bytes
  | [] => .error t.deadlineExceeded
  | .done :: _ => .ok read
  | .failed e :: _ => .error (.thrown e)
  | .chunk bytes :: rest =>
      if t.maxResponseBytes.1 < (read.length + bytes.length : ℕ) then
        .error (.transport (terminal "transport reply too large"))
      else readCapped (read ++ bytes) rest

/-- The members of an envelope that are read. -/
structure Envelope where
  keyId : JsString
  challenge : JsString
  requestDigest : JsString
  receipt : JsValue
  sig : JsString

/-- `ENVELOPE_KEYS`. -/
def envelopeKeys : List String :=
  ["v", "keyId", "challenge", "requestDigest", "receipt", "sig"]

/-- A reply that has the form of an envelope. -/
def envelopeOf (env : JsValue) : Option Envelope := do
  let v ← stringOf (env.get (Js.lit "v"))
  let keyId ← stringOf (env.get (Js.lit "keyId"))
  let challenge ← stringOf (env.get (Js.lit "challenge"))
  let requestDigest ← stringOf (env.get (Js.lit "requestDigest"))
  let sig ← stringOf (env.get (Js.lit "sig"))
  if hasExactKeys env envelopeKeys = true ∧ v = Js.lit "BPCv1-ack" then
    some ⟨keyId, challenge, requestDigest, env.get (Js.lit "receipt"), sig⟩
  else none

/-- The envelope of a reply, where it is bound to the attempt. -/
def openEnvelope (text sentNonce sentBodyDigest : JsString) : Except DeliverError Envelope := do
  let env ← (Js.parseJson text).elim
    (.error (.transport (terminal "transport reply is not valid JSON"))) .ok
  let env ← (envelopeOf env).elim
    (.error (.transport (terminal "transport reply envelope malformed"))) .ok
  require (env.challenge = sentNonce ∧ env.requestDigest = sentBodyDigest)
    (.transport (terminal "transport reply not bound to this request attempt"))
  pure env

/-- The secret and the message that the MAC of an envelope is checked with, and its receipt. -/
def ackMessage (env : Envelope) (respSecretRaw : Option Bytes) :
    Except DeliverError (Bytes × Bytes × AckReceipt) := do
  let raw ← respSecretRaw.elim
    (.error (.transport (terminal "transport reply signed under an unknown response key"))) .ok
  let respSecret ← (toSecret raw "resolved response secret").mapError .contract
  let receipt ← (strictReceipt env.receipt).mapError fun _ =>
    .transport (terminal "transport reply receipt malformed")
  let text ← (canonicalize receipt.toValue).mapError .contract
  let message ← framed (ackParts env.keyId env.challenge env.requestDigest t.path text)
  pure (respSecret, message, receipt)

/-- Whether a receipt names a record. -/
def bindsTo (receipt : AckReceipt) (record : JsValue) : Prop :=
  stringOf (record.get (Js.lit "streamId")) = some receipt.streamId ∧
    stringOf (record.get (Js.lit "sourceEpoch")) = some receipt.sourceEpoch ∧
    numberOf (record.get (Js.lit "sequence")) = some receipt.sequence ∧
    stringOf (record.get (Js.lit "opDigest")) = some receipt.opDigest

instance (receipt : AckReceipt) (record : JsValue) : Decidable (bindsTo receipt record) :=
  inferInstanceAs (Decidable (_ ∧ _ ∧ _ ∧ _))

/-- What comes of `ackVerifier.verify`. -/
def verified : Awaited Unit → Except DeliverError Unit
  | .value _ => .ok ()
  | .threw .ackVerificationUnavailable =>
      .error (.transport (transient "transport reply ack verifier unavailable"))
  | .threw _ =>
      .error (.transport (terminal "transport reply ack signature/authorization invalid"))
  | .deadline => .error t.deadlineExceeded

/-- `verifyEnvelope(text, record, sentNonce, sentBodyDigest)`. -/
def verifyEnvelope (text : JsString) (record : JsValue) (sentNonce sentBodyDigest : JsString) :
    Exchange AckReceipt := do
  let env ← orReject (openEnvelope text sentNonce sentBodyDigest)
  let respSecretRaw ← Prog.perform (.resolveResponseKey env.keyId)
  let respSecretRaw ← orRethrow respSecretRaw
  let (respSecret, message, receipt) ← orReject (t.ackMessage env respSecretRaw)
  let valid ← Prog.perform (.checkMac respSecret message env.sig)
  demand (valid = true) "transport reply envelope MAC invalid"
  demand (bindsTo receipt record) "transport reply does not bind to the delivered record"
  let outcome ← Prog.perform (.verifyAck receipt record)
  orReject (t.verified outcome)
  pure receipt

/-- What comes of `fetch`. -/
def fetched : Awaited FetchResponse → Except DeliverError FetchResponse
  | .value res => .ok res
  | .threw (.transport e) => .error (.transport e)
  | .threw _ => .error (.transport (transient "transport request failed"))
  | .deadline => .error t.deadlineExceeded

/-- What is checked of a response before its body is read. -/
def checkResponse (res : FetchResponse) : Except DeliverError Unit := do
  require (res.status.eq (.fin 200) = true) (.transport (classifyStatus res.status))
  require (isJsonMime res.contentType = true)
    (.transport (terminal "transport reply is not application/json"))
  let cl := Js.stringToNumber (res.contentLength.getD (Js.lit "NaN"))
  require (¬(cl.isFinite = true ∧ JsNumber.lt (.fin t.maxResponseBytes.1) cl = true))
    (.transport (terminal "transport reply too large"))
  require (res.hasBody = true)
    (.transport (terminal "transport response has no readable body stream"))

/-- `doDeliver(record, body, bodyDigest, ts, nonce, signal)`. -/
def doDeliver (record : JsValue) (body bodyDigest ts nonce : JsString) : Exchange AckReceipt := do
  let message ← orReject (framed (requestParts t.requestKeyId t.path ts nonce bodyDigest))
  let mac ← Prog.perform (.mac t.reqSecret message)
  let res ← Prog.perform (.fetch
    { url := t.url.href, keyId := t.requestKeyId, ts, nonce, sig := Js.toBase64Url mac, body })
  let res ← orReject (t.fetched res)
  orReject (t.checkResponse res)
  let reads ← Prog.perform .readReply
  let bytes ← orReject (t.readCapped [] reads)
  t.verifyEnvelope (Js.fromUtf8 bytes) record nonce bodyDigest

/-- The text of a record and the record read back from it, where it is not too large. -/
def captureRecord (record : OutboxRecord) : Except DeliverError (JsString × JsValue) := do
  let body ← (canonicalize record.toValue).mapError .contract
  let capturedRecord ← (Js.parseJson body).elim (.error (.builtin "SyntaxError")) .ok
  let size := (Js.utf8 body).length
  require (¬t.maxRequestBytes.1 < size) (.transport (terminal ("request body " ++ toString size ++
    "B exceeds maxRequestBytes " ++ toString t.maxRequestBytes.1 ++ "B")))
  pure (body, capturedRecord)

/-- `deliverAndAwaitAck(record)`. -/
def deliverAndAwaitAck (record : OutboxRecord) : Exchange AckReceipt := do
  let (body, capturedRecord) ← orReject (t.captureRecord record)
  let nonce ← Prog.perform .nonce
  let nonce ← orRethrow nonce
  demand (nonceRe nonce = true) "nonce generator produced an invalid nonce"
  let tnum ← Prog.perform .now
  let tnum ← orRethrow tnum
  demand (tnum.isSafeInteger = true) "clock produced a non-integer timestamp"
  t.doDeliver capturedRecord body (crypto.sha256hex (Js.utf8 body)) (Js.numberText tnum) nonce

end HttpOutboxTransport

/-! ## The handler -/

namespace HttpOutboxReceiver

variable (crypto : NodeCrypto) (recv : HttpOutboxReceiver)

/-- `readBodyCapped(req, maxBytes, readMs)`, behind what has arrived; the timer fires where nothing
    more arrives. -/
def readBodyCapped (arrived : Bytes) : List Arrival → Except String Bytes
  | [] => .error "timeout"
  | .ended :: _ => .ok arrived
  | .failed message :: _ => .error message
  | .data bytes :: rest =>
      if recv.maxBodyBytes.1 < (arrived.length + bytes.length : ℕ) then .error "too large"
      else readBodyCapped (arrived ++ bytes) rest

/-- The answer to a body that could not be read. -/
def readFailed (message : String) : Reply :=
  ⟨if message = "timeout" then 408 else 413, "body read failed"⟩

/-- What is computed between the answer of `receive` and the MAC of the reply. -/
def ackMessage (req : HttpRequest) (cred : Credentials) (body : Bytes) (received : JsValue) :
    Except DeliverError (Bytes × AckReceipt) := do
  let receipt ← (strictReceipt received).mapError .contract
  let text ← (canonicalize receipt.toValue).mapError .contract
  let message ← framed (ackParts recv.responseKeyId cred.nonce (crypto.sha256hex body)
    (req.url.getD []) text)
  pure (message, receipt)

/-- The envelope of a reply, as the object it is. -/
def envelope (cred : Credentials) (body : Bytes) (receipt : AckReceipt) (mac : Bytes) : JsValue :=
  .object [(Js.lit "v", .string (Js.lit "BPCv1-ack")), (Js.lit "keyId", .string recv.responseKeyId),
    (Js.lit "challenge", .string cred.nonce),
    (Js.lit "requestDigest", .string (crypto.sha256hex body)), (Js.lit "receipt", receipt.toValue),
    (Js.lit "sig", .string (Js.toBase64Url mac))]

/-- The handler until the nonce is stored. -/
def acceptRequest (req : HttpRequest) : Exchange (Credentials × Bytes) := do
  orRefuse (beforeBody recv req)
  let arrivals ← Prog.perform .readRequest
  let body ← orRefuse ((recv.readBodyCapped [] arrivals).mapError readFailed)
  let cred ← orRefuse (credentials req)
  let secretRaw ← Prog.perform (.resolveRequestKey cred.keyId)
  let secretRaw ← orFail secretRaw
  let secret ← orRefuse (secretRaw.elim (.error ⟨401, "unknown key"⟩) .ok)
  orRefuse (require (32 ≤ secret.length) ingestFailed)
  orRefuse (require (timestampRe cred.ts = true) ⟨401, "stale or invalid timestamp"⟩)
  let currentTime ← Prog.perform .now
  let currentTime ← orFail currentTime
  orRefuse (require (isFresh recv cred.ts currentTime = true) ⟨401, "stale or invalid timestamp"⟩)
  let message ← orFail (framed (requestParts cred.keyId (req.url.getD []) cred.ts cred.nonce
    (crypto.sha256hex body)))
  let valid ← Prog.perform (.checkMac secret message cred.sig)
  orRefuse (require (valid = true) ⟨401, "bad signature"⟩)
  let stored ← Prog.perform (.checkAndStore cred.nonce)
  let stored ← orFail stored
  orRefuse (require (stored = true) ⟨401, "replay"⟩)
  pure (cred, body)

/-- The handler of `createHttpOutboxReceiver(opts)`: what it answers a request with. -/
def handle (req : HttpRequest) : Exchange JsString := do
  let (cred, body) ← recv.acceptRequest crypto req
  let parsed ← orRefuse ((Js.parseJson (Js.fromUtf8 body)).elim (.error ⟨400, "invalid json"⟩) .ok)
  orRefuse (require (isPlainObject parsed = true) ⟨400, "invalid record"⟩)
  let received ← Prog.perform (.receive parsed)
  let received ← orFail received
  let (message, receipt) ← orFail (recv.ackMessage crypto req cred body received)
  let mac ← Prog.perform (.mac recv.respSecret message)
  orFail (canonicalize (recv.envelope crypto cred body receipt mac))

end HttpOutboxReceiver

/-! ## Attempts and requests -/

/-- A call: the delivery of a record by a transport, or the handling of a request. -/
inductive Job where
  | deliver (t : HttpOutboxTransport) (record : OutboxRecord)
  | handle (req : HttpRequest)

/-- What a call comes to. -/
inductive Outcome where
  | acknowledged (receipt : AckReceipt)
  | replied (payload : JsString)
  deriving DecidableEq

/-- What the environment may answer: anything, but for the MACs. -/
def Answers (crypto : NodeCrypto) : (o : Op) → Ans o → Prop
  | .mac key message, x => x = crypto.hmac key message
  | .checkMac key message sig, x => x = ctEqualB64u sig (crypto.hmac key message)
  | _, _ => True

/-- Attempts of any transports, and requests of any kind to one receiver. -/
def deliveryService (crypto : NodeCrypto) (recv : HttpOutboxReceiver) :
    Service Job Op Ans Failure Outcome Unit where
  body
    | .deliver t record => .acknowledged <$> t.deliverAndAwaitAck crypto record
    | .handle req => .replied <$> recv.handle crypto req
  admits
    | .deliver _ record => record.toValue.DistinctKeys
    | .handle _ => True
  init _ := True
  exec _ o x _ := Answers crypto o x
  env _ _ := False

def deliverySystem (crypto : NodeCrypto) (recv : HttpOutboxReceiver) (ι : Type) [DecidableEq ι] :
    Transition.System (Config ι Job Op Ans Failure Outcome Unit) :=
  (deliveryService crypto recv).system ι

end Transport
