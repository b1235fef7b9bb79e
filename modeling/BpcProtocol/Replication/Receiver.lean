import BpcProtocol.Js.JsonImage
import BpcProtocol.Js.PropertyOrder
import BpcProtocol.Pair.MemoryStore
import BpcProtocol.Replication.Queue

set_option autoImplicit false

/-! # The replica receiver

What a replica accepts of a request: the envelope, its authentication, the operation, and the guard
that applies operations in the order of their numbers. A replica stores the records as `JSON.parse`
has read them. -/

namespace Replication

open Pair (StoredPair PairRegistration stringOf)
open Js (ownLe)

/-- `createHash('sha256')` and `createHmac('sha256', key)`, each with its digest in hexadecimal. -/
structure ReplicaCrypto where
  sha256 : Bytes → JsString
  hmacSha256 : Bytes → Bytes → JsString

/-! ## Operations on the wire -/

namespace ReplicaOp

def toJs : ReplicaOp → JsValue
  | .set pair => .object [(Js.lit "op", .string (Js.lit "set")), (Js.lit "pair", pair.toJs)]
  | .delete pairId =>
      .object [(Js.lit "op", .string (Js.lit "delete")), (Js.lit "pairId", .string pairId)]
  | .setPending token registration requestedAt =>
      .object
        [(Js.lit "op", .string (Js.lit "setPending")), (Js.lit "token", .string token),
          (Js.lit "registration", registration.toJs), (Js.lit "requestedAt", .number requestedAt)]
  | .deletePending token =>
      .object [(Js.lit "op", .string (Js.lit "deletePending")), (Js.lit "token", .string token)]

end ReplicaOp

mutual

/-- `sortValue(value)`: assigning to `__proto__` sets no property, and array indices come first. -/
def sortValue : JsValue → JsValue
  | .array items => .array (sortItems items)
  | .object fields => .object ((sortFields fields).insertionSort ownLe)
  | v => v

def sortItems : List JsValue → List JsValue
  | [] => []
  | v :: rest => sortValue v :: sortItems rest

def sortFields : List (JsString × JsValue) → List (JsString × JsValue)
  | [] => []
  | (k, v) :: rest =>
      if k = Js.lit "__proto__" then sortFields rest else (k, sortValue v) :: sortFields rest

end

/-- `canonicalJson(value)`, of a value that has a text. -/
def canonicalJson (value : JsValue) : JsString :=
  (Js.stringify (sortValue value)).getD []

/-- A `ReplicaEnvelope`, but for its version, which is a constant. -/
structure ReplicaEnvelope where
  sourceId : JsString
  sequence : ℕ
  sentAt : JsNumber
  op : JsValue

/-- `REPLICA_ENVELOPE_VERSION`. -/
def replicaEnvelopeVersion : JsString := Js.lit "bpc.replica.v1"

def ReplicaEnvelope.toJs (envelope : ReplicaEnvelope) : JsValue :=
  .object
    [(Js.lit "version", .string replicaEnvelopeVersion),
      (Js.lit "sourceId", .string envelope.sourceId),
      (Js.lit "sequence", .number (.fin (envelope.sequence : ℤ))),
      (Js.lit "sentAt", .number envelope.sentAt), (Js.lit "op", envelope.op)]

/-- `canonicalReplicaEnvelope(envelope)`. -/
def canonicalReplicaEnvelope (envelope : ReplicaEnvelope) : JsString :=
  canonicalJson envelope.toJs

/-! ## Authentication -/

/-- `signReplicaEnvelope(envelope, key)`, `none` where it throws: the key has less than 32 bytes. -/
def signReplicaEnvelope (c : ReplicaCrypto) (envelope : ReplicaEnvelope) (key : JsString) :
    Option JsString :=
  if (Js.utf8 key).length < 32 then none
  else some (c.hmacSha256 (Js.utf8 key) (Js.utf8 (canonicalReplicaEnvelope envelope)))

/-- `Buffer.from(s, 'hex')`: it ends before the first pair that is not hexadecimal. -/
def hexBytes : JsString → List ℕ
  | a :: b :: rest =>
      ((Js.hexValue a).bind fun hi => (Js.hexValue b).map fun lo =>
        (16 * hi + lo) :: hexBytes rest).getD []
  | _ => []

/-- `/^[0-9a-f]{64}$/i`. -/
def signaturePattern : JsString → Bool :=
  Js.classPattern (fun c => (Js.hexValue c).isSome) 64 64

/-- `verifyReplicaEnvelopeSignature(envelope, presentedSignature, key)`. -/
def verifyReplicaEnvelopeSignature (c : ReplicaCrypto) (envelope : ReplicaEnvelope)
    (presentedSignature : Option JsString) (key : JsString) : Bool :=
  presentedSignature.any fun presented =>
    signaturePattern presented &&
      (signReplicaEnvelope c envelope key).any fun expected => hexBytes presented == hexBytes expected

/-! ## Validation -/

/-- `/^[A-Za-z0-9_-]{1,64}$/`. -/
def isValidPairId : JsString → Bool :=
  Js.classPattern (fun c => Js.isAlnum c || Js.oneOf "_-" c) 1 64

/-- `/^[A-Za-z0-9_-]{43}$/`. -/
def is256Bits : JsString → Bool :=
  Js.classPattern (fun c => Js.isAlnum c || Js.oneOf "_-" c) 43 43

/-- `/^[A-Za-z0-9_.:-]{1,128}$/`. -/
def isSafeIdentifier : JsString → Bool :=
  Js.classPattern (fun c => Js.isAlnum c || Js.oneOf "_.:-" c) 1 128

/-- A text that satisfies `p`. -/
def isText (p : JsString → Bool) : JsValue → Bool
  | .string s => p s
  | _ => false

/-- A number that satisfies `p`. -/
def isNumber (p : JsNumber → Bool) : JsValue → Bool
  | .number n => p n
  | _ => false

def isObject : JsValue → Bool
  | .object _ => true
  | _ => false

/-- `v && typeof v === 'object'`. -/
def isComposite : JsValue → Bool
  | .object _ => true
  | .array _ => true
  | _ => false

def isUndefined : JsValue → Bool
  | .undefined => true
  | _ => false

def isNull : JsValue → Bool
  | .null => true
  | _ => false

/-- `Number.isSafeInteger(n) && n >= 0`. -/
def isSafeNat (n : JsNumber) : Bool :=
  n.isSafeInteger && !n.lt (.fin 0)

/-- One of the texts. -/
def isOneOf (texts : List JsString) : JsValue → Bool :=
  isText fun s => texts.contains s

/-- `VALID_SCOPES`. -/
def validScopes : List JsString := [Js.lit "read", Js.lit "read-write", Js.lit "admin"]

/-- `VALID_MODES`. -/
def validModes : List JsString := [Js.lit "development", Js.lit "production"]

/-- `VALID_STATUSES`. -/
def validStatuses : List JsString :=
  [Js.lit "active", Js.lit "locked", Js.lit "expired", Js.lit "rotated", Js.lit "revoked"]

/-- `VALID_PAIR_KINDS`. -/
def validPairKinds : List JsString := [Js.lit "legitimate", Js.lit "ghost"]

/-- `VALID_CANARY_CLASSES`. -/
def validCanaryClasses : List JsString :=
  [Js.lit "env_file", Js.lit "docs", Js.lit "registry_exfil"]

section Fields

variable (value : JsValue)

/-- `value[key]`. -/
def field (key : String) : JsValue := value.get (Js.lit key)

/-- `isValidJwk(jwk)`. -/
def isValidJwk : Bool :=
  isObject value && isText (· == Js.lit "EC") (field value "kty") &&
    isText (· == Js.lit "P-256") (field value "crv") && isText is256Bits (field value "x") &&
    isText is256Bits (field value "y")

/-- `isValidRegistration(value)`. -/
def isValidRegistration : Bool :=
  isObject value &&
    isText (fun s => decide (1 ≤ s.length) && decide (s.length ≤ 128)) (field value "name") &&
    isOneOf validScopes (field value "scope") && isOneOf validModes (field value "mode") &&
    isText is256Bits (field value "secretHash") && isValidJwk (field value "pubJwk")

/-- `pair.kind ?? 'legitimate'`. -/
def kindField : JsValue :=
  match field value "kind" with
  | .undefined => .string (Js.lit "legitimate")
  | .null => .string (Js.lit "legitimate")
  | kind => kind

/-- A canary class where the kind is `ghost`, and none otherwise. -/
def canaryIsValid : Bool :=
  if isText (· == Js.lit "ghost") (kindField value) then
    isOneOf validCanaryClasses (field value "canaryClass")
  else isUndefined (field value "canaryClass")

/-- A field that may be left out. -/
def isOptional (p : JsNumber → Bool) (v : JsValue) : Bool :=
  isUndefined v || isNumber p v

/-- A field that may be `null`. -/
def isNullable (p : JsNumber → Bool) (v : JsValue) : Bool :=
  isNull v || isNumber p v

/-- `isValidStoredPair(value)`. -/
def isValidStoredPair : Bool :=
  isValidRegistration value && isText isValidPairId (field value "id") &&
    isOneOf validStatuses (field value "status") && isNumber isSafeNat (field value "created") &&
    isNullable isSafeNat (field value "lastActive") &&
    isNumber isSafeNat (field value "requests") && isNumber isSafeNat (field value "failedSigs") &&
    isOptional (fun n => n.isFinite && !n.lt (.fin 0)) (field value "cumulativeFailures") &&
    (isUndefined (field value "firstFailureAt") ||
      isNullable isSafeNat (field value "firstFailureAt")) &&
    isOptional isSafeNat (field value "expiresAt") &&
    isOptional isSafeNat (field value "maxRequests") &&
    isOneOf validPairKinds (kindField value) && canaryIsValid value

end Fields

/-- A `ReplicaOp` as the receiver has validated it: the records are as they came. -/
inductive ReceivedOp where
  | set (pairId : JsString) (pair : JsValue)
  | delete (pairId : JsString)
  | setPending (token : JsString) (registration : JsValue) (requestedAt : JsNumber)
  | deletePending (token : JsString)

/-- The text of a value, empty where it is none. -/
def textOf (v : JsValue) : JsString :=
  (stringOf v).getD []

/-- The number of a value, `NaN` where it is none. -/
def numberOf : JsValue → JsNumber
  | .number n => n
  | _ => .nan

/-- A token of one to `MAX_TOKEN_LEN` characters. -/
def isValidToken : JsValue → Bool :=
  isText fun s => decide (s.length ≠ 0) && decide (s.length ≤ 256)

namespace ReceivedOp

def toJs : ReceivedOp → JsValue
  | .set _ pair => .object [(Js.lit "op", .string (Js.lit "set")), (Js.lit "pair", pair)]
  | .delete pairId =>
      .object [(Js.lit "op", .string (Js.lit "delete")), (Js.lit "pairId", .string pairId)]
  | .setPending token registration requestedAt =>
      .object
        [(Js.lit "op", .string (Js.lit "setPending")), (Js.lit "token", .string token),
          (Js.lit "registration", registration), (Js.lit "requestedAt", .number requestedAt)]
  | .deletePending token =>
      .object [(Js.lit "op", .string (Js.lit "deletePending")), (Js.lit "token", .string token)]

end ReceivedOp

/-- `replicaOperationDigest(op)`. -/
def replicaOperationDigest (c : ReplicaCrypto) (op : ReceivedOp) : JsString :=
  c.sha256 (Js.utf8 (canonicalJson op.toJs))

/-- `validateReplicaOp(body)`. -/
def validateReplicaOp (body : JsValue) : Except String ReceivedOp :=
  if isComposite body = false then .error "invalid_body"
  else if isText (· == Js.lit "set") (field body "op") = true then
    if isValidStoredPair (field body "pair") = true then
      .ok (.set (textOf (field (field body "pair") "id")) (field body "pair"))
    else .error "invalid_set"
  else if isText (· == Js.lit "delete") (field body "op") = true then
    if isText isValidPairId (field body "pairId") = true then
      .ok (.delete (textOf (field body "pairId")))
    else .error "invalid_delete"
  else if isText (· == Js.lit "setPending") (field body "op") = true then
    if isValidToken (field body "token") = false then .error "invalid_pending_token"
    else if isValidRegistration (field body "registration") = false then
      .error "invalid_pending_registration"
    else if isNumber JsNumber.isFinite (field body "requestedAt") = false then
      .error "invalid_pending_requestedAt"
    else
      .ok (.setPending (textOf (field body "token")) (field body "registration")
        (numberOf (field body "requestedAt")))
  else if isText (· == Js.lit "deletePending") (field body "op") = true then
    if isValidToken (field body "token") = true then
      .ok (.deletePending (textOf (field body "token")))
    else .error "invalid_pending_token"
  else .error "unknown_op"

/-- `validateReplicaEnvelope(body, expectedSourceId, nowMs)`, with `DEFAULT_REPLICA_FRESHNESS_MS`. -/
def validateReplicaEnvelope (body : JsValue) (expectedSourceId : JsString) (nowMs : JsNumber) :
    Except String ReplicaEnvelope :=
  if isObject body = false then .error "invalid_envelope"
  else if isText (· == replicaEnvelopeVersion) (field body "version") = false then
    .error "invalid_envelope_version"
  else if isText (fun s => s == expectedSourceId && isSafeIdentifier s) (field body "sourceId") =
      false then .error "invalid_replica_source"
  else if isNumber (fun n => n.isSafeInteger && !n.lt (.fin 1)) (field body "sequence") = false then
    .error "invalid_replica_sequence"
  else if isNumber JsNumber.isFinite (field body "sentAt") = false then
    .error "invalid_replica_timestamp"
  else if (JsNumber.fin 60000).lt (nowMs.sub (numberOf (field body "sentAt"))).abs = true then
    .error "replica_request_expired"
  else if isComposite (field body "op") = false then .error "invalid_replica_op"
  else if 65536 < (canonicalJson body).length then .error "replica_envelope_too_large"
  else
    .ok
      { sourceId := textOf (field body "sourceId")
        sequence := ((numberOf (field body "sequence")).toInt?.getD 0).toNat
        sentAt := numberOf (field body "sentAt")
        op := field body "op" }

/-! ## The guard -/

/-- What the guard keeps of a source: the last operation it has applied. -/
structure AppliedOp where
  sequence : ℕ
  operationDigest : JsString

/-- `MemoryReplicaApplyGuard`. -/
structure MemoryReplicaApplyGuard where
  lastBySource : OrderedMap JsString AppliedOp

namespace MemoryReplicaApplyGuard

variable (g : MemoryReplicaApplyGuard)

def empty : MemoryReplicaApplyGuard :=
  ⟨.empty⟩

/-- `lastSequence(sourceId)`. -/
def lastSequence (sourceId : JsString) : ℕ :=
  (g.lastBySource.get sourceId).elim 0 AppliedOp.sequence

/-- `this.lastBySource.set(sourceId, { sequence, operationDigest })`. -/
def commit (sourceId : JsString) (applied : AppliedOp) : MemoryReplicaApplyGuard :=
  ⟨g.lastBySource.set sourceId applied⟩

@[simp]
theorem lastSequence_empty (sourceId : JsString) : empty.lastSequence sourceId = 0 :=
  rfl

@[simp]
theorem lastSequence_commit (sourceId : JsString) (applied : AppliedOp) :
    (g.commit sourceId applied).lastSequence sourceId = applied.sequence := by
  simp [lastSequence, commit]

end MemoryReplicaApplyGuard

/-- What `applyIfNext` finds before it applies. -/
inductive Disposition where
  | duplicate
  | conflict
  | stale
  | gap
  | next
  deriving DecidableEq

/-- A call of `applyIfNext` that waits for its turn. -/
structure ApplyCall where
  sourceId : JsString
  sequence : ℕ
  operationDigest : JsString
  op : ReceivedOp

/-- The checks of `applyIfNext`. -/
def MemoryReplicaApplyGuard.disposition (g : MemoryReplicaApplyGuard) (call : ApplyCall) :
    Disposition :=
  if call.sequence = g.lastSequence call.sourceId then
    if ((g.lastBySource.get call.sourceId).map AppliedOp.operationDigest) =
        some call.operationDigest then .duplicate
    else .conflict
  else if call.sequence < g.lastSequence call.sourceId then .stale
  else if call.sequence ≠ g.lastSequence call.sourceId + 1 then .gap
  else .next

theorem disposition_next {g : MemoryReplicaApplyGuard} {call : ApplyCall}
    (h : g.disposition call = .next) : call.sequence = g.lastSequence call.sourceId + 1 := by
  unfold MemoryReplicaApplyGuard.disposition at h
  split_ifs at h with h1 h2 h3 h4
  exact not_not.mp h4

theorem disposition_duplicate {g : MemoryReplicaApplyGuard} {call : ApplyCall}
    (h : g.disposition call = .duplicate) : call.sequence = g.lastSequence call.sourceId := by
  unfold MemoryReplicaApplyGuard.disposition at h
  split_ifs at h with h1
  exact h1

/-! ## Ingest -/

/-- What a replica is configured with. -/
structure ReplicaConfig where
  expectedKey : JsString
  expectedSourceId : JsString

/-- `handleReplicaIngest` up to its call of `applyIfNext`, with the status and the error where it
    answers before. -/
def handleReplicaIngest (c : ReplicaCrypto) (cfg : ReplicaConfig) (signature : Option JsString)
    (body : JsValue) (nowMs : JsNumber) : Except (ℕ × String) ApplyCall := do
  let envelope ← (validateReplicaEnvelope body cfg.expectedSourceId nowMs).mapError fun e => (400, e)
  if verifyReplicaEnvelopeSignature c envelope signature cfg.expectedKey = false then
    .error (401, "unauthorized")
  else do
    let op ← (validateReplicaOp envelope.op).mapError fun e => (400, e)
    .ok
      { sourceId := envelope.sourceId
        sequence := envelope.sequence
        operationDigest := replicaOperationDigest c op
        op }

/-! ## The store of the replica -/

/-- The records of a replica. -/
structure ReplicaStore where
  pairs : OrderedMap JsString JsValue
  pending : OrderedMap JsString (JsValue × JsNumber)

namespace ReplicaStore

variable (s : ReplicaStore)

def empty : ReplicaStore :=
  ⟨.empty, .empty⟩

/-- What `applyReplicaOp(store, op)` writes. -/
def apply : ReceivedOp → ReplicaStore
  | .set pairId pair => { s with pairs := s.pairs.set pairId pair }
  | .delete pairId => { s with pairs := s.pairs.delete pairId }
  | .setPending token registration requestedAt =>
      { s with pending := s.pending.set token (registration, requestedAt) }
  | .deletePending token => { s with pending := s.pending.delete token }

end ReplicaStore

end Replication
