import BpcProtocol.Ha.Canonical

set_option autoImplicit false

/-! # Redis fence records

The signed record a Redis authority holds for a stream, and its digest, by which a cutover names
it. -/

namespace Ha

open Fallible

/-- `BareRedisFenceRecord`. -/
structure BareRedisFenceRecord where
  streamId : JsString
  epoch : ℤ
  nodeId : JsString
  authoritySystemId : JsString
  nodeCredentialKeyId : JsString
  commandId : JsString
  claimedAtMs : ℤ
  deriving DecidableEq, Repr

/-- `RedisFenceRecord`. -/
structure RedisFenceRecord extends BareRedisFenceRecord where
  keyId : JsString
  signature : JsString
  deriving DecidableEq, Repr

/-- `redisFenceMessage(value)`. -/
def redisFenceMessage (value : BareRedisFenceRecord) : Bytes :=
  frame [.text (Js.lit "bpc-redis-fence/v1"), .text value.streamId, .number value.epoch,
    .text value.nodeId, .text value.authoritySystemId, .text value.nodeCredentialKeyId,
    .text value.commandId, .number value.claimedAtMs]

/-- The checks on a record's fields, shared by `signRedisFenceRecord` and the member's `parse`. -/
def validateRedisFenceRecord (v : BareRedisFenceRecord) : Except HaError Unit := do
  id v.streamId streamRe "streamId"
  id v.nodeId idRe "nodeId"
  id v.commandId idRe "commandId"
  id v.nodeCredentialKeyId keyRe "nodeCredentialKeyId"
  ensure (digits v.authoritySystemId = true) "invalid authoritySystemId"
  let _ ← safeInt v.epoch "epoch" 1 maxEpoch
  let _ ← safeInt v.claimedAtMs "claimedAtMs" 0 maxMs

/-- The record as the object it is. -/
def RedisFenceRecord.toValue (v : RedisFenceRecord) : JsValue :=
  .object [(Js.lit "streamId", .string v.streamId), (Js.lit "epoch", .number (.fin v.epoch)),
    (Js.lit "nodeId", .string v.nodeId),
    (Js.lit "authoritySystemId", .string v.authoritySystemId),
    (Js.lit "nodeCredentialKeyId", .string v.nodeCredentialKeyId),
    (Js.lit "commandId", .string v.commandId),
    (Js.lit "claimedAtMs", .number (.fin v.claimedAtMs)), (Js.lit "keyId", .string v.keyId),
    (Js.lit "signature", .string v.signature)]

variable (c : Crypto)

/-- `signRedisFenceRecord(keyId, key, bare)`. -/
def signRedisFenceRecord (keyId : JsString) (key : c.PrivateKey) (bare : BareRedisFenceRecord) :
    Except HaError RedisFenceRecord := do
  validateRedisFenceRecord bare
  let signature ← sign c keyId key (redisFenceMessage bare)
  pure { bare with keyId, signature }

/-- `redisFenceRecordDigest(v)`. -/
def redisFenceRecordDigest (v : RedisFenceRecord) : Except HaError JsString := do
  let text ← canonicalize v.toValue
  pure (c.sha256 (frame [.text (Js.lit "bpc-redis-record-digest/v1"), .text text]))

end Ha
