import BpcProtocol.Js.Arithmetic
import BpcProtocol.Js.Json
import BpcProtocol.Lib.OrderedMap

set_option autoImplicit false

/-! # Stored pairs

The records of the pair registry: pairs, registrations that wait for approval, and what a caller may
change of a pair. -/

namespace Pair

/-! ## Enumerations -/

/-- `StoredPair['status']`. -/
inductive PairStatus where
  | active
  | locked
  | expired
  | rotated
  | revoked
  deriving DecidableEq, Repr

/-- `PairKind`. -/
inductive PairKind where
  | legitimate
  | ghost
  deriving DecidableEq, Repr

/-- `CanaryClass`. -/
inductive CanaryClass where
  | envFile
  | docs
  | registryExfil
  deriving DecidableEq, Repr

def PairStatus.text : PairStatus → JsString
  | active => Js.lit "active"
  | locked => Js.lit "locked"
  | expired => Js.lit "expired"
  | rotated => Js.lit "rotated"
  | revoked => Js.lit "revoked"

def PairKind.text : PairKind → JsString
  | legitimate => Js.lit "legitimate"
  | ghost => Js.lit "ghost"

def CanaryClass.text : CanaryClass → JsString
  | envFile => Js.lit "env_file"
  | docs => Js.lit "docs"
  | registryExfil => Js.lit "registry_exfil"

/-! ## Keys -/

mutual

/-- Plain data: `structuredClone` copies it and `JSON.stringify` writes it. -/
def isData : JsValue → Bool
  | .array items => itemsAreData items
  | .object fields => fieldsAreData fields
  | .other => false
  | _ => true

def itemsAreData : List JsValue → Bool
  | [] => true
  | v :: rest => isData v && itemsAreData rest

def fieldsAreData : List (JsString × JsValue) → Bool
  | [] => true
  | (_, v) :: rest => isData v && fieldsAreData rest

end

/-- A `JsonWebKey`: plain data, as a request or a registration carries it. -/
abbrev JsonWebKey := { jwk : JsValue // isData jwk = true }

/-- `jwk[key]`. -/
def JsonWebKey.get (jwk : JsonWebKey) (key : String) : JsValue :=
  jwk.1.get (Js.lit key)

/-! ## Records -/

/-- `StoredPair`. -/
structure StoredPair where
  id : JsString
  name : JsString
  scope : JsString
  mode : JsString
  secretHash : JsString
  pubJwk : JsonWebKey
  status : PairStatus
  created : JsNumber
  lastActive : Option JsNumber
  requests : JsNumber
  failedSigs : JsNumber
  cumulativeFailures : Option JsNumber
  firstFailureAt : Option (Option JsNumber)
  expiresAt : Option JsNumber
  maxRequests : Option JsNumber
  kind : Option PairKind
  canaryClass : Option CanaryClass

/-- `PairRegistration`. -/
structure PairRegistration where
  name : JsString
  scope : JsString
  mode : JsString
  secretHash : JsString
  pubJwk : JsonWebKey
  expiresAt : Option JsNumber
  maxRequests : Option JsNumber
  kind : Option PairKind
  canaryClass : Option CanaryClass

/-- A registration that waits for its approval. -/
structure PendingPairing where
  registration : PairRegistration
  requestedAt : JsNumber

/-- What `updatePair` is asked to change: `none` where a name is not among the updates, and an inner
    `none` where it is there with the value `undefined`. -/
structure PairUpdates where
  scope : Option JsString
  expiresAt : Option (Option JsNumber)
  maxRequests : Option (Option JsNumber)
  name : Option JsString

/-! ## Their text -/

/-- The fields of an object literal, of which those without a value are left out. -/
def present (fields : List (String × Option JsValue)) : JsValue :=
  .object (fields.filterMap fun f => f.2.map fun v => (Js.lit f.1, v))

/-- A number or `null`. -/
def nullable (n : Option JsNumber) : JsValue :=
  (n.map JsValue.number).getD .null

def StoredPair.toJs (p : StoredPair) : JsValue :=
  present
    [("id", some (.string p.id)),
     ("name", some (.string p.name)),
     ("scope", some (.string p.scope)),
     ("mode", some (.string p.mode)),
     ("secretHash", some (.string p.secretHash)),
     ("pubJwk", some p.pubJwk.1),
     ("expiresAt", p.expiresAt.map .number),
     ("maxRequests", p.maxRequests.map .number),
     ("status", some (.string p.status.text)),
     ("created", some (.number p.created)),
     ("lastActive", some (nullable p.lastActive)),
     ("requests", some (.number p.requests)),
     ("failedSigs", some (.number p.failedSigs)),
     ("cumulativeFailures", p.cumulativeFailures.map .number),
     ("firstFailureAt", p.firstFailureAt.map nullable),
     ("kind", p.kind.map fun k => .string k.text),
     ("canaryClass", p.canaryClass.map fun c => .string c.text)]

def PairRegistration.toJs (r : PairRegistration) : JsValue :=
  present
    [("name", some (.string r.name)),
     ("scope", some (.string r.scope)),
     ("mode", some (.string r.mode)),
     ("secretHash", some (.string r.secretHash)),
     ("pubJwk", some r.pubJwk.1),
     ("expiresAt", r.expiresAt.map .number),
     ("maxRequests", r.maxRequests.map .number),
     ("kind", r.kind.map fun k => .string k.text),
     ("canaryClass", r.canaryClass.map fun c => .string c.text)]

def PendingPairing.toJs (p : PendingPairing) : JsValue :=
  present
    [("registration", some p.registration.toJs),
     ("requestedAt", some (.number p.requestedAt))]

/-! ## Values of one type -/

/-- `a === b` for numbers that may be `undefined`. -/
def sameNumber : Option JsNumber → Option JsNumber → Bool
  | none, none => true
  | some a, some b => a.eq b
  | _, _ => false

theorem sameNumber_eq {a b : Option JsNumber} (h : sameNumber a b = true) : a = b := by
  cases a with
  | none =>
      cases b with
      | none => rfl
      | some b => cases h
  | some a =>
      cases b with
      | none => cases h
      | some b =>
          cases a with
          | nan => cases h
          | posInf => exact congrArg some (of_decide_eq_true h)
          | negInf => exact congrArg some (of_decide_eq_true h)
          | fin q => exact congrArg some (of_decide_eq_true h)

/-- `pair.kind ?? 'legitimate'`. -/
def kindOf (kind : Option PairKind) : PairKind :=
  kind.getD .legitimate

end Pair
