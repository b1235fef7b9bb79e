import BpcProtocol.Durable.Outbox
import BpcProtocol.Js.Coerce
import BpcProtocol.Pair.MemoryStore

set_option autoImplicit false

/-! # Canonical pairs

`normalizeRegistration` and `normalizePair`: what of a value the durable store accepts as a
registration or a pair. What they return carries the proof of what they have checked, and is read
back as itself. -/

namespace Durable

open Ha Fallible
open Pair (PairStatus PairKind CanaryClass CanonicalAuthorizationJwk b64url256 stringOf present)

/-! ## Checked values -/

/-- A value that passes a check. -/
def checked {α : Type} {p : α → Prop} [DecidablePred p] (a : α) (message : String) :
    Except HaError { a // p a } :=
  if h : p a then .ok ⟨a, h⟩ else .error (.contractValidation message)

@[simp]
theorem checked_eq_ok {α : Type} {p : α → Prop} [DecidablePred p] {a : α} {message : String}
    {b : { a // p a }} : checked a message = .ok b ↔ b.1 = a := by
  unfold checked
  split
  · next h => simp [Subtype.ext_iff, eq_comm]
  · next h =>
      simp only [reduceCtorEq, false_iff]
      rintro rfl
      exact h b.2

/-- What passed a check passes it again. -/
theorem checked_val {α : Type} {p : α → Prop} [DecidablePred p] (b : { a // p a })
    (message : String) : checked b.1 message = .ok b :=
  checked_eq_ok.mpr rfl

/-- A text of at least one and at most `max` code units. -/
abbrev Bounded (max : ℕ) := { s : JsString // 1 ≤ s.length ∧ s.length ≤ max }

/-- A non-negative safe integer. -/
abbrev SafeNat := { n : ℕ // n ≤ 9007199254740991 }

def SafeNat.toJs (n : SafeNat) : JsValue :=
  .number (.fin (n.1 : ℤ))

/-- `ID`. -/
def pairIdPattern : JsString → Bool :=
  Js.classPattern (fun c => Js.isAlnum c || Js.oneOf "_-" c) 1 64

/-- The identity of a pair. -/
abbrev PairId := { s : JsString // pairIdPattern s = true }

/-- A 256-bit key in base64url. -/
abbrev SecretHash := { s : JsString // b64url256 s = true }

/-- `CanonicalPublicJwk`. -/
abbrev CanonicalPublicJwk :=
  { jwk : CanonicalAuthorizationJwk // b64url256 jwk.x = true ∧ b64url256 jwk.y = true }

/-! ## Enumerations -/

/-- `StoredPair['scope']`. -/
inductive PairScope where
  | read
  | readWrite
  | admin
  deriving DecidableEq, Repr

/-- `StoredPair['mode']`. -/
inductive PairMode where
  | development
  | production
  deriving DecidableEq, Repr

def PairScope.text : PairScope → JsString
  | read => Js.lit "read"
  | readWrite => Js.lit "read-write"
  | admin => Js.lit "admin"

def PairMode.text : PairMode → JsString
  | development => Js.lit "development"
  | production => Js.lit "production"

/-- The member of an enumeration that a text names. -/
def enumOf {α : Type} (members : List α) (text : α → JsString) (s : JsString) : Option α :=
  members.find? fun a => text a == s

/-- `SCOPES`. -/
def scopes : List PairScope := [.read, .readWrite, .admin]

/-- `MODES`. -/
def modes : List PairMode := [.development, .production]

/-- `STATUSES`. -/
def statuses : List PairStatus := [.active, .locked, .expired, .rotated, .revoked]

/-- `KINDS`. -/
def kinds : List PairKind := [.legitimate, .ghost]

/-- `CANARIES`. -/
def canaries : List CanaryClass := [.envFile, .docs, .registryExfil]

@[simp]
theorem enumOf_scope (scope : PairScope) : enumOf scopes PairScope.text scope.text = some scope := by
  cases scope <;> decide

@[simp]
theorem enumOf_mode (mode : PairMode) : enumOf modes PairMode.text mode.text = some mode := by
  cases mode <;> decide

@[simp]
theorem enumOf_status (status : PairStatus) :
    enumOf statuses PairStatus.text status.text = some status := by
  cases status <;> decide

@[simp]
theorem enumOf_kind (kind : PairKind) : enumOf kinds PairKind.text kind.text = some kind := by
  cases kind <;> decide

@[simp]
theorem enumOf_canary (canary : CanaryClass) :
    enumOf canaries CanaryClass.text canary.text = some canary := by
  cases canary <;> decide

theorem text_of_enumOf {α : Type} {members : List α} {text : α → JsString} {s : JsString} {a : α}
    (h : enumOf members text s = some a) : text a = s := by
  simpa using List.find?_some h

/-! ## Records -/

/-- `CanonicalPairRegistration`: a canary class stands with the ghosts and only there. -/
structure CanonicalPairRegistration where
  name : Bounded 128
  scope : PairScope
  mode : PairMode
  secretHash : SecretHash
  pubJwk : CanonicalPublicJwk
  expiresAt : Option SafeNat
  maxRequests : Option SafeNat
  kind : PairKind
  canaryClass : Option CanaryClass
  consistent : canaryClass.isSome = decide (kind = .ghost)
  deriving DecidableEq

/-- `CanonicalStoredPair`. The failure score is decimal text. -/
structure CanonicalStoredPair extends CanonicalPairRegistration where
  id : PairId
  status : PairStatus
  created : SafeNat
  lastActive : Option SafeNat
  requests : SafeNat
  failedSigs : SafeNat
  cumulativeFailures : Option JsString
  firstFailureAt : Option (Option SafeNat)
  deriving DecidableEq

/-- The members of the object `{ kty, crv, x, y }`. -/
def CanonicalPublicJwk.members (jwk : CanonicalPublicJwk) : List (String × Option JsValue) :=
  [("kty", some (.string (Js.lit "EC"))), ("crv", some (.string (Js.lit "P-256"))),
    ("x", some (.string jwk.1.x)), ("y", some (.string jwk.1.y))]

def CanonicalPublicJwk.toJs (jwk : CanonicalPublicJwk) : JsValue :=
  present jwk.members

/-- The members of a registration as an object. -/
def CanonicalPairRegistration.members (r : CanonicalPairRegistration) :
    List (String × Option JsValue) :=
  [("name", some (.string r.name.1)), ("scope", some (.string r.scope.text)),
    ("mode", some (.string r.mode.text)), ("secretHash", some (.string r.secretHash.1)),
    ("pubJwk", some r.pubJwk.toJs), ("kind", some (.string r.kind.text)),
    ("expiresAt", r.expiresAt.map SafeNat.toJs), ("maxRequests", r.maxRequests.map SafeNat.toJs),
    ("canaryClass", r.canaryClass.map fun c => .string c.text)]

def CanonicalPairRegistration.toJs (r : CanonicalPairRegistration) : JsValue :=
  present r.members

/-- A number or `null`. -/
def nullableNat (n : Option SafeNat) : JsValue :=
  n.elim .null SafeNat.toJs

/-- The members of a pair as an object: those of its registration and its own. -/
def CanonicalStoredPair.members (p : CanonicalStoredPair) : List (String × Option JsValue) :=
  p.toCanonicalPairRegistration.members ++
    [("id", some (.string p.id.1)), ("status", some (.string p.status.text)),
      ("created", some p.created.toJs), ("lastActive", some (nullableNat p.lastActive)),
      ("requests", some p.requests.toJs), ("failedSigs", some p.failedSigs.toJs),
      ("cumulativeFailures", p.cumulativeFailures.map JsValue.string),
      ("firstFailureAt", p.firstFailureAt.map nullableNat)]

def CanonicalStoredPair.toJs (p : CanonicalStoredPair) : JsValue :=
  present p.members

/-! ## Reading values -/

/-- `PAIR_KEYS`. -/
def pairKeys : List JsString :=
  [Js.lit "id", Js.lit "name", Js.lit "scope", Js.lit "mode", Js.lit "secretHash", Js.lit "pubJwk",
    Js.lit "status", Js.lit "created", Js.lit "lastActive", Js.lit "requests", Js.lit "failedSigs",
    Js.lit "cumulativeFailures", Js.lit "firstFailureAt", Js.lit "expiresAt", Js.lit "maxRequests",
    Js.lit "kind", Js.lit "canaryClass"]

/-- `REG_KEYS`. -/
def regKeys : List JsString :=
  [Js.lit "name", Js.lit "scope", Js.lit "mode", Js.lit "secretHash", Js.lit "pubJwk",
    Js.lit "expiresAt", Js.lit "maxRequests", Js.lit "kind", Js.lit "canaryClass"]

/-- The own properties of a plain object. -/
def ownFields (value : JsValue) (label : String) : Except HaError (List (JsString × JsValue)) :=
  match value with
  | .object fields => .ok fields
  | .array _ => .error (.contractValidation (label ++ " must be a plain object"))
  | _ => .error (.contractValidation (label ++ " must be a non-proxy object"))

/-- `dataObject(value, allowed, label)`. -/
def dataObject (value : JsValue) (allowed : List JsString) (label : String) :
    Except HaError (List (JsString × JsValue)) := do
  let fields ← ownFields value label
  fields.forM fun f =>
    ensure (f.1 ∈ allowed) (label ++ " contains unexpected field '" ++ Js.message f.1 ++ "'")
  pure fields

/-- `ownValue(obj, key)`. -/
def ownValue (fields : List (JsString × JsValue)) (key : String) : JsValue :=
  (JsValue.object fields).get (Js.lit key)

/-- `v === undefined`. -/
def isUndefined : JsValue → Bool
  | .undefined => true
  | _ => false

/-- `v === null`. -/
def isNull : JsValue → Bool
  | .null => true
  | _ => false

/-- `typeof v === 'number' && v`. -/
def numberOf : JsValue → Option JsNumber
  | .number n => some n
  | _ => none

/-- `Number.isSafeInteger(n) && n >= 0`, with the number it is. -/
def safeNatOfNumber (n : JsNumber) : Option SafeNat :=
  n.toInt?.bind fun i =>
    if h : 0 ≤ i ∧ i ≤ 9007199254740991 then some ⟨i.toNat, by omega⟩ else none

/-- `Number.isSafeInteger(v) && v >= 0`, with the number it is. -/
def safeNatOf (v : JsValue) : Option SafeNat :=
  (numberOf v).bind safeNatOfNumber

section Fields

variable (fields : List (JsString × JsValue)) (key label : String)

/-- `reqString(obj, key, label, max)`. -/
def reqString (max : ℕ) : Except HaError (Bounded max) :=
  (stringOf (ownValue fields key)).elim
    (.error (.contractValidation (label ++ "." ++ key ++ " is invalid")))
    fun s => checked s (label ++ "." ++ key ++ " is invalid")

/-- `optInt(obj, key, label)`. -/
def optInt : Except HaError (Option SafeNat) :=
  if isUndefined (ownValue fields key) then .ok none
  else
    (safeNatOf (ownValue fields key)).elim
      (.error (.contractValidation (label ++ "." ++ key ++ " must be a non-negative safe integer")))
      fun n => .ok (some n)

/-- `reqInt(obj, key, label)`. -/
def reqInt : Except HaError SafeNat := do
  let value ← optInt fields key label
  found value (label ++ "." ++ key ++ " is required")

end Fields

/-! ## Keys -/

/-- `canonicalAuthorizationJwk(value)`, of any value. -/
def canonicalJwk (value : JsValue) : Except Pair.ServerError CanonicalAuthorizationJwk := do
  let fields ← Pair.plainFields value
  fields.forM fun f => Pair.ensure (f.1 ∈ Pair.jwkFields)
    ("pubJwk contains unexpected field '" ++ Js.message f.1 ++ "'")
  let jwk ← Pair.exactKey (ownValue fields "kty") (ownValue fields "crv")
    (Pair.coordinate (ownValue fields "x")) (Pair.coordinate (ownValue fields "y"))
  Pair.checkKeyOps (ownValue fields "key_ops")
  Pair.checkExt (ownValue fields "ext")
  pure jwk

/-- What an error says, as the error of a contract. -/
def asContract : Pair.ServerError → HaError
  | .error message => .contractValidation message
  | .typeError message => .contractValidation message
  | .external => .contractValidation "pubJwk is invalid"

/-- `normalizeJwk(value)`. -/
def normalizeJwk (value : JsValue) : Except HaError CanonicalPublicJwk := do
  let _ ← dataObject value Pair.jwkFields "pubJwk"
  let jwk ← (canonicalJwk value).mapError asContract
  checked jwk "pubJwk must be an exact public P-256 key"

/-! ## Registrations and pairs -/

/-- `ownValue(r, 'kind') ?? 'legitimate'`, where it is a kind. -/
def kindOf (v : JsValue) : Option PairKind :=
  if isUndefined v || isNull v then some .legitimate
  else (stringOf v).bind (enumOf kinds PairKind.text)

/-- The canary class of a ghost, and none of another pair. -/
def canaryOf (kind : PairKind) (v : JsValue) : Option (Option CanaryClass) :=
  if kind = .ghost then ((stringOf v).bind (enumOf canaries CanaryClass.text)).map some
  else if isUndefined v then some none else none

/-- `normalizeRegistration(value)`. -/
def normalizeRegistration (value : JsValue) : Except HaError CanonicalPairRegistration := do
  let r ← dataObject value regKeys "registration"
  let scopeText ← reqString r "scope" "registration" 10
  let modeText ← reqString r "mode" "registration" 16
  let scope ← found (enumOf scopes PairScope.text scopeText.1) "registration enum is invalid"
  let mode ← found (enumOf modes PairMode.text modeText.1) "registration enum is invalid"
  let kind ← found (kindOf (ownValue r "kind")) "registration enum is invalid"
  let canary ← found (canaryOf kind (ownValue r "canaryClass"))
    "registration kind/canaryClass is inconsistent"
  let canaryClass : { c : Option CanaryClass // c.isSome = decide (kind = .ghost) } ←
    checked canary "registration kind/canaryClass is inconsistent"
  let name ← reqString r "name" "registration" 128
  let secretText ← reqString r "secretHash" "registration" 43
  let pubJwk ← normalizeJwk (ownValue r "pubJwk")
  let secretHash : SecretHash ← checked secretText.1
    "registration.secretHash must be a 256-bit base64url key"
  let expiresAt ← optInt r "expiresAt" "registration"
  let maxRequests ← optInt r "maxRequests" "registration"
  pure
    { name, scope, mode, secretHash, pubJwk, expiresAt, maxRequests, kind,
      canaryClass := canaryClass.1, consistent := canaryClass.2 }

/-- `registrationFromPairObject(p)`. -/
def registrationFromPairObject (p : List (JsString × JsValue)) :
    Except HaError CanonicalPairRegistration :=
  normalizeRegistration (.object
    ((["name", "scope", "mode", "secretHash", "pubJwk"].map fun key =>
        (Js.lit key, ownValue p key)) ++
      (["expiresAt", "maxRequests", "kind", "canaryClass"].map fun key =>
        (Js.lit key, ownValue p key)).filter fun f => !isUndefined f.2))

/-- A timestamp that may be `null`. -/
def nullableNatOf (v : JsValue) : Option (Option SafeNat) :=
  if isNull v then some none else (safeNatOf v).map some

/-- `firstFailureAt`, which may be left out. -/
def firstFailureOf (v : JsValue) : Except HaError (Option (Option SafeNat)) :=
  if isUndefined v then .ok none
  else (found (nullableNatOf v) "pair.firstFailureAt is invalid").map some

/-- `/^(?:0|[1-9]\d*)(?:\.\d+)?$/`. -/
def decimalPattern (s : JsString) : Bool :=
  let whole := s.takeWhile Js.isDigit
  let fraction := s.dropWhile Js.isDigit
  !whole.isEmpty && (whole.length == 1 || whole.head? != some 48) &&
    (fraction.isEmpty || (fraction.head? == some 46 && 2 ≤ fraction.length &&
      fraction.tail.all Js.isDigit))

/-- The failure score as decimal text. -/
def decimalScore (s : JsString) : Bool :=
  decimalPattern s && (Js.stringToNumber s).isFinite

/-- `value` without an exponent: the digits of a coefficient with the point moved. -/
def shiftPoint (digits : JsString) (point : ℤ) : JsString :=
  if point ≤ 0 then Js.lit "0." ++ List.replicate (-point).toNat 48 ++ digits
  else if digits.length ≤ point then digits ++ List.replicate (point - digits.length).toNat 48
  else digits.take point.toNat ++ Js.lit "." ++ digits.drop point.toNat

/-- The text of a number without its exponent, if it has one: of `1.5e-7` the text `0.00000015`. -/
def expandDecimal (text : JsString) : JsString :=
  let isExponent := fun c : UInt16 => c == 101 || c == 69
  if text.all fun c => !isExponent c then text
  else
    let coefficient := text.takeWhile fun c => !isExponent c
    let exponent := (Js.stringToNumber ((text.dropWhile fun c => !isExponent c).drop 1)).toInt?
    let whole := coefficient.takeWhile (· != 46)
    let fraction := (coefficient.dropWhile (· != 46)).drop 1
    shiftPoint (whole ++ fraction) (whole.length + exponent.getD 0)

/-- `finiteNumberToDecimal(value)`. -/
def finiteNumberToDecimal (value : JsNumber) : Except HaError JsString := do
  ensure (value.isFinite = true ∧ value.lt (.fin 0) = false) "pair.cumulativeFailures is invalid"
  pure (if value = .fin 0 then Js.lit "0" else expandDecimal (Js.numberText value))

/-- The failure score of a pair, from decimal text or from a number. -/
def scoreOf (v : JsValue) (cumulativeText : Bool) : Except HaError (Option JsString) :=
  if isUndefined v then .ok none
  else if cumulativeText then do
    let text ← found (stringOf v) "pair.cumulativeFailures decimal is invalid"
    ensure (decimalScore text = true) "pair.cumulativeFailures decimal is invalid"
    pure (some text)
  else do
    let n ← found (numberOf v) "pair.cumulativeFailures is invalid"
    let text ← finiteNumberToDecimal n
    pure (some text)

/-- `normalizePair(value, cumulativeText)`. -/
def normalizePair (value : JsValue) (cumulativeText : Bool) :
    Except HaError CanonicalStoredPair := do
  let p ← dataObject value pairKeys "pair"
  let reg ← registrationFromPairObject p
  let idText ← reqString p "id" "pair" 64
  let statusText ← reqString p "status" "pair" 16
  let id : PairId ← checked idText.1 "pair id/status is invalid"
  let status ← found (enumOf statuses PairStatus.text statusText.1) "pair id/status is invalid"
  let lastActive ← found (nullableNatOf (ownValue p "lastActive")) "pair.lastActive is invalid"
  let firstFailureAt ← firstFailureOf (ownValue p "firstFailureAt")
  let cumulativeFailures ← scoreOf (ownValue p "cumulativeFailures") cumulativeText
  let created ← reqInt p "created" "pair"
  let requests ← reqInt p "requests" "pair"
  let failedSigs ← reqInt p "failedSigs" "pair"
  pure
    { toCanonicalPairRegistration := reg, id, status, created, lastActive, requests, failedSigs,
      cumulativeFailures, firstFailureAt }

end Durable
