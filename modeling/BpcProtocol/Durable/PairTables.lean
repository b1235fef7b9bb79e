import BpcProtocol.Durable.Sealing

set_option autoImplicit false

/-! # The pair tables

The tables `bpc_pairs` and `bpc_pending` with their checks, the statements that write them, and a
stored pair as the code reads it from its row. -/

namespace Durable

open Ha Fallible Relational
open Pair (b64url256 stringOf present)

/-! ## Rows and their checks -/

/-- A row of `bpc_pairs`. -/
structure PairRow where
  id : JsString
  name : JsString
  scope : JsString
  mode : JsString
  secretHash : JsString
  pubJwk : JsValue
  status : JsString
  created : ℤ
  lastActive : Option ℤ
  requests : ℤ
  failedSigs : ℤ
  cumulativeFailures : Option JsNumber
  firstFailureAt : Option ℤ
  maxRequests : Option ℤ
  kind : JsString
  canaryClass : Option JsString
  expiresAt : Option ℤ

/-- A row of `bpc_pending`. -/
structure PendingRow where
  token : JsString
  registration : JsValue
  requestedAt : ℤ

/-- A key that is absent, or under which a check holds. -/
def absentOr (check : JsValue → Bool) (v : JsValue) : Bool :=
  isUndefined v || check v

/-- `["verify"]`. -/
def isVerifyOps : JsValue → Bool
  | .array [.string s] => s == Js.lit "verify"
  | _ => false

/-- `true`. -/
def isTrue : JsValue → Bool
  | .bool b => b
  | _ => false

/-- The members of a JSON object. -/
def jsonMembers : JsValue → Option (List (JsString × JsValue))
  | .object fields => some fields
  | _ => none

/-- A JSON text that a check accepts. -/
def textIs (check : JsString → Bool) (v : JsValue) : Bool :=
  (stringOf v).any check

/-- `PUBLIC_JWK_CHECK`. -/
def publicJwkCheck (v : JsValue) : Bool :=
  (jsonMembers v).any fun jwk =>
    jwk.all (fun f => Pair.jwkFields.contains f.1) &&
      textIs (· == Js.lit "EC") (ownValue jwk "kty") &&
      textIs (· == Js.lit "P-256") (ownValue jwk "crv") &&
      textIs b64url256 (ownValue jwk "x") && textIs b64url256 (ownValue jwk "y") &&
      absentOr isVerifyOps (ownValue jwk "key_ops") && absentOr isTrue (ownValue jwk "ext")

/-- The text of an enumeration's member. -/
def memberText {α : Type} (members : List α) (text : α → JsString) (s : JsString) : Bool :=
  (enumOf members text s).isSome

/-- A ghost with a canary class, or a legitimate pair without one. -/
def canaryConsistent (kind : JsString) (canary : Bool) : Bool :=
  (kind == Js.lit "ghost" && canary) || (kind == Js.lit "legitimate" && !canary)

/-- A timestamp or counter that JavaScript holds exactly. -/
def safeColumn (n : ℤ) : Bool :=
  safeFrom 0 n

/-- The largest double. -/
def maxDouble : ℚ :=
  ((2 ^ 53 - 1) * 2 ^ 971 : ℕ)

/-- A finite number that is not negative. -/
def scoreColumn : JsNumber → Bool
  | .fin q => decide (0 ≤ q) && decide (q ≤ maxDouble)
  | _ => false

/-- `bpc_pairs`: one row for each identity. -/
def pairSchema : Schema PairRow where
  check r := pairIdPattern r.id && textWithin 128 r.name &&
    memberText scopes PairScope.text r.scope && memberText modes PairMode.text r.mode &&
    b64url256 r.secretHash && publicJwkCheck r.pubJwk &&
    memberText statuses Pair.PairStatus.text r.status && safeColumn r.created &&
    r.lastActive.all safeColumn && safeColumn r.requests && safeColumn r.failedSigs &&
    r.cumulativeFailures.all scoreColumn && r.firstFailureAt.all safeColumn &&
    r.maxRequests.all safeColumn && memberText kinds Pair.PairKind.text r.kind &&
    r.canaryClass.all (memberText canaries Pair.CanaryClass.text) &&
    r.expiresAt.all safeColumn && canaryConsistent r.kind r.canaryClass.isSome
  clash a b := a.id == b.id

/-- `coalesce(registration->>'kind', 'legitimate')`. -/
def kindText (v : JsValue) : JsString :=
  (stringOf v).getD (Js.lit "legitimate")

/-- `PENDING_REGISTRATION_CHECK`. -/
def registrationCheck (v : JsValue) : Bool :=
  (jsonMembers v).any fun r =>
    r.all (fun f => regKeys.contains f.1) && textIs (textWithin 128) (ownValue r "name") &&
      textIs (memberText scopes PairScope.text) (ownValue r "scope") &&
      textIs (memberText modes PairMode.text) (ownValue r "mode") &&
      textIs b64url256 (ownValue r "secretHash") && publicJwkCheck (ownValue r "pubJwk") &&
      absentOr (textIs (memberText kinds Pair.PairKind.text)) (ownValue r "kind") &&
      absentOr (textIs (memberText canaries Pair.CanaryClass.text)) (ownValue r "canaryClass") &&
      canaryConsistent (kindText (ownValue r "kind")) (!isUndefined (ownValue r "canaryClass")) &&
      absentOr (fun n => (safeNatOf n).isSome) (ownValue r "expiresAt") &&
      absentOr (fun n => (safeNatOf n).isSome) (ownValue r "maxRequests")

/-- `bpc_pending`: one row for each token. -/
def pendingSchema : Schema PendingRow where
  check r := textWithin 256 r.token && storable r.registration && registrationCheck r.registration &&
    safeColumn r.requestedAt
  clash a b := a.token == b.token

theorem pairSchema_clash (a b : PairRow) : pairSchema.clash a b = (a.id == b.id) :=
  rfl

theorem pendingSchema_clash (a b : PendingRow) : pendingSchema.clash a b = (a.token == b.token) :=
  rfl

/-- The pair authority: `bpc_pairs` and `bpc_pending`. -/
structure PairTables where
  pairs : Table pairSchema
  pending : Table pendingSchema

namespace PairTables

/-- The tables without rows. -/
def empty : PairTables where
  pairs := Table.empty pairSchema
  pending := Table.empty pendingSchema

variable (db : PairTables)

/-- `SELECT * FROM bpc_pairs WHERE id=$1`. -/
def pairOf (id : JsString) : Option PairRow :=
  db.pairs.select fun r => r.id == id

/-- `SELECT * FROM bpc_pending WHERE token=$1`. -/
def pendingOf (token : JsString) : Option PendingRow :=
  db.pending.select fun r => r.token == token

/-- `SELECT count(*) FROM bpc_pairs WHERE status='active'`. -/
def activeCount : ℕ :=
  db.pairs.rows.countP fun r => r.status == Js.lit "active"

/-- The same rows, in whatever order the tables hold them. -/
structure Same (a b : PairTables) : Prop where
  pairs : ∀ id, a.pairOf id = b.pairOf id
  pending : ∀ token, a.pendingOf token = b.pendingOf token

/-! ## Statements -/

/-- `affectedOne(result, label)`. -/
def affectedOne (n : ℕ) (label : String) : Except HaError Unit :=
  ensure (n = 1) (label ++ " affected " ++ toString n ++ "; expected 1")

/-- `affectedZeroOrOne(result, label)`. -/
def affectedZeroOrOne (n : ℕ) (label : String) : Except HaError Unit :=
  ensure (n = 0 ∨ n = 1) (label ++ " affected " ++ toString n ++ "; expected 0 or 1")

/-- The input of a `double precision` column: the double nearest to a decimal, unless none is. -/
def float8 (text : JsString) : Except SqlError JsNumber :=
  if (Js.stringToNumber text).isFinite then .ok (Js.stringToNumber text)
  else .error .constraintViolation

/-- `pairParams(p)`, as the row they make. -/
def pairParams (p : CanonicalStoredPair) : Except SqlError PairRow := do
  let cumulativeFailures ← p.cumulativeFailures.elim (.ok none) fun text => (float8 text).map some
  pure
    { id := p.id.1, name := p.name.1, scope := p.scope.text, mode := p.mode.text,
      secretHash := p.secretHash.1, pubJwk := p.pubJwk.toJs, status := p.status.text,
      created := p.created.1, lastActive := p.lastActive.map fun n => (n.1 : ℤ),
      requests := p.requests.1, failedSigs := p.failedSigs.1, cumulativeFailures,
      firstFailureAt := p.firstFailureAt.join.map fun n => (n.1 : ℤ),
      maxRequests := p.maxRequests.map fun n => (n.1 : ℤ), kind := p.kind.text,
      canaryClass := p.canaryClass.map Pair.CanaryClass.text,
      expiresAt := p.expiresAt.map fun n => (n.1 : ℤ) }

/-- `upsertPair(exec, p)`. -/
def upsertPair (p : CanonicalStoredPair) : Except HaError PairTables := do
  let row ← query (pairParams p)
  let res ← query (db.pairs.upsert row)
  affectedOne res.2 "pair upsert"
  pure { db with pairs := res.1 }

/-- `insertPair(exec, p)`. -/
def insertPair (p : CanonicalStoredPair) : Except HaError PairTables := do
  let row ← query (pairParams p)
  let pairs ← query (db.pairs.insert row)
  pure { db with pairs }

/-- `upsertPending(exec, token, r, requestedAt)`. -/
def upsertPending (token : JsString) (r : CanonicalPairRegistration) (requestedAt : SafeNat) :
    Except HaError PairTables := do
  let res ← query (db.pending.upsert
    { token, registration := r.toJs, requestedAt := requestedAt.1 })
  affectedOne res.2 "pending upsert"
  pure { db with pending := res.1 }

/-- `DELETE FROM bpc_pairs WHERE id=$1`. -/
def deletePair (id : JsString) : Except HaError PairTables := do
  let res := db.pairs.delete fun r => r.id == id && true
  affectedZeroOrOne res.2 "pair delete"
  pure { db with pairs := res.1 }

/-- `DELETE FROM bpc_pending WHERE token=$1`. -/
def deletePending (token : JsString) : Except HaError PairTables := do
  let res := db.pending.delete fun r => r.token == token && true
  affectedZeroOrOne res.2 "pending delete"
  pure { db with pending := res.1 }

/-- `DELETE FROM bpc_pending WHERE token=$1 AND requested_at=$2`. -/
def deleteApproved (token : JsString) (requestedAt : SafeNat) (label : String) :
    Except HaError PairTables := do
  let res := db.pending.delete fun r => r.token == token && r.requestedAt == (requestedAt.1 : ℤ)
  affectedOne res.2 label
  pure { db with pending := res.1 }

end PairTables

/-! ## Stored pairs -/

/-- `databaseFloatToDecimal(value)`. -/
def databaseFloatToDecimal (value : JsNumber) : Except HaError JsString :=
  finiteNumberToDecimal value

/-- A column as the number it is read to. -/
def columnNumber (n : ℤ) : JsValue :=
  .number (.fin n)

/-- The object that `rowToPair` reads a row to, with the failure score as decimal text. -/
def rowMembers (row : PairRow) (score : Option JsString) : List (String × Option JsValue) :=
  [("id", some (.string row.id)), ("name", some (.string row.name)),
    ("scope", some (.string row.scope)), ("mode", some (.string row.mode)),
    ("secretHash", some (.string row.secretHash)), ("pubJwk", some row.pubJwk),
    ("status", some (.string row.status)), ("created", some (columnNumber row.created)),
    ("lastActive", some (row.lastActive.elim .null columnNumber)),
    ("requests", some (columnNumber row.requests)),
    ("failedSigs", some (columnNumber row.failedSigs)),
    ("cumulativeFailures", score.map JsValue.string),
    ("firstFailureAt", row.firstFailureAt.map columnNumber),
    ("maxRequests", row.maxRequests.map columnNumber), ("kind", some (.string row.kind)),
    ("canaryClass", row.canaryClass.map JsValue.string),
    ("expiresAt", row.expiresAt.map columnNumber)]

/-- A canonical number as the number it is. -/
def SafeNat.toNumber (n : SafeNat) : JsNumber :=
  .fin (n.1 : ℤ)

/-- `CanonicalStoredPair` as a `StoredPair`, with the failure score as a number. -/
def CanonicalStoredPair.toStored (p : CanonicalStoredPair) : Pair.StoredPair where
  id := p.id.1
  name := p.name.1
  scope := p.scope.text
  mode := p.mode.text
  secretHash := p.secretHash.1
  pubJwk := ⟨p.pubJwk.toJs, rfl⟩
  status := p.status
  created := p.created.toNumber
  lastActive := p.lastActive.map SafeNat.toNumber
  requests := p.requests.toNumber
  failedSigs := p.failedSigs.toNumber
  cumulativeFailures := p.cumulativeFailures.map Js.stringToNumber
  firstFailureAt := p.firstFailureAt.map fun t => t.map SafeNat.toNumber
  expiresAt := p.expiresAt.map SafeNat.toNumber
  maxRequests := p.maxRequests.map SafeNat.toNumber
  kind := some p.kind
  canaryClass := p.canaryClass

/-- `CanonicalPairRegistration` as a `PairRegistration`. -/
def CanonicalPairRegistration.toPairRegistration (r : CanonicalPairRegistration) :
    Pair.PairRegistration where
  name := r.name.1
  scope := r.scope.text
  mode := r.mode.text
  secretHash := r.secretHash.1
  pubJwk := ⟨r.pubJwk.toJs, rfl⟩
  expiresAt := r.expiresAt.map SafeNat.toNumber
  maxRequests := r.maxRequests.map SafeNat.toNumber
  kind := some r.kind
  canaryClass := r.canaryClass

/-- `rowToPair(row)`. -/
def rowToPair (row : PairRow) : Except HaError Pair.StoredPair := do
  let score ← row.cumulativeFailures.elim (.ok none) fun value =>
    (databaseFloatToDecimal value).map some
  let canonical ← normalizePair (present (rowMembers row score)) true
  pure canonical.toStored

/-- `sameCanonical(left, right)`. -/
def sameCanonical (left right : JsValue) : Except HaError Bool := do
  let a ← canonicalize left
  let b ← canonicalize right
  pure (decide (a = b))

/-- `assertApprovalPair(registration, pair)`. The keys of canonical records can be compared, so the
    comparison does not throw. -/
def assertApprovalPair (registration : CanonicalPairRegistration) (pair : CanonicalStoredPair) :
    Except HaError Unit :=
  ensure (Pair.hasInitialPairState pair.toStored = true ∧
      (Pair.pairMatchesRegistration pair.toStored registration.toPairRegistration).toOption =
        some true)
    "approved pair does not match pending registration/initial state"

end Durable
