import BpcProtocol.Durable.PairMutation

set_option autoImplicit false

/-! # The durable pair store

`PgTransactionalPairStore`: each operation reads the tables and returns, or appends one mutation to
the outbox and writes the tables, in one transaction. -/

namespace Durable

open Ha Fallible Relational
open Pair (StoredPair PairStatus SuccessfulUsePolicy SuccessfulUseClaim ServerError)

/-! ## Errors -/

/-- What an operation of the store throws. -/
inductive PairStoreError where
  | ha (e : HaError)
  | server (e : ServerError)

/-- A step that throws an error of the contract. -/
def ofHa {α : Type} (x : Except HaError α) : Except PairStoreError α :=
  x.mapError .ha

/-- A step that throws another error. -/
def ofServer {α : Type} (x : Except ServerError α) : Except PairStoreError α :=
  x.mapError .server

@[simp]
theorem ofHa_eq_ok {α : Type} {x : Except HaError α} {a : α} : ofHa x = .ok a ↔ x = .ok a := by
  cases x with
  | error e => simp [ofHa, Except.mapError]
  | ok b => simp [ofHa, Except.mapError]

@[simp]
theorem ofServer_eq_ok {α : Type} {x : Except ServerError α} {a : α} :
    ofServer x = .ok a ↔ x = .ok a := by
  cases x with
  | error e => simp [ofServer, Except.mapError]
  | ok b => simp [ofServer, Except.mapError]

/-! ## Plans -/

/-- The statements with which an operation writes the tables. -/
inductive PairDml where
  | pairUpsert (pair : CanonicalStoredPair)
  | pairDelete (pairId : PairId)
  | pendingUpsert (token : Bounded 256) (registration : CanonicalPairRegistration)
      (requestedAt : SafeNat)
  | pendingDelete (token : Bounded 256)
  | approve (token : Bounded 256) (registration : CanonicalPairRegistration) (requestedAt : SafeNat)
      (maxActivePairs : SafeNat) (pair : CanonicalStoredPair)
  | rotate (expectedOld replacement : CanonicalStoredPair)

/-- The statements on the tables, where no external authority controls them. -/
def PairDml.run (tables : PairTables) : PairDml → Except HaError PairTables
  | pairUpsert pair => tables.upsertPair pair
  | pairDelete pairId => tables.deletePair pairId.1
  | pendingUpsert token registration requestedAt =>
      tables.upsertPending token.1 registration requestedAt
  | pendingDelete token => tables.deletePending token.1
  | approve token _ requestedAt _ pair => do
      let tables ← tables.deleteApproved token.1 requestedAt "pending approval delete"
      tables.insertPair pair
  | rotate expectedOld replacement => do
      let tables ← tables.upsertPair { expectedOld with status := .rotated }
      tables.insertPair replacement

/-- What an operation does once it has read the tables: it returns, or appends a mutation, writes,
    and returns what it then computes. -/
inductive Plan (α : Type) where
  | done (a : α)
  | write (mutation : BpcPairMutation) (dml : PairDml) (result : Except PairStoreError α)

/-! ## The store -/

/-- `PgTransactionalPairStoreOptions`, with the codec under its keyring. -/
structure PgTransactionalPairStore where
  streamId : JsString
  fenceToken : ℤ
  maxPendingRows : ℕ
  backpressure : PublisherBackpressure
  codec : PairPayloadCodec

/-- The database of the source. `governed` says whether an HA authority governs it. -/
structure SourceDb where
  outbox : OutboxDb
  tables : PairTables
  governed : Bool

namespace PgTransactionalPairStore

variable (store : PgTransactionalPairStore)

/-- The options of the outbox. -/
def outboxOptions : OutboxOptions where
  streamId := store.streamId
  maxPendingRows := store.maxPendingRows
  backpressure := store.backpressure
  sanitize := sanitizeMutation

/-- `append(tx, exec, mutation)`. -/
def append (c : Ha.Crypto) (outbox : OutboxDb) (mutation : BpcPairMutation) :
    Except HaError (OutboxRecord × OutboxDb) :=
  appendInTx c store.outboxOptions outbox
    { streamId := store.streamId, rawMutation := mutation.toJs, fenceToken := store.fenceToken }

/-- What a plan does inside its transaction, and the check before the commit. -/
def execute {α : Type} (c : Ha.Crypto) (db : SourceDb) :
    Plan α → Except PairStoreError (α × SourceDb)
  | .done a => .ok (a, db)
  | .write mutation dml result => do
      let appended ← ofHa (store.append c db.outbox mutation)
      let tables ← ofHa (dml.run db.tables)
      let a ← result
      ofHa (ensure (db.governed = false) "HA-governed pair authority requires createHaPairAuthority")
      pure (a, { db with outbox := appended.2, tables })

/-- `outbox.withOutboxTx`: what throws leaves the database as it was. -/
def withOutboxTx {α : Type} (c : Ha.Crypto) (db : SourceDb)
    (body : PairTables → Except PairStoreError (Plan α)) :
    Except PairStoreError (α × SourceDb) := do
  let plan ← body db.tables
  store.execute c db plan

/-- The associated data of a pair. -/
def pairAad (kind : MutationKind) (pairId : PairId) : PairSetAad :=
  { streamId := store.streamId, kind, pairId := pairId.1 }

/-- The associated data of a registration. -/
def pendingAad (kind : MutationKind) (token : Bounded 256) (requestedAt : SafeNat) :
    PendingSetAad :=
  { streamId := store.streamId, kind, token := token.1, requestedAt }

/-- The plan that sets a pair: the mutation sealed, and the row written. -/
def planSet {α : Type} (nonce : Bytes) (pair : CanonicalStoredPair)
    (result : Except PairStoreError α) : Except PairStoreError (Plan α) := do
  let payload ← ofHa (store.codec.sealPair nonce pair (store.pairAad .pairSet pair.id))
  pure (.write (.pairSet pair.id payload) (.pairUpsert pair) result)

/-- `commit(m, dml)`. -/
def planCommit (m : BpcPairMutation) (dml : PairDml) : Except PairStoreError (Plan Unit) := do
  let clean ← ofHa (normalizeMutation m.toJs)
  pure (.write clean dml (.ok ()))

/-! ## Setting and deleting -/

/-- `set(value)`. -/
def set (nonce : Bytes) (value : JsValue) (_ : PairTables) :
    Except PairStoreError (Plan Unit) := do
  let pair ← ofHa (normalizePair value false)
  let payload ← ofHa (store.codec.sealPair nonce pair (store.pairAad .pairSet pair.id))
  planCommit (.pairSet pair.id payload) (.pairUpsert pair)

/-- `delete(pairId)`. -/
def delete (pairId : JsString) (_ : PairTables) : Except PairStoreError (Plan Unit) := do
  let pairId : PairId ← ofHa (checked pairId "pairId invalid")
  planCommit (.pairDelete pairId) (.pairDelete pairId)

/-- `setPending(token, value, requestedAt)`. -/
def setPending (nonce : Bytes) (token : JsString) (value : JsValue) (requestedAt : JsNumber)
    (_ : PairTables) : Except PairStoreError (Plan Unit) := do
  let token : Bounded 256 ← ofHa (checked token "pending identity/time invalid")
  let requestedAt ← ofHa (found (safeNatOfNumber requestedAt) "pending identity/time invalid")
  let registration ← ofHa (normalizeRegistration value)
  let payload ← ofHa (store.codec.sealRegistration nonce registration
    (store.pendingAad .pendingSet token requestedAt))
  planCommit (.pendingSet token requestedAt payload)
    (.pendingUpsert token registration requestedAt)

/-- `deletePending(token)`. -/
def deletePending (token : JsString) (_ : PairTables) : Except PairStoreError (Plan Unit) := do
  let token : Bounded 256 ← ofHa (checked token "token invalid")
  planCommit (.pendingDelete token) (.pendingDelete token)

/-! ## Mutating a pair -/

/-- The row that a pair is written to, its failure score read as a number. -/
def rowOf (p : CanonicalStoredPair) : PairRow where
  id := p.id.1
  name := p.name.1
  scope := p.scope.text
  mode := p.mode.text
  secretHash := p.secretHash.1
  pubJwk := p.pubJwk.toJs
  status := p.status.text
  created := p.created.1
  lastActive := p.lastActive.map fun n => (n.1 : ℤ)
  requests := p.requests.1
  failedSigs := p.failedSigs.1
  cumulativeFailures := p.cumulativeFailures.map Js.stringToNumber
  firstFailureAt := p.firstFailureAt.join.map fun n => (n.1 : ℤ)
  maxRequests := p.maxRequests.map fun n => (n.1 : ℤ)
  kind := p.kind.text
  canaryClass := p.canaryClass.map Pair.CanaryClass.text
  expiresAt := p.expiresAt.map fun n => (n.1 : ℤ)

/-- A pair mutation: it may return `undefined`, another value, or throw. -/
abbrev PairAtomicMutation := StoredPair → Except ServerError JsValue

/-- What `atomicMutate` does with the value that the mutation returns. -/
def planMutated (nonce : Bytes) (pairId : PairId) (current : StoredPair) (candidate : JsValue) :
    Except PairStoreError (Plan (Option StoredPair)) :=
  if isUndefined candidate then .ok (.done (some current))
  else do
    let next ← ofHa (normalizePair candidate false)
    ofHa (ensure (next.id.1 = pairId.1) "atomic mutation cannot change pair identity")
    store.planSet nonce next (some <$> ofHa (rowToPair (rowOf next)))

/-- `atomicMutate(pairId, mutate)`. -/
def atomicMutate (nonce : Bytes) (pairId : JsString) (mutate : PairAtomicMutation)
    (tables : PairTables) : Except PairStoreError (Plan (Option StoredPair)) := do
  let pairId : PairId ← ofHa (checked pairId "atomic mutation input invalid")
  (tables.pairOf pairId.1).elim (.ok (.done none)) fun row => do
    let current ← ofHa (rowToPair row)
    let candidate ← ofServer (mutate current)
    store.planMutated nonce pairId current candidate

/-- `conditionalStatus(pairId, predicate, status)`. -/
def conditionalStatus (nonce : Bytes) (pairId : JsString) (predicate : StoredPair → Bool)
    (status : PairStatus) (tables : PairTables) : Except PairStoreError (Plan Bool) := do
  let pairId : PairId ← ofHa (checked pairId "pairId invalid")
  (tables.pairOf pairId.1).elim (.ok (.done false)) fun row => do
    let current ← ofHa (rowToPair row)
    if predicate current = false then pure (.done false)
    else do
      let next ← ofHa (normalizePair (current.withStatus status).toJs false)
      store.planSet nonce next (.ok true)

/-- `expireIfElapsed(pairId, now)`. -/
def expireIfElapsed (nonce : Bytes) (pairId : JsString) (now : JsNumber) (tables : PairTables) :
    Except PairStoreError (Plan Bool) := do
  ofHa (ensure (now.isSafeInteger = true ∧ now.lt (.fin 0) = false)
    "expiry check timestamp invalid")
  store.conditionalStatus nonce pairId
    (fun pair => decide (pair.status = .active) && pair.expiresAt.any fun e => e.lt now)
    .expired tables

/-- `expireIfUsageExhausted(pairId)`. -/
def expireIfUsageExhausted (nonce : Bytes) (pairId : JsString) (tables : PairTables) :
    Except PairStoreError (Plan Bool) :=
  store.conditionalStatus nonce pairId
    (fun pair => decide (pair.status = .active) && pair.maxRequests.any fun m =>
      m.truthy && (JsNumber.fin 0).lt m && pair.requests.ge m)
    .expired tables

/-- `lockIfFailureThreshold(pairId, minimumFailures)`. -/
def lockIfFailureThreshold (nonce : Bytes) (pairId : JsString) (minimumFailures : JsNumber)
    (tables : PairTables) : Except PairStoreError (Plan Bool) := do
  ofHa (ensure (minimumFailures.isSafeInteger = true ∧ minimumFailures.lt (.fin 1) = false)
    "failure threshold invalid")
  store.conditionalStatus nonce pairId
    (fun pair => decide (pair.status = .active) && pair.failedSigs.ge minimumFailures)
    .locked tables

/-! ## Claiming a use -/

/-- The last check of `claimSuccessfulUse`, and the use itself. -/
def planUse (nonce : Bytes) (current : StoredPair) (at_ : JsNumber)
    (captured : SuccessfulUsePolicy) : Except PairStoreError (Plan SuccessfulUseClaim) := do
  let agrees ← ofServer (Pair.successfulUsePolicyMatches current captured)
  if agrees = false then pure (.done .policyChanged)
  else do
    ofHa (ensure (current.requests.incr.isSafeInteger = true) "pair request counter exhausted")
    let next ← ofHa (normalizePair (current.used at_).toJs false)
    store.planSet nonce next (.ok .claimed)

/-- The pair is expired before its claim is denied. -/
def planExpired (nonce : Bytes) (current : StoredPair) (outcome : SuccessfulUseClaim) :
    Except PairStoreError (Plan SuccessfulUseClaim) := do
  let expired ← ofHa (normalizePair (current.withStatus .expired).toJs false)
  store.planSet nonce expired (.ok outcome)

/-- `claimSuccessfulUse` on the pair it finds. -/
def planClaim (nonce : Bytes) (current : StoredPair) (at_ : JsNumber)
    (captured : SuccessfulUsePolicy) : Except PairStoreError (Plan SuccessfulUseClaim) :=
  if current.status = .expired ∧ current.timeExpired at_ = true then .ok (.done .timeExpired)
  else if current.status = .expired ∧ current.usageExhausted = true then
    .ok (.done .usageExhausted)
  else if current.status ≠ .active then .ok (.done .inactive)
  else if current.timeExpired at_ = true then store.planExpired nonce current .timeExpired
  else if current.usageExhausted = true then store.planExpired nonce current .usageExhausted
  else store.planUse nonce current at_ captured

/-- `claimSuccessfulUse(pairId, at, expected)`. -/
def claimSuccessfulUse (nonce : Bytes) (pairId : JsString) (at_ : JsNumber)
    (expected : SuccessfulUsePolicy) (tables : PairTables) :
    Except PairStoreError (Plan SuccessfulUseClaim) := do
  let pairId : PairId ← ofHa (checked pairId "successful-use claim input invalid")
  ofHa (ensure (at_.isSafeInteger = true ∧ at_.lt (.fin 0) = false)
    "successful-use claim input invalid")
  let key ← ofServer (Pair.canonicalAuthorizationJwk expected.pubJwk)
  (tables.pairOf pairId.1).elim (.ok (.done .missing)) fun row => do
    let current ← ofHa (rowToPair row)
    store.planClaim nonce current at_ { expected with pubJwk := key.toJwk }

/-! ## Approving and rotating -/

/-- The registration that is pending is the expected one. -/
def pendingMatches (row : PendingRow) (expected : CanonicalPairRegistration) (requestedAt : SafeNat) :
    Except HaError Bool :=
  if row.requestedAt ≠ (requestedAt.1 : ℤ) then .ok false
  else do
    let registration ← normalizeRegistration row.registration
    sameCanonical registration.toJs expected.toJs

/-- `approvePending` once the registration has been found unchanged. -/
def planApproved (tables : PairTables) (mutation : BpcPairMutation) (token : Bounded 256)
    (expected : CanonicalPairRegistration) (requestedAt maxActivePairs : SafeNat)
    (pair : CanonicalStoredPair) : Except HaError (Plan Bool) := do
  ensure (tables.activeCount ≤ Js.maxSafeInteger ∧ tables.activeCount < maxActivePairs.1)
    ("Maximum pair capacity (" ++ toString maxActivePairs.1 ++ ") reached")
  ensure (tables.pairOf pair.id.1 = none) "replacement pair identity already exists"
  pure (.write mutation (.approve token expected requestedAt maxActivePairs pair) (.ok true))

/-- `approvePending(token, expected, pair, maxActivePairs)`. -/
def approvePending (pendingNonce pairNonce : Bytes) (token : JsString) (expected : JsValue)
    (requestedAt : JsNumber) (pairValue : JsValue) (maxActivePairs : JsNumber)
    (tables : PairTables) : Except PairStoreError (Plan Bool) := do
  let token : Bounded 256 ← ofHa (checked token "approval input invalid")
  let maxActivePairs ← ofHa (found ((safeNatOfNumber maxActivePairs).filter fun n => 1 ≤ n.1)
    "approval input invalid")
  let expectedRegistration ← ofHa (normalizeRegistration expected)
  let pair ← ofHa (normalizePair pairValue false)
  ofHa (assertApprovalPair expectedRegistration pair)
  let requestedAt ← ofHa (found (safeNatOfNumber requestedAt) "pending time invalid")
  let expectedPending ← ofHa (store.codec.sealRegistration pendingNonce expectedRegistration
    (store.pendingAad .pairApprove token requestedAt))
  let payload ← ofHa (store.codec.sealPair pairNonce pair (store.pairAad .pairApprove pair.id))
  (tables.pendingOf token.1).elim (.ok (.done false)) fun row => do
    let same ← ofHa (pendingMatches row expectedRegistration requestedAt)
    if same = false then pure (.done false)
    else ofHa (planApproved tables (.pairApprove token requestedAt expectedPending pair.id payload)
      token expectedRegistration requestedAt maxActivePairs pair)

/-- The pair of a row is the expected one. -/
def pairMatches (row : PairRow) (expected : CanonicalStoredPair) : Except HaError Bool := do
  let stored ← rowToPair row
  let current ← normalizePair stored.toJs false
  sameCanonical current.toJs expected.toJs

/-- `rotatePair(expectedOld, replacement)`. -/
def rotatePair (oldNonce newNonce : Bytes) (expectedOldValue replacementValue : JsValue)
    (tables : PairTables) : Except PairStoreError (Plan Bool) := do
  let expectedOld ← ofHa (normalizePair expectedOldValue false)
  let replacement ← ofHa (normalizePair replacementValue false)
  ofHa (ensure (expectedOld.id.1 ≠ replacement.id.1) "rotation identities must differ")
  ofHa (ensure (expectedOld.status = .active ∧
      Pair.hasInitialPairState replacement.toStored = true ∧
      Pair.rotationPolicyMatches expectedOld.toStored replacement.toStored = true)
    "rotation state/policy inheritance invalid")
  let oldPayload ← ofHa (store.codec.sealPair oldNonce expectedOld
    (store.pairAad .pairRotate expectedOld.id))
  let newPayload ← ofHa (store.codec.sealPair newNonce replacement
    (store.pairAad .pairRotate replacement.id))
  (tables.pairOf expectedOld.id.1).elim (.ok (.done false)) fun row => do
    let same ← ofHa (pairMatches row expectedOld)
    if same = false then pure (.done false)
    else if expectedOld.status ≠ .active ∨ (tables.pairOf replacement.id.1).isSome = true then
      pure (.done false)
    else pure (.write (.pairRotate expectedOld.id oldPayload replacement.id newPayload)
      (.rotate expectedOld replacement) (.ok true))

end PgTransactionalPairStore

end Durable
