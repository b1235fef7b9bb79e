import BpcProtocol.Ha.Signing

set_option autoImplicit false

/-! # Source leases

Guard-signed, expiring leases of the authority to write a stream, and the transaction that installs
one: `installSourceLeaseGrant` appends the grant to `bpc_ha.source_lease_history` and moves the head
row `bpc_ha.source_lease` to it. -/

namespace Ha

open Fallible Relational

inductive LeaseStatus where
  | active
  | revoked
  deriving DecidableEq, Repr

/-- `status` as the text it is stored and framed as. -/
def LeaseStatus.text : LeaseStatus → JsString
  | .active => Js.lit "active"
  | .revoked => Js.lit "revoked"

/-- `BareSourceLeaseGrant`. -/
structure BareSourceLeaseGrant where
  streamId : JsString
  epoch : ℤ
  status : LeaseStatus
  holderNodeId : JsString
  leaseId : JsString
  commandId : JsString
  expiresAtMs : ℤ
  maxTransactionDurationMs : ℤ
  grantSeq : ℤ
  prevDigest : Option JsString
  deriving DecidableEq, Repr

/-- `SourceLeaseGrant`. A row of `bpc_ha.source_lease` and of its history holds exactly these
    fields, in columns of its own. -/
structure SourceLeaseGrant extends BareSourceLeaseGrant where
  grantDigest : JsString
  keyId : JsString
  signature : JsString
  deriving DecidableEq, Repr

/-- `leaseMessage(value, digest)`. -/
def leaseMessage (value : BareSourceLeaseGrant) (digest : JsString) : Bytes :=
  frame [.text (Js.lit "bpc-source-lease/v1"), .text value.streamId, .number value.epoch,
    .text value.status.text, .text value.holderNodeId, .text value.leaseId, .text value.commandId,
    .number value.expiresAtMs, .number value.maxTransactionDurationMs, .number value.grantSeq,
    .ofOption value.prevDigest, .text digest]

/-- `validateBareLease(value)`. -/
def validateBareLease (value : BareSourceLeaseGrant) : Except HaError Unit := do
  id value.streamId streamRe "streamId"
  id value.holderNodeId idRe "holderNodeId"
  id value.leaseId idRe "leaseId"
  id value.commandId idRe "commandId"
  let _ ← safeInt value.epoch "epoch" 1 maxEpoch
  let _ ← safeInt value.expiresAtMs "expiresAtMs" 0 maxMs
  let _ ← safeInt value.maxTransactionDurationMs "maxTransactionDurationMs" 1 300000
  let _ ← safeInt value.grantSeq "grantSeq" 1
  ensure (value.prevDigest.all hex64 = true) "invalid prevDigest"

variable (c : Crypto)

/-- `signSourceLeaseGrant(keyId, key, bare)`. -/
def signSourceLeaseGrant (keyId : JsString) (key : c.PrivateKey) (bare : BareSourceLeaseGrant) :
    Except HaError SourceLeaseGrant := do
  validateBareLease bare
  let grantDigest := c.sha256 (leaseMessage bare [])
  let signature ← sign c keyId key (leaseMessage bare grantDigest)
  pure { bare with grantDigest, keyId, signature }

/-- `verifySourceLeaseGrant(resolver, value)`. -/
def verifySourceLeaseGrant (resolver : PublicKeyResolver c) (value : SourceLeaseGrant) :
    Except HaError Unit := do
  validateBareLease value.toBareSourceLeaseGrant
  ensure (hex64 value.grantDigest = true ∧
    c.sha256 (leaseMessage value.toBareSourceLeaseGrant []) = value.grantDigest)
    "lease grant digest mismatch"
  verify c resolver value.keyId (leaseMessage value.toBareSourceLeaseGrant value.grantDigest)
    value.signature

/-- `leaseFromRow(row)`. -/
def leaseFromRow (row : SourceLeaseGrant) : Except HaError SourceLeaseGrant := do
  let epoch ← safeInt row.epoch "epoch" 1 maxEpoch
  let expiresAtMs ← safeInt row.expiresAtMs "expiresAtMs" 0 maxMs
  let maxTransactionDurationMs ←
    safeInt row.maxTransactionDurationMs "maxTransactionDurationMs" 1 300000
  let grantSeq ← safeInt row.grantSeq "grantSeq" 1
  pure { row with epoch, expiresAtMs, maxTransactionDurationMs, grantSeq }

/-- Reading a row back checks its numbers and changes nothing. -/
theorem eq_of_leaseFromRow {row lease : SourceLeaseGrant} (h : leaseFromRow row = .ok lease) :
    lease = row := by
  revert h
  simp only [leaseFromRow, bind_eq_ok, safeInt_eq_ok, pure_eq_ok]
  rintro ⟨_, ⟨-, rfl⟩, _, ⟨-, rfl⟩, _, ⟨-, rfl⟩, _, ⟨-, rfl⟩, rfl⟩
  rfl

/-! ## Tables -/

/-- The `CHECK` constraints of `bpc_ha.source_lease`, which its history copies. -/
def sourceLeaseCheck (r : SourceLeaseGrant) : Bool :=
  decide (1 ≤ r.epoch ∧ r.epoch ≤ maxEpoch) &&
  decide (0 ≤ r.expiresAtMs ∧ r.expiresAtMs ≤ maxMs) &&
  decide (1 ≤ r.maxTransactionDurationMs ∧ r.maxTransactionDurationMs ≤ 300000) &&
  decide (1 ≤ r.grantSeq ∧ r.grantSeq ≤ Js.maxSafeInteger) &&
  r.prevDigest.all hex64 && hex64 r.grantDigest

/-- `bpc_ha.source_lease`, keyed by stream. -/
def sourceLeaseSchema : Schema SourceLeaseGrant where
  check := sourceLeaseCheck
  clash a b := a.streamId == b.streamId

/-- `bpc_ha.source_lease_history`: keyed by stream and sequence, unique in the stream's digests and
    in its commands. -/
def sourceLeaseHistorySchema : Schema SourceLeaseGrant where
  check := sourceLeaseCheck
  clash a b := a.streamId == b.streamId &&
    (a.grantSeq == b.grantSeq || a.grantDigest == b.grantDigest || a.commandId == b.commandId)

/-- The two lease tables of one database. -/
@[ext]
structure LeaseDb where
  sourceLease : Table sourceLeaseSchema
  sourceLeaseHistory : Table sourceLeaseHistorySchema
  deriving DecidableEq

/-- The tables as provisioned. -/
def LeaseDb.empty : LeaseDb := ⟨.empty _, .empty _⟩

/-! ## Installing a grant -/

/-- The history rows of one stream and epoch. -/
def epochRows (db : LeaseDb) (streamId : JsString) (epoch : ℤ) : List SourceLeaseGrant :=
  db.sourceLeaseHistory.rows.filter fun r => r.streamId == streamId && r.epoch == epoch

/-- The epoch's first row must name the grant's holder, lease and transaction window. -/
def checkFirst (grant : SourceLeaseGrant) : Option SourceLeaseGrant → Except HaError Unit
  | none => pure ()
  | some first => do
      ensure (first.holderNodeId = grant.holderNodeId ∧ first.leaseId = grant.leaseId)
        "holder/lease/transaction-window identity cannot pivot within an epoch"
      let window ← safeInt first.maxTransactionDurationMs "epoch transaction window" 1 300000
      ensure (window = grant.maxTransactionDurationMs)
        "holder/lease/transaction-window identity cannot pivot within an epoch"

/-- The grant must not expire before the epoch's latest expiry. -/
def checkPriorMax (grant : SourceLeaseGrant) : Option ℤ → Except HaError Unit
  | none => pure ()
  | some priorMax => do
      let prior ← safeInt priorMax "prior maximum expiry" 0 maxMs
      ensure (¬ grant.expiresAtMs < prior) "lease expiry cannot decrease within an epoch"

/-- The checks of `installSourceLeaseGrant` on a grant whose command is new, against the head row
    it read (`current`) and the history of the grant's epoch. -/
def admitGrant (db : LeaseDb) (current : Option SourceLeaseGrant) (grant : SourceLeaseGrant) :
    Except HaError Unit := do
  ensure (grant.grantSeq = (current.map (·.grantSeq)).getD 0 + 1 ∧
    grant.prevDigest = current.map (·.grantDigest)) "lease grant does not advance the signed chain"
  ensure (∀ cur ∈ current, ¬ grant.epoch < cur.epoch) "lease epoch regression"
  let rows := epochRows db grant.streamId grant.epoch
  checkFirst grant (orderBy (·.grantSeq) rows).head?
  ensure (¬ ((rows.any fun r => r.status == .revoked) = true ∧ grant.status = .active))
    "revoked epoch cannot reactivate"
  checkPriorMax grant (maxOf (·.expiresAtMs) rows)

/-- The head row's new columns: the grant's, under the row's own stream. -/
def headColumns (grant row : SourceLeaseGrant) : SourceLeaseGrant :=
  { grant with streamId := row.streamId }

/-- The writes of `installSourceLeaseGrant`: the history row, then the head row inserted or moved
    forward from the digest that was read. -/
def writeGrant (db : LeaseDb) (current : Option SourceLeaseGrant) (grant : SourceLeaseGrant) :
    Except HaError LeaseDb := do
  let history ← query (db.sourceLeaseHistory.insert grant)
  match current with
  | none => do
      let head ← query (db.sourceLease.insert grant)
      pure { sourceLease := head, sourceLeaseHistory := history }
  | some cur => do
      let (head, rowCount) ← query (db.sourceLease.update
        (fun r => r.streamId == grant.streamId && r.grantDigest == cur.grantDigest)
        (headColumns grant))
      ensure (rowCount = 1) "lease head forward-CAS failed"
      pure { sourceLease := head, sourceLeaseHistory := history }

/-- The stream's head row, whose signature is checked again. -/
def currentLease (resolver : PublicKeyResolver c) (db : LeaseDb) (streamId : JsString) :
    Except HaError (Option SourceLeaseGrant) :=
  match db.sourceLease.select fun r => r.streamId == streamId with
  | none => pure none
  | some row => do
      let lease ← leaseFromRow row
      verifySourceLeaseGrant c resolver lease
      pure (some lease)

/-- `installSourceLeaseGrant(exec, resolver, grant)`: one transaction under the stream's advisory
    lock. -/
def installSourceLeaseGrant (resolver : PublicKeyResolver c) (grant : SourceLeaseGrant)
    (db : LeaseDb) : Except HaError LeaseDb := do
  verifySourceLeaseGrant c resolver grant
  let current ← currentLease c resolver db grant.streamId
  match db.sourceLeaseHistory.select
      fun r => r.streamId == grant.streamId && r.commandId == grant.commandId with
  | some byCommand => do
      ensure (byCommand.grantDigest = grant.grantDigest)
        "lease command reused with different grant"
      pure db
  | none => do
      admitGrant db current grant
      writeGrant db current grant

end Ha
