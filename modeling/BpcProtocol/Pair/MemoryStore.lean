import BpcProtocol.Pair.Policy

set_option autoImplicit false

/-! # The memory pair store

`MemoryPairStore` runs each operation alone: `exclusively` queues it behind the one before, and no
operation awaits anything inside. So an operation is a function of the state. What it throws it
throws before it writes. -/

namespace Pair

open Fallible

/-- `MemoryPairStore`. -/
structure MemoryPairStore where
  pairs : OrderedMap JsString StoredPair
  pending : OrderedMap JsString PendingPairing

/-- `SuccessfulUseClaim`. -/
inductive SuccessfulUseClaim where
  | claimed
  | missing
  | inactive
  | policyChanged
  | timeExpired
  | usageExhausted
  deriving DecidableEq, Repr

/-- `JSON.stringify(pair)`. -/
def StoredPair.text (p : StoredPair) : Option JsString :=
  Js.stringify p.toJs

/-- `JSON.stringify(pending)`. -/
def PendingPairing.text (p : PendingPairing) : Option JsString :=
  Js.stringify p.toJs

/-! ## Limits of a pair -/

namespace StoredPair

variable (p : StoredPair)

/-- `pair.expiresAt !== undefined && pair.expiresAt < at`. -/
def timeExpired (at_ : JsNumber) : Bool :=
  p.expiresAt.any fun e => e.lt at_

/-- `pair.maxRequests && pair.maxRequests > 0 && requests >= pair.maxRequests`. -/
def capReached (requests : JsNumber) : Bool :=
  p.maxRequests.any fun m => m.truthy && (JsNumber.fin 0).lt m && requests.ge m

def usageExhausted : Bool :=
  p.capReached p.requests

/-- `{ ...pair, status }`. -/
def withStatus (status : PairStatus) : StoredPair :=
  { p with status }

/-- The pair after a successful use. -/
def used (at_ : JsNumber) : StoredPair :=
  { p with
    requests := p.requests.incr
    lastActive := some at_
    failedSigs := .fin 0
    cumulativeFailures := some (.fin 0)
    firstFailureAt := some none
    status := if p.capReached p.requests.incr then .expired else p.status }

end StoredPair

/-! ## Operations -/

namespace MemoryPairStore

def empty : MemoryPairStore :=
  ⟨.empty, .empty⟩

variable (s : MemoryPairStore)

/-- `this.pairs.set(pairId, pair)`. -/
def setPair (pairId : JsString) (pair : StoredPair) : MemoryPairStore :=
  { s with pairs := s.pairs.set pairId pair }

/-- The number of pairs with status `active`. -/
def active : ℕ :=
  s.pairs.count fun p => decide (p.status = .active)

/-- `setPending(token, registration, requestedAt)`. -/
def setPending (token : JsString) (pending : PendingPairing) : MemoryPairStore :=
  { s with pending := s.pending.set token pending }

/-- What `atomicMutate` does with the value of the callback. -/
def commitMutation (pairId : JsString) (current : StoredPair) (next : Option StoredPair) :
    Except ServerError (Option StoredPair × MemoryPairStore) :=
  match next with
  | none => .ok (some current, s)
  | some next => do
      ensure (next.id = pairId) "Atomic pair mutation cannot change pair identity"
      pure (some next, s.setPair pairId next)

/-- `atomicMutate(pairId, mutate)`. -/
def atomicMutate (pairId : JsString)
    (mutate : StoredPair → Except ServerError (Option StoredPair)) :
    Except ServerError (Option StoredPair × MemoryPairStore) :=
  match s.pairs.get pairId with
  | none => .ok (none, s)
  | some current => do
      let next ← mutate current
      s.commitMutation pairId current next

/-- `approvePending` once the registration has been found unchanged. -/
def approve (token : JsString) (expected : PendingPairing) (pair : StoredPair)
    (maxActivePairs : JsNumber) : Except ServerError (Bool × MemoryPairStore) := do
  let fits ← andThen (hasInitialPairState pair) (pairMatchesRegistration pair expected.registration)
  ensure (fits = true) "Approved pair initial state is invalid"
  ensure (JsNumber.ge (.fin (s.active : ℚ)) maxActivePairs = false)
    ("Maximum pair capacity (" ++ Js.message (Js.numberText maxActivePairs) ++ ") reached")
  ensure (s.pairs.has pair.id = false) "Replacement pair identity already exists"
  pure (true, { pairs := s.pairs.set pair.id pair, pending := s.pending.delete token })

/-- `approvePending(token, expected, pair, maxActivePairs)`. -/
def approvePending (token : JsString) (expected : PendingPairing) (pair : StoredPair)
    (maxActivePairs : JsNumber) : Except ServerError (Bool × MemoryPairStore) :=
  match s.pending.get token with
  | none => .ok (false, s)
  | some pending =>
      if pending.text ≠ expected.text then .ok (false, s)
      else s.approve token expected pair maxActivePairs

/-- What `rotatePair` demands of the pair it finds. -/
def rotates (current expectedOld replacement : StoredPair) : Bool :=
  decide (current.text = expectedOld.text) && decide (current.status = .active) &&
    hasInitialPairState replacement && rotationPolicyMatches current replacement &&
    !s.pairs.has replacement.id

/-- `rotatePair(expectedOld, replacement)`. -/
def rotatePair (expectedOld replacement : StoredPair) : Bool × MemoryPairStore :=
  match s.pairs.get expectedOld.id with
  | none => (false, s)
  | some current =>
      if s.rotates current expectedOld replacement = true then
        (true, (s.setPair current.id (current.withStatus .rotated)).setPair replacement.id
          replacement)
      else (false, s)

/-- The last check of `claimSuccessfulUse`, and the use itself. -/
def use (pairId : JsString) (current : StoredPair) (at_ : JsNumber)
    (captured : SuccessfulUsePolicy) : Except ServerError (SuccessfulUseClaim × MemoryPairStore) := do
  let agrees ← successfulUsePolicyMatches current captured
  pure (if agrees then (.claimed, s.setPair pairId (current.used at_)) else (.policyChanged, s))

/-- `claimSuccessfulUse` on the pair it finds. -/
def claimCurrent (pairId : JsString) (current : StoredPair) (at_ : JsNumber)
    (captured : SuccessfulUsePolicy) : Except ServerError (SuccessfulUseClaim × MemoryPairStore) :=
  if current.status = .expired ∧ current.timeExpired at_ = true then .ok (.timeExpired, s)
  else if current.status = .expired ∧ current.usageExhausted = true then .ok (.usageExhausted, s)
  else if current.status ≠ .active then .ok (.inactive, s)
  else if current.timeExpired at_ = true then
    .ok (.timeExpired, s.setPair pairId (current.withStatus .expired))
  else if current.usageExhausted = true then
    .ok (.usageExhausted, s.setPair pairId (current.withStatus .expired))
  else s.use pairId current at_ captured

/-- `claimSuccessfulUse` inside `exclusively`. -/
def claim (pairId : JsString) (at_ : JsNumber) (captured : SuccessfulUsePolicy) :
    Except ServerError (SuccessfulUseClaim × MemoryPairStore) :=
  match s.pairs.get pairId with
  | none => .ok (.missing, s)
  | some current => s.claimCurrent pairId current at_ captured

/-- A number that may stand for a time. -/
def isTimestamp (n : JsNumber) : Bool :=
  n.isSafeInteger && !n.lt (.fin 0)

/-- `claimSuccessfulUse(pairId, at, expected)`. -/
def claimSuccessfulUse (pairId : JsString) (at_ : JsNumber) (expected : SuccessfulUsePolicy) :
    Except ServerError (SuccessfulUseClaim × MemoryPairStore) := do
  ensure (isTimestamp at_ = true) "Successful-use timestamp is invalid"
  let key ← canonicalAuthorizationJwk expected.pubJwk
  s.claim pairId at_ { expected with pubJwk := key.toJwk }

/-- A change of status of a pair that satisfies a condition. -/
def transition (pairId : JsString) (cond : StoredPair → Bool) (status : PairStatus) :
    Bool × MemoryPairStore :=
  match s.pairs.get pairId with
  | none => (false, s)
  | some pair =>
      if pair.status = .active ∧ cond pair = true then
        (true, s.setPair pairId (pair.withStatus status))
      else (false, s)

/-- `expireIfElapsed(pairId, now)`. -/
def expireIfElapsed (pairId : JsString) (now : JsNumber) :
    Except ServerError (Bool × MemoryPairStore) := do
  ensure (isTimestamp now = true) "Expiry check timestamp is invalid"
  pure (s.transition pairId (fun p => p.expiresAt.any fun e => !e.ge now) .expired)

/-- `expireIfUsageExhausted(pairId)`. -/
def expireIfUsageExhausted (pairId : JsString) : Bool × MemoryPairStore :=
  s.transition pairId
    (fun p => p.maxRequests.any fun m => m.truthy && !(JsNumber.fin 0).ge m && !p.requests.lt m)
    .expired

/-- `lockIfFailureThreshold(pairId, minimumFailures)`. -/
def lockIfFailureThreshold (pairId : JsString) (minimumFailures : JsNumber) :
    Except ServerError (Bool × MemoryPairStore) := do
  ensure (minimumFailures.isSafeInteger = true ∧ minimumFailures.lt (.fin 1) = false)
    "Failure threshold is invalid"
  pure (s.transition pairId (fun p => !p.failedSigs.lt minimumFailures) .locked)

end MemoryPairStore

end Pair
