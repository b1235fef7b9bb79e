import BpcProtocol.Pair.Registry

set_option autoImplicit false

/-! # A registry without an atomic store

Over a store that only gets and sets pairs, `PairRegistry` reads a pair, decides, and writes the
pair back. The decision is the one that `MemoryPairStore` makes inside `exclusively`. -/

namespace Pair

open Fallible

/-! ## The decision -/

namespace StoredPair

variable (source : StoredPair) (at_ : JsNumber) (captured : SuccessfulUsePolicy)

/-- The last check of the callback `claim`, and the use itself. -/
def claimUse : Except ServerError (SuccessfulUseClaim × StoredPair) := do
  let agrees ← successfulUsePolicyMatches source captured
  pure (if agrees then (.claimed, source.used at_) else (.policyChanged, source))

/-- The callback `claim` of `claimSuccessfulUseOutcome`. -/
def claim : Except ServerError (SuccessfulUseClaim × StoredPair) :=
  if source.status = .expired then
    if source.timeExpired at_ = true then .ok (.timeExpired, source)
    else if source.usageExhausted = true then .ok (.usageExhausted, source)
    else .ok (.inactive, source)
  else if source.status ≠ .active then .ok (.inactive, source)
  else if source.timeExpired at_ = true then .ok (.timeExpired, source.withStatus .expired)
  else if source.usageExhausted = true then .ok (.usageExhausted, source.withStatus .expired)
  else source.claimUse at_ captured

/-- The branches of the decision in the order of the atomic stores. -/
theorem claim_eq :
    source.claim at_ captured =
      if source.status = .expired ∧ source.timeExpired at_ = true then .ok (.timeExpired, source)
      else if source.status = .expired ∧ source.usageExhausted = true then
        .ok (.usageExhausted, source)
      else if source.status ≠ .active then .ok (.inactive, source)
      else if source.timeExpired at_ = true then .ok (.timeExpired, source.withStatus .expired)
      else if source.usageExhausted = true then .ok (.usageExhausted, source.withStatus .expired)
      else source.claimUse at_ captured := by
  unfold claim
  by_cases hexpired : source.status = .expired
  · have hinactive : source.status ≠ .active := by
      rw [hexpired]
      decide
    simp only [hexpired, true_and, if_true]
    rw [if_pos (hexpired ▸ hinactive : PairStatus.expired ≠ .active)]
  · simp only [hexpired, false_and, if_false]

end StoredPair

/-! ## The registry -/

/-- What such a registry works on: the pairs of its store, and its `ipFailureTracker`. -/
structure PlainRegistry where
  pairs : OrderedMap JsString StoredPair
  ipFailureTracker : IpFailureTracker

namespace PlainRegistry

variable (r : PlainRegistry)

/-- `store.set(pair)`. -/
def set (pair : StoredPair) : PlainRegistry :=
  { r with pairs := r.pairs.set pair.id pair }

/-- The entries of a pair leave the tracker once a use of it is claimed. -/
def settleClaim (pairId : JsString) (outcome : SuccessfulUseClaim) : PlainRegistry :=
  if outcome = .claimed then
    { r with ipFailureTracker := clearIpFailures r.ipFailureTracker pairId }
  else r

/-- `claimSuccessfulUseOutcome(pairId, at, expected)`. -/
def claimSuccessfulUseOutcome (pairId : JsString) (at_ : JsNumber)
    (expected : SuccessfulUsePolicy) : Except ServerError (SuccessfulUseClaim × PlainRegistry) :=
  match r.pairs.get pairId with
  | none => .ok (.missing, r)
  | some pair => do
      let decision ← pair.claim at_ expected
      pure (decision.1, (r.set decision.2).settleClaim pairId decision.1)

/-- A change of status of a pair that satisfies a condition. -/
def transition (pairId : JsString) (cond : StoredPair → Bool) (status : PairStatus) :
    Bool × PlainRegistry :=
  match r.pairs.get pairId with
  | none => (false, r)
  | some pair =>
      if pair.status ≠ .active ∨ cond pair = false then (false, r)
      else (true, r.set (pair.withStatus status))

/-- `markExpired(pairId, now)`. -/
def markExpired (pairId : JsString) (now : JsNumber) : Bool × PlainRegistry :=
  r.transition pairId (fun p => p.expiresAt.any fun e => !e.ge now) .expired

/-- `markUsageExpired(pairId)`. -/
def markUsageExpired (pairId : JsString) : Bool × PlainRegistry :=
  r.transition pairId
    (fun p => p.maxRequests.any fun m => m.truthy && !(JsNumber.fin 0).ge m && !p.requests.lt m)
    .expired

/-- `ensureLocked(pairId, minimumFailures)`. -/
def ensureLocked (pairId : JsString) (minimumFailures : JsNumber) : Bool × PlainRegistry :=
  r.transition pairId (fun p => !p.failedSigs.lt minimumFailures) .locked

end PlainRegistry

/-! ## Agreement with the memory store -/

/-- Whether a policy matches depends on its key and not on how the key is written. -/
theorem successfulUsePolicyMatches_canonical {expected : SuccessfulUsePolicy}
    {key : CanonicalAuthorizationJwk} (hkey : canonicalAuthorizationJwk expected.pubJwk = .ok key)
    (p : StoredPair) :
    successfulUsePolicyMatches p { expected with pubJwk := key.toJwk } =
      successfulUsePolicyMatches p expected := by
  have hsame : sameAuthorizationJwk p.pubJwk key.toJwk =
      sameAuthorizationJwk p.pubJwk expected.pubJwk := by
    rw [sameAuthorizationJwk, sameAuthorizationJwk, hkey, canonicalAuthorizationJwk_toJwk hkey]
  rw [successfulUsePolicyMatches, successfulUsePolicyMatches, hsame]

/-- What a claim does not read of a policy it does not decide by. -/
theorem claim_canonical {expected : SuccessfulUsePolicy} {key : CanonicalAuthorizationJwk}
    (hkey : canonicalAuthorizationJwk expected.pubJwk = .ok key) (p : StoredPair)
    (at_ : JsNumber) :
    p.claim at_ { expected with pubJwk := key.toJwk } = p.claim at_ expected := by
  rw [StoredPair.claim, StoredPair.claim, StoredPair.claimUse, StoredPair.claimUse,
    successfulUsePolicyMatches_canonical hkey]

/-- Keys that can be read leave nothing that a claim could throw. -/
theorem claim_isOk {p : StoredPair} {expected : SuccessfulUsePolicy}
    {key captured : CanonicalAuthorizationJwk} (hkey : canonicalAuthorizationJwk p.pubJwk = .ok key)
    (hcaptured : canonicalAuthorizationJwk expected.pubJwk = .ok captured) (at_ : JsNumber) :
    ∃ outcome q, p.claim at_ expected = .ok (outcome, q) := by
  have hmatches : ∃ agrees, successfulUsePolicyMatches p expected = .ok agrees := by
    rw [successfulUsePolicyMatches, sameAuthorizationJwk, hkey, hcaptured, andThen]
    split
    · exact ⟨_, rfl⟩
    · exact ⟨_, rfl⟩
  obtain ⟨agrees, hagrees⟩ := hmatches
  have huse : ∃ d, p.claimUse at_ expected = .ok d := by
    rw [StoredPair.claimUse, hagrees]
    exact ⟨_, rfl⟩
  obtain ⟨d, hd⟩ := huse
  unfold StoredPair.claim
  split_ifs
  · exact ⟨_, _, rfl⟩
  · exact ⟨_, _, rfl⟩
  · exact ⟨_, _, rfl⟩
  · exact ⟨_, _, rfl⟩
  · exact ⟨_, _, rfl⟩
  · exact ⟨_, _, rfl⟩
  · exact ⟨_, _, hd⟩

/-- What a claim makes of a pair: the pair as it is, expired, or used. -/
theorem claim_left {p q : StoredPair} {at_ : JsNumber} {captured : SuccessfulUsePolicy}
    {outcome : SuccessfulUseClaim} (h : p.claim at_ captured = .ok (outcome, q)) :
    outcome ≠ .claimed ∧ (q = p ∨ q = p.withStatus .expired) ∨
      outcome = .claimed ∧ q = p.used at_ := by
  unfold StoredPair.claim at h
  split_ifs at h
  · cases h
    exact .inl ⟨by decide, .inl rfl⟩
  · cases h
    exact .inl ⟨by decide, .inl rfl⟩
  · cases h
    exact .inl ⟨by decide, .inl rfl⟩
  · cases h
    exact .inl ⟨by decide, .inl rfl⟩
  · cases h
    exact .inl ⟨by decide, .inr rfl⟩
  · cases h
    exact .inl ⟨by decide, .inr rfl⟩
  · simp only [StoredPair.claimUse, bind_eq_ok, pure_eq_ok] at h
    obtain ⟨agrees, -, hq⟩ := h
    cases agrees with
    | true =>
        cases hq
        exact .inr ⟨rfl, rfl⟩
    | false =>
        cases hq
        exact .inl ⟨by decide, .inl rfl⟩

theorem id_of_claim {p q : StoredPair} {at_ : JsNumber} {captured : SuccessfulUsePolicy}
    {outcome : SuccessfulUseClaim} (h : p.claim at_ captured = .ok (outcome, q)) : q.id = p.id := by
  obtain ⟨-, rfl | rfl⟩ | ⟨-, rfl⟩ := claim_left h
  · rfl
  · rfl
  · rfl

namespace MemoryPairStore

variable {s : MemoryPairStore} {pairId : JsString} {pair q : StoredPair}

theorem get_setPair (s : MemoryPairStore) (pairId : JsString) (pair : StoredPair) :
    (s.setPair pairId pair).pairs.get pairId = some pair :=
  s.pairs.get_set_self pairId pair

/-- **The memory store makes the decision** and keeps what the decision makes of the pair. -/
theorem claimCurrent_of_claim {at_ : JsNumber} {captured : SuccessfulUsePolicy}
    {outcome : SuccessfulUseClaim} (hget : s.pairs.get pairId = some pair)
    (hclaim : pair.claim at_ captured = .ok (outcome, q)) :
    ∃ s', s.claimCurrent pairId pair at_ captured = .ok (outcome, s') ∧
      s'.pairs.get pairId = some q := by
  rw [StoredPair.claim_eq] at hclaim
  unfold claimCurrent
  split_ifs at hclaim ⊢
  · cases hclaim
    exact ⟨s, rfl, hget⟩
  · cases hclaim
    exact ⟨s, rfl, hget⟩
  · cases hclaim
    exact ⟨s, rfl, hget⟩
  · cases hclaim
    exact ⟨_, rfl, get_setPair s pairId _⟩
  · cases hclaim
    exact ⟨_, rfl, get_setPair s pairId _⟩
  · simp only [StoredPair.claimUse, bind_eq_ok, pure_eq_ok] at hclaim
    obtain ⟨agrees, hagrees, hq⟩ := hclaim
    simp only [use, bind_eq_ok, pure_eq_ok]
    cases agrees with
    | true =>
        cases hq
        exact ⟨_, ⟨true, hagrees, rfl⟩, get_setPair s pairId _⟩
    | false =>
        cases hq
        exact ⟨_, ⟨false, hagrees, rfl⟩, hget⟩

theorem claimSuccessfulUse_of_claim {at_ : JsNumber} {expected : SuccessfulUsePolicy}
    {key : CanonicalAuthorizationJwk} {outcome : SuccessfulUseClaim}
    (hat : isTimestamp at_ = true) (hkey : canonicalAuthorizationJwk expected.pubJwk = .ok key)
    (hget : s.pairs.get pairId = some pair)
    (hclaim : pair.claim at_ expected = .ok (outcome, q)) :
    ∃ s', s.claimSuccessfulUse pairId at_ expected = .ok (outcome, s') ∧
      s'.pairs.get pairId = some q := by
  rw [← claim_canonical hkey] at hclaim
  obtain ⟨s', hs', hleft⟩ := claimCurrent_of_claim hget hclaim
  refine ⟨s', ?_, hleft⟩
  simp only [claimSuccessfulUse, bind_eq_ok, ensure_eq_ok, exists_unit]
  exact ⟨hat, key, hkey, by rw [claim, hget]; exact hs'⟩

theorem transition_of_get {cond : StoredPair → Bool} (status : PairStatus) {applies : Bool}
    (hget : s.pairs.get pairId = some pair)
    (happlies : applies = (decide (pair.status = .active) && cond pair)) :
    ∃ s', s.transition pairId cond status = (applies, s') ∧
      s'.pairs.get pairId = some (if applies = true then pair.withStatus status else pair) := by
  rw [transition, hget]
  cases applies with
  | true =>
      have hboth : pair.status = .active ∧ cond pair = true := by simpa using happlies.symm
      exact ⟨_, if_pos hboth, get_setPair s pairId _⟩
  | false =>
      have hnot : ¬(pair.status = .active ∧ cond pair = true) := by simpa using happlies.symm
      exact ⟨s, if_neg hnot, hget⟩

end MemoryPairStore

namespace PlainRegistry

variable {r : PlainRegistry} {pairId : JsString} {pair q : StoredPair}

theorem get_set (r : PlainRegistry) {pairId : JsString} (hid : pair.id = pairId) :
    (r.set pair).pairs.get pairId = some pair :=
  hid ▸ r.pairs.get_set_self pair.id pair

theorem pairs_settleClaim (r : PlainRegistry) (pairId : JsString) (outcome : SuccessfulUseClaim) :
    (r.settleClaim pairId outcome).pairs = r.pairs := by
  unfold settleClaim
  split <;> rfl

theorem claimSuccessfulUseOutcome_of_claim {at_ : JsNumber} {expected : SuccessfulUsePolicy}
    {outcome : SuccessfulUseClaim} (hget : r.pairs.get pairId = some pair)
    (hclaim : pair.claim at_ expected = .ok (outcome, q)) (hid : q.id = pairId) :
    ∃ r', r.claimSuccessfulUseOutcome pairId at_ expected = .ok (outcome, r') ∧
      r'.pairs.get pairId = some q := by
  refine ⟨(r.set q).settleClaim pairId outcome, ?_, ?_⟩
  · rw [claimSuccessfulUseOutcome, hget]
    simp only [bind_eq_ok, pure_eq_ok]
    exact ⟨(outcome, q), hclaim, rfl⟩
  · rw [pairs_settleClaim]
    exact get_set r hid

theorem transition_of_get {cond : StoredPair → Bool} (status : PairStatus) {applies : Bool}
    (hget : r.pairs.get pairId = some pair) (hid : pair.id = pairId)
    (happlies : applies = (decide (pair.status = .active) && cond pair)) :
    ∃ r', r.transition pairId cond status = (applies, r') ∧
      r'.pairs.get pairId = some (if applies = true then pair.withStatus status else pair) := by
  rw [transition, hget]
  cases applies with
  | true =>
      have hboth : pair.status = .active ∧ cond pair = true := by simpa using happlies.symm
      refine ⟨_, if_neg ?_, get_set r hid⟩
      simp [hboth.1, hboth.2]
  | false =>
      have hnot : ¬(pair.status = .active ∧ cond pair = true) := by simpa using happlies.symm
      refine ⟨r, if_pos ?_, hget⟩
      rwa [not_and_or, Bool.not_eq_true] at hnot

end PlainRegistry

end Pair
