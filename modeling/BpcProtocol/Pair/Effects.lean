import BpcProtocol.Pair.Service

set_option autoImplicit false

/-! # What an operation does to the pairs

One operation of the store changes no pair, changes one pair in one of few ways, or adds one: a
registration approved, or the replacement of the pair it retires. Every fact about the runs of the
service is told from this. -/

namespace Pair

open Fallible

/-- The operation has let a request through, or a new pair in. -/
def StoreOp.Commits : (o : StoreOp) → o.Answer → Prop
  | .approvePending _ _ _ _, x => x = .ok true
  | .rotatePair _ _, x => x = true
  | .claimSuccessfulUse _ _ _, x => x = .ok .claimed
  | _, _ => False

/-- What a successful claim has found. -/
structure ClaimGuard (current : StoredPair) (at_ : JsNumber) (expected : SuccessfulUsePolicy) :
    Prop where
  status : current.status = .active
  inTime : current.timeExpired at_ = false
  unused : current.usageExhausted = false
  policy : PolicyHolds current expected

/-- The effect of an operation on the pairs of `s`, with its answer. -/
inductive PairEffect (s : MemoryPairStore) : (o : StoreOp) → o.Answer → MemoryPairStore → Prop
  | keep {o : StoreOp} {x : o.Answer} {s' : MemoryPairStore} :
      ¬o.Commits x → s'.pairs = s.pairs → PairEffect s o x s'
  | retire {o : StoreOp} {x : o.Answer} {pairId : JsString} {current : StoredPair}
      {status : PairStatus} :
      ¬o.Commits x → s.pairs.get pairId = some current → current.status = .active →
      status = .expired ∨ status = .locked →
      PairEffect s o x (s.setPair pairId (current.withStatus status))
  | claim {pairId : JsString} {at_ : JsNumber} {expected : SuccessfulUsePolicy}
      {current : StoredPair} :
      s.pairs.get pairId = some current → ClaimGuard current at_ expected →
      PairEffect s (.claimSuccessfulUse pairId at_ expected) (.ok .claimed)
        (s.setPair pairId (current.used at_))
  | mutate {pairId : JsString} {m : PairMutation} {current next : StoredPair} :
      s.pairs.get pairId = some current → m.apply current = .ok (some next) → next.id = pairId →
      PairEffect s (.atomicMutate pairId m) (.ok (some next)) (s.setPair pairId next)
  | approve {token : JsString} {expected : PendingPairing} {pair : StoredPair}
      {maxActivePairs : JsNumber} {s' : MemoryPairStore} :
      InitialPairState pair → JsNumber.ge (.fin (s.active : ℚ)) maxActivePairs = false →
      s.pairs.get pair.id = none → s'.pairs = s.pairs.set pair.id pair →
      PairEffect s (.approvePending token expected pair maxActivePairs) (.ok true) s'
  | rotate {expectedOld replacement current : StoredPair} :
      s.pairs.get expectedOld.id = some current → current.status = .active →
      InitialPairState replacement → RotationPolicyHolds current replacement →
      s.pairs.get replacement.id = none →
      PairEffect s (.rotatePair expectedOld replacement) true
        ((s.setPair current.id (current.withStatus .rotated)).setPair replacement.id replacement)

namespace MemoryPairStore

variable (s : MemoryPairStore)

theorem transition_effect {o : StoreOp} {x : o.Answer} (hx : ¬o.Commits x) (pairId : JsString)
    (cond : StoredPair → Bool) {status : PairStatus} (hstatus : status = .expired ∨ status = .locked) :
    PairEffect s o x (s.transition pairId cond status).2 := by
  unfold transition
  split
  · exact .keep hx rfl
  · next pair hget =>
      split
      · next h => exact .retire hx hget h.1 hstatus
      · exact .keep hx rfl

theorem atomicMutate_effect (pairId : JsString) (m : PairMutation) :
    PairEffect s (.atomicMutate pairId m) (settle (s.atomicMutate pairId m.apply) s).1
      (settle (s.atomicMutate pairId m.apply) s).2 := by
  cases hrun : s.atomicMutate pairId m.apply with
  | error e => exact .keep (fun h => h) rfl
  | ok r =>
      unfold atomicMutate at hrun
      split at hrun
      · cases hrun
        exact .keep (fun h => h) rfl
      · next current hget =>
          obtain ⟨next, happly, hcommit⟩ := (bind_eq_ok _ _ _).mp hrun
          unfold commitMutation at hcommit
          split at hcommit
          · cases hcommit
            exact .keep (fun h => h) rfl
          · next next =>
              simp only [bind_eq_ok, ensure_eq_ok, exists_unit, pure_eq_ok] at hcommit
              obtain ⟨hid, rfl⟩ := hcommit
              exact .mutate hget happly hid

theorem approvePending_effect (token : JsString) (expected : PendingPairing) (pair : StoredPair)
    (maxActivePairs : JsNumber) :
    PairEffect s (.approvePending token expected pair maxActivePairs)
      (settle (s.approvePending token expected pair maxActivePairs) s).1
      (settle (s.approvePending token expected pair maxActivePairs) s).2 := by
  have hfalse : ¬StoreOp.Commits (.approvePending token expected pair maxActivePairs)
      (.ok false) := by
    intro h
    cases h
  cases hrun : s.approvePending token expected pair maxActivePairs with
  | error e => exact .keep (fun h => by cases h) rfl
  | ok r =>
      unfold approvePending at hrun
      split at hrun
      · cases hrun
        exact .keep hfalse rfl
      · split at hrun
        · cases hrun
          exact .keep hfalse rfl
        · simp only [approve, bind_eq_ok, ensure_eq_ok, exists_unit, pure_eq_ok] at hrun
          obtain ⟨fits, hfits, rfl, hcapacity, hnew, rfl⟩ := hrun
          have hinitial := hasInitialPairState_eq_true ((andThen_eq_true _ _).mp hfits).1
          exact .approve hinitial hcapacity (s.pairs.has_eq_false.mp hnew) rfl

theorem rotatePair_effect (expectedOld replacement : StoredPair) :
    PairEffect s (.rotatePair expectedOld replacement) (s.rotatePair expectedOld replacement).1
      (s.rotatePair expectedOld replacement).2 := by
  have hfalse : ¬StoreOp.Commits (.rotatePair expectedOld replacement) false := by
    intro h
    cases h
  unfold rotatePair
  split
  · exact .keep hfalse rfl
  · next current hget =>
      split
      · next hrotates =>
          simp only [rotates, Bool.and_eq_true, decide_eq_true_iff, Bool.not_eq_true'] at hrotates
          obtain ⟨⟨⟨⟨-, hactive⟩, hinitial⟩, hpolicy⟩, hnew⟩ := hrotates
          exact .rotate hget hactive (hasInitialPairState_eq_true hinitial)
            (rotationPolicyMatches_eq_true hpolicy) (s.pairs.has_eq_false.mp hnew)
      · exact .keep hfalse rfl

theorem claimSuccessfulUse_effect (pairId : JsString) (at_ : JsNumber)
    (expected : SuccessfulUsePolicy) :
    PairEffect s (.claimSuccessfulUse pairId at_ expected)
      (settle (s.claimSuccessfulUse pairId at_ expected) s).1
      (settle (s.claimSuccessfulUse pairId at_ expected) s).2 := by
  have hother : ∀ c : SuccessfulUseClaim, c ≠ .claimed →
      ¬StoreOp.Commits (.claimSuccessfulUse pairId at_ expected) (.ok c) := by
    intro c hc h
    cases h
    exact hc rfl
  cases hrun : s.claimSuccessfulUse pairId at_ expected with
  | error e => exact .keep (fun h => by cases h) rfl
  | ok r =>
      simp only [claimSuccessfulUse, bind_eq_ok, ensure_eq_ok, exists_unit] at hrun
      obtain ⟨-, key, hkey, hclaim⟩ := hrun
      unfold claim at hclaim
      split at hclaim
      · cases hclaim
        exact .keep (hother _ (by decide)) rfl
      · next current hget =>
          unfold claimCurrent at hclaim
          split at hclaim
          · cases hclaim
            exact .keep (hother _ (by decide)) rfl
          split at hclaim
          · cases hclaim
            exact .keep (hother _ (by decide)) rfl
          split at hclaim
          · cases hclaim
            exact .keep (hother _ (by decide)) rfl
          next hactive =>
          rw [not_not] at hactive
          split at hclaim
          · cases hclaim
            exact .retire (hother _ (by decide)) hget hactive (Or.inl rfl)
          next hinTime =>
          split at hclaim
          · cases hclaim
            exact .retire (hother _ (by decide)) hget hactive (Or.inl rfl)
          next hunused =>
          simp only [use, bind_eq_ok, pure_eq_ok] at hclaim
          obtain ⟨agrees, hagrees, rfl⟩ := hclaim
          cases agrees with
          | false => exact .keep (hother _ (by decide)) rfl
          | true =>
              have hpolicy := successfulUsePolicyMatches_eq_true hagrees
              obtain ⟨left, hleft, hright⟩ := hpolicy.pubJwk
              rw [canonicalAuthorizationJwk_toJwk hkey] at hright
              cases hright
              exact .claim hget
                { status := hactive
                  inTime := Bool.not_eq_true _ ▸ hinTime
                  unused := Bool.not_eq_true _ ▸ hunused
                  policy := { hpolicy with pubJwk := ⟨key, hleft, hkey⟩ } }

/-- The one account of what the operations do. -/
theorem run_effect (o : StoreOp) : PairEffect s o (s.run o).1 (s.run o).2 := by
  cases o with
  | get pairId => exact .keep (fun h => h) rfl
  | list => exact .keep (fun h => h) rfl
  | getPending token => exact .keep (fun h => h) rfl
  | setPending token pending => exact .keep (fun h => h) rfl
  | atomicMutate pairId m => exact s.atomicMutate_effect pairId m
  | approvePending token expected pair maxActivePairs =>
      exact s.approvePending_effect token expected pair maxActivePairs
  | rotatePair expectedOld replacement => exact s.rotatePair_effect expectedOld replacement
  | claimSuccessfulUse pairId at_ expected =>
      exact s.claimSuccessfulUse_effect pairId at_ expected
  | expireIfElapsed pairId now =>
      cases hrun : s.expireIfElapsed pairId now with
      | error e =>
          simp only [run, hrun, settle]
          exact .keep (fun h => h) rfl
      | ok r =>
          simp only [run, hrun, settle]
          simp only [expireIfElapsed, bind_eq_ok, ensure_eq_ok, exists_unit, pure_eq_ok] at hrun
          obtain ⟨-, rfl⟩ := hrun
          exact s.transition_effect (o := .expireIfElapsed pairId now) (fun h => h) pairId _
            (Or.inl rfl)
  | expireIfUsageExhausted pairId =>
      exact s.transition_effect (o := .expireIfUsageExhausted pairId) (fun h => h) pairId _
        (Or.inl rfl)
  | lockIfFailureThreshold pairId minimumFailures =>
      cases hrun : s.lockIfFailureThreshold pairId minimumFailures with
      | error e =>
          simp only [run, hrun, settle]
          exact .keep (fun h => h) rfl
      | ok r =>
          simp only [run, hrun, settle]
          simp only [lockIfFailureThreshold, bind_eq_ok, ensure_eq_ok, exists_unit,
            pure_eq_ok] at hrun
          obtain ⟨-, rfl⟩ := hrun
          exact s.transition_effect (o := .lockIfFailureThreshold pairId minimumFailures)
            (fun h => h) pairId _ (Or.inr rfl)

end MemoryPairStore

end Pair
