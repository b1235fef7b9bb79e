import BpcProtocol.Pair.Crowd
import BpcProtocol.Pair.Score

set_option autoImplicit false

/-! # The allowance after an unlock

`unlock` takes the failures of the window back, but neither the score of the pair nor what the
tracker holds of its source addresses. Whether a pair that has been unlocked can fail `lockoutCount`
times again before it is locked is settled by what is left of the two at that moment. -/

namespace Pair

open Fallible Async Prog JsNumber

/-! ## Calls about a pair -/

/-- A call of the registry about one pair. The threshold of `ensureLocked` is no lower than the
    registry's own. -/
def ServerRequest.About (lockoutCount : JsNumber) (pairId : JsString) : ServerRequest → Prop
  | .recordActivity id _ _ => id = pairId
  | .claimSuccessfulUse id => id = pairId
  | .claimSuccessfulUseOutcome id _ _ => id = pairId
  | .markExpired id _ => id = pairId
  | .markUsageExpired id => id = pairId
  | .ensureLocked id minimumFailures => id = pairId ∧ Le lockoutCount minimumFailures
  | .unlock id => id = pairId
  | .revoke id => id = pairId
  | .updatePair id _ => id = pairId
  | _ => False

/-- The call records a failed verification. -/
def ServerRequest.isFailure : ServerRequest → Bool
  | .recordActivity _ success _ => !success
  | _ => false

/-- The failed verifications that a history records. -/
def failuresIn (calls : List TimedCall) : ℕ :=
  calls.countP fun c => c.request.isFailure

/-- The calls come in the order of the clock, from `now` on. -/
def InOrder (now : ℤ) : List TimedCall → Prop
  | [] => True
  | c :: calls => now ≤ c.now ∧ InOrder c.now calls

/-! ## What no failure is recorded by -/

/-- The operations about one pair that record no failure. -/
def ServerOp.Mild (lockoutCount : JsNumber) (pairId : JsString) : ServerOp → Prop
  | .store (.get _) => True
  | .store (.atomicMutate id .revoke) => id = pairId
  | .store (.atomicMutate id .unlock) => id = pairId
  | .store (.atomicMutate id (.update _)) => id = pairId
  | .store (.claimSuccessfulUse id _ _) => id = pairId
  | .store (.expireIfElapsed id _) => id = pairId
  | .store (.expireIfUsageExhausted id) => id = pairId
  | .store (.lockIfFailureThreshold id minimumFailures) =>
      id = pairId ∧ Le lockoutCount minimumFailures
  | .dateNow => True
  | .evictStaleIpEntries _ => True
  | .clearIpFailures _ => True
  | _ => False

section Uses

variable {registry : RegistryConfig} {lockoutCount : JsNumber} {pairId : JsString}

theorem claimSuccessfulUseOutcome_mild (at_ : JsNumber) (expected : SuccessfulUsePolicy) :
    (claimSuccessfulUseOutcome pairId at_ expected).Uses (ServerOp.Mild lockoutCount pairId) := by
  have hclaim : (ServerOp.store (.claimSuccessfulUse pairId at_ expected)).Mild lockoutCount
      pairId := rfl
  refine (uses_attempt (uses_perform' hclaim)).bind fun _ => ?_
  exact (uses_runIf (uses_perform' (o := .clearIpFailures pairId) trivial)).bind fun _ => trivial

theorem claimSuccessfulUse_mild :
    (claimSuccessfulUse pairId).Uses (ServerOp.Mild lockoutCount pairId) :=
  (uses_perform' (o := .store (.get pairId)) trivial).bind fun pair => uses_elim pair trivial
    fun _ => (uses_perform' (o := .dateNow) trivial).bind fun _ => uses_lift.bind fun _ =>
      (claimSuccessfulUseOutcome_mild _ _).bind fun _ => trivial

/-- A call about the pair records one failure of it, or none. -/
theorem ServerRequest.About.cases {r : ServerRequest} (h : r.About lockoutCount pairId) :
    (∃ ip, r = .recordActivity pairId false ip) ∨
      r.isFailure = false ∧ (r.program registry).Uses (ServerOp.Mild lockoutCount pairId) := by
  cases r with
  | recordActivity id success ip =>
      obtain rfl : id = pairId := h
      cases success with
      | false => exact Or.inl ⟨ip, rfl⟩
      | true =>
          refine Or.inr ⟨rfl, Uses.map ?_⟩
          exact (uses_perform' (o := .dateNow) trivial).bind fun now =>
            (uses_perform' (o := .evictStaleIpEntries now) trivial).bind fun _ =>
              claimSuccessfulUse_mild.bind fun _ => trivial
  | claimSuccessfulUse id =>
      obtain rfl : id = pairId := h
      exact Or.inr ⟨rfl, claimSuccessfulUse_mild.map⟩
  | claimSuccessfulUseOutcome id at_ expected =>
      obtain rfl : id = pairId := h
      exact Or.inr ⟨rfl, (claimSuccessfulUseOutcome_mild at_ expected).map⟩
  | markExpired id now =>
      exact Or.inr ⟨rfl, (uses_attempt (uses_perform' (o := .store (.expireIfElapsed id now)) h)).map⟩
  | markUsageExpired id =>
      exact Or.inr ⟨rfl, (uses_perform' (o := .store (.expireIfUsageExhausted id)) h).map⟩
  | ensureLocked id minimumFailures =>
      exact Or.inr ⟨rfl, (uses_attempt
        (uses_perform' (o := .store (.lockIfFailureThreshold id minimumFailures)) h)).map⟩
  | unlock id =>
      exact Or.inr ⟨rfl, Uses.map ((uses_attempt
        (uses_perform' (o := .store (.atomicMutate id .unlock)) h)).bind fun _ => trivial)⟩
  | revoke id =>
      exact Or.inr ⟨rfl, Uses.map ((uses_attempt
        (uses_perform' (o := .store (.atomicMutate id .revoke)) h)).bind fun _ => trivial)⟩
  | updatePair id updates =>
      exact Or.inr ⟨rfl, (uses_attempt
        (uses_perform' (o := .store (.atomicMutate id (.update updates))) h)).map⟩
  | _ => exact h.elim

end Uses

/-- What the other calls make of a pair: its counters stay, or are cleared, and it is locked for no
    fewer failures than the registry allows. -/
structure Settles (lockoutCount : JsNumber) (p p' : StoredPair) : Prop where
  id : p'.id = p.id
  failedSigs : p'.failedSigs = p.failedSigs ∨ p'.failedSigs = .fin 0
  score : p'.cumulativeFailures = p.cumulativeFailures ∧ p'.firstFailureAt = p.firstFailureAt ∨
    p'.cumulativeFailures = some (.fin 0) ∧ p'.firstFailureAt = some none
  locked : p'.status = .locked → p.status = .locked ∨
    ∃ minimumFailures, Le lockoutCount minimumFailures ∧ p.failedSigs.lt minimumFailures = false

namespace Settles

variable {lockoutCount : JsNumber} {p : StoredPair}

/-- A change of status, to any but `locked`. -/
theorem withStatus {status : PairStatus} (h : status ≠ .locked) :
    Settles lockoutCount p (p.withStatus status) where
  id := rfl
  failedSigs := Or.inl rfl
  score := Or.inl ⟨rfl, rfl⟩
  locked hlocked := absurd hlocked h

theorem refl (p : StoredPair) : Settles lockoutCount p p :=
  ⟨rfl, Or.inl rfl, Or.inl ⟨rfl, rfl⟩, Or.inl⟩

theorem used (at_ : JsNumber) : Settles lockoutCount p (p.used at_) where
  id := rfl
  failedSigs := Or.inr rfl
  score := Or.inr ⟨rfl, rfl⟩
  locked hlocked := by
    unfold StoredPair.used at hlocked
    simp only at hlocked
    split at hlocked
    · cases hlocked
    · exact Or.inl hlocked

end Settles

section Mild

variable {lockoutCount : JsNumber} {pairId : JsString} {p : StoredPair}

namespace MemoryPairStore

variable {s : MemoryPairStore}

theorem setPair_get (next : StoredPair) : (s.setPair pairId next).pairs.get pairId = some next :=
  OrderedMap.get_set_self _ _ _

theorem transition_settles (hp : s.pairs.get pairId = some p) {cond : StoredPair → Bool}
    {status : PairStatus} (h : cond p = true → Settles lockoutCount p (p.withStatus status)) :
    ∃ p', (s.transition pairId cond status).2.pairs.get pairId = some p' ∧
      Settles lockoutCount p p' := by
  unfold transition
  rw [hp]
  simp only
  split
  · next hcond => exact ⟨_, setPair_get _, h hcond.2⟩
  · exact ⟨p, hp, .refl p⟩

/-- An operation that checks its argument first. -/
theorem settle_settles (hp : s.pairs.get pairId = some p) {c : Prop} [Decidable c] {e : String}
    {x : Bool × MemoryPairStore}
    (h : ∃ p', x.2.pairs.get pairId = some p' ∧ Settles lockoutCount p p') :
    ∃ p', (settle (do ensure c e; pure x) s).2.pairs.get pairId = some p' ∧
      Settles lockoutCount p p' := by
  obtain ⟨answer, t⟩ := x
  by_cases hc : c
  · simpa [ensure, require, hc, settle] using h
  · exact ⟨p, by simpa [ensure, require, hc, settle] using hp, .refl p⟩

theorem atomicMutate_settles (hp : s.pairs.get pairId = some p) {m : PairMutation}
    (h : ∀ next, m.apply p = .ok (some next) → Settles lockoutCount p next) :
    ∃ p', (s.run (.atomicMutate pairId m)).2.pairs.get pairId = some p' ∧
      Settles lockoutCount p p' := by
  show ∃ p', (settle (s.atomicMutate pairId m.apply) s).2.pairs.get pairId = some p' ∧ _
  cases hrun : s.atomicMutate pairId m.apply with
  | error e => exact ⟨p, hp, .refl p⟩
  | ok r =>
      unfold atomicMutate at hrun
      rw [hp] at hrun
      obtain ⟨next, happly, hcommit⟩ := (bind_eq_ok _ _ _).mp hrun
      cases next with
      | none =>
          cases hcommit
          exact ⟨p, hp, .refl p⟩
      | some next =>
          simp only [commitMutation, bind_eq_ok, ensure_eq_ok, exists_unit, pure_eq_ok] at hcommit
          obtain ⟨-, rfl⟩ := hcommit
          exact ⟨next, setPair_get next, h next happly⟩

theorem claimSuccessfulUse_settles (hp : s.pairs.get pairId = some p) (at_ : JsNumber)
    (expected : SuccessfulUsePolicy) :
    ∃ p', (s.run (.claimSuccessfulUse pairId at_ expected)).2.pairs.get pairId = some p' ∧
      Settles lockoutCount p p' := by
  show ∃ p', (settle (s.claimSuccessfulUse pairId at_ expected) s).2.pairs.get pairId = some p' ∧ _
  cases hrun : s.claimSuccessfulUse pairId at_ expected with
  | error e => exact ⟨p, hp, .refl p⟩
  | ok r =>
      simp only [claimSuccessfulUse, bind_eq_ok, ensure_eq_ok, exists_unit] at hrun
      obtain ⟨-, key, -, hclaim⟩ := hrun
      unfold claim at hclaim
      rw [hp] at hclaim
      simp only [claimCurrent] at hclaim
      split_ifs at hclaim
      · cases hclaim
        exact ⟨p, hp, .refl p⟩
      · cases hclaim
        exact ⟨p, hp, .refl p⟩
      · cases hclaim
        exact ⟨p, hp, .refl p⟩
      · cases hclaim
        exact ⟨_, setPair_get _, .withStatus (by decide)⟩
      · cases hclaim
        exact ⟨_, setPair_get _, .withStatus (by decide)⟩
      · simp only [use, bind_eq_ok, pure_eq_ok] at hclaim
        obtain ⟨agrees, -, rfl⟩ := hclaim
        cases agrees with
        | false => exact ⟨p, hp, .refl p⟩
        | true => exact ⟨_, setPair_get _, .used at_⟩

end MemoryPairStore

/-- **What an operation does that records no failure.** -/
theorem perform_mild {crypto : Crypto} {s : ServerState} {o : ServerOp}
    (ho : o.Mild lockoutCount pairId) (hp : s.store.pairs.get pairId = some p) :
    (∃ p', (s.perform crypto o).2.store.pairs.get pairId = some p' ∧ Settles lockoutCount p p') ∧
      ∀ key entry, (s.perform crypto o).2.tracker.get key = some entry →
        s.tracker.get key = some entry := by
  have hfilter : ∀ (keep : JsString → IpFailures → Bool) (key : JsString) (entry : IpFailures),
      (s.tracker.filter keep).get key = some entry → s.tracker.get key = some entry := by
    intro keep key entry hget
    rw [OrderedMap.get_filter] at hget
    exact (Option.filter_eq_some_iff.mp hget).1
  cases o with
  | dateNow => exact ⟨⟨p, hp, .refl p⟩, fun _ _ h => h⟩
  | evictStaleIpEntries now => exact ⟨⟨p, hp, .refl p⟩, hfilter _⟩
  | clearIpFailures id => exact ⟨⟨p, hp, .refl p⟩, hfilter _⟩
  | store o =>
      refine ⟨?_, fun _ _ h => h⟩
      cases o with
      | get id => exact ⟨p, hp, .refl p⟩
      | atomicMutate id m =>
          cases m with
          | revoke =>
              obtain rfl : id = pairId := ho
              refine MemoryPairStore.atomicMutate_settles hp fun next h => ?_
              cases h
              exact .withStatus (by decide)
          | unlock =>
              obtain rfl : id = pairId := ho
              refine MemoryPairStore.atomicMutate_settles hp fun next h => ?_
              cases h
              unfold unlocked
              split
              · exact ⟨rfl, Or.inr rfl, Or.inl ⟨rfl, rfl⟩, fun h => by cases h⟩
              · exact .refl p
          | update updates =>
              obtain rfl : id = pairId := ho
              refine MemoryPairStore.atomicMutate_settles hp fun next h => ?_
              have happly := PairMutation.apply_update h
              simp only [applyUpdates, bind_eq_ok, pure_eq_ok] at happly
              obtain ⟨-, -, rfl⟩ := happly
              exact ⟨rfl, Or.inl rfl, Or.inl ⟨rfl, rfl⟩, Or.inl⟩
          | recordFailure count limit now => exact ho.elim
      | claimSuccessfulUse id at_ expected =>
          obtain rfl : id = pairId := ho
          exact MemoryPairStore.claimSuccessfulUse_settles hp at_ expected
      | expireIfElapsed id now =>
          obtain rfl : id = pairId := ho
          exact MemoryPairStore.settle_settles hp
            (MemoryPairStore.transition_settles hp fun _ => .withStatus (by decide))
      | expireIfUsageExhausted id =>
          obtain rfl : id = pairId := ho
          exact MemoryPairStore.transition_settles hp fun _ => .withStatus (by decide)
      | lockIfFailureThreshold id minimumFailures =>
          obtain ⟨rfl, hle⟩ := ho
          refine MemoryPairStore.settle_settles hp
            (MemoryPairStore.transition_settles hp fun hreached => ?_)
          exact ⟨rfl, Or.inl rfl, Or.inl ⟨rfl, rfl⟩,
            fun _ => Or.inr ⟨minimumFailures, hle, Bool.not_eq_true' _ ▸ hreached⟩⟩
      | _ => exact ho.elim
  | _ => exact ho.elim

end Mild

/-! ## What the counters of a pair can hold -/

/-- The entry of an address after one more failure. -/
theorem nextIpFailures_cases {entry : Option IpFailures} (now : ℤ)
    (h : ∀ e, entry = some e → ∃ (k : ℕ) (n : ℤ), e = ⟨counted k, .fin (n : ℤ)⟩) :
    nextIpFailures entry (.fin (now : ℤ)) = ⟨counted 1, .fin (now : ℤ)⟩ ∨
      ∃ (k : ℕ) (n : ℤ), entry = some ⟨counted k, .fin (n : ℤ)⟩ ∧ ¬n + 300000 < now ∧
        nextIpFailures entry (.fin (now : ℤ)) = ⟨counted (k + 1), .fin (n : ℤ)⟩ := by
  have hone : counted 1 = .fin 1 := by simp [counted]
  cases entry with
  | none => exact Or.inl (by rw [hone]; rfl)
  | some e =>
      obtain ⟨k, n, rfl⟩ := h e rfl
      by_cases hstale : n + 300000 < now
      · exact Or.inl (by simp [nextIpFailures, stale_iff, hstale, hone])
      · exact Or.inr ⟨k, n, rfl, hstale, by simp [nextIpFailures, stale_iff, hstale, incr_counted]⟩

/-- The counters of a pair and of its source addresses: whole numbers of failures, at readings of the
    clock, and a score. -/
structure Recorded (limit : ℕ) (pairId : JsString) (p : StoredPair) (tracker : IpFailureTracker) :
    Prop where
  id : p.id = pairId
  failedSigs : ∃ k, p.failedSigs = counted k
  score : IsScore (storedScore p)
  cycle : ∀ t, p.firstFailureAt.getD none = some t → ∃ n : ℤ, t = .fin (n : ℤ)
  entries : ∀ ip entry, tracker.get (ipKey pairId ip) = some entry →
    ∃ (k : ℕ) (n : ℤ), entry = ⟨counted (k + 1), .fin (n : ℤ)⟩
  locked : p.status = .locked → limit ≤ 2 ^ 53

theorem Settles.storedScore {lockoutCount : JsNumber} {p p' : StoredPair}
    (h : Settles lockoutCount p p') :
    Pair.storedScore p' = Pair.storedScore p ∧ p'.firstFailureAt = p.firstFailureAt ∨
      Pair.storedScore p' = .fin 0 ∧ p'.firstFailureAt = some none := by
  unfold Pair.storedScore
  rcases h.score with ⟨hscore, hcycle⟩ | ⟨hscore, hcycle⟩
  · exact Or.inl ⟨by rw [hscore], hcycle⟩
  · exact Or.inr ⟨by rw [hscore, Option.getD_some], hcycle⟩

/-- A counter that has come to a limit shows that the limit can be counted to. -/
theorem le_of_ge_counted {k limit : ℕ} (h : (counted k).ge (.fin (limit : ℚ)) = true) :
    limit ≤ k ∧ limit ≤ 2 ^ 53 := by
  have hle : (limit : ℚ) ≤ ((min k (2 ^ 53) : ℕ) : ℚ) := (le_fin _ _).mp h
  have hmin : limit ≤ min k (2 ^ 53) := by exact_mod_cast hle
  omega

theorem le_of_ge_score {n : JsNumber} (hn : IsScore n) {limit : ℕ}
    (h : n.ge ((JsNumber.fin (limit : ℚ)).mulNat 2) = true) : limit ≤ 2 ^ 53 := by
  by_contra hlarge
  have hle : Le (Js.ofRat (2 ^ 54)) (Js.ofRat ((limit : ℚ) * (2 : ℕ))) := by
    refine le_ofRat ?_
    exact_mod_cast (by omega : 2 ^ 54 ≤ limit * 2)
  have hround : Js.ofRat (2 ^ 54) = .fin (2 ^ 54) := by decide +kernel
  rw [hround] at hle
  have hbad : (2 ^ 54 : ℚ) ≤ 2 ^ 53 := (le_fin _ _).mp (hle.trans (Le.trans h hn.bounded))
  norm_num at hbad

section Recorded

variable {registry : RegistryConfig} {crypto : Crypto} {limit : ℕ} {pairId : JsString}
  {s : ServerState} {p : StoredPair}

theorem mild_recorded (hlimit : registry.lockoutCount = .fin (limit : ℚ)) {o : ServerOp}
    (ho : o.Mild registry.lockoutCount pairId)
    (h : ∃ p, s.store.pairs.get pairId = some p ∧ Recorded limit pairId p s.tracker) :
    ∃ p, (s.perform crypto o).2.store.pairs.get pairId = some p ∧
      Recorded limit pairId p (s.perform crypto o).2.tracker := by
  obtain ⟨p, hp, hrecorded⟩ := h
  obtain ⟨⟨p', hp', hsettles⟩, htracker⟩ := @perform_mild _ _ _ crypto _ _ ho hp
  refine ⟨p', hp', ?_⟩
  constructor
  case id => exact hsettles.id.trans hrecorded.id
  case failedSigs =>
    rcases hsettles.failedSigs with heq | heq
    · exact heq ▸ hrecorded.failedSigs
    · exact ⟨0, heq.trans counted_zero.symm⟩
  case score =>
    rcases hsettles.storedScore with ⟨heq, -⟩ | ⟨heq, -⟩
    · exact heq ▸ hrecorded.score
    · exact heq ▸ isScore_zero
  case cycle =>
    rcases hsettles.storedScore with ⟨-, heq⟩ | ⟨-, heq⟩
    · exact heq ▸ hrecorded.cycle
    · intro t ht
      rw [heq] at ht
      cases ht
  case entries => exact fun ip entry hget => hrecorded.entries ip entry (htracker _ _ hget)
  case locked =>
    intro hlocked
    rcases hsettles.locked hlocked with hbefore | ⟨minimum, hle, hlt⟩
    · exact hrecorded.locked hbefore
    · obtain ⟨k, hk⟩ := hrecorded.failedSigs
      rw [hlimit] at hle
      rw [hk] at hlt
      -- what is not below the minimum is not below the limit
      by_contra hlarge
      have hbelow : (counted k).lt (.fin (limit : ℚ)) = true := by
        refine decide_eq_true ?_
        exact_mod_cast (by omega : min k (2 ^ 53) < limit)
      rw [lt_trans_le hbelow hle] at hlt
      cases hlt

/-- The failures of the window after one more, of the source address or of all. -/
theorem Recorded.windowFailures {tracker : IpFailureTracker} (h : Recorded limit pairId p tracker)
    (ip : JsString) (now : ℤ) :
    ∃ k, windowFailures p (countFailure tracker pairId ip (.fin (now : ℤ))).1 = counted k := by
  by_cases hip : ip = []
  · obtain ⟨k, hk⟩ := h.failedSigs
    refine ⟨k + 1, ?_⟩
    rw [countFailure_nil hip]
    show p.failedSigs.incr = _
    rw [hk, incr_counted]
  · rw [(countFailure_self hip).1]
    have hentry : ∀ e, tracker.get (ipKey pairId ip) = some e →
        ∃ (k : ℕ) (n : ℤ), e = ⟨counted k, .fin (n : ℤ)⟩ := by
      intro e he
      obtain ⟨k, n, rfl⟩ := h.entries ip e he
      exact ⟨k + 1, n, rfl⟩
    rcases nextIpFailures_cases now hentry with hnext | ⟨k, n, -, -, hnext⟩
    · exact ⟨1, by rw [hnext]; rfl⟩
    · exact ⟨k + 1, by rw [hnext]; rfl⟩

/-- **What a failed verification leaves of the counters.** -/
theorem Recorded.failed (hlimit : registry.lockoutCount = .fin (limit : ℚ))
    (hp : s.store.pairs.get pairId = some p) (h : Recorded limit pairId p s.tracker) (ip : JsString)
    (now : ℤ) :
    ∃ p', (s.answered registry crypto (failedAt pairId ip now)).store.pairs.get pairId = some p' ∧
      Recorded limit pairId p' (s.answered registry crypto (failedAt pairId ip now)).tracker := by
  obtain ⟨k, hk⟩ := h.windowFailures ip now
  have hdecayed := isScore_decayedScore h.score (.fin (now : ℤ))
  rw [answered_failedAt, run_recordFailure hp h.id]
  set count := (countFailure s.tracker pairId ip (.fin (now : ℤ))).1
  obtain ⟨hfailed, hscore, hcycle⟩ :=
    @recordFailure_record p count registry.lockoutCount (.fin (now : ℤ))
  refine ⟨recordFailure p count registry.lockoutCount (.fin (now : ℤ)),
    MemoryPairStore.setPair_get _, ?_⟩
  constructor
  case id => exact (recordFailure_id _ _ _ _).trans h.id
  case failedSigs => exact ⟨k, hfailed.trans hk⟩
  case score =>
    unfold storedScore
    rw [hscore, Option.getD_some]
    exact hdecayed.incr
  case cycle =>
    intro t ht
    rw [hcycle, Option.getD_some, Option.some.injEq] at ht
    subst ht
    unfold cycleStart
    split
    · exact ⟨now, rfl⟩
    · cases hstart : p.firstFailureAt.getD none with
      | none => exact ⟨now, rfl⟩
      | some t => exact h.cycle t hstart
  case entries =>
    intro ip' entry hget
    rcases countFailure_entry hget with ⟨-, -, rfl⟩ | hbefore
    · have hentry : ∀ e, s.tracker.get (ipKey pairId ip') = some e →
          ∃ (k : ℕ) (n : ℤ), e = ⟨counted k, .fin (n : ℤ)⟩ := by
        intro e he
        obtain ⟨k, n, rfl⟩ := h.entries ip' e he
        exact ⟨k + 1, n, rfl⟩
      rcases nextIpFailures_cases now hentry with hnext | ⟨k, n, -, -, hnext⟩
      · exact ⟨0, now, hnext⟩
      · exact ⟨k, n, hnext⟩
    · exact h.entries ip' entry hbefore
  case locked =>
    intro hlocked
    by_cases hactive : p.status = .active
    · rcases (recordFailure_locks hactive).mp hlocked with hreached | hreached
      · rw [hk, hlimit] at hreached
        exact (le_of_ge_counted hreached).2
      · rw [hlimit] at hreached
        exact le_of_ge_score hdecayed.incr hreached
    · rw [recordFailure_status_of_ne hactive] at hlocked
      exact h.locked hlocked

/-- The counters of a pair that no failure of is recorded, after any history. -/
theorem exists_recorded (hlimit : registry.lockoutCount = .fin (limit : ℚ)) (hs : s.Unfailed pairId)
    {calls : List TimedCall} (hcalls : ∀ c ∈ calls, c.request.About registry.lockoutCount pairId) :
    ∃ p, (s.answeredAll registry crypto calls).store.pairs.get pairId = some p ∧
      Recorded limit pairId p (s.answeredAll registry crypto calls).tracker := by
  induction calls using List.reverseRecOn with
  | nil =>
      obtain ⟨p, hp, hid, hactive, hfailed, hscore, hcycle⟩ := hs.pair
      refine ⟨p, hp, hid, ⟨0, hfailed.trans counted_zero.symm⟩, ?_, ?_, ?_, ?_⟩
      · exact (show storedScore p = .fin 0 from hscore) ▸ isScore_zero
      · intro t ht
        rw [hcycle] at ht
        cases ht
      · intro ip entry hget
        rw [ServerState.answeredAll, List.foldl_nil, hs.tracker ip] at hget
        cases hget
      · intro hlocked
        rw [hactive] at hlocked
        cases hlocked
  | append_singleton calls c ih =>
      rw [ServerState.answeredAll_append]
      obtain ⟨p, hp, hrecorded⟩ := ih fun d hd => hcalls d (List.mem_append_left _ hd)
      set t := s.answeredAll registry crypto calls
      obtain ⟨now, request⟩ := c
      rcases (hcalls ⟨now, request⟩ (by simp)).cases with ⟨ip, rfl⟩ | ⟨-, huses⟩
      · exact hrecorded.failed hlimit hp ip now
      · have hset : ∃ p, ({ t with now } : ServerState).store.pairs.get pairId = some p ∧
            Recorded limit pairId p ({ t with now } : ServerState).tracker := ⟨p, hp, hrecorded⟩
        exact drive_keeps (I := fun t => ∃ p, t.store.pairs.get pairId = some p ∧
          Recorded limit pairId p t.tracker) (fun _ _ ho ht => mild_recorded hlimit ho ht) huses hset
          0 []

end Recorded

/-! ## After the unlock -/

/-- **Nothing is left that would lock the pair early**: the window of every source address is over,
    and the score, as far as it has decayed, leaves room for all failures but one. -/
structure Spent (limit : ℕ) (pairId : JsString) (s : ServerState) (now : ℤ) : Prop where
  entries : ∀ ip entry, ip ≠ [] → s.tracker.get (ipKey pairId ip) = some entry →
    entry.stale (.fin (now : ℤ)) = true
  score : ∀ p, s.store.pairs.get pairId = some p →
    (raised (limit - 1) (decayedScore p (.fin (now : ℤ)))).ge ((JsNumber.fin (limit : ℚ)).mulNat 2) =
      false

/-- The counters after `k` failures since the unlock, where the pair is not locked. -/
structure Allowed (pairId : JsString) (unlockedAt : ℤ) (base : JsNumber) (k : ℕ) (now : ℤ)
    (p : StoredPair) (tracker : IpFailureTracker) : Prop where
  id : p.id = pairId
  failedSigs : ∃ j, j ≤ k ∧ p.failedSigs = counted j
  score : IsScore (storedScore p)
  cycle : ∀ t, p.firstFailureAt.getD none = some t → ∃ n : ℤ, t = .fin (n : ℤ)
  entries : ∀ ip entry, ip ≠ [] → tracker.get (ipKey pairId ip) = some entry →
    ∃ (j : ℕ) (n : ℤ), entry = ⟨counted j, .fin (n : ℤ)⟩ ∧ (j ≤ k ∨ n + 300000 < unlockedAt)
  decays : ∀ later : ℤ, now ≤ later → Le (decayedScore p (.fin (later : ℤ))) (raised k base)
  notLocked : p.status ≠ .locked

theorem decayedScore_congr {p p' : StoredPair} (hscore : storedScore p' = storedScore p)
    (hcycle : p'.firstFailureAt = p.firstFailureAt) (now : JsNumber) :
    decayedScore p' now = decayedScore p now := by
  unfold storedScore at hscore
  unfold decayedScore elapsedWindows
  rw [hscore, hcycle]

section Unlocked

variable {registry : RegistryConfig} {crypto : Crypto} {limit : ℕ} {pairId : JsString}
  {s : ServerState} {p : StoredPair} {unlockedAt now : ℤ} {base : JsNumber} {k : ℕ}

theorem Allowed.later (h : Allowed pairId unlockedAt base k now p s.tracker) {now' : ℤ}
    (hnow : now ≤ now') : Allowed pairId unlockedAt base k now' p s.tracker :=
  { h with decays := fun later hlater => h.decays later (hnow.trans hlater) }

/-- A counter below the limit stays below every threshold that is no lower. -/
theorem not_locked_below {j : ℕ} (hj : j < limit) {minimumFailures : JsNumber}
    (hle : Le (.fin (limit : ℚ)) minimumFailures) : (counted j).lt minimumFailures = true := by
  have hbelow : (counted j).lt (.fin (limit : ℚ)) = true := by
    refine decide_eq_true ?_
    exact_mod_cast (by omega : min j (2 ^ 53) < limit)
  exact lt_trans_le hbelow hle

theorem mild_allowed (hlimit : registry.lockoutCount = .fin (limit : ℚ)) (hbase : IsScore base)
    (hk : k < limit) {o : ServerOp} (ho : o.Mild registry.lockoutCount pairId)
    (h : ∃ p, s.store.pairs.get pairId = some p ∧
      Allowed pairId unlockedAt base k now p s.tracker) :
    ∃ p, (s.perform crypto o).2.store.pairs.get pairId = some p ∧
      Allowed pairId unlockedAt base k now p (s.perform crypto o).2.tracker := by
  obtain ⟨p, hp, hallowed⟩ := h
  obtain ⟨⟨p', hp', hsettles⟩, htracker⟩ := @perform_mild _ _ _ crypto _ _ ho hp
  refine ⟨p', hp', ?_⟩
  constructor
  case id => exact hsettles.id.trans hallowed.id
  case failedSigs =>
    rcases hsettles.failedSigs with heq | heq
    · exact heq ▸ hallowed.failedSigs
    · exact ⟨0, k.zero_le, heq.trans counted_zero.symm⟩
  case score =>
    rcases hsettles.storedScore with ⟨heq, -⟩ | ⟨heq, -⟩
    · exact heq ▸ hallowed.score
    · exact heq ▸ isScore_zero
  case cycle =>
    rcases hsettles.storedScore with ⟨-, heq⟩ | ⟨-, heq⟩
    · exact heq ▸ hallowed.cycle
    · intro t ht
      rw [heq] at ht
      cases ht
  case entries =>
    exact fun ip entry hip hget => hallowed.entries ip entry hip (htracker _ _ hget)
  case decays =>
    intro later hlater
    rcases hsettles.storedScore with ⟨hscore, hcycle⟩ | ⟨hscore, -⟩
    · rw [decayedScore_congr hscore hcycle]
      exact hallowed.decays later hlater
    · -- a success has taken the score back
      have hle := (decayedScore_le (p := p') (hscore ▸ isScore_zero) (.fin (later : ℤ))).2
      rw [hscore] at hle
      exact hle.trans (isScore_raised hbase k).nonneg
  case notLocked =>
    intro hlocked
    rcases hsettles.locked hlocked with hbefore | ⟨minimum, hle, hlt⟩
    · exact hallowed.notLocked hbefore
    · obtain ⟨j, hj, hfailed⟩ := hallowed.failedSigs
      rw [hlimit] at hle
      rw [hfailed, not_locked_below (by omega) hle] at hlt
      cases hlt

/-- The entry of an address after one more failure counts none from before the unlock. -/
theorem Allowed.next {tracker : IpFailureTracker} (h : Allowed pairId unlockedAt base k now p tracker)
    {ip : JsString} (hip : ip ≠ []) {time : ℤ} (htime : unlockedAt ≤ time) :
    ∃ (j : ℕ) (n : ℤ), j ≤ k + 1 ∧
      nextIpFailures (tracker.get (ipKey pairId ip)) (.fin (time : ℤ)) =
        ⟨counted j, .fin (n : ℤ)⟩ := by
  have hentry : ∀ e, tracker.get (ipKey pairId ip) = some e →
      ∃ (j : ℕ) (n : ℤ), e = ⟨counted j, .fin (n : ℤ)⟩ := by
    intro e he
    obtain ⟨j, n, heq, -⟩ := h.entries ip e hip he
    exact ⟨j, n, heq⟩
  rcases nextIpFailures_cases time hentry with hnext | ⟨j, n, hget, hlive, hnext⟩
  · exact ⟨1, time, by omega, hnext⟩
  · -- a window from before the unlock is over
    obtain ⟨j', n', heq, hbound⟩ := h.entries ip _ hip hget
    obtain ⟨hj, hn⟩ := IpFailures.mk.inj heq
    have hn' : n = n' := by exact_mod_cast JsNumber.fin.inj hn
    rcases hbound with hle | hover
    · exact ⟨j' + 1, n, by omega, by rw [hnext, ← incr_counted, hj, incr_counted]⟩
    · omega

/-- The failures of the window are among those since the unlock. -/
theorem Allowed.windowFailures {tracker : IpFailureTracker}
    (h : Allowed pairId unlockedAt base k now p tracker) (ip : JsString) {time : ℤ}
    (htime : unlockedAt ≤ time) :
    ∃ j, j ≤ k + 1 ∧
      windowFailures p (countFailure tracker pairId ip (.fin (time : ℤ))).1 = counted j := by
  by_cases hip : ip = []
  · obtain ⟨j, hj, hfailed⟩ := h.failedSigs
    refine ⟨j + 1, by omega, ?_⟩
    rw [countFailure_nil hip]
    show p.failedSigs.incr = _
    rw [hfailed, incr_counted]
  · obtain ⟨j, n, hj, hnext⟩ := h.next hip htime
    refine ⟨j, hj, ?_⟩
    rw [(countFailure_self hip).1, hnext]
    rfl

/-- **A failure below the limit leaves the pair as it may be.** -/
theorem Allowed.failed (hlimit : registry.lockoutCount = .fin (limit : ℚ)) (hbase : IsScore base)
    (hroom : (raised (limit - 1) base).ge ((JsNumber.fin (limit : ℚ)).mulNat 2) = false)
    (hk : k + 1 < limit) (hp : s.store.pairs.get pairId = some p)
    (h : Allowed pairId unlockedAt base k now p s.tracker) (ip : JsString) {time : ℤ}
    (hnow : now ≤ time) (hunlocked : unlockedAt ≤ time) :
    ∃ p', (s.answered registry crypto (failedAt pairId ip time)).store.pairs.get pairId = some p' ∧
      Allowed pairId unlockedAt base (k + 1) time p'
        (s.answered registry crypto (failedAt pairId ip time)).tracker := by
  obtain ⟨j, hj, hcount⟩ := h.windowFailures ip hunlocked
  have hdecayed := isScore_decayedScore h.score (.fin (time : ℤ))
  have hraised : Le (decayedScore p (.fin (time : ℤ))).incr (raised (k + 1) base) := by
    rw [raised_succ]
    exact le_incr (h.decays time hnow)
  rw [answered_failedAt, run_recordFailure hp h.id]
  set count := (countFailure s.tracker pairId ip (.fin (time : ℤ))).1
  obtain ⟨hfailed, hscore, hcycle⟩ :=
    @recordFailure_record p count registry.lockoutCount (.fin (time : ℤ))
  have hstored : storedScore (recordFailure p count registry.lockoutCount (.fin (time : ℤ))) =
      (decayedScore p (.fin (time : ℤ))).incr := by
    unfold storedScore
    rw [hscore, Option.getD_some]
  refine ⟨recordFailure p count registry.lockoutCount (.fin (time : ℤ)),
    MemoryPairStore.setPair_get _, ?_⟩
  constructor
  case id => exact (recordFailure_id _ _ _ _).trans h.id
  case failedSigs => exact ⟨j, hj, hfailed.trans hcount⟩
  case score => exact hstored ▸ hdecayed.incr
  case cycle =>
    intro t ht
    rw [hcycle, Option.getD_some, Option.some.injEq] at ht
    subst ht
    unfold cycleStart
    split
    · exact ⟨time, rfl⟩
    · cases hstart : p.firstFailureAt.getD none with
      | none => exact ⟨time, rfl⟩
      | some t => exact h.cycle t hstart
  case entries =>
    intro ip' entry hip' hget
    rcases countFailure_entry hget with ⟨-, -, rfl⟩ | hbefore
    · obtain ⟨j', n, hj', hnext⟩ := h.next hip' hunlocked
      exact ⟨j', n, hnext, Or.inl hj'⟩
    · obtain ⟨j', n, heq, hbound⟩ := h.entries ip' entry hip' hbefore
      exact ⟨j', n, heq, hbound.imp (fun hle => by omega) fun hover => hover⟩
  case decays =>
    intro later _
    have hle := (decayedScore_le (hstored ▸ hdecayed.incr) (.fin (later : ℤ))).2
    rw [hstored] at hle
    exact hle.trans hraised
  case notLocked =>
    intro hlocked
    by_cases hactive : p.status = .active
    · rcases (recordFailure_locks hactive).mp hlocked with hreached | hreached
      · rw [hcount, hlimit] at hreached
        have hle := (le_of_ge_counted hreached).1
        omega
      · rw [hlimit] at hreached
        have hreaches : Le _ (raised (limit - 1) base) :=
          (Le.trans hreached hraised).trans (raised_mono hbase (by omega))
        rw [Le, hroom] at hreaches
        cases hreaches
    · rw [recordFailure_status_of_ne hactive] at hlocked
      exact h.notLocked hlocked

/-- **Fewer failures than the limit do not lock the pair again.** -/
theorem allowed_answeredAll (hlimit : registry.lockoutCount = .fin (limit : ℚ))
    (hbase : IsScore base)
    (hroom : (raised (limit - 1) base).ge ((JsNumber.fin (limit : ℚ)).mulNat 2) = false)
    {later : List TimedCall} (hlater : ∀ c ∈ later, c.request.About registry.lockoutCount pairId)
    (horder : InOrder now later) (hunlocked : unlockedAt ≤ now)
    (hfew : k + failuresIn later < limit)
    (h : ∃ p, s.store.pairs.get pairId = some p ∧
      Allowed pairId unlockedAt base k now p s.tracker) :
    ¬(s.answeredAll registry crypto later).IsLocked pairId := by
  induction later generalizing s k now with
  | nil =>
      obtain ⟨p, hp, hallowed⟩ := h
      rintro ⟨p', hp', hlocked⟩
      obtain rfl : p = p' := Option.some.inj (hp.symm.trans hp')
      exact hallowed.notLocked hlocked
  | cons c later ih =>
      obtain ⟨time, request⟩ := c
      obtain ⟨hnow, horder⟩ := horder
      have hrest : ∀ c ∈ later, c.request.About registry.lockoutCount pairId :=
        fun c hc => hlater c (List.mem_cons_of_mem _ hc)
      rw [ServerState.answeredAll_cons]
      obtain ⟨p, hp, hallowed⟩ := h
      rcases (hlater ⟨time, request⟩ (by simp)).cases with ⟨ip, rfl⟩ | ⟨hmild, huses⟩
      · have hcount : failuresIn (⟨time, .recordActivity pairId false ip⟩ :: later) =
            failuresIn later + 1 := by
          simp [failuresIn, ServerRequest.isFailure]
        rw [hcount] at hfew
        exact ih hrest horder (hunlocked.trans hnow) (by omega)
          (hallowed.failed hlimit hbase hroom (by omega) hp ip hnow (hunlocked.trans hnow))
      · have hcount : failuresIn (⟨time, request⟩ :: later) = failuresIn later := by
          simp [failuresIn, show request.isFailure = false from hmild]
        rw [hcount] at hfew
        have hset : ∃ p, ({ s with now := time } : ServerState).store.pairs.get pairId = some p ∧
            Allowed pairId unlockedAt base k time p ({ s with now := time } : ServerState).tracker :=
          ⟨p, hp, hallowed.later hnow⟩
        refine ih hrest horder (hunlocked.trans hnow) hfew ?_
        exact drive_keeps (I := fun t => ∃ p, t.store.pairs.get pairId = some p ∧
          Allowed pairId unlockedAt base k time p t.tracker)
          (fun _ _ ho ht => mild_allowed hlimit hbase (by omega) ho ht) huses hset 0 []

/-- What `unlock` leaves. -/
theorem answered_unlock (hp : s.store.pairs.get pairId = some p) (hid : p.id = pairId) :
    s.answered registry crypto ⟨now, .unlock pairId⟩ =
      { store := s.store.setPair pairId (unlocked p), tracker := s.tracker, now := now } := by
  have hkeeps : (unlocked p).id = pairId := by
    unfold unlocked
    split <;> exact hid
  have hrun : (s.store.run (.atomicMutate pairId .unlock)).2 =
      s.store.setPair pairId (unlocked p) := by
    simp [MemoryPairStore.run, MemoryPairStore.atomicMutate, hp, PairMutation.apply,
      MemoryPairStore.commitMutation, settle, ensure, require, hkeeps]
  rw [← hrun]
  exact drive_settled _ _ _ _

/-- A pair that has been unlocked, where nothing is left that would lock it early. -/
theorem Recorded.unlocked {tracker : IpFailureTracker} (h : Recorded limit pairId p tracker)
    (hlocked : p.status = .locked)
    (hspent : ∀ ip entry, ip ≠ [] → tracker.get (ipKey pairId ip) = some entry →
      entry.stale (.fin (now : ℤ)) = true) :
    Allowed pairId now (decayedScore p (.fin (now : ℤ))) 0 now (Pair.unlocked p) tracker := by
  have hunlocked : Pair.unlocked p = { p with status := .active, failedSigs := .fin 0 } :=
    if_pos hlocked
  rw [hunlocked]
  constructor
  case id => exact h.id
  case failedSigs => exact ⟨0, le_rfl, counted_zero.symm⟩
  case score => exact h.score
  case cycle => exact h.cycle
  case entries =>
    intro ip entry hip hget
    obtain ⟨k, n, rfl⟩ := h.entries ip entry hget
    refine ⟨k + 1, n, rfl, Or.inr ?_⟩
    have hstale := hspent ip _ hip hget
    rwa [stale_iff, decide_eq_true_iff] at hstale
  case decays =>
    intro later hlater
    refine decayedScore_anti (p := p) h.score (fun t ht => ?_) hlater
    obtain ⟨n, rfl⟩ := h.cycle t ht
    exact ⟨n, rfl⟩
  case notLocked => simp

/-- Where nothing fails nothing is locked. -/
theorem not_locked_of_quiet (hlimit : registry.lockoutCount = .fin (limit : ℚ)) (hpos : 0 < limit)
    {later : List TimedCall} (hlater : ∀ c ∈ later, c.request.About registry.lockoutCount pairId)
    (hquiet : failuresIn later = 0)
    (h : ∃ p, s.store.pairs.get pairId = some p ∧ p.failedSigs = .fin 0 ∧ p.status ≠ .locked) :
    ¬(s.answeredAll registry crypto later).IsLocked pairId := by
  induction later generalizing s with
  | nil =>
      obtain ⟨p, hp, -, hopen⟩ := h
      rintro ⟨p', hp', hlocked⟩
      obtain rfl : p = p' := Option.some.inj (hp.symm.trans hp')
      exact hopen hlocked
  | cons c later ih =>
      rw [ServerState.answeredAll_cons]
      have hsplit : c.request.isFailure = false ∧ failuresIn later = 0 := by
        simpa [failuresIn, List.countP_cons, and_comm] using hquiet
      refine ih (fun d hd => hlater d (List.mem_cons_of_mem _ hd)) hsplit.2 ?_
      rcases (hlater c (by simp)).cases with ⟨ip, hfails⟩ | ⟨-, huses⟩
      · rw [hfails] at hsplit
        cases hsplit.1
      · refine drive_keeps (I := fun t => ∃ p, t.store.pairs.get pairId = some p ∧
          p.failedSigs = .fin 0 ∧ p.status ≠ .locked) (fun t o ho ht => ?_) huses
          (s := { s with now := c.now }) h 0 []
        obtain ⟨p, hp, hfailed, hopen⟩ := ht
        obtain ⟨⟨p', hp', hsettles⟩, -⟩ := @perform_mild _ _ _ crypto _ _ ho hp
        refine ⟨p', hp', ?_, fun hlocked => ?_⟩
        · rcases hsettles.failedSigs with heq | heq
          · exact heq.trans hfailed
          · exact heq
        · rcases hsettles.locked hlocked with hbefore | ⟨minimum, hle, hlt⟩
          · exact hopen hbefore
          · rw [hlimit] at hle
            rw [hfailed, ← counted_zero, not_locked_below hpos hle] at hlt
            cases hlt

end Unlocked

/-! ## Failures of one moment -/

section Burst

variable {registry : RegistryConfig} {crypto : Crypto} {limit : ℕ} {pairId ip : JsString}
  {s : ServerState} {p : StoredPair} {now : ℤ}

/-- As many failures of one address, all at once. -/
def burst (pairId ip : JsString) (now : ℤ) (n : ℕ) : List TimedCall :=
  List.replicate n (failedAt pairId ip now)

theorem burst_about (lockoutCount : JsNumber) (n : ℕ) :
    ∀ c ∈ burst pairId ip now n, c.request.About lockoutCount pairId := by
  intro c hc
  rw [List.eq_of_mem_replicate hc]
  exact rfl

theorem burst_inOrder (n : ℕ) : InOrder now (burst pairId ip now n) := by
  induction n with
  | zero => trivial
  | succ n ih => exact ⟨le_rfl, ih⟩

theorem failuresIn_burst (n : ℕ) : failuresIn (burst pairId ip now n) = n := by
  induction n with
  | zero => rfl
  | succ n ih =>
      have hcons : burst pairId ip now (n + 1) = failedAt pairId ip now :: burst pairId ip now n :=
        rfl
      rw [hcons, failuresIn, List.countP_cons_of_pos rfl]
      exact congrArg (· + 1) ih

/-- The state of a pair that fails on and on: in use until it is locked. -/
def Failing (pairId : JsString) (s : ServerState) (p : StoredPair) : Prop :=
  s.store.pairs.get pairId = some p ∧ p.id = pairId ∧ (p.status = .active ∨ p.status = .locked)

/-- One failure more, and where it comes to a limit the pair is locked. -/
theorem Failing.failed (h : Failing pairId s p) (ip : JsString) (now : ℤ) :
    ∃ p', Failing pairId (s.answered registry crypto (failedAt pairId ip now)) p' ∧
      decayedScore p' (.fin (now : ℤ)) = (decayedScore p (.fin (now : ℤ))).incr ∧
        (p.status = .locked ∨ ReachesLimit p (countFailure s.tracker pairId ip (.fin (now : ℤ))).1
          registry.lockoutCount (.fin (now : ℤ)) → p'.status = .locked) := by
  obtain ⟨hp, hid, hstatus⟩ := h
  rw [answered_failedAt, run_recordFailure hp hid]
  refine ⟨_, ⟨MemoryPairStore.setPair_get _, (recordFailure_id _ _ _ _).trans hid, ?_⟩,
    decayedScore_recordFailure _ _ now, ?_⟩
  · rcases recordFailure_status p _ registry.lockoutCount _ with hsame | ⟨-, hlocks⟩
    · exact hsame ▸ hstatus
    · exact Or.inr hlocks
  · rintro (hlocked | hreaches)
    · have hne : p.status ≠ .active := by
        rw [hlocked]
        decide
      exact (recordFailure_status_of_ne hne).trans hlocked
    · rcases hstatus with hactive | hlocked
      · exact (recordFailure_locks hactive).mpr hreaches
      · have hne : p.status ≠ .active := by
          rw [hlocked]
          decide
        exact (recordFailure_status_of_ne hne).trans hlocked

theorem answeredAll_burst_succ (n : ℕ) :
    s.answeredAll registry crypto (burst pairId ip now (n + 1)) =
      (s.answeredAll registry crypto (burst pairId ip now n)).answered registry crypto
        (failedAt pairId ip now) := by
  have hsnoc : burst pairId ip now (n + 1) =
      burst pairId ip now n ++ [failedAt pairId ip now] := List.replicate_succ'
  rw [hsnoc, ServerState.answeredAll_append]
  rfl

/-- The score after failures of one moment. -/
theorem burst_score (h : Failing pairId s p) (n : ℕ) :
    ∃ p', Failing pairId (s.answeredAll registry crypto (burst pairId ip now n)) p' ∧
      decayedScore p' (.fin (now : ℤ)) = raised n (decayedScore p (.fin (now : ℤ))) ∧
        (n ≠ 0 → (raised n (decayedScore p (.fin (now : ℤ)))).ge (registry.lockoutCount.mulNat 2) =
          true → p'.status = .locked) := by
  induction n with
  | zero => exact ⟨p, h, rfl, fun h => absurd rfl h⟩
  | succ n ih =>
      obtain ⟨q, hq, hscore, -⟩ := ih
      obtain ⟨p', hp', hscore', hlocks⟩ := @Failing.failed registry crypto _ _ _ hq ip now
      rw [answeredAll_burst_succ]
      refine ⟨p', hp', ?_, fun _ hreached => hlocks (Or.inr (Or.inr ?_))⟩
      · rw [hscore', hscore, raised_succ]
      · rw [hscore, ← raised_succ]
        exact hreached

/-- The counter of an address whose window lasts, after failures of one moment. -/
theorem burst_count (h : Failing pairId s p) (hip : ip ≠ []) {m : ℕ} {start : ℤ}
    (hentry : s.tracker.get (ipKey pairId ip) = some ⟨counted m, .fin (start : ℤ)⟩)
    (hlive : ¬start + 300000 < now) (n : ℕ) :
    ∃ p', Failing pairId (s.answeredAll registry crypto (burst pairId ip now n)) p' ∧
      (s.answeredAll registry crypto (burst pairId ip now n)).tracker.get (ipKey pairId ip) =
        some ⟨counted (m + n), .fin (start : ℤ)⟩ ∧
        (n ≠ 0 → (counted (m + n)).ge registry.lockoutCount = true → p'.status = .locked) := by
  induction n with
  | zero => exact ⟨p, h, hentry, fun h => absurd rfl h⟩
  | succ n ih =>
      obtain ⟨q, hq, hcount, -⟩ := ih
      obtain ⟨p', hp', -, hlocks⟩ := @Failing.failed registry crypto _ _ _ hq ip now
      rw [answeredAll_burst_succ]
      set t := s.answeredAll registry crypto (burst pairId ip now n)
      obtain ⟨hself, hget⟩ := @countFailure_self t.tracker (.fin (now : ℤ)) pairId ip hip
      have hnext : nextIpFailures (t.tracker.get (ipKey pairId ip)) (.fin (now : ℤ)) =
          ⟨counted (m + (n + 1)), .fin (start : ℤ)⟩ := by
        rw [hcount]
        simp [nextIpFailures, stale_iff, hlive, incr_counted, Nat.add_assoc]
      rw [hnext] at hself hget
      refine ⟨p', hp', ?_, fun _ hreached => hlocks (Or.inr (Or.inl ?_))⟩
      · rw [answered_failedAt]
        exact hget
      · rw [hself]
        exact hreached

end Burst

/-! ## The allowance -/

/-- **Whether a pair that has been unlocked may fail as often again as any other, is settled at the
    unlock**: if and only if the window of each of its source addresses is over and its score leaves
    room, `unlock` gives a fresh allowance. -/
theorem fresh_allowance_iff {registry : RegistryConfig} {limit : ℕ}
    (hlimit : registry.lockoutCount = .fin (limit : ℚ)) (crypto : Crypto) {s : ServerState}
    {pairId : JsString} (hs : s.Unfailed pairId) {before : List TimedCall}
    (hbefore : ∀ c ∈ before, c.request.About registry.lockoutCount pairId)
    (hlocked : (s.answeredAll registry crypto before).IsLocked pairId) (now : ℤ) :
    (∀ later, (∀ c ∈ later, c.request.About registry.lockoutCount pairId) → InOrder now later →
        failuresIn later < limit →
          ¬(s.answeredAll registry crypto (before ++ ⟨now, .unlock pairId⟩ :: later)).IsLocked pairId) ↔
      limit ≤ 1 ∨ Spent limit pairId (s.answeredAll registry crypto before) now := by
  obtain ⟨p, hp, hrecorded⟩ := @exists_recorded registry crypto _ _ _ hlimit hs _ hbefore
  set t := s.answeredAll registry crypto before
  obtain ⟨p', hp', hstatus⟩ := hlocked
  obtain rfl : p = p' := Option.some.inj (hp.symm.trans hp')
  have hunlock := @answered_unlock registry crypto _ _ _ now hp hrecorded.id
  set u : ServerState := { store := t.store.setPair pairId (unlocked p), tracker := t.tracker, now }
    with hu
  have hrun (later : List TimedCall) :
      s.answeredAll registry crypto (before ++ ⟨now, .unlock pairId⟩ :: later) =
        u.answeredAll registry crypto later := by
    rw [ServerState.answeredAll_append, ServerState.answeredAll_cons, hunlock]
  have hunlocked : unlocked p = { p with status := .active, failedSigs := .fin 0 } :=
    if_pos hstatus
  have hopen : Failing pairId u (unlocked p) := by
    refine ⟨MemoryPairStore.setPair_get _, ?_, ?_⟩
    · rw [hunlocked]
      exact hrecorded.id
    · rw [hunlocked]
      exact Or.inl rfl
  simp only [hrun]
  constructor
  · intro hfresh
    by_cases hone : limit ≤ 1
    · exact Or.inl hone
    -- all failures but one of an allowance, at once
    have hburst (ip : JsString) :
        ¬(u.answeredAll registry crypto (burst pairId ip now (limit - 1))).IsLocked pairId :=
      hfresh _ (burst_about _ _) (burst_inOrder _) (by rw [failuresIn_burst]; omega)
    refine Or.inr ⟨fun ip entry hip hget => ?_, fun q hq => ?_⟩
    · by_contra hlive
      obtain ⟨k, n, rfl⟩ := hrecorded.entries ip entry hget
      rw [stale_iff, decide_eq_true_iff] at hlive
      obtain ⟨q, hq, -, hlocks⟩ := @burst_count registry crypto _ _ _ _ _ hopen hip _ _ hget hlive
        (limit - 1)
      refine hburst ip ⟨q, hq.1, hlocks (by omega) ?_⟩
      have hmax := hrecorded.locked hstatus
      rw [hlimit, counted, ge_fin, decide_eq_true_iff]
      exact_mod_cast (by omega : limit ≤ min (k + 1 + (limit - 1)) (2 ^ 53))
    · obtain rfl : p = q := Option.some.inj (hp.symm.trans hq)
      rw [← Bool.not_eq_true, ← hlimit]
      intro hreached
      obtain ⟨q, hq, -, hlocks⟩ := @burst_score registry crypto _ [] _ _ now hopen (limit - 1)
      have hsame : decayedScore (unlocked p) (.fin (now : ℤ)) = decayedScore p (.fin (now : ℤ)) := by
        rw [hunlocked]
        rfl
      rw [hsame] at hlocks
      exact hburst [] ⟨q, hq.1, hlocks (by omega) hreached⟩
  · rintro (hone | hspent) later hlater horder hfew
    · rcases Nat.le_one_iff_eq_zero_or_eq_one.mp hone with rfl | rfl
      · omega
      · refine not_locked_of_quiet hlimit Nat.one_pos hlater (by omega) ⟨unlocked p, hopen.1, ?_⟩
        rw [hunlocked]
        exact ⟨rfl, by simp⟩
    · exact allowed_answeredAll hlimit (isScore_decayedScore hrecorded.score _)
        (hspent.score p hp) hlater horder le_rfl (by omega)
        ⟨unlocked p, hopen.1, hrecorded.unlocked hstatus hspent.entries⟩

/-! ## An unlock that changes nothing -/

/-- A source address. -/
def sampleIp : JsString :=
  Js.lit "198.51.100.1"

/-- Ten failures of one address, which lock a pair. -/
def tenFailures : List TimedCall :=
  burst sampleId sampleIp 1 10

theorem isLocked_of_status {s : ServerState} {pairId : JsString}
    (h : (s.store.pairs.get pairId).map StoredPair.status = some .locked) : s.IsLocked pairId := by
  obtain ⟨p, hp, hstatus⟩ := Option.map_eq_some_iff.mp h
  exact ⟨p, hp, hstatus⟩

theorem tenFailures_lock :
    (ServerState.sample.answeredAll .standard .agreeing tenFailures).IsLocked sampleId :=
  isLocked_of_status (by decide +kernel)

theorem fresh_allowance_sample :
    (∀ later, (∀ c ∈ later, c.request.About (.fin 10) sampleId) → InOrder 2 later →
        failuresIn later < 10 →
          ¬(ServerState.sample.answeredAll .standard .agreeing
            (tenFailures ++ ⟨2, .unlock sampleId⟩ :: later)).IsLocked sampleId) ↔
      10 ≤ 1 ∨ Spent 10 sampleId
        (ServerState.sample.answeredAll .standard .agreeing tenFailures) 2 :=
  @fresh_allowance_iff .standard 10 rfl .agreeing _ _ ServerState.sample_unfailed _
    (burst_about _ _) tenFailures_lock 2

/-- A pair that is unlocked a moment after ten failures of one address is locked by the eleventh. -/
theorem unlocked_pair_relocks :
    ¬∀ later, (∀ c ∈ later, c.request.About (.fin 10) sampleId) → InOrder 2 later →
      failuresIn later < 10 →
        ¬(ServerState.sample.answeredAll .standard .agreeing
          (tenFailures ++ ⟨2, .unlock sampleId⟩ :: later)).IsLocked sampleId := by
  intro h
  refine h (burst sampleId sampleIp 3 1) (burst_about _ _) ⟨by decide, trivial⟩ (by decide) ?_
  exact isLocked_of_status (by decide +kernel)

end Pair
