import BpcProtocol.Pair.Lifecycle

set_option autoImplicit false

/-! # Capacity

Approval checks how many pairs are active before it adds one, and a rotation adds one for one that
it retires. `unlock` puts a pair back into use unchecked, so that the limit holds where those who
unlock keep to it. -/

namespace Pair

open Fallible Async

/-! ## The number of active pairs -/

/-- A limit that a number of pairs can meet: a natural number, or none. -/
inductive IsLimit : JsNumber → Prop
  | nan : IsLimit .nan
  | posInf : IsLimit .posInf
  | natCast (n : ℕ) : IsLimit (.fin (n : ℚ))

/-- `n > maxPairs` is false. -/
def Fits (maxPairs : JsNumber) (n : ℕ) : Prop :=
  maxPairs.lt (.fin (n : ℚ)) = false

theorem fits_fin {q : ℚ} {n : ℕ} : Fits (.fin q) n ↔ (n : ℚ) ≤ q := by
  have hlt : (JsNumber.fin q).lt (.fin (n : ℚ)) = decide (q < n) := rfl
  rw [Fits, hlt, decide_eq_false_iff_not, not_lt]

theorem IsLimit.fits_zero {maxPairs : JsNumber} (h : IsLimit maxPairs) : Fits maxPairs 0 := by
  cases h with
  | nan => rfl
  | posInf => rfl
  | natCast n => exact fits_fin.mpr (by exact_mod_cast Nat.zero_le n)

theorem Fits.mono {maxPairs : JsNumber} {m n : ℕ} (h : Fits maxPairs n) (hmn : m ≤ n) :
    Fits maxPairs m := by
  cases maxPairs with
  | nan => rfl
  | posInf => rfl
  | negInf => exact h
  | fin q =>
      refine fits_fin.mpr (le_trans ?_ (fits_fin.mp h))
      exact_mod_cast hmn

/-- Where the check of `approvePending` passes, there is room for one pair more. -/
theorem IsLimit.fits_succ {maxPairs : JsNumber} (h : IsLimit maxPairs) {n : ℕ}
    (hroom : JsNumber.ge (.fin (n : ℚ)) maxPairs = false) : Fits maxPairs (n + 1) := by
  cases h with
  | nan => rfl
  | posInf => rfl
  | natCast k =>
      rw [JsNumber.ge_fin, decide_eq_false_iff_not, not_le] at hroom
      have hlt : n < k := by exact_mod_cast hroom
      refine fits_fin.mpr ?_
      exact_mod_cast hlt

/-- A pair written over another one adds to the active ones if it is active and the other is not. -/
theorem MemoryPairStore.active_setPair {s : MemoryPairStore} {k : JsString} {p q : StoredPair}
    (hp : s.pairs.get k = some p) (h : q.status = .active → p.status = .active) :
    (s.setPair k q).active ≤ s.active := by
  have hcount := OrderedMap.count_set_of_some hp (fun p => decide (p.status = .active)) q
  have hle : (if decide (q.status = .active) = true then 1 else 0) ≤
      if decide (p.status = .active) = true then 1 else 0 := by
    by_cases hq : q.status = .active
    · simp [hq, h hq]
    · simp [hq]
  simp only [MemoryPairStore.active, MemoryPairStore.setPair]
  omega

/-- A pair newly stored adds one at most. -/
theorem MemoryPairStore.active_setPair_new {s : MemoryPairStore} {k : JsString} (q : StoredPair)
    (hnew : s.pairs.get k = none) : (s.setPair k q).active ≤ s.active + 1 := by
  have hcount := OrderedMap.count_set_of_none hnew (fun p => decide (p.status = .active)) q
  simp only [MemoryPairStore.active, MemoryPairStore.setPair]
  split at hcount <;> omega

/-- An active pair retired makes room for one. -/
theorem MemoryPairStore.active_retired {s : MemoryPairStore} {k : JsString} {p q : StoredPair}
    (hp : s.pairs.get k = some p) (hactive : p.status = .active) (hq : q.status ≠ .active) :
    (s.setPair k q).active + 1 = s.active := by
  have hcount := OrderedMap.count_set_of_some hp (fun p => decide (p.status = .active)) q
  simp only [hactive, hq, decide_true, decide_false, if_true, Bool.false_eq_true, if_false] at hcount
  simp only [MemoryPairStore.active, MemoryPairStore.setPair]
  omega

/-- Only an approval and an unlock can add to the active pairs, one each. -/
theorem PairEffect.active {s s' : MemoryPairStore} {o : StoreOp} {x : o.Answer}
    (h : PairEffect s o x s') (hinv : StoreInv s) :
    s'.active ≤ s.active ∨
      s'.active ≤ s.active + 1 ∧
        ((∃ token expected pair maxActivePairs,
            o = .approvePending token expected pair maxActivePairs ∧
            JsNumber.ge (.fin (s.active : ℚ)) maxActivePairs = false) ∨
          ∃ k p, o = .atomicMutate k .unlock ∧ s.pairs.get k = some p ∧ p.status = .locked) := by
  cases h with
  | keep hx hpairs =>
      left
      rw [MemoryPairStore.active, hpairs]
      exact le_rfl
  | retire hx hget hactive hstatus =>
      exact Or.inl (MemoryPairStore.active_setPair hget fun _ => hactive)
  | claim hget hguard =>
      exact Or.inl (MemoryPairStore.active_setPair hget fun _ => hguard.status)
  | @mutate k m current next hget happly hid =>
      by_cases hcurrent : current.status = .active
      · exact Or.inl (MemoryPairStore.active_setPair hget fun _ => hcurrent)
      by_cases hnext : next.status = .active
      · -- the pair comes into use, which only `unlock` can do
        obtain ⟨rfl, hlocked⟩ := PairMutation.activates happly hcurrent hnext
        have hcount := OrderedMap.count_set_of_some hget
          (fun p => decide (p.status = .active)) next
        refine Or.inr ⟨?_, Or.inr ⟨k, current, rfl, hget, hlocked⟩⟩
        simp only [MemoryPairStore.active, MemoryPairStore.setPair]
        split at hcount <;> split at hcount <;> omega
      · exact Or.inl (MemoryPairStore.active_setPair hget fun h => absurd h hnext)
  | @approve token expected pair maxActivePairs s' hinitial hcapacity hnew hpairs =>
      refine Or.inr ⟨?_, Or.inl ⟨token, expected, pair, maxActivePairs, rfl, hcapacity⟩⟩
      have hactive : s'.active = (s.setPair pair.id pair).active := by
        rw [MemoryPairStore.active, hpairs]
        rfl
      rw [hactive]
      exact MemoryPairStore.active_setPair_new pair hnew
  | @rotate expectedOld replacement current hget hactive hinitial hpolicy hnew =>
      left
      have hid : current.id = expectedOld.id := hinv.keyed _ current hget
      rw [← hid] at hget
      have hretired := MemoryPairStore.active_retired (q := current.withStatus .rotated) hget
        hactive (fun h => by cases h)
      have hne : replacement.id ≠ current.id := by
        intro heq
        rw [heq, hget] at hnew
        cases hnew
      have hnew' : (s.setPair current.id (current.withStatus .rotated)).pairs.get replacement.id =
          none := (OrderedMap.get_set_of_ne _ hne _).trans hnew
      have hadded := MemoryPairStore.active_setPair_new replacement hnew'
      omega

/-! ## The limit of the registry -/

/-- Approvals are made with this limit. -/
def ServerOp.ApprovesWithin (maxPairs : JsNumber) : ServerOp → Prop
  | .store (.approvePending _ _ _ maxActivePairs) => maxActivePairs = maxPairs
  | _ => True

theorem ServerOp.OfVerifier.approvesWithin {o : ServerOp} (h : o.OfVerifier) (maxPairs : JsNumber) :
    o.ApprovesWithin maxPairs := by
  unfold ServerOp.ApprovesWithin
  split
  · exact h.elim
  · trivial

theorem ServerOp.OfRotation.approvesWithin {o : ServerOp} (h : o.OfRotation) (maxPairs : JsNumber) :
    o.ApprovesWithin maxPairs := by
  unfold ServerOp.ApprovesWithin
  split
  · exact h.elim
  · trivial

section Runs

open Prog

variable {registry : RegistryConfig} {crypto : Crypto} {ι : Type} [DecidableEq ι]
  {cfg : ServerConfig ι}

theorem requestPairing_approves (registration : PairRegistration) :
    (requestPairing registry registration).Uses (ServerOp.ApprovesWithin registry.maxPairs) :=
  uses_lift.bind fun _ => (uses_perform' trivial).bind fun _ => uses_lift.bind fun _ =>
    (uses_perform' trivial).bind fun _ => (uses_perform' trivial).bind fun _ =>
      (uses_perform' trivial).bind fun _ => trivial

theorem approvePairing_approves (token : JsString) :
    (approvePairing registry token).Uses (ServerOp.ApprovesWithin registry.maxPairs) := by
  refine (uses_perform' trivial).bind fun pending => uses_elim pending trivial fun found => ?_
  refine (uses_perform' trivial).bind fun pairId => (uses_perform' trivial).bind fun created => ?_
  have hop : (ServerOp.store (.approvePending token found
      (newPair pairId found.registration created) registry.maxPairs)).ApprovesWithin
        registry.maxPairs := rfl
  exact (uses_attempt (uses_perform' hop)).bind fun _ => uses_lift.bind fun _ => trivial

theorem program_approves (r : ServerRequest) :
    (r.program registry).Uses (ServerOp.ApprovesWithin registry.maxPairs) := by
  have hverifier : ∀ {α : Type} {p : ServerProg α} (f : α → ServerResult),
      p.Uses ServerOp.OfVerifier → (f <$> p).Uses (ServerOp.ApprovesWithin registry.maxPairs) :=
    fun f h => (h.mono fun o ho => ho.approvesWithin _).map
  cases r with
  | requestPairing registration => exact (requestPairing_approves registration).map
  | approvePairing token => exact (approvePairing_approves token).map
  | registerDirect registration =>
      exact ((requestPairing_approves registration).bind fun token =>
        approvePairing_approves token).map
  | revoke pairId => exact Uses.map ((uses_attempt (uses_perform' trivial)).bind fun _ => trivial)
  | recordActivity pairId success ip =>
      exact hverifier _ (uses_of_silently (recordActivity_uses registry pairId success ip))
  | claimSuccessfulUse pairId => exact hverifier _ (uses_of_silently (claimSuccessfulUse_uses pairId))
  | claimSuccessfulUseOutcome pairId at_ expected =>
      exact hverifier _ (uses_of_silently (claimSuccessfulUseOutcome_uses pairId at_ expected))
  | markExpired pairId now => exact hverifier _ (uses_of_silently (markExpired_uses pairId now))
  | markUsageExpired pairId => exact hverifier _ (uses_of_silently (markUsageExpired_uses pairId))
  | ensureLocked pairId minimumFailures =>
      exact hverifier _ (uses_of_silently (ensureLocked_uses pairId minimumFailures))
  | unlock pairId => exact Uses.map ((uses_attempt (uses_perform' trivial)).bind fun _ => trivial)
  | updatePair pairId updates => exact Uses.map (uses_attempt (uses_perform' trivial))
  | handleRotation cfg req =>
      exact Uses.map ((uses_of_silently (handleRotation_uses cfg req)).mono fun o ho => ho.approvesWithin _)
  | verifyBPCRequest cfg req => exact hverifier _ (verifyBPCRequest_uses registry cfg req)

/-- Whoever unlocks a locked pair finds room for one pair more. -/
def UnlocksWithin (maxPairs : JsNumber) (e : Entry ι ServerOp ServerOp.Answer ServerState) : Prop :=
  ∀ pairId p, e.made.1 = .store (.atomicMutate pairId .unlock) →
    e.state.store.pairs.get pairId = some p → p.status = .locked →
    JsNumber.ge (.fin (e.state.store.active : ℚ)) maxPairs = false

/-- In a run whose unlocks keep to the limit, the active pairs keep to it. -/
theorem capacity (hlimit : IsLimit registry.maxPairs)
    (hreach : Transition.Reachable ((serverService registry crypto).system ι) cfg)
    (hunlocks : ∀ e ∈ cfg.log, UnlocksWithin registry.maxPairs e) :
    Fits registry.maxPairs cfg.shared.store.active := by
  refine Transition.Reachable.invariant (I := fun cfg =>
    (∀ e ∈ cfg.log, UnlocksWithin registry.maxPairs e) →
      Fits registry.maxPairs cfg.shared.store.active) ?_ ?_ hreach hunlocks
  · rintro cfg ⟨⟨hstore, -⟩, -⟩ -
    rw [hstore]
    exact hlimit.fits_zero
  · intro cfg cfg' hreach ih hstep hunlocks
    have huses := Service.uses_of_request (fun r _ => @program_approves registry r) hreach
    cases hstep with
    | start i r hadm hi => exact ih hunlocks
    | env s hs =>
        obtain ⟨now, rfl⟩ := hs
        exact ih hunlocks
    | exec i r o k x s hi hexec =>
        have hbefore := ih fun e he => hunlocks e (List.mem_append_left _ he)
        have hunlock := hunlocks _ (List.mem_append_right _ (List.mem_singleton_self _))
        rcases ServerExec.store_cases hexec with heq | ⟨so, rfl, heq⟩
        · rw [heq]
          exact hbefore
        rw [heq]
        rcases (cfg.shared.store.run_effect so).active (storeInv_of_reachable hreach) with
          hle | ⟨hle, hroom⟩
        · exact hbefore.mono hle
        refine Fits.mono (hlimit.fits_succ ?_) hle
        rcases hroom with ⟨token, expected, pair, limit, rfl, hroom⟩ | ⟨pairId, p, rfl, hp, hlocked⟩
        · have happroves : limit = registry.maxPairs := (huses i _ hi).1
          rw [← happroves]
          exact hroom
        · exact hunlock pairId p rfl hp hlocked

end Runs

/-- A pair is locked, a second one takes its place, and the first one is unlocked again. -/
def replacedRun (registry : RegistryConfig) : ServerConfig ℕ :=
  (ServerConfig.start 0).serve registry .agreeing 0
    [.registerDirect (sampleRegistration "first" none),
      .recordActivity (Js.lit "pair_0") false [],
      .registerDirect (sampleRegistration "second" none),
      .unlock (Js.lit "pair_0")]

theorem replacedRun_reachable (registry : RegistryConfig) :
    Transition.Reachable ((serverService registry .agreeing).system ℕ) (replacedRun registry) :=
  (ServerConfig.run_serve .agreeing (fun _ _ => rfl) _).reachable (ServerConfig.reachable_start _ 0)

theorem capacity_replaced : Fits (.fin 2) (replacedRun ⟨.fin 2, .fin 1⟩).shared.store.active ∧
    (replacedRun ⟨.fin 2, .fin 1⟩).shared.store.active = 2 := by
  have hroom : ∀ e ∈ (replacedRun ⟨.fin 2, .fin 1⟩).log,
      JsNumber.ge (.fin (e.state.store.active : ℚ)) (.fin 2) = false := by
    decide +kernel
  have hlimit : IsLimit (.fin 2) := by
    rw [← Nat.cast_ofNat]
    exact .natCast 2
  have hactive : (replacedRun ⟨.fin 2, .fin 1⟩).shared.store.active = 2 := by decide +kernel
  have hunlocks : ∀ e ∈ (replacedRun ⟨.fin 2, .fin 1⟩).log, UnlocksWithin (.fin 2) e :=
    fun e he _ _ _ _ _ => hroom e he
  exact ⟨@capacity ⟨.fin 2, .fin 1⟩ .agreeing ℕ _ _ hlimit (replacedRun_reachable _) hunlocks,
    hactive⟩

/-- With room for one pair only there are two of them at the end. -/
theorem capacity_exceeded :
    ∃ cfg : ServerConfig ℕ,
      Transition.Reachable ((serverService ⟨.fin 1, .fin 1⟩ .agreeing).system ℕ) cfg ∧
      ¬Fits (.fin 1) cfg.shared.store.active := by
  refine ⟨replacedRun ⟨.fin 1, .fin 1⟩, replacedRun_reachable _, fun h => ?_⟩
  have htwo : (replacedRun ⟨.fin 1, .fin 1⟩).shared.store.active = 2 := by decide +kernel
  rw [htwo] at h
  exact absurd (fits_fin.mp h) (by norm_num)

end Pair
