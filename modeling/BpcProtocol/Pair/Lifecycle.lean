import BpcProtocol.Pair.Operations

set_option autoImplicit false

/-! # The life of a pair

Ten mutators on two layers write whole pairs. Whatever they do, in any interleaving, a pair that has
been revoked stays revoked, one that has been rotated or has expired is never used again, a lock is
opened by `unlock` only, and the count of requests never goes back. -/

namespace Pair

open Fallible Async

/-! ## One pair -/

/-- A status that no pair returns from into use. -/
def PairStatus.Ended : PairStatus → Prop
  | active => False
  | locked => False
  | expired => True
  | rotated => True
  | revoked => True

/-- What a pair may become. -/
structure Lifecycle (p p' : StoredPair) : Prop where
  revoked : p.status = .revoked → p'.status = .revoked
  ended : p.status.Ended → p'.status.Ended
  requests : ∀ n, p.requests = JsNumber.counted n → ∃ n', n ≤ n' ∧ p'.requests = JsNumber.counted n'
  kind : p'.kind = p.kind

theorem Lifecycle.refl (p : StoredPair) : Lifecycle p p :=
  ⟨fun h => h, fun h => h, fun n hn => ⟨n, le_rfl, hn⟩, rfl⟩

theorem Lifecycle.trans {p q r : StoredPair} (hpq : Lifecycle p q) (hqr : Lifecycle q r) :
    Lifecycle p r where
  revoked h := hqr.revoked (hpq.revoked h)
  ended h := hqr.ended (hpq.ended h)
  requests n hn := by
    obtain ⟨n', hle, hn'⟩ := hpq.requests n hn
    obtain ⟨n'', hle', hn''⟩ := hqr.requests n' hn'
    exact ⟨n'', hle.trans hle', hn''⟩
  kind := hqr.kind.trans hpq.kind

/-- A pair in use may change its status to any other. -/
theorem Lifecycle.of_not_ended {p p' : StoredPair} (h : ¬p.status.Ended)
    (hrequests : p'.requests = p.requests ∨ p'.requests = p.requests.incr)
    (hkind : p'.kind = p.kind) : Lifecycle p p' where
  revoked hrevoked := absurd (hrevoked ▸ trivial) h
  ended hended := absurd hended h
  requests n hn := by
    rcases hrequests with heq | heq
    · exact ⟨n, le_rfl, heq.trans hn⟩
    · exact ⟨n + 1, n.le_succ, by rw [heq, hn, JsNumber.incr_counted]⟩
  kind := hkind

/-- A change that keeps status and requests. -/
theorem Lifecycle.of_eq {p p' : StoredPair} (hstatus : p'.status = p.status)
    (hrequests : p'.requests = p.requests) (hkind : p'.kind = p.kind) : Lifecycle p p' where
  revoked h := hstatus.trans h
  ended h := hstatus ▸ h
  requests n hn := ⟨n, le_rfl, hrequests.trans hn⟩
  kind := hkind

theorem recordFailure_status (p : StoredPair) (ipFailures : Option JsNumber)
    (lockoutCount now : JsNumber) :
    (recordFailure p ipFailures lockoutCount now).status = p.status ∨
      p.status = .active ∧ (recordFailure p ipFailures lockoutCount now).status = .locked := by
  unfold recordFailure lockAtThreshold
  split
  · next h => exact Or.inr ⟨h.1, rfl⟩
  · exact Or.inl rfl

theorem recordFailure_keeps (p : StoredPair) (ipFailures : Option JsNumber)
    (lockoutCount now : JsNumber) :
    (recordFailure p ipFailures lockoutCount now).requests = p.requests ∧
      (recordFailure p ipFailures lockoutCount now).kind = p.kind := by
  unfold recordFailure lockAtThreshold
  split
  · exact ⟨rfl, rfl⟩
  · exact ⟨rfl, rfl⟩

theorem recordFailure_id (p : StoredPair) (ipFailures : Option JsNumber)
    (lockoutCount now : JsNumber) : (recordFailure p ipFailures lockoutCount now).id = p.id := by
  unfold recordFailure lockAtThreshold
  split
  · rfl
  · rfl

theorem applyUpdates_eq_ok {p p' : StoredPair} {updates : PairUpdates}
    (h : applyUpdates p updates = .ok p') :
    p'.status = p.status ∧ p'.requests = p.requests ∧ p'.kind = p.kind := by
  simp only [applyUpdates, bind_eq_ok, pure_eq_ok] at h
  obtain ⟨-, -, rfl⟩ := h
  exact ⟨rfl, rfl, rfl⟩

theorem PairMutation.apply_update {p p' : StoredPair} {updates : PairUpdates}
    (h : (PairMutation.update updates).apply p = .ok (some p')) : applyUpdates p updates = .ok p' := by
  have h : (some <$> applyUpdates p updates) = .ok (some p') := h
  cases hupdated : applyUpdates p updates with
  | error e =>
      rw [hupdated] at h
      cases h
  | ok q =>
      rw [hupdated] at h
      cases h
      rfl

/-- What the callbacks of the registry make of a pair. -/
theorem PairMutation.lifecycle {m : PairMutation} {p p' : StoredPair}
    (h : m.apply p = .ok (some p')) : Lifecycle p p' := by
  cases m with
  | revoke =>
      cases h
      exact ⟨fun _ => rfl, fun _ => trivial, fun n hn => ⟨n, le_rfl, hn⟩, rfl⟩
  | unlock =>
      cases h
      unfold unlocked
      split
      · next hlocked =>
          exact .of_not_ended (by rw [hlocked]; exact fun h => h) (Or.inl rfl) rfl
      · exact .refl p
  | recordFailure ipFailures lockoutCount now =>
      cases h
      obtain ⟨hrequests, hkind⟩ := recordFailure_keeps p ipFailures lockoutCount now
      rcases recordFailure_status p ipFailures lockoutCount now with hsame | ⟨hactive, -⟩
      · exact .of_eq hsame hrequests hkind
      · exact .of_not_ended (by rw [hactive]; exact fun h => h) (Or.inl hrequests) hkind
  | update updates =>
      obtain ⟨hstatus, hrequests, hkind⟩ := applyUpdates_eq_ok (PairMutation.apply_update h)
      exact .of_eq hstatus hrequests hkind

/-- No callback but that of `unlock` puts a pair into use. -/
theorem PairMutation.activates {m : PairMutation} {p p' : StoredPair}
    (h : m.apply p = .ok (some p')) (hp : p.status ≠ .active) (hp' : p'.status = .active) :
    m = .unlock ∧ p.status = .locked := by
  cases m with
  | revoke =>
      cases h
      cases hp'
  | unlock =>
      cases h
      unfold unlocked at hp'
      split at hp'
      · next hlocked => exact ⟨rfl, hlocked⟩
      · exact absurd hp' hp
  | recordFailure ipFailures lockoutCount now =>
      cases h
      rcases recordFailure_status p ipFailures lockoutCount now with hsame | ⟨hactive, -⟩
      · exact absurd (hsame ▸ hp') hp
      · exact absurd hactive hp
  | update updates =>
      obtain ⟨hstatus, -⟩ := applyUpdates_eq_ok (PairMutation.apply_update h)
      exact absurd (hstatus ▸ hp') hp

/-! ## The store -/

/-- Every pair is stored under its own identity and counts its requests. -/
structure StoreInv (s : MemoryPairStore) : Prop where
  keyed : ∀ k p, s.pairs.get k = some p → p.id = k
  counted : ∀ k p, s.pairs.get k = some p → ∃ n, p.requests = JsNumber.counted n

theorem StoreInv.empty : StoreInv .empty := by
  constructor
  · intro k p h
    cases h
  · intro k p h
    cases h

theorem StoreInv.of_pairs {s s' : MemoryPairStore} (h : StoreInv s) (hpairs : s'.pairs = s.pairs) :
    StoreInv s' :=
  ⟨fun k p hk => h.keyed k p (hpairs ▸ hk), fun k p hk => h.counted k p (hpairs ▸ hk)⟩

theorem StoreInv.setPair {s : MemoryPairStore} (h : StoreInv s) {k : JsString} {p : StoredPair}
    (hid : p.id = k) (hcounted : ∃ n, p.requests = JsNumber.counted n) :
    StoreInv (s.setPair k p) := by
  constructor
  · intro k' p' hget
    rw [MemoryPairStore.setPair, OrderedMap.get_set] at hget
    split at hget
    · next hk =>
        cases hget
        rw [hid, hk]
    · exact h.keyed k' p' hget
  · intro k' p' hget
    rw [MemoryPairStore.setPair, OrderedMap.get_set] at hget
    split at hget
    · cases hget
      exact hcounted
    · exact h.counted k' p' hget

/-- Every pair of `s` is in `s'`, and has become what it may become. -/
def StoreLe (s s' : MemoryPairStore) : Prop :=
  ∀ k p, s.pairs.get k = some p → ∃ p', s'.pairs.get k = some p' ∧ Lifecycle p p'

theorem StoreLe.refl (s : MemoryPairStore) : StoreLe s s :=
  fun _ p h => ⟨p, h, .refl p⟩

theorem StoreLe.trans {s t u : MemoryPairStore} (hst : StoreLe s t) (htu : StoreLe t u) :
    StoreLe s u := by
  intro k p hp
  obtain ⟨q, hq, hpq⟩ := hst k p hp
  obtain ⟨r, hr, hqr⟩ := htu k q hq
  exact ⟨r, hr, hpq.trans hqr⟩

theorem StoreLe.of_pairs {s s' : MemoryPairStore} (hpairs : s'.pairs = s.pairs) : StoreLe s s' :=
  fun _ p h => ⟨p, by rw [hpairs, h], .refl p⟩

theorem StoreLe.setPair {s : MemoryPairStore} {k : JsString} {next : StoredPair}
    (h : ∀ p, s.pairs.get k = some p → Lifecycle p next) : StoreLe s (s.setPair k next) := by
  intro k' p hp
  by_cases hk : k' = k
  · subst hk
    exact ⟨next, OrderedMap.get_set_self _ _ _, h p hp⟩
  · exact ⟨p, (OrderedMap.get_set_of_ne _ hk _).trans hp, .refl p⟩

/-- One operation keeps the invariant of the store and the life of every pair. -/
theorem PairEffect.lifecycle {s s' : MemoryPairStore} {o : StoreOp} {x : o.Answer}
    (h : PairEffect s o x s') (hinv : StoreInv s) : StoreInv s' ∧ StoreLe s s' := by
  have hinitial : ∀ {p : StoredPair}, InitialPairState p →
      ∃ n, p.requests = JsNumber.counted n :=
    fun hp => ⟨0, hp.requests.trans JsNumber.counted_zero.symm⟩
  have hset : ∀ {k : JsString} {current next : StoredPair}, s.pairs.get k = some current →
      Lifecycle current next → next.id = k →
      StoreInv (s.setPair k next) ∧ StoreLe s (s.setPair k next) := by
    intro k current next hget hlife hid
    obtain ⟨n, hn⟩ := hinv.counted k current hget
    obtain ⟨n', -, hn'⟩ := hlife.requests n hn
    refine ⟨hinv.setPair hid ⟨n', hn'⟩, StoreLe.setPair fun p hp => ?_⟩
    rw [hget] at hp
    cases hp
    exact hlife
  cases h with
  | keep hx hpairs => exact ⟨hinv.of_pairs hpairs, .of_pairs hpairs⟩
  | @retire _ _ k current status hx hget hactive hstatus =>
      exact hset hget (.of_not_ended (by rw [hactive]; exact fun h => h) (Or.inl rfl) rfl)
        (hinv.keyed k current hget)
  | @claim k at_ expected current hget hguard =>
      exact hset hget (.of_not_ended (by rw [hguard.status]; exact fun h => h) (Or.inr rfl) rfl)
        (hinv.keyed k current hget)
  | mutate hget happly hid => exact hset hget (PairMutation.lifecycle happly) hid
  | approve hstart hcapacity hnew hpairs =>
      have hset' : StoreInv (s.setPair _ _) := hinv.setPair rfl (hinitial hstart)
      refine ⟨hset'.of_pairs hpairs, ?_⟩
      refine (StoreLe.setPair fun p hp => ?_).trans (.of_pairs hpairs)
      rw [hnew] at hp
      cases hp
  | @rotate expectedOld replacement current hget hactive hstart hpolicy hnew =>
      have hid : current.id = expectedOld.id := hinv.keyed _ current hget
      have hget' : s.pairs.get current.id = some current := by rw [hid, hget]
      have hlife : Lifecycle current (current.withStatus .rotated) :=
        .of_not_ended (by rw [hactive]; exact fun h => h) (Or.inl rfl) rfl
      have hrotated : StoreInv (s.setPair current.id (current.withStatus .rotated)) ∧
          StoreLe s (s.setPair current.id (current.withStatus .rotated)) := hset hget' hlife rfl
      obtain ⟨hinv', hle⟩ := hrotated
      refine ⟨hinv'.setPair rfl (hinitial hstart), hle.trans (StoreLe.setPair fun p hp => ?_)⟩
      -- the new identity is not that of the old pair, which is there
      have hne : replacement.id ≠ current.id := by
        intro heq
        rw [heq, hid, hget] at hnew
        cases hnew
      rw [MemoryPairStore.setPair, OrderedMap.get_set_of_ne _ hne, hnew] at hp
      cases hp

/-- A pair that an operation puts into use was locked, and the operation unlocks it. -/
theorem PairEffect.activates {s s' : MemoryPairStore} {o : StoreOp} {x : o.Answer}
    (h : PairEffect s o x s') {k : JsString} {p p' : StoredPair} (hp : s.pairs.get k = some p) (hstatus : p.status ≠ .active)
    (hp' : s'.pairs.get k = some p') (hstatus' : p'.status = .active) :
    o = .atomicMutate k .unlock ∧ p.status = .locked := by
  -- where only the pair `j` is written, it is the pair itself or another one
  have hset : ∀ {j : JsString} {next : StoredPair}, (s.setPair j next).pairs.get k = some p' →
      k = j ∧ p' = next ∨ k ≠ j ∧ p' = p := by
    intro j next hget
    rw [MemoryPairStore.setPair, OrderedMap.get_set] at hget
    split at hget
    · next hk =>
        cases hget
        exact Or.inl ⟨hk, rfl⟩
    · next hk =>
        rw [hp] at hget
        cases hget
        exact Or.inr ⟨hk, rfl⟩
  cases h with
  | keep hx hpairs =>
      rw [hpairs, hp] at hp'
      cases hp'
      exact absurd hstatus' hstatus
  | retire hx hget hactive hretired =>
      rcases hset hp' with ⟨rfl, rfl⟩ | ⟨-, rfl⟩
      · rw [hp] at hget
        cases hget
        exact absurd hactive hstatus
      · exact absurd hstatus' hstatus
  | claim hget hguard =>
      rcases hset hp' with ⟨rfl, rfl⟩ | ⟨-, rfl⟩
      · rw [hp] at hget
        cases hget
        exact absurd hguard.status hstatus
      · exact absurd hstatus' hstatus
  | mutate hget happly hid =>
      rcases hset hp' with ⟨rfl, rfl⟩ | ⟨-, rfl⟩
      · rw [hp] at hget
        cases hget
        obtain ⟨rfl, hlocked⟩ := PairMutation.activates happly hstatus hstatus'
        exact ⟨rfl, hlocked⟩
      · exact absurd hstatus' hstatus
  | @approve _ _ pair _ _ hstart hcapacity hnew hpairs =>
      have hk : k ≠ pair.id := by
        rintro rfl
        rw [hnew] at hp
        cases hp
      rw [hpairs, OrderedMap.get_set_of_ne _ hk, hp] at hp'
      cases hp'
      exact absurd hstatus' hstatus
  | @rotate expectedOld replacement current hget hactive hstart hpolicy hnew =>
      have hk : k ≠ replacement.id := by
        rintro rfl
        rw [hnew] at hp
        cases hp
      rw [MemoryPairStore.setPair, OrderedMap.get_set_of_ne _ hk] at hp'
      rcases hset hp' with ⟨rfl, rfl⟩ | ⟨-, rfl⟩
      · cases hstatus'
      · exact absurd hstatus' hstatus

/-! ## The service -/

theorem ServerExec.store_cases {crypto : Crypto} {s s' : ServerState} {o : ServerOp} {x : o.Answer}
    (h : ServerExec crypto s o x s') :
    s'.store = s.store ∨
      ∃ so : StoreOp, o = .store so ∧ s'.store = (s.store.run so).2 := by
  cases h with
  | store so => exact Or.inr ⟨so, rfl, rfl⟩
  | _ => exact Or.inl rfl

theorem ServerExec.lifecycle {crypto : Crypto} {s s' : ServerState} {o : ServerOp} {x : o.Answer}
    (h : ServerExec crypto s o x s') (hinv : StoreInv s.store) :
    StoreInv s'.store ∧ StoreLe s.store s'.store := by
  rcases h.store_cases with heq | ⟨so, -, heq⟩
  · rw [heq]
    exact ⟨hinv, .refl _⟩
  · rw [heq]
    exact (s.store.run_effect so).lifecycle hinv

section Runs

variable {registry : RegistryConfig} {crypto : Crypto} {ι : Type} [DecidableEq ι]
  {cfg cfg' : ServerConfig ι}

theorem storeInv_of_reachable
    (h : Transition.Reachable ((serverService registry crypto).system ι) cfg) :
    StoreInv cfg.shared.store := by
  refine Service.invariant (P := fun _ => True) (I := fun s => StoreInv s.store) ?_ ?_ ?_ ?_ h
  · intro r _
    exact (program_uses registry r).mono fun _ _ => trivial
  · rintro s ⟨hstore, -⟩
    rw [hstore]
    exact .empty
  · intro s o x t _ hinv hexec
    exact (ServerExec.lifecycle hexec hinv).1
  · rintro s t hinv ⟨now, rfl⟩
    exact hinv

/-- No step of the service takes a pair where it may not go. -/
theorem storeLe_of_step
    (hreach : Transition.Reachable ((serverService registry crypto).system ι) cfg)
    (hstep : ((serverService registry crypto).system ι).next cfg cfg') :
    StoreLe cfg.shared.store cfg'.shared.store := by
  cases hstep with
  | start i r hadm hi => exact .refl _
  | exec i r o k x s hi hexec => exact (ServerExec.lifecycle hexec (storeInv_of_reachable hreach)).2
  | env s hs =>
      obtain ⟨now, rfl⟩ := hs
      exact .refl _

/-- A call `unlock(pairId)` makes its operation. -/
def UnlockStep (pairId : JsString) (cfg cfg' : ServerConfig ι) : Prop :=
  ∃ i q x, cfg.calls i = some ⟨.unlock pairId, q⟩ ∧
    cfg'.log = cfg.log ++ [⟨i, ⟨.store (.atomicMutate pairId .unlock), x⟩, cfg.shared⟩]

/-- A step that puts a pair into use unlocks it. -/
theorem unlockStep_of_activates
    (hreach : Transition.Reachable ((serverService registry crypto).system ι) cfg)
    (hstep : ((serverService registry crypto).system ι).next cfg cfg') {pairId : JsString}
    {p p' : StoredPair} (hp : cfg.shared.store.pairs.get pairId = some p)
    (hstatus : p.status ≠ .active) (hp' : cfg'.shared.store.pairs.get pairId = some p')
    (hstatus' : p'.status = .active) : UnlockStep pairId cfg cfg' := by
  have hsame : cfg'.shared.store = cfg.shared.store → UnlockStep pairId cfg cfg' := by
    intro heq
    rw [heq, hp] at hp'
    cases hp'
    exact absurd hstatus' hstatus
  have huses := Service.uses_of_request (fun r _ => program_uses registry r) hreach
  cases hstep with
  | start i r hadm hi => exact hsame rfl
  | env s hs =>
      obtain ⟨now, rfl⟩ := hs
      exact hsame rfl
  | exec i r o k x s hi hexec =>
      rcases ServerExec.store_cases hexec with heq | ⟨so, rfl, heq⟩
      · exact hsame heq
      · have hp' : (cfg.shared.store.run so).2.pairs.get pairId = some p' := heq ▸ hp'
        obtain ⟨rfl, -⟩ := (cfg.shared.store.run_effect so).activates hp hstatus hp' hstatus'
        -- only a call of `unlock` for this pair makes this operation
        have hr : r = .unlock pairId := (huses i _ hi).1
        subst hr
        exact ⟨i, _, x, hi, rfl⟩

/-- In every run of the service a pair stays, stays revoked once revoked, is not used again once
    rotated or expired, goes from locked to active only through `unlock`, and never counts its
    requests back. -/
theorem pairLifecycle
    (hreach : Transition.Reachable ((serverService registry crypto).system ι) cfg)
    (hrun : Transition.Run ((serverService registry crypto).system ι) cfg cfg')
    {pairId : JsString} {p : StoredPair} (hp : cfg.shared.store.pairs.get pairId = some p) :
    ∃ p', cfg'.shared.store.pairs.get pairId = some p' ∧
      (p.status = .revoked → p'.status = .revoked) ∧
      (p.status = .rotated ∨ p.status = .expired → p'.status ≠ .active ∧ p'.status ≠ .locked) ∧
      (p.status = .locked → p'.status = .active →
        ∃ u v, Transition.Run ((serverService registry crypto).system ι) cfg u ∧
          UnlockStep pairId u v ∧ Transition.Run ((serverService registry crypto).system ι) v cfg') ∧
      p'.requests.ge p.requests = true := by
  have hle : StoreLe cfg.shared.store cfg'.shared.store :=
    Transition.Run.monotone (R := fun c c' => StoreLe c.shared.store c'.shared.store)
      (fun c => .refl _) (fun _ _ _ => StoreLe.trans) (fun _ _ => storeLe_of_step) hrun hreach
  obtain ⟨p', hp', hlife⟩ := hle pairId p hp
  refine ⟨p', hp', hlife.revoked, fun hended => ?_, fun hlocked hactive => ?_, ?_⟩
  · have hended' : p'.status.Ended := hlife.ended (by rcases hended with h | h <;> rw [h] <;> trivial)
    refine ⟨fun h => ?_, fun h => ?_⟩
    · rw [h] at hended'
      exact hended'
    · rw [h] at hended'
      exact hended'
  · -- the first step after which the pair is active
    obtain ⟨u, v, hcu, hstep, hvc, hu, hv⟩ := hrun.exists_step
      (P := fun c => ∀ q, c.shared.store.pairs.get pairId = some q → q.status ≠ .active)
      (fun q hq => by rw [hp] at hq; cases hq; rw [hlocked]; decide)
      (fun h => h p' hp' hactive)
    have hureach := hcu.reachable hreach
    obtain ⟨q, hq, -⟩ : ∃ q, u.shared.store.pairs.get pairId = some q ∧ Lifecycle p q :=
      Transition.Run.monotone (R := fun c c' => StoreLe c.shared.store c'.shared.store)
        (fun c => .refl _) (fun _ _ _ => StoreLe.trans) (fun _ _ => storeLe_of_step) hcu hreach
        pairId p hp
    push Not at hv
    obtain ⟨q', hq', hactive'⟩ := hv
    exact ⟨u, v, hcu, unlockStep_of_activates hureach hstep hq (hu q hq) hq' hactive', hvc⟩
  · obtain ⟨n, hn⟩ := (storeInv_of_reachable hreach).counted pairId p hp
    obtain ⟨n', hnn', hn'⟩ := hlife.requests n hn
    rw [hn, hn', JsNumber.counted, JsNumber.counted, JsNumber.ge_fin, decide_eq_true_iff]
    exact_mod_cast min_le_min_right _ hnn'

end Runs

/-- A pair that one failure has locked. -/
def lockedRun : ServerConfig ℕ :=
  (ServerConfig.start 0).serve ⟨.fin 1, .fin 1⟩ .agreeing 0
    [.registerDirect (sampleRegistration "sample" none),
      .recordActivity (Js.lit "pair_0") false []]

/-- The pair is unlocked again. -/
def unlockedRun : ServerConfig ℕ :=
  lockedRun.serve ⟨.fin 1, .fin 1⟩ .agreeing 2 [.unlock (Js.lit "pair_0")]

theorem pairLifecycle_unlocked :
    ∃ p p', lockedRun.shared.store.pairs.get (Js.lit "pair_0") = some p ∧ p.status = .locked ∧
      unlockedRun.shared.store.pairs.get (Js.lit "pair_0") = some p' ∧ p'.status = .active ∧
      p'.requests.ge p.requests = true := by
  have hfree : ∀ i, 0 ≤ i → (ServerConfig.start 0).calls i = none := fun _ _ => rfl
  have hreach : Transition.Reachable
      ((serverService ⟨.fin 1, .fin 1⟩ .agreeing).system ℕ) lockedRun :=
    (ServerConfig.run_serve .agreeing hfree _).reachable (ServerConfig.reachable_start _ 0)
  have hrun : Transition.Run ((serverService ⟨.fin 1, .fin 1⟩ .agreeing).system ℕ) lockedRun
      unlockedRun :=
    ServerConfig.run_serve .agreeing (ServerConfig.serve_free .agreeing hfree _) _
  have hlocked : (lockedRun.shared.store.pairs.get (Js.lit "pair_0")).map StoredPair.status =
      some .locked := by decide +kernel
  have hactive : (unlockedRun.shared.store.pairs.get (Js.lit "pair_0")).map StoredPair.status =
      some .active := by decide +kernel
  obtain ⟨p, hp, hstatus⟩ := Option.map_eq_some_iff.mp hlocked
  obtain ⟨p', hp', -, -, -, hrequests⟩ := pairLifecycle hreach hrun hp
  rw [hp', Option.map_some, Option.some.injEq] at hactive
  exact ⟨p, p', hp, hstatus, hp', hactive, hrequests⟩

end Pair
