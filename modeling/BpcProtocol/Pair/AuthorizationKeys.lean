import BpcProtocol.Pair.Lineage

set_option autoImplicit false

/-! # Keys that can authenticate

A verifier reads the key of a pair through `canonicalAuthorizationJwk`. Approval compares keys in
that form, so that no other key gets past it; a rotation does not read the new key at all. -/

namespace Pair

open Fallible Async

/-- `canonicalAuthorizationJwk` accepts the key. -/
def Accepted (jwk : JsonWebKey) : Prop :=
  ∃ key, canonicalAuthorizationJwk jwk = .ok key

theorem accepted_of_same {a b : JsonWebKey} {same : Bool} (h : sameAuthorizationJwk a b = .ok same) :
    Accepted a := by
  simp only [sameAuthorizationJwk, bind_eq_ok] at h
  obtain ⟨left, hleft, -⟩ := h
  exact ⟨left, hleft⟩

/-- A pair that matches its registration has a key that was read. -/
theorem accepted_of_matches {pair : StoredPair} {registration : PairRegistration}
    (h : pairMatchesRegistration pair registration = .ok true) : Accepted pair.pubJwk := by
  simp only [pairMatchesRegistration, andThen_eq_true, bind_eq_ok] at h
  obtain ⟨-, same, hsame, -⟩ := h
  exact accepted_of_same hsame

theorem MemoryPairStore.approvePending_key {s : MemoryPairStore} {token : JsString}
    {expected : PendingPairing} {pair : StoredPair} {maxActivePairs : JsNumber}
    (h : (s.run (.approvePending token expected pair maxActivePairs)).1 = .ok true) :
    Accepted pair.pubJwk := by
  have hsettle : (settle (s.approvePending token expected pair maxActivePairs) s).1 = .ok true := h
  cases hrun : s.approvePending token expected pair maxActivePairs with
  | error e =>
      rw [hrun] at hsettle
      cases hsettle
  | ok r =>
      rw [hrun] at hsettle
      have hr : r.1 = true := Except.ok.inj hsettle
      unfold approvePending at hrun
      split at hrun
      · cases hrun
        cases hr
      · split at hrun
        · cases hrun
          cases hr
        · simp only [approve, bind_eq_ok, ensure_eq_ok, exists_unit] at hrun
          obtain ⟨fits, hfits, rfl, -⟩ := hrun
          exact accepted_of_matches ((andThen_eq_true _ _).mp hfits).2

/-- No callback of the registry changes the key of a pair. -/
theorem PairMutation.pubJwk_eq {m : PairMutation} {p p' : StoredPair}
    (h : m.apply p = .ok (some p')) : p'.pubJwk = p.pubJwk := by
  cases m with
  | revoke =>
      cases h
      rfl
  | unlock =>
      cases h
      unfold unlocked
      split
      · rfl
      · rfl
  | recordFailure ipFailures lockoutCount now =>
      cases h
      unfold Pair.recordFailure lockAtThreshold
      split
      · rfl
      · rfl
  | update updates =>
      have hupdated := PairMutation.apply_update h
      simp only [applyUpdates, bind_eq_ok, pure_eq_ok] at hupdated
      obtain ⟨-, -, rfl⟩ := hupdated
      rfl

/-! ## One operation -/

/-- Every stored key is accepted. -/
def KeysAccepted (s : MemoryPairStore) : Prop :=
  ∀ pairId p, s.pairs.get pairId = some p → Accepted p.pubJwk

/-- Every active pair has a key that is accepted. -/
def ActiveKeysAccepted (s : MemoryPairStore) : Prop :=
  ∀ pairId p, s.pairs.get pairId = some p → p.status = .active → Accepted p.pubJwk

theorem KeysAccepted.active {s : MemoryPairStore} (h : KeysAccepted s) : ActiveKeysAccepted s :=
  fun pairId p hp _ => h pairId p hp

theorem KeysAccepted.setPair {s : MemoryPairStore} (h : KeysAccepted s) {k : JsString}
    {p : StoredPair} (hp : Accepted p.pubJwk) : KeysAccepted (s.setPair k p) := by
  intro k' p' hget
  by_cases hk : k' = k
  · subst hk
    rw [MemoryPairStore.setPair, OrderedMap.get_set_self] at hget
    cases hget
    exact hp
  · rw [MemoryPairStore.setPair, OrderedMap.get_set_of_ne _ hk] at hget
    exact h k' p' hget

/-- If a swap goes through, the new key is accepted. -/
def SwapsToAccepted (s : MemoryPairStore) (o : ServerOp) : Prop :=
  ∀ expectedOld replacement current, o = .store (.rotatePair expectedOld replacement) →
    s.pairs.get expectedOld.id = some current →
    s.rotates current expectedOld replacement = true → Accepted replacement.pubJwk

theorem keysAccepted_run {s : MemoryPairStore} (h : KeysAccepted s) (o : StoreOp)
    (hswap : SwapsToAccepted s (.store o)) : KeysAccepted (s.run o).2 := by
  have heffect := s.run_effect o
  generalize hs' : (s.run o).2 = s' at heffect ⊢
  generalize hx : (s.run o).1 = x at heffect
  cases heffect with
  | keep _ hpairs =>
      intro k p hp
      rw [hpairs] at hp
      exact h k p hp
  | retire _ hget _ _ =>
      have hkey : Accepted _ := h _ _ hget
      exact h.setPair hkey
  | claim hget _ =>
      have hkey : Accepted _ := h _ _ hget
      exact h.setPair hkey
  | mutate hget happly _ =>
      have hkey := h _ _ hget
      rw [← PairMutation.pubJwk_eq happly] at hkey
      exact h.setPair hkey
  | @approve token expected pair maxActivePairs _ _ _ _ hpairs =>
      intro k p hp
      rw [hpairs] at hp
      exact h.setPair (MemoryPairStore.approvePending_key hx) k p hp
  | @rotate expectedOld replacement current hget _ _ _ _ =>
      have htrue : (s.rotatePair expectedOld replacement).1 = true := hx
      rw [MemoryPairStore.rotatePair, hget] at htrue
      have hrotates : s.rotates current expectedOld replacement = true := by
        by_contra hnot
        simp [hnot] at htrue
      have hkey : Accepted current.pubJwk := h _ _ hget
      have hretired : KeysAccepted (s.setPair current.id (current.withStatus .rotated)) :=
        h.setPair hkey
      exact hretired.setPair (hswap _ _ _ rfl hget hrotates)

/-- A swap that goes through to a key that is not accepted leaves an active pair with that key. -/
theorem swapsToAccepted_of_after {s : MemoryPairStore} {o : ServerOp}
    (h : ActiveKeysAccepted (o.after s)) : SwapsToAccepted s o := by
  rintro expectedOld replacement current rfl hget hrotates
  have hafter : (ServerOp.store (.rotatePair expectedOld replacement)).after s =
      (s.setPair current.id (current.withStatus .rotated)).setPair replacement.id replacement := by
    show (s.rotatePair expectedOld replacement).2 = _
    rw [MemoryPairStore.rotatePair, hget]
    simp [hrotates]
  rw [hafter] at h
  have hinitial : hasInitialPairState replacement = true := by
    simp only [MemoryPairStore.rotates, Bool.and_eq_true] at hrotates
    exact hrotates.1.1.2
  exact h replacement.id replacement (OrderedMap.get_set_self _ _ _)
    (hasInitialPairState_eq_true hinitial).status

/-! ## Runs -/

variable {registry : RegistryConfig} {crypto : Crypto} {ι : Type} [DecidableEq ι]
  {cfg : ServerConfig ι}

/-- In a run whose swaps are to accepted keys, every stored key is accepted at any time. -/
theorem keysAccepted_of_swaps
    (hreach : Transition.Reachable ((serverService registry crypto).system ι) cfg)
    (hswaps : ∀ e ∈ cfg.log, SwapsToAccepted e.state.store e.made.1) :
    KeysAccepted cfg.shared.store ∧
      ∀ e ∈ cfg.log, KeysAccepted e.state.store ∧
        KeysAccepted (e.made.1.after e.state.store) := by
  refine Transition.Reachable.invariant (I := fun cfg =>
    (∀ e ∈ cfg.log, SwapsToAccepted e.state.store e.made.1) →
      KeysAccepted cfg.shared.store ∧
        ∀ e ∈ cfg.log, KeysAccepted e.state.store ∧
          KeysAccepted (e.made.1.after e.state.store)) ?_ ?_ hreach hswaps
  · rintro cfg ⟨⟨hstore, -⟩, -, hlog⟩ -
    rw [hstore, hlog]
    refine ⟨?_, fun e he => by cases he⟩
    intro k p hp
    cases hp
  · intro cfg cfg' _ ih hstep hswaps
    cases hstep with
    | start i r hadm hi => exact ih hswaps
    | env s hs =>
        obtain ⟨now, rfl⟩ := hs
        exact ih hswaps
    | exec i r o k x s hi hexec =>
        obtain ⟨hshared, hbefore⟩ := ih fun e he => hswaps e (List.mem_append_left _ he)
        have hswap := hswaps _ (List.mem_append_right _ (List.mem_singleton_self _))
        have hafter : KeysAccepted (o.after cfg.shared.store) := by
          rw [← hexec.store_eq]
          rcases ServerExec.store_cases hexec with heq | ⟨so, rfl, heq⟩
          · rw [heq]
            exact hshared
          · rw [heq]
            exact keysAccepted_run hshared so hswap
        refine ⟨by rw [hexec.store_eq]; exact hafter, ?_⟩
        intro e he
        rcases List.mem_append.mp he with he | he
        · exact hbefore e he
        · rw [List.mem_singleton.mp he]
          exact ⟨hshared, hafter⟩

/-- Every active pair has an accepted key, at the end of a run and after each of its operations, if
    and only if the swaps of the run are to accepted keys. -/
theorem activeKeysAccepted_iff
    (hreach : Transition.Reachable ((serverService registry crypto).system ι) cfg) :
    (ActiveKeysAccepted cfg.shared.store ∧
        ∀ e ∈ cfg.log, ActiveKeysAccepted (e.made.1.after e.state.store)) ↔
      ∀ e ∈ cfg.log, SwapsToAccepted e.state.store e.made.1 := by
  constructor
  · rintro ⟨-, hafter⟩ e he
    exact swapsToAccepted_of_after (hafter e he)
  · intro hswaps
    obtain ⟨hshared, hafter⟩ := keysAccepted_of_swaps hreach hswaps
    exact ⟨hshared.active, fun e he => (hafter e he).2.active⟩

/-- The operation is no swap, or one to an accepted key. -/
def ServerOp.namesAccepted : ServerOp → Bool
  | .store (.rotatePair _ replacement) => (canonicalAuthorizationJwk replacement.pubJwk).isOk
  | _ => true

theorem accepted_of_isOk {jwk : JsonWebKey} (h : (canonicalAuthorizationJwk jwk).isOk = true) :
    Accepted jwk := by
  unfold Accepted
  cases hkey : canonicalAuthorizationJwk jwk with
  | ok key => exact ⟨key, rfl⟩
  | error e =>
      rw [hkey] at h
      cases h

theorem swapsToAccepted_of_names {s : MemoryPairStore} {o : ServerOp}
    (h : o.namesAccepted = true) : SwapsToAccepted s o := by
  rintro _ replacement _ rfl _ _
  exact accepted_of_isOk h

/-- A request to rotate the first pair to another key of the curve, signed. -/
def keyRotation : RotationRequest where
  oldPairId := Js.lit "pair_0"
  newPubJwk := (CanonicalAuthorizationJwk.mk (List.replicate 42 66 ++ [65])
    (List.replicate 42 66 ++ [65])).toJwk
  signature := Js.lit "signature"
  signedData :=
    Js.lit "eyJuZXdfcHViX2p3a19qc29uIjoie1wia3R5" ++
      Js.lit "XCI6XCJFQ1wiLFwiY3J2XCI6XCJQLTI1Nlwi" ++
      Js.lit "LFwieFwiOlwiQkJCQkJCQkJCQkJCQkJCQkJC" ++
      Js.lit "QkJCQkJCQkJCQkJCQkJCQkJCQkJCQkJCQVwi" ++
      Js.lit "LFwieVwiOlwiQkJCQkJCQkJCQkJCQkJCQkJC" ++
      Js.lit "QkJCQkJCQkJCQkJCQkJCQkJCQkJCQkJCQVwi" ++
      Js.lit "fSIsIm9sZF9wYWlyX2lkIjoicGFpcl8wIiwi" ++
      Js.lit "cHVycG9zZSI6InJvdGF0aW9uIiwidGltZXN0" ++ Js.lit "YW1wIjowfQ"
  timestamp := .fin 0

/-- A pair, rotated to another key of the curve. -/
def keyRotatedRun : ServerConfig ℕ :=
  (ServerConfig.start 0).serve ⟨.fin 9, .fin 9⟩ .agreeing 0
    [.registerDirect (sampleRegistration "sample" none),
      .handleRotation ⟨.fin 30000, false⟩ keyRotation]

theorem activeKeysAccepted_rotated :
    ActiveKeysAccepted keyRotatedRun.shared.store ∧
      (keyRotatedRun.shared.store.pairs.get (Js.lit "pair_1")).map StoredPair.status =
        some .active := by
  have hreach : Transition.Reachable
      ((serverService ⟨.fin 9, .fin 9⟩ .agreeing).system ℕ) keyRotatedRun :=
    (ServerConfig.run_serve .agreeing (fun _ _ => rfl) _).reachable
      (ServerConfig.reachable_start _ 0)
  have hrun : (∀ e ∈ keyRotatedRun.log, e.made.1.namesAccepted = true) ∧
      (keyRotatedRun.shared.store.pairs.get (Js.lit "pair_1")).map StoredPair.status =
        some .active := by
    decide +kernel
  refine ⟨((activeKeysAccepted_iff hreach).mpr ?_).1, hrun.2⟩
  exact fun e he => swapsToAccepted_of_names (hrun.1 e he)

/-- The rotation of a pair to a key of another kind succeeds. -/
theorem activeKeys_foreign :
    ∃ cfg : ServerConfig ℕ,
      Transition.Reachable ((serverService ⟨.fin 9, .fin 9⟩ .agreeing).system ℕ) cfg ∧
      ¬ActiveKeysAccepted cfg.shared.store := by
  refine ⟨rotatedRun, (ServerConfig.run_serve .agreeing (fun _ _ => rfl) _).reachable
    (ServerConfig.reachable_start _ 0), fun h => ?_⟩
  have hpair : (rotatedRun.shared.store.pairs.get (Js.lit "pair_1")).map
      (fun p => (p.status, (canonicalAuthorizationJwk p.pubJwk).isOk)) =
        some (.active, false) := by
    decide +kernel
  obtain ⟨p, hget, hp⟩ := Option.map_eq_some_iff.mp hpair
  obtain ⟨hstatus, hkey⟩ := Prod.mk.inj hp
  obtain ⟨key, hok⟩ := h _ p hget hstatus
  rw [hok] at hkey
  cases hkey

end Pair
