import BpcProtocol.Pair.Lifecycle

set_option autoImplicit false

/-! # The cap on requests

A pair counts its uses; the use that reaches the cap takes the pair out of use. So no more uses are
let through than the cap says, whoever locks, unlocks or expires the pair in between. -/

namespace Pair

open Fallible Async

/-! ## Uses let through -/

/-- The operation has let a request of this pair through. -/
def StoreOp.claims (pairId : JsString) : (o : StoreOp) → o.Answer → Bool
  | .claimSuccessfulUse id _ _, .ok .claimed => decide (id = pairId)
  | _, _ => false

def ServerOp.claims (pairId : JsString) : (o : ServerOp) → o.Answer → Bool
  | .store o, x => o.claims pairId x
  | _, _ => false

/-- The number of claims for the pair that were answered `claimed`. -/
def claims {ι : Type} (pairId : JsString) (log : List (Entry ι ServerOp ServerOp.Answer ServerState)) :
    ℕ :=
  log.countP fun e => e.made.1.claims pairId e.made.2

theorem StoreOp.claims_of_not_commits {pairId : JsString} {o : StoreOp} {x : o.Answer}
    (h : ¬o.Commits x) : o.claims pairId x = false := by
  unfold claims
  split
  · exact absurd rfl h
  · rfl

theorem PairMutation.requests_eq {m : PairMutation} {p p' : StoredPair}
    (h : m.apply p = .ok (some p')) : p'.requests = p.requests := by
  cases m with
  | revoke =>
      cases h
      rfl
  | unlock =>
      cases h
      unfold unlocked
      split
      · rfl
      · rfl
  | recordFailure ipFailures lockoutCount now =>
      cases h
      exact (recordFailure_keeps p ipFailures lockoutCount now).1
  | update updates => exact (applyUpdates_eq_ok (PairMutation.apply_update h)).2.1

/-- What an operation does to one pair: it uses the pair, or it keeps the count. -/
inductive UsageEffect : Bool → Option StoredPair → Option StoredPair → Prop
  | absent : UsageEffect false none none
  | added {p : StoredPair} : p.requests = .fin 0 → UsageEffect false none (some p)
  | kept {p p' : StoredPair} : p'.requests = p.requests → (p.status.Ended → p'.status.Ended) →
      UsageEffect false (some p) (some p')
  | used {p : StoredPair} (at_ : JsNumber) : p.status = .active →
      UsageEffect true (some p) (some (p.used at_))

theorem UsageEffect.refl (pair : Option StoredPair) : UsageEffect false pair pair := by
  cases pair with
  | none => exact .absent
  | some p => exact .kept rfl fun h => h

/-- Every operation of the store has one of these effects on every pair. -/
theorem PairEffect.usage {s s' : MemoryPairStore} {o : StoreOp} {x : o.Answer}
    (h : PairEffect s o x s') (hinv : StoreInv s) (pairId : JsString) :
    UsageEffect (o.claims pairId x) (s.pairs.get pairId) (s'.pairs.get pairId) := by
  -- another pair is written
  have hother : ∀ {k : JsString} {next : StoredPair}, pairId ≠ k →
      UsageEffect false (s.pairs.get pairId) ((s.setPair k next).pairs.get pairId) := by
    intro k next hk
    rw [MemoryPairStore.setPair, OrderedMap.get_set_of_ne _ hk]
    exact .refl _
  cases h with
  | keep hx hpairs =>
      rw [StoreOp.claims_of_not_commits hx, hpairs]
      exact .refl _
  | @retire _ _ k current status hx hget hactive hstatus =>
      rw [StoreOp.claims_of_not_commits hx]
      by_cases hk : pairId = k
      · subst hk
        rw [hget, MemoryPairStore.setPair, OrderedMap.get_set_self]
        refine .kept rfl fun hended => ?_
        rw [hactive] at hended
        exact hended.elim
      · exact hother hk
  | @claim k at_ expected current hget hguard =>
      by_cases hk : pairId = k
      · subst hk
        have hclaims : (StoreOp.claimSuccessfulUse pairId at_ expected).claims pairId
            (.ok .claimed) = true := decide_eq_true rfl
        rw [hclaims, hget, MemoryPairStore.setPair, OrderedMap.get_set_self]
        exact .used at_ hguard.status
      · have hclaims : (StoreOp.claimSuccessfulUse k at_ expected).claims pairId
            (.ok .claimed) = false := decide_eq_false fun heq => hk heq.symm
        rw [hclaims]
        exact hother hk
  | @mutate k m current next hget happly hid =>
      by_cases hk : pairId = k
      · subst hk
        have hset : (s.setPair pairId next).pairs.get pairId = some next :=
          OrderedMap.get_set_self _ _ _
        rw [hget, hset]
        exact .kept (PairMutation.requests_eq happly) (PairMutation.lifecycle happly).ended
      · exact hother hk
  | @approve token expected pair maxActivePairs s' hinitial hcapacity hnew hpairs =>
      rw [hpairs]
      by_cases hk : pairId = pair.id
      · subst hk
        rw [hnew, OrderedMap.get_set_self]
        exact .added hinitial.requests
      · exact @hother pair.id pair hk
  | @rotate expectedOld replacement current hget hactive hinitial hpolicy hnew =>
      have hid : current.id = expectedOld.id := hinv.keyed _ current hget
      by_cases hk : pairId = replacement.id
      · subst hk
        rw [hnew, MemoryPairStore.setPair, OrderedMap.get_set_self]
        exact .added hinitial.requests
      · rw [MemoryPairStore.setPair, OrderedMap.get_set_of_ne _ hk]
        by_cases hk' : pairId = current.id
        · subst hk'
          rw [hid, hget, MemoryPairStore.setPair, OrderedMap.get_set_self]
          exact .kept rfl fun _ => trivial
        · exact hother hk'

/-! ## The cap -/

/-- A pair with the cap `m` that has been used `n` times: below the cap while it can still come into
    use. -/
def WithinCap (m n : ℕ) : Option StoredPair → Prop
  | none => n = 0
  | some p => p.requests = JsNumber.counted n ∧ n ≤ m ∧ (¬p.status.Ended → n < m)

/-- The use that reaches the cap finds it reached. -/
theorem capReached_counted {p : StoredPair} {m : ℕ} (hm : 0 < m) (hm' : m ≤ 2 ^ 53)
    (hcap : p.maxRequests = some (.fin (m : ℚ))) : p.capReached (JsNumber.counted m) = true := by
  have hpos : (0 : ℚ) < m := by exact_mod_cast hm
  have hlt : (JsNumber.fin 0).lt (.fin (m : ℚ)) = true := decide_eq_true hpos
  have htruthy : (JsNumber.fin (m : ℚ)).truthy = true := by
    simp [JsNumber.truthy, hpos.ne']
  have hge : (JsNumber.counted m).ge (.fin (m : ℚ)) = true := by
    rw [JsNumber.counted, Nat.min_eq_left hm', JsNumber.ge_fin, decide_eq_true_iff]
  rw [StoredPair.capReached, hcap, Option.any_some, htruthy, hlt, hge]
  rfl

/-- One operation keeps a pair within its cap. -/
theorem UsageEffect.withinCap {claimed : Bool} {pair pair' : Option StoredPair}
    (h : UsageEffect claimed pair pair') {m n : ℕ} (hm : 0 < m) (hm' : m ≤ 2 ^ 53)
    (hcap : ∀ p, pair = some p → p.maxRequests = some (.fin (m : ℚ))) (hwithin : WithinCap m n pair) :
    WithinCap m (n + claimed.toNat) pair' := by
  cases h with
  | absent => exact hwithin
  | added hrequests =>
      have hn : n = 0 := hwithin
      subst hn
      exact ⟨hrequests.trans JsNumber.counted_zero.symm, Nat.zero_le m, fun _ => hm⟩
  | kept hrequests hended =>
      obtain ⟨hcount, hle, hlt⟩ := hwithin
      exact ⟨hrequests.trans hcount, hle, fun hp' => hlt fun hp => hp' (hended hp)⟩
  | @used p at_ hactive =>
      obtain ⟨hcount, -, hlt⟩ := hwithin
      have hn : n < m := hlt (by rw [hactive]; exact fun h => h)
      have hincr : p.requests.incr = JsNumber.counted (n + 1) := by
        rw [hcount, JsNumber.incr_counted]
      refine ⟨hincr, hn, fun hopen => ?_⟩
      by_cases hlast : n + 1 = m
      · -- the last use has expired the pair
        refine absurd ?_ hopen
        have hreached : p.capReached p.requests.incr = true := by
          rw [hincr, hlast]
          exact capReached_counted hm hm' (hcap p rfl)
        rw [StoredPair.used, if_pos hreached]
        trivial
      · exact lt_of_le_of_ne hn hlast

/-! ## The service -/

section Runs

variable {registry : RegistryConfig} {crypto : Crypto} {ι : Type} [DecidableEq ι]
  {cfg : ServerConfig ι}

/-- The pair, if it is there, has the cap `m`. -/
def HasCap (pairId : JsString) (m : ℕ) (s : ServerState) : Prop :=
  ∀ p, s.store.pairs.get pairId = some p → p.maxRequests = some (.fin (m : ℚ))

theorem ServerExec.usage {s s' : ServerState} {o : ServerOp} {x : o.Answer}
    (h : ServerExec crypto s o x s') (hinv : StoreInv s.store) (pairId : JsString) :
    UsageEffect (o.claims pairId x) (s.store.pairs.get pairId) (s'.store.pairs.get pairId) := by
  cases h with
  | store o => exact (s.store.run_effect o).usage hinv pairId
  | _ => exact .refl _

theorem withinCap_of_reachable
    (hreach : Transition.Reachable ((serverService registry crypto).system ι) cfg)
    {pairId : JsString} {m : ℕ} (hm : 0 < m) (hm' : m ≤ 2 ^ 53)
    (hlog : ∀ e ∈ cfg.log, HasCap pairId m e.state) :
    WithinCap m (claims pairId cfg.log) (cfg.shared.store.pairs.get pairId) := by
  refine Transition.Reachable.invariant (I := fun cfg =>
    (∀ e ∈ cfg.log, HasCap pairId m e.state) →
      WithinCap m (claims pairId cfg.log) (cfg.shared.store.pairs.get pairId)) ?_ ?_ hreach hlog
  · rintro cfg ⟨⟨hstore, -⟩, -, hempty⟩ -
    rw [hstore, hempty]
    exact rfl
  · intro cfg cfg' hreach ih hstep hlog
    cases hstep with
    | start i r hadm hi => exact ih hlog
    | env s hs =>
        obtain ⟨now, rfl⟩ := hs
        exact ih hlog
    | exec i r o k x s hi hexec =>
        have hbefore := ih fun e he => hlog e (List.mem_append_left _ he)
        have hcap := hlog _ (List.mem_append_right _ (List.mem_singleton_self _))
        have hafter := (ServerExec.usage hexec (storeInv_of_reachable hreach) pairId).withinCap hm
          hm' hcap hbefore
        have hcount : claims pairId (cfg.log ++ [⟨i, ⟨o, x⟩, cfg.shared⟩]) =
            claims pairId cfg.log + (o.claims pairId x).toNat := by
          rw [claims, List.countP_append, List.countP_singleton]
          cases o.claims pairId x with
          | false => rfl
          | true => rfl
        rw [hcount]
        exact hafter

/-- A pair whose cap stays `m` in all states of a run lets `m` requests through at most, counts no
    more, and is not active once it has counted `m`. -/
theorem usageCap
    (hreach : Transition.Reachable ((serverService registry crypto).system ι) cfg)
    {pairId : JsString} {m : ℕ} (hm : 0 < m) (hm' : m ≤ 2 ^ 53)
    (hlog : ∀ e ∈ cfg.log, HasCap pairId m e.state) :
    claims pairId cfg.log ≤ m ∧ ∀ p, cfg.shared.store.pairs.get pairId = some p →
      (JsNumber.fin (m : ℚ)).ge p.requests = true ∧
      (p.requests = .fin (m : ℚ) → p.status ≠ .active) := by
  have hwithin := withinCap_of_reachable hreach hm hm' hlog
  cases hget : cfg.shared.store.pairs.get pairId with
  | none =>
      rw [hget] at hwithin
      have hzero : claims pairId cfg.log = 0 := hwithin
      refine ⟨by omega, ?_⟩
      rintro p ⟨⟩
  | some q =>
      rw [hget] at hwithin
      obtain ⟨hcount, hle, hlt⟩ := hwithin
      have hrequests : q.requests = .fin ((claims pairId cfg.log : ℕ) : ℚ) := by
        rw [hcount, JsNumber.counted, Nat.min_eq_left (hle.trans hm')]
      refine ⟨hle, ?_⟩
      rintro p ⟨⟩
      rw [hrequests]
      refine ⟨?_, fun heq hactive => ?_⟩
      · rw [JsNumber.ge_fin, decide_eq_true_iff]
        exact_mod_cast hle
      · have hlt := hlt (by rw [hactive]; exact fun h => h)
        have heq : claims pairId cfg.log = m := by
          exact_mod_cast JsNumber.fin.inj heq
        omega

end Runs

/-- A pair with two requests, of which three claims ask for one each. -/
def cappedRun : ServerConfig ℕ :=
  (ServerConfig.start 0).serve ⟨.fin 9, .fin 9⟩ .agreeing 0
    [.registerDirect (sampleRegistration "sample" (some (.fin 2))),
      .claimSuccessfulUse (Js.lit "pair_0"), .claimSuccessfulUse (Js.lit "pair_0"),
      .claimSuccessfulUse (Js.lit "pair_0")]

theorem usageCap_capped :
    claims (Js.lit "pair_0") cappedRun.log = 2 ∧
      ∃ p, cappedRun.shared.store.pairs.get (Js.lit "pair_0") = some p ∧ p.requests = .fin 2 ∧
        p.status ≠ .active := by
  have hreach : Transition.Reachable
      ((serverService ⟨.fin 9, .fin 9⟩ .agreeing).system ℕ) cappedRun :=
    (ServerConfig.run_serve .agreeing (fun _ _ => rfl) _).reachable
      (ServerConfig.reachable_start _ 0)
  have hcaps : ∀ e ∈ cappedRun.log, (e.state.store.pairs.get (Js.lit "pair_0")).all
      (fun p => decide (p.maxRequests = some (.fin 2))) = true := by
    decide +kernel
  have hlog : ∀ e ∈ cappedRun.log, HasCap (Js.lit "pair_0") 2 e.state := by
    intro e he p hp
    have hcap := hcaps e he
    rw [hp, Option.all_some, decide_eq_true_iff] at hcap
    exact hcap
  have hpair : (cappedRun.shared.store.pairs.get (Js.lit "pair_0")).map StoredPair.requests =
      some (.fin 2) := by decide +kernel
  obtain ⟨-, hcap⟩ := usageCap hreach (by decide) (by decide) hlog
  obtain ⟨p, hp, hrequests⟩ := Option.map_eq_some_iff.mp hpair
  exact ⟨by decide +kernel, p, hp, hrequests, (hcap p hp).2 hrequests⟩

/-! ## A cap beyond the exact integers -/

/-- The policy of a sample pair with the cap `2^53 + 2`. -/
def vastPolicy : SuccessfulUsePolicy where
  status := .active
  scope := Js.lit "read"
  mode := Js.lit "production"
  secretHash := List.replicate 43 65
  pubJwk := (CanonicalAuthorizationJwk.mk (List.replicate 43 65) (List.replicate 43 65)).toJwk
  expiresAt := none
  maxRequests := some (.fin ((2 ^ 53 + 2 : ℕ) : ℚ))
  kind := .legitimate
  canaryClass := none

/-- A pair in use with that policy, used `n` times. -/
structure Vast (p : StoredPair) (n : ℕ) : Prop where
  status : p.status = .active
  requests : p.requests = JsNumber.counted n
  expiresAt : p.expiresAt = none
  maxRequests : p.maxRequests = some (.fin ((2 ^ 53 + 2 : ℕ) : ℚ))
  policy : successfulUsePolicyMatches p vastPolicy = .ok true

/-- The count stops before it reaches the cap. -/
theorem Vast.not_capReached {p : StoredPair} {n : ℕ} (h : Vast p n) (k : ℕ) :
    p.capReached (JsNumber.counted k) = false := by
  have hge : (JsNumber.counted k).ge (.fin ((2 ^ 53 + 2 : ℕ) : ℚ)) = false := by
    rw [JsNumber.counted, JsNumber.ge_fin, decide_eq_false_iff_not, not_le]
    exact_mod_cast (Nat.min_le_right k _).trans_lt (by decide)
  rw [StoredPair.capReached, h.maxRequests, Option.any_some, hge, Bool.and_false]

theorem Vast.used {p : StoredPair} {n : ℕ} (h : Vast p n) (at_ : JsNumber) :
    Vast (p.used at_) (n + 1) := by
  have hincr : p.requests.incr = JsNumber.counted (n + 1) := by
    rw [h.requests, JsNumber.incr_counted]
  have hstatus : (p.used at_).status = p.status := by
    rw [StoredPair.used, hincr, h.not_capReached]
    rfl
  have hpolicy : successfulUsePolicyMatches (p.used at_) vastPolicy =
      successfulUsePolicyMatches p vastPolicy := by
    unfold successfulUsePolicyMatches
    rw [hstatus]
    rfl
  exact
    { status := hstatus.trans h.status
      requests := hincr
      expiresAt := h.expiresAt
      maxRequests := h.maxRequests
      policy := hpolicy.trans h.policy }

theorem Vast.claimed {s : MemoryPairStore} {p : StoredPair} {n : ℕ} (h : Vast p n)
    {pairId : JsString} (hget : s.pairs.get pairId = some p) :
    s.claimSuccessfulUse pairId (.fin 0) vastPolicy =
      .ok (.claimed, s.setPair pairId (p.used (.fin 0))) := by
  have hclaim : s.claim pairId (.fin 0) vastPolicy =
      .ok (.claimed, s.setPair pairId (p.used (.fin 0))) := by
    have hinTime : p.timeExpired (.fin 0) = false := by rw [StoredPair.timeExpired, h.expiresAt]; rfl
    have hunused : p.usageExhausted = false := by
      rw [StoredPair.usageExhausted, h.requests, h.not_capReached]
    have hexpired : p.status ≠ .expired := by rw [h.status]; decide
    unfold MemoryPairStore.claim
    rw [hget]
    show s.claimCurrent pairId p (.fin 0) vastPolicy = _
    unfold MemoryPairStore.claimCurrent
    rw [if_neg fun hand => hexpired hand.1, if_neg fun hand => hexpired hand.1,
      if_neg (not_not.mpr h.status), if_neg (by rw [hinTime]; decide),
      if_neg (by rw [hunused]; decide), MemoryPairStore.use, h.policy]
    rfl
  exact hclaim

/-- A run at whose end a vast pair has been used `n` times, with the numbers from `n + 1` on free. -/
structure VastRun (cfg : ServerConfig ℕ) (n : ℕ) : Prop where
  reachable : Transition.Reachable ((serverService ⟨.fin 9, .fin 9⟩ .agreeing).system ℕ) cfg
  free : ∀ i, n + 1 ≤ i → cfg.calls i = none
  log : ∀ e ∈ cfg.log, HasCap (Js.lit "pair_0") (2 ^ 53 + 2) e.state
  pair : ∃ p, cfg.shared.store.pairs.get (Js.lit "pair_0") = some p ∧ Vast p n
  claims : claims (Js.lit "pair_0") cfg.log = n

def vastStart : ServerConfig ℕ :=
  (ServerConfig.start 0).serve ⟨.fin 9, .fin 9⟩ .agreeing 0
    [.registerDirect (sampleRegistration "sample" (some (.fin 9007199254740994)))]

theorem vastStart_run : VastRun vastStart 0 := by
  have hfree : ∀ i, 0 ≤ i → (ServerConfig.start 0).calls i = none := fun _ _ => rfl
  have hlog : ∀ e ∈ vastStart.log, (e.state.store.pairs.get (Js.lit "pair_0")).isNone = true := by
    decide +kernel
  have hpair : (vastStart.shared.store.pairs.get (Js.lit "pair_0")).any (fun p =>
      decide (p.status = .active) && decide (p.requests = .fin 0) && p.expiresAt.isNone &&
        decide (p.maxRequests = some (.fin ((2 ^ 53 + 2 : ℕ) : ℚ))) &&
        (successfulUsePolicyMatches p vastPolicy).toOption.getD false) = true := by
    decide +kernel
  refine
    { reachable := (ServerConfig.run_serve .agreeing hfree _).reachable
        (ServerConfig.reachable_start _ 0)
      free := fun i hi => ServerConfig.serve_free .agreeing hfree _ i hi
      log := fun e he p hp => ?_
      pair := ?_
      claims := by decide +kernel }
  · have hnone := hlog e he
    rw [hp] at hnone
    cases hnone
  · cases hget : vastStart.shared.store.pairs.get (Js.lit "pair_0") with
    | none =>
        rw [hget] at hpair
        cases hpair
    | some p =>
        rw [hget, Option.any_some] at hpair
        simp only [Bool.and_eq_true, decide_eq_true_iff, Option.isNone_iff_eq_none] at hpair
        obtain ⟨⟨⟨⟨hstatus, hrequests⟩, hexpires⟩, hmax⟩, hpolicy⟩ := hpair
        refine ⟨p, rfl, ⟨hstatus, hrequests.trans JsNumber.counted_zero.symm, hexpires, hmax, ?_⟩⟩
        cases hmatch : successfulUsePolicyMatches p vastPolicy with
        | error e =>
            rw [hmatch] at hpolicy
            cases hpolicy
        | ok b =>
            rw [hmatch] at hpolicy
            exact congrArg _ hpolicy

/-- One claim more. -/
theorem VastRun.next {cfg : ServerConfig ℕ} {n : ℕ} (h : VastRun cfg n) :
    ∃ cfg', VastRun cfg' (n + 1) := by
  obtain ⟨p, hget, hp⟩ := h.pair
  let op : ServerOp := .store (.claimSuccessfulUse (Js.lit "pair_0") (.fin 0) vastPolicy)
  let used : ServerState :=
    { cfg.shared with store := cfg.shared.store.setPair (Js.lit "pair_0") (p.used (.fin 0)) }
  let cleared : ServerState :=
    { used with tracker := clearIpFailures used.tracker (Js.lit "pair_0") }
  have hperform : cfg.shared.perform .agreeing op = (.ok .claimed, used) := by
    have hrun : cfg.shared.store.run (.claimSuccessfulUse (Js.lit "pair_0") (.fin 0) vastPolicy) =
        (.ok .claimed, used.store) := by
      rw [MemoryPairStore.run, hp.claimed hget]
      rfl
    show ((cfg.shared.store.run (.claimSuccessfulUse _ _ vastPolicy)).1, _) = _
    rw [hrun]
  let request : ServerRequest :=
    .claimSuccessfulUseOutcome (Js.lit "pair_0") (.fin 0) vastPolicy
  let log := cfg.log ++ [⟨n + 1, ⟨op, .ok .claimed⟩, cfg.shared⟩] ++
    [⟨n + 1, ⟨.clearIpFailures (Js.lit "pair_0"), ()⟩, used⟩]
  have hdrive : (request.program ⟨.fin 9, .fin 9⟩).drive (ServerState.perform .agreeing) (n + 1)
      cfg.shared cfg.log = (.ret (.claim .claimed), cleared, log) :=
    Prog.drive_await hperform _ _ _
  have hserve : cfg.serve ⟨.fin 9, .fin 9⟩ .agreeing (n + 1) [request] =
      { shared := cleared
        calls := Function.update cfg.calls (n + 1) (some ⟨request, .ret (.claim .claimed)⟩)
        log := log } := by
    show Service.serve _ _ cfg (n + 1) request = _
    unfold Service.serve
    show Config.mk _ _ _ = _
    simp only [serverService]
    rw [hdrive]
  have hcap : HasCap (Js.lit "pair_0") (2 ^ 53 + 2) cfg.shared := by
    intro q hq
    rw [hget] at hq
    cases hq
    exact hp.maxRequests
  have hget' : used.store.pairs.get (Js.lit "pair_0") = some (p.used (.fin 0)) :=
    OrderedMap.get_set_self _ _ _
  refine ⟨cfg.serve ⟨.fin 9, .fin 9⟩ .agreeing (n + 1) [request],
    (ServerConfig.run_serve .agreeing h.free _).reachable h.reachable,
    ServerConfig.serve_free .agreeing h.free [request], ?_, ?_, ?_⟩
  · rw [hserve]
    intro e he
    rcases List.mem_append.mp he with he | he
    · rcases List.mem_append.mp he with he | he
      · exact h.log e he
      · rw [List.mem_singleton.mp he]
        exact hcap
    · rw [List.mem_singleton.mp he]
      intro q hq
      rw [hget'] at hq
      cases hq
      exact hp.maxRequests
  · rw [hserve]
    exact ⟨p.used (.fin 0), hget', hp.used _⟩
  · have hclaims : op.claims (Js.lit "pair_0") (.ok .claimed) = true :=
      decide_eq_true (Eq.refl (Js.lit "pair_0"))
    rw [hserve]
    show List.countP _ (cfg.log ++ _ ++ _) = _
    rw [List.countP_append, List.countP_append, List.countP_singleton, List.countP_singleton,
      if_pos hclaims]
    exact congrArg (· + 1) h.claims

/-- A counter that stops at `2^53` never reaches a cap beyond it, and the pair stays in use. -/
theorem usageCap_vast :
    ∃ cfg : ServerConfig ℕ,
      Transition.Reachable ((serverService ⟨.fin 9, .fin 9⟩ .agreeing).system ℕ) cfg ∧
      (∀ e ∈ cfg.log, HasCap (Js.lit "pair_0") (2 ^ 53 + 2) e.state) ∧
      HasCap (Js.lit "pair_0") (2 ^ 53 + 2) cfg.shared ∧
      2 ^ 53 + 2 < claims (Js.lit "pair_0") cfg.log := by
  have hruns : ∀ n, ∃ cfg, VastRun cfg n := by
    intro n
    induction n with
    | zero => exact ⟨vastStart, vastStart_run⟩
    | succ n ih =>
        obtain ⟨cfg, hcfg⟩ := ih
        exact hcfg.next
  obtain ⟨cfg, hcfg⟩ := hruns (2 ^ 53 + 3)
  obtain ⟨p, hget, hp⟩ := hcfg.pair
  refine ⟨cfg, hcfg.reachable, hcfg.log, fun q hq => ?_, ?_⟩
  · rw [hget] at hq
    cases hq
    exact hp.maxRequests
  · rw [hcfg.claims]
    exact Nat.lt_succ_self _

end Pair
