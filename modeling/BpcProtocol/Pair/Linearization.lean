import BpcProtocol.Pair.NoReplay

set_option autoImplicit false

/-! # The instant of an authorization

An authorization takes effect where it claims its use: the store then holds the pair with everything
that the request was checked against, in use, in time and below its cap. Whatever has happened to the
pair before is in the pair that the claim finds. -/

namespace Pair

open Async Transition

/-! ## What the claim has found -/

/-- The pair may be used, on the very terms that the request was checked against. -/
structure Usable (pair : StoredPair) (auth : AuthorizationContext) (req : BPCRequestData)
    (at_ : JsNumber) : Prop where
  active : pair.status = .active
  legitimate : kindOf pair.kind = .legitimate
  below : ∀ m, pair.maxRequests = some m → (JsNumber.fin 0).lt m = true → pair.requests.ge m = false
  inTime : ∀ e, pair.expiresAt = some e → e.lt at_ = false
  terms : PolicyHolds pair auth.usePolicy
  permitted : ∃ methods, scopeAllowedMethods pair.scope = some methods ∧
    toUpperCase req.method ∈ methods

theorem truthy_of_pos {m : JsNumber} (h : (JsNumber.fin 0).lt m = true) : m.truthy = true := by
  cases m with
  | fin q =>
      have hq : (0 : ℚ) < q := of_decide_eq_true h
      have hne : JsNumber.fin q ≠ .fin 0 := by
        intro heq
        cases heq
        exact hq.ne rfl
      exact decide_eq_true hne
  | posInf => rfl
  | negInf => cases h
  | nan => cases h

theorem ClaimGuard.below {current : StoredPair} {at_ : JsNumber} {expected : SuccessfulUsePolicy}
    (h : ClaimGuard current at_ expected) (m : JsNumber) (hm : current.maxRequests = some m)
    (hpos : (JsNumber.fin 0).lt m = true) : current.requests.ge m = false := by
  have hunused := h.unused
  rw [StoredPair.usageExhausted, StoredPair.capReached, hm, Option.any_some, truthy_of_pos hpos, hpos,
    Bool.true_and, Bool.true_and] at hunused
  exact hunused

theorem ClaimGuard.inTime' {current : StoredPair} {at_ : JsNumber} {expected : SuccessfulUsePolicy}
    (h : ClaimGuard current at_ expected) (e : JsNumber) (he : current.expiresAt = some e) :
    e.lt at_ = false := by
  have hinTime := h.inTime
  rw [StoredPair.timeExpired, he, Option.any_some] at hinTime
  exact hinTime

theorem ClaimGuard.usable {current : StoredPair} {at_ now : JsNumber} {auth : AuthorizationContext}
    {v : VerifierConfig} {req : BPCRequestData} {hs : ServerHistory} {headers : Headers}
    {signed : SignedPayload} (h : ClaimGuard current at_ auth.usePolicy)
    (hchecked : Checked v req hs headers auth signed now) (hkind : auth.kind ≠ .ghost) :
    Usable current auth req at_ where
  active := h.status
  legitimate := by
    have hsame : kindOf current.kind = auth.kind := h.policy.kind
    cases hk : auth.kind with
    | legitimate => rw [hsame, hk]
    | ghost => exact absurd hk hkind
  below := h.below
  inTime := h.inTime'
  terms := h.policy
  permitted := by
    obtain ⟨methods, hmethods, hmem, -⟩ := hchecked.scope
    have hscope : current.scope = auth.scope := h.policy.scope
    exact ⟨methods, hscope ▸ hmethods, hmem⟩

/-- A use that is claimed has found its pair as it was to be. -/
theorem MemoryPairStore.claimed_guard {s : MemoryPairStore} {pairId : JsString} {at_ : JsNumber}
    {expected : SuccessfulUsePolicy}
    (h : (s.run (.claimSuccessfulUse pairId at_ expected)).1 = .ok .claimed) :
    ∃ current, s.pairs.get pairId = some current ∧ ClaimGuard current at_ expected := by
  have heffect := s.run_effect (.claimSuccessfulUse pairId at_ expected)
  generalize (s.run (.claimSuccessfulUse pairId at_ expected)).2 = s' at heffect
  rw [h] at heffect
  cases heffect with
  | keep hcommits _ => exact absurd rfl hcommits
  | retire hcommits _ _ _ => exact absurd rfl hcommits
  | claim hget hguard => exact ⟨_, hget, hguard⟩

/-! ## The instant -/

variable {ι : Type} [DecidableEq ι] {registry : RegistryConfig} {crypto : Crypto}
  {cfg : ServerConfig ι}

/-- A successful claim of an authorization is the one of its history. -/
theorem Authorization.claim_eq {v : VerifierConfig} {req : BPCRequestData} {es : ServerHistory}
    (a : Authorization v req es) {e : Made ServerOp ServerOp.Answer} (he : e ∈ es)
    (hclaim : e.1.isClaim e.2 = true) :
    e = ⟨.store (.claimSuccessfulUse a.headers.pairId a.claimedAt a.auth.usePolicy), .ok .claimed⟩ := by
  have hmem := he
  rw [a.history, List.mem_append, List.mem_cons, List.mem_cons, List.mem_cons] at hmem
  rcases hmem with hbefore | rfl | rfl | rfl | hafter
  · rw [a.unclaimed e hbefore] at hclaim
    cases hclaim
  · cases hclaim
  · cases hclaim
  · rfl
  · rw [a.once e hafter] at hclaim
    cases hclaim

/-- What an operation before another one has left of a pair that the later one finds in use. -/
theorem not_ended_before (h : Reachable ((serverService registry crypto).system ι) cfg)
    {e e' : ServerEntry ι} (hsub : [e', e].Sublist cfg.log) {pairId : JsString} {current : StoredPair}
    (hget : e.state.store.pairs.get pairId = some current) (hactive : current.status = .active)
    {pair : StoredPair} (hpair : (e'.made.1.after e'.state.store).pairs.get pairId = some pair) :
    ¬pair.status.Ended := by
  intro hended
  have hordered := (Service.log_pairwise (P := fun _ => True) (I := fun s => StoreInv s.store)
    (R := fun s t => StoreLe s.store t.store)
    (fun r _ => (program_uses registry r).mono fun _ _ => trivial) (fun _ => storeInv_of_reachable)
    (fun _ => .refl _) (fun _ _ _ => .trans) (fun s o x t _ hinv hexec => (hexec.lifecycle hinv).2)
    (by rintro s t - ⟨now, rfl⟩; exact .refl _) h).1
  obtain ⟨t, hexec, hle⟩ :=
    List.rel_of_pairwise_cons (List.Pairwise.sublist hsub hordered) (List.mem_singleton_self e)
  have hleft : t.store.pairs.get pairId = some pair := by
    rw [ServerExec.store_eq hexec]
    exact hpair
  obtain ⟨current', hcurrent, hlife⟩ := hle pairId pair hleft
  rw [hget] at hcurrent
  cases hcurrent
  have hnever := hlife.ended hended
  rw [hactive] at hnever
  exact hnever

/-- **Authorizations are linearizable.** A verification that authorizes has checked the request against
    what it had captured of the pair, has then read the clock and claimed the use. At every successful
    claim of it the store holds the pair, usable on these very terms, and no operation before has left
    it expired, rotated or revoked. -/
theorem authorization_linearizable (h : Reachable ((serverService registry crypto).system ι) cfg)
    {i : ι} {v : VerifierConfig} {req : BPCRequestData} (hauth : Authorizes cfg i v req) :
    ∃ headers auth signed now at_, Checked v req (ownTrace i cfg.log) headers auth signed now ∧
      (∃ e₀ e, [e₀, e].Sublist cfg.log ∧ e₀.call = i ∧ e₀.made = ⟨.dateNow, at_⟩ ∧ e.call = i ∧
        e.made = ⟨.store (.claimSuccessfulUse headers.pairId at_ auth.usePolicy), .ok .claimed⟩) ∧
      ∀ e ∈ cfg.log, e.call = i → e.made.1.isClaim e.made.2 = true →
        (∃ pair, e.state.store.pairs.get headers.pairId = some pair ∧ Usable pair auth req at_) ∧
        ∀ e' pair, [e', e].Sublist cfg.log →
          (e'.made.1.after e'.state.store).pairs.get headers.pairId = some pair →
            ¬pair.status.Ended := by
  obtain ⟨r, hcall, hok⟩ := hauth
  obtain ⟨r', hr', htrace⟩ := trace_of_map ((Service.trace_of_reachable h i).1 _ _ hcall).2
  cases hr'
  obtain ⟨a⟩ := exists_authorization htrace hok
  refine ⟨a.headers, a.auth, a.signed, a.now, a.claimedAt, ?_, ?_, ?_⟩
  · exact a.checked.mono ⟨_, a.history.symm⟩
  · have hhistory : ∃ h₁ h₃, ownTrace i cfg.log = h₁ ++ ⟨.dateNow, a.claimedAt⟩ :: ([] ++
        ⟨.store (.claimSuccessfulUse a.headers.pairId a.claimedAt a.auth.usePolicy), .ok .claimed⟩ ::
          h₃) :=
      ⟨a.checks ++ [⟨.checkAndConsume a.signed.nonce v.nonceWindowMs, .ok false⟩], a.rest,
        a.history.trans (List.append_cons _ _ _)⟩
    obtain ⟨h₁, h₃, hhistory⟩ := hhistory
    obtain ⟨e₀, e, hsub, hcall₀, hmade₀, hcall', hmade⟩ := exists_entries hhistory
    exact ⟨e₀, e, hsub, hcall₀, hmade₀, hcall', hmade⟩
  · intro e he hcall' hclaim
    have hmade := a.claim_eq (hcall' ▸ mem_ownTrace he rfl) hclaim
    obtain ⟨t, hexec⟩ := Service.exec_of_reachable h e he
    rw [hmade] at hexec
    obtain ⟨pair, hget, hguard⟩ := MemoryPairStore.claimed_guard hexec.answer_eq.symm
    refine ⟨⟨pair, hget, hguard.usable a.checked a.genuine⟩, fun e' p hsub hp => ?_⟩
    exact not_ended_before h hsub hget hguard.status hp

theorem authorization_linearizable_accepted : ∃ (headers : Headers) (auth : AuthorizationContext)
    (at_ : JsNumber) (pair : StoredPair), ∃ e ∈ acceptedRun.log, e.made =
      ⟨.store (.claimSuccessfulUse headers.pairId at_ auth.usePolicy), .ok .claimed⟩ ∧
      e.state.store.pairs.get headers.pairId = some pair ∧
        Usable pair auth (requestWith (Js.lit "pair_0") samplePayload) at_ := by
  obtain ⟨headers, auth, signed, now, at_, -, ⟨e₀, e, hsub, -, -, hi, hmade⟩, hclaims⟩ :=
    authorization_linearizable reachable_acceptedRun authorizes_acceptedRun
  have he : e ∈ acceptedRun.log := hsub.subset (by simp)
  obtain ⟨⟨pair, hget, husable⟩, -⟩ := hclaims e he hi (by rw [hmade]; rfl)
  exact ⟨headers, auth, at_, pair, e, he, hmade, hget, husable⟩

end Pair
