import BpcProtocol.Pair.Failures

set_option autoImplicit false

/-! # What an authorization has done

A verification that authorizes has passed every check of the signed payload, has then consumed the
nonce of the payload, and has then claimed the use against the policy that it had captured. -/

namespace Pair

open Async

variable {registry : RegistryConfig} {cfg : VerifierConfig} {req : BPCRequestData}

/-- The history of an authorization: the checks, the nonce, a reading of the clock, and the claim. -/
structure Authorization (cfg : VerifierConfig) (req : BPCRequestData) (es : ServerHistory) where
  headers : Headers
  auth : AuthorizationContext
  signed : SignedPayload
  now : JsNumber
  claimedAt : JsNumber
  checks : ServerHistory
  rest : ServerHistory
  history : es = checks ++ ⟨.checkAndConsume signed.nonce cfg.nonceWindowMs, .ok false⟩ ::
    ⟨.dateNow, claimedAt⟩ ::
      ⟨.store (.claimSuccessfulUse headers.pairId claimedAt auth.usePolicy), .ok .claimed⟩ :: rest
  checked : Checked cfg req checks headers auth signed now
  compared : ComparedAt checks now
  genuine : auth.kind ≠ .ghost
  unclaimed : Unclaimed checks
  once : Unclaimed rest

theorem Authorization.consumed {es : ServerHistory} (a : Authorization cfg req es) :
    ∃ after, es = a.checks ++ ⟨.checkAndConsume a.signed.nonce cfg.nonceWindowMs, .ok false⟩ :: after :=
  ⟨_, a.history⟩

/-! ## The nonce and the use -/

section Stages

variable {es : ServerHistory} {pairId nonce : JsString} {auth : AuthorizationContext}
  {now at_ : JsNumber}

theorem passes_consumeNonce (hpass : Stage.Passes (consumeNonce registry cfg req pairId nonce) es ()) :
    es = [⟨.checkAndConsume nonce cfg.nonceWindowMs, .ok false⟩] := by
  obtain ⟨es₁, es₂, answer, rfl, hconsume, hpass⟩ := hpass.of_bind
  have hes₁ : es₁ = [⟨.checkAndConsume nonce cfg.nonceWindowMs, answer⟩] := hconsume.of_perform
  have hanswer : answer = .ok false ∧ es₂ = [] := by
    cases answer with
    | ok replay =>
        cases replay with
        | false => exact ⟨rfl, (Stage.passes_pure.mp hpass).1⟩
        | true => exact absurd hpass Stage.not_passes_exit
    | error e => cases e <;> exact absurd hpass Stage.not_passes_exit
  rw [hes₁, hanswer.1, hanswer.2]
  rfl

/-- A use that was claimed was claimed by one operation of the store. -/
theorem trace_claimed {expected : SuccessfulUsePolicy}
    (htrace : Trace (claimSuccessfulUseOutcome pairId at_ expected) es (.ret .claimed)) :
    es = [⟨.store (.claimSuccessfulUse pairId at_ expected), .ok .claimed⟩,
      ⟨.clearIpFailures pairId, ()⟩] := by
  obtain ⟨es₁, es₂, outcome, rfl, hattempt, htrace⟩ := htrace.of_bind
  obtain ⟨es₃, es₄, _, rfl, hclear, hret⟩ := htrace.of_bind
  obtain ⟨rfl, houtcome⟩ := trace_ret.mp hret
  obtain rfl : outcome = .claimed := by
    cases houtcome
    rfl
  obtain ⟨x, es₅, rfl, hlift⟩ := trace_await_ret.mp hattempt
  obtain ⟨rfl, hx⟩ := trace_lift_ret.mp hlift
  obtain ⟨y, es₆, rfl, hret⟩ := trace_await_ret.mp hclear
  obtain ⟨rfl, -⟩ := trace_ret.mp hret
  rw [hx]
  rfl

theorem passes_claimUse (hpass : Stage.Passes (claimUse registry cfg req pairId auth) es ()) :
    ∃ at_, es = [⟨.dateNow, at_⟩,
      ⟨.store (.claimSuccessfulUse pairId at_ auth.usePolicy), .ok .claimed⟩,
      ⟨.clearIpFailures pairId, ()⟩] := by
  obtain ⟨es₁, es₂, at_, rfl, hnow, hrest⟩ := hpass.of_bind
  have hes₁ : es₁ = [⟨.dateNow, at_⟩] := hnow.of_perform
  obtain ⟨es₃, es₄, outcome, rfl, hclaim, houtcomes⟩ := hrest.of_bind
  obtain ⟨es₅, es₆, _, rfl, htime, husages⟩ := houtcomes.of_bind
  obtain ⟨es₇, es₈, _, rfl, husage, hclaims⟩ := husages.of_bind
  obtain ⟨rfl, -⟩ := Stage.Passes.of_exitIf htime
  obtain ⟨rfl, -⟩ := Stage.Passes.of_exitIf husage
  obtain ⟨rfl, houtcome⟩ := Stage.Passes.of_exitIf hclaims
  obtain rfl := not_not.mp houtcome
  rw [hes₁, trace_claimed hclaim.of_await]
  exact ⟨at_, rfl⟩

theorem passes_acceptOnce {h : ServerHistory} (hgoing : Going req h)
    (hpass : Stage.Passes (acceptOnce registry cfg req pairId nonce auth now) es ()) :
    auth.kind ≠ .ghost ∧ ∃ at_ before, Unclaimed (h ++ before) ∧ es = before ++
      [⟨.checkAndConsume nonce cfg.nonceWindowMs, .ok false⟩, ⟨.dateNow, at_⟩,
        ⟨.store (.claimSuccessfulUse pairId at_ auth.usePolicy), .ok .claimed⟩,
        ⟨.clearIpFailures pairId, ()⟩] := by
  obtain ⟨es₁, es₂, _, rfl, hcontinuity, hconsumes⟩ := hpass.of_bind
  have hgoing' := hcontinuity.follows (onlyIf_follows hgoing (checkContinuity_follows hgoing))
  obtain ⟨es₃, es₄, _, rfl, hconsume, hghosts⟩ := hconsumes.of_bind
  obtain ⟨es₅, es₆, _, rfl, hghost, hclaim⟩ := hghosts.of_bind
  obtain ⟨rfl, hgenuine⟩ := Stage.Passes.of_exitIf hghost
  obtain ⟨at_, rfl⟩ := passes_claimUse hclaim
  rw [passes_consumeNonce hconsume]
  exact ⟨hgenuine, at_, es₁, hgoing'.unclaimed, rfl⟩

/-- The last thing an authorization does is to write its audit entry. -/
theorem unclaimed_of_audit (cfg : VerifierConfig) (req : BPCRequestData) {entry : AuditInput}
    {r r' : BPCVerifyResult} (hpass : Stage.Passes (Stage.await (writeAudit cfg.auditLog entry) >>=
      fun _ => (pure r : VerifyStage BPCVerifyResult)) es r') : Unclaimed es := by
  obtain ⟨es₁, es₂, _, rfl, haudit, hret⟩ := hpass.of_bind
  obtain ⟨rfl, -⟩ := Stage.passes_pure.mp hret
  have htold : Told [] ([] : ServerHistory) :=
    { recorded := rfl
      unclaimed := fun e he => absurd he List.not_mem_nil }
  have hfollows : (writeAudit cfg.auditLog entry).Follows (May cfg req) (fun h' _ => Told [] h') [] :=
    writeAudit_follows htold _ _
  have htold' : Told [] ([] ++ es₁) := haudit.of_await.follows hfollows
  rw [List.append_nil]
  exact htold'.unclaimed

end Stages

/-! ## The verification -/

section Verification

variable {es : ServerHistory} {r : BPCVerifyResult}

/-- A verification that returns early denies. -/
theorem denied_of_exits
    (hexit : Stage.Exits (admission registry cfg req >>= fun a =>
      verifySignedPayload registry cfg req a.1 a.2.1 >>= conclusion registry cfg req a.1 a.2) es r) :
    r.ok = false := by
  rcases hexit.of_bind with hexit | ⟨es₁, es₂, a, rfl, hadmission, hexit⟩
  · exact (hexit.follows admission_follows).denied
  obtain ⟨hadmitted, hactive⟩ := hadmission.follows admission_follows
  rcases hexit.of_bind with hexit | ⟨es₃, es₄, b, rfl, hverified, hexit⟩
  · rcases hexit.follows (verifySignedPayload_follows hadmitted hactive) with hfaulted | hplain
    · exact hfaulted.denied
    · exact hplain.denied
  · obtain ⟨hgoing, hchecked, -⟩ :=
      hverified.follows (verifySignedPayload_follows hadmitted hactive)
    exact (exits_conclusion hgoing hchecked hexit).denied

/-- **What authorizes has passed every check, consumed the nonce, and claimed the use.** -/
theorem exists_authorization (htrace : Trace (verifyBPCRequest registry cfg req) es (.ret r))
    (hok : r.ok = true) : Nonempty (Authorization cfg req es) := by
  rw [verifyBPCRequest_concludes] at htrace
  rcases Stage.trace_toProg htrace with hpass | hexit
  swap
  · rw [denied_of_exits hexit] at hok
    cases hok
  obtain ⟨es₁, es₂, a, rfl, hadmission, hpass⟩ := hpass.of_bind
  obtain ⟨es₃, es₄, b, rfl, hverified, hpass⟩ := hpass.of_bind
  obtain ⟨es₅, es₆, _, rfl, haccept, haudit⟩ := hpass.of_bind
  obtain ⟨hadmitted, hactive⟩ := hadmission.follows admission_follows
  obtain ⟨hgoing, hchecked, hcompared⟩ :=
    hverified.follows (verifySignedPayload_follows hadmitted hactive)
  obtain ⟨hgenuine, at_, before, hunclaimed, rfl⟩ := passes_acceptOnce hgoing haccept
  rw [List.nil_append] at hchecked hcompared hunclaimed
  exact ⟨
    { headers := a.1
      auth := a.2.1
      signed := b.1
      now := b.2
      claimedAt := at_
      checks := es₁ ++ es₃ ++ before
      rest := ⟨.clearIpFailures a.1.pairId, ()⟩ :: es₆
      history := by simp only [List.append_assoc, List.cons_append, List.nil_append]
      checked := hchecked.mono (List.prefix_append _ _)
      compared := hcompared.mono (List.prefix_append _ _)
      genuine := hgenuine
      unclaimed := hunclaimed
      once := List.forall_mem_cons.mpr ⟨rfl, unclaimed_of_audit cfg req haudit⟩ }⟩

end Verification

end Pair
