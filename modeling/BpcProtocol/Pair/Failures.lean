import BpcProtocol.Pair.Conduct

set_option autoImplicit false

/-! # Failed checks

Which requests are denied for a failure of their signed payload: those that the engine is told of a
failure for. -/

namespace Pair

open Async

/-! ## Requests that fail a check -/

section Checks

variable (registry : RegistryConfig) (cfg : VerifierConfig) (req : BPCRequestData)

/-- What stands before the signed payload. -/
def admission : VerifyStage (Headers × AuthorizationContext × JsNumber) := do
  Stage.await (recordAnomaly (.request req.pairId))
  beforeHeaders registry cfg req
  let headers ← readHeaders registry cfg req
  let admitted ← admitPair registry cfg req headers.pairId
  pure (headers, admitted)

/-- What stands behind it. -/
def conclusion (headers : Headers) (admitted : AuthorizationContext × JsNumber)
    (verified : SignedPayload × JsNumber) : VerifyStage BPCVerifyResult := do
  acceptOnce registry cfg req headers.pairId verified.1.nonce admitted.1 verified.2
  Stage.await (writeAudit cfg.auditLog
    { action := .verifyPass, pairId := some headers.pairId, method := some req.method
      path := some req.path, ip := req.ip })
  pure (authorized headers.pairId admitted.1 verified.2 admitted.2)

theorem verifyBPCRequest_concludes :
    verifyBPCRequest registry cfg req = Stage.toProg (admission registry cfg req >>= fun a =>
      verifySignedPayload registry cfg req a.1 a.2.1 >>= conclusion registry cfg req a.1 a.2) := by
  simp only [admission, Stage.bind_assoc]
  rfl

variable (headers : Headers) (auth : AuthorizationContext)

/-- The signed payload fails a check: of its form, the secret, the time, what it is bound to, the body,
    or the signature. The scope is checked between the binding and the body. -/
inductive FailsCheck : ServerHistory → BPCVerifyResult → Prop
  | decoding {es : ServerHistory} {r : BPCVerifyResult} :
      Stage.Exits (readPayload registry cfg req headers.signedData) es r → FailsCheck es r
  | secret {es₁ es₂ : ServerHistory} {r : BPCVerifyResult} {signed : SignedPayload} :
      Stage.Passes (readPayload registry cfg req headers.signedData) es₁ signed →
      Stage.Exits (checkSecretHmac registry cfg req auth signed) es₂ r →
      FailsCheck (es₁ ++ es₂) r
  | timestamp {es₁ es₂ es₃ : ServerHistory} {r : BPCVerifyResult} {signed : SignedPayload} :
      Stage.Passes (readPayload registry cfg req headers.signedData) es₁ signed →
      Stage.Passes (checkSecretHmac registry cfg req auth signed) es₂ () →
      Stage.Exits (checkTimestamp registry cfg req headers.pairId signed.timestamp) es₃ r →
      FailsCheck (es₁ ++ (es₂ ++ es₃)) r
  | binding {es₁ es₂ es₃ es₄ : ServerHistory} {r : BPCVerifyResult} {signed : SignedPayload}
      {now : JsNumber} :
      Stage.Passes (readPayload registry cfg req headers.signedData) es₁ signed →
      Stage.Passes (checkSecretHmac registry cfg req auth signed) es₂ () →
      Stage.Passes (checkTimestamp registry cfg req headers.pairId signed.timestamp) es₃ now →
      Stage.Exits (checkBinding registry cfg req headers.pairId signed.payload) es₄ r →
      FailsCheck (es₁ ++ (es₂ ++ (es₃ ++ es₄))) r
  | body {es₁ es₂ es₃ es₄ es₅ es₆ : ServerHistory} {r : BPCVerifyResult} {signed : SignedPayload}
      {now : JsNumber} :
      Stage.Passes (readPayload registry cfg req headers.signedData) es₁ signed →
      Stage.Passes (checkSecretHmac registry cfg req auth signed) es₂ () →
      Stage.Passes (checkTimestamp registry cfg req headers.pairId signed.timestamp) es₃ now →
      Stage.Passes (checkBinding registry cfg req headers.pairId signed.payload) es₄ () →
      Stage.Passes (checkScope registry cfg req auth.scope signed.payload) es₅ () →
      Stage.Exits (checkBodyHash registry cfg req signed.payload) es₆ r →
      FailsCheck (es₁ ++ (es₂ ++ (es₃ ++ (es₄ ++ (es₅ ++ es₆))))) r
  | signature {es₁ es₂ es₃ es₄ es₅ es₆ es₇ : ServerHistory} {r : BPCVerifyResult}
      {signed : SignedPayload} {now : JsNumber} :
      Stage.Passes (readPayload registry cfg req headers.signedData) es₁ signed →
      Stage.Passes (checkSecretHmac registry cfg req auth signed) es₂ () →
      Stage.Passes (checkTimestamp registry cfg req headers.pairId signed.timestamp) es₃ now →
      Stage.Passes (checkBinding registry cfg req headers.pairId signed.payload) es₄ () →
      Stage.Passes (checkScope registry cfg req auth.scope signed.payload) es₅ () →
      Stage.Passes (checkBodyHash registry cfg req signed.payload) es₆ () →
      Stage.Exits (checkSignature registry cfg req auth signed.payload headers.signature) es₇ r →
      FailsCheck (es₁ ++ (es₂ ++ (es₃ ++ (es₄ ++ (es₅ ++ (es₆ ++ es₇)))))) r

end Checks

section Told

variable {registry : RegistryConfig} {cfg : VerifierConfig} {req : BPCRequestData}
  {headers : Headers} {auth : AuthorizationContext} {h es : ServerHistory} {r : BPCVerifyResult}

theorem admission_follows :
    Stage.Follows (May cfg req) (fun h' a => Admitted req a.1 a.2.1 h' ∧ a.2.1.status = .active)
      Plain (admission registry cfg req) [] := by
  refine Stage.Follows.bind (Stage.follows_await recordRequest_follows) fun h₁ _ _ hgoing => ?_
  refine Stage.Follows.bind (beforeHeaders_follows hgoing) fun h₂ _ _ hgoing => ?_
  refine Stage.Follows.bind (readHeaders_follows hgoing) fun h₃ headers _ ⟨hh, hheaders⟩ => ?_
  subst hh
  refine Stage.Follows.bind (admitPair_follows hgoing hheaders)
    fun h₄ admitted _ ⟨hgoing, hfound, hactive⟩ => ?_
  exact Stage.follows_pure ⟨⟨hgoing, hheaders, hfound⟩, hactive⟩

/-- A stage that has changed nothing leaves what the next one starts from. -/
theorem Admitted.stay {h' : ServerHistory} (hadmitted : Admitted req headers auth h) (hh : h' = h) :
    Admitted req headers auth h' :=
  hh ▸ hadmitted

section Passed

variable {signed : SignedPayload} {now : JsNumber} {es₁ es₂ es₃ es₄ es₅ es₆ : ServerHistory}
  (hadmitted : Admitted req headers auth h)
  (hread : Stage.Passes (readPayload registry cfg req headers.signedData) es₁ signed)
  (hsecret : Stage.Passes (checkSecretHmac registry cfg req auth signed) es₂ ())
  (htime : Stage.Passes (checkTimestamp registry cfg req headers.pairId signed.timestamp) es₃ now)
  (hbinding : Stage.Passes (checkBinding registry cfg req headers.pairId signed.payload) es₄ ())
  (hscope : Stage.Passes (checkScope registry cfg req auth.scope signed.payload) es₅ ())
  (hbody : Stage.Passes (checkBodyHash registry cfg req signed.payload) es₆ ())
include hadmitted hread

theorem decodes_of_passes : DecodesTo headers.signedData signed :=
  (hread.follows (readPayload_follows hadmitted)).2

theorem admitted_of_read : Admitted req headers auth (h ++ es₁) :=
  hadmitted.stay (hread.follows (readPayload_follows hadmitted)).1

include hsecret

theorem admitted_of_secret :
    Admitted req headers auth (h ++ es₁ ++ es₂) ∧ SecretChecked (h ++ es₁ ++ es₂) :=
  have hafter := hsecret.follows (checkSecretHmac_follows (decodes_of_passes hadmitted hread)
    (admitted_of_read hadmitted hread))
  ⟨hafter.1, hafter.2.1⟩

include htime

theorem admitted_of_time : Admitted req headers auth (h ++ es₁ ++ es₂ ++ es₃) :=
  have hbefore := admitted_of_secret hadmitted hread hsecret
  (htime.follows (checkTimestamp_follows (decodes_of_passes hadmitted hread) hbefore.1 hbefore.2)).1

include hbinding

theorem admitted_of_binding : Admitted req headers auth (h ++ es₁ ++ es₂ ++ es₃ ++ es₄) :=
  have hbefore := admitted_of_time hadmitted hread hsecret htime
  hbefore.stay
    (hbinding.follows (checkBinding_follows (decodes_of_passes hadmitted hread) hbefore)).1

include hscope

theorem admitted_of_scope : Admitted req headers auth (h ++ es₁ ++ es₂ ++ es₃ ++ es₄ ++ es₅) :=
  have hbefore := admitted_of_binding hadmitted hread hsecret htime hbinding
  hbefore.stay (hscope.follows (checkScope_follows hbefore _ _)).1

include hbody

theorem admitted_of_body :
    Admitted req headers auth (h ++ es₁ ++ es₂ ++ es₃ ++ es₄ ++ es₅ ++ es₆) :=
  have hbefore := admitted_of_scope hadmitted hread hsecret htime hbinding hscope
  hbefore.stay
    (hbody.follows (checkBodyHash_follows (decodes_of_passes hadmitted hread) hbefore)).1

end Passed

/-- The engine is told of a failed check. -/
theorem FailsCheck.faulted (hfails : FailsCheck registry cfg req headers auth es r)
    (hadmitted : Admitted req headers auth h) : Faulted req (h ++ es) r := by
  cases hfails with
  | decoding hread => exact hread.follows (readPayload_follows hadmitted)
  | secret hread hsecret =>
      have hfaulted := hsecret.follows (checkSecretHmac_follows (decodes_of_passes hadmitted hread)
        (admitted_of_read hadmitted hread))
      simpa only [List.append_assoc] using hfaulted
  | timestamp hread hsecret htime =>
      have hbefore := admitted_of_secret hadmitted hread hsecret
      have hfaulted := htime.follows (checkTimestamp_follows (decodes_of_passes hadmitted hread)
        hbefore.1 hbefore.2)
      simpa only [List.append_assoc] using hfaulted
  | binding hread hsecret htime hbinding =>
      have hfaulted := hbinding.follows (checkBinding_follows (decodes_of_passes hadmitted hread)
        (admitted_of_time hadmitted hread hsecret htime))
      simpa only [List.append_assoc] using hfaulted
  | body hread hsecret htime hbinding hscope hbody =>
      have hfaulted := hbody.follows (checkBodyHash_follows (decodes_of_passes hadmitted hread)
        (admitted_of_scope hadmitted hread hsecret htime hbinding hscope))
      simpa only [List.append_assoc] using hfaulted
  | signature hread hsecret htime hbinding hscope hbody hsignature =>
      have hfaulted := hsignature.follows (checkSignature_follows (decodes_of_passes hadmitted hread)
        (admitted_of_body hadmitted hread hsecret htime hbinding hscope hbody))
      simpa only [List.append_assoc] using hfaulted

/-- The signed payload is denied for a failed check, or for the scope. -/
theorem exits_verifySignedPayload (hadmitted : Admitted req headers auth h)
    (hexit : Stage.Exits (verifySignedPayload registry cfg req headers auth) es r) :
    FailsCheck registry cfg req headers auth es r ∨ Plain (h ++ es) r := by
  rcases hexit.of_bind with hread | ⟨es₁, es, signed, rfl, hread, hexit⟩
  · exact .inl (.decoding hread)
  rcases hexit.of_bind with hsecret | ⟨es₂, es, _, rfl, hsecret, hexit⟩
  · exact .inl (.secret hread hsecret)
  rcases hexit.of_bind with htime | ⟨es₃, es, now, rfl, htime, hexit⟩
  · exact .inl (.timestamp hread hsecret htime)
  rcases hexit.of_bind with hbinding | ⟨es₄, es, _, rfl, hbinding, hexit⟩
  · exact .inl (.binding hread hsecret htime hbinding)
  rcases hexit.of_bind with hscope | ⟨es₅, es, _, rfl, hscope, hexit⟩
  · have hplain := hscope.follows (checkScope_follows
      (admitted_of_binding hadmitted hread hsecret htime hbinding) _ _)
    exact .inr (by simpa only [List.append_assoc] using hplain)
  rcases hexit.of_bind with hbody | ⟨es₆, es, _, rfl, hbody, hexit⟩
  · exact .inl (.body hread hsecret htime hbinding hscope hbody)
  rcases hexit.of_bind with hsignature | ⟨es₇, es, _, rfl, -, hexit⟩
  · exact .inl (.signature hread hsecret htime hbinding hscope hbody hsignature)
  · exact absurd hexit Stage.not_exits_pure

/-- A verification that returns from its last stages tells of no failure. -/
theorem exits_conclusion {headers : Headers} {admitted : AuthorizationContext × JsNumber}
    {verified : SignedPayload × JsNumber} (hgoing : Going req h)
    (hchecked : Checked cfg req h headers admitted.1 verified.1 verified.2)
    (hexit : Stage.Exits (conclusion registry cfg req headers admitted verified) es r) :
    Plain (h ++ es) r := by
  rcases hexit.of_bind with haccept | ⟨es₁, es₂, _, rfl, -, hexit⟩
  · exact haccept.follows (acceptOnce_follows hgoing hchecked _)
  rcases hexit.of_bind with haudit | ⟨es₁, es₂, _, rfl, -, hexit⟩
  · exact absurd haudit Stage.not_exits_await
  · exact absurd hexit Stage.not_exits_pure

theorem passes_conclusion {headers : Headers} {admitted : AuthorizationContext × JsNumber}
    {verified : SignedPayload × JsNumber}
    (hpass : Stage.Passes (conclusion registry cfg req headers admitted verified) es r) :
    r.ok = true := by
  obtain ⟨es₁, es₂, _, -, -, hpass⟩ := hpass.of_bind
  obtain ⟨es₃, es₄, _, -, -, hpass⟩ := hpass.of_bind
  obtain ⟨-, rfl⟩ := Stage.passes_pure.mp hpass
  rfl

/-- An authorization tells of no failure. -/
theorem failures_of_ok (htrace : Trace (verifyBPCRequest registry cfg req) es (.ret r))
    (hok : r.ok = true) : failures es = [] := by
  have hconcluded := htrace.returns (@verifyBPCRequest_follows cfg req registry)
  rw [List.nil_append] at hconcluded
  cases hconcluded with
  | authorized _ hrecorded =>
      rw [failures, hrecorded]
      rfl
  | plain hplain => exact hplain.failures
  | faulted hfaulted =>
      rw [hfaulted.denied] at hok
      cases hok

end Told

/-! ## Requests that have been processed -/

/-- A request, with what its verification did and what it returned. -/
structure Processed where
  registry : RegistryConfig
  cfg : VerifierConfig
  req : BPCRequestData
  history : ServerHistory
  result : BPCVerifyResult
  trace : Trace (verifyBPCRequest registry cfg req) history (.ret result)

namespace Processed

variable (p : Processed)

/-- The request was denied because its signed payload fails a check. -/
def Fails : Prop :=
  ∃ es₁ es₂ headers admitted, p.history = es₁ ++ es₂ ∧
    Stage.Passes (admission p.registry p.cfg p.req) es₁ (headers, admitted) ∧
    FailsCheck p.registry p.cfg p.req headers admitted.1 es₂ p.result

/-- It is a request on this pair. -/
def FailsOn (pairId : JsString) : Prop :=
  p.Fails ∧ p.req.pairId = some pairId

/-- It is a request on this pair, from this address. -/
def FailsFrom (ip pairId : JsString) : Prop :=
  p.FailsOn pairId ∧ p.req.sourceIp = ip

variable {p}

/-- The engine is told of the failure, once by each method. -/
theorem Fails.faulted (hfails : p.Fails) : Faulted p.req p.history p.result := by
  obtain ⟨es₁, es₂, headers, admitted, hhistory, hadmission, hcheck⟩ := hfails
  obtain ⟨hadmitted, -⟩ := hadmission.follows admission_follows
  rw [hhistory]
  exact hcheck.faulted hadmitted

/-- What is told of as a failure is one. -/
theorem fails_or_plain (p : Processed) : p.Fails ∨ failures p.history = [] := by
  obtain ⟨registry, cfg, req, history, result, trace⟩ := p
  have htrace := trace
  rw [verifyBPCRequest_concludes] at htrace
  rcases Stage.trace_toProg htrace with hpass | hexit
  · obtain ⟨es₁, es₂, a, -, -, hpass⟩ := hpass.of_bind
    obtain ⟨es₃, es₄, b, -, -, hpass⟩ := hpass.of_bind
    exact .inr (failures_of_ok trace (passes_conclusion hpass))
  rcases hexit.of_bind with hexit | ⟨es₁, es₂, a, rfl, hadmission, hexit⟩
  · exact .inr (hexit.follows admission_follows).failures
  obtain ⟨hadmitted, hactive⟩ := hadmission.follows admission_follows
  rcases hexit.of_bind with hexit | ⟨es₃, es₄, b, rfl, hverified, hexit⟩
  · rcases exits_verifySignedPayload hadmitted hexit with hfails | hplain
    · exact .inl ⟨es₁, es₂, a.1, a.2, rfl, hadmission, hfails⟩
    · exact .inr hplain.failures
  · obtain ⟨hgoing, hchecked, -⟩ :=
      hverified.follows (verifySignedPayload_follows hadmitted hactive)
    have hplain := exits_conclusion hgoing hchecked hexit
    rw [List.append_assoc] at hplain
    exact .inr hplain.failures

end Processed

end Pair
