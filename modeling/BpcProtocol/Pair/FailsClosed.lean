import BpcProtocol.Lib.Contracts
import BpcProtocol.Pair.AuthorizationKeys

set_option autoImplicit false

/-! # Failing closed

A verification returns a result, whatever the request: what the store answers does not throw where
its arguments are in order, and what is read outside of a `try` can be read. -/

namespace Pair

open Fallible Async Prog

/-! ## What the verifier relies on -/

/-- A threshold that `lockIfFailureThreshold` takes. -/
def IsThreshold (n : JsNumber) : Prop :=
  n.isSafeInteger = true ∧ n.lt (.fin 1) = false

/-- A component that does not throw. What the continuity gate throws is caught. -/
def ExternalOp.Obliging : (o : ExternalOp) → o.Answer → Prop
  | .audit _, answer => ∃ u, answer = .ok u
  | .rateLimit _, answer => ∃ allowed, answer = .ok allowed
  | .recordAnomaly _, answer => ∃ u, answer = .ok u
  | .getVerdict _ _, answer => ∃ verdict, answer = .ok verdict
  | _, _ => True

def StoreOp.Obliging : (o : StoreOp) → o.Answer → Prop
  | .get _, found => ∀ p, found = some p → Accepted p.pubJwk
  | .atomicMutate _ (.recordFailure _ _ _), answer => ∃ p, answer = .ok p
  | .claimSuccessfulUse _ at_ expected, answer =>
      MemoryPairStore.isTimestamp at_ = true → Accepted expected.pubJwk →
        ∃ outcome, answer = .ok outcome
  | .expireIfElapsed _ now, answer =>
      MemoryPairStore.isTimestamp now = true → ∃ marked, answer = .ok marked
  | .lockIfFailureThreshold _ minimumFailures, answer =>
      IsThreshold minimumFailures → ∃ locked, answer = .ok locked
  | _, _ => True

/-- What the verifier relies on its operations to answer. -/
def ServerOp.Obliging : (o : ServerOp) → o.Answer → Prop
  | .store o, answer => o.Obliging answer
  | .dateNow, now => MemoryPairStore.isTimestamp now = true
  | .external o, answer => o.Obliging answer
  | _, _ => True

/-- The program does not throw, as long as its operations are obliging. -/
abbrev NeverThrows {α : Type} (p : ServerProg α) : Prop :=
  p.Ensures ServerOp.Obliging fun _ => True

/-- The stage does not throw, and goes on with a value that satisfies `Q`. -/
abbrev GoesOn {α : Type} (Q : α → Prop) (s : VerifyStage α) : Prop :=
  Stage.Ensures ServerOp.Obliging Q (fun _ => True) s

/-- What follows the decoding reads this payload without throwing. -/
def payloadReadable (payload : JsValue) : Bool :=
  !isNull payload &&
    (((stringOf (payload.get (Js.lit "nonce"))).filter uuidRe).isNone ||
      (finiteNumber (payload.get (Js.lit "timestamp"))).isNone ||
      !truthy (payload.get (Js.lit "secret_hmac")) ||
      hmacReadable (payload.get (Js.lit "secret_hmac")))

/-! ## Denials -/

section Programs

variable {α : Type}

theorem ensures_attempt {Q : α → Prop} {p : ServerProg (Except ServerError α)}
    (h : p.Ensures ServerOp.Obliging fun x => ∃ a, x = .ok a ∧ Q a) :
    (attempt p).Ensures ServerOp.Obliging Q := by
  refine Ensures.bind h ?_
  rintro x ⟨a, hx, ha⟩
  exact ensures_lift hx ha

theorem neverThrows_runIf {c : Prop} [Decidable c] {p : ServerProg Unit} (h : NeverThrows p) :
    NeverThrows (runIf c p) :=
  ensures_ite (fun _ => h) fun _ => trivial

theorem neverThrows_then {β : Type} {p : ServerProg α} {f : α → ServerProg β} (h : NeverThrows p)
    (hf : ∀ a, NeverThrows (f a)) : NeverThrows (p >>= f) :=
  Ensures.bind h fun a _ => hf a

/-- An operation of which nothing is relied on. -/
theorem neverThrows_perform (o : ServerOp) : NeverThrows (perform o) :=
  fun _ _ => trivial

theorem dateNow_ensures :
    dateNow.Ensures ServerOp.Obliging fun now => MemoryPairStore.isTimestamp now = true :=
  fun _ hx => hx

theorem recordAnomaly_neverThrows (event : AnomalyEvent) : NeverThrows (recordAnomaly event) := by
  refine ensures_attempt fun x hx => ?_
  obtain ⟨u, hu⟩ : ∃ u, x = .ok u := hx
  exact ⟨u, hu, trivial⟩

theorem writeAudit_neverThrows (auditLog : Bool) (entry : AuditInput) :
    NeverThrows (writeAudit auditLog entry) := by
  refine ensures_ite (fun _ => ensures_attempt fun x hx => ?_) fun _ => trivial
  obtain ⟨u, hu⟩ : ∃ u, x = .ok u := hx
  exact ⟨u, hu, trivial⟩

theorem ensureLocked_neverThrows (pairId : JsString) {minimumFailures : JsNumber}
    (h : IsThreshold minimumFailures) : NeverThrows (ensureLocked pairId minimumFailures) := by
  refine ensures_attempt fun x hx => ?_
  obtain ⟨locked, hlocked⟩ : ∃ locked, x = .ok locked := hx h
  exact ⟨locked, hlocked, trivial⟩

theorem markExpired_neverThrows (pairId : JsString) {now : JsNumber}
    (h : MemoryPairStore.isTimestamp now = true) : NeverThrows (markExpired pairId now) := by
  refine ensures_attempt fun x hx => ?_
  obtain ⟨marked, hmarked⟩ : ∃ marked, x = .ok marked := hx h
  exact ⟨marked, hmarked, trivial⟩

theorem claimSuccessfulUseOutcome_neverThrows (pairId : JsString) {at_ : JsNumber}
    {expected : SuccessfulUsePolicy} (hat : MemoryPairStore.isTimestamp at_ = true)
    (hkey : Accepted expected.pubJwk) :
    NeverThrows (claimSuccessfulUseOutcome pairId at_ expected) := by
  have hclaim : NeverThrows (attempt (onStore (.claimSuccessfulUse pairId at_ expected))) := by
    refine ensures_attempt fun x hx => ?_
    obtain ⟨outcome, houtcome⟩ : ∃ outcome, x = .ok outcome := hx hat hkey
    exact ⟨outcome, houtcome, trivial⟩
  refine neverThrows_then hclaim fun outcome => ?_
  exact neverThrows_then (neverThrows_runIf (neverThrows_perform _)) fun _ => trivial

theorem recordFailedActivity_neverThrows (cfg : RegistryConfig) (pairId ip : JsString) :
    NeverThrows (recordFailedActivity cfg pairId ip) := by
  refine neverThrows_then (neverThrows_perform _) fun now => ?_
  refine neverThrows_then ?_ fun ipFailures => ?_
  · exact ensures_ite (fun _ => trivial) fun _ =>
      neverThrows_then (neverThrows_perform _) fun _ => trivial
  refine neverThrows_then ?_ fun _ => trivial
  refine ensures_attempt fun x hx => ?_
  obtain ⟨p, hp⟩ : ∃ p, x = .ok p := hx
  exact ⟨p, hp, trivial⟩

end Programs

section Verifier

variable (registry : RegistryConfig) (cfg : VerifierConfig) (req : BPCRequestData)

theorem recordPairFailure_neverThrows : NeverThrows (recordPairFailure registry req) := by
  refine ensures_elim _ trivial fun pairId _ => ?_
  refine neverThrows_then (neverThrows_perform _) fun now => ?_
  exact neverThrows_then (neverThrows_perform _) fun _ =>
    recordFailedActivity_neverThrows registry pairId _

theorem recordSigFailures_neverThrows : NeverThrows (recordSigFailures req) := by
  refine neverThrows_then (recordAnomaly_neverThrows _) fun _ => ?_
  exact ensures_elim _ trivial fun pairId _ => recordAnomaly_neverThrows _

theorem deny_neverThrows (error : String) (doSigFail : Bool) :
    NeverThrows (deny registry cfg req error doSigFail) := by
  refine neverThrows_then (recordAnomaly_neverThrows _) fun _ => ?_
  refine neverThrows_then (neverThrows_runIf (recordSigFailures_neverThrows req)) fun _ => ?_
  refine neverThrows_then (writeAudit_neverThrows _ _) fun _ => ?_
  exact neverThrows_then (neverThrows_runIf (recordPairFailure_neverThrows registry req))
    fun _ => trivial

theorem denyIf_goesOn (c : Prop) [Decidable c] (error : String) (doSigFail : Bool) :
    GoesOn (fun _ => ¬c) (denyIf registry cfg req c error doSigFail) :=
  Stage.ensures_exitIf fun _ => deny_neverThrows registry cfg req error doSigFail

theorem required_goesOn {α : Type} (v : Option α) (error : String) (doSigFail : Bool) :
    GoesOn (fun a => v = some a) (required registry cfg req v error doSigFail) := by
  cases v with
  | none => exact Stage.ensures_exit (deny_neverThrows registry cfg req error doSigFail)
  | some a => exact Stage.ensures_pure rfl

theorem onlyIf_goesOn {c : Prop} [Decidable c] {s : VerifyStage Unit}
    (h : c → GoesOn (fun _ => True) s) : GoesOn (fun _ => True) (onlyIf c s) := by
  unfold onlyIf
  split
  · next hc => exact h hc
  · exact Stage.ensures_pure trivial

theorem applyTarpit_neverThrows (verdict : AnomalyVerdict) : NeverThrows (applyTarpit verdict) :=
  neverThrows_then (neverThrows_runIf (neverThrows_perform _)) fun _ => trivial

theorem shadowDelay_neverThrows : NeverThrows (shadowDelay cfg) :=
  ensures_ite (fun _ => applyTarpit_neverThrows _) fun _ => trivial

/-! ## Stages -/

theorem checkRate_goesOn (key : JsString) :
    GoesOn (fun _ => True) (checkRate registry cfg req key) := by
  refine Stage.Ensures.bind (P := fun _ => True) (Stage.ensures_await ?_) fun allowed _ =>
    (denyIf_goesOn registry cfg req _ _ _).mono fun _ _ => trivial
  refine ensures_attempt fun x hx => ?_
  obtain ⟨allowed, hallowed⟩ : ∃ allowed, x = .ok allowed := hx
  exact ⟨allowed, hallowed, trivial⟩

theorem checkShadowState_goesOn (pairId : JsString) :
    GoesOn (fun _ => True) (checkShadowState cfg req pairId) := by
  refine Stage.Ensures.bind (Stage.ensures_await (neverThrows_perform _)) fun inShadow _ => ?_
  refine (Stage.ensures_exitIf fun _ => ?_).mono fun _ _ => trivial
  refine neverThrows_then (shadowDelay_neverThrows cfg) fun delayMs => ?_
  exact neverThrows_then (writeAudit_neverThrows _ _) fun _ => trivial

theorem beforeHeaders_goesOn : GoesOn (fun _ => True) (beforeHeaders registry cfg req) := by
  refine Stage.Ensures.bind (onlyIf_goesOn fun _ => checkRate_goesOn registry cfg req _) fun _ _ => ?_
  refine Stage.Ensures.bind (onlyIf_goesOn fun _ => checkShadowState_goesOn cfg req _) fun _ _ => ?_
  refine Stage.Ensures.bind (onlyIf_goesOn fun _ => checkRate_goesOn registry cfg req _) fun _ _ => ?_
  exact (denyIf_goesOn registry cfg req _ _ _).mono fun _ _ => trivial

/-- The headers are those of the request. -/
theorem readHeaders_goesOn :
    GoesOn (fun headers => req.signedData = some headers.signedData)
      (readHeaders registry cfg req) := by
  refine Stage.Ensures.bind (required_goesOn registry cfg req _ _ _) fun pairId _ => ?_
  refine Stage.Ensures.bind (required_goesOn registry cfg req _ _ _) fun signedData hsigned => ?_
  refine Stage.Ensures.bind (required_goesOn registry cfg req _ _ _) fun signature _ => ?_
  refine Stage.Ensures.bind (denyIf_goesOn registry cfg req _ _ _) fun _ _ => ?_
  refine Stage.Ensures.bind (denyIf_goesOn registry cfg req _ _ _) fun _ _ => ?_
  refine Stage.Ensures.bind (denyIf_goesOn registry cfg req _ _ _) fun _ _ => ?_
  exact Stage.ensures_pure (Option.filter_eq_some_iff.mp hsigned).1

theorem capture_accepted {pair : StoredPair} (h : Accepted pair.pubJwk) :
    ∃ auth, captureAuthorizationContext pair = .ok auth ∧ Accepted auth.pubJwk := by
  obtain ⟨key, hkey⟩ := h
  refine ⟨_, by rw [captureAuthorizationContext, hkey]; rfl, ?_⟩
  exact ⟨key, canonicalAuthorizationJwk_toJwk hkey⟩

/-- The captured key can be read. -/
theorem capturePair_goesOn (pairId : JsString) :
    GoesOn (fun auth => Accepted auth.pubJwk) (capturePair registry cfg req pairId) := by
  have hfound : (onStore (.get pairId)).Ensures ServerOp.Obliging
      fun found : Option StoredPair => ∀ p, found = some p → Accepted p.pubJwk :=
    fun _ hx => hx
  refine Stage.Ensures.bind (Stage.ensures_await hfound) fun found hfound => ?_
  cases found with
  | none =>
      refine Stage.Ensures.bind (P := fun _ => False) (Stage.ensures_exit ?_)
        fun _ h => h.elim
      exact neverThrows_then (recordAnomaly_neverThrows _) fun _ =>
        deny_neverThrows registry cfg req _ _
  | some pair =>
      obtain ⟨auth, hauth, hkey⟩ := capture_accepted (hfound pair rfl)
      exact Stage.Ensures.bind (P := fun p => p = pair) (Stage.ensures_pure rfl) fun p hp =>
        Stage.ensures_await (ensures_lift (hp ▸ hauth) hkey)

theorem denyLocked_neverThrows (pairId : JsString) :
    NeverThrows (denyLocked registry cfg req pairId) := by
  refine ensures_ite (fun _ => ?_) fun _ => deny_neverThrows registry cfg req _ _
  refine neverThrows_then (recordAnomaly_neverThrows _) fun _ => ?_
  refine neverThrows_then (shadowDelay_neverThrows cfg) fun _ => ?_
  exact neverThrows_then (writeAudit_neverThrows _ _) fun _ => trivial

theorem denyAtThreshold_neverThrows (pairId : JsString) {lockoutCount : JsNumber}
    (h : IsThreshold lockoutCount) :
    NeverThrows (denyAtThreshold registry cfg req pairId lockoutCount) := by
  refine neverThrows_then (ensureLocked_neverThrows pairId h) fun locked => ?_
  refine ensures_ite (fun _ => deny_neverThrows registry cfg req _ _) fun _ => ?_
  refine ensures_ite (fun _ => ?_) fun _ => deny_neverThrows registry cfg req _ _
  refine neverThrows_then (recordAnomaly_neverThrows _) fun _ => ?_
  exact neverThrows_then (shadowDelay_neverThrows cfg) fun _ => trivial

theorem denyExpired_neverThrows (pairId : JsString) :
    NeverThrows (denyExpired registry cfg req pairId) := by
  refine Ensures.bind dateNow_ensures fun now hnow => ?_
  refine neverThrows_then (markExpired_neverThrows pairId hnow) fun marked => ?_
  exact ensures_ite (fun _ => deny_neverThrows registry cfg req _ _)
    fun _ => deny_neverThrows registry cfg req _ _

theorem denyUsedUp_neverThrows (pairId : JsString) :
    NeverThrows (denyUsedUp registry cfg req pairId) := by
  refine neverThrows_then (neverThrows_perform _) fun marked => ?_
  exact ensures_ite (fun _ => deny_neverThrows registry cfg req _ _)
    fun _ => deny_neverThrows registry cfg req _ _

theorem checkStatus_goesOn (pairId : JsString) (auth : AuthorizationContext)
    (hthreshold : IsThreshold (cfg.lockoutCount.getD (.fin 10))) :
    GoesOn (fun _ => True) (checkStatus registry cfg req pairId auth) := by
  refine Stage.Ensures.bind (denyIf_goesOn registry cfg req _ _ _) fun _ _ => ?_
  refine Stage.Ensures.bind
    (Stage.ensures_exitIf fun _ => denyLocked_neverThrows registry cfg req pairId) fun _ _ => ?_
  refine Stage.Ensures.bind (denyIf_goesOn registry cfg req _ _ _) fun _ _ => ?_
  refine Stage.Ensures.bind (denyIf_goesOn registry cfg req _ _ _) fun _ _ => ?_
  refine Stage.Ensures.bind (Stage.ensures_exitIf fun _ =>
    denyAtThreshold_neverThrows registry cfg req pairId hthreshold) fun _ _ => ?_
  refine Stage.Ensures.bind (onlyIf_goesOn fun _ => ?_) fun _ _ => ?_
  · refine Stage.Ensures.bind (Stage.ensures_await (neverThrows_perform _)) fun now _ => ?_
    exact (Stage.ensures_exitIf fun _ => denyExpired_neverThrows registry cfg req pairId).mono
      fun _ _ => trivial
  refine Stage.Ensures.bind
    (Stage.ensures_exitIf fun _ => denyUsedUp_neverThrows registry cfg req pairId) fun _ _ => ?_
  exact (denyIf_goesOn registry cfg req _ _ _).mono fun _ _ => trivial

theorem tarpit_goesOn (pairId : JsString) :
    GoesOn (fun _ => True) (tarpit registry cfg req pairId) := by
  unfold tarpit
  split
  · refine Stage.Ensures.bind (P := fun _ => True) (Stage.ensures_await ?_) fun verdict _ => ?_
    · refine ensures_attempt fun x hx => ?_
      obtain ⟨verdict, hverdict⟩ : ∃ verdict, x = .ok verdict := hx
      exact ⟨verdict, hverdict, trivial⟩
    cases verdict with
    | clean => exact Stage.ensures_pure trivial
    | suspicious => exact Stage.ensures_await (applyTarpit_neverThrows _)
    | shadow =>
        refine Stage.ensures_exit ?_
        refine neverThrows_then (recordAnomaly_neverThrows _) fun _ => ?_
        exact neverThrows_then (applyTarpit_neverThrows _) fun _ => trivial
    | attack => exact Stage.ensures_exit (deny_neverThrows registry cfg req _ _)
  · exact Stage.ensures_pure trivial

theorem admitPair_goesOn (pairId : JsString)
    (hthreshold : IsThreshold (cfg.lockoutCount.getD (.fin 10))) :
    GoesOn (fun admitted => Accepted admitted.1.pubJwk) (admitPair registry cfg req pairId) := by
  refine Stage.Ensures.bind (capturePair_goesOn registry cfg req pairId) fun auth hauth => ?_
  refine Stage.Ensures.bind (checkStatus_goesOn registry cfg req pairId auth hthreshold)
    fun _ _ => ?_
  refine Stage.Ensures.bind (tarpit_goesOn registry cfg req pairId) fun _ _ => ?_
  exact Stage.ensures_pure hauth

/-- The payload that goes on is the one that was decoded, and its HMAC can be read. -/
theorem readPayload_decodes {signedData : JsString}
    (hpayload : ∀ payload, decodePayload signedData = some payload →
      payloadReadable payload = true) :
    GoesOn (fun signed => decodePayload signedData = some signed.payload ∧
      (truthy (signed.payload.get (Js.lit "secret_hmac")) = true →
        hmacReadable (signed.payload.get (Js.lit "secret_hmac")) = true))
      (readPayload registry cfg req signedData) := by
  refine Stage.Ensures.bind (required_goesOn registry cfg req _ _ _) fun payload hdecoded => ?_
  have hreadable := hpayload payload hdecoded
  simp only [payloadReadable, Bool.and_eq_true, Bool.not_eq_true'] at hreadable
  refine Stage.Ensures.bind (P := fun _ => True) (Stage.ensures_await ?_) fun _ _ => ?_
  · exact ensures_lift (a := ()) (by rw [require_eq_ok]; exact hreadable.1) trivial
  refine Stage.Ensures.bind (required_goesOn registry cfg req _ _ _) fun nonce hnonce => ?_
  refine Stage.Ensures.bind (required_goesOn registry cfg req _ _ _) fun timestamp htimestamp => ?_
  refine Stage.ensures_pure ⟨hdecoded, fun htruthy => ?_⟩
  simpa [hnonce, htimestamp, htruthy] using hreadable.2

theorem checkSecretHmac_goesOn (auth : AuthorizationContext) {signed : SignedPayload}
    (hreadable : truthy (signed.payload.get (Js.lit "secret_hmac")) = true →
      hmacReadable (signed.payload.get (Js.lit "secret_hmac")) = true) :
    GoesOn (fun _ => True) (checkSecretHmac registry cfg req auth signed) := by
  refine Stage.Ensures.bind (denyIf_goesOn registry cfg req _ _ _) fun _ htruthy => ?_
  refine Stage.Ensures.bind (denyIf_goesOn registry cfg req _ _ _) fun _ _ => ?_
  refine Stage.Ensures.bind (P := fun _ => True) (Stage.ensures_await ?_) fun _ _ => ?_
  · refine ensures_lift (a := ()) ?_ trivial
    rw [require_eq_ok]
    exact hreadable (by simpa using htruthy)
  refine Stage.Ensures.bind (Stage.ensures_await (neverThrows_perform _)) fun _ _ => ?_
  exact (denyIf_goesOn registry cfg req _ _ _).mono fun _ _ => trivial

theorem checkTimestamp_goesOn (pairId : JsString) (timestamp : JsNumber) :
    GoesOn (fun _ => True) (checkTimestamp registry cfg req pairId timestamp) := by
  refine Stage.Ensures.bind (Stage.ensures_await (neverThrows_perform _)) fun now _ => ?_
  refine Stage.Ensures.bind (Stage.ensures_exitIf fun _ => ?_) fun _ _ =>
    Stage.ensures_pure trivial
  exact neverThrows_then (recordAnomaly_neverThrows _) fun _ => deny_neverThrows registry cfg req _ _

theorem checkBinding_goesOn (pairId : JsString) (payload : JsValue) :
    GoesOn (fun _ => True) (checkBinding registry cfg req pairId payload) := by
  refine Stage.Ensures.bind (denyIf_goesOn registry cfg req _ _ _) fun _ _ => ?_
  refine Stage.Ensures.bind (denyIf_goesOn registry cfg req _ _ _) fun _ _ => ?_
  exact (denyIf_goesOn registry cfg req _ _ _).mono fun _ _ => trivial

theorem checkScope_goesOn (scope : JsString) (payload : JsValue) :
    GoesOn (fun _ => True) (checkScope registry cfg req scope payload) := by
  refine Stage.Ensures.bind (required_goesOn registry cfg req _ _ _) fun _ _ => ?_
  exact (denyIf_goesOn registry cfg req _ _ _).mono fun _ _ => trivial

theorem checkBodyHash_goesOn (payload : JsValue) :
    GoesOn (fun _ => True) (checkBodyHash registry cfg req payload) := by
  refine Stage.Ensures.bind (required_goesOn registry cfg req _ _ _) fun _ _ => ?_
  refine Stage.Ensures.bind (required_goesOn registry cfg req _ _ _) fun _ _ => ?_
  exact (denyIf_goesOn registry cfg req _ _ _).mono fun _ _ => trivial

theorem checkSignature_goesOn (auth : AuthorizationContext) (payload : JsValue)
    (signature : JsString) :
    GoesOn (fun _ => True) (checkSignature registry cfg req auth payload signature) := by
  refine Stage.Ensures.bind (P := fun _ => True) (Stage.ensures_await ?_) fun valid _ => ?_
  · exact neverThrows_then (neverThrows_perform _) fun _ => trivial
  exact (denyIf_goesOn registry cfg req _ _ _).mono fun _ _ => trivial

theorem verifySignedPayload_goesOn {headers : Headers} (auth : AuthorizationContext)
    (hpayload : ∀ payload, decodePayload headers.signedData = some payload →
      payloadReadable payload = true) :
    GoesOn (fun _ => True) (verifySignedPayload registry cfg req headers auth) := by
  refine Stage.Ensures.bind (readPayload_decodes registry cfg req hpayload) fun signed hsigned => ?_
  refine Stage.Ensures.bind (checkSecretHmac_goesOn registry cfg req auth hsigned.2) fun _ _ => ?_
  refine Stage.Ensures.bind (checkTimestamp_goesOn registry cfg req _ _) fun now _ => ?_
  refine Stage.Ensures.bind (checkBinding_goesOn registry cfg req _ _) fun _ _ => ?_
  refine Stage.Ensures.bind (checkScope_goesOn registry cfg req _ _) fun _ _ => ?_
  refine Stage.Ensures.bind (checkBodyHash_goesOn registry cfg req _) fun _ _ => ?_
  refine Stage.Ensures.bind (checkSignature_goesOn registry cfg req _ _ _) fun _ _ => ?_
  exact Stage.ensures_pure trivial

theorem onNonceAnswer_goesOn (pairId : JsString) (answer : Except Nonce.NonceError Bool) :
    GoesOn (fun _ => True) (onNonceAnswer registry cfg req pairId answer) := by
  unfold onNonceAnswer
  split
  · refine Stage.ensures_exit ?_
    exact neverThrows_then (recordAnomaly_neverThrows _) fun _ =>
      deny_neverThrows registry cfg req _ _
  · exact Stage.ensures_pure trivial
  · exact Stage.ensures_exit (deny_neverThrows registry cfg req _ _)
  · exact Stage.ensures_exit (deny_neverThrows registry cfg req _ _)

theorem denyGhost_neverThrows (pairId : JsString) (auth : AuthorizationContext) (now : JsNumber) :
    NeverThrows (denyGhost cfg req pairId auth now) := by
  refine neverThrows_then (recordAnomaly_neverThrows _) fun _ => ?_
  refine neverThrows_then (shadowDelay_neverThrows cfg) fun _ => ?_
  exact neverThrows_then (writeAudit_neverThrows _ _) fun _ => trivial

theorem claimUse_goesOn (pairId : JsString) {auth : AuthorizationContext}
    (hkey : Accepted auth.pubJwk) :
    GoesOn (fun _ => True) (claimUse registry cfg req pairId auth) := by
  refine Stage.Ensures.bind (Stage.ensures_await dateNow_ensures) fun at_ hat => ?_
  refine Stage.Ensures.bind
    (Stage.ensures_await (claimSuccessfulUseOutcome_neverThrows pairId hat hkey)) fun _ _ => ?_
  refine Stage.Ensures.bind (denyIf_goesOn registry cfg req _ _ _) fun _ _ => ?_
  refine Stage.Ensures.bind (denyIf_goesOn registry cfg req _ _ _) fun _ _ => ?_
  exact (denyIf_goesOn registry cfg req _ _ _).mono fun _ _ => trivial

theorem acceptOnce_goesOn (pairId nonce : JsString) {auth : AuthorizationContext} (now : JsNumber)
    (hkey : Accepted auth.pubJwk) :
    GoesOn (fun _ => True) (acceptOnce registry cfg req pairId nonce auth now) := by
  refine Stage.Ensures.bind (onlyIf_goesOn fun _ => ?_) fun _ _ => ?_
  · refine Stage.Ensures.bind (Stage.ensures_await (neverThrows_perform _)) fun _ _ => ?_
    exact (denyIf_goesOn registry cfg req _ _ _).mono fun _ _ => trivial
  refine Stage.Ensures.bind (P := fun _ => True) ?_ fun _ _ => ?_
  · refine Stage.Ensures.bind (Stage.ensures_await (neverThrows_perform _)) fun answer _ => ?_
    exact onNonceAnswer_goesOn registry cfg req pairId _
  refine Stage.Ensures.bind
    (Stage.ensures_exitIf fun _ => denyGhost_neverThrows cfg req pairId auth now) fun _ _ => ?_
  exact claimUse_goesOn registry cfg req pairId hkey

/-- A verification whose operations are obliging returns. -/
theorem verifyBPCRequest_neverThrows (hthreshold : IsThreshold (cfg.lockoutCount.getD (.fin 10)))
    (hpayload : ∀ signedData payload, req.signedData = some signedData →
      decodePayload signedData = some payload → payloadReadable payload = true) :
    NeverThrows (verifyBPCRequest registry cfg req) := by
  refine Stage.ensures_toProg (R := fun _ => True) ?_
  refine Stage.Ensures.bind (Stage.ensures_await (recordAnomaly_neverThrows _)) fun _ _ => ?_
  refine Stage.Ensures.bind (beforeHeaders_goesOn registry cfg req) fun _ _ => ?_
  refine Stage.Ensures.bind (readHeaders_goesOn registry cfg req) fun headers hheaders => ?_
  refine Stage.Ensures.bind (admitPair_goesOn registry cfg req _ hthreshold) fun admitted hkey => ?_
  refine Stage.Ensures.bind (verifySignedPayload_goesOn registry cfg req _
    fun payload hdecoded => hpayload _ payload hheaders hdecoded) fun verified _ => ?_
  refine Stage.Ensures.bind (acceptOnce_goesOn registry cfg req _ _ _ hkey) fun _ _ => ?_
  refine Stage.Ensures.bind (Stage.ensures_await (writeAudit_neverThrows _ _)) fun _ _ => ?_
  exact Stage.ensures_pure trivial

end Verifier

/-! ## The store -/

/-- Two accepted keys can be compared. -/
theorem sameAuthorizationJwk_ok {a b : JsonWebKey} (ha : Accepted a) (hb : Accepted b) :
    ∃ same, sameAuthorizationJwk a b = .ok same := by
  obtain ⟨left, hleft⟩ := ha
  obtain ⟨right, hright⟩ := hb
  exact ⟨_, by rw [sameAuthorizationJwk, hleft, hright]; rfl⟩

theorem successfulUsePolicyMatches_ok {pair : StoredPair} {expected : SuccessfulUsePolicy}
    (hpair : Accepted pair.pubJwk) (hexpected : Accepted expected.pubJwk) :
    ∃ agrees, successfulUsePolicyMatches pair expected = .ok agrees := by
  obtain ⟨same, hsame⟩ := sameAuthorizationJwk_ok hpair hexpected
  unfold successfulUsePolicyMatches andThen
  rw [hsame]
  split
  · exact ⟨_, rfl⟩
  · exact ⟨_, rfl⟩

namespace MemoryPairStore

variable {s : MemoryPairStore}

theorem recordFailure_ok (hinv : StoreInv s) (pairId : JsString) (ipFailures : Option JsNumber)
    (lockoutCount now : JsNumber) :
    ∃ p, (s.run (.atomicMutate pairId (.recordFailure ipFailures lockoutCount now))).1 = .ok p := by
  show ∃ p, (settle (s.atomicMutate pairId _) s).1 = .ok p
  unfold atomicMutate
  split
  · exact ⟨_, rfl⟩
  · next current hget =>
      have hid : (recordFailure current ipFailures lockoutCount now).id = pairId :=
        (recordFailure_id _ _ _ _).trans (hinv.keyed _ _ hget)
      refine ⟨some (recordFailure current ipFailures lockoutCount now), ?_⟩
      have hcommit : s.commitMutation pairId current
          (some (recordFailure current ipFailures lockoutCount now)) =
            .ok (some (recordFailure current ipFailures lockoutCount now),
              s.setPair pairId (recordFailure current ipFailures lockoutCount now)) := by
        simp [commitMutation, ensure, require, hid]
      show (settle (s.commitMutation pairId current
        (some (recordFailure current ipFailures lockoutCount now))) s).1 = _
      rw [hcommit]
      rfl

theorem claimSuccessfulUse_ok (hkeys : KeysAccepted s) (pairId : JsString) {at_ : JsNumber}
    {expected : SuccessfulUsePolicy} (hat : isTimestamp at_ = true)
    (hkey : Accepted expected.pubJwk) :
    ∃ outcome, (s.run (.claimSuccessfulUse pairId at_ expected)).1 = .ok outcome := by
  obtain ⟨key, hkey⟩ := hkey
  have hrun : ∃ r, s.claimSuccessfulUse pairId at_ expected = .ok r := by
    simp only [claimSuccessfulUse, bind_eq_ok, ensure_eq_ok, exists_unit]
    suffices h : ∃ r, s.claim pairId at_ { expected with pubJwk := key.toJwk } = .ok r by
      obtain ⟨r, hr⟩ := h
      exact ⟨r, hat, key, hkey, hr⟩
    unfold claim
    split
    · exact ⟨_, rfl⟩
    · next current hget =>
        obtain ⟨agrees, hagrees⟩ : ∃ agrees,
            successfulUsePolicyMatches current { expected with pubJwk := key.toJwk } = .ok agrees :=
          successfulUsePolicyMatches_ok (hkeys _ _ hget) ⟨key, canonicalAuthorizationJwk_toJwk hkey⟩
        have huse : ∃ r, s.use pairId current at_ { expected with pubJwk := key.toJwk } = .ok r :=
          ⟨_, by rw [use, hagrees]; rfl⟩
        unfold claimCurrent
        split_ifs
        · exact ⟨_, rfl⟩
        · exact ⟨_, rfl⟩
        · exact ⟨_, rfl⟩
        · exact ⟨_, rfl⟩
        · exact ⟨_, rfl⟩
        · exact huse
  obtain ⟨⟨outcome, s'⟩, hrun⟩ := hrun
  exact ⟨outcome, by rw [run, hrun]; rfl⟩

/-- A store whose keys are accepted is obliging. -/
theorem run_obliging (hinv : StoreInv s) (hkeys : KeysAccepted s) (o : StoreOp) :
    o.Obliging (s.run o).1 := by
  cases o with
  | get pairId => exact fun p hp => hkeys pairId p hp
  | atomicMutate pairId m =>
      cases m with
      | recordFailure ipFailures lockoutCount now => exact recordFailure_ok hinv pairId _ _ _
      | revoke => trivial
      | unlock => trivial
      | update updates => trivial
  | claimSuccessfulUse pairId at_ expected =>
      exact fun hat hkey => claimSuccessfulUse_ok hkeys pairId hat hkey
  | expireIfElapsed pairId now =>
      intro hnow
      exact ⟨_, by simp [run, expireIfElapsed, ensure, require, hnow, settle]; rfl⟩
  | lockIfFailureThreshold pairId minimumFailures =>
      intro hthreshold
      have hthreshold' : minimumFailures.isSafeInteger = true ∧ minimumFailures.lt (.fin 1) = false :=
        hthreshold
      exact ⟨_, by simp [run, lockIfFailureThreshold, ensure, require, hthreshold', settle]; rfl⟩
  | list => trivial
  | getPending token => trivial
  | setPending token pending => trivial
  | approvePending token expected pair maxActivePairs => trivial
  | rotatePair expectedOld replacement => trivial
  | expireIfUsageExhausted pairId => trivial

end MemoryPairStore

/-! ## Runs -/

variable {registry : RegistryConfig} {crypto : Crypto} {ι : Type} [DecidableEq ι]
  {cfg : ServerConfig ι}

/-- The components that the caller passed in do not throw, and the clock does not stand before
    1970. -/
def ComponentsOblige (e : ServerEntry ι) : Prop :=
  (∀ o x, e.made = ⟨.external o, x⟩ → o.Obliging x) ∧
    MemoryPairStore.isTimestamp (.fin (e.state.now : ℤ)) = true

theorem obliging_of_reachable
    (hreach : Transition.Reachable ((serverService registry crypto).system ι) cfg)
    (hcomponents : ∀ e ∈ cfg.log, ComponentsOblige e)
    (hswaps : ∀ e ∈ cfg.log, SwapsToAccepted e.state.store e.made.1) :
    ∀ e ∈ cfg.log, e.made.1.Obliging e.made.2 := by
  intro e he
  obtain ⟨t, hexec⟩ := Service.exec_of_reachable hreach e he
  have hkeys := ((keysAccepted_of_swaps hreach hswaps).2 e he).1
  have hinv : StoreInv e.state.store :=
    ((Service.log_monotone (I := fun s => StoreInv s.store) (R := fun _ _ => True)
      (fun _ h => storeInv_of_reachable h) (fun _ _ _ _ _ => trivial) (fun _ _ _ _ _ _ => trivial)
      (fun _ _ _ _ => trivial) hreach).2 e he).2
  obtain ⟨hobliging, hclock⟩ := hcomponents e he
  obtain ⟨call, ⟨o, x⟩, state⟩ := e
  have hexec : ServerExec crypto state o x t := hexec
  cases hexec with
  | store so => exact MemoryPairStore.run_obliging hinv hkeys so
  | dateNow => exact hclock
  | external o x => exact hobliging o x rfl
  | evictStaleIpEntries now => trivial
  | trackIpFailure ipKey now => trivial
  | clearIpFailures pairId => trivial
  | checkAndConsume nonce ttlMs answer => trivial
  | verifySecretHmac key nonce timestamp secretHmac => trivial
  | verifyPayload pubJwk payload signature => trivial

/-- No component has thrown. -/
def made_obliges : Made ServerOp ServerOp.Answer → Bool
  | ⟨.external (.audit _), answer⟩ => Except.isOk answer
  | ⟨.external (.rateLimit _), answer⟩ => Except.isOk answer
  | ⟨.external (.recordAnomaly _), answer⟩ => Except.isOk answer
  | ⟨.external (.getVerdict _ _), answer⟩ => Except.isOk answer
  | _ => true

omit [DecidableEq ι] in
theorem componentsOblige_of {e : ServerEntry ι} (hmade : made_obliges e.made = true)
    (hclock : MemoryPairStore.isTimestamp (.fin (e.state.now : ℤ)) = true) :
    ComponentsOblige e := by
  have hok : ∀ {α : Type} {answer : Except ServerError α}, answer.isOk = true →
      ∃ a, answer = .ok a := by
    intro α answer h
    cases answer with
    | ok a => exact ⟨a, rfl⟩
    | error error => cases h
  refine ⟨fun o x hx => ?_, hclock⟩
  rw [hx] at hmade
  cases o with
  | audit entry => exact hok hmade
  | rateLimit key => exact hok hmade
  | recordAnomaly event => exact hok hmade
  | getVerdict pairId sourceIp => exact hok hmade
  | isInShadowState pairId sourceIp => trivial
  | delay ms => trivial
  | assertAcceptable => trivial
  | generateId kind => trivial

def sampleVerifier : VerifierConfig where
  sigWindowMs := .fin 60000
  lockoutCount := none
  ipRateLimiter := false
  rateLimiter := false
  auditLog := false
  enableShadowMode := none
  enableTarpit := none
  continuityGuard := false
  nonceWindowMs := .fin 60000

/-- A request with this payload. -/
def requestWith (pairId : JsString) (signedData : JsString) : BPCRequestData where
  pairId := some pairId
  signedData := some signedData
  signature := some (Js.lit "signature")
  method := Js.lit "GET"
  path := Js.lit "/"
  version := none
  bodyHash := some (Js.lit "h")
  ip := none

/-- The payload of a request `GET /` of the first pair. -/
def samplePayload : JsString :=
    Js.lit "eyJib2R5X2hhc2giOiJoIiwibWV0aG9kIjoi" ++
      Js.lit "R0VUIiwibm9uY2UiOiIwMDAwMDAwMC0wMDAw" ++
      Js.lit "LTQwMDAtODAwMC0wMDAwMDAwMDAwMDAiLCJw" ++
      Js.lit "YWlyX2lkIjoicGFpcl8wIiwicGF0aCI6Ii8i" ++
      Js.lit "LCJzZWNyZXRfaG1hYyI6Im0iLCJ0aW1lc3Rh" ++ Js.lit "bXAiOjAsInZlcnNpb24iOiIxLjAifQ"

/-- `null`. -/
def nullPayload : JsString :=
  Js.lit "bnVsbA"

/-- A payload whose HMAC is an object with a `toString` of its own. -/
def textlessPayload : JsString :=
    Js.lit "eyJub25jZSI6IjAwMDAwMDAwLTAwMDAtNDAw" ++
      Js.lit "MC04MDAwLTAwMDAwMDAwMDAwMCIsInRpbWVz" ++
      Js.lit "dGFtcCI6MCwic2VjcmV0X2htYWMiOnsidG9T" ++ Js.lit "dHJpbmciOjB9fQ"

def verifiedRun : ServerConfig ℕ :=
  (ServerConfig.start 0).serve ⟨.fin 9, .fin 9⟩ .agreeing 0
    [.registerDirect (sampleRegistration "sample" none),
      .verifyBPCRequest sampleVerifier (requestWith (Js.lit "pair_0") samplePayload)]

/-- A call that has thrown. -/
def threw (call : Call ServerRequest ServerOp ServerOp.Answer ServerError ServerResult) : Bool :=
  match call.rest with
  | .fail _ => true
  | _ => false

/-- Three verifications that throw: of a payload `null`, of an HMAC without a text, and of a request
    of a pair that was rotated to a key of another kind. -/
def throwingRun : ServerConfig ℕ :=
  (ServerConfig.start 0).serve ⟨.fin 9, .fin 9⟩ .agreeing 0
    [.registerDirect (sampleRegistration "sample" none),
      .verifyBPCRequest sampleVerifier (requestWith (Js.lit "pair_0") nullPayload),
      .verifyBPCRequest sampleVerifier (requestWith (Js.lit "pair_0") textlessPayload),
      .handleRotation ⟨.fin 30000, false⟩ sampleRotation,
      .verifyBPCRequest sampleVerifier (requestWith (Js.lit "pair_1") samplePayload)]

end Pair
