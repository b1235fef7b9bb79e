import BpcProtocol.Pair.Effects

set_option autoImplicit false

/-! # The operations of each call

Which operations of the store the programs make: no verification adds a pair, unlocks one or
rotates one, and each of these operations stands in one method only. -/

namespace Pair

open Fallible Async Prog

/-- The operations that a verification may make. -/
def ServerOp.OfVerifier : ServerOp → Prop
  | .store (.get _) => True
  | .store (.atomicMutate _ (.recordFailure _ _ _)) => True
  | .store (.claimSuccessfulUse _ _ _) => True
  | .store (.expireIfElapsed _ _) => True
  | .store (.expireIfUsageExhausted _) => True
  | .store (.lockIfFailureThreshold _ _) => True
  | .store _ => False
  | _ => True

/-- The operations that no pair is unlocked by. -/
def ServerOp.UnlocksNot : ServerOp → Prop
  | .store (.atomicMutate _ .unlock) => False
  | _ => True

/-- The operations that only read the store. -/
def ServerOp.Reads : ServerOp → Prop
  | .store (.get _) => True
  | .store _ => False
  | _ => True

/-- The operations of a rotation. -/
def ServerOp.OfRotation : ServerOp → Prop
  | .store (.get _) => True
  | .store (.rotatePair _ _) => True
  | .store _ => False
  | _ => True

/-- The operations that neither tell the anomaly engine anything nor ask it for a verdict. -/
def ServerOp.Silent : ServerOp → Prop
  | .external (.recordAnomaly _) => False
  | .external (.getVerdict _ _) => False
  | _ => True

/-- Such operations of another kind. -/
def ServerOp.Silently (P : ServerOp → Prop) (o : ServerOp) : Prop :=
  P o ∧ o.Silent

theorem ServerOp.Reads.ofRotation {o : ServerOp} (h : o.Reads) : o.OfRotation := by
  unfold ServerOp.OfRotation
  split
  · trivial
  · trivial
  · next hget hrotate =>
      unfold ServerOp.Reads at h
      split at h
      · next pairId heq => exact (hget pairId (ServerOp.store.inj heq)).elim
      · exact h.elim
      · next hstore => exact (hstore _ rfl).elim
  · trivial

theorem ServerOp.OfRotation.unlocksNot {o : ServerOp} (h : o.OfRotation) : o.UnlocksNot := by
  unfold ServerOp.UnlocksNot
  split
  · exact h
  · trivial

theorem ServerOp.OfVerifier.unlocksNot {o : ServerOp} (h : o.OfVerifier) : o.UnlocksNot := by
  unfold ServerOp.UnlocksNot
  split
  · exact h
  · trivial

section Uses

variable {P : ServerOp → Prop} {α : Type}

theorem uses_attempt {p : ServerProg (Except ServerError α)} (h : p.Uses P) :
    (attempt p).Uses P :=
  h.bind fun _ => uses_lift

theorem uses_perform' {o : ServerOp} (h : P o) : (perform o).Uses P :=
  uses_perform.mpr h

theorem uses_of_silently {p : ServerProg α} (h : p.Uses (ServerOp.Silently P)) : p.Uses P :=
  h.mono fun _ ho => ho.1

theorem uses_runIf {c : Prop} [Decidable c] {p : ServerProg Unit} (h : p.Uses P) :
    (runIf c p).Uses P :=
  uses_ite h trivial

end Uses

/-! ## The registry -/

theorem requestPairing_uses (cfg : RegistryConfig) (registration : PairRegistration) :
    (requestPairing cfg registration).Uses (ServerOp.Silently ServerOp.UnlocksNot) :=
  uses_lift.bind fun _ => (uses_perform' ⟨trivial, trivial⟩).bind fun _ => uses_lift.bind fun _ =>
    (uses_perform' ⟨trivial, trivial⟩).bind fun _ => (uses_perform' ⟨trivial, trivial⟩).bind fun _ =>
      (uses_perform' ⟨trivial, trivial⟩).bind fun _ => trivial

theorem approvePairing_uses (cfg : RegistryConfig) (token : JsString) :
    (approvePairing cfg token).Uses (ServerOp.Silently ServerOp.UnlocksNot) :=
  (uses_perform' ⟨trivial, trivial⟩).bind fun pending => uses_elim pending trivial fun _ =>
    (uses_perform' ⟨trivial, trivial⟩).bind fun _ => (uses_perform' ⟨trivial, trivial⟩).bind fun _ =>
      (uses_attempt (uses_perform' ⟨trivial, trivial⟩)).bind fun _ => uses_lift.bind fun _ => trivial

theorem claimSuccessfulUseOutcome_uses (pairId : JsString) (at_ : JsNumber)
    (expected : SuccessfulUsePolicy) :
    (claimSuccessfulUseOutcome pairId at_ expected).Uses (ServerOp.Silently ServerOp.OfVerifier) :=
  (uses_attempt (uses_perform' ⟨trivial, trivial⟩)).bind fun _ =>
    (uses_runIf (uses_perform' ⟨trivial, trivial⟩)).bind fun _ => trivial

theorem claimSuccessfulUse_uses (pairId : JsString) :
    (claimSuccessfulUse pairId).Uses (ServerOp.Silently ServerOp.OfVerifier) :=
  (uses_perform' ⟨trivial, trivial⟩).bind fun pair => uses_elim pair trivial fun _ =>
    (uses_perform' ⟨trivial, trivial⟩).bind fun _ => uses_lift.bind fun _ =>
      (claimSuccessfulUseOutcome_uses pairId _ _).bind fun _ => trivial

theorem recordFailedActivity_uses (cfg : RegistryConfig) (pairId ip : JsString) :
    (recordFailedActivity cfg pairId ip).Uses (ServerOp.Silently ServerOp.OfVerifier) := by
  refine (uses_perform' ⟨trivial, trivial⟩).bind fun now => ?_
  refine Uses.bind ?_ fun ipFailures =>
    (uses_attempt (uses_perform' ⟨trivial, trivial⟩)).bind fun _ => trivial
  exact uses_ite trivial ((uses_perform' ⟨trivial, trivial⟩).bind fun _ => trivial)

theorem recordActivity_uses (cfg : RegistryConfig) (pairId : JsString) (success : Bool)
    (ip : JsString) : (recordActivity cfg pairId success ip).Uses (ServerOp.Silently ServerOp.OfVerifier) := by
  refine (uses_perform' ⟨trivial, trivial⟩).bind fun now => (uses_perform' ⟨trivial, trivial⟩).bind fun _ => ?_
  exact uses_ite ((claimSuccessfulUse_uses pairId).bind fun _ => trivial)
    (recordFailedActivity_uses cfg pairId ip)

theorem markExpired_uses (pairId : JsString) (now : JsNumber) :
    (markExpired pairId now).Uses (ServerOp.Silently ServerOp.OfVerifier) :=
  uses_attempt (uses_perform' ⟨trivial, trivial⟩)

theorem markUsageExpired_uses (pairId : JsString) :
    (markUsageExpired pairId).Uses (ServerOp.Silently ServerOp.OfVerifier) :=
  uses_perform' ⟨trivial, trivial⟩

theorem ensureLocked_uses (pairId : JsString) (minimumFailures : JsNumber) :
    (ensureLocked pairId minimumFailures).Uses (ServerOp.Silently ServerOp.OfVerifier) :=
  uses_attempt (uses_perform' ⟨trivial, trivial⟩)

/-! ## Rotation -/

theorem writeAudit_uses {P : ServerOp → Prop} (auditLog : Bool) (entry : AuditInput)
    (h : P (.external (.audit entry))) : (writeAudit auditLog entry).Uses P :=
  uses_ite (uses_attempt (uses_perform' h)) trivial

section RotationUses

variable (cfg : RotationConfig) (req : RotationRequest)

theorem rotationFails_uses (error : String) :
    (rotationFails cfg req error).Uses (ServerOp.Silently ServerOp.Reads) :=
  (uses_runIf (writeAudit_uses _ _ ⟨trivial, trivial⟩)).bind fun _ => trivial

theorem rejectIf_uses (c : Prop) [Decidable c] (error : String) :
    (ExceptT.run (rejectIf cfg req c error)).Uses (ServerOp.Silently ServerOp.Reads) :=
  Stage.uses_exitIf (rotationFails_uses cfg req error)

theorem needed_uses {α : Type} (v : Option α) (error : String) :
    (ExceptT.run (needed cfg req v error)).Uses (ServerOp.Silently ServerOp.Reads) := by
  cases v with
  | none => exact Stage.uses_exit (rotationFails_uses cfg req error)
  | some a => exact Stage.uses_pure a

theorem validateRotation_uses :
    (ExceptT.run (validateRotation cfg req)).Uses (ServerOp.Silently ServerOp.Reads) := by
  refine Stage.uses_bind (rejectIf_uses cfg req _ _) fun _ => ?_
  refine Stage.uses_bind (rejectIf_uses cfg req _ _) fun _ => ?_
  refine Stage.uses_bind (rejectIf_uses cfg req _ _) fun _ => ?_
  refine Stage.uses_bind (rejectIf_uses cfg req _ _) fun _ => ?_
  refine Stage.uses_bind (rejectIf_uses cfg req _ _) fun _ => ?_
  exact Stage.uses_bind (Stage.uses_await (uses_perform' ⟨trivial, trivial⟩)) fun _ =>
    rejectIf_uses cfg req _ _

theorem lookupOldPair_uses :
    (ExceptT.run (lookupOldPair cfg req)).Uses (ServerOp.Silently ServerOp.Reads) := by
  refine Stage.uses_bind (Stage.uses_await (uses_perform' ⟨trivial, trivial⟩)) fun found => ?_
  refine Stage.uses_bind (needed_uses cfg req found _) fun oldPair => ?_
  exact Stage.uses_bind (rejectIf_uses cfg req _ _) fun _ => Stage.uses_pure oldPair

theorem verifySignature_uses {P : ServerOp → Prop} (pubJwk : JsonWebKey) (payload : JsValue)
    (signature : JsString) (h : P (.verifyPayload pubJwk payload signature)) :
    (verifySignature pubJwk payload signature).Uses P :=
  (uses_perform' h).bind fun _ => trivial

theorem verifyRotationPayload_uses (oldPair : StoredPair) :
    (ExceptT.run (verifyRotationPayload cfg req oldPair)).Uses (ServerOp.Silently ServerOp.Reads) := by
  refine Stage.uses_bind (needed_uses cfg req _ _) fun payload => ?_
  refine Stage.uses_bind (Stage.uses_await (verifySignature_uses _ _ _ ⟨trivial, trivial⟩)) fun valid => ?_
  refine Stage.uses_bind (rejectIf_uses cfg req _ _) fun _ => ?_
  exact Stage.uses_bind (Stage.uses_await uses_lift) fun _ => Stage.uses_pure payload

theorem bindRotationPayload_uses (payload : JsValue) :
    (ExceptT.run (bindRotationPayload cfg req payload)).Uses (ServerOp.Silently ServerOp.Reads) := by
  refine Stage.uses_bind (rejectIf_uses cfg req _ _) fun _ => ?_
  refine Stage.uses_bind (rejectIf_uses cfg req _ _) fun _ => ?_
  refine Stage.uses_bind (rejectIf_uses cfg req _ _) fun _ => ?_
  refine Stage.uses_bind (needed_uses cfg req _ _) fun json => ?_
  refine Stage.uses_bind (needed_uses cfg req _ _) fun jwk => ?_
  exact Stage.uses_bind (rejectIf_uses cfg req _ _) fun _ => rejectIf_uses cfg req _ _

theorem commitRotation_uses (oldPair : StoredPair) :
    (ExceptT.run (commitRotation cfg req oldPair)).Uses (ServerOp.Silently ServerOp.OfRotation) := by
  refine Stage.uses_bind (Stage.uses_await (uses_perform' ⟨trivial, trivial⟩)) fun newPairId => ?_
  refine Stage.uses_bind (Stage.uses_await (uses_perform' ⟨trivial, trivial⟩)) fun created => ?_
  refine Stage.uses_bind (Stage.uses_await (uses_perform' ⟨trivial, trivial⟩)) fun rotated => ?_
  refine Stage.uses_bind ?_ fun _ => Stage.uses_pure newPairId
  exact (rejectIf_uses cfg req _ _).mono fun o ho => ⟨ho.1.ofRotation, ho.2⟩

theorem auditRotation_uses (newPairId : JsString) :
    (auditRotation cfg req newPairId).Uses (ServerOp.Silently ServerOp.Reads) :=
  (writeAudit_uses _ _ ⟨trivial, trivial⟩).bind fun _ => writeAudit_uses _ _ ⟨trivial, trivial⟩

theorem handleRotation_uses : (handleRotation cfg req).Uses (ServerOp.Silently ServerOp.OfRotation) := by
  have hreads : ∀ {α : Type} {s : RotationStage α}, (ExceptT.run s).Uses (ServerOp.Silently ServerOp.Reads) →
      (ExceptT.run s).Uses (ServerOp.Silently ServerOp.OfRotation) := fun h => h.mono fun o ho => ⟨ho.1.ofRotation, ho.2⟩
  refine Stage.uses_toProg (Stage.uses_bind (hreads (validateRotation_uses cfg req)) fun _ => ?_)
  refine Stage.uses_bind (hreads (lookupOldPair_uses cfg req)) fun oldPair => ?_
  refine Stage.uses_bind (hreads (verifyRotationPayload_uses cfg req oldPair)) fun payload => ?_
  refine Stage.uses_bind (hreads (bindRotationPayload_uses cfg req payload)) fun _ => ?_
  refine Stage.uses_bind (commitRotation_uses cfg req oldPair) fun newPairId => ?_
  refine Stage.uses_bind (Stage.uses_await ?_) fun _ => Stage.uses_pure _
  exact (auditRotation_uses cfg req newPairId).mono fun o ho => ⟨ho.1.ofRotation, ho.2⟩

end RotationUses

/-! ## Verification -/

section VerifierUses

variable (registry : RegistryConfig) (cfg : VerifierConfig) (req : BPCRequestData)

theorem recordAnomaly_uses (event : AnomalyEvent) :
    (recordAnomaly event).Uses ServerOp.OfVerifier :=
  uses_attempt (uses_perform' trivial)

theorem deny_uses (error : String) (doSigFail : Bool) :
    (deny registry cfg req error doSigFail).Uses ServerOp.OfVerifier := by
  refine (recordAnomaly_uses _).bind fun _ => ?_
  refine (uses_runIf ((recordAnomaly_uses _).bind fun _ => ?_)).bind fun _ => ?_
  · exact uses_elim _ trivial fun pairId => recordAnomaly_uses _
  refine (writeAudit_uses _ _ trivial).bind fun _ => ?_
  refine (uses_runIf ?_).bind fun _ => trivial
  exact uses_elim _ trivial fun pairId => uses_of_silently (recordActivity_uses registry pairId false req.sourceIp)

theorem denyIf_uses (c : Prop) [Decidable c] (error : String) (doSigFail : Bool) :
    (ExceptT.run (denyIf registry cfg req c error doSigFail)).Uses ServerOp.OfVerifier :=
  Stage.uses_exitIf (deny_uses registry cfg req error doSigFail)

theorem required_uses {α : Type} (v : Option α) (error : String) (doSigFail : Bool) :
    (ExceptT.run (required registry cfg req v error doSigFail)).Uses ServerOp.OfVerifier := by
  cases v with
  | none => exact Stage.uses_exit (deny_uses registry cfg req error doSigFail)
  | some a => exact Stage.uses_pure a

theorem onlyIf_uses (c : Prop) [Decidable c] {s : VerifyStage Unit}
    (h : (ExceptT.run s).Uses ServerOp.OfVerifier) :
    (ExceptT.run (onlyIf c s)).Uses ServerOp.OfVerifier := by
  unfold onlyIf
  split
  · exact h
  · exact Stage.uses_pure ()

theorem applyTarpit_uses (verdict : AnomalyVerdict) :
    (applyTarpit verdict).Uses ServerOp.OfVerifier :=
  (uses_runIf (uses_perform' trivial)).bind fun _ => trivial

theorem shadowDelay_uses : (shadowDelay cfg).Uses ServerOp.OfVerifier :=
  uses_ite (applyTarpit_uses .shadow) trivial

theorem checkRate_uses (key : JsString) :
    (ExceptT.run (checkRate registry cfg req key)).Uses ServerOp.OfVerifier :=
  Stage.uses_bind (Stage.uses_await (uses_attempt (uses_perform' trivial))) fun _ =>
    denyIf_uses registry cfg req _ _ _

theorem checkShadowState_uses (pairId : JsString) :
    (ExceptT.run (checkShadowState cfg req pairId)).Uses ServerOp.OfVerifier := by
  refine Stage.uses_bind (Stage.uses_await (uses_perform' trivial)) fun _ =>
    Stage.uses_exitIf ((shadowDelay_uses cfg).bind fun _ => ?_)
  exact (writeAudit_uses _ _ trivial).bind fun _ => trivial

theorem beforeHeaders_uses :
    (ExceptT.run (beforeHeaders registry cfg req)).Uses ServerOp.OfVerifier := by
  refine Stage.uses_bind (onlyIf_uses _ (checkRate_uses registry cfg req _)) fun _ => ?_
  refine Stage.uses_bind (onlyIf_uses _ (checkShadowState_uses cfg req _)) fun _ => ?_
  refine Stage.uses_bind (onlyIf_uses _ (checkRate_uses registry cfg req _)) fun _ => ?_
  exact denyIf_uses registry cfg req _ _ _

theorem readHeaders_uses :
    (ExceptT.run (readHeaders registry cfg req)).Uses ServerOp.OfVerifier := by
  refine Stage.uses_bind (required_uses registry cfg req _ _ _) fun pairId => ?_
  refine Stage.uses_bind (required_uses registry cfg req _ _ _) fun signedData => ?_
  refine Stage.uses_bind (required_uses registry cfg req _ _ _) fun signature => ?_
  refine Stage.uses_bind (denyIf_uses registry cfg req _ _ _) fun _ => ?_
  refine Stage.uses_bind (denyIf_uses registry cfg req _ _ _) fun _ => ?_
  exact Stage.uses_bind (denyIf_uses registry cfg req _ _ _) fun _ => Stage.uses_pure _

theorem capturePair_uses (pairId : JsString) :
    (ExceptT.run (capturePair registry cfg req pairId)).Uses ServerOp.OfVerifier := by
  refine Stage.uses_bind (Stage.uses_await (uses_perform' trivial)) fun found => ?_
  refine Stage.uses_bind ?_ fun pair => Stage.uses_await uses_lift
  cases found with
  | none =>
      exact Stage.uses_exit ((recordAnomaly_uses _).bind fun _ => deny_uses registry cfg req _ _)
  | some pair => exact Stage.uses_pure pair

theorem denyLocked_uses (pairId : JsString) :
    (denyLocked registry cfg req pairId).Uses ServerOp.OfVerifier := by
  refine uses_ite ((recordAnomaly_uses _).bind fun _ => ?_) (deny_uses registry cfg req _ _)
  exact (shadowDelay_uses cfg).bind fun _ => (writeAudit_uses _ _ trivial).bind fun _ => trivial

theorem denyAtThreshold_uses (pairId : JsString) (lockoutCount : JsNumber) :
    (denyAtThreshold registry cfg req pairId lockoutCount).Uses ServerOp.OfVerifier := by
  refine (uses_of_silently (ensureLocked_uses pairId lockoutCount)).bind fun _ => ?_
  refine uses_ite (deny_uses registry cfg req _ _) (uses_ite ?_ (deny_uses registry cfg req _ _))
  exact (recordAnomaly_uses _).bind fun _ => (shadowDelay_uses cfg).bind fun _ => trivial

theorem denyExpired_uses (pairId : JsString) :
    (denyExpired registry cfg req pairId).Uses ServerOp.OfVerifier := by
  refine (uses_perform' trivial).bind fun now => (uses_of_silently (markExpired_uses pairId now)).bind fun _ => ?_
  exact uses_ite (deny_uses registry cfg req _ _) (deny_uses registry cfg req _ _)

theorem checkExpiry_uses (pairId : JsString) (expiresAt : JsNumber) :
    (ExceptT.run (checkExpiry registry cfg req pairId expiresAt)).Uses ServerOp.OfVerifier :=
  Stage.uses_bind (Stage.uses_await (uses_perform' trivial)) fun _ =>
    Stage.uses_exitIf (denyExpired_uses registry cfg req pairId)

theorem denyUsedUp_uses (pairId : JsString) :
    (denyUsedUp registry cfg req pairId).Uses ServerOp.OfVerifier :=
  (uses_of_silently (markUsageExpired_uses pairId)).bind fun _ =>
    uses_ite (deny_uses registry cfg req _ _) (deny_uses registry cfg req _ _)

theorem checkStatus_uses (pairId : JsString) (auth : AuthorizationContext) :
    (ExceptT.run (checkStatus registry cfg req pairId auth)).Uses ServerOp.OfVerifier := by
  refine Stage.uses_bind (denyIf_uses registry cfg req _ _ _) fun _ => ?_
  refine Stage.uses_bind (Stage.uses_exitIf (denyLocked_uses registry cfg req pairId)) fun _ => ?_
  refine Stage.uses_bind (denyIf_uses registry cfg req _ _ _) fun _ => ?_
  refine Stage.uses_bind (denyIf_uses registry cfg req _ _ _) fun _ => ?_
  refine Stage.uses_bind
    (Stage.uses_exitIf (denyAtThreshold_uses registry cfg req pairId _)) fun _ => ?_
  refine Stage.uses_bind (onlyIf_uses _ (checkExpiry_uses registry cfg req pairId _)) fun _ => ?_
  refine Stage.uses_bind (Stage.uses_exitIf (denyUsedUp_uses registry cfg req pairId)) fun _ => ?_
  exact denyIf_uses registry cfg req _ _ _

theorem tarpit_uses (pairId : JsString) :
    (ExceptT.run (tarpit registry cfg req pairId)).Uses ServerOp.OfVerifier := by
  unfold tarpit
  split
  · refine Stage.uses_bind (Stage.uses_await (uses_attempt (uses_perform' trivial)))
      fun verdict => ?_
    cases verdict with
    | clean => exact Stage.uses_pure _
    | suspicious => exact Stage.uses_await (applyTarpit_uses _)
    | shadow =>
        exact Stage.uses_exit ((recordAnomaly_uses _).bind fun _ =>
          (applyTarpit_uses _).bind fun _ => trivial)
    | attack => exact Stage.uses_exit (deny_uses registry cfg req _ _)
  · exact Stage.uses_pure _

theorem admitPair_uses (pairId : JsString) :
    (ExceptT.run (admitPair registry cfg req pairId)).Uses ServerOp.OfVerifier := by
  refine Stage.uses_bind (capturePair_uses registry cfg req pairId) fun auth => ?_
  refine Stage.uses_bind (checkStatus_uses registry cfg req pairId auth) fun _ => ?_
  exact Stage.uses_bind (tarpit_uses registry cfg req pairId) fun _ => Stage.uses_pure _

theorem readPayload_uses (signedData : JsString) :
    (ExceptT.run (readPayload registry cfg req signedData)).Uses ServerOp.OfVerifier := by
  refine Stage.uses_bind (required_uses registry cfg req _ _ _) fun payload => ?_
  refine Stage.uses_bind (Stage.uses_await uses_lift) fun _ => ?_
  refine Stage.uses_bind (required_uses registry cfg req _ _ _) fun nonce => ?_
  exact Stage.uses_bind (required_uses registry cfg req _ _ _) fun timestamp => Stage.uses_pure _

theorem checkSecretHmac_uses (auth : AuthorizationContext) (signed : SignedPayload) :
    (ExceptT.run (checkSecretHmac registry cfg req auth signed)).Uses ServerOp.OfVerifier := by
  refine Stage.uses_bind (denyIf_uses registry cfg req _ _ _) fun _ => ?_
  refine Stage.uses_bind (denyIf_uses registry cfg req _ _ _) fun _ => ?_
  refine Stage.uses_bind (Stage.uses_await uses_lift) fun _ => ?_
  refine Stage.uses_bind (Stage.uses_await (uses_perform' trivial)) fun _ => ?_
  exact denyIf_uses registry cfg req _ _ _

theorem checkTimestamp_uses (pairId : JsString) (timestamp : JsNumber) :
    (ExceptT.run (checkTimestamp registry cfg req pairId timestamp)).Uses ServerOp.OfVerifier := by
  refine Stage.uses_bind (Stage.uses_await (uses_perform' trivial)) fun now => ?_
  refine Stage.uses_bind (Stage.uses_exitIf ?_) fun _ => Stage.uses_pure now
  exact (recordAnomaly_uses _).bind fun _ => deny_uses registry cfg req _ _

theorem checkBinding_uses (pairId : JsString) (payload : JsValue) :
    (ExceptT.run (checkBinding registry cfg req pairId payload)).Uses ServerOp.OfVerifier := by
  refine Stage.uses_bind (denyIf_uses registry cfg req _ _ _) fun _ => ?_
  exact Stage.uses_bind (denyIf_uses registry cfg req _ _ _) fun _ =>
    denyIf_uses registry cfg req _ _ _

theorem checkScope_uses (scope : JsString) (payload : JsValue) :
    (ExceptT.run (checkScope registry cfg req scope payload)).Uses ServerOp.OfVerifier :=
  Stage.uses_bind (required_uses registry cfg req _ _ _) fun _ =>
    denyIf_uses registry cfg req _ _ _

theorem checkBodyHash_uses (payload : JsValue) :
    (ExceptT.run (checkBodyHash registry cfg req payload)).Uses ServerOp.OfVerifier := by
  refine Stage.uses_bind (required_uses registry cfg req _ _ _) fun _ => ?_
  exact Stage.uses_bind (required_uses registry cfg req _ _ _) fun _ =>
    denyIf_uses registry cfg req _ _ _

theorem checkSignature_uses (auth : AuthorizationContext) (payload : JsValue)
    (signature : JsString) :
    (ExceptT.run (checkSignature registry cfg req auth payload signature)).Uses
      ServerOp.OfVerifier :=
  Stage.uses_bind (Stage.uses_await (verifySignature_uses _ _ _ trivial)) fun _ =>
    denyIf_uses registry cfg req _ _ _

theorem verifySignedPayload_uses (headers : Headers) (auth : AuthorizationContext) :
    (ExceptT.run (verifySignedPayload registry cfg req headers auth)).Uses
      ServerOp.OfVerifier := by
  refine Stage.uses_bind (readPayload_uses registry cfg req _) fun signed => ?_
  refine Stage.uses_bind (checkSecretHmac_uses registry cfg req auth signed) fun _ => ?_
  refine Stage.uses_bind (checkTimestamp_uses registry cfg req _ _) fun now => ?_
  refine Stage.uses_bind (checkBinding_uses registry cfg req _ _) fun _ => ?_
  refine Stage.uses_bind (checkScope_uses registry cfg req _ _) fun _ => ?_
  refine Stage.uses_bind (checkBodyHash_uses registry cfg req _) fun _ => ?_
  exact Stage.uses_bind (checkSignature_uses registry cfg req _ _ _) fun _ => Stage.uses_pure _

theorem consumeNonce_uses (pairId nonce : JsString) :
    (ExceptT.run (consumeNonce registry cfg req pairId nonce)).Uses ServerOp.OfVerifier := by
  refine Stage.uses_bind (Stage.uses_await (uses_perform' trivial)) fun answer => ?_
  unfold onNonceAnswer
  split
  · exact Stage.uses_exit ((recordAnomaly_uses _).bind fun _ => deny_uses registry cfg req _ _)
  · exact Stage.uses_pure ()
  · exact Stage.uses_exit (deny_uses registry cfg req _ _)
  · exact Stage.uses_exit (deny_uses registry cfg req _ _)

theorem denyGhost_uses (pairId : JsString) (auth : AuthorizationContext) (now : JsNumber) :
    (denyGhost cfg req pairId auth now).Uses ServerOp.OfVerifier :=
  (recordAnomaly_uses _).bind fun _ => (shadowDelay_uses cfg).bind fun _ =>
    (writeAudit_uses _ _ trivial).bind fun _ => trivial

theorem claimUse_uses (pairId : JsString) (auth : AuthorizationContext) :
    (ExceptT.run (claimUse registry cfg req pairId auth)).Uses ServerOp.OfVerifier := by
  refine Stage.uses_bind (Stage.uses_await (uses_perform' trivial)) fun at_ => ?_
  refine Stage.uses_bind (Stage.uses_await (uses_of_silently (claimSuccessfulUseOutcome_uses pairId at_ _)))
    fun useClaim => ?_
  refine Stage.uses_bind (denyIf_uses registry cfg req _ _ _) fun _ => ?_
  exact Stage.uses_bind (denyIf_uses registry cfg req _ _ _) fun _ =>
    denyIf_uses registry cfg req _ _ _

theorem acceptOnce_uses (pairId nonce : JsString) (auth : AuthorizationContext) (now : JsNumber) :
    (ExceptT.run (acceptOnce registry cfg req pairId nonce auth now)).Uses ServerOp.OfVerifier := by
  refine Stage.uses_bind (onlyIf_uses _ ?_) fun _ => ?_
  · exact Stage.uses_bind (Stage.uses_await (uses_perform' trivial)) fun _ =>
      denyIf_uses registry cfg req _ _ _
  refine Stage.uses_bind (consumeNonce_uses registry cfg req pairId nonce) fun _ => ?_
  refine Stage.uses_bind (Stage.uses_exitIf (denyGhost_uses cfg req pairId auth now)) fun _ => ?_
  exact claimUse_uses registry cfg req pairId auth

theorem verifyBPCRequest_uses :
    (verifyBPCRequest registry cfg req).Uses ServerOp.OfVerifier := by
  refine Stage.uses_toProg
    (Stage.uses_bind (Stage.uses_await (recordAnomaly_uses _)) fun _ => ?_)
  refine Stage.uses_bind (beforeHeaders_uses registry cfg req) fun _ => ?_
  refine Stage.uses_bind (readHeaders_uses registry cfg req) fun headers => ?_
  refine Stage.uses_bind (admitPair_uses registry cfg req _) fun admitted => ?_
  refine Stage.uses_bind (verifySignedPayload_uses registry cfg req _ _) fun verified => ?_
  refine Stage.uses_bind (acceptOnce_uses registry cfg req _ _ _ _) fun _ => ?_
  exact Stage.uses_bind (Stage.uses_await (writeAudit_uses _ _ trivial)) fun _ =>
    Stage.uses_pure _

end VerifierUses

/-! ## Unlocking -/

/-- Only the call `unlock(pairId)` unlocks a pair, and only that one. -/
def ServerRequest.Allows (r : ServerRequest) : ServerOp → Prop
  | .store (.atomicMutate pairId .unlock) => r = .unlock pairId
  | _ => True

theorem ServerOp.UnlocksNot.allowed {o : ServerOp} (h : o.UnlocksNot) (r : ServerRequest) :
    r.Allows o := by
  unfold ServerRequest.Allows
  split
  · exact h.elim
  · trivial

/-- The call is a verification. -/
def ServerRequest.IsVerification : ServerRequest → Prop
  | .verifyBPCRequest _ _ => True
  | _ => False

/-- Verifications only have to do with the anomaly engine. -/
theorem program_silently (registry : RegistryConfig) (r : ServerRequest) :
    (r.program registry).Uses fun o => r.Allows o ∧ (r.IsVerification ∨ o.Silent) := by
  have hnot : ∀ {α : Type} {p : ServerProg α} (f : α → ServerResult),
      p.Uses (ServerOp.Silently ServerOp.UnlocksNot) →
        (f <$> p).Uses fun o => r.Allows o ∧ (r.IsVerification ∨ o.Silent) :=
    fun f h => (h.mono fun o ho => ⟨ho.1.allowed r, .inr ho.2⟩).map
  have hverifier : ∀ {α : Type} {p : ServerProg α} (f : α → ServerResult),
      p.Uses (ServerOp.Silently ServerOp.OfVerifier) →
        (f <$> p).Uses fun o => r.Allows o ∧ (r.IsVerification ∨ o.Silent) :=
    fun f h => hnot f (h.mono fun o ho => ⟨ho.1.unlocksNot, ho.2⟩)
  cases r with
  | requestPairing registration => exact hnot _ (requestPairing_uses registry registration)
  | approvePairing token => exact hnot _ (approvePairing_uses registry token)
  | registerDirect registration =>
      exact hnot _ ((requestPairing_uses registry registration).bind fun token =>
        approvePairing_uses registry token)
  | revoke pairId =>
      exact hnot _ ((uses_attempt (uses_perform' ⟨trivial, trivial⟩)).bind fun _ => trivial)
  | recordActivity pairId success ip =>
      exact hverifier _ (recordActivity_uses registry pairId success ip)
  | claimSuccessfulUse pairId => exact hverifier _ (claimSuccessfulUse_uses pairId)
  | claimSuccessfulUseOutcome pairId at_ expected =>
      exact hverifier _ (claimSuccessfulUseOutcome_uses pairId at_ expected)
  | markExpired pairId now => exact hverifier _ (markExpired_uses pairId now)
  | markUsageExpired pairId => exact hverifier _ (markUsageExpired_uses pairId)
  | ensureLocked pairId minimumFailures =>
      exact hverifier _ (ensureLocked_uses pairId minimumFailures)
  | unlock pairId =>
      have hop : (ServerRequest.unlock pairId).Allows (.store (.atomicMutate pairId .unlock)) := rfl
      exact Uses.map ((uses_attempt (uses_perform' ⟨hop, .inr trivial⟩)).bind fun _ => trivial)
  | updatePair pairId updates => exact hnot _ (uses_attempt (uses_perform' ⟨trivial, trivial⟩))
  | handleRotation cfg req =>
      exact hnot _ ((handleRotation_uses cfg req).mono fun o ho => ⟨ho.1.unlocksNot, ho.2⟩)
  | verifyBPCRequest cfg req =>
      exact Uses.map ((verifyBPCRequest_uses registry cfg req).mono fun o ho =>
        ⟨ho.unlocksNot.allowed _, .inl trivial⟩)

theorem program_uses (registry : RegistryConfig) (r : ServerRequest) :
    (r.program registry).Uses r.Allows :=
  (program_silently registry r).mono fun _ ho => ho.1

end Pair
