import BpcProtocol.Lib.History
import BpcProtocol.Pair.Middleware

set_option autoImplicit false

/-! # The conduct of a verification

What `verifyBPCRequest` does and when: it changes the named pair only and only in few ways, it
consumes a nonce behind all checks, and it tells the anomaly engine of a failure, or puts an address
into shadow state, for one of few causes. Every stage is told by one lemma. -/

namespace Pair

open Fallible Async Prog

/-! ## What a history tells -/

/-- What a call has done so far. -/
abbrev ServerHistory := List (Made ServerOp ServerOp.Answer)

/-- The operation was made and answered so. -/
def Answered (h : ServerHistory) (o : ServerOp) (x : o.Answer) : Prop :=
  (⟨o, x⟩ : Made ServerOp ServerOp.Answer) ∈ h

def StoreOp.isClaim : (o : StoreOp) → o.Answer → Bool
  | .claimSuccessfulUse _ _ _, .ok .claimed => true
  | _, _ => false

def ServerOp.isClaim : (o : ServerOp) → o.Answer → Bool
  | .store o, x => o.isClaim x
  | _, _ => false

/-- No use has been claimed. -/
def Unclaimed (h : ServerHistory) : Prop :=
  ∀ e ∈ h, e.1.isClaim e.2 = false

/-- What an operation tells the anomaly engine. -/
def ServerOp.record : ServerOp → Option AnomalyEvent
  | .external (.recordAnomaly event) => some event
  | _ => none

/-- What the anomaly engine has been told. -/
def recorded (h : ServerHistory) : List AnomalyEvent :=
  h.filterMap fun e => e.1.record

def AnomalyEvent.isFailure : AnomalyEvent → Bool
  | .sigFailure _ => true
  | .sigFailureForIp _ _ => true
  | _ => false

/-- The failures that the anomaly engine has been told of. -/
def failures (h : ServerHistory) : List AnomalyEvent :=
  (recorded h).filter AnomalyEvent.isFailure

section Histories

variable {h h' : ServerHistory} {o : ServerOp} {x : o.Answer}

theorem Answered.mono (hanswered : Answered h o x) (hle : h <+: h') : Answered h' o x :=
  hle.subset hanswered

theorem answered_last : Answered (h ++ [⟨o, x⟩]) o x :=
  List.mem_append_right _ List.mem_cons_self

theorem Unclaimed.concat (hunclaimed : Unclaimed h) (hx : o.isClaim x = false) :
    Unclaimed (h ++ [⟨o, x⟩]) := by
  intro e he
  rcases List.mem_append.mp he with he | he
  · exact hunclaimed e he
  · rw [List.mem_singleton.mp he]
    exact hx

theorem recorded_concat : recorded (h ++ [⟨o, x⟩]) = recorded h ++ o.record.toList := by
  simp only [recorded, List.filterMap_append]
  cases hrecord : o.record with
  | none => simp [hrecord]
  | some event => simp [hrecord]

end Histories

/-! ## Requests -/

/-- The headers are those of the request, and the identity of the pair is well-formed. -/
structure HeadersOf (req : BPCRequestData) (headers : Headers) : Prop where
  pairId : req.pairId = some headers.pairId
  form : pairIdRe headers.pairId = true
  signedData : req.signedData = some headers.signedData
  signature : req.signature = some headers.signature

/-- The pair was found and captured. -/
def Found (h : ServerHistory) (pairId : JsString) (auth : AuthorizationContext) : Prop :=
  ∃ pair : StoredPair, Answered h (.store (.get pairId)) (some pair) ∧
    captureAuthorizationContext pair = .ok auth

/-- The payload is that of the signed data, with a nonce and a time. -/
structure DecodesTo (signedData : JsString) (signed : SignedPayload) : Prop where
  decoded : decodePayload signedData = some signed.payload
  nonce : (stringOf (signed.payload.get (Js.lit "nonce"))).filter uuidRe = some signed.nonce
  timestamp : finiteNumber (signed.payload.get (Js.lit "timestamp")) = some signed.timestamp

theorem number_of_finiteNumber {v : JsValue} {n : JsNumber} (h : finiteNumber v = some n) :
    v = .number n ∧ n.isFinite = true := by
  cases v with
  | number m =>
      rw [finiteNumber] at h
      split_ifs at h with hfinite
      obtain rfl := Option.some.inj h
      exact ⟨rfl, hfinite⟩
  | _ => cases h

/-- The time is within the window around `now`. -/
def FreshAt (cfg : VerifierConfig) (timestamp now : JsNumber) : Prop :=
  cfg.sigWindowMs.lt (now.sub timestamp).abs = false

def ServerOp.ChecksSecret : ServerOp → Prop
  | .verifySecretHmac _ _ _ _ => True
  | _ => False

/-- The secret was checked, and nothing has been done since. -/
def SecretChecked (h : ServerHistory) : Prop :=
  ∃ h₁ e, h = h₁ ++ [e] ∧ e.1.ChecksSecret

/-- The time that the timestamp is compared with: the clock as it is read right behind the check of the
    secret. -/
def ComparedAt (h : ServerHistory) (now : JsNumber) : Prop :=
  ∃ h₁ h₂, SecretChecked h₁ ∧ h = h₁ ++ ⟨.dateNow, now⟩ :: h₂

/-- The payload is about this request and its body. -/
structure BoundTo (req : BPCRequestData) (pairId : JsString) (payload : JsValue) : Prop where
  method : differs payload "method" (.string req.method) = false
  path : differs payload "path" (.string req.path) = false
  pairId : differs payload "pair_id" (.string pairId) = false
  version : differs payload "version" (.string bpcProtocolVersion) = false
  body : ∃ hash, nonEmpty (stringOf (payload.get (Js.lit "body_hash"))) = some hash ∧
    nonEmpty req.bodyHash = some hash

/-- The scope permits the method of the request and that of the payload. -/
def Permits (req : BPCRequestData) (scope : JsString) (payload : JsValue) : Prop :=
  ∃ methods, scopeAllowedMethods scope = some methods ∧ toUpperCase req.method ∈ methods ∧
    ((stringOf (payload.get (Js.lit "method"))).map toUpperCase).getD [] ∈ methods

variable (cfg : VerifierConfig) (req : BPCRequestData)

/-- Every check of the signed payload passes, as far as the call has looked. -/
structure Faultless (h : ServerHistory) (headers : Headers) (auth : AuthorizationContext)
    (signed : SignedPayload) : Prop where
  decodes : DecodesTo headers.signedData signed
  given : truthy (signed.payload.get (Js.lit "secret_hmac")) = true
  keyed : auth.secretHash ≠ []
  secret : ∀ x : Bool, Answered h (.verifySecretHmac auth.secretHash signed.nonce signed.timestamp
    (signed.payload.get (Js.lit "secret_hmac"))) x → x = true
  fresh : ∀ now, ComparedAt h now → FreshAt cfg signed.timestamp now
  bound : BoundTo req headers.pairId signed.payload
  signature : ∀ x : Except ServerError Bool,
    Answered h (.verifyPayload auth.pubJwk signed.payload headers.signature) x → x = .ok true

/-- A check of the signed payload has failed. -/
def Refused (h : ServerHistory) : Prop :=
  ∃ headers auth, HeadersOf req headers ∧ Found h headers.pairId auth ∧
    ∀ signed, ¬Faultless cfg req h headers auth signed

/-- Every check has passed. -/
structure Checked (h : ServerHistory) (headers : Headers) (auth : AuthorizationContext)
    (signed : SignedPayload) (now : JsNumber) : Prop where
  named : HeadersOf req headers
  found : Found h headers.pairId auth
  active : auth.status = .active
  decodes : DecodesTo headers.signedData signed
  secret : Answered h (.verifySecretHmac auth.secretHash signed.nonce signed.timestamp
    (signed.payload.get (Js.lit "secret_hmac"))) true
  clock : Answered h .dateNow now
  fresh : FreshAt cfg signed.timestamp now
  bound : BoundTo req headers.pairId signed.payload
  scope : Permits req auth.scope signed.payload
  signature : Answered h (.verifyPayload auth.pubJwk signed.payload headers.signature) (.ok true)

/-- Why an address may be put into shadow state. -/
inductive Suspected (h : ServerHistory) (pairId ip : JsString) : Prop
  | locked {auth : AuthorizationContext} : Found h pairId auth → auth.status = .locked →
      Suspected h pairId ip
  | threshold {auth : AuthorizationContext} : Found h pairId auth →
      auth.failedSigs.ge (cfg.lockoutCount.getD (.fin 10)) = true → Suspected h pairId ip
  | verdict : Answered h (.external (.getVerdict pairId ip)) (.ok .shadow) → Suspected h pairId ip
  | ghost {auth : AuthorizationContext} : Found h pairId auth → auth.kind = .ghost →
      Suspected h pairId ip

/-! ## What a verification may do -/

/-- The pair is the one that the request names. -/
def Names (pairId : JsString) : Prop :=
  req.pairId = some pairId

/-- The address and the pair are those of the request, and the identity of the pair is well-formed. -/
def Comes (pairId ip : JsString) : Prop :=
  req.pairId = some pairId ∧ pairIdRe pairId = true ∧ ip = req.sourceIp

/-- What the anomaly engine may be told. -/
def MayRecord (h : ServerHistory) : AnomalyEvent → Prop
  | .request pairId => pairId = req.pairId ∧ recorded h = []
  | .denied pairId => pairId = req.pairId
  | .sigFailure pairId => pairId = req.pairId
  | .sigFailureForIp pairId ip => Comes req pairId ip ∧ Refused cfg req h
  | .unknownPair => recorded h = [.request req.pairId]
  | .replay _ => recorded h = [.request req.pairId]
  | .expiredTimestamp _ => recorded h = [.request req.pairId]
  | .enterShadowState pairId ip _ => Comes req pairId ip ∧ Suspected cfg h pairId ip

/-- The operations of the store: they read, or change the pair that the request names. -/
def MayStore : StoreOp → Prop
  | .get _ => True
  | .atomicMutate pairId (.recordFailure _ _ _) => Names req pairId
  | .claimSuccessfulUse pairId _ _ => Names req pairId
  | .expireIfElapsed pairId _ => Names req pairId
  | .expireIfUsageExhausted pairId => Names req pairId
  | .lockIfFailureThreshold pairId _ => Names req pairId
  | _ => False

/-- What a verification may do behind a history. -/
def May (h : ServerHistory) : ServerOp → Prop
  | .external (.recordAnomaly event) => MayRecord cfg req h event
  | .external (.getVerdict pairId ip) => Comes req pairId ip
  | .store o => MayStore req o
  | .checkAndConsume _ _ => ∃ headers auth signed now, Checked cfg req h headers auth signed now
  | _ => True

/-- The anomaly engine has been told `l`, and no use has been claimed. -/
structure Told (l : List AnomalyEvent) (h : ServerHistory) : Prop where
  recorded : recorded h = l
  unclaimed : Unclaimed h

/-- The verification goes on: the engine has been told of the request, and of nothing else. -/
abbrev Going (h : ServerHistory) : Prop :=
  Told [.request req.pairId] h

/-- A denial that is no failure of the signed payload. -/
structure Plain (h : ServerHistory) (r : BPCVerifyResult) : Prop where
  denied : r.ok = false
  unclaimed : Unclaimed h
  failures : failures h = []

/-- A denial for a failure of the signed payload, which the engine is told of. -/
structure Faulted (h : ServerHistory) (r : BPCVerifyResult) : Prop where
  denied : r.ok = false
  unclaimed : Unclaimed h
  failures : ∃ pairId, Comes req pairId req.sourceIp ∧
    failures h = [.sigFailure req.pairId, .sigFailureForIp pairId req.sourceIp]

variable {cfg req} {h h' : ServerHistory}

theorem Found.mono {pairId : JsString} {auth : AuthorizationContext} (hfound : Found h pairId auth)
    (hle : h <+: h') : Found h' pairId auth := by
  obtain ⟨pair, hget, hcapture⟩ := hfound
  exact ⟨pair, hget.mono hle, hcapture⟩

theorem ComparedAt.mono {now : JsNumber} (hcompared : ComparedAt h now) (hle : h <+: h') :
    ComparedAt h' now := by
  obtain ⟨h₁, h₂, hchecked, rfl⟩ := hcompared
  obtain ⟨h₃, rfl⟩ := hle
  exact ⟨h₁, h₂ ++ h₃, hchecked, by rw [List.append_assoc, List.cons_append]⟩

/-- What a call finds out later makes no check pass. -/
theorem Refused.mono (hrefused : Refused cfg req h) (hle : h <+: h') : Refused cfg req h' := by
  obtain ⟨headers, auth, hheaders, hfound, hfault⟩ := hrefused
  refine ⟨headers, auth, hheaders, hfound.mono hle, fun signed hfaultless => hfault signed ?_⟩
  exact
    { decodes := hfaultless.decodes
      given := hfaultless.given
      keyed := hfaultless.keyed
      secret := fun x hx => hfaultless.secret x (hx.mono hle)
      fresh := fun now hnow => hfaultless.fresh now (hnow.mono hle)
      bound := hfaultless.bound
      signature := fun x hx => hfaultless.signature x (hx.mono hle) }

theorem DecodesTo.unique {signedData : JsString} {signed signed' : SignedPayload}
    (hs : DecodesTo signedData signed) (hs' : DecodesTo signedData signed') : signed' = signed := by
  have hpayload := Option.some.inj (hs'.decoded.symm.trans hs.decoded)
  have hnonce := hs'.nonce
  have htimestamp := hs'.timestamp
  rw [hpayload, hs.nonce, Option.some.injEq] at hnonce
  rw [hpayload, hs.timestamp, Option.some.injEq] at htimestamp
  cases signed
  cases signed'
  cases hpayload
  cases hnonce
  cases htimestamp
  rfl

theorem Told.neutral {l : List AnomalyEvent} (htold : Told l h) {o : ServerOp} {x : o.Answer}
    (hrecord : o.record = none) (hclaim : o.isClaim x = false) : Told l (h ++ [⟨o, x⟩]) where
  recorded := by rw [recorded_concat, hrecord, htold.recorded, Option.toList_none, List.append_nil]
  unclaimed := htold.unclaimed.concat hclaim

/-! ## Denials -/

section Denials

variable {registry : RegistryConfig} {α : Type} {l : List AnomalyEvent}
  {Q : ServerHistory → α → Prop}

theorem follows_attempt {p : ServerProg (Except ServerError α)}
    (hp : p.Follows (May cfg req) (fun h' x => ∀ a, x = .ok a → Q h' a) h) :
    (attempt p).Follows (May cfg req) Q h :=
  Follows.bind hp fun _ _ _ hx => follows_lift hx

/-- An operation that the engine is not told of and that claims nothing. -/
theorem Told.perform (htold : Told l h) {o : ServerOp} (hmay : May cfg req h o)
    (hrecord : o.record = none) (hclaim : ∀ x, o.isClaim x = false) :
    (Pair.perform o).Follows (May cfg req) (fun h' x => Told l h' ∧ Answered h' o x) h :=
  ⟨hmay, fun x => ⟨htold.neutral hrecord (hclaim x), answered_last⟩⟩

/-- The same where the operation may throw. -/
theorem Told.attempt (htold : Told l h) {o : ServerOp} {f : o.Answer → Except ServerError α}
    (hmay : May cfg req h o) (hrecord : o.record = none) (hclaim : ∀ x, o.isClaim x = false) :
    (Pair.perform o >>= fun x => Prog.lift (f x)).Follows (May cfg req)
      (fun h' a => Told l h' ∧ ∃ x, Answered h' o x ∧ f x = .ok a) h :=
  Follows.bind (htold.perform hmay hrecord hclaim) fun _ x _ hx =>
    follows_lift fun _ ha => ⟨hx.1, x, hx.2, ha⟩

theorem recordAnomaly_follows (htold : Told l h) {event : AnomalyEvent}
    (hmay : MayRecord cfg req h event) :
    (recordAnomaly event).Follows (May cfg req) (fun h' _ => Told (l ++ [event]) h') h := by
  refine follows_attempt (follows_perform hmay fun x _ _ => ?_)
  refine ⟨?_, htold.unclaimed.concat rfl⟩
  rw [recorded_concat, htold.recorded]
  rfl

theorem writeAudit_follows (htold : Told l h) (auditLog : Bool) (entry : AuditInput) :
    (writeAudit auditLog entry).Follows (May cfg req) (fun h' _ => Told l h') h :=
  follows_ite (fun _ => Follows.mono (htold.attempt trivial rfl fun _ => rfl) fun _ _ _ hx => hx.1)
    fun _ => htold

theorem applyTarpit_follows (htold : Told l h) (verdict : AnomalyVerdict) :
    (applyTarpit verdict).Follows (May cfg req) (fun h' _ => Told l h') h := by
  refine Follows.bind (P := fun h' _ => Told l h') ?_ fun h' _ _ htold => htold
  refine follows_ite (fun _ => ?_) fun _ => htold
  exact Follows.mono (htold.perform trivial rfl fun _ => rfl) fun _ _ _ hx => hx.1

theorem shadowDelay_follows (htold : Told l h) :
    (shadowDelay cfg).Follows (May cfg req) (fun h' _ => Told l h') h :=
  follows_ite (fun _ => applyTarpit_follows htold _) fun _ => htold

/-- The failure is counted against the pair that the request names. -/
theorem recordPairFailure_follows (htold : Told l h) :
    (recordPairFailure registry req).Follows (May cfg req) (fun h' _ => Told l h') h := by
  refine follows_elim _ (fun _ => htold) fun pairId hpair => ?_
  have hnames : Names req pairId := (Option.filter_eq_some_iff.mp hpair).1
  refine Follows.bind (htold.perform trivial rfl fun _ => rfl) fun h₁ now _ ⟨htold, _⟩ => ?_
  refine Follows.bind (htold.perform trivial rfl fun _ => rfl) fun h₂ _ _ ⟨htold, _⟩ => ?_
  refine Follows.bind (htold.perform trivial rfl fun _ => rfl) fun h₃ now _ ⟨htold, _⟩ => ?_
  refine Follows.bind (P := fun h' _ => Told l h') ?_ fun h₄ ipFailures _ htold => ?_
  · refine follows_ite (fun _ => htold) fun _ => ?_
    exact Follows.bind (htold.perform trivial rfl fun _ => rfl) fun _ _ _ hx => hx.1
  · refine Follows.bind (htold.attempt ?_ rfl fun _ => rfl) fun _ _ _ hx => hx.1
    exact hnames

theorem deny_plain (htold : Told l h) (hl : l.filter AnomalyEvent.isFailure = []) (error : String) :
    (deny registry cfg req error false).Follows (May cfg req) Plain h := by
  have hskip : ∀ {h' : ServerHistory} (p : ServerProg Unit), Told (l ++ [.denied req.pairId]) h' →
      (runIf (false = true) p).Follows (May cfg req)
        (fun h' _ => Told (l ++ [.denied req.pairId]) h') h' := fun _ htold => htold
  refine Follows.bind (recordAnomaly_follows htold rfl) fun h₁ _ _ htold => ?_
  refine Follows.bind (hskip _ htold) fun h₂ _ _ htold => ?_
  refine Follows.bind (writeAudit_follows htold _ _) fun h₃ _ _ htold => ?_
  refine Follows.bind (hskip _ htold) fun h₄ _ _ htold => ?_
  refine ⟨rfl, htold.unclaimed, ?_⟩
  rw [failures, htold.recorded, List.filter_append, hl]
  rfl

theorem deny_faulted (htold : Told l h) (hl : l.filter AnomalyEvent.isFailure = [])
    (hrefused : Refused cfg req h) (error : String) :
    (deny registry cfg req error true).Follows (May cfg req) (Faulted req) h := by
  obtain ⟨headers, auth, hheaders, -⟩ := id hrefused
  have hcomes : Comes req headers.pairId req.sourceIp := ⟨hheaders.pairId, hheaders.form, rfl⟩
  have hpair : nonEmpty req.pairId = some headers.pairId := by
    have hform := hheaders.form
    rw [hheaders.pairId, nonEmpty, Option.filter_some, if_pos]
    unfold pairIdRe at hform
    exact (Bool.and_eq_true_iff.mp hform).1
  refine Follows.bind (recordAnomaly_follows htold rfl) fun h₁ _ hle₁ htold => ?_
  refine Follows.bind (P := fun h' _ => Told (l ++ [.denied req.pairId] ++
    [.sigFailure req.pairId] ++ [.sigFailureForIp headers.pairId req.sourceIp]) h') ?_
    fun h₂ _ _ htold => ?_
  · refine Follows.bind (recordAnomaly_follows htold rfl) fun h₂ _ hle₂ htold => ?_
    rw [hpair]
    exact recordAnomaly_follows htold ⟨hcomes, hrefused.mono (hle₁.trans hle₂)⟩
  refine Follows.bind (writeAudit_follows htold _ _) fun h₃ _ _ htold => ?_
  refine Follows.bind (recordPairFailure_follows htold) fun h₄ _ _ htold => ?_
  refine ⟨rfl, htold.unclaimed, headers.pairId, hcomes, ?_⟩
  rw [failures, htold.recorded, List.append_assoc, List.append_assoc, List.filter_append, hl]
  rfl

end Denials

/-! ## Stages that deny without a failure -/

section Stages

variable {registry : RegistryConfig} {α : Type}

theorem deny_going (hgoing : Going req h) (error : String) :
    (deny registry cfg req error false).Follows (May cfg req) Plain h :=
  deny_plain hgoing rfl error

theorem denyIf_follows {c : Prop} [Decidable c] (hgoing : c → Going req h) (error : String) :
    Stage.Follows (May cfg req) (fun h' _ => h' = h ∧ ¬c) Plain
      (denyIf registry cfg req c error false) h :=
  Stage.follows_exitIf fun hc => deny_going (hgoing hc) error

theorem required_follows (hgoing : Going req h) (v : Option α) (error : String) :
    Stage.Follows (May cfg req) (fun h' a => h' = h ∧ v = some a) Plain
      (required registry cfg req v error false) h := by
  cases v with
  | none => exact Stage.follows_exit (deny_going hgoing error)
  | some a => exact Stage.follows_pure ⟨rfl, rfl⟩

theorem onlyIf_follows (hgoing : Going req h) {c : Prop} [Decidable c] {s : VerifyStage Unit}
    (hs : Stage.Follows (May cfg req) (fun h' _ => Going req h') Plain s h) :
    Stage.Follows (May cfg req) (fun h' _ => Going req h') Plain (onlyIf c s) h := by
  unfold onlyIf
  split
  · exact hs
  · exact Stage.follows_pure hgoing

/-- An operation that is awaited while the verification goes on. -/
theorem Told.await {l : List AnomalyEvent} {R : ServerHistory → BPCVerifyResult → Prop}
    (htold : Told l h) {o : ServerOp} (hmay : May cfg req h o) (hrecord : o.record = none)
    (hclaim : ∀ x, o.isClaim x = false) :
    Stage.Follows (May cfg req) (fun h' x => Told l h' ∧ Answered h' o x) R
      (Stage.await (Pair.perform o)) h :=
  Stage.follows_await (htold.perform hmay hrecord hclaim)

theorem checkRate_follows (hgoing : Going req h) (key : JsString) :
    Stage.Follows (May cfg req) (fun h' _ => Going req h') Plain
      (checkRate registry cfg req key) h := by
  refine Stage.Follows.bind (Stage.follows_await (hgoing.attempt trivial rfl fun _ => rfl))
    fun h₁ allowed _ ⟨hgoing, _⟩ => ?_
  refine (denyIf_follows (fun _ => hgoing) _).mono (fun h₂ _ _ hq => ?_) fun _ _ _ hr => hr
  rw [hq.1]
  exact hgoing

theorem checkShadowState_follows (hgoing : Going req h) (pairId : JsString) :
    Stage.Follows (May cfg req) (fun h' _ => Going req h') Plain
      (checkShadowState cfg req pairId) h := by
  refine Stage.Follows.bind (hgoing.await trivial rfl fun _ => rfl) fun h₁ inShadow _ ⟨hgoing, _⟩ => ?_
  refine (Stage.follows_exitIf fun _ => ?_).mono (fun h₂ _ _ hq => ?_) fun _ _ _ hr => hr
  · refine Follows.bind (shadowDelay_follows hgoing) fun h₂ delayMs _ hgoing => ?_
    refine Follows.bind (writeAudit_follows hgoing _ _) fun h₃ _ _ hgoing => ?_
    exact ⟨rfl, hgoing.unclaimed, by rw [failures, hgoing.recorded]; rfl⟩
  · rw [hq.1]
    exact hgoing

theorem beforeHeaders_follows (hgoing : Going req h) :
    Stage.Follows (May cfg req) (fun h' _ => Going req h') Plain
      (beforeHeaders registry cfg req) h := by
  refine Stage.Follows.bind (onlyIf_follows hgoing (checkRate_follows hgoing _))
    fun h₁ _ _ hgoing => ?_
  refine Stage.Follows.bind (onlyIf_follows hgoing (checkShadowState_follows hgoing _))
    fun h₂ _ _ hgoing => ?_
  refine Stage.Follows.bind (onlyIf_follows hgoing (checkRate_follows hgoing _))
    fun h₃ _ _ hgoing => ?_
  refine (denyIf_follows (fun _ => hgoing) _).mono (fun h₄ _ _ hq => ?_) fun _ _ _ hr => hr
  rw [hq.1]
  exact hgoing

theorem readHeaders_follows (hgoing : Going req h) :
    Stage.Follows (May cfg req) (fun h' headers => h' = h ∧ HeadersOf req headers) Plain
      (readHeaders registry cfg req) h := by
  have hthere : ∀ {v : Option JsString} {s}, nonEmpty v = some s → v = some s := fun hv =>
    (Option.filter_eq_some_iff.mp hv).1
  refine Stage.Follows.bind (required_follows hgoing _ _) fun h₁ pairId _ ⟨hh, hpair⟩ => ?_
  subst hh
  refine Stage.Follows.bind (required_follows hgoing _ _) fun h₁ signedData _ ⟨hh, hsigned⟩ => ?_
  subst hh
  refine Stage.Follows.bind (required_follows hgoing _ _) fun h₁ signature _ ⟨hh, hsignature⟩ => ?_
  subst hh
  refine Stage.Follows.bind (denyIf_follows (fun _ => hgoing) _) fun h₁ _ _ ⟨hh, _⟩ => ?_
  subst hh
  refine Stage.Follows.bind (denyIf_follows (fun _ => hgoing) _) fun h₁ _ _ ⟨hh, hform⟩ => ?_
  subst hh
  refine Stage.Follows.bind (denyIf_follows (fun _ => hgoing) _) fun h₁ _ _ ⟨hh, _⟩ => ?_
  subst hh
  exact Stage.follows_pure ⟨rfl, hthere hpair, by simpa using hform, hthere hsigned,
    hthere hsignature⟩

theorem capturePair_follows (hgoing : Going req h) (pairId : JsString) :
    Stage.Follows (May cfg req) (fun h' auth => Going req h' ∧ Found h' pairId auth) Plain
      (capturePair registry cfg req pairId) h := by
  refine Stage.Follows.bind (hgoing.await trivial rfl fun _ => rfl)
    fun h₁ found _ ⟨hgoing, hfound⟩ => ?_
  cases found with
  | none =>
      refine Stage.Follows.bind (P := fun _ _ => False) (Stage.follows_exit ?_) fun _ _ _ hf => hf.elim
      refine Follows.bind (recordAnomaly_follows hgoing hgoing.recorded) fun h₂ _ _ htold => ?_
      exact deny_plain htold rfl _
  | some pair =>
      refine Stage.Follows.bind (P := fun h' p => h' = h₁ ∧ p = pair)
        (Stage.follows_pure ⟨rfl, rfl⟩) fun h₂ p _ ⟨hh, hp⟩ => ?_
      subst hh hp
      exact Stage.follows_await (follows_lift fun auth hauth => ⟨hgoing, p, hfound, hauth⟩)

end Stages

/-! ## The status of the pair -/

section Status

variable {registry : RegistryConfig} {headers : Headers} {auth : AuthorizationContext}

/-- The address is put into shadow state: the engine is told, and no failure with it. -/
theorem enterShadow_follows (hgoing : Going req h) (hheaders : HeadersOf req headers)
    (hsuspected : Suspected cfg h headers.pairId req.sourceIp) (reason : JsString) :
    (recordAnomaly (.enterShadowState headers.pairId req.sourceIp reason)).Follows (May cfg req)
      (fun h' _ => Unclaimed h' ∧ ∃ l, Told l h' ∧ l.filter AnomalyEvent.isFailure = []) h := by
  refine Follows.mono (recordAnomaly_follows hgoing ⟨⟨hheaders.pairId, hheaders.form, rfl⟩,
    hsuspected⟩) fun h' _ _ htold => ⟨htold.unclaimed, _, htold, rfl⟩

theorem Told.plain {l : List AnomalyEvent} (htold : Told l h)
    (hl : l.filter AnomalyEvent.isFailure = []) {r : BPCVerifyResult} (hr : r.ok = false) :
    Plain h r :=
  ⟨hr, htold.unclaimed, by rw [failures, htold.recorded, hl]⟩

theorem denyLocked_follows (hgoing : Going req h) (hheaders : HeadersOf req headers)
    (hfound : Found h headers.pairId auth) (hlocked : auth.status = .locked) :
    (denyLocked registry cfg req headers.pairId).Follows (May cfg req) Plain h := by
  refine follows_ite (fun _ => ?_) fun _ => deny_going hgoing _
  refine Follows.bind (enterShadow_follows hgoing hheaders (.locked hfound hlocked) _)
    fun h₁ _ _ ⟨_, l, htold, hl⟩ => ?_
  refine Follows.bind (shadowDelay_follows htold) fun h₂ delayMs _ htold => ?_
  exact Follows.bind (writeAudit_follows htold _ _) fun h₃ _ _ htold => htold.plain hl rfl

theorem denyAtThreshold_follows (hgoing : Going req h) (hheaders : HeadersOf req headers)
    (hfound : Found h headers.pairId auth)
    (hfailed : auth.failedSigs.ge (cfg.lockoutCount.getD (.fin 10)) = true) :
    (denyAtThreshold registry cfg req headers.pairId (cfg.lockoutCount.getD (.fin 10))).Follows
      (May cfg req) Plain h := by
  refine Follows.bind (hgoing.attempt hheaders.pairId rfl fun _ => rfl)
    fun h₁ locked hle ⟨hgoing, _⟩ => ?_
  have hdeny : ∀ error, (deny registry cfg req error false).Follows (May cfg req) Plain h₁ :=
    fun error => deny_going hgoing error
  refine follows_ite (fun _ => hdeny _) fun _ => follows_ite (fun _ => ?_) fun _ => hdeny _
  refine Follows.bind (enterShadow_follows hgoing hheaders (.threshold (hfound.mono hle) hfailed) _)
    fun h₂ _ _ ⟨_, l, htold, hl⟩ => ?_
  exact Follows.bind (shadowDelay_follows htold) fun h₃ delayMs _ htold => htold.plain hl rfl

theorem denyExpired_follows (hgoing : Going req h) (hheaders : HeadersOf req headers) :
    (denyExpired registry cfg req headers.pairId).Follows (May cfg req) Plain h := by
  refine Follows.bind (hgoing.perform trivial rfl fun _ => rfl) fun h₁ now _ ⟨hgoing, _⟩ => ?_
  refine Follows.bind (hgoing.attempt hheaders.pairId rfl fun _ => rfl)
    fun h₂ marked _ ⟨hgoing, _⟩ => ?_
  exact follows_ite (fun _ => deny_going hgoing _) fun _ => deny_going hgoing _

theorem denyUsedUp_follows (hgoing : Going req h) (hheaders : HeadersOf req headers) :
    (denyUsedUp registry cfg req headers.pairId).Follows (May cfg req) Plain h := by
  refine Follows.bind (hgoing.perform hheaders.pairId rfl fun _ => rfl)
    fun h₁ marked _ ⟨hgoing, _⟩ => ?_
  exact follows_ite (fun _ => deny_going hgoing _) fun _ => deny_going hgoing _

/-- What is exited from without a failure leaves the history of what goes on. -/
theorem exitIf_follows {c : Prop} [Decidable c] {p : ServerProg BPCVerifyResult}
    (hp : c → p.Follows (May cfg req) Plain h) :
    Stage.Follows (May cfg req) (fun h' _ => h' = h ∧ ¬c) Plain (Stage.exitIf c p) h :=
  Stage.follows_exitIf hp

theorem checkStatus_follows (hgoing : Going req h) (hheaders : HeadersOf req headers)
    (hfound : Found h headers.pairId auth) :
    Stage.Follows (May cfg req) (fun h' _ => Going req h' ∧ auth.status = .active) Plain
      (checkStatus registry cfg req headers.pairId auth) h := by
  refine Stage.Follows.bind (denyIf_follows (fun _ => hgoing) _) fun h₁ _ _ ⟨hh, _⟩ => ?_
  subst hh
  refine Stage.Follows.bind (exitIf_follows (denyLocked_follows hgoing hheaders hfound))
    fun h₁ _ _ ⟨hh, _⟩ => ?_
  subst hh
  refine Stage.Follows.bind (denyIf_follows (fun _ => hgoing) _) fun h₁ _ _ ⟨hh, _⟩ => ?_
  subst hh
  refine Stage.Follows.bind (denyIf_follows (fun _ => hgoing) _) fun h₁ _ _ ⟨hh, _⟩ => ?_
  subst hh
  refine Stage.Follows.bind (exitIf_follows (denyAtThreshold_follows hgoing hheaders hfound))
    fun h₁ _ _ ⟨hh, _⟩ => ?_
  subst hh
  refine Stage.Follows.bind (onlyIf_follows hgoing ?_) fun h₂ _ _ hgoing => ?_
  · refine Stage.Follows.bind (hgoing.await trivial rfl fun _ => rfl) fun h₂ now _ ⟨hgoing, _⟩ => ?_
    refine (exitIf_follows fun _ => denyExpired_follows hgoing hheaders).mono
      (fun h₃ _ _ hq => ?_) fun _ _ _ hr => hr
    rw [hq.1]
    exact hgoing
  refine Stage.Follows.bind (exitIf_follows fun _ => denyUsedUp_follows hgoing hheaders)
    fun h₃ _ _ ⟨hh, _⟩ => ?_
  subst hh
  refine (denyIf_follows (fun _ => hgoing) _).mono (fun h₃ _ _ hq => ?_) fun _ _ _ hr => hr
  rw [hq.1]
  exact ⟨hgoing, not_not.mp hq.2⟩

theorem tarpit_follows (hgoing : Going req h) (hheaders : HeadersOf req headers) :
    Stage.Follows (May cfg req) (fun h' _ => Going req h') Plain
      (tarpit registry cfg req headers.pairId) h := by
  unfold tarpit
  split
  · have hmay : May cfg req h (.external (.getVerdict headers.pairId req.sourceIp)) :=
      ⟨hheaders.pairId, hheaders.form, rfl⟩
    refine Stage.Follows.bind (Stage.follows_await (hgoing.attempt hmay rfl fun _ => rfl))
      fun h₁ verdict _ ⟨hgoing, x, hx, hverdict⟩ => ?_
    cases verdict with
    | clean => exact Stage.follows_pure hgoing
    | suspicious => exact Stage.follows_await (applyTarpit_follows hgoing _)
    | attack => exact Stage.follows_exit (deny_going hgoing _)
    | shadow =>
        have hx : Answered h₁ (.external (.getVerdict headers.pairId req.sourceIp)) (.ok .shadow) :=
          hverdict ▸ hx
        refine Stage.follows_exit (Follows.bind
          (enterShadow_follows hgoing hheaders (.verdict hx) _) fun h₂ _ _ ⟨_, l, htold, hl⟩ => ?_)
        exact Follows.bind (applyTarpit_follows htold _) fun h₃ _ _ htold => htold.plain hl rfl
  · exact Stage.follows_pure hgoing

theorem admitPair_follows (hgoing : Going req h) (hheaders : HeadersOf req headers) :
    Stage.Follows (May cfg req)
      (fun h' admitted => Going req h' ∧ Found h' headers.pairId admitted.1 ∧
        admitted.1.status = .active) Plain (admitPair registry cfg req headers.pairId) h := by
  refine Stage.Follows.bind (capturePair_follows hgoing _) fun h₁ auth _ ⟨hgoing, hfound⟩ => ?_
  refine Stage.Follows.bind (checkStatus_follows hgoing hheaders hfound)
    fun h₂ _ hle ⟨hgoing, hactive⟩ => ?_
  refine Stage.Follows.bind (tarpit_follows hgoing hheaders) fun h₃ _ hle₂ hgoing => ?_
  exact Stage.follows_pure ⟨hgoing, (hfound.mono hle).mono hle₂, hactive⟩

end Status

/-! ## The signed payload -/

section Payload

variable {registry : RegistryConfig} {α : Type} {headers : Headers} {auth : AuthorizationContext}
  {signed : SignedPayload}

/-- How the checks of the signed payload deny: for a failure, or for the scope. -/
def Refuses (req : BPCRequestData) (h : ServerHistory) (r : BPCVerifyResult) : Prop :=
  Faulted req h r ∨ Plain h r

/-- What the checks of the signed payload start from. -/
structure Admitted (req : BPCRequestData) (headers : Headers) (auth : AuthorizationContext)
    (h : ServerHistory) : Prop where
  going : Going req h
  named : HeadersOf req headers
  found : Found h headers.pairId auth

theorem Admitted.neutral (hadmitted : Admitted req headers auth h) {o : ServerOp} {x : o.Answer}
    (hrecord : o.record = none) (hclaim : o.isClaim x = false) :
    Admitted req headers auth (h ++ [⟨o, x⟩]) :=
  ⟨hadmitted.going.neutral hrecord hclaim, hadmitted.named,
    hadmitted.found.mono (List.prefix_append h _)⟩

theorem Admitted.deny (hadmitted : Admitted req headers auth h) {l : List AnomalyEvent}
    (htold : Told l h) (hl : l.filter AnomalyEvent.isFailure = [])
    (hfault : ∀ signed, ¬Faultless cfg req h headers auth signed) (error : String) :
    (deny registry cfg req error true).Follows (May cfg req) (Faulted req) h :=
  deny_faulted htold hl ⟨headers, auth, hadmitted.named, hadmitted.found, hfault⟩ error

theorem Admitted.denyIf (hadmitted : Admitted req headers auth h) {c : Prop} [Decidable c]
    (hfault : c → ∀ signed, ¬Faultless cfg req h headers auth signed) {error : String} :
    Stage.Follows (May cfg req) (fun h' _ => h' = h ∧ ¬c) (Faulted req)
      (denyIf registry cfg req c error true) h :=
  Stage.follows_exitIf fun hc => hadmitted.deny hadmitted.going rfl (hfault hc) error

theorem Admitted.required (hadmitted : Admitted req headers auth h) (v : Option α)
    (hfault : v = none → ∀ signed, ¬Faultless cfg req h headers auth signed) {error : String} :
    Stage.Follows (May cfg req) (fun h' a => h' = h ∧ v = some a) (Faulted req)
      (required registry cfg req v error true) h := by
  cases v with
  | none => exact Stage.follows_exit (hadmitted.deny hadmitted.going rfl (hfault rfl) error)
  | some a => exact Stage.follows_pure ⟨rfl, rfl⟩

/-- What throws goes no further. -/
theorem require_follows {c : Prop} [Decidable c] {e : ServerError}
    {R : ServerHistory → BPCVerifyResult → Prop} :
    Stage.Follows (May cfg req) (fun h' _ => h' = h) R
      (Stage.await (Prog.lift (require c e))) h :=
  Stage.follows_await (follows_lift fun _ _ => rfl)

theorem readPayload_follows (hadmitted : Admitted req headers auth h) :
    Stage.Follows (May cfg req) (fun h' signed => h' = h ∧ DecodesTo headers.signedData signed)
      (Faulted req) (readPayload registry cfg req headers.signedData) h := by
  refine Stage.Follows.bind (hadmitted.required _ (fun hnone signed hf => ?_))
    fun h₁ payload _ ⟨hh, hdecoded⟩ => ?_
  · rw [hf.decodes.decoded] at hnone
    cases hnone
  subst hh
  refine Stage.Follows.bind require_follows fun h₁ _ _ hh => ?_
  subst hh
  -- another reading of the data has the same payload
  have hpayload : ∀ signed, Faultless cfg req h₁ headers auth signed → signed.payload = payload :=
    fun signed hf => Option.some.inj (hf.decodes.decoded.symm.trans hdecoded)
  refine Stage.Follows.bind (hadmitted.required _ (fun hnone signed hf => ?_))
    fun h₂ nonce _ ⟨hh, hnonce⟩ => ?_
  · rw [← hpayload signed hf, hf.decodes.nonce] at hnone
    cases hnone
  subst hh
  refine Stage.Follows.bind (hadmitted.required _ (fun hnone signed hf => ?_))
    fun h₂ timestamp _ ⟨hh, htimestamp⟩ => ?_
  · rw [← hpayload signed hf, hf.decodes.timestamp] at hnone
    cases hnone
  exact Stage.follows_pure ⟨hh, hdecoded, hnonce, htimestamp⟩

section Decoded

variable (hdecodes : DecodesTo headers.signedData signed)
include hdecodes

/-- What the payload fails, every reading of it fails. -/
theorem not_faultless_of (hfault : ¬Faultless cfg req h headers auth signed) :
    ∀ signed', ¬Faultless cfg req h headers auth signed' := by
  intro signed' hf
  rw [hdecodes.unique hf.decodes] at hf
  exact hfault hf

theorem checkSecretHmac_follows (hadmitted : Admitted req headers auth h) :
    Stage.Follows (May cfg req) (fun h' _ => Admitted req headers auth h' ∧
        SecretChecked h' ∧ Answered h' (.verifySecretHmac auth.secretHash signed.nonce
          signed.timestamp (signed.payload.get (Js.lit "secret_hmac"))) true)
      (Faulted req) (checkSecretHmac registry cfg req auth signed) h := by
  refine Stage.Follows.bind (hadmitted.denyIf
    (fun hc => not_faultless_of hdecodes fun hf => ?_)) fun h₁ _ _ ⟨hh, _⟩ => ?_
  · rw [hf.given] at hc
    cases hc
  subst hh
  refine Stage.Follows.bind (hadmitted.denyIf
    (fun hc => not_faultless_of hdecodes fun hf => hf.keyed hc)) fun h₁ _ _ ⟨hh, _⟩ => ?_
  subst hh
  refine Stage.Follows.bind require_follows fun h₁ _ _ hh => ?_
  subst hh
  refine Stage.Follows.bind (P := fun h' x => Admitted req headers auth h' ∧ SecretChecked h' ∧
    Answered h' (.verifySecretHmac auth.secretHash signed.nonce signed.timestamp
      (signed.payload.get (Js.lit "secret_hmac"))) x)
    (Stage.follows_await ⟨trivial, fun x => ⟨hadmitted.neutral rfl rfl, ⟨h₁, _, rfl, trivial⟩,
      answered_last⟩⟩)
    fun h₂ valid _ ⟨hadmitted, hchecked, hvalid⟩ => ?_
  refine (hadmitted.denyIf (fun hc => not_faultless_of hdecodes fun hf => ?_)).mono
    (fun h₃ _ _ hq => ?_) fun _ _ _ hr => hr
  · rw [hf.secret valid hvalid] at hc
    cases hc
  · rw [hq.1]
    exact ⟨hadmitted, hchecked, Bool.of_not_eq_false hq.2 ▸ hvalid⟩

theorem checkTimestamp_follows (hadmitted : Admitted req headers auth h)
    (hchecked : SecretChecked h) :
    Stage.Follows (May cfg req) (fun h' now => Admitted req headers auth h' ∧
        Answered h' .dateNow now ∧ FreshAt cfg signed.timestamp now ∧ ComparedAt h' now)
      (Faulted req) (checkTimestamp registry cfg req headers.pairId signed.timestamp) h := by
  refine Stage.Follows.bind (P := fun h' now => Admitted req headers auth h' ∧
    Answered h' .dateNow now ∧ ComparedAt h' now)
    (Stage.follows_await ⟨trivial, fun x => ⟨hadmitted.neutral rfl rfl, answered_last,
      ⟨h, [], hchecked, rfl⟩⟩⟩)
    fun h₁ now _ ⟨hadmitted, hnow, hcompared⟩ => ?_
  refine Stage.Follows.bind (Stage.follows_exitIf fun hc => ?_) fun h₂ _ _ ⟨hh, hfresh⟩ => ?_
  · refine Follows.bind (recordAnomaly_follows hadmitted.going hadmitted.going.recorded)
      fun h₂ _ hle htold => ?_
    have hfault : ¬Faultless cfg req h₂ headers auth signed := fun hf => by
      have hfresh := hf.fresh now (hcompared.mono hle)
      rw [FreshAt, hc] at hfresh
      cases hfresh
    exact deny_faulted htold rfl ⟨headers, auth, hadmitted.named,
      hadmitted.found.mono hle, not_faultless_of hdecodes hfault⟩ _
  · rw [hh]
    exact Stage.follows_pure ⟨hadmitted, hnow, Bool.of_not_eq_true hfresh, hcompared⟩

/-- The method, the path, the pair and the version of the payload are those of the request. -/
theorem checkBinding_follows (hadmitted : Admitted req headers auth h) :
    Stage.Follows (May cfg req) (fun h' _ => h' = h ∧
        differs signed.payload "method" (.string req.method) = false ∧
        differs signed.payload "path" (.string req.path) = false ∧
        differs signed.payload "pair_id" (.string headers.pairId) = false ∧
        differs signed.payload "version" (.string bpcProtocolVersion) = false)
      (Faulted req) (checkBinding registry cfg req headers.pairId signed.payload) h := by
  refine Stage.Follows.bind (hadmitted.denyIf
    (fun hc => not_faultless_of hdecodes fun hf => ?_)) fun h₁ _ _ ⟨hh, hboth⟩ => ?_
  · rw [hf.bound.method, hf.bound.path] at hc
    exact hc.elim (fun hc => nomatch hc) fun hc => nomatch hc
  subst hh
  refine Stage.Follows.bind (hadmitted.denyIf
    (fun hc => not_faultless_of hdecodes fun hf => ?_)) fun h₁ _ _ ⟨hh, hpair⟩ => ?_
  · rw [hf.bound.pairId] at hc
    cases hc
  subst hh
  refine (hadmitted.denyIf (fun hc => not_faultless_of hdecodes fun hf => ?_)).mono
    (fun h₂ _ _ hq => ?_) fun _ _ _ hr => hr
  · rw [hf.bound.version] at hc
    cases hc
  · obtain ⟨hmethod, hpath⟩ := not_or.mp hboth
    exact ⟨hq.1, Bool.of_not_eq_true hmethod, Bool.of_not_eq_true hpath, Bool.of_not_eq_true hpair,
      Bool.of_not_eq_true hq.2⟩

theorem checkBodyHash_follows (hadmitted : Admitted req headers auth h) :
    Stage.Follows (May cfg req) (fun h' _ => h' = h ∧
        ∃ hash, nonEmpty (stringOf (signed.payload.get (Js.lit "body_hash"))) = some hash ∧
          nonEmpty req.bodyHash = some hash)
      (Faulted req) (checkBodyHash registry cfg req signed.payload) h := by
  refine Stage.Follows.bind (hadmitted.required _
    (fun hnone => not_faultless_of hdecodes fun hf => ?_))
    fun h₁ payloadBodyHash _ ⟨hh, hpayload⟩ => ?_
  · obtain ⟨hash, hhash, -⟩ := hf.bound.body
    rw [hhash] at hnone
    cases hnone
  subst hh
  refine Stage.Follows.bind (hadmitted.required _
    (fun hnone => not_faultless_of hdecodes fun hf => ?_))
    fun h₁ bodyHash _ ⟨hh, hbody⟩ => ?_
  · obtain ⟨hash, -, hhash⟩ := hf.bound.body
    rw [hhash] at hnone
    cases hnone
  subst hh
  refine (hadmitted.denyIf (fun hc => not_faultless_of hdecodes fun hf => ?_)).mono
    (fun h₂ _ _ hq => ?_) fun _ _ _ hr => hr
  · obtain ⟨hash, hhash, hhash'⟩ := hf.bound.body
    rw [hpayload, Option.some.injEq] at hhash
    rw [hbody, Option.some.injEq] at hhash'
    exact hc (hhash.trans hhash'.symm)
  · exact ⟨hq.1, bodyHash, not_not.mp hq.2 ▸ hpayload, hbody⟩

theorem checkSignature_follows (hadmitted : Admitted req headers auth h) :
    Stage.Follows (May cfg req) (fun h' _ => Admitted req headers auth h' ∧
        Answered h' (.verifyPayload auth.pubJwk signed.payload headers.signature) (.ok true))
      (Faulted req) (checkSignature registry cfg req auth signed.payload headers.signature) h := by
  refine Stage.Follows.bind (P := fun h' valid => Admitted req headers auth h' ∧
    ∃ x : Except ServerError Bool,
      Answered h' (.verifyPayload auth.pubJwk signed.payload headers.signature) x ∧
        x.toOption.getD false = valid)
    (Stage.follows_await ⟨trivial, fun x => ⟨hadmitted.neutral rfl rfl, x, answered_last, rfl⟩⟩)
    fun h₁ valid _ ⟨hadmitted, x, hx, hvalid⟩ => ?_
  refine (hadmitted.denyIf (fun hc => not_faultless_of hdecodes fun hf => ?_)).mono
    (fun h₂ _ _ hq => ?_) fun _ _ _ hr => hr
  · rw [← hvalid, hf.signature x hx] at hc
    cases hc
  · rw [hq.1]
    have htrue := Bool.of_not_eq_false hq.2
    rw [← hvalid] at htrue
    cases x with
    | error e => cases htrue
    | ok b =>
        have hb : b = true := htrue
        exact ⟨hadmitted, hb ▸ hx⟩

end Decoded

theorem checkScope_follows (hadmitted : Admitted req headers auth h) (scope : JsString)
    (payload : JsValue) :
    Stage.Follows (May cfg req) (fun h' _ => h' = h ∧ Permits req scope payload)
      Plain (checkScope registry cfg req scope payload) h := by
  refine Stage.Follows.bind (P := fun h' methods => h' = h ∧ scopeAllowedMethods scope = some methods)
    ?_ fun h₁ methods _ ⟨hh, hmethods⟩ => ?_
  · cases hmethods : scopeAllowedMethods scope with
    | none => exact Stage.follows_exit (deny_going hadmitted.going _)
    | some methods => exact Stage.follows_pure ⟨rfl, rfl⟩
  subst hh
  refine (Stage.follows_exitIf fun _ => deny_going hadmitted.going _).mono
    (fun h₂ _ _ hq => ?_) fun _ _ _ hr => hr
  obtain ⟨hmethod, hpayload⟩ := not_or.mp hq.2
  exact ⟨hq.1, methods, hmethods, not_not.mp hmethod, not_not.mp hpayload⟩

theorem verifySignedPayload_follows (hadmitted : Admitted req headers auth h)
    (hactive : auth.status = .active) :
    Stage.Follows (May cfg req)
      (fun h' verified => Going req h' ∧ Checked cfg req h' headers auth verified.1 verified.2 ∧
        ComparedAt h' verified.2)
      (Refuses req) (verifySignedPayload registry cfg req headers auth) h := by
  refine Stage.Follows.bind ((readPayload_follows hadmitted).exits_mono fun _ _ => .inl)
    fun h₁ signed _ ⟨hh, hdecodes⟩ => ?_
  subst hh
  refine Stage.Follows.bind ((checkSecretHmac_follows hdecodes hadmitted).exits_mono fun _ _ => .inl)
    fun h₂ _ _ ⟨hadmitted, hchecked, hsecret⟩ => ?_
  refine Stage.Follows.bind
    ((checkTimestamp_follows hdecodes hadmitted hchecked).exits_mono fun _ _ => .inl)
    fun h₃ now hle₃ ⟨hadmitted, hnow, hfresh, hcompared⟩ => ?_
  refine Stage.Follows.bind ((checkBinding_follows hdecodes hadmitted).exits_mono fun _ _ => .inl)
    fun h₄ _ _ ⟨hh, hmethod, hpath, hpair, hversion⟩ => ?_
  subst hh
  refine Stage.Follows.bind ((checkScope_follows hadmitted _ _).exits_mono fun _ _ => .inr)
    fun h₄ _ _ ⟨hh, hscope⟩ => ?_
  subst hh
  refine Stage.Follows.bind ((checkBodyHash_follows hdecodes hadmitted).exits_mono fun _ _ => .inl)
    fun h₄ _ _ ⟨hh, hbody⟩ => ?_
  subst hh
  refine Stage.Follows.bind ((checkSignature_follows hdecodes hadmitted).exits_mono fun _ _ => .inl)
    fun h₅ _ hle₅ ⟨hadmitted, hsignature⟩ => ?_
  refine Stage.follows_pure ⟨hadmitted.going, ?_, hcompared.mono hle₅⟩
  exact
    { named := hadmitted.named
      found := hadmitted.found
      active := hactive
      decodes := hdecodes
      secret := (hsecret.mono hle₃).mono hle₅
      clock := hnow.mono hle₅
      fresh := hfresh
      bound := ⟨hmethod, hpath, hpair, hversion, hbody⟩
      scope := hscope
      signature := hsignature }

end Payload

/-! ## The nonce and the use -/

section Acceptance

variable {registry : RegistryConfig} {headers : Headers} {auth : AuthorizationContext}
  {signed : SignedPayload} {now : JsNumber}

theorem Checked.mono (hchecked : Checked cfg req h headers auth signed now) (hle : h <+: h') :
    Checked cfg req h' headers auth signed now :=
  { hchecked with
    found := hchecked.found.mono hle
    secret := hchecked.secret.mono hle
    clock := hchecked.clock.mono hle
    signature := hchecked.signature.mono hle }

theorem checkContinuity_follows (hgoing : Going req h) :
    Stage.Follows (May cfg req) (fun h' _ => Going req h') Plain
      (checkContinuity registry cfg req) h := by
  refine Stage.Follows.bind (hgoing.await trivial rfl fun _ => rfl) fun h₁ _ _ ⟨hgoing, _⟩ => ?_
  refine (denyIf_follows (fun _ => hgoing) _).mono (fun h₂ _ _ hq => ?_) fun _ _ _ hr => hr
  rw [hq.1]
  exact hgoing

theorem consumeNonce_follows (hgoing : Going req h)
    (hchecked : Checked cfg req h headers auth signed now) (pairId nonce : JsString) :
    Stage.Follows (May cfg req) (fun h' _ => Going req h') Plain
      (consumeNonce registry cfg req pairId nonce) h := by
  have hmay : May cfg req h (.checkAndConsume nonce cfg.nonceWindowMs) :=
    ⟨headers, auth, signed, now, hchecked⟩
  refine Stage.Follows.bind (hgoing.await hmay rfl fun _ => rfl) fun h₁ answer _ ⟨hgoing, _⟩ => ?_
  have hdeny : ∀ error, Stage.Follows (May cfg req) (fun h' _ => Going req h') Plain
      (Stage.exit (deny registry cfg req error false) : VerifyStage Unit) h₁ := fun error =>
    Stage.follows_exit (deny_going hgoing error)
  unfold onNonceAnswer
  split
  · refine Stage.follows_exit
      (Follows.bind (recordAnomaly_follows hgoing hgoing.recorded) fun h₂ _ _ htold => ?_)
    exact deny_plain htold rfl _
  · exact Stage.follows_pure hgoing
  · exact hdeny _
  · exact hdeny _

theorem denyGhost_follows (hgoing : Going req h) (hheaders : HeadersOf req headers)
    (hfound : Found h headers.pairId auth) (hghost : auth.kind = .ghost) :
    (denyGhost cfg req headers.pairId auth now).Follows (May cfg req) Plain h := by
  refine Follows.bind (enterShadow_follows hgoing hheaders (.ghost hfound hghost) _)
    fun h₁ _ _ ⟨_, l, htold, hl⟩ => ?_
  refine Follows.bind (shadowDelay_follows htold) fun h₂ delayMs _ htold => ?_
  exact Follows.bind (writeAudit_follows htold _ _) fun h₃ _ _ htold => htold.plain hl rfl

/-- What is answered anything but `claimed` claims nothing. -/
theorem claimSuccessfulUseOutcome_follows (hgoing : Going req h) {pairId : JsString}
    (hnames : Names req pairId) (at_ : JsNumber) (expected : SuccessfulUsePolicy) :
    (claimSuccessfulUseOutcome pairId at_ expected).Follows (May cfg req)
      (fun h' outcome => recorded h' = [.request req.pairId] ∧
        (outcome ≠ .claimed → Going req h')) h := by
  refine Follows.bind (P := fun h' outcome => recorded h' = [.request req.pairId] ∧
    (outcome ≠ .claimed → Going req h')) ?_ fun h₁ outcome _ ⟨hrecorded, hclaim⟩ => ?_
  · refine follows_attempt (follows_perform hnames fun x outcome hx => ?_)
    have hrecorded : recorded (h ++ [⟨.store (.claimSuccessfulUse pairId at_ expected), x⟩]) =
        [.request req.pairId] := by
      rw [recorded_concat, hgoing.recorded]
      rfl
    refine ⟨hrecorded, fun hne => ⟨hrecorded, hgoing.unclaimed.concat ?_⟩⟩
    subst hx
    cases outcome with
    | claimed => exact absurd rfl hne
    | _ => rfl
  · refine Follows.bind (P := fun h' _ => recorded h' = [.request req.pairId] ∧
      (outcome ≠ .claimed → Going req h')) ?_ fun h₂ _ _ hpost => hpost
    refine follows_ite (fun hclaimed => follows_perform trivial fun x => ?_)
      fun _ => ⟨hrecorded, hclaim⟩
    exact ⟨by rw [recorded_concat, hrecorded]; rfl, fun hne => absurd hclaimed hne⟩

theorem claimUse_follows (hgoing : Going req h) {pairId : JsString} (hnames : Names req pairId) :
    Stage.Follows (May cfg req) (fun h' _ => recorded h' = [.request req.pairId]) Plain
      (claimUse registry cfg req pairId auth) h := by
  refine Stage.Follows.bind (hgoing.await trivial rfl fun _ => rfl) fun h₁ at_ _ ⟨hgoing, _⟩ => ?_
  refine Stage.Follows.bind
    (Stage.follows_await (claimSuccessfulUseOutcome_follows hgoing hnames at_ _))
    fun h₂ useClaim _ ⟨hrecorded, hclaim⟩ => ?_
  refine Stage.Follows.bind (denyIf_follows (fun hc => hclaim (by rw [hc]; decide)) _)
    fun h₃ _ _ ⟨hh, _⟩ => ?_
  subst hh
  refine Stage.Follows.bind (denyIf_follows (fun hc => hclaim (by rw [hc]; decide)) _)
    fun h₃ _ _ ⟨hh, _⟩ => ?_
  subst hh
  refine (denyIf_follows (fun hc => hclaim hc) _).mono (fun h₃ _ _ hq => ?_) fun _ _ _ hr => hr
  rw [hq.1]
  exact hrecorded

theorem acceptOnce_follows (hgoing : Going req h)
    (hchecked : Checked cfg req h headers auth signed now) (nonce : JsString) :
    Stage.Follows (May cfg req) (fun h' _ => recorded h' = [.request req.pairId]) Plain
      (acceptOnce registry cfg req headers.pairId nonce auth now) h := by
  refine Stage.Follows.bind (onlyIf_follows hgoing (checkContinuity_follows hgoing))
    fun h₁ _ hle₁ hgoing => ?_
  refine Stage.Follows.bind (consumeNonce_follows hgoing (hchecked.mono hle₁) _ _)
    fun h₂ _ hle₂ hgoing => ?_
  refine Stage.Follows.bind (exitIf_follows (denyGhost_follows hgoing hchecked.named
    ((hchecked.found.mono hle₁).mono hle₂))) fun h₃ _ _ ⟨hh, _⟩ => ?_
  subst hh
  exact claimUse_follows hgoing hchecked.named.pairId

end Acceptance

/-! ## The verification -/

/-- How a verification ends, by what it has told the engine. -/
inductive Concluded (req : BPCRequestData) (h : ServerHistory) (r : BPCVerifyResult) : Prop
  | authorized : r.ok = true → recorded h = [.request req.pairId] → Concluded req h r
  | plain : Plain h r → Concluded req h r
  | faulted : Faulted req h r → Concluded req h r

theorem recordRequest_follows :
    (recordAnomaly (.request req.pairId)).Follows (May cfg req) (fun h' _ => Going req h') [] :=
  recordAnomaly_follows ⟨rfl, fun _ he => absurd he List.not_mem_nil⟩ ⟨rfl, rfl⟩

/-- **Everything that a verification does it may do.** -/
theorem verifyBPCRequest_follows (registry : RegistryConfig) :
    (verifyBPCRequest registry cfg req).Follows (May cfg req) (Concluded req) [] := by
  refine Stage.follows_toProg (Stage.Follows.bind (Stage.follows_await recordRequest_follows)
    fun h₁ _ _ hgoing => ?_)
  refine Stage.Follows.bind ((beforeHeaders_follows hgoing).exits_mono fun _ _ => .plain)
    fun h₂ _ _ hgoing => ?_
  refine Stage.Follows.bind ((readHeaders_follows hgoing).exits_mono fun _ _ => .plain)
    fun h₃ headers _ ⟨hh, hheaders⟩ => ?_
  subst hh
  refine Stage.Follows.bind ((admitPair_follows hgoing hheaders).exits_mono fun _ _ => .plain)
    fun h₄ admitted _ ⟨hgoing, hfound, hactive⟩ => ?_
  have hadmitted : Admitted req headers admitted.1 h₄ := ⟨hgoing, hheaders, hfound⟩
  refine Stage.Follows.bind ((verifySignedPayload_follows hadmitted hactive).exits_mono
    fun _ _ hr => hr.elim .faulted .plain) fun h₅ verified _ ⟨hgoing, hchecked, _⟩ => ?_
  refine Stage.Follows.bind ((acceptOnce_follows hgoing hchecked _).exits_mono fun _ _ => .plain)
    fun h₆ _ _ hrecorded => ?_
  refine Stage.Follows.bind (P := fun h' _ => recorded h' = [.request req.pairId])
    (Stage.follows_await (follows_ite (fun _ => ?_) fun _ => hrecorded)) fun h₇ _ _ hrecorded => ?_
  · refine follows_attempt (follows_perform trivial fun x a _ => ?_)
    rw [recorded_concat, hrecorded]
    rfl
  · exact Stage.follows_pure (.authorized rfl hrecorded)

end Pair
