import BpcProtocol.Pair.FailsClosed
import BpcProtocol.Wire.Exchange

set_option autoImplicit false

/-! # Agreement of client and server

The checks of `verifyBPCRequest`, up to the signature, over a request that a client has signed: they
pass it where the path arrives as it was signed, and never otherwise. -/

namespace Pair

open Fallible Async

variable (registry : RegistryConfig) (cfg : VerifierConfig) (req : BPCRequestData)

/-! ## The checks -/

/-- `verifyBPCRequest`, up to the check of the signature. -/
def checkRequest :
    VerifyStage (Headers × (AuthorizationContext × JsNumber) × SignedPayload × JsNumber) := do
  Stage.await (recordAnomaly (.request req.pairId))
  beforeHeaders registry cfg req
  let headers ← readHeaders registry cfg req
  let admitted ← admitPair registry cfg req headers.pairId
  let verified ← verifySignedPayload registry cfg req headers admitted.1
  pure (headers, admitted, verified)

/-- What follows the check of the signature. -/
def acceptRequest
    (checked : Headers × (AuthorizationContext × JsNumber) × SignedPayload × JsNumber) :
    VerifyStage BPCVerifyResult := do
  acceptOnce registry cfg req checked.1.pairId checked.2.2.1.nonce checked.2.1.1 checked.2.2.2
  Stage.await (writeAudit cfg.auditLog
    { action := .verifyPass, pairId := some checked.1.pairId, method := some req.method
      path := some req.path, ip := req.ip })
  pure (authorized checked.1.pairId checked.2.1.1 checked.2.2.2 checked.2.1.2)

/-- A verification consists of the checks and of what follows them. -/
theorem verifyBPCRequest_eq :
    verifyBPCRequest registry cfg req =
      Stage.toProg (checkRequest registry cfg req >>= acceptRequest registry cfg req) := by
  unfold checkRequest verifyBPCRequest
  simp only [Stage.bind_assoc]
  rfl

/-! ## Stages that go on -/

section Passing

variable {registry cfg req} {α : Type} {A : (o : ServerOp) → o.Answer → Prop}
  {R : BPCVerifyResult → Prop}

theorem passes_exitIf {c : Prop} [Decidable c] {p : ServerProg BPCVerifyResult} (h : ¬c) :
    Stage.Ensures A (fun _ => True) R (Stage.exitIf c p) :=
  (Stage.ensures_exitIf fun hc => absurd hc h).mono fun _ _ => trivial

theorem passes_denyIf {c : Prop} [Decidable c] {error : String} {doSigFail : Bool} (h : ¬c) :
    Stage.Ensures A (fun _ => True) R (denyIf registry cfg req c error doSigFail) :=
  passes_exitIf h

theorem passes_required {v : Option α} {a : α} {error : String} {doSigFail : Bool}
    (h : v = some a) :
    Stage.Ensures A (fun b => b = a) R (required registry cfg req v error doSigFail) := by
  subst h
  exact Stage.ensures_pure rfl

theorem passes_onlyIf {c : Prop} [Decidable c] {s : VerifyStage Unit}
    (h : c → Stage.Ensures A (fun _ => True) R s) :
    Stage.Ensures A (fun _ => True) R (onlyIf c s) := by
  unfold onlyIf
  split
  · next hc => exact h hc
  · exact Stage.ensures_pure trivial

/-- An operation of a component that is known not to throw. -/
theorem passes_attempt {p : ServerProg (Except ServerError α)} {Q : α → Prop}
    (h : p.Ensures A fun x => ∃ a, x = .ok a ∧ Q a) :
    Stage.Ensures A Q R (Stage.await (attempt p)) := by
  refine Stage.ensures_await (Prog.Ensures.bind h ?_)
  rintro x ⟨a, hx, ha⟩
  exact Prog.ensures_lift hx ha

/-- The program is awaited and its result satisfies `Q`. -/
theorem passes_await {p : ServerProg α} {Q : α → Prop} (h : p.Ensures A Q) :
    Stage.Ensures A Q R (Stage.await p : VerifyStage α) :=
  Stage.ensures_await h

end Passing

/-! ## Stages that do not -/

variable {registry cfg req}

/-- A payload about another path does not get past the binding. -/
theorem verifySignedPayload_stops {headers : Headers} (auth : AuthorizationContext)
    (h : ∀ payload, decodePayload headers.signedData = some payload →
      payloadReadable payload = true ∧ differs payload "path" (.string req.path) = true) :
    GoesOn (fun _ => False) (verifySignedPayload registry cfg req headers auth) := by
  refine Stage.Ensures.bind (readPayload_decodes registry cfg req
    fun payload hdecode => (h payload hdecode).1) fun signed hsigned => ?_
  refine Stage.Ensures.bind (checkSecretHmac_goesOn registry cfg req auth hsigned.2) fun _ _ => ?_
  refine Stage.Ensures.bind (checkTimestamp_goesOn registry cfg req _ _) fun now _ => ?_
  refine Stage.Ensures.bind (P := fun _ => False) ?_ fun _ hfalse => hfalse.elim
  refine Stage.Ensures.bind (denyIf_goesOn registry cfg req _ _ _) fun _ hsame => ?_
  exact absurd (.inr (h _ hsigned.1).2) hsame

end Pair

namespace Wire

open Fallible Async Pair

/-! ## The HMAC -/

section Hmac

variable {PrivateKey PublicKey : Type} {c : WebCrypto PrivateKey PublicKey}

theorem hmacPattern_b64url {buf : Bytes} (h : b64url buf ≠ []) : hmacPattern (b64url buf) = true := by
  have hne : 61 ∉ b64url buf := by
    intro hmem
    have hclass := b64url_class buf 61 hmem
    revert hclass
    decide
  have hdigits : ((b64url buf).reverse.dropWhile (· == 61)).reverse = b64url buf := by
    have hdrop : (b64url buf).reverse.dropWhile (· == 61) = (b64url buf).reverse := by
      rw [List.dropWhile_eq_self_iff]
      intro hlen hfirst
      refine hne ?_
      rw [beq_iff_eq] at hfirst
      rw [← hfirst, ← List.mem_reverse]
      exact List.getElem_mem hlen
    rw [hdrop, List.reverse_reverse]
  simp only [hmacPattern, hdigits, Bool.and_eq_true, List.all_eq_true]
  exact ⟨by simpa using h, b64url_class buf⟩

/-- What `hmacDerive` has made verifies. -/
theorem verifySecretHmac_derived (htag : ∀ key data, (c.hmac key data).length = 32)
    {key nonce tag : JsString} {timestamp : JsNumber}
    (h : hmacDerive c key (nonce ++ Js.numberText timestamp) = .ok tag) :
    tag ≠ [] ∧ key ≠ [] ∧ verifySecretHmac c key nonce timestamp (.string tag) = true := by
  have hderive := h
  simp only [hmacDerive, bind_eq_ok, require_eq_ok, exists_unit, pure_eq_ok] at h
  obtain ⟨hkey, keyBytes, -, rfl⟩ := h
  have hlength : (b64url (c.hmac keyBytes (Js.utf8 (nonce ++ Js.numberText timestamp)))).length = 43 := by
    rw [length_b64url, htag]
  have htagNe : b64url (c.hmac keyBytes (Js.utf8 (nonce ++ Js.numberText timestamp))) ≠ [] := by
    intro hnil
    rw [hnil] at hlength
    cases hlength
  refine ⟨htagNe, hkey, ?_⟩
  have hlong : (Js.toNumber (lengthOf (.string
      (b64url (c.hmac keyBytes (Js.utf8 (nonce ++ Js.numberText timestamp))))))).lt (.fin 43) = false := by
    rw [lengthOf, hlength]
    decide
  simp only [verifySecretHmac, hderive, hlong, truthy, Js.toText, hmacPattern_b64url htagNe]
  simp [hkey, htagNe, Except.toOption]

end Hmac

namespace Exchange

variable {PrivateKey PublicKey : Type} (e : Exchange PrivateKey PublicKey)

/-! ## The environment -/

/-- What the operations answer: the store has the pair of the client, the clock shows a moment at
    which the request is fresh, the core package computes, the nonce is unused, no rate limiting or
    lockout applies, and no component throws. -/
def Answers : (o : ServerOp) → o.Answer → Prop
  | .store (.get pairId), found =>
      found = if pairId = e.client.pairId then some e.pair else none
  | .store o, answer => o.Obliging answer
  | .dateNow, now => e.Fresh now
  | .verifySecretHmac storedHmacKey nonce timestamp secretHmac, valid =>
      valid = (Wire.crypto e.crypto).verifySecretHmac storedHmacKey nonce timestamp secretHmac
  | .verifyPayload pubJwk payload signature, valid =>
      valid = (Wire.crypto e.crypto).verifyPayload pubJwk payload signature
  | .checkAndConsume _ _, replay => replay = .ok false
  | .external (.rateLimit _), allowed => allowed = .ok true
  | .external (.isInShadowState _ _), inShadow => inShadow = false
  | .external (.getVerdict _ _), verdict => verdict = .ok .clean ∨ verdict = .ok .suspicious
  | .external o, answer => o.Obliging answer
  | _, _ => True

/-- Such an environment is obliging. -/
theorem obliging_of_answers (hkey : Accepted e.pair.pubJwk) (o : ServerOp) (x : o.Answer)
    (h : e.Answers o x) : o.Obliging x := by
  cases o with
  | store o =>
      cases o with
      | get pairId =>
          intro p hp
          have hfound : x = if pairId = e.client.pairId then some e.pair else none := h
          rw [hfound] at hp
          split at hp
          · cases hp
            exact hkey
          · cases hp
      | _ => exact h
  | dateNow => exact h.1
  | external o =>
      cases o with
      | rateLimit key => exact ⟨true, h⟩
      | getVerdict pairId sourceIp => exact h.elim (fun h => ⟨_, h⟩) fun h => ⟨_, h⟩
      | isInShadowState pairId sourceIp => trivial
      | _ => exact h
  | _ => trivial

/-- There is such an environment. -/
theorem exists_answer (hfresh : ∃ now, e.Fresh now) (o : ServerOp) : ∃ x, e.Answers o x := by
  cases o with
  | store o =>
      cases o with
      | get pairId => exact ⟨_, rfl⟩
      | list => exact ⟨[], trivial⟩
      | getPending token => exact ⟨none, trivial⟩
      | setPending token pending => exact ⟨(), trivial⟩
      | atomicMutate pairId m =>
          refine ⟨.ok none, ?_⟩
          cases m with
          | recordFailure ipFailures lockoutCount now => exact ⟨none, rfl⟩
          | _ => trivial
      | approvePending token expected pair maxActivePairs => exact ⟨.ok true, trivial⟩
      | rotatePair expectedOld replacement => exact ⟨true, trivial⟩
      | claimSuccessfulUse pairId at_ expected => exact ⟨.ok .claimed, fun _ _ => ⟨_, rfl⟩⟩
      | expireIfElapsed pairId now => exact ⟨.ok true, fun _ => ⟨_, rfl⟩⟩
      | expireIfUsageExhausted pairId => exact ⟨true, trivial⟩
      | lockIfFailureThreshold pairId minimumFailures => exact ⟨.ok true, fun _ => ⟨_, rfl⟩⟩
  | dateNow => exact hfresh
  | evictStaleIpEntries now => exact ⟨(), trivial⟩
  | trackIpFailure ipKey now => exact ⟨.fin 0, trivial⟩
  | clearIpFailures pairId => exact ⟨(), trivial⟩
  | checkAndConsume nonce ttlMs => exact ⟨.ok false, rfl⟩
  | verifySecretHmac key nonce timestamp secretHmac => exact ⟨_, rfl⟩
  | verifyPayload pubJwk payload signature => exact ⟨_, rfl⟩
  | external o =>
      cases o with
      | audit entry => exact ⟨.ok (), (), rfl⟩
      | rateLimit key => exact ⟨.ok true, rfl⟩
      | recordAnomaly event => exact ⟨.ok (), (), rfl⟩
      | isInShadowState pairId sourceIp => exact ⟨false, rfl⟩
      | getVerdict pairId sourceIp => exact ⟨.ok .clean, .inl rfl⟩
      | delay ms => exact ⟨(), trivial⟩
      | assertAcceptable => exact ⟨.ok (), trivial⟩
      | generateId kind => exact ⟨[], trivial⟩

/-! ## Before the payload -/

variable {e} {publicKey : PublicKey} {registry : RegistryConfig} {req : BPCRequestData}
  {R : BPCVerifyResult → Prop}

theorem checkRate_passes (key : JsString) :
    Stage.Ensures e.Answers (fun _ => True) R (checkRate registry e.verifier req key) := by
  have hallowed : Stage.Ensures e.Answers (fun allowed => allowed = true) R
      (Stage.await (attempt (Pair.perform (.external (.rateLimit key)))) : VerifyStage Bool) :=
    passes_attempt fun x hx => ⟨true, hx, rfl⟩
  refine hallowed.bind fun allowed h => passes_denyIf ?_
  rw [h]
  decide

theorem beforeHeaders_passes (hmethod : req.method ∈ allowedMethods) :
    Stage.Ensures e.Answers (fun _ => True) R (beforeHeaders registry e.verifier req) := by
  refine Stage.Ensures.bind (passes_onlyIf fun _ => checkRate_passes _) fun _ _ => ?_
  refine Stage.Ensures.bind (passes_onlyIf fun _ => ?_) fun _ _ => ?_
  · have hshadow : Stage.Ensures e.Answers (fun inShadow => inShadow = false) R
        (Stage.await (Pair.perform (.external
          (.isInShadowState (req.pairId.getD []) req.sourceIp))) : VerifyStage Bool) :=
      passes_await fun x hx => hx
    refine hshadow.bind fun inShadow h => passes_exitIf ?_
    rw [h]
    decide
  refine Stage.Ensures.bind (passes_onlyIf fun _ => checkRate_passes _) fun _ _ => ?_
  exact passes_denyIf (not_not.mpr hmethod)

/-- The headers of a client are read as they were sent. -/
theorem readHeaders_passes {pairId signedData signature : JsString}
    (hpairId : req.pairId = some pairId) (hsignedData : req.signedData = some signedData)
    (hsignature : req.signature = some signature) (hversion : req.version = some bpcProtocolVersion)
    (hnonempty : pairId ≠ [] ∧ signedData ≠ [] ∧ signature ≠ [])
    (hlength : pairId.length ≤ 64 ∧ signedData.length ≤ 4096 ∧ signature.length ≤ 256)
    (hre : pairIdRe pairId = true) :
    Stage.Ensures e.Answers (fun headers => headers = ⟨pairId, signedData, signature⟩) R
      (readHeaders registry e.verifier req) := by
  have hthere : ∀ {s : Option JsString} {t : JsString}, s = some t → t ≠ [] →
      nonEmpty s = some t := by
    rintro s t rfl ht
    simp [nonEmpty, ht]
  refine Stage.Ensures.bind (passes_required (hthere hpairId hnonempty.1)) fun a ha => ?_
  refine Stage.Ensures.bind (passes_required (hthere hsignedData hnonempty.2.1)) fun b hb => ?_
  refine Stage.Ensures.bind (passes_required (hthere hsignature hnonempty.2.2)) fun c hc => ?_
  subst ha hb hc
  refine Stage.Ensures.bind (passes_denyIf (by omega)) fun _ _ => ?_
  refine Stage.Ensures.bind (passes_denyIf (by rw [hre]; decide)) fun _ _ => ?_
  refine Stage.Ensures.bind (passes_denyIf (by rw [hversion]; decide)) fun _ _ => ?_
  exact Stage.ensures_pure rfl

/-- What is captured of a pair. -/
theorem captured_spec {pair : StoredPair} {auth : AuthorizationContext}
    (h : captureAuthorizationContext pair = .ok auth) :
    auth.status = pair.status ∧ auth.failedSigs = pair.failedSigs ∧
      auth.expiresAt = pair.expiresAt ∧ auth.maxRequests = pair.maxRequests ∧
      auth.requests = pair.requests ∧ auth.scope = pair.scope ∧
      auth.secretHash = pair.secretHash ∧
      ∃ jwk, canonicalAuthorizationJwk pair.pubJwk = .ok jwk ∧ auth.pubJwk = jwk.toJwk := by
  obtain ⟨jwk, hjwk, hauth⟩ := (bind_eq_ok _ _ _).mp h
  cases hauth
  exact ⟨rfl, rfl, rfl, rfl, rfl, rfl, rfl, jwk, hjwk, rfl⟩

theorem capturePair_passes {auth : AuthorizationContext}
    (hauth : captureAuthorizationContext e.pair = .ok auth) :
    Stage.Ensures e.Answers (fun a => a = auth) R
      (capturePair registry e.verifier req e.client.pairId) := by
  have hfound : Stage.Ensures e.Answers (fun found => found = some e.pair) R
      (Stage.await (onStore (.get e.client.pairId)) : VerifyStage (Option StoredPair)) := by
    refine passes_await fun x hx => ?_
    have hx : x = if e.client.pairId = e.client.pairId then some e.pair else none := hx
    rwa [if_pos rfl] at hx
  refine hfound.bind fun found h => ?_
  subst h
  refine Stage.Ensures.bind (P := fun p => p = e.pair) (Stage.ensures_pure rfl) fun p hp => ?_
  subst hp
  exact passes_await (Prog.ensures_lift hauth rfl)

/-- Neither the status nor the limits of the pair speak against the request. -/
theorem checkStatus_passes (h : e.Honest publicKey) {auth : AuthorizationContext}
    (hauth : captureAuthorizationContext e.pair = .ok auth) (pairId : JsString) :
    Stage.Ensures e.Answers (fun _ => True) R
      (checkStatus registry e.verifier req pairId auth) := by
  obtain ⟨hstatus, hfailed, hexpires, hmax, hrequests, -, -, -⟩ := captured_spec hauth
  have hactive : auth.status = .active := hstatus.trans h.active
  refine Stage.Ensures.bind (passes_denyIf (by rw [hactive]; decide)) fun _ _ => ?_
  refine Stage.Ensures.bind (passes_exitIf (by rw [hactive]; decide)) fun _ _ => ?_
  refine Stage.Ensures.bind (passes_denyIf (by rw [hactive]; decide)) fun _ _ => ?_
  refine Stage.Ensures.bind (passes_denyIf (by rw [hactive]; decide)) fun _ _ => ?_
  refine Stage.Ensures.bind (passes_exitIf (by rw [hfailed, h.unlocked]; decide)) fun _ _ => ?_
  refine Stage.Ensures.bind (passes_onlyIf fun hexpiring => ?_) fun _ _ => ?_
  · obtain ⟨t, ht, htruthy⟩ := (Option.any_eq_true _ _).mp hexpiring
    refine Stage.Ensures.bind (P := e.Fresh) (passes_await fun x hx => hx) fun now hnow => ?_
    refine passes_exitIf ?_
    rw [ht, Option.getD_some, hnow.2.2 t (hexpires ▸ ht) htruthy]
    decide
  refine Stage.Ensures.bind (passes_exitIf ?_) fun _ _ => ?_
  · rw [AuthorizationContext.usedUp, hmax, hrequests, Bool.not_eq_true, Option.any_eq_false]
    intro m hm
    rw [h.unused m hm]
  exact passes_denyIf (by rw [hactive]; decide)

theorem tarpit_passes (pairId : JsString) :
    Stage.Ensures e.Answers (fun _ => True) R (tarpit registry e.verifier req pairId) := by
  unfold tarpit
  split
  · refine Stage.Ensures.bind (P := fun verdict => verdict = .clean ∨ verdict = .suspicious)
      (passes_attempt fun x hx => ?_) fun verdict hverdict => ?_
    · exact hx.elim (fun h => ⟨_, h, .inl rfl⟩) fun h => ⟨_, h, .inr rfl⟩
    · rcases hverdict with rfl | rfl
      · exact Stage.ensures_pure trivial
      · refine passes_await ?_
        refine Prog.Ensures.bind (P := fun _ => True) ?_ fun _ _ => trivial
        exact Prog.ensures_ite (fun _ _ _ => trivial) fun _ => trivial
  · exact Stage.ensures_pure trivial

theorem admitPair_passes (h : e.Honest publicKey) {auth : AuthorizationContext}
    (hauth : captureAuthorizationContext e.pair = .ok auth) :
    Stage.Ensures e.Answers (fun admitted => admitted.1 = auth) R
      (admitPair registry e.verifier req e.client.pairId) := by
  refine Stage.Ensures.bind (capturePair_passes hauth) fun a ha => ?_
  subst ha
  refine Stage.Ensures.bind (checkStatus_passes h hauth _) fun _ _ => ?_
  exact Stage.Ensures.bind (tarpit_passes _) fun _ _ => Stage.ensures_pure rfl

/-! ## The payload -/

/-- The members that the server reads. -/
theorem get_payload (p : RequestPayload) :
    p.toJs.get (Js.lit "nonce") = .string p.nonce ∧
      p.toJs.get (Js.lit "timestamp") = .number p.timestamp ∧
      p.toJs.get (Js.lit "secret_hmac") = .string p.secretHmac ∧
      p.toJs.get (Js.lit "method") = .string p.method ∧
      p.toJs.get (Js.lit "path") = .string p.path ∧
      p.toJs.get (Js.lit "pair_id") = .string p.pairId ∧
      p.toJs.get (Js.lit "version") = .string bpcProtocolVersion ∧
      p.toJs.get (Js.lit "body_hash") = .string p.bodyHash :=
  ⟨rfl, rfl, rfl, rfl, rfl, rfl, rfl, rfl⟩

theorem differs_payload (p : RequestPayload) (s : JsString) :
    (differs p.toJs "method" (.string s) = true ↔ p.method ≠ s) ∧
      (differs p.toJs "path" (.string s) = true ↔ p.path ≠ s) ∧
      (differs p.toJs "pair_id" (.string s) = true ↔ p.pairId ≠ s) ∧
      (differs p.toJs "version" (.string s) = true ↔ bpcProtocolVersion ≠ s) := by
  obtain ⟨-, -, -, hmethod, hpath, hpairId, hversion, -⟩ := get_payload p
  simp only [differs, hmethod, hpath, hpairId, hversion, strictlyEqual]
  simp

/-- Whatever a client has signed, the server can read it. -/
theorem payloadReadable_payload (p : RequestPayload) : payloadReadable p.toJs = true := by
  have hreadable : hmacReadable (.string p.secretHmac) = true := by
    simp [hmacReadable, lengthOf, Js.hasText]
  have hnull : isNull p.toJs = false := rfl
  have hget : p.toJs.get (Js.lit "secret_hmac") = .string p.secretHmac := (get_payload p).2.2.1
  simp [payloadReadable, hnull, hget, hreadable]

/-- A payload that arrives. -/
theorem readPayload_passes {p : RequestPayload} {signedData : JsString}
    (hdecode : decodePayload signedData = some p.toJs) (hnonce : uuidRe p.nonce = true)
    (htimestamp : p.timestamp.isFinite = true) :
    Stage.Ensures e.Answers (fun signed => signed = ⟨p.toJs, p.nonce, p.timestamp⟩) R
      (readPayload registry e.verifier req signedData) := by
  obtain ⟨hgetNonce, hgetTimestamp, -⟩ := get_payload p
  refine Stage.Ensures.bind (passes_required hdecode) fun payload hpayload => ?_
  subst hpayload
  refine Stage.Ensures.bind (P := fun _ => True) (passes_await ?_) fun _ _ => ?_
  · exact Prog.ensures_lift (a := ()) (require_of rfl _) trivial
  refine Stage.Ensures.bind (passes_required (a := p.nonce) ?_) fun nonce hnonce => ?_
  · rw [hgetNonce, stringOf, Option.filter_some, if_pos hnonce]
  subst hnonce
  refine Stage.Ensures.bind (passes_required (a := p.timestamp) ?_) fun timestamp htimestamp => ?_
  · rw [hgetTimestamp, finiteNumber, if_pos htimestamp]
  subst htimestamp
  exact Stage.ensures_pure rfl

/-- The HMAC of the payload is the one that the server derives. -/
theorem checkSecretHmac_passes (h : e.Honest publicKey) {auth : AuthorizationContext}
    (hauth : captureAuthorizationContext e.pair = .ok auth) {p : RequestPayload}
    (hhmac : hmacDerive e.crypto e.pair.secretHash (p.nonce ++ Js.numberText p.timestamp) =
      .ok p.secretHmac) :
    Stage.Ensures e.Answers (fun _ => True) R
      (checkSecretHmac registry e.verifier req auth ⟨p.toJs, p.nonce, p.timestamp⟩) := by
  obtain ⟨-, -, -, -, -, -, hsecret, -⟩ := captured_spec hauth
  obtain ⟨htag, hkey, hvalid⟩ := verifySecretHmac_derived h.runtime.tag hhmac
  have hget : p.toJs.get (Js.lit "secret_hmac") = .string p.secretHmac := (get_payload p).2.2.1
  unfold checkSecretHmac
  simp only [hget]
  refine Stage.Ensures.bind (passes_denyIf (by simp [truthy, htag])) fun _ _ => ?_
  refine Stage.Ensures.bind (passes_denyIf (by rw [hsecret]; exact hkey)) fun _ _ => ?_
  refine Stage.Ensures.bind (P := fun _ => True) (passes_await ?_) fun _ _ => ?_
  · refine Prog.ensures_lift (a := ()) (require_of ?_ _) trivial
    simp [hmacReadable, lengthOf, Js.hasText]
  refine Stage.Ensures.bind (P := fun valid => valid = true) (passes_await fun x hx => ?_)
    fun valid hvalid => passes_denyIf (by rw [hvalid]; decide)
  have hx : x = verifySecretHmac e.crypto auth.secretHash p.nonce p.timestamp
      (.string p.secretHmac) := hx
  show x = true
  rw [hx, hsecret, hvalid]

theorem checkTimestamp_passes (pairId : JsString) :
    Stage.Ensures e.Answers (fun _ => True) R
      (checkTimestamp registry e.verifier req pairId (.fin e.timestamp)) := by
  refine Stage.Ensures.bind (P := e.Fresh) (passes_await fun x hx => hx) fun now hnow => ?_
  refine Stage.Ensures.bind (passes_exitIf (by rw [hnow.2.1]; decide)) fun _ _ => ?_
  exact Stage.ensures_pure trivial

/-- A payload about this request. -/
theorem checkBinding_passes {p : RequestPayload} {pairId : JsString}
    (hmethod : p.method = req.method) (hpath : p.path = req.path) (hpairId : p.pairId = pairId) :
    Stage.Ensures e.Answers (fun _ => True) R
      (checkBinding registry e.verifier req pairId p.toJs) := by
  refine Stage.Ensures.bind (passes_denyIf ?_) fun _ _ => ?_
  · rw [(differs_payload p _).1, (differs_payload p _).2.1, not_or, not_not, not_not]
    exact ⟨hmethod, hpath⟩
  refine Stage.Ensures.bind (passes_denyIf ?_) fun _ _ => ?_
  · rw [(differs_payload p _).2.2.1, not_not]
    exact hpairId
  refine passes_denyIf ?_
  rw [(differs_payload p _).2.2.2, not_not]

/-- A method that the scope permits. -/
theorem checkScope_passes {p : RequestPayload} {scope : JsString} {methods : List JsString}
    (hscope : scopeAllowedMethods scope = some methods) (hmethod : p.method = req.method)
    (hmem : req.method ∈ methods) :
    Stage.Ensures e.Answers (fun _ => True) R
      (checkScope registry e.verifier req scope p.toJs) := by
  obtain ⟨-, hupper, -⟩ := methods_arrive hscope req.method hmem
  have hget : p.toJs.get (Js.lit "method") = .string p.method := (get_payload p).2.2.2.1
  unfold checkScope
  rw [hget]
  refine Stage.Ensures.bind (passes_required hscope) fun allowed hallowed => passes_denyIf ?_
  subst hallowed
  rw [not_or, not_not, not_not, hupper]
  exact ⟨hmem, by simpa [stringOf, hmethod, hupper] using hmem⟩

theorem checkBodyHash_passes {p : RequestPayload} (hbody : req.bodyHash = some p.bodyHash)
    (hne : p.bodyHash ≠ []) :
    Stage.Ensures e.Answers (fun _ => True) R
      (checkBodyHash registry e.verifier req p.toJs) := by
  have hthere : nonEmpty (some p.bodyHash) = some p.bodyHash := by simp [nonEmpty, hne]
  have hget : p.toJs.get (Js.lit "body_hash") = .string p.bodyHash := (get_payload p).2.2.2.2.2.2.2
  unfold checkBodyHash
  rw [hget, hbody]
  refine Stage.Ensures.bind (passes_required hthere) fun a ha => ?_
  refine Stage.Ensures.bind (passes_required hthere) fun b hb => ?_
  subst ha hb
  exact passes_denyIf (not_not.mpr rfl)

/-- The signature of the client verifies. -/
theorem checkSignature_passes (h : e.Honest publicKey) {auth : AuthorizationContext}
    (hauth : captureAuthorizationContext e.pair = .ok auth) (p : RequestPayload) :
    Stage.Ensures e.Answers (fun _ => True) R
      (checkSignature registry e.verifier req auth p.toJs
        (b64url (e.crypto.sign e.client.privateKey (Js.utf8 p.text)))) := by
  obtain ⟨-, -, -, -, -, -, -, jwk, hjwk, hpub⟩ := captured_spec hauth
  obtain ⟨jwk', hjwk', himport⟩ := h.key
  rw [hjwk] at hjwk'
  cases hjwk'
  refine Stage.Ensures.bind (P := fun valid => valid = true) (passes_await fun x hx => ?_)
    fun valid hvalid => passes_denyIf (by rw [hvalid]; decide)
  have hverify : verifyPayload e.crypto publicKey p.toJs
      (b64url (e.crypto.sign e.client.privateKey (Js.utf8 p.text))) = true := by
    rw [verifyPayload, canonicalize_payload, b64urlDecode_b64url]
    exact h.runtime.verifies _
  have hanswer : (Wire.crypto e.crypto).verifyPayload auth.pubJwk p.toJs
      (b64url (e.crypto.sign e.client.privateKey (Js.utf8 p.text))) = .ok true := by
    rw [hpub]
    show (e.crypto.importPublicKey jwk.toJwk >>= fun key =>
      pure (verifyPayload e.crypto key p.toJs _)) = _
    rw [himport, ok_bind, hverify]
    rfl
  have hx : x = .ok true := Eq.trans hx hanswer
  show (Except.toOption x).getD false = true
  rw [hx]
  rfl

/-! ## The whole request -/

/-- A request whose headers carry the payload `p`, as the client has signed it. -/
structure Carries (e : Exchange PrivateKey PublicKey) (bytes : Bytes) (req : BPCRequestData)
    (sent : Headers) (p : RequestPayload) : Prop where
  pairId : req.pairId = some sent.pairId
  signedData : req.signedData = some sent.signedData
  signature : req.signature = some sent.signature
  sentPairId : sent.pairId = e.client.pairId
  encoded : sent.signedData = b64url (Js.utf8 p.text)
  signed : sent.signature = b64url (e.crypto.sign e.client.privateKey (Js.utf8 p.text))
  version : req.version = some bpcProtocolVersion
  method : req.method = e.method
  path : req.path = e.path
  bodyHash : req.bodyHash = some p.bodyHash
  payloadHash : p.bodyHash = hashOf e.crypto bytes
  payloadMethod : p.method = e.method
  payloadNonce : p.nonce = e.nonce
  payloadPairId : p.pairId = e.client.pairId
  payloadPath : p.path = e.path
  payloadTimestamp : p.timestamp = .fin e.timestamp
  payloadHmac : hmacDerive e.crypto e.pair.secretHash (p.nonce ++ Js.numberText p.timestamp) =
    .ok p.secretHmac

variable {headers : SignedHeaders} {bytes : Bytes} {sent : Headers} {p : RequestPayload}

/-- The request of a client carries its payload. -/
theorem exists_carried (h : e.Honest publicKey) (hbody : bodyBytes e.body = .ok bytes)
    (hsigned : e.signed = .ok headers) :
    ∃ p, e.Carries bytes (e.request headers bytes)
      ⟨headers.pairId, headers.signedData, headers.signature⟩ p := by
  obtain ⟨secretHmac, hhmac, hheaders⟩ := signed_spec h hbody hsigned
  exact ⟨e.payload bytes secretHmac,
    { pairId := rfl
      signedData := rfl
      signature := rfl
      sentPairId := by rw [hheaders]
      encoded := by rw [hheaders]
      signed := by rw [hheaders]
      version := by rw [hheaders]; rfl
      method := rfl
      path := rfl
      bodyHash := rfl
      payloadHash := rfl
      payloadMethod := rfl
      payloadNonce := rfl
      payloadPairId := rfl
      payloadPath := rfl
      payloadTimestamp := rfl
      payloadHmac := hhmac }⟩

theorem Carries.timed (h : e.Honest publicKey) (hc : e.Carries bytes req sent p) : p.Timed :=
  ⟨e.timestamp, h.clock, hc.payloadTimestamp⟩

/-- Everything but the path arrives. -/
theorem Carries.strings_arrive (h : e.Honest publicKey) (hc : e.Carries bytes req sent p) :
    ∀ f ∈ p.strings, Arrives f.2 ∨ f.2 = e.path := by
  have hmethod : Arrives p.method := by
    obtain ⟨methods, hscope, hmem⟩ := h.scope
    obtain ⟨-, -, hascii, hquote, hkey⟩ := methods_arrive hscope e.method hmem
    rw [hc.payloadMethod]
    exact arrives_of hascii hquote hkey
  have hhash : Arrives p.bodyHash := by
    rw [hc.payloadHash]
    exact hashOf_arrives _ _
  have hnonce : Arrives p.nonce := by
    rw [hc.payloadNonce]
    exact nonce_arrives h
  have hpairId : Arrives p.pairId := by
    rw [hc.payloadPairId]
    exact (pairId_spec h).1
  have htag : Arrives p.secretHmac := by
    have hhmac := hc.payloadHmac
    simp only [hmacDerive, bind_eq_ok, require_eq_ok, exists_unit, pure_eq_ok] at hhmac
    obtain ⟨-, keyBytes, -, htag⟩ := hhmac
    rw [← htag]
    refine b64url_arrives (not_forbidden_of_length ?_)
    rw [length_b64url, h.runtime.tag]
    decide
  intro f hf
  simp only [RequestPayload.strings, List.mem_cons, List.not_mem_nil, or_false] at hf
  rcases hf with rfl | rfl | rfl | rfl | rfl | rfl
  · exact .inl hhash
  · exact .inl hmethod
  · exact .inl hnonce
  · exact .inl hpairId
  · exact .inr hc.payloadPath
  · exact .inl htag

theorem path_mem (p : RequestPayload) : ("path", p.path) ∈ p.strings := by
  simp [RequestPayload.strings]

theorem Carries.text_ne (h : e.Honest publicKey) (hc : e.Carries bytes req sent p) :
    sent.signedData ≠ [] := by
  have hlatin : (latin1 p.text).length = (Js.utf8 p.text).length := List.length_map _
  rw [latin1_text (hc.timed h)] at hlatin
  intro hnil
  have hlength := length_b64url (Js.utf8 p.text)
  rw [← hc.encoded, hnil, ← hlatin] at hlength
  simp at hlength
  omega

/-- The checks of a signed request come down to those of its payload. -/
theorem Carries.checkRequest {Q : SignedPayload × JsNumber → Prop} (h : e.Honest publicKey)
    (hc : e.Carries bytes req sent p) (hlength : sent.signedData.length ≤ 4096)
    {auth : AuthorizationContext} (hauth : captureAuthorizationContext e.pair = .ok auth)
    (hpayload : Stage.Ensures e.Answers Q R (verifySignedPayload registry e.verifier req
      sent auth)) :
    Stage.Ensures e.Answers (fun checked => Q checked.2.2) R
      (Pair.checkRequest registry e.verifier req) := by
  obtain ⟨methods, hscope, hmem⟩ := h.scope
  obtain ⟨-, hre, hid⟩ := pairId_spec h
  rw [← hc.sentPairId] at hre hid
  have hsignature : sent.signature.length = 86 := by
    rw [hc.signed, length_b64url, h.runtime.signature]
  have hthere : ∀ {s : JsString}, 0 < s.length → s ≠ [] := by
    rintro s hs rfl
    exact absurd hs (by decide)
  have hmethod : req.method ∈ allowedMethods := by
    rw [hc.method]
    exact (methods_arrive hscope e.method hmem).1
  refine Stage.Ensures.bind (P := fun _ => True) (passes_await ?_) fun _ _ => ?_
  · refine (recordAnomaly_neverThrows _).weaken (obliging_of_answers e ?_)
    obtain ⟨jwk, hjwk, -⟩ := h.key
    exact ⟨jwk, hjwk⟩
  refine Stage.Ensures.bind (beforeHeaders_passes hmethod) fun _ _ => ?_
  refine Stage.Ensures.bind (readHeaders_passes hc.pairId hc.signedData hc.signature hc.version
    ⟨hthere (by omega), hc.text_ne h, hthere (by omega)⟩ ⟨by omega, hlength, by omega⟩ hre)
    fun headers hheaders => ?_
  subst hheaders
  have hadmit : Stage.Ensures e.Answers (fun admitted => admitted.1 = auth) R
      (admitPair registry e.verifier req sent.pairId) := by
    rw [hc.sentPairId]
    exact admitPair_passes h hauth
  refine hadmit.bind fun admitted hadmitted => ?_
  rw [hadmitted]
  exact Stage.Ensures.bind hpayload fun verified hverified => Stage.ensures_pure hverified

/-- A payload whose path arrives passes every check. -/
theorem Carries.passes (h : e.Honest publicKey) (hc : e.Carries bytes req sent p)
    {auth : AuthorizationContext} (hauth : captureAuthorizationContext e.pair = .ok auth)
    (hpath : Arrives e.path) :
    Stage.Ensures e.Answers (fun _ => True) R (verifySignedPayload registry e.verifier req
      sent auth) := by
  obtain ⟨methods, hscope, hmem⟩ := h.scope
  obtain ⟨-, -, -, -, -, hauthScope, -, -⟩ := captured_spec hauth
  have hdecode : decodePayload sent.signedData = some p.toJs := by
    rw [hc.encoded]
    refine decodePayload_travels (hc.timed h) fun f hf => ?_
    rcases hc.strings_arrive h f hf with harrives | hsame
    · exact harrives
    · rw [hsame]
      exact hpath
  have hhash : p.bodyHash ≠ [] := by
    intro hnil
    have hlength := congrArg List.length (hc.payloadHash.symm.trans hnil)
    rw [hashOf, List.length_append, show (Js.lit "sha256:").length = 7 by decide] at hlength
    simp at hlength
  have hnonce : uuidRe p.nonce = true := by
    rw [hc.payloadNonce]
    exact h.nonce
  have hfinite : p.timestamp.isFinite = true := by
    rw [hc.payloadTimestamp]
    rfl
  refine Stage.Ensures.bind (readPayload_passes hdecode hnonce hfinite) fun signed hsigned => ?_
  subst hsigned
  refine Stage.Ensures.bind (checkSecretHmac_passes h hauth hc.payloadHmac) fun _ _ => ?_
  refine Stage.Ensures.bind (P := fun _ => True) ?_ fun _ _ => ?_
  · show Stage.Ensures _ _ _ (checkTimestamp registry e.verifier req _ p.timestamp)
    rw [hc.payloadTimestamp]
    exact checkTimestamp_passes _
  refine Stage.Ensures.bind (checkBinding_passes (hc.payloadMethod.trans hc.method.symm)
    (hc.payloadPath.trans hc.path.symm) (hc.payloadPairId.trans hc.sentPairId.symm)) fun _ _ => ?_
  refine Stage.Ensures.bind (checkScope_passes (hauthScope ▸ hscope)
    (hc.payloadMethod.trans hc.method.symm) (by rw [hc.method]; exact hmem)) fun _ _ => ?_
  refine Stage.Ensures.bind (checkBodyHash_passes hc.bodyHash hhash) fun _ _ => ?_
  refine Stage.Ensures.bind (P := fun _ => True) ?_ fun _ _ => ?_
  · rw [hc.signed]
    exact checkSignature_passes h hauth p
  exact Stage.ensures_pure trivial

/-- A payload whose path does not arrive is either not decoded or about another path. -/
theorem Carries.decoded_otherwise (h : e.Honest publicKey) (hc : e.Carries bytes req sent p)
    (hpath : ¬Arrives e.path) {payload : JsValue}
    (hdecode : decodePayload sent.signedData = some payload) :
    payloadReadable payload = true ∧ differs payload "path" (.string req.path) = true := by
  rw [hc.encoded] at hdecode
  obtain ⟨rfl, hscan⟩ := decodePayload_eq_some (hc.timed h) hdecode
  refine ⟨payloadReadable_payload _, (differs_payload _ _).2.1.mpr fun hread => ?_⟩
  rw [hc.path, ← hc.payloadPath] at hread
  have hone : OneByte p.path := (readText_eq_iff p.path).mp hread
  have hall : ∀ f ∈ p.strings, OneByte f.2 := by
    intro f hf
    rcases hc.strings_arrive h f hf with harrives | hsame
    · exact harrives.1
    · rw [hsame, ← hc.payloadPath]
      exact hone
  have hkey := hscan hall _ (path_mem p)
  rw [← hc.payloadPath] at hpath
  exact hpath ⟨hone, hkey⟩

/-- The request gets past every check up to the signature, whatever the environment answers. -/
def GetsPast (e : Exchange PrivateKey PublicKey) (registry : RegistryConfig)
    (headers : SignedHeaders) (bytes : Bytes) : Prop :=
  Stage.Ensures e.Answers (fun _ => True) (fun _ => False)
    (Pair.checkRequest registry e.verifier (e.request headers bytes))

/-- A request whose path does not arrive is denied. -/
theorem not_getsPast (h : e.Honest publicKey) (hbody : bodyBytes e.body = .ok bytes)
    (hsigned : e.signed = .ok headers) (hlength : headers.signedData.length ≤ 4096)
    (hpath : ¬Arrives e.path) : ¬e.GetsPast registry headers bytes := by
  obtain ⟨p, hc⟩ := exists_carried h hbody hsigned
  obtain ⟨jwk, hjwk, -⟩ := h.key
  obtain ⟨auth, hauth, -⟩ := capture_accepted ⟨jwk, hjwk⟩
  have hstops : Stage.Ensures e.Answers (fun _ => False) (fun _ => True)
      (Pair.checkRequest registry e.verifier (e.request headers bytes)) :=
    hc.checkRequest (Q := fun _ => False) h hlength hauth
      ((verifySignedPayload_stops auth fun payload hdecode =>
        hc.decoded_otherwise h hpath hdecode).weaken (obliging_of_answers e ⟨jwk, hjwk⟩))
  intro hpast
  obtain ⟨x, hpast, hstops⟩ := (Prog.Ensures.and hpast hstops).exists (exists_answer e h.fresh)
  cases x with
  | ok checked => exact hstops.1 checked rfl
  | error r => exact hpast.2 r rfl

/-- **Client and server agree** on a request exactly where its path arrives: its code units are ASCII
    or lone surrogates, and what follows its last quote is no forbidden key. -/
theorem getsPast_iff (h : e.Honest publicKey) (hbody : bodyBytes e.body = .ok bytes)
    (hsigned : e.signed = .ok headers) (hlength : headers.signedData.length ≤ 4096) :
    e.GetsPast registry headers bytes ↔ Arrives e.path := by
  constructor
  · intro hpast
    by_contra hpath
    exact not_getsPast h hbody hsigned hlength hpath hpast
  · intro hpath
    obtain ⟨p, hc⟩ := exists_carried h hbody hsigned
    obtain ⟨jwk, hjwk, -⟩ := h.key
    obtain ⟨auth, hauth, -⟩ := capture_accepted ⟨jwk, hjwk⟩
    exact hc.checkRequest (Q := fun _ => True) h hlength hauth (hc.passes h hauth hpath)

end Exchange

/-! ## A request -/

/-- The key that HKDF derives from the secret `secret`. -/
def sampleDerived : Bytes :=
  [236, 225, 112, 71, 46, 138, 23, 198, 239, 111, 206, 51, 242, 92, 254, 90, 202, 119, 38, 39, 144,
    56, 236, 8, 100, 89, 86, 213, 108, 217, 154, 51]

/-- The HMAC under it of the nonce and the timestamp below. -/
def sampleTag : Bytes :=
  [171, 186, 229, 121, 22, 121, 75, 18, 53, 232, 111, 180, 136, 152, 133, 177, 102, 168, 199, 209,
    73, 156, 92, 254, 170, 201, 154, 97, 175, 39, 217, 134]

/-- A signature of the payload for the path `/`. -/
def rootSignature : Bytes :=
  [137, 44, 237, 12, 28, 77, 94, 231, 150, 178, 182, 202, 53, 155, 240, 133, 220, 117, 145, 105, 22,
    198, 228, 189, 184, 72, 253, 93, 161, 75, 12, 58, 90, 123, 167, 215, 176, 234, 3, 173, 92, 158,
    108, 231, 13, 117, 151, 0, 102, 249, 226, 192, 232, 12, 209, 78, 217, 129, 38, 187, 58, 163, 167,
    152]

/-- A signature of the payload for the path `/é`. -/
def accentedSignature : Bytes :=
  [213, 153, 76, 161, 246, 23, 31, 243, 80, 38, 245, 188, 188, 135, 98, 107, 84, 174, 178, 207, 60,
    33, 165, 166, 141, 21, 194, 85, 87, 62, 119, 236, 35, 24, 55, 115, 57, 168, 13, 100, 149, 172,
    139, 173, 101, 104, 170, 179, 194, 57, 62, 26, 176, 248, 229, 203, 241, 210, 148, 47, 202, 152,
    100, 195]

/-- The public key under which both signatures verify. -/
def sampleKey : CanonicalAuthorizationJwk where
  x := Js.lit "bGsYJS8ljhwmQArkOxbyvT3v" ++ Js.lit "__GLL9TONwv8bc8Unwg"
  y := Js.lit "qBCVqO31rl2_0SxLkWeF5vO9" ++ Js.lit "3b70Ar_Nuj-eB5T2lgU"

/-- What the runtime computes for one request without a body. -/
def sampleCrypto (signature : Bytes) : WebCrypto Unit Unit where
  sha256 _ := emptyDigest
  deriveBits _ _ _ := sampleDerived
  hmac _ _ := sampleTag
  importPublicKey _ := .ok ()
  sign _ _ := signature
  verify _ _ _ := true

def samplePair : StoredPair where
  id := Js.lit "pair_0123456789abcdef"
  name := Js.lit "sample"
  scope := Js.lit "read"
  mode := Js.lit "production"
  secretHash := Js.lit "7OFwRy6KF8bvb84z8lz-Wsp3" ++ Js.lit "JieQOOwIZFlW1WzZmjM"
  pubJwk := sampleKey.toJwk
  status := .active
  created := .fin 0
  lastActive := none
  requests := .fin 0
  failedSigs := .fin 0
  cumulativeFailures := none
  firstFailureAt := none
  expiresAt := none
  maxRequests := none
  kind := none
  canaryClass := none

/-- `GET path`, under this signature. -/
def sampleExchange (path : JsString) (signature : Bytes) : Exchange Unit Unit where
  crypto := sampleCrypto signature
  client := ⟨Js.lit "pair_0123456789abcdef", (), Js.lit "secret"⟩
  method := Js.lit "GET"
  path
  body := none
  nonce := Js.lit "00000000-0000-4000-8000-" ++ Js.lit "000000000000"
  timestamp := 1700000000000
  pair := samplePair
  verifier := sampleVerifier
  ip := none

theorem sampleExchange_honest (path : JsString) {signature : Bytes} (h : signature.length = 64) :
    (sampleExchange path signature).Honest () where
  runtime :=
    { digest := rfl
      derived := fun _ _ _ => show sampleDerived.length = 32 by decide
      tag := fun _ _ => show sampleTag.length = 32 by decide
      signature := fun _ => h
      verifies := fun _ => rfl }
  pairId := ⟨Js.lit "0123456789abcdef",
    show Js.lit "pair_0123456789abcdef" = Js.lit "pair_" ++ Js.lit "0123456789abcdef" by decide,
    by decide,
    List.all_eq_true.mp
      (show (Js.lit "0123456789abcdef").all Js.isLowerHex = true by decide)⟩
  nonce := show uuidRe (Js.lit "00000000-0000-4000-8000-" ++ Js.lit "000000000000") = true by decide
  clock := show Js.isSafeInteger 1700000000000 = true by decide
  active := rfl
  secretHash := by
    have hlit : b64url sampleDerived = samplePair.secretHash := by decide +kernel
    exact congrArg Except.ok hlit
  key := ⟨sampleKey, show canonicalAuthorizationJwk sampleKey.toJwk = .ok sampleKey by decide, rfl⟩
  scope := ⟨["GET", "HEAD", "OPTIONS"].map Js.lit, by
    show scopeAllowedMethods (Js.lit "read") = _
    decide, show Js.lit "GET" ∈ ["GET", "HEAD", "OPTIONS"].map Js.lit by decide⟩
  unlocked := rfl
  unused := fun _ hm => nomatch hm
  fresh := ⟨.fin 1700000000000, by decide,
    show (JsNumber.fin 60000).lt ((JsNumber.fin 1700000000000).sub
      (.fin ((1700000000000 : ℤ) : ℚ))).abs = false by decide +kernel, fun _ ht => nomatch ht⟩

theorem sampleExchange_signed : ∀ e ∈ [sampleExchange (Js.lit "/") rootSignature,
    sampleExchange [47, 233] accentedSignature],
    ∃ headers, e.signed = .ok headers ∧ headers.signedData.length ≤ 4096 := by
  intro e he
  have hsigned : ∀ e ∈ [sampleExchange (Js.lit "/") rootSignature,
      sampleExchange [47, 233] accentedSignature],
      e.signed.toOption.any (fun headers => headers.signedData.length ≤ 4096) = true := by
    decide +kernel
  have hany := hsigned e he
  cases hresult : e.signed with
  | ok headers =>
      rw [hresult] at hany
      exact ⟨headers, rfl, by simpa [Except.toOption] using hany⟩
  | error error =>
      rw [hresult] at hany
      cases hany

theorem getsPast_root : ∃ headers,
    (sampleExchange (Js.lit "/") rootSignature).signed = .ok headers ∧
      (sampleExchange (Js.lit "/") rootSignature).GetsPast ⟨.fin 9, .fin 9⟩ headers [] := by
  obtain ⟨headers, hsigned, hlength⟩ := sampleExchange_signed _ List.mem_cons_self
  refine ⟨headers, hsigned, (Exchange.getsPast_iff (sampleExchange_honest _ (by decide)) rfl hsigned
    hlength).mpr ?_⟩
  exact ⟨.inl (by decide), by decide⟩

/-- A request for the path `/é` is denied. -/
theorem accented_denied : (sampleExchange [47, 233] accentedSignature).Honest () ∧
    ∃ headers, (sampleExchange [47, 233] accentedSignature).signed = .ok headers ∧
      headers.signedData.length ≤ 4096 ∧ ∀ registry,
        ¬(sampleExchange [47, 233] accentedSignature).GetsPast registry headers [] := by
  have hhonest := sampleExchange_honest [47, 233] (show accentedSignature.length = 64 by decide)
  obtain ⟨headers, hsigned, hlength⟩ :=
    sampleExchange_signed _ (List.mem_cons_of_mem _ List.mem_cons_self)
  refine ⟨hhonest, headers, hsigned, hlength, fun registry => ?_⟩
  refine Exchange.not_getsPast hhonest rfl hsigned hlength fun hpath => ?_
  have hone : OneByte [47, 233] := hpath.1
  rcases hone.2.2 with h | h | h
  · exact absurd h (by decide)
  · exact absurd h (by decide)
  · exact absurd h (by decide)

end Wire
