import BpcProtocol.Anomaly.Counts
import BpcProtocol.Pair.Operations

set_option autoImplicit false

/-! # Shadow state and its causes

A pair that is locked, or about to be, puts every address that asks for it into shadow state, whoever
has caused it, and no time ends that. An address whose requests never find the pair so, and fail no
check, stays out of it whatever other addresses do. -/

namespace Anomaly

open Async Pair Transition

/-! ## A server with its engine -/

/-- The server and its anomaly engine. -/
structure GuardedState where
  server : ServerState
  engine : AnomalyEngine

/-- The operation is one of the engine's. -/
def OfEngine : ServerOp → Prop
  | .external (.recordAnomaly _) => True
  | .external (.isInShadowState _ _) => True
  | .external (.getVerdict _ _) => True
  | _ => False

/-- What an operation does. -/
inductive GuardedExec (crypto : Crypto) :
    GuardedState → (o : ServerOp) → o.Answer → GuardedState → Prop
  | recordAnomaly (s : GuardedState) (event : AnomalyEvent) :
      GuardedExec crypto s (.external (.recordAnomaly event)) (.ok ())
        { s with engine := s.engine.record s.server.now event }
  | isInShadowState (s : GuardedState) (pairId ip : JsString) :
      GuardedExec crypto s (.external (.isInShadowState pairId ip))
        (s.engine.isInShadowState pairId ip) s
  | getVerdict (s : GuardedState) (pairId ip : JsString) :
      GuardedExec crypto s (.external (.getVerdict pairId ip))
        (.ok (s.engine.getVerdict pairId ip s.server.now).1)
        { s with engine := (s.engine.getVerdict pairId ip s.server.now).2 }
  | server {s : GuardedState} {o : ServerOp} {x : o.Answer} {t : ServerState} :
      ¬OfEngine o → ServerExec crypto s.server o x t → GuardedExec crypto s o x { s with server := t }

/-- What happens without a call: the clock moves, or the operator clears a shadow state. -/
inductive GuardedEnv : GuardedState → GuardedState → Prop
  | clock (s : GuardedState) (now : ℤ) : GuardedEnv s { s with server := { s.server with now } }
  | clear (s : GuardedState) (pairId ip : JsString) :
      GuardedEnv s { s with engine := s.engine.clearShadowState pairId ip }

/-- The service, from an empty store and with an engine that has been told nothing. -/
def guardedService (registry : RegistryConfig) (crypto : Crypto) :
    Service ServerRequest ServerOp ServerOp.Answer ServerError ServerResult GuardedState where
  body := ServerRequest.program registry
  admits _ := True
  init s := s.server.store = .empty ∧ s.server.tracker = .empty ∧ s.engine = .empty
  exec := GuardedExec crypto
  env := GuardedEnv

abbrev GuardedConfig (ι : Type) :=
  Config ι ServerRequest ServerOp ServerOp.Answer ServerError ServerResult GuardedState

/-! ## What the engine holds against an address -/

/-- The address is not in shadow state for the pair, and no failure is counted for the two. -/
structure Unsuspected (e : AnomalyEngine) (p ip : JsString) : Prop where
  outside : e.isInShadowState p ip = false
  uncounted : e.store.counters.get (ipPairKey ip p) = none

section Engine

variable {e : AnomalyEngine} {p x pairId ip : JsString} {now : ℤ}

theorem counters_incrementAll {s : MemoryAnomalyStore} {key : JsString}
    {timed : List (JsString × ℤ)} (hkey : key ∉ timed.map Prod.fst) :
    (s.incrementAll timed).counters.get key = s.counters.get key := by
  induction timed generalizing s with
  | nil => rfl
  | cons i rest ih =>
      rw [List.map_cons, List.mem_cons, not_or] at hkey
      refine (ih hkey.2).trans ?_
      exact MemoryAnomalyStore.counters_increment_of_ne hkey.1

theorem Unsuspected.enterShadowState (h : Unsuspected e p x) (reason : JsString)
    (hne : shadowKey p x ≠ shadowKey pairId ip) :
    Unsuspected (e.enterShadowState pairId ip reason now) p x where
  outside := by
    have hout := (OrderedMap.has_eq_false _).mp h.outside
    exact (OrderedMap.has_eq_false _).mpr ((OrderedMap.get_set_of_ne _ hne _).trans hout)
  uncounted := h.uncounted

theorem Unsuspected.clearShadowState (h : Unsuspected e p x) (pairId ip : JsString) :
    Unsuspected (e.clearShadowState pairId ip) p x where
  outside := by
    have hout := (OrderedMap.has_eq_false _).mp h.outside
    refine (OrderedMap.has_eq_false _).mpr ?_
    show (e.shadowState.delete (shadowKey pairId ip)).get (shadowKey p x) = none
    rw [OrderedMap.get_delete, hout, ite_self]
  uncounted := h.uncounted

/-- What is recorded of others, or of other things. -/
theorem Unsuspected.record (h : Unsuspected e p x) {event : AnomalyEvent}
    (hkey : ipPairKey x p ∉ keysOf event)
    (hshadow : ∀ pairId ip reason, event = .enterShadowState pairId ip reason →
      shadowKey p x ≠ shadowKey pairId ip) : Unsuspected (e.record now event) p x := by
  have hcounters : (e.store.incrementAll ((keysOf event).map fun key => (key, now))).counters.get
      (ipPairKey x p) = none := by
    rw [counters_incrementAll (by simpa using hkey)]
    exact h.uncounted
  cases event with
  | enterShadowState pairId ip reason => exact h.enterShadowState reason (hshadow pairId ip reason rfl)
  | _ => exact ⟨h.outside, hcounters⟩

/-- A verdict about an address that nothing is held against. -/
theorem Unsuspected.getVerdict_self (h : Unsuspected e p x) :
    (e.getVerdict p x now).1 ≠ .shadow ∧ Unsuspected (e.getVerdict p x now).2 p x := by
  have hnone : e.store.get (ipPairKey x p) now = 0 := by
    refine MemoryAnomalyStore.get_of_not_live (MemoryAnomalyStore.live_eq_none.mpr fun c hc => ?_)
    rw [h.uncounted] at hc
    cases hc
  have hjudge : e.getVerdict p x now =
      if (e.store.threatScore now).ge (.fin 70) then (.attack, e) else (.clean, e) := by
    rw [AnomalyEngine.getVerdict, h.outside, if_neg Bool.false_ne_true, AnomalyEngine.judge, hnone,
      if_neg (by decide), if_neg (by decide)]
  rw [hjudge]
  split
  · exact ⟨fun heq => (nomatch heq), h⟩
  · exact ⟨fun heq => (nomatch heq), h⟩

theorem Unsuspected.getVerdict_other (h : Unsuspected e p x)
    (hne : shadowKey p x ≠ shadowKey pairId ip) :
    Unsuspected (e.getVerdict pairId ip now).2 p x := by
  unfold AnomalyEngine.getVerdict AnomalyEngine.judge
  split
  · exact h
  · simp only
    split
    · exact h.enterShadowState _ hne
    · split
      · exact h
      · split
        · exact h
        · exact h

end Engine

/-! ## Requests of an address -/

section Standing

variable {ι : Type} (crypto : Crypto) (cfg : GuardedConfig ι) (p x : JsString)

/-- The call verifies a request on the pair that comes from the address. -/
def Requests (i : ι) (verifier : VerifierConfig) (req : BPCRequestData) : Prop :=
  (∃ rest, cfg.calls i = some ⟨.verifyBPCRequest verifier req, rest⟩) ∧ req.pairId = some p ∧
    req.sourceIp = x

/-- The payload is correctly signed with the key and the secret of the pair, and about this request. -/
structure CorrectlySigned (req : BPCRequestData) (headers : Headers) (auth : AuthorizationContext)
    (signed : SignedPayload) : Prop where
  decodes : DecodesTo headers.signedData signed
  given : truthy (signed.payload.get (Js.lit "secret_hmac")) = true
  keyed : auth.secretHash ≠ []
  secret : crypto.verifySecretHmac auth.secretHash signed.nonce signed.timestamp
    (signed.payload.get (Js.lit "secret_hmac")) = true
  bound : BoundTo req headers.pairId signed.payload
  signature : crypto.verifyPayload auth.pubJwk signed.payload headers.signature = .ok true

/-- The pair is legitimate, and every request of the address on it is correctly signed and fresh. -/
structure GoodStanding [DecidableEq ι] : Prop where
  legitimate : ∀ e ∈ cfg.log, ∀ pair, e.state.server.store.pairs.get p = some pair →
    kindOf pair.kind ≠ .ghost
  sound : ∀ i verifier req, Requests cfg p x i verifier req → ∀ headers auth,
    HeadersOf req headers → Found (ownTrace i cfg.log) p auth →
      ∃ signed, CorrectlySigned crypto req headers auth signed ∧
        ∀ now, ComparedAt (ownTrace i cfg.log) now → FreshAt verifier signed.timestamp now

/-- When a request of the address looks the pair up, the pair is not locked, nor have its failures
    reached the limit. -/
def FindsOpen : Prop :=
  ∀ i verifier req, Requests cfg p x i verifier req → ∀ e ∈ cfg.log, e.call = i →
    e.made.1 = .store (.get p) → ∀ pair, e.state.server.store.pairs.get p = some pair →
      pair.status ≠ .locked ∧ pair.failedSigs.ge (verifier.lockoutCount.getD (.fin 10)) = false

/-- The address is not in shadow state, and no request of it has been told that it is. -/
structure StaysOut : Prop where
  unsuspected : Unsuspected cfg.shared.engine p x
  state : ∀ e ∈ cfg.log, e.made ≠ ⟨.external (.isInShadowState p x), true⟩
  verdict : ∀ e ∈ cfg.log, e.made ≠ ⟨.external (.getVerdict p x), .ok .shadow⟩

end Standing

section Run

variable {ι : Type} [DecidableEq ι] {registry : RegistryConfig} {crypto : Crypto} {p x : JsString}
  {cfg cfg' : GuardedConfig ι}

theorem Requests.step (hstep : (guardedService registry crypto).Step cfg cfg') {i : ι}
    {verifier : VerifierConfig} {req : BPCRequestData} (h : Requests cfg p x i verifier req) :
    Requests cfg' p x i verifier req := by
  obtain ⟨⟨rest, hi⟩, hrest⟩ := h
  exact ⟨hstep.request hi, hrest⟩

/-- What holds of a run holds of what it has come from. -/
theorem GoodStanding.of_step (hstep : (guardedService registry crypto).Step cfg cfg')
    (h : GoodStanding crypto cfg' p x) : GoodStanding crypto cfg p x where
  legitimate e he := h.legitimate e (hstep.log.subset he)
  sound i verifier req hi headers auth hheaders hfound := by
    obtain ⟨signed, hsigned, hfresh⟩ := h.sound i verifier req (hi.step hstep) headers auth hheaders
      (hfound.mono (hstep.ownTrace i))
    exact ⟨signed, hsigned, fun now hnow => hfresh now (hnow.mono (hstep.ownTrace i))⟩

omit [DecidableEq ι] in
theorem FindsOpen.of_step [DecidableEq ι] (hstep : (guardedService registry crypto).Step cfg cfg')
    (h : FindsOpen cfg' p x) : FindsOpen cfg p x := fun i verifier req hi e he =>
  h i verifier req (hi.step hstep) e (hstep.log.subset he)

/-! ## A step of the service -/

/-- What is found is in the store. -/
theorem entry_of_found (hreach : Reachable ((guardedService registry crypto).system ι) cfg) {i : ι}
    {auth : AuthorizationContext} (hfound : Found (ownTrace i cfg.log) p auth) :
    ∃ e ∈ cfg.log, e.call = i ∧ e.made.1 = .store (.get p) ∧ ∃ pair,
      e.state.server.store.pairs.get p = some pair ∧ captureAuthorizationContext pair = .ok auth := by
  obtain ⟨pair, hget, hcapture⟩ := hfound
  obtain ⟨e, he, hcall, hmade⟩ := exists_entry hget
  refine ⟨e, he, hcall, by rw [hmade], pair, ?_, hcapture⟩
  obtain ⟨t, hexec⟩ := Service.exec_of_reachable hreach e he
  rw [hmade] at hexec
  have hexec : GuardedExec crypto e.state (.store (.get p)) (some pair) t := hexec
  cases hexec with
  | server _ hserver =>
      generalize (some pair : Option StoredPair) = answer at hserver
      cases hserver
      rfl

section Told

variable {i : ι} {verifier : VerifierConfig} {req : BPCRequestData}
  (hreach : Reachable ((guardedService registry crypto).system ι) cfg)
  (hstanding : GoodStanding crypto cfg p x) (hopen : FindsOpen cfg p x)
  (hrequests : Requests cfg p x i verifier req)
include hreach hstanding hrequests

include hopen in
/-- Nothing speaks against the address but a verdict. -/
theorem suspected_verdict
    (hsuspected : Suspected verifier (ownTrace i cfg.log) p x) :
    Answered (ownTrace i cfg.log) (.external (.getVerdict p x)) (.ok .shadow) := by
  have hfound : ∀ auth, Found (ownTrace i cfg.log) p auth → auth.status ≠ .locked ∧
      auth.failedSigs.ge (verifier.lockoutCount.getD (.fin 10)) = false ∧ auth.kind ≠ .ghost := by
    intro auth hfound
    obtain ⟨e, he, hcall, hmade, pair, hget, hcapture⟩ := entry_of_found hreach hfound
    obtain ⟨hlocked, hfailed⟩ := hopen i verifier req hrequests e he hcall hmade pair hget
    have hghost := hstanding.legitimate e he pair hget
    obtain ⟨jwk, -, heq⟩ := (Fallible.bind_eq_ok _ _ _).mp hcapture
    cases heq
    exact ⟨hlocked, hfailed, hghost⟩
  cases hsuspected with
  | verdict hanswer => exact hanswer
  | locked hf hlocked => exact absurd hlocked (hfound _ hf).1
  | ghost hf hghost => exact absurd hghost (hfound _ hf).2.2
  | threshold hf hfailed =>
      rw [(hfound _ hf).2.1] at hfailed
      cases hfailed

/-- No check of a request of the address fails. -/
theorem not_refused : ¬Refused verifier req (ownTrace i cfg.log) := by
  rintro ⟨headers, auth, hheaders, hfound, hfault⟩
  have hp : headers.pairId = p := Option.some.inj (hheaders.pairId.symm.trans hrequests.2.1)
  rw [hp] at hfound
  obtain ⟨signed, hsigned, hfresh⟩ :=
    hstanding.sound i verifier req hrequests headers auth hheaders hfound
  -- what the components answer is what the signature and the secret deserve
  have hanswer : ∀ {o : ServerOp} {answer : o.Answer}, Answered (ownTrace i cfg.log) o answer →
      ∃ s t, GuardedExec crypto s o answer t := by
    intro o answer h
    obtain ⟨e, he, -, hmade⟩ := exists_entry h
    obtain ⟨t, hexec⟩ := Service.exec_of_reachable hreach e he
    rw [hmade] at hexec
    exact ⟨e.state, t, hexec⟩
  refine hfault signed
    { decodes := hsigned.decodes
      given := hsigned.given
      keyed := hsigned.keyed
      secret := fun answer h => ?_
      fresh := hfresh
      bound := hsigned.bound
      signature := fun answer h => ?_ }
  · obtain ⟨s, t, hexec⟩ := hanswer h
    cases hexec with
    | server _ hserver =>
        cases hserver
        exact hsigned.secret
  · obtain ⟨s, t, hexec⟩ := hanswer h
    cases hexec with
    | server _ hserver =>
        cases hserver
        exact hsigned.signature

end Told

/-- What a verification does with the engine leaves an address unsuspected that is in good standing and
    finds the pair open. -/
theorem StaysOut.exec (hreach : Reachable ((guardedService registry crypto).system ι) cfg)
    (hform : pairIdRe p = true) (hstanding : GoodStanding crypto cfg p x)
    (hopen : FindsOpen cfg p x) (h : StaysOut cfg p x) {i : ι} {r : ServerRequest} {o : ServerOp}
    {k : o.Answer → ServerProg ServerResult} {answer : o.Answer} {t : GuardedState}
    (hi : cfg.calls i = some ⟨r, .await o k⟩) (hexec : GuardedExec crypto cfg.shared o answer t) :
    Unsuspected t.engine p x := by
  have huses := Service.uses_of_request (fun r _ => program_silently registry r) hreach i _ hi
  have hspeaks : r.IsVerification ∨ o.Silent := huses.1.2
  -- an operation that tells the engine, or asks it, is one of a verification
  have hmay : ¬o.Silent → ∃ verifier req, r = .verifyBPCRequest verifier req ∧
      May verifier req (ownTrace i cfg.log) o := by
    intro hloud
    cases r with
    | verifyBPCRequest verifier req =>
        refine ⟨verifier, req, rfl, ?_⟩
        obtain ⟨-, htrace⟩ := (Service.trace_of_reachable hreach i).1 _ _ hi
        have hfollows := htrace.follows
          ((@verifyBPCRequest_follows verifier req registry).map ServerResult.verification)
        exact hfollows.1
    | _ => exact (hspeaks.resolve_right hloud).elim
  have hrequests : ∀ {verifier req}, r = .verifyBPCRequest verifier req → req.pairId = some p →
      req.sourceIp = x → Requests cfg p x i verifier req := fun hr hp hx => ⟨⟨_, hr ▸ hi⟩, hp, hx⟩
  cases hexec with
  | server _ _ => exact h.unsuspected
  | isInShadowState pairId ip => exact h.unsuspected
  | getVerdict pairId ip =>
      obtain ⟨verifier, req, hr, hpair, hre, hip⟩ := hmay fun hsilent => hsilent
      by_cases hsame : pairId = p ∧ ip = x
      · obtain ⟨rfl, rfl⟩ := hsame
        exact h.unsuspected.getVerdict_self.2
      · refine h.unsuspected.getVerdict_other fun hkey => hsame ?_
        obtain ⟨hp, hx⟩ := shadowKey_inj hform hre hkey
        exact ⟨hp.symm, hx.symm⟩
  | recordAnomaly event =>
      obtain ⟨verifier, req, hr, hevent⟩ := hmay fun hsilent => hsilent
      refine h.unsuspected.record ?_ ?_
      · have hcounter : ∀ pairId, ipPairKey x p ∉ counterKeys "sig_fail" pairId := by
          intro pairId hmem
          rcases mem_counterKeys.mp hmem with heq | ⟨id, -, heq⟩
          · exact ipPairKey_ne_globalKey heq
          · exact ipPairKey_ne_pairKey heq
        cases event with
        | sigFailure pairId => exact hcounter pairId
        | sigFailureForIp pairId ip =>
            obtain ⟨⟨hpair, hre, hip⟩, hrefused⟩ := hevent
            intro hmem
            refine (List.mem_cons.mp hmem).elim (fun hkey => ?_) (hcounter (some pairId))
            obtain ⟨rfl, rfl⟩ := ipPairKey_inj hform hre hkey
            exact not_refused hreach hstanding (hrequests hr hpair hip.symm) hrefused
        | _ => exact (FailureKey.address x p).not_mem_keysOf rfl
      · rintro pairId ip reason rfl hkey
        obtain ⟨⟨hpair, hre, hip⟩, hsuspected⟩ := hevent
        obtain ⟨rfl, rfl⟩ := shadowKey_inj hform hre hkey
        have hverdict := suspected_verdict hreach hstanding hopen (hrequests hr hpair hip.symm)
          hsuspected
        obtain ⟨e, he, -, hmade⟩ := exists_entry hverdict
        exact h.verdict e he hmade

theorem StaysOut.step (hreach : Reachable ((guardedService registry crypto).system ι) cfg)
    (hform : pairIdRe p = true) (hstanding : GoodStanding crypto cfg p x)
    (hopen : FindsOpen cfg p x) (h : StaysOut cfg p x)
    (hstep : (guardedService registry crypto).Step cfg cfg') : StaysOut cfg' p x := by
  cases hstep with
  | start i r _ _ => exact ⟨h.unsuspected, h.state, h.verdict⟩
  | env s henv =>
      refine ⟨?_, h.state, h.verdict⟩
      cases henv with
      | clock now => exact h.unsuspected
      | clear pairId ip => exact h.unsuspected.clearShadowState pairId ip
  | exec i r o k answer t hi hexec =>
      refine ⟨h.exec hreach hform hstanding hopen hi hexec, fun e he => ?_, fun e he => ?_⟩
      · rcases List.mem_append.mp he with he | he
        · exact h.state e he
        · rw [List.mem_singleton.mp he]
          intro hmade
          cases hmade
          generalize hanswer : true = answer at hexec
          cases hexec with
          | isInShadowState =>
              rw [h.unsuspected.outside] at hanswer
              cases hanswer
          | server hof _ => exact hof trivial
      · rcases List.mem_append.mp he with he | he
        · exact h.verdict e he
        · rw [List.mem_singleton.mp he]
          intro hmade
          cases hmade
          generalize hanswer : (Except.ok AnomalyVerdict.shadow : Except ServerError AnomalyVerdict) =
            answer at hexec
          cases hexec with
          | getVerdict =>
              exact h.unsuspected.getVerdict_self.1 (Except.ok.inj hanswer).symm
          | server hof _ => exact hof trivial

/-- **Shadow state is for the addresses that deserve it**, in every run in which the requests of an
    address in good standing find the pair neither locked nor at its limit. -/
theorem staysOut (hreach : Reachable ((guardedService registry crypto).system ι) cfg)
    (hform : pairIdRe p = true) (hstanding : GoodStanding crypto cfg p x)
    (hopen : FindsOpen cfg p x) : StaysOut cfg p x := by
  refine Reachable.invariant (I := fun cfg => GoodStanding crypto cfg p x → FindsOpen cfg p x →
    StaysOut cfg p x) ?_ ?_ hreach hstanding hopen
  · rintro cfg ⟨⟨-, -, hengine⟩, -, hlog⟩ - -
    refine ⟨?_, fun e he => ?_, fun e he => ?_⟩
    · rw [hengine]
      exact ⟨rfl, rfl⟩
    · rw [hlog] at he
      cases he
    · rw [hlog] at he
      cases he
  · intro cfg cfg' hreach ih hstep hstanding hopen
    have hbefore := hstanding.of_step hstep
    have hopenBefore := FindsOpen.of_step hstep hopen
    exact (ih hbefore hopenBefore).step hreach hform hbefore hopenBefore hstep

end Run

/-! ## Two addresses -/

/-- One operation, where the components agree. -/
def GuardedState.perform (crypto : Crypto) (s : GuardedState) :
    (o : ServerOp) → o.Answer × GuardedState
  | .external (.recordAnomaly event) =>
      (.ok (), { s with engine := s.engine.record s.server.now event })
  | .external (.isInShadowState pairId ip) => (s.engine.isInShadowState pairId ip, s)
  | .external (.getVerdict pairId ip) =>
      (.ok (s.engine.getVerdict pairId ip s.server.now).1,
        { s with engine := (s.engine.getVerdict pairId ip s.server.now).2 })
  | o => ((s.server.perform crypto o).1, { s with server := (s.server.perform crypto o).2 })

theorem GuardedState.exec_perform (crypto : Crypto) (s : GuardedState) (o : ServerOp) :
    GuardedExec crypto s o (s.perform crypto o).1 (s.perform crypto o).2 := by
  have hserver := s.server.exec_perform crypto o
  cases o with
  | external o =>
      cases o with
      | recordAnomaly event => exact .recordAnomaly s event
      | isInShadowState pairId ip => exact .isInShadowState s pairId ip
      | getVerdict pairId ip => exact .getVerdict s pairId ip
      | _ => exact .server (fun h => h) hserver
  | _ => exact .server (fun h => h) hserver

/-- Only the signature `signature` verifies. -/
def bySignature : Crypto where
  verifySecretHmac _ _ _ _ := true
  verifyPayload _ _ signature := .ok (decide (signature = Js.lit "signature"))

/-- A request on the first pair, from an address and with a signature. -/
def requestFrom (ip signature : String) : BPCRequestData :=
  { requestWith (Js.lit "pair_0") samplePayload with
    ip := some (Js.lit ip)
    signature := some (Js.lit signature) }

/-- A forged request, a request in good order, and another one once the pair is unlocked. -/
def mixedRequests : List ServerRequest :=
  [.registerDirect (sampleRegistration "sample" none),
    .verifyBPCRequest sampleVerifier (requestFrom "10.0.0.9" "forged"),
    .verifyBPCRequest sampleVerifier (requestFrom "10.0.0.1" "signature"),
    .unlock (Js.lit "pair_0"),
    .verifyBPCRequest sampleVerifier (requestFrom "10.0.0.1" "signature")]

/-- These requests where a pair is locked behind so many failures. -/
def mixedRun (lockoutCount : JsNumber) : GuardedConfig ℕ :=
  (guardedService ⟨.fin 9, lockoutCount⟩ bySignature).serveAll (GuardedState.perform bySignature)
    ⟨⟨⟨.empty, .empty, 0⟩, .empty⟩, fun _ => none, []⟩ 0 mixedRequests

/-- The pair is legitimate and has a secret, and it is the time 0 all along. -/
def soundEntry (e : Entry ℕ ServerOp ServerOp.Answer GuardedState) : Bool :=
  (e.state.server.store.pairs.get (Js.lit "pair_0")).all (fun pair =>
    decide (kindOf pair.kind ≠ .ghost) && !pair.secretHash.isEmpty) &&
  match e.made with
  | ⟨.dateNow, now⟩ => decide (now = .fin 0)
  | _ => true

/-- The pair is neither locked nor at its limit. -/
def openEntry (e : Entry ℕ ServerOp ServerOp.Answer GuardedState) : Bool :=
  (e.state.server.store.pairs.get (Js.lit "pair_0")).all fun pair =>
    decide (pair.status ≠ .locked) && !pair.failedSigs.ge (.fin 10)

theorem mixedRun_reachable (lockoutCount : JsNumber) :
    Reachable ((guardedService ⟨.fin 9, lockoutCount⟩ bySignature).system ℕ)
      (mixedRun lockoutCount) := by
  have hrun : Run ((guardedService ⟨.fin 9, lockoutCount⟩ bySignature).system ℕ)
      ⟨⟨⟨.empty, .empty, 0⟩, .empty⟩, fun _ => none, []⟩ (mixedRun lockoutCount) :=
    Service.run_serveAll (GuardedState.exec_perform bySignature) (fun _ _ => rfl) fun _ _ => trivial
  exact hrun.reachable (.init ⟨⟨rfl, rfl, rfl⟩, fun _ => rfl, rfl⟩)

/-- What the payload of these requests says. -/
theorem decoded_sample : ∃ signed, DecodesTo samplePayload signed ∧ signed.timestamp = .fin 0 ∧
    truthy (signed.payload.get (Js.lit "secret_hmac")) = true ∧
    BoundTo (requestFrom "10.0.0.1" "signature") (Js.lit "pair_0") signed.payload := by
  have hsome : ((decodePayload samplePayload).any fun payload =>
      ((stringOf (payload.get (Js.lit "nonce"))).filter uuidRe).isSome &&
      decide (finiteNumber (payload.get (Js.lit "timestamp")) = some (.fin 0)) &&
      truthy (payload.get (Js.lit "secret_hmac")) &&
      !differs payload "method" (.string (Js.lit "GET")) &&
      !differs payload "path" (.string (Js.lit "/")) &&
      !differs payload "pair_id" (.string (Js.lit "pair_0")) &&
      !differs payload "version" (.string bpcProtocolVersion) &&
      decide (nonEmpty (stringOf (payload.get (Js.lit "body_hash"))) = some (Js.lit "h"))) = true := by
    decide +kernel
  obtain ⟨payload, hdecode, hpayload⟩ := (Option.any_eq_true _ _).mp hsome
  simp only [Bool.and_eq_true, Bool.not_eq_true', decide_eq_true_eq] at hpayload
  obtain ⟨⟨⟨⟨⟨⟨⟨hnonce, htime⟩, htruthy⟩, hmethod⟩, hpath⟩, hpair⟩, hversion⟩, hbody⟩ := hpayload
  obtain ⟨nonce, hnonce⟩ := Option.isSome_iff_exists.mp hnonce
  exact ⟨⟨payload, nonce, .fin 0⟩, ⟨hdecode, hnonce, htime⟩, rfl, htruthy,
    ⟨hmethod, hpath, hpair, hversion, _, hbody, rfl⟩⟩

/-- The requests of this address are all the same one. -/
theorem requests_mixed {lockoutCount : JsNumber} {i : ℕ} {verifier : VerifierConfig}
    {req : BPCRequestData}
    (h : Requests (mixedRun lockoutCount) (Js.lit "pair_0") (Js.lit "10.0.0.1") i verifier req) :
    verifier = sampleVerifier ∧ req = requestFrom "10.0.0.1" "signature" := by
  obtain ⟨⟨rest, hi⟩, -, hip⟩ := h
  rcases Service.request_of_serveAll hi with hnone | hmem
  · cases hnone
  · simp only [mixedRequests, List.mem_cons, List.not_mem_nil, or_false, reduceCtorEq, false_or,
      ServerRequest.verifyBPCRequest.injEq] at hmem
    rcases hmem with ⟨-, rfl⟩ | hsame | hsame
    · exact absurd hip (by decide)
    · exact hsame
    · exact hsame

theorem mixedRun_goodStanding {lockoutCount : JsNumber}
    (hsound : (mixedRun lockoutCount).log.all soundEntry = true) :
    GoodStanding bySignature (mixedRun lockoutCount) (Js.lit "pair_0") (Js.lit "10.0.0.1") where
  legitimate e he pair hget := by
    have hentry := List.all_eq_true.mp hsound e he
    simp only [soundEntry, hget, Option.all_some, Bool.and_eq_true, decide_eq_true_eq] at hentry
    exact hentry.1.1
  sound i verifier req hrequests headers auth hheaders hfound := by
    obtain ⟨rfl, rfl⟩ := requests_mixed hrequests
    obtain ⟨signed, hdecodes, htime, htruthy, hbound⟩ := decoded_sample
    have hpairId : headers.pairId = Js.lit "pair_0" := (Option.some.inj hheaders.pairId).symm
    have hdata : headers.signedData = samplePayload := (Option.some.inj hheaders.signedData).symm
    have hsignature : headers.signature = Js.lit "signature" :=
      (Option.some.inj hheaders.signature).symm
    obtain ⟨e, he, -, -, pair, hget, hcapture⟩ := entry_of_found (mixedRun_reachable _) hfound
    have hentry := List.all_eq_true.mp hsound e he
    simp only [soundEntry, hget, Option.all_some, Bool.and_eq_true, Bool.not_eq_true',
      List.isEmpty_eq_false_iff] at hentry
    refine ⟨signed, ⟨hdata ▸ hdecodes, htruthy, ?_, rfl, hpairId ▸ hbound, ?_⟩, ?_⟩
    · obtain ⟨jwk, -, heq⟩ := (Fallible.bind_eq_ok _ _ _).mp hcapture
      cases heq
      exact hentry.1.2
    · rw [hsignature]
      rfl
    · rintro now ⟨h₁, h₂, -, hcompared⟩
      obtain ⟨e, he, -, hmade⟩ := exists_entry
        (hcompared ▸ List.mem_append_right h₁ List.mem_cons_self)
      have hentry := List.all_eq_true.mp hsound e he
      simp only [soundEntry, hmade, Bool.and_eq_true, decide_eq_true_eq] at hentry
      rw [htime, hentry.2, FreshAt]
      decide +kernel

theorem mixedRun_stays_out :
    StaysOut (mixedRun (.fin 9)) (Js.lit "pair_0") (Js.lit "10.0.0.1") := by
  have hlog : ((mixedRun (.fin 9)).log.all fun e => soundEntry e && openEntry e) = true := by
    decide +kernel
  have hentries : ∀ e ∈ (mixedRun (.fin 9)).log, soundEntry e = true ∧ openEntry e = true :=
    fun e he => Bool.and_eq_true_iff.mp (List.all_eq_true.mp hlog e he)
  have hsound := List.all_eq_true.mpr fun e he => (hentries e he).1
  refine staysOut (mixedRun_reachable _) (by decide) (mixedRun_goodStanding hsound) ?_
  intro i verifier req hrequests e he hcall hmade pair hget
  rw [(requests_mixed hrequests).1]
  have hentry := (hentries e he).2
  simp only [openEntry, hget, Option.all_some, Bool.and_eq_true, Bool.not_eq_true',
    decide_eq_true_eq] at hentry
  exact hentry

/-- The pair is locked by another address, an address in good standing asks for it, and its next request
    finds the pair active and is answered as a shadow. -/
theorem locked_out_by_another :
    Reachable ((guardedService ⟨.fin 9, .fin 1⟩ bySignature).system ℕ) (mixedRun (.fin 1)) ∧
      GoodStanding bySignature (mixedRun (.fin 1)) (Js.lit "pair_0") (Js.lit "10.0.0.1") ∧
      ((mixedRun (.fin 1)).shared.server.store.pairs.get (Js.lit "pair_0")).map StoredPair.status =
        some .active ∧
      (mixedRun (.fin 1)).shared.engine.isInShadowState (Js.lit "pair_0") (Js.lit "10.0.0.1") = true ∧
      ¬StaysOut (mixedRun (.fin 1)) (Js.lit "pair_0") (Js.lit "10.0.0.1") := by
  have hrun : ((mixedRun (.fin 1)).log.all soundEntry && decide (((mixedRun (.fin 1)).shared.server.store.pairs.get
      (Js.lit "pair_0")).map StoredPair.status = some .active) &&
      (mixedRun (.fin 1)).shared.engine.isInShadowState (Js.lit "pair_0") (Js.lit "10.0.0.1")) = true := by
    decide +kernel
  obtain ⟨hrun, hshadow⟩ := Bool.and_eq_true_iff.mp hrun
  obtain ⟨hsound, hactive⟩ := Bool.and_eq_true_iff.mp hrun
  refine ⟨mixedRun_reachable _, mixedRun_goodStanding hsound, of_decide_eq_true hactive, hshadow,
    fun hout => ?_⟩
  have hoff := hout.unsuspected.outside
  rw [hshadow] at hoff
  cases hoff

end Anomaly
