import BpcProtocol.Js.Window
import BpcProtocol.Pair.Authorized
import BpcProtocol.Pair.FailsClosed

set_option autoImplicit false

/-! # No replay

Two authorizations of one payload have consumed one nonce, each within the window of its timestamp
around the time that it holds. Where the nonce is retained for both windows and for as long as a call
may take from the one check to the other, the later of the two was a replay. -/

namespace Pair

open Async Transition JsNumber

variable {ι : Type} {registry : RegistryConfig} {crypto : Crypto} {cfg : ServerConfig ι}

/-! ## Time, the backend, and the calls -/

/-- Time passes: no operation is made at an earlier time than the one before it. -/
def TimePasses (log : List (ServerEntry ι)) : Prop :=
  log.Pairwise fun e e' => e.state.now ≤ e'.state.now

/-- The nonce that was consumed before is not answered as fresh until its retention is over. -/
def Retained (e e' : ServerEntry ι) : Prop :=
  ∀ nonce (ttl : ℚ) ttl' x, e.made = ⟨.checkAndConsume nonce (.fin ttl), .ok false⟩ →
    e'.made = ⟨.checkAndConsume nonce ttl', x⟩ →
    (e'.state.now : ℚ) ≤ e.state.now + ttl → x ≠ .ok false

def RetainsNonces (log : List (ServerEntry ι)) : Prop :=
  log.Pairwise Retained

/-- Every call consumes its nonce within this time of the clock reading that it has compared the
    timestamp with. -/
def ConsumesWithin [DecidableEq ι] (D : ℚ) (log : List (ServerEntry ι)) : Prop :=
  ∀ e ∈ log, ∀ nonce ttl x (now : ℚ), e.made = ⟨.checkAndConsume nonce ttl, x⟩ →
    ComparedAt (ownTrace e.call log) (.fin now) → (e.state.now : ℚ) ≤ now + D

/-- The retention that the constructor of `ServerNonceStore` accepts. -/
def IsRetention (ttl : ℤ) : Prop :=
  Js.isSafeInteger ttl = true ∧ 0 < ttl

theorem IsRetention.lt {ttl : ℤ} (h : IsRetention ttl) : ttl < 2 ^ 53 := by
  obtain ⟨hsafe, -⟩ := h
  rw [Js.isSafeInteger, Bool.and_eq_true, decide_eq_true_iff, decide_eq_true_iff,
    Js.maxSafeInteger] at hsafe
  omega

/-- The call is a verification that has authorized. -/
def Authorizes (cfg : ServerConfig ι) (i : ι) (v : VerifierConfig) (req : BPCRequestData) : Prop :=
  ∃ r : BPCVerifyResult, cfg.calls i = some ⟨.verifyBPCRequest v req, .ret (.verification r)⟩ ∧
    r.ok = true

/-- The signed data of the request decodes to this payload. -/
def Carries (req : BPCRequestData) (payload : JsValue) : Prop :=
  ∃ signedData, req.signedData = some signedData ∧ decodePayload signedData = some payload

variable [DecidableEq ι]

/-- What the clock was read as is the time of the reading. -/
theorem clock_of_reachable (h : Reachable ((serverService registry crypto).system ι) cfg)
    {e : ServerEntry ι} (he : e ∈ cfg.log) {x : JsNumber} (hmade : e.made = ⟨.dateNow, x⟩) :
    x = .fin (e.state.now : ℤ) := by
  obtain ⟨t, hexec⟩ := Service.exec_of_reachable h e he
  rw [hmade] at hexec
  cases hexec
  rfl

/-- What an authorization has done to the nonce: it was fresh at this entry, no earlier than the clock
    reading `t` within the window of the timestamp, and not much later. -/
structure Consumption (cfg : ServerConfig ι) (i : ι) (v : VerifierConfig) (payload : JsValue) (D : ℚ)
    (e : ServerEntry ι) (t : ℤ) (ts : ℚ) (nonce : JsString) : Prop where
  logged : e ∈ cfg.log
  call : e.call = i
  made : e.made = ⟨.checkAndConsume nonce v.nonceWindowMs, .ok false⟩
  nonce : (stringOf (payload.get (Js.lit "nonce"))).filter uuidRe = some nonce
  timestamp : finiteNumber (payload.get (Js.lit "timestamp")) = some (.fin ts)
  fresh : v.sigWindowMs.lt ((JsNumber.fin t).sub (.fin ts)).abs = false
  after : t ≤ e.state.now
  within : (e.state.now : ℚ) ≤ t + D

theorem exists_consumption (h : Reachable ((serverService registry crypto).system ι) cfg)
    (htime : TimePasses cfg.log) {D : ℚ} (hwithin : ConsumesWithin D cfg.log) {i : ι}
    {v : VerifierConfig} {req : BPCRequestData} (hauth : Authorizes cfg i v req) {payload : JsValue}
    (hcarries : Carries req payload) : ∃ e t ts nonce, Consumption cfg i v payload D e t ts nonce := by
  obtain ⟨r, hcall, hok⟩ := hauth
  obtain ⟨r', hr', htrace⟩ := trace_of_map ((Service.trace_of_reachable h i).1 _ _ hcall).2
  cases hr'
  obtain ⟨a⟩ := exists_authorization htrace hok
  obtain ⟨h₁, h₂, hsecret, hchecks⟩ := a.compared
  obtain ⟨h₃, hhistory⟩ := a.consumed
  rw [hchecks, List.append_assoc, List.cons_append] at hhistory
  obtain ⟨e, e', hsub, -, he, hcall', he'⟩ := exists_entries hhistory
  have hlog : e ∈ cfg.log ∧ e' ∈ cfg.log := ⟨hsub.subset (by simp), hsub.subset (by simp)⟩
  have hnow := clock_of_reachable h hlog.1 he
  -- the payload that the call has decoded
  obtain ⟨signedData, hsigned, hdecoded⟩ := hcarries
  have hdecodes := a.checked.decodes
  have hsame : a.headers.signedData = signedData :=
    Option.some.inj (a.checked.named.signedData.symm.trans hsigned)
  have hpayload : a.signed.payload = payload :=
    Option.some.inj (hdecodes.decoded.symm.trans (hsame ▸ hdecoded))
  have htimestamp := hdecodes.timestamp
  have hnonce := hdecodes.nonce
  rw [hpayload] at htimestamp hnonce
  obtain ⟨ts, hts⟩ : ∃ ts, a.signed.timestamp = .fin ts := by
    have hfinite := (number_of_finiteNumber htimestamp).2
    cases hn : a.signed.timestamp with
    | fin ts => exact ⟨ts, rfl⟩
    | _ =>
        rw [hn] at hfinite
        cases hfinite
  have hfresh := a.checked.fresh
  rw [FreshAt, hnow, hts] at hfresh
  have hcompared : ComparedAt (ownTrace e'.call cfg.log) (.fin ((e.state.now : ℤ) : ℚ)) := by
    rw [hcall', ← hnow]
    exact ⟨h₁, _, hsecret, hhistory⟩
  have hpair := List.Pairwise.sublist hsub htime
  have hafter : e.state.now ≤ e'.state.now :=
    List.rel_of_pairwise_cons hpair (List.mem_singleton_self e')
  exact ⟨e', e.state.now, ts, a.signed.nonce,
    { logged := hlog.2
      call := hcall'
      made := he'
      nonce := hnonce
      timestamp := hts ▸ htimestamp
      fresh := hfresh
      after := hafter
      within := hwithin e' hlog.2 _ _ _ _ he' hcompared }⟩

omit [DecidableEq ι] in
/-- A nonce is not consumed a second time while its timestamp is within the window. -/
theorem Consumption.not_again {e e' : ServerEntry ι} {i j : ι} {v v' : VerifierConfig}
    {payload : JsValue} {W D : ℚ} {ttl t t' : ℤ} {ts ts' : ℚ} {nonce nonce' : JsString}
    (hc : Consumption cfg i v payload D e t ts nonce)
    (hc' : Consumption cfg j v' payload D e' t' ts' nonce')
    (hv : v.nonceWindowMs = .fin ttl ∧ Le v.sigWindowMs (.fin W)) (hv' : Le v'.sigWindowMs (.fin W))
    (hretention : IsRetention ttl) (hcovers : 2 * W + D ≤ ttl)
    (hretains : Retained e e') : False := by
  obtain rfl : nonce = nonce' := Option.some.inj (hc.nonce.symm.trans hc'.nonce)
  obtain rfl : ts = ts' := by
    have hts := Option.some.inj (hc.timestamp.symm.trans hc'.timestamp)
    cases hts
    rfl
  have hafter : (t : ℚ) ≤ e.state.now := by exact_mod_cast hc.after
  have hafter' : (t' : ℚ) ≤ e'.state.now := by exact_mod_cast hc'.after
  have hW : W < 2 ^ 52 := by
    have hlt : (ttl : ℚ) < 2 ^ 53 := by exact_mod_cast hretention.lt
    have hD : 0 ≤ D := by linarith [hc.within]
    linarith
  have hclose : (t' : ℚ) - t ≤ 2 * W := le_of_within hv.2 hv' hW hc.fresh hc'.fresh
  refine hretains nonce ttl v'.nonceWindowMs (.ok false) (hv.1 ▸ hc.made) hc'.made ?_ rfl
  calc (e'.state.now : ℚ) ≤ t' + D := hc'.within
    _ ≤ t + 2 * W + D := by linarith
    _ ≤ e.state.now + ttl := by linarith

/-- The verifier of the samples, with nonces that are retained for two windows and ten seconds. -/
def retainingVerifier : VerifierConfig :=
  { sampleVerifier with nonceWindowMs := .fin 130000 }

def acceptedRun : ServerConfig ℕ :=
  (ServerConfig.start 0).serve ⟨.fin 9, .fin 9⟩ .agreeing 0
    [.registerDirect (sampleRegistration "sample" none),
      .verifyBPCRequest retainingVerifier (requestWith (Js.lit "pair_0") samplePayload)]

/-- The call has returned `ok: true`. -/
def accepted (call : Call ServerRequest ServerOp ServerOp.Answer ServerError ServerResult) : Bool :=
  match call.rest with
  | .ret (.verification r) => r.ok
  | _ => false

theorem authorizes_of_accepted {i : ℕ} {v : VerifierConfig} {req : BPCRequestData}
    {rest : ServerProg ServerResult} {cfg : ServerConfig ℕ}
    (hcall : cfg.calls i = some ⟨.verifyBPCRequest v req, rest⟩)
    (h : (cfg.calls i).any accepted = true) : Authorizes cfg i v req := by
  rw [hcall, Option.any_some, accepted] at h
  split at h
  · next r heq => exact ⟨r, heq ▸ hcall, h⟩
  · cases h

def isConsumption (e : ServerEntry ℕ) : Bool :=
  match e.made with
  | ⟨.checkAndConsume _ _, _⟩ => true
  | _ => false

/-- Where one nonce only is consumed, none is answered twice. -/
theorem retainsNonces_of_single {log : List (ServerEntry ℕ)}
    (h : (log.filter isConsumption).length ≤ 1) : RetainsNonces log := by
  have hnone : (log.filter isConsumption).Pairwise fun _ _ => False := by
    cases hlog : log.filter isConsumption with
    | nil => exact .nil
    | cons e rest =>
        rw [hlog, List.length_cons] at h
        rw [List.length_eq_zero_iff.mp (by omega : rest.length = 0)]
        exact List.pairwise_singleton _ _
  refine (List.pairwise_filter.mp hnone).imp ?_
  intro a b hab nonce ttl ttl' x ha hb
  exact (hab (by rw [isConsumption, ha]) (by rw [isConsumption, hb])).elim

theorem reachable_acceptedRun :
    Reachable ((serverService ⟨.fin 9, .fin 9⟩ .agreeing).system ℕ) acceptedRun :=
  (ServerConfig.run_serve .agreeing (fun _ _ => rfl) _).reachable (ServerConfig.reachable_start _ 0)

theorem authorizes_acceptedRun :
    Authorizes acceptedRun 1 retainingVerifier (requestWith (Js.lit "pair_0") samplePayload) := by
  have haccepted : (acceptedRun.calls 1).any accepted = true := by decide +kernel
  have hcall : acceptedRun.calls 1 = some ⟨.verifyBPCRequest retainingVerifier
      (requestWith (Js.lit "pair_0") samplePayload), _⟩ := rfl
  exact authorizes_of_accepted hcall haccepted

end Pair
