import BpcProtocol.Pair.Middleware

set_option autoImplicit false

/-! # The pair service

Any number of registry calls, rotations and verifications over one memory store. Each operation of
the store is one step; between two of them any other call may act, the clock may be read anew, and
the components that the caller passed in answer as they like. -/

namespace Pair

open Fallible Async

/-- The store, the registry's tracker of source addresses, and the clock. -/
structure ServerState where
  store : MemoryPairStore
  tracker : IpFailureTracker
  now : ℤ

/-- The verification functions of the core package. -/
structure Crypto where
  verifySecretHmac : JsString → JsString → JsNumber → JsValue → Bool
  verifyPayload : JsonWebKey → JsValue → JsString → Except ServerError Bool

/-- What an operation does. -/
inductive ServerExec (crypto : Crypto) :
    ServerState → (o : ServerOp) → o.Answer → ServerState → Prop
  | store (s : ServerState) (o : StoreOp) :
      ServerExec crypto s (.store o) (s.store.run o).1 { s with store := (s.store.run o).2 }
  | dateNow (s : ServerState) : ServerExec crypto s .dateNow (.fin (s.now : ℤ)) s
  | evictStaleIpEntries (s : ServerState) (now : JsNumber) :
      ServerExec crypto s (.evictStaleIpEntries now) ()
        { s with tracker := Pair.evictStaleIpEntries s.tracker now }
  | trackIpFailure (s : ServerState) (ipKey : JsString) (now : JsNumber) :
      ServerExec crypto s (.trackIpFailure ipKey now) (Pair.trackIpFailure s.tracker ipKey now).1
        { s with tracker := (Pair.trackIpFailure s.tracker ipKey now).2 }
  | clearIpFailures (s : ServerState) (pairId : JsString) :
      ServerExec crypto s (.clearIpFailures pairId) ()
        { s with tracker := Pair.clearIpFailures s.tracker pairId }
  | checkAndConsume (s : ServerState) (nonce : JsString) (ttlMs : JsNumber)
      (answer : Except Nonce.NonceError Bool) :
      ServerExec crypto s (.checkAndConsume nonce ttlMs) answer s
  | verifySecretHmac (s : ServerState) (storedHmacKey nonce : JsString) (timestamp : JsNumber)
      (secretHmac : JsValue) :
      ServerExec crypto s (.verifySecretHmac storedHmacKey nonce timestamp secretHmac)
        (crypto.verifySecretHmac storedHmacKey nonce timestamp secretHmac) s
  | verifyPayload (s : ServerState) (pubJwk : JsonWebKey) (payload : JsValue)
      (signature : JsString) :
      ServerExec crypto s (.verifyPayload pubJwk payload signature)
        (crypto.verifyPayload pubJwk payload signature) s
  | external (s : ServerState) (o : ExternalOp) (answer : o.Answer) :
      ServerExec crypto s (.external o) answer s

/-- The calls of the service. -/
inductive ServerRequest where
  | requestPairing (registration : PairRegistration)
  | approvePairing (token : JsString)
  | registerDirect (registration : PairRegistration)
  | revoke (pairId : JsString)
  | recordActivity (pairId : JsString) (success : Bool) (ip : JsString)
  | claimSuccessfulUse (pairId : JsString)
  | claimSuccessfulUseOutcome (pairId : JsString) (at_ : JsNumber) (expected : SuccessfulUsePolicy)
  | markExpired (pairId : JsString) (now : JsNumber)
  | markUsageExpired (pairId : JsString)
  | ensureLocked (pairId : JsString) (minimumFailures : JsNumber)
  | unlock (pairId : JsString)
  | updatePair (pairId : JsString) (updates : PairUpdates)
  | handleRotation (cfg : RotationConfig) (req : RotationRequest)
  | verifyBPCRequest (cfg : VerifierConfig) (req : BPCRequestData)

inductive ServerResult where
  | done
  | id (id : JsString)
  | flag (b : Bool)
  | claim (outcome : SuccessfulUseClaim)
  | pair (p : Option StoredPair)
  | rotation (result : RotationResult)
  | verification (result : BPCVerifyResult)

variable (registry : RegistryConfig)

/-- The program of each call. -/
def ServerRequest.program : ServerRequest → ServerProg ServerResult
  | requestPairing registration => .id <$> Pair.requestPairing registry registration
  | approvePairing token => .id <$> Pair.approvePairing registry token
  | registerDirect registration => .id <$> Pair.registerDirect registry registration
  | revoke pairId => (fun _ => .done) <$> Pair.revoke pairId
  | recordActivity pairId success ip =>
      (fun _ => .done) <$> Pair.recordActivity registry pairId success ip
  | claimSuccessfulUse pairId => .flag <$> Pair.claimSuccessfulUse pairId
  | claimSuccessfulUseOutcome pairId at_ expected =>
      .claim <$> Pair.claimSuccessfulUseOutcome pairId at_ expected
  | markExpired pairId now => .flag <$> Pair.markExpired pairId now
  | markUsageExpired pairId => .flag <$> Pair.markUsageExpired pairId
  | ensureLocked pairId minimumFailures => .flag <$> Pair.ensureLocked pairId minimumFailures
  | unlock pairId => (fun _ => .done) <$> Pair.unlock pairId
  | updatePair pairId updates => .pair <$> Pair.updatePair pairId updates
  | handleRotation cfg req => .rotation <$> Pair.handleRotation cfg req
  | verifyBPCRequest cfg req => .verification <$> Pair.verifyBPCRequest registry cfg req

/-- The service, from an empty store. The clock may be set at any time. -/
def serverService (crypto : Crypto) :
    Service ServerRequest ServerOp ServerOp.Answer ServerError ServerResult ServerState where
  body := ServerRequest.program registry
  admits _ := True
  init s := s.store = .empty ∧ s.tracker = .empty
  exec := ServerExec crypto
  env s s' := ∃ now, s' = { s with now }

abbrev ServerConfig (ι : Type) :=
  Config ι ServerRequest ServerOp ServerOp.Answer ServerError ServerResult ServerState

/-! ## An environment that agrees to everything -/

/-- Components that let everything pass, and identities numbered by the pairs there are. -/
def agreeing (s : ServerState) : (o : ExternalOp) → o.Answer
  | .audit _ => .ok ()
  | .rateLimit _ => .ok true
  | .recordAnomaly _ => .ok ()
  | .isInShadowState _ _ => false
  | .getVerdict _ _ => .ok .clean
  | .delay _ => ()
  | .assertAcceptable => .ok ()
  | .generateId kind => Js.lit kind ++ Js.lit "_" ++ Js.natDigits s.store.pairs.entries.length

/-- One operation, where the components agree and every nonce is fresh. -/
def ServerState.perform (crypto : Crypto) (s : ServerState) : (o : ServerOp) → o.Answer × ServerState
  | .store o => ((s.store.run o).1, { s with store := (s.store.run o).2 })
  | .dateNow => (.fin (s.now : ℤ), s)
  | .evictStaleIpEntries now => ((), { s with tracker := Pair.evictStaleIpEntries s.tracker now })
  | .trackIpFailure ipKey now =>
      ((Pair.trackIpFailure s.tracker ipKey now).1,
        { s with tracker := (Pair.trackIpFailure s.tracker ipKey now).2 })
  | .clearIpFailures pairId => ((), { s with tracker := Pair.clearIpFailures s.tracker pairId })
  | .checkAndConsume _ _ => (.ok false, s)
  | .verifySecretHmac storedHmacKey nonce timestamp secretHmac =>
      (crypto.verifySecretHmac storedHmacKey nonce timestamp secretHmac, s)
  | .verifyPayload pubJwk payload signature => (crypto.verifyPayload pubJwk payload signature, s)
  | .external o => (agreeing s o, s)

theorem ServerState.exec_perform (crypto : Crypto) (s : ServerState) (o : ServerOp) :
    ServerExec crypto s o (s.perform crypto o).1 (s.perform crypto o).2 := by
  cases o with
  | store o => exact .store s o
  | dateNow => exact .dateNow s
  | evictStaleIpEntries now => exact .evictStaleIpEntries s now
  | trackIpFailure ipKey now => exact .trackIpFailure s ipKey now
  | clearIpFailures pairId => exact .clearIpFailures s pairId
  | checkAndConsume nonce ttlMs => exact .checkAndConsume s nonce ttlMs _
  | verifySecretHmac key nonce timestamp secretHmac =>
      exact .verifySecretHmac s key nonce timestamp secretHmac
  | verifyPayload pubJwk payload signature => exact .verifyPayload s pubJwk payload signature
  | external o => exact .external s o _

/-- The service before its first call. -/
def ServerConfig.start (now : ℤ) : ServerConfig ℕ where
  shared := ⟨.empty, .empty, now⟩
  calls _ := none
  log := []

variable {registry}

theorem ServerConfig.reachable_start (crypto : Crypto) (now : ℤ) :
    Transition.Reachable ((serverService registry crypto).system ℕ) (start now) :=
  .init ⟨⟨rfl, rfl⟩, fun _ => rfl, rfl⟩

/-- The calls `rs` served one after another, under the numbers from `n` on. -/
def ServerConfig.serve (registry : RegistryConfig) (crypto : Crypto) (cfg : ServerConfig ℕ) (n : ℕ)
    (rs : List ServerRequest) : ServerConfig ℕ :=
  (serverService registry crypto).serveAll (ServerState.perform crypto) cfg n rs

theorem ServerConfig.run_serve (crypto : Crypto) {cfg : ServerConfig ℕ} {n : ℕ}
    (hfree : ∀ i, n ≤ i → cfg.calls i = none) (rs : List ServerRequest) :
    Transition.Run ((serverService registry crypto).system ℕ) cfg
      (cfg.serve registry crypto n rs) :=
  Service.run_serveAll (ServerState.exec_perform crypto) hfree fun _ _ => trivial

theorem ServerConfig.serve_free (crypto : Crypto) {cfg : ServerConfig ℕ} {n : ℕ}
    (hfree : ∀ i, n ≤ i → cfg.calls i = none) (rs : List ServerRequest) :
    ∀ i, n + rs.length ≤ i → (cfg.serve registry crypto n rs).calls i = none :=
  Service.serveAll_free hfree rs

/-- The registration of a key of the curve, of a name and with a cap on its requests. -/
def sampleRegistration (name : String) (maxRequests : Option JsNumber) : PairRegistration where
  name := Js.lit name
  scope := Js.lit "read"
  mode := Js.lit "production"
  secretHash := List.replicate 43 65
  pubJwk := (CanonicalAuthorizationJwk.mk (List.replicate 43 65) (List.replicate 43 65)).toJwk
  expiresAt := none
  maxRequests := maxRequests
  kind := none
  canaryClass := none

/-- Every signature and every HMAC verifies. -/
def Crypto.agreeing : Crypto where
  verifySecretHmac _ _ _ _ := true
  verifyPayload _ _ _ := .ok true

end Pair
