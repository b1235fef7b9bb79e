import BpcProtocol.Lib.Sha256
import BpcProtocol.Principal.Stretches

set_option autoImplicit false

/-! # Acceptance

A server that makes one call after another, at one time and with a resolver that is a function of
what it is asked. It accepts every binding with a valid proof whose nonce is fresh. -/

namespace Principal

open Fallible Pair Async Transition
open Js (lit)

/-! ## Serving calls -/

section Serve

variable {PrivateKey PublicKey : Type} (c : Wire.WebCrypto PrivateKey PublicKey)

/-- What each operation answers and does, at the time `now`. -/
def ledgerRun (now : JsNumber) (resolver : AuthorizationResolutionInput → Except ServerError Fields)
    (l : Ledger) : (o : LedgerOp) → LedgerAns o × Ledger
  | .yield => ((), l)
  | .clock => (now, l)
  | .consumeNonce challengeNonce => consumeNonce c challengeNonce l
  | .resolve query => (resolver query, l)
  | .upsertPrincipal publicKeyJwk keyFingerprint authorizationContext =>
      ((), upsertPrincipal c now publicKeyJwk keyFingerprint authorizationContext l)
  | .finishBind input principalId authorizationContext =>
      finishBind c ⟨now, now, now⟩ input principalId authorizationContext l
  | .append principalId streamId eventType payload =>
      appendStreamEvent c ⟨now, now, now⟩ principalId streamId eventType payload l
  | .close principalId streamId providerSessionId =>
      closeSession c ⟨now, now, now⟩ principalId streamId providerSessionId l
  | .startRotation principalId publicKeyJwk => startRotation principalId publicKeyJwk l
  | .finishRotation principalId keyFingerprint keyVersion =>
      finishRotation c ⟨now, now, now⟩ principalId keyFingerprint keyVersion l

theorem exec_ledgerRun (now : JsNumber)
    (resolver : AuthorizationResolutionInput → Except ServerError Fields) (l : Ledger)
    (o : LedgerOp) : Exec c l o (ledgerRun c now resolver l o).1 (ledgerRun c now resolver l o).2 := by
  cases o with
  | yield => exact .yield
  | clock => exact .clock now
  | consumeNonce challengeNonce => exact .consumeNonce challengeNonce
  | resolve query => exact .resolve query (resolver query)
  | upsertPrincipal publicKeyJwk keyFingerprint authorizationContext =>
      exact .upsertPrincipal now publicKeyJwk keyFingerprint authorizationContext
  | finishBind input principalId authorizationContext =>
      exact .finishBind ⟨now, now, now⟩ input principalId authorizationContext
  | append principalId streamId eventType payload =>
      exact .append ⟨now, now, now⟩ principalId streamId eventType payload
  | close principalId streamId providerSessionId =>
      exact .close ⟨now, now, now⟩ principalId streamId providerSessionId
  | startRotation principalId publicKeyJwk => exact .startRotation principalId publicKeyJwk
  | finishRotation principalId keyFingerprint keyVersion =>
      exact .finishRotation ⟨now, now, now⟩ principalId keyFingerprint keyVersion

variable {c} {now : JsNumber} {resolver : AuthorizationResolutionInput → Except ServerError Fields}
  {input : BindSessionInput} {keyFingerprint : JsString} {authorizationContext : Fields} {l : Ledger}

/-- The ledger that a binding finds, its nonce consumed and its principal registered. -/
def registered (c : Wire.WebCrypto PrivateKey PublicKey) (now : JsNumber) (input : BindSessionInput)
    (keyFingerprint : JsString) (authorizationContext : Fields) (l : Ledger) : Ledger :=
  upsertPrincipal c now input.publicKeyJwk keyFingerprint authorizationContext
    (consumeNonce c input.proof.challengeNonce l).2

theorem consumeNonce_principals (challengeNonce : JsString) (l : Ledger) :
    (consumeNonce c challengeNonce l).2.principals = l.principals := by
  rw [consumeNonce]
  split <;> rfl

/-- A principal that is there stays as it is. -/
theorem registered_of_some {r : PrincipalRecord}
    (hr : l.principals (principalIdFromFingerprint c keyFingerprint) = some r) :
    (registered c now input keyFingerprint authorizationContext l).principals
      (principalIdFromFingerprint c keyFingerprint) = some r := by
  have hconsumed : (consumeNonce c input.proof.challengeNonce l).2.principals
      (principalIdFromFingerprint c keyFingerprint) = some r := by
    rw [consumeNonce_principals, hr]
  rw [registered, upsertPrincipal, hconsumed]
  exact hconsumed

/-- A principal that is not there gets the key and the context of its binding. -/
theorem registered_of_none (now : JsNumber) (input : BindSessionInput) (authorizationContext : Fields)
    (hr : l.principals (principalIdFromFingerprint c keyFingerprint) = none) : ∃ r,
    (registered c now input keyFingerprint authorizationContext l).principals
      (principalIdFromFingerprint c keyFingerprint) = some r ∧
      r.publicKeyJwk = input.publicKeyJwk ∧ r.authorizationContext = authorizationContext := by
  rw [registered, upsertPrincipal, consumeNonce_principals, hr]
  exact ⟨_, Function.update_self _ _ _, rfl, rfl⟩

theorem keyed_registered (h : Keyed l) :
    Keyed (registered c now input keyFingerprint authorizationContext l) :=
  Exec.keyed (.upsertPrincipal now _ _ _) (Exec.keyed (.consumeNonce input.proof.challengeNonce) h)

/-! ### Nonces -/

theorem updatePrincipal_consumed (l : Ledger) (p : JsString)
    (f : PrincipalRecord → PrincipalRecord) :
    (l.updatePrincipal p f).consumedProofNonces = l.consumedProofNonces := by
  rw [Ledger.updatePrincipal]
  cases l.principals p <;> rfl

/-- A binding that is accepted has consumed its nonce and no other. -/
theorem consumed_of_finishBind {times : Times} {p : JsString} {b : SessionBinding} {l' : Ledger}
    (h : finishBind c times input p authorizationContext
      (registered c now input keyFingerprint authorizationContext l) = (.ok b, l'))
    {digest : JsString} (hne : digest ≠ sha256hex c input.proof.challengeNonce) :
    l'.consumedProofNonces digest = l.consumedProofNonces digest := by
  have hjoin : ∀ m : Ledger, (joinStream c input p authorizationContext m).consumedProofNonces =
      m.consumedProofNonces := by
    intro m
    rw [joinStream, updatePrincipal_consumed, upsertStream]
    cases m.streams (makeStreamId c p input.provider input.agent) with
    | some existing => rfl
    | none => exact updatePrincipal_consumed _ _ _
  obtain ⟨r, stream, event, -, -, -, -, rfl⟩ := finishBind_ok h
  change (joinStream c input p authorizationContext _).consumedProofNonces digest = _
  rw [hjoin, registered, upsertPrincipal]
  have hconsume : (consumeNonce c input.proof.challengeNonce l).2.consumedProofNonces digest =
      l.consumedProofNonces digest := by
    rw [consumeNonce]
    split
    · rfl
    · exact Function.update_of_ne hne _ _
  cases (consumeNonce c input.proof.challengeNonce l).2.principals
    (principalIdFromFingerprint c keyFingerprint) <;> exact hconsume

/-- The input of a binding that its key proves, at the time `now`. -/
structure Proved (c : Wire.WebCrypto PrivateKey PublicKey) (now : JsNumber)
    (input : BindSessionInput) (keyFingerprint : JsString) : Prop where
  checked : assertBindingInput input = .ok ()
  key : computeFingerprint c input.publicKeyJwk = .ok keyFingerprint
  proof : verifyPrincipalSessionProof c now input keyFingerprint = .ok ()

theorem exists_principal (c : Wire.WebCrypto PrivateKey PublicKey) (now : JsNumber)
    (publicKeyJwk : JsonWebKey) (keyFingerprint : JsString) (authorizationContext : Fields)
    (l : Ledger) : ∃ r,
    (upsertPrincipal c now publicKeyJwk keyFingerprint authorizationContext l).principals
      (principalIdFromFingerprint c keyFingerprint) = some r := by
  rw [upsertPrincipal]
  cases hp : l.principals (principalIdFromFingerprint c keyFingerprint) with
  | some r => exact ⟨r, hp⟩
  | none => exact ⟨_, Function.update_self _ _ _⟩

/-- A proof that is valid at the time, and whose nonce is fresh, is accepted. -/
theorem drive_bindSession (hproved : Proved c now input keyFingerprint)
    (hfresh : l.consumedProofNonces (sha256hex c input.proof.challengeNonce) = false)
    (hresolve : resolver (resolution input (principalIdFromFingerprint c keyFingerprint)
      keyFingerprint) = .ok authorizationContext) {ι : Type} (i : ι)
    (log : List (Entry ι LedgerOp LedgerAns Ledger)) : ∃ b l' log',
      finishBind c ⟨now, now, now⟩ input (principalIdFromFingerprint c keyFingerprint)
        authorizationContext (registered c now input keyFingerprint authorizationContext l) =
        (.ok b, l') ∧
      (bindSession c input).drive (ledgerRun c now resolver) i l log = (.ret b, l', log') := by
  have hconsumed : (consumeNonce c input.proof.challengeNonce l).1 = .ok () := by
    simp only [consumeNonce, hfresh, Bool.false_eq_true, if_false]
  obtain ⟨r, hr⟩ := exists_principal c now input.publicKeyJwk keyFingerprint authorizationContext
    (consumeNonce c input.proof.challengeNonce l).2
  obtain ⟨b, l', hfinish⟩ := exists_finishBind (c := c) ⟨now, now, now⟩ input
    authorizationContext hr fun r stream =>
      nextEvent_of_data _ stream _ _ (bindPayload_data r (isData_of_proof hproved.proof))
  rw [resolution] at hresolve
  have hret : ((bindSession c input).drive (ledgerRun c now resolver) i l log).1 = .ret b := by
    simp only [bindSession, hproved.checked, hproved.key, hproved.proof, Prog.lift, Prog.ret_bind,
      Prog.perform_bind, Prog.await_bind, Prog.drive, ledgerRun, hconsumed, hresolve, hfinish]
  have hshared : ((bindSession c input).drive (ledgerRun c now resolver) i l log).2.1 = l' := by
    simp only [bindSession, hproved.checked, hproved.key, hproved.proof, Prog.lift, Prog.ret_bind,
      Prog.perform_bind, Prog.await_bind, Prog.drive, ledgerRun, hconsumed, hresolve, hfinish]
  exact ⟨b, l', _, hfinish, Prod.ext hret (Prod.ext hshared rfl)⟩

variable {ι : Type} [DecidableEq ι] {cfg : LedgerConfig ι} {i : ι}

/-- Serving such a call binds its session. -/
theorem serve_bindSession {calls : LedgerCall → Prop} (hproved : Proved c now input keyFingerprint)
    (hfresh : cfg.shared.consumedProofNonces (sha256hex c input.proof.challengeNonce) = false)
    (hresolve : resolver (resolution input (principalIdFromFingerprint c keyFingerprint)
      keyFingerprint) = .ok authorizationContext) : ∃ b l',
      finishBind c ⟨now, now, now⟩ input (principalIdFromFingerprint c keyFingerprint)
        authorizationContext (registered c now input keyFingerprint authorizationContext cfg.shared) =
        (.ok b, l') ∧
      ((ledgerService c calls).serve (ledgerRun c now resolver) cfg i (.bindSession input)).calls i =
        some ⟨.bindSession input, .ret (.binding b)⟩ ∧
      ((ledgerService c calls).serve (ledgerRun c now resolver) cfg i (.bindSession input)).shared =
        l' := by
  obtain ⟨b, l', log', hfinish, hdrive⟩ :=
    drive_bindSession hproved hfresh hresolve i cfg.log
  have hbody : ((ledgerService c calls).body (.bindSession input)).drive (ledgerRun c now resolver) i
      cfg.shared cfg.log = (.ret (.binding b), l', log') :=
    Prog.drive_bind hdrive
  refine ⟨b, l', hfinish, ?_, ?_⟩
  · rw [Service.serve, hbody]
    exact Function.update_self _ _ _
  · rw [Service.serve, hbody]

end Serve

/-! ## Two keys and two proofs -/

section Sample

def sampleJwk (x y : JsString) : JsonWebKey :=
  ⟨.object [(lit "kty", .string (lit "EC")), (lit "x", .string x), (lit "y", .string y),
    (lit "crv", .string (lit "P-256"))], rfl⟩

def firstKey : JsonWebKey :=
  sampleJwk (lit "u7q67gjjKw2YzvpjO1J3fu_S5N3qMCjmfpIbr1X-dHo")
    (lit "1HFnU2hz9JXKJdpTqMFw2iHDLAI6kJpkElEoF_7DA1I")

def secondKey : JsonWebKey :=
  sampleJwk (lit "Stt2P19FAcbDS4beepF0s1Ev0MNNaiLQ2HgwJQeJYbU")
    (lit "DSu9_Z24-6lhoZiH9fZK0HXaMdGUskiEeqg0zAZL51M")

def firstProof : JsString :=
  lit "0AUzj3iCXn8poDe8PrL8D67iIVvNxPpXxZiQ1gH01Bz" ++
    lit "JF7GPk8AhxspcoD2pa6f-lGJC9YjXGXZK3S747pWwPg"

def secondProof : JsString :=
  lit "mhZpRxsoEpI2T3qUjbYdZonClhoDLmUdn1roYwjQ2ue" ++
    lit "jFEKtP6lMtqJq1O11vl-XcAGv14hX_ACkvs8RvmTpDw"

/-- What has been signed: the key, the digest of the message, the signature. -/
def sampleSigned : List (JsonWebKey × JsString × JsString) :=
  [(firstKey, lit "f458b2ec51d3ec78ceced844b04b5061" ++ lit "7f2a8fcb9f75315fef01c7c6977f2787",
      firstProof),
    (firstKey, lit "f76a3bfacdad0a0d12c9fe8cce0e5897" ++ lit "0f92e46f215c8a4ae087873deb7eb97a",
      secondProof)]

/-- SHA-256, and a verifier that knows those signatures. -/
def sampleCrypto : Wire.WebCrypto Empty JsonWebKey where
  sha256 := Sha256.digest
  deriveBits _ _ _ := []
  hmac _ _ := []
  importPublicKey := .ok
  sign key _ := key.elim
  verify publicKey signature message := sampleSigned.any fun signed =>
    stringOf (signed.1.get "x") == stringOf (publicKey.get "x") &&
      Wire.b64urlDecode signed.2.2 == some signature &&
        (Sha256.digest message).flatMap Ha.hexByte == signed.2.1

def sampleNow : JsNumber :=
  .fin 1700000000000

def sampleInput (publicKeyJwk : JsonWebKey) (n : ℕ) (signature : JsString)
    (authorizationContext : Option JsValue) : BindSessionInput where
  publicKeyJwk
  proof := ⟨lit "challenge-nonce-" ++ Js.natDigits n, sampleNow, signature⟩
  provider := lit "openai"
  providerSessionId := lit "session-" ++ Js.natDigits n
  agentInstanceId := none
  policyDigest := lit "policy-1"
  runtimeMetadata := none
  authorizationContext
  maxProofAgeMs := none

def sampleRole : Fields :=
  [(lit "role", .string (lit "admin"))]

def firstInput : BindSessionInput :=
  sampleInput firstKey 1 firstProof (some (.object sampleRole))

def secondInput : BindSessionInput :=
  sampleInput firstKey 2 secondProof none

def firstFingerprint : JsString :=
  lit "MF7PRjQE5-xkzDhqiIdb"

def secondFingerprint : JsString :=
  lit "fCAICdJ4spczLtzzqqml"

theorem secondKey_fingerprint :
    computeFingerprint sampleCrypto secondKey = .ok secondFingerprint := by
  decide +kernel

theorem firstInput_proved : Proved sampleCrypto sampleNow firstInput firstFingerprint where
  checked := by decide +kernel
  key := by decide +kernel
  proof := by decide +kernel

theorem secondInput_proved : Proved sampleCrypto sampleNow secondInput firstFingerprint where
  checked := by decide +kernel
  key := by decide +kernel
  proof := by decide +kernel

/-- A resolver that grants what is requested. -/
def grantAll (query : AuthorizationResolutionInput) : Except ServerError Fields :=
  match query.requested with
  | .object fields => .ok fields
  | _ => .ok []

/-- A ledger to which no call has been made. -/
def idle : LedgerConfig ℕ :=
  ⟨Ledger.empty, fun _ => none, []⟩

theorem reachable_idle (calls : LedgerCall → Prop) :
    Reachable (ledgerSystem sampleCrypto calls ℕ) idle :=
  .init ⟨rfl, fun _ => rfl, rfl⟩

/-- The first session is bound. -/
def firstBound (calls : LedgerCall → Prop) : LedgerConfig ℕ :=
  (ledgerService sampleCrypto calls).serve (ledgerRun sampleCrypto sampleNow grantAll) idle 0
    (.bindSession firstInput)

theorem reachable_firstBound {calls : LedgerCall → Prop} (h : calls (.bindSession firstInput)) :
    Reachable (ledgerSystem sampleCrypto calls ℕ) (firstBound calls) :=
  Run.reachable (Service.run_serve (exec_ledgerRun sampleCrypto sampleNow grantAll) h rfl)
    (reachable_idle calls)

theorem firstBound_calls (calls : LedgerCall → Prop) : ∃ b l',
    finishBind sampleCrypto ⟨sampleNow, sampleNow, sampleNow⟩ firstInput
      (principalIdFromFingerprint sampleCrypto firstFingerprint) sampleRole
      (registered sampleCrypto sampleNow firstInput firstFingerprint sampleRole idle.shared) =
      (.ok b, l') ∧
    (firstBound calls).calls 0 = some ⟨.bindSession firstInput, .ret (.binding b)⟩ ∧
    (firstBound calls).shared = l' := by
  have hfresh : idle.shared.consumedProofNonces
      (sha256hex sampleCrypto firstInput.proof.challengeNonce) = false := rfl
  have hresolve : grantAll (resolution firstInput
      (principalIdFromFingerprint sampleCrypto firstFingerprint) firstFingerprint) =
      .ok sampleRole := rfl
  rw [firstBound]
  exact serve_bindSession firstInput_proved hfresh hresolve

/-- The record and the nonces that the first session leaves. -/
theorem firstBound_shared (calls : LedgerCall → Prop) : ∃ b r,
    (firstBound calls).calls 0 = some ⟨.bindSession firstInput, .ret (.binding b)⟩ ∧
      b.principalId = principalIdFromFingerprint sampleCrypto firstFingerprint ∧
      (firstBound calls).shared.principals
        (principalIdFromFingerprint sampleCrypto firstFingerprint) = some r ∧
      r.publicKeyJwk = firstKey ∧ r.authorizationContext = sampleRole ∧
      (firstBound calls).shared.consumedProofNonces
        (sha256hex sampleCrypto secondInput.proof.challengeNonce) = false := by
  obtain ⟨b, l', hfinish, hcall, rfl⟩ := firstBound_calls calls
  have hkeyed : Keyed (registered sampleCrypto sampleNow firstInput firstFingerprint sampleRole
      idle.shared) := keyed_registered fun _ _ hr => nomatch hr
  obtain ⟨hid, r, r', hr, hcontext, hr', hcontext', hjwk⟩ := finishBind_record hkeyed hfinish
  have hnone : idle.shared.principals (principalIdFromFingerprint sampleCrypto firstFingerprint) =
      none := rfl
  obtain ⟨r₀, hr₀, hjwk₀, hcontext₀⟩ := registered_of_none sampleNow firstInput sampleRole hnone
  obtain rfl := Option.some.inj (hr.symm.trans hr₀)
  refine ⟨b, r', hcall, hid, hr', hjwk.trans hjwk₀, ?_, ?_⟩
  · rw [hcontext', hcontext, hcontext₀]
    rfl
  · have hne : sha256hex sampleCrypto secondInput.proof.challengeNonce ≠
        sha256hex sampleCrypto firstInput.proof.challengeNonce := by decide +kernel
    exact consumed_of_finishBind hfinish hne

end Sample

end Principal
