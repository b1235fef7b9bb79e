import BpcProtocol.Lib.Transition
import BpcProtocol.Python.Verifier

set_option autoImplicit false

/-! # What the Python verifier accepts

Runs of calls of `verify` and operations of the registry, with the calls that were accepted. The
verifier refuses a pair that is revoked, but no pair that is pending, and takes an expiry of zero for
none: apart from these, an accepted request is all that it should be. -/

namespace Python

open Fallible
open Wire (PyString b64url)

variable {PublicKey : Type} {lib : PyLibrary PublicKey} {cfg : BPCVerifier}

/-! ## What the checks establish -/

theorem failUnless_eq_ok {p : Prop} [Decidable p] {code : String} {message : PyString}
    {counted : Option PyString} {u : Unit} : failUnless p code message counted = .ok u ↔ p :=
  require_eq_ok p _ u

theorem handle_eq_ok {α : Type} {caught : PyException → Option Stop} {x : Except PyException α}
    {a : α} : handle caught x = .ok a ↔ x = .ok a := by
  cases x with
  | error e => simp [handle]
  | ok b => simp [handle]

theorem elim_eq_ok {ε α : Type} {v : Option α} {e : ε} {a : α} :
    v.elim (.error e) Except.ok = .ok a ↔ v = some a := by
  cases v with
  | none => simp
  | some b => simp

theorem isText_iff {v : PyJson} {text : PyString} : v.isText text = true ↔ v = .str text := by
  cases v with
  | str s => simp [PyJson.isText]
  | _ => simp [PyJson.isText]

theorem asDict_eq_ok {v : PyJson} {items : List (PyString × PyJson)} :
    asDict v = .ok items ↔ v = .dict items := by
  cases v with
  | dict l => simp [asDict]
  | _ => simp [asDict]

theorem asText_eq_ok {v : PyJson} {text : PyString} : asText v = .ok text ↔ v = .str text := by
  cases v with
  | str s => simp [asText]
  | _ => simp [asText]

theorem sameHmac_eq_ok {v : PyJson} {expected : PyString} (h : sameHmac v expected = .ok true) :
    v = .str expected := by
  cases v with
  | str s =>
      simp only [sameHmac, compareDigest] at h
      split at h
      · simpa using h
      · cases h
  | _ => simp [sameHmac] at h

variable (lib cfg) in
/-- What the checks establish of a request and of the pair that is stored for it. -/
structure Authentic (registry : PairRegistry) (clock : Clock) (req : VerifyRequest)
    (headers : BpcHeaders) (pair : PairRecord) (canonicalBytes : Bytes)
    (payload : List (PyString × PyJson)) (nonce : PyString) : Prop where
  present : readHeaders lib req = .ok headers
  stored : registry.get headers.pairId = some pair
  below : pair.failedSigs < cfg.lockoutCount
  scope : lib.upper req.method ∈ scopeMethods pair.scope
  signed : b64urlDecode lib (.str headers.signedData) = .ok canonicalBytes ∧
    lib.loads canonicalBytes = .ok (.dict payload)
  version : getOr payload "version" .none = .str (.lit "1.0")
  method : getOr payload "method" .none = .str (lib.upper req.method)
  path : getOr payload "path" .none = .str req.path
  pairId : getOr payload "pair_id" .none = .str headers.pairId
  bodyHash : getOr payload "body_hash" .none = .str (expectedHash lib req)
  timestamp : ∃ nowMs ts, truncate (Js.ofRat (clock.timestamp * 1000)) = .ok nowMs ∧
    (getOr payload "timestamp" (.int 0)).toInt? = some ts ∧ |nowMs - ts| ≤ cfg.sigWindowMs
  nonceIs : getOr payload "nonce" (.str []) = .str nonce ∧ lib.uuid4 (.str nonce) = .ok ()
  secret : ∃ key message, b64urlDecode lib (.str pair.secretHash) = .ok key ∧
    (nonce ++ (getOr payload "timestamp" (.int 0)).intText : PyString).encode = some message ∧
    getOr payload "secret_hmac" (.str []) = .str (.ofUnits (b64url (lib.hmacSha256 key message)))
  signature : ∃ publicKey sigBytes, importPublicKeyJwk lib pair.publicKeyJwk = .ok publicKey ∧
    b64urlDecode lib (.str headers.signature) = .ok sigBytes ∧ sigBytes.length = 64 ∧
    lib.verifyEcdsa publicKey (fromBytes (sigBytes.take 32)) (fromBytes (sigBytes.drop 32))
      canonicalBytes = true

theorem check_eq_ok {registry : PairRegistry} {clock : Clock} {req : VerifyRequest}
    {checked : Checked} (h : check lib cfg registry clock req = .ok checked) :
    ∃ headers canonicalBytes payload,
      Authentic lib cfg registry clock req headers checked.pair canonicalBytes payload
        checked.nonce ∧
      checked.pairId = headers.pairId ∧ checked.pair.status ≠ .lit "revoked" ∧
        hasExpired checked.pair clock.expiry = false := by
  simp only [check, readPair, readPayload, checkTimestamp, integerTimestamp, checkSecret,
    expectedHmac, encode, checkBinding, checkBody, checkSignature, signatureValid, checkScope,
    bind_eq_ok, pure_eq_ok, exists_unit, failUnless_eq_ok, handle_eq_ok, elim_eq_ok, isText_iff,
    asDict_eq_ok, asText_eq_ok, require_eq_ok] at h
  obtain ⟨headers, hheaders, pair, ⟨_, hstored, hstatus, hexpiry, -, hbelow, rfl⟩, signed,
    ⟨bytes, hbytes, loaded, hloaded, payload, rfl, rfl⟩, ⟨hversion, nowMs, hnow, ts, hts, hwindow⟩,
    nonce, ⟨expected, ⟨huuid, key, hkey, text, htext, message, hmessage, rfl⟩, same, hsame, rfl, rfl⟩,
    ⟨hmethod, hpath, hpairId⟩, hbody, ⟨valid, ⟨publicKey, hpublicKey, sigBytes, hsigBytes, hlength,
      rfl⟩, hvalid⟩, hscope, rfl⟩ := h
  refine ⟨headers, bytes, payload, ?_, rfl, hstatus, hexpiry⟩
  exact
    { present := hheaders
      stored := hstored
      below := hbelow
      scope := hscope
      signed := ⟨hbytes, hloaded⟩
      version := hversion
      method := hmethod
      path := hpath
      pairId := hpairId
      bodyHash := hbody
      timestamp := ⟨nowMs, ts, hnow, hts, hwindow⟩
      nonceIs := ⟨htext, htext ▸ huuid⟩
      secret := ⟨key, message, hkey, hmessage, sameHmac_eq_ok hsame⟩
      signature := ⟨publicKey, sigBytes, hpublicKey, hsigBytes, hlength, hvalid⟩ }

/-! ## What a call does -/

/-- A call that returns `ok` has passed the checks and consumed its nonce. -/
theorem verify_ok {clock : Clock} {req : VerifyRequest} {s s' : Store} {r : BPCVerificationResult}
    (h : verify lib cfg clock req s = (.ok r, s')) (hok : r.ok = true) :
    ∃ checked, check lib cfg s.registry clock req = .ok checked ∧
      NonceStore.consume s.nonces checked.nonce cfg.ttlMs clock.consumed = (.ok true, s'.nonces) := by
  unfold verify at h
  generalize hcheck : check lib cfg s.registry clock req = x at h
  cases x with
  | error stop =>
      cases stop with
      | failure code message counted =>
          cases h
          cases hok
      | raised e => cases h
  | ok checked =>
      refine ⟨checked, rfl, ?_⟩
      rw [afterChecks] at h
      generalize NonceStore.consume s.nonces checked.nonce cfg.ttlMs clock.consumed = y at h ⊢
      obtain ⟨answer, nonces⟩ := y
      cases answer with
      | error e => cases h
      | ok fresh =>
          cases fresh with
          | false =>
              cases h
              cases hok
          | true =>
              cases h
              rfl

/-- A nonce is consumed if what is left of the store after the eviction does not have it. -/
theorem consume_true {nonces nonces' : NonceStore} {nonce : PyString} {ttlMs : ℤ} {now : ℚ}
    (h : NonceStore.consume nonces nonce ttlMs now = (.ok true, nonces')) :
    (NonceStore.evict nonces now).get nonce = none ∧
      ∃ expiry, nonceExpiry now ttlMs = .ok expiry ∧
        nonces' = (NonceStore.evict nonces now).set nonce expiry := by
  unfold NonceStore.consume at h
  split at h
  · cases h
  · next hnew =>
      refine ⟨(OrderedMap.has_eq_false _).mp (by simpa using hnew), ?_⟩
      cases hexpiry : nonceExpiry now ttlMs with
      | error e =>
          rw [hexpiry] at h
          cases h
      | ok expiry =>
          rw [hexpiry] at h
          exact ⟨expiry, rfl, (Prod.mk.inj h).2.symm⟩

/-- Whatever a call does, the nonces that are not expired stay. -/
theorem get_verify {clock : Clock} {req : VerifyRequest} {s : Store} {nonce : PyString}
    {expiry : JsNumber} (hget : s.nonces.get nonce = some expiry)
    (hlive : expired expiry clock.consumed = false) :
    (verify lib cfg clock req s).2.nonces.get nonce = some expiry := by
  have hkept : (NonceStore.evict s.nonces clock.consumed).get nonce = some expiry := by
    rw [NonceStore.evict, OrderedMap.get_filter, hget, Option.filter_some, hlive]
    rfl
  unfold verify
  generalize check lib cfg s.registry clock req = x
  cases x with
  | error stop =>
      cases stop with
      | failure code message counted => exact hget
      | raised e => exact hget
  | ok checked =>
      -- the store is left as the eviction leaves it, or with one more nonce that it did not have
      have hconsumed : (NonceStore.consume s.nonces checked.nonce cfg.ttlMs clock.consumed).2.get
          nonce = some expiry := by
        unfold NonceStore.consume
        split
        · exact hkept
        · next hnew =>
            have hne : nonce ≠ checked.nonce := by
              rintro rfl
              exact hnew (by rw [OrderedMap.has, hkept]; rfl)
            cases nonceExpiry clock.consumed cfg.ttlMs with
            | error e => exact hkept
            | ok other => exact (OrderedMap.get_set_of_ne _ hne other).trans hkept
      rw [afterChecks]
      generalize NonceStore.consume s.nonces checked.nonce cfg.ttlMs clock.consumed = y
        at hconsumed ⊢
      obtain ⟨answer, nonces⟩ := y
      cases answer with
      | error e => exact hconsumed
      | ok fresh =>
          cases fresh with
          | false => exact hconsumed
          | true => exact hconsumed

/-- What has expired stays expired. -/
theorem expired_mono {expiry : JsNumber} {t t' : ℚ} (h : expired expiry t = true) (hle : t ≤ t') :
    expired expiry t' = true := by
  cases expiry with
  | fin q =>
      simp only [expired, JsNumber.lt, JsNumber.eq, Bool.or_eq_true, decide_eq_true_eq,
        JsNumber.fin.injEq] at h ⊢
      rcases h with h | rfl
      · exact .inl (h.trans_le hle)
      · exact hle.lt_or_eq
  | nan => simp [expired, JsNumber.lt, JsNumber.eq] at h
  | posInf => simp [expired, JsNumber.lt, JsNumber.eq] at h
  | negInf => simp [expired, JsNumber.lt]

/-! ## Runs -/

/-- A call that returned `ok`, with the registry that it found. -/
structure Acceptance where
  registry : PairRegistry
  clock : Clock
  request : VerifyRequest

/-- The operations of the registry. -/
inductive RegistryOperation where
  | register (record : PairRecord)
  | revoke (pairId : PyString)
  | incrementFailedSigs (pairId : PyString)
  | resetFailedSigs (pairId : PyString)

/-- A registry after an operation, unchanged where the operation raises. -/
def RegistryOperation.apply (registry : PairRegistry) : RegistryOperation → PairRegistry
  | .register record => orElse (registry.register record) registry
  | .revoke pairId => registry.revoke pairId
  | .incrementFailedSigs pairId => registry.incrementFailedSigs pairId
  | .resetFailedSigs pairId => registry.resetFailedSigs pairId

/-- A verifier with its registry and its nonces, the last time that the clock was read, and the calls
    that were accepted. -/
structure World where
  store : Store
  now : ℚ
  accepted : List Acceptance

/-- Whether a call returned `ok`. -/
def returnedOk (x : Except PyException BPCVerificationResult) : Bool :=
  orElse (x.map (·.ok)) false

variable (lib cfg) in
/-- A verifier after a call. -/
def World.after (w : World) (clock : Clock) (req : VerifyRequest) : World where
  store := (verify lib cfg clock req w.store).2
  now := clock.consumed
  accepted := w.accepted ++
    if returnedOk (verify lib cfg clock req w.store).1 then [⟨w.store.registry, clock, req⟩] else []

variable (lib cfg) in
/-- The steps of a verifier, for calls that `admits` accepts: the clock does not go back. -/
inductive Step (admits : PairRegistry → VerifyRequest → Prop) (w : World) : World → Prop
  | verify (clock : Clock) (req : VerifyRequest) :
      w.now ≤ clock.expiry → clock.expiry ≤ clock.timestamp → clock.timestamp ≤ clock.consumed →
      admits w.store.registry req → Step admits w (w.after lib cfg clock req)
  | registry (op : RegistryOperation) :
      Step admits w { w with store := { w.store with registry := op.apply w.store.registry } }

variable (lib cfg) in
/-- A verifier from an empty registry and an empty nonce store on. -/
def verifierSystem (admits : PairRegistry → VerifyRequest → Prop) : Transition.System World where
  init w := w.store = ⟨.empty, .empty⟩ ∧ w.accepted = []
  next := Step lib cfg admits

/-! ## Soundness -/

namespace Acceptance

variable (lib cfg) (a : Acceptance)

/-- What was checked of the call. -/
def Passed (checked : Checked) : Prop :=
  check lib cfg a.registry a.clock a.request = .ok checked

/-- **A sound acceptance**: the stored pair is active and has not expired, and everything that the
    signature and the secret bind is right. -/
def Sound : Prop :=
  ∃ headers pair canonicalBytes payload nonce,
    Authentic lib cfg a.registry a.clock a.request headers pair canonicalBytes payload nonce ∧
      pair.status = .lit "active" ∧
        ∀ expiresAt, pair.expiresAt = some expiresAt → expiresAt.lt (.fin a.clock.expiry) = false

/-- The nonce of a later acceptance is another one, or has been kept for its time. -/
def Retained (b : Acceptance) : Prop :=
  ∀ checked checked', a.Passed lib cfg checked → b.Passed lib cfg checked' →
    checked.nonce = checked'.nonce →
      ∀ expiry, nonceExpiry a.clock.consumed cfg.ttlMs = .ok expiry →
        expired expiry b.clock.consumed = true

end Acceptance

/-- The pair that a call asks for is active or revoked, and its expiry is not zero. -/
def Settled (lib : PyLibrary PublicKey) (registry : PairRegistry) (req : VerifyRequest) : Prop :=
  ∀ headers pair, readHeaders lib req = .ok headers → registry.get headers.pairId = some pair →
    (pair.status = .lit "active" ∨ pair.status = .lit "revoked") ∧
      pair.expiresAt ≠ some (.fin 0)

/-- A pair that is not refused as expired has not expired, unless its expiry is zero. -/
theorem hasExpired_eq_false {pair : PairRecord} {now : ℚ} (h : hasExpired pair now = false) :
    (∀ expiresAt, pair.expiresAt = some expiresAt → expiresAt.lt (.fin now) = false) ↔
      (pair.expiresAt = some (.fin 0) → now ≤ 0) := by
  constructor
  · intro hlive hzero
    simpa [JsNumber.lt] using hlive _ hzero
  · intro hzero expiresAt hexpiresAt
    rw [hasExpired, hexpiresAt, Option.any_some, Bool.and_eq_false_iff] at h
    rcases h with h | h
    · have heq : expiresAt = .fin 0 := by
        cases expiresAt with
        | fin q => simpa [JsNumber.eq] using h
        | _ => simp [JsNumber.eq] at h
      have hnow := hzero (by rw [hexpiresAt, heq])
      rw [heq]
      simpa [JsNumber.lt] using hnow
    · exact h

/-- Of a call that passes the checks, exactly the status and an expiry of zero are left open. -/
theorem sound_iff {a : Acceptance} {checked : Checked} (h : a.Passed lib cfg checked) :
    a.Sound lib cfg ↔ checked.pair.status = .lit "active" ∧
      (checked.pair.expiresAt = some (.fin 0) → a.clock.expiry ≤ 0) := by
  obtain ⟨headers, bytes, payload, hauthentic, -, hstatus, hexpiry⟩ := check_eq_ok h
  constructor
  · rintro ⟨headers', pair, _, _, _, hauthentic', hactive, hlive⟩
    obtain rfl : headers = headers' :=
      Except.ok.inj (hauthentic.present.symm.trans hauthentic'.present)
    obtain rfl : checked.pair = pair :=
      Option.some.inj (hauthentic.stored.symm.trans hauthentic'.stored)
    exact ⟨hactive, (hasExpired_eq_false hexpiry).mp hlive⟩
  · rintro ⟨hactive, hzero⟩
    exact ⟨headers, checked.pair, bytes, payload, checked.nonce, hauthentic, hactive,
      (hasExpired_eq_false hexpiry).mpr hzero⟩

theorem sound_of_passed {a : Acceptance} {checked : Checked} (h : a.Passed lib cfg checked)
    (hsettled : Settled lib a.registry a.request) : a.Sound lib cfg := by
  obtain ⟨headers, _, _, hauthentic, -, hstatus, -⟩ := check_eq_ok h
  obtain ⟨hactive, hzero⟩ := hsettled headers checked.pair hauthentic.present hauthentic.stored
  exact (sound_iff h).mpr ⟨hactive.resolve_right hstatus, fun heq => absurd heq hzero⟩

variable (lib cfg) in
/-- What holds in every state of a run: every acceptance passed the checks, and its nonce is kept
    until it expires. -/
structure Kept (w : World) : Prop where
  sound : ∀ a ∈ w.accepted, a.Sound lib cfg
  nonces : ∀ a ∈ w.accepted, ∃ checked expiry, a.Passed lib cfg checked ∧
    nonceExpiry a.clock.consumed cfg.ttlMs = .ok expiry ∧
      (expired expiry w.now = true ∨ w.store.nonces.get checked.nonce = some expiry)
  retained : w.accepted.Pairwise fun a b => a.Retained lib cfg b

theorem returnedOk_iff {x : Except PyException BPCVerificationResult} :
    returnedOk x = true ↔ ∃ r, x = .ok r ∧ r.ok = true := by
  cases x with
  | error e => simp [returnedOk, orElse, Except.map]
  | ok r => simp [returnedOk, orElse, Except.map]

/-- A nonce that is kept is kept through a call, or has expired by then. -/
theorem nonce_after {w : World} {clock : Clock} {req : VerifyRequest} {nonce : PyString}
    {expiry : JsNumber} (hle : w.now ≤ clock.consumed)
    (h : expired expiry w.now = true ∨ w.store.nonces.get nonce = some expiry) :
    expired expiry (w.after lib cfg clock req).now = true ∨
      (w.after lib cfg clock req).store.nonces.get nonce = some expiry := by
  rcases h with h | h
  · exact .inl (expired_mono h hle)
  · cases hexpired : expired expiry clock.consumed with
    | true => exact .inl hexpired
    | false => exact .inr (get_verify h hexpired)

theorem Kept.after {w : World} (h : Kept lib cfg w) {clock : Clock} {req : VerifyRequest}
    (hle : w.now ≤ clock.consumed) (hsettled : Settled lib w.store.registry req) :
    Kept lib cfg (w.after lib cfg clock req) := by
  have hold : ∀ a ∈ w.accepted, ∃ checked expiry, a.Passed lib cfg checked ∧
      nonceExpiry a.clock.consumed cfg.ttlMs = .ok expiry ∧
        (expired expiry (w.after lib cfg clock req).now = true ∨
          (w.after lib cfg clock req).store.nonces.get checked.nonce = some expiry) := by
    intro a ha
    obtain ⟨checked, expiry, hpassed, hexpiry, hkept⟩ := h.nonces a ha
    exact ⟨checked, expiry, hpassed, hexpiry, nonce_after hle hkept⟩
  by_cases hok : returnedOk (verify lib cfg clock req w.store).1 = true
  · have haccepted : (w.after lib cfg clock req).accepted =
        w.accepted ++ [⟨w.store.registry, clock, req⟩] := by
      rw [World.after, if_pos hok]
    obtain ⟨r, hr, hrok⟩ := returnedOk_iff.mp hok
    obtain ⟨checked, hchecked, hconsume⟩ :=
      verify_ok (Prod.ext hr rfl : verify lib cfg clock req w.store = (.ok r, _)) hrok
    obtain ⟨hnew, expiry, hexpiry, hnonces⟩ := consume_true hconsume
    refine ⟨?_, ?_, ?_⟩
    · intro a ha
      rw [haccepted] at ha
      rcases List.mem_append.mp ha with ha | ha
      · exact h.sound a ha
      · rw [List.mem_singleton.mp ha]
        exact sound_of_passed hchecked hsettled
    · intro a ha
      rw [haccepted] at ha
      rcases List.mem_append.mp ha with ha | ha
      · exact hold a ha
      · rw [List.mem_singleton.mp ha]
        refine ⟨checked, expiry, hchecked, hexpiry, .inr ?_⟩
        show (verify lib cfg clock req w.store).2.nonces.get checked.nonce = _
        rw [hnonces, OrderedMap.get_set_self]
    · rw [haccepted, List.pairwise_append]
      refine ⟨h.retained, List.pairwise_singleton _ _, fun a ha b hb => ?_⟩
      rw [List.mem_singleton.mp hb]
      intro checkedA checkedB hpassedA hpassedB hnonce expiryA hexpiryA
      -- the nonce was still kept, or has expired: the store did not have it
      obtain ⟨checkedA', expiryA', hpassedA', hexpiryA', hkept⟩ := h.nonces a ha
      obtain rfl : checkedA = checkedA' := Except.ok.inj (hpassedA.symm.trans hpassedA')
      obtain rfl : expiryA = expiryA' := Except.ok.inj (hexpiryA.symm.trans hexpiryA')
      obtain rfl : checkedB = checked := Except.ok.inj (hpassedB.symm.trans hchecked)
      rcases hkept with hkept | hkept
      · exact expired_mono hkept hle
      · rw [hnonce] at hkept
        rw [NonceStore.evict, OrderedMap.get_filter, hkept, Option.filter_some] at hnew
        by_contra hlive
        rw [if_pos (by simpa using hlive)] at hnew
        cases hnew
  · have haccepted : (w.after lib cfg clock req).accepted = w.accepted := by
      rw [World.after, if_neg hok, List.append_nil]
    refine ⟨?_, ?_, ?_⟩
    · rw [haccepted]
      exact h.sound
    · rw [haccepted]
      exact hold
    · rw [haccepted]
      exact h.retained

/-- **Soundness of the Python verifier**: in every run whose calls ask for pairs that are active or
    revoked and whose expiry is not zero, every accepted call is sound, and no nonce is accepted again
    within its retention. -/
theorem verifier_sound {w : World}
    (h : Transition.Reachable (verifierSystem lib cfg (Settled lib)) w) :
    (∀ a ∈ w.accepted, a.Sound lib cfg) ∧
      w.accepted.Pairwise fun a b => a.Retained lib cfg b := by
  have hkept : Kept lib cfg w := by
    refine h.invariant ?_ ?_
    · rintro ⟨store, now, accepted⟩ ⟨-, rfl⟩
      exact ⟨(fun _ ha => nomatch ha), (fun _ ha => nomatch ha), .nil⟩
    · intro u v _ hu hstep
      cases hstep with
      | verify clock req hexpiry htimestamp hconsumed hsettled =>
          exact hu.after (hexpiry.trans (htimestamp.trans hconsumed)) hsettled
      | registry op => exact ⟨hu.sound, hu.nonces, hu.retained⟩
  exact ⟨hkept.sound, hkept.retained⟩

/-! ## A pending pair

A request signed with P-256 for a pair that is pending. The library is what it is on this request:
the values of the digests and of the signature are recorded. -/

namespace Sample

/-- The HMAC key of the pair. -/
def key : Bytes := List.replicate 32 7

/-- The HMAC of the nonce and the timestamp. -/
def mac : Bytes :=
  [244, 25, 220, 159, 238, 72, 233, 62, 34, 248, 124, 249, 65, 17, 156, 219, 150, 208,
      213, 196, 213, 59, 177, 36, 208, 173, 75, 14, 95, 80, 173, 115]

/-- The digest of no bytes. -/
def emptyDigest : Bytes :=
  [227, 176, 196, 66, 152, 252, 28, 20, 154, 251, 244, 200, 153, 111, 185, 36, 39,
      174, 65, 228, 100, 155, 147, 76, 164, 149, 153, 27, 120, 82, 184, 85]

def payload : Wire.PyPayload where
  bodyHash := .lit "sha256:" ++ .ofUnits (b64url emptyDigest)
  method := .lit "GET"
  nonce := .lit "0f8fad5b-d9cb-469f-a165-70867728950e"
  pairId := .lit "p"
  path := .lit "/"
  secretHmac := .ofUnits (b64url mac)
  timestamp := 1000

/-- The two halves of the signature. -/
def signature : ℕ × ℕ :=
  (111951095994364966426908598156798036452964347332775912779955316053628192820338,
    64004821153709198294361088934698955372792902351956154812614396821497512844082)

/-- Values without members, as Python reads them. -/
def ofPrimitive : JsValue → PyJson
  | .bool b => .bool b
  | .number (.fin q) => if q.den = 1 then .int q.num else .float (.fin q)
  | .number x => .float x
  | .string s => .str (.ofUnits s)
  | _ => .none

/-- An object of such values. -/
def ofFlat : JsValue → PyJson
  | .object fields => .dict (fields.map fun field => (.ofUnits field.1, ofPrimitive field.2))
  | v => ofPrimitive v

/-- A text that is refused. -/
def refused : PyException := ⟨.valueError, []⟩

/-- The library on this request. -/
def library : PyLibrary Unit where
  lower s := .ofUnits (s.units.map fun u => if 65 ≤ u && u ≤ 90 then u + 32 else u)
  upper s := .ofUnits (Pair.toUpperCase s.units)
  str _ := []
  b64decode
    | .str s => (Wire.b64urlDecode s.units).elim (.error refused) .ok
    | _ => .error ⟨.typeError, []⟩
  loads bytes :=
    ((Js.parseJson (bytes.map fun b => b.toNat.toUInt16)).map ofFlat).elim (.error refused) .ok
  uuid4
    | .str s => require (Pair.uuidRe s.units = true) refused
    | _ => .error ⟨.attributeError, []⟩
  sha256 bytes := if bytes = [] then emptyDigest else []
  hmacSha256 k message :=
    if k = key ∧ some message = (payload.nonce ++ decimal 1000 : PyString).encode then mac else []
  publicKey x y := require
    (x = 106552112148471750137583151359641136333971409621991898618850619026488495803660 ∧
      y = 45966929586776363300871012389050752654432807578764635926524608585207526205510) refused
  verifyEcdsa _ r t bytes := decide ((r, t) = signature ∧ bytes = payload.canonicalBytes)

/-- The record of the pair, with a status. -/
def record (status : String) : PairRecord where
  pairId := .lit "p"
  scope := .lit "read"
  publicKeyJwk :=
    [(.lit "x", .str (.lit "65JbuX-b8hs_9p34XtbI2VzxfMrpp6wLPYbJOROhjQw")),
      (.lit "y", .str (.lit "ZaBcM4POMJ89r5_v-gLNfDgNwyShl3xCD1w_GLiYKEY"))]
  secretHash := .ofUnits (b64url key)
  status := .lit status

def request : VerifyRequest where
  headers :=
    [(.lit "X-BPC-Pair-ID", .lit "p"),
      (.lit "X-BPC-Signature", .lit "94ITKmKNDP2uxeWDamlAJ8RM1-WFSqFl89ft8HlUDHK" ++
        .lit "NgXHq-EkYtyrsTsfDuhn8FVOQ9fNUATXZY-jdRdXbMg"),
      (.lit "X-BPC-Signed-Data", .ofUnits payload.signedData), (.lit "X-BPC-Version", .lit "1.0")]
  method := .lit "GET"
  path := .lit "/"
  body := none

/-- One second after the epoch. -/
def clock : Clock := ⟨1, 1, 1⟩

def start : World := ⟨⟨.empty, .empty⟩, 0, []⟩

/-- The verifier once the record is registered. -/
def registered (status : String) : World :=
  { start with store := { start.store with
    registry := (RegistryOperation.register (record status)).apply start.store.registry } }

def verifier : BPCVerifier := {}

/-- The verifier after the request. -/
def finished (status : String) : World := (registered status).after library verifier clock request

/-- The call that the request is. -/
def call (status : String) : Acceptance := ⟨(registered status).store.registry, clock, request⟩

/-- The pair that the request is for. -/
theorem request_computes (status : String) (hstatus : status = "active" ∨ status = "pending") :
    returnedOk (verify library verifier clock request (registered status).store).1 = true ∧
      ∀ headers ∈ (readHeaders library request).toOption,
        ∀ pair ∈ (registered status).store.registry.get headers.pairId,
          pair.status = .lit status ∧ pair.expiresAt = none := by
  rcases hstatus with rfl | rfl <;> decide +kernel

theorem accepted_finished {status : String} (hstatus : status = "active" ∨ status = "pending") :
    (finished status).accepted = [call status] := by
  rw [finished, World.after, if_pos (request_computes status hstatus).1]
  rfl

/-- The run: the record is registered, and the request comes. -/
theorem reachable_finished {admits : PairRegistry → VerifyRequest → Prop} {status : String}
    (hadmits : admits (registered status).store.registry request) :
    Transition.Reachable (verifierSystem library verifier admits) (finished status) := by
  have hstart : Transition.Reachable (verifierSystem library verifier admits) start :=
    .init ⟨rfl, rfl⟩
  have hregistered : Transition.Reachable (verifierSystem library verifier admits)
      (registered status) := hstart.next (.registry (.register (record status)))
  exact hregistered.next (.verify clock request zero_le_one le_rfl le_rfl hadmits)

/-- What is known of the pair that the request is for. -/
theorem pair_of_request {status : String} (hstatus : status = "active" ∨ status = "pending")
    {headers : BpcHeaders} {pair : PairRecord} (hheaders : readHeaders library request = .ok headers)
    (hpair : (registered status).store.registry.get headers.pairId = some pair) :
    pair.status = .lit status ∧ pair.expiresAt = none :=
  (request_computes status hstatus).2 headers (by rw [hheaders]; rfl) pair hpair

end Sample

open Sample in
/-- A pair that is pending is accepted. -/
theorem verifier_accepts_pending :
    ∃ w, Transition.Reachable (verifierSystem library verifier fun _ _ => True) w ∧
      ∃ a ∈ w.accepted, ¬a.Sound library verifier := by
  refine ⟨finished "pending", reachable_finished trivial, call "pending", ?_, ?_⟩
  · rw [accepted_finished (.inr rfl)]
    exact List.mem_cons_self
  · rintro ⟨headers, pair, bytes, items, nonce, hauthentic, hactive, -⟩
    have hpending := (pair_of_request (.inr rfl) hauthentic.present hauthentic.stored).1
    rw [hactive] at hpending
    exact absurd hpending (by decide)

open Sample in
/-- The request for the active pair is accepted, and sound. -/
theorem verifier_sound_sample :
    (finished "active").accepted = [call "active"] ∧ (call "active").Sound library verifier := by
  have haccepted := accepted_finished (.inl rfl : "active" = "active" ∨ _)
  have hsettled : Settled library (registered "active").store.registry request := by
    intro headers pair hheaders hpair
    obtain ⟨hstatus, hexpiry⟩ := pair_of_request (.inl rfl) hheaders hpair
    exact ⟨.inl hstatus, by rw [hexpiry]; exact nofun⟩
  refine ⟨haccepted, (verifier_sound (reachable_finished hsettled)).1 _ ?_⟩
  rw [haccepted]
  exact List.mem_cons_self

end Python
