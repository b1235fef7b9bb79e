import BpcProtocol.Python.Soundness
import BpcProtocol.Wire.Encoding

set_option autoImplicit false

/-! # When the Python verifier raises

`verify` returns a result for whatever it can refuse, but four kinds of signed data get past its
`except` clauses, and a window that is too large gets past them all. -/

namespace Python

open Fallible
open Wire (PyString b64url)

variable {PublicKey : Type} {lib : PyLibrary PublicKey} {cfg : BPCVerifier}

/-! ## Raising, stage by stage -/

/-- A check ends in an exception that nothing catches. -/
def Raises {α : Type} (x : Check α) : Prop :=
  ∃ e, x = .error (.raised e)

@[simp]
theorem not_raises_ok {α : Type} {a : α} : ¬Raises (.ok a : Check α) := by
  simp [Raises]

@[simp]
theorem not_raises_pure {α : Type} {a : α} : ¬Raises (pure a : Check α) :=
  not_raises_ok

@[simp]
theorem raises_error {α : Type} {stop : Stop} :
    Raises (.error stop : Check α) ↔ ∃ e, stop = .raised e := by
  simp [Raises]

@[simp]
theorem not_raises_failUnless {p : Prop} [Decidable p] {code : String} {message : PyString}
    {counted : Option PyString} : ¬Raises (failUnless p code message counted) := by
  unfold failUnless require
  split
  · exact not_raises_ok
  · simp

/-- A header or a pair that is missing is a failure. -/
@[simp]
theorem not_raises_elim {α : Type} {v : Option α} {code : String} {message : PyString}
    {counted : Option PyString} :
    ¬Raises (v.elim (.error (.failure code message counted)) .ok : Check α) := by
  cases v with
  | none => simp
  | some a => simp

theorem raises_bind {α β : Type} {x : Check α} {f : α → Check β} :
    Raises (x >>= f) ↔ Raises x ∨ ∃ a, x = .ok a ∧ Raises (f a) := by
  cases x with
  | error stop => simp
  | ok a => simp

/-- Under a handler an exception is raised if it is one that the handler does not catch. -/
theorem raises_handle {α : Type} {caught : PyException → Option Stop} {x : Except PyException α}
    (hcaught : ∀ e stop, caught e = some stop → ∀ e', stop ≠ .raised e') :
    Raises (handle caught x) ↔ ∃ e, x = .error e ∧ caught e = none := by
  cases x with
  | ok a => simp [handle]
  | error e =>
      cases hc : caught e with
      | none => simp [handle, hc]
      | some stop => simp [handle, hc, hcaught e stop hc]

theorem not_raises_undecodable {α : Type} {x : Except PyException α} :
    ¬Raises (handle undecodable x) := by
  rw [raises_handle]
  · simp [undecodable]
  · rintro e stop h e' rfl
    simp [undecodable] at h

theorem not_raises_signatureError {α : Type} {x : Except PyException α} {pairId : PyString} :
    ¬Raises (handle (signatureError pairId) x) := by
  rw [raises_handle]
  · simp [signatureError]
  · rintro e stop h e' rfl
    simp [signatureError] at h

theorem raises_invalidSecret {α : Type} {x : Except PyException α} :
    Raises (handle invalidSecret x) ↔
      ∃ e, x = .error e ∧ e.kind ≠ .typeError ∧ e.kind ≠ .valueError ∧ e.kind ≠ .keyError := by
  rw [raises_handle]
  · simp only [invalidSecret, ite_eq_right_iff, reduceCtorEq, imp_false, not_or]
  · rintro e stop h e' rfl
    simp [invalidSecret] at h

theorem not_raises_readHeaders {req : VerifyRequest} : ¬Raises (readHeaders lib req) := by
  simp only [readHeaders, requiredHeader, raises_bind, not_raises_elim, not_raises_failUnless,
    not_raises_pure, false_or, and_false, exists_false, not_false_eq_true]

theorem not_raises_readPair {registry : PairRegistry} {clock : Clock} {pairId : PyString} :
    ¬Raises (readPair cfg registry clock pairId) := by
  simp only [readPair, raises_bind, not_raises_elim, not_raises_failUnless, not_raises_pure, false_or,
    and_false, exists_false, not_false_eq_true]

theorem raises_readPayload {signedData : PyString} :
    Raises (readPayload lib signedData) ↔ ∃ bytes v, b64urlDecode lib (.str signedData) = .ok bytes ∧
      lib.loads bytes = .ok v ∧ ∀ items, v ≠ .dict items := by
  have hdict : ∀ v, Raises (asDict v) ↔ ∀ items, v ≠ .dict items := by
    intro v
    cases v with
    | dict items => simp [asDict]
    | _ => simp [asDict]
  simp only [readPayload, raises_bind, not_raises_undecodable, hdict, handle_eq_ok, not_raises_pure,
    false_or, and_false, exists_false, or_false]
  constructor
  · rintro ⟨bytes, hbytes, v, hloads, hv⟩
    exact ⟨bytes, v, hbytes, hloads, hv⟩
  · rintro ⟨bytes, v, hbytes, hloads, hv⟩
    exact ⟨bytes, hbytes, v, hloads, hv⟩

theorem raises_truncate {x : JsNumber} : Raises (truncate x) ↔ ∀ q, x ≠ .fin q := by
  cases x with
  | fin q => simp [truncate]
  | _ => simp [truncate]

theorem raises_checkTimestamp {clock : Clock} {pairId : PyString}
    {payload : List (PyString × PyJson)} :
    Raises (checkTimestamp lib cfg clock pairId payload) ↔
      getOr payload "version" .none = .str (.lit "1.0") ∧
        ∀ q, Js.ofRat (clock.timestamp * 1000) ≠ .fin q := by
  simp only [checkTimestamp, integerTimestamp, raises_bind, not_raises_failUnless, failUnless_eq_ok,
    raises_truncate, not_raises_elim, isText_iff, exists_unit, false_or, and_false, exists_false,
    or_false]

/-! ## The secret factor -/

/-- What the library raises: `uuid.UUID` a `ValueError` for a text that is no UUID, a `TypeError` for
    `None` and an `AttributeError` for anything else, and the decoding of a text a `ValueError`. -/
structure PyLibrary.Documented (lib : PyLibrary PublicKey) : Prop where
  uuidOfText : ∀ s e, lib.uuid4 (.str s) = .error e → e.kind = .valueError
  uuidOfNone : ∀ e, lib.uuid4 .none = .error e → e.kind = .typeError
  uuidOfOther : ∀ v, (∀ s, v ≠ .str s) → v ≠ .none →
    ∃ e, lib.uuid4 v = .error e ∧ e.kind = .attributeError
  decodeOfText : ∀ s e, lib.b64decode (.str s) = .error e → e.kind = .valueError

/-- The exceptions of `expectedHmac`, in order. -/
theorem expectedHmac_eq_error {pair : PairRecord} {payload : List (PyString × PyJson)}
    {e : PyException} (h : expectedHmac lib pair payload = .error e) :
    lib.uuid4 (getOr payload "nonce" (.str [])) = .error e ∨
      b64urlDecode lib (.str pair.secretHash) = .error e ∨
        asText (getOr payload "nonce" (.str [])) = .error e ∨ e.kind = .valueError := by
  simp only [expectedHmac, bind_eq_error, exists_unit] at h
  rcases h with h | ⟨-, h | ⟨key, -, h | ⟨text, -, h | ⟨message, -, h⟩⟩⟩⟩
  · exact .inl h
  · exact .inr (.inl h)
  · exact .inr (.inr (.inl h))
  · unfold encode at h
    generalize (text ++ (getOr payload "timestamp" (.int 0)).intText : PyString).encode = x at h
    cases x with
    | none =>
        cases h
        exact .inr (.inr (.inr rfl))
    | some bytes => cases h
  · cases h

/-- Of a nonce that is neither a text nor `None`, the exception is not caught. -/
theorem raises_secret (hlib : lib.Documented) {pair : PairRecord}
    {payload : List (PyString × PyJson)} :
    Raises (handle invalidSecret (expectedHmac lib pair payload)) ↔
      (∀ s, getOr payload "nonce" (.str []) ≠ .str s) ∧ getOr payload "nonce" (.str []) ≠ .none := by
  rw [raises_invalidSecret]
  constructor
  · rintro ⟨e, he, htype, hvalue, -⟩
    have herror := expectedHmac_eq_error he
    generalize getOr payload "nonce" (.str []) = nonce at herror ⊢
    have hdecode : b64urlDecode lib (.str pair.secretHash) = .error e → False := by
      intro h
      exact hvalue (hlib.decodeOfText _ e h)
    constructor
    · rintro s rfl
      rcases herror with h | h | h | h
      · exact hvalue (hlib.uuidOfText s e h)
      · exact hdecode h
      · cases h
      · exact hvalue h
    · rintro rfl
      rcases herror with h | h | h | h
      · exact htype (hlib.uuidOfNone e h)
      · exact hdecode h
      · cases h
        exact htype rfl
      · exact hvalue h
  · rintro ⟨htext, hnone⟩
    obtain ⟨e, he, hkind⟩ := hlib.uuidOfOther _ htext hnone
    refine ⟨e, ?_, by simp [hkind], by simp [hkind], by simp [hkind]⟩
    simp only [expectedHmac, he, error_bind]

/-- The HMAC of a nonce that is a UUID is compared with a text only if that text is ASCII. -/
theorem raises_sameHmac {v : PyJson} {expected : PyString} :
    Raises (sameHmac v expected) ↔ ∃ text, v = .str text ∧ ∃ c ∈ text, 128 ≤ c.1 := by
  cases v with
  | str s =>
      simp only [sameHmac, compareDigest]
      split
      · next h => simpa using h
      · next h => simpa using h
  | _ => simp [sameHmac]

theorem raises_checkSecret (hlib : lib.Documented) {pairId : PyString} {pair : PairRecord}
    {payload : List (PyString × PyJson)} :
    Raises (checkSecret lib pairId pair payload) ↔
      ((∀ s, getOr payload "nonce" (.str []) ≠ .str s) ∧ getOr payload "nonce" (.str []) ≠ .none) ∨
        (∃ expected, expectedHmac lib pair payload = .ok expected) ∧
          ∃ text, getOr payload "secret_hmac" (.str []) = .str text ∧ ∃ c ∈ text, 128 ≤ c.1 := by
  simp only [checkSecret, raises_bind, raises_secret hlib, handle_eq_ok, raises_sameHmac,
    not_raises_failUnless, not_raises_pure, failUnless_eq_ok, and_false, exists_false, or_false,
    exists_and_right]

/-! ## The requests that are not answered -/

variable (lib cfg) in
/-- The signed data of a request is read: its headers are there, and its pair is not refused. -/
structure Admitted (registry : PairRegistry) (clock : Clock) (req : VerifyRequest)
    (headers : BpcHeaders) (pair : PairRecord) : Prop where
  pairId : (headersLower lib req.headers).get (.lit "x-bpc-pair-id") = some headers.pairId
  signature : (headersLower lib req.headers).get (.lit "x-bpc-signature") = some headers.signature
  signedData :
    (headersLower lib req.headers).get (.lit "x-bpc-signed-data") = some headers.signedData
  version : (headersLower lib req.headers).get (.lit "x-bpc-version") = some (.lit "1.0")
  stored : registry.get headers.pairId = some pair
  notRevoked : pair.status ≠ .lit "revoked"
  notExpired : hasExpired pair clock.expiry = false
  scope : pair.scope ∈ allowedScopes
  below : pair.failedSigs < cfg.lockoutCount

variable (cfg) in
/-- The version and the timestamp of a payload are right. -/
structure Current (clock : Clock) (payload : List (PyString × PyJson)) : Prop where
  version : getOr payload "version" .none = .str (.lit "1.0")
  timestamp : ∃ nowMs ts, truncate (Js.ofRat (clock.timestamp * 1000)) = .ok nowMs ∧
    (getOr payload "timestamp" (.int 0)).toInt? = some ts ∧ |nowMs - ts| ≤ cfg.sigWindowMs

variable (lib) in
/-- An HMAC can be formed of a nonce and a timestamp: the nonce is a UUID, and the secret of the pair
    is encoded as it should be. -/
structure Keyed (pair : PairRecord) (payload : List (PyString × PyJson)) : Prop where
  uuid : lib.uuid4 (getOr payload "nonce" (.str [])) = .ok ()
  key : ∃ key, b64urlDecode lib (.str pair.secretHash) = .ok key
  text : ∃ text, getOr payload "nonce" (.str []) = .str text ∧
    ∃ message, (text ++ (getOr payload "timestamp" (.int 0)).intText : PyString).encode = some message

variable (lib cfg) in
/-- **The requests that raise**, of those whose signed data is read. -/
inductive Escapes (clock : Clock) (req : VerifyRequest) (s : Store) (headers : BpcHeaders)
    (pair : PairRecord) (bytes : Bytes) : PyJson → Prop
  /-- The signed data has no method `get`. -/
  | notDict {v : PyJson} : (∀ items, v ≠ .dict items) → Escapes clock req s headers pair bytes v
  /-- The clock is beyond the integers that a float can be. -/
  | clock {payload : List (PyString × PyJson)} :
      getOr payload "version" .none = .str (.lit "1.0") →
      (∀ q, Js.ofRat (clock.timestamp * 1000) ≠ .fin q) →
      Escapes clock req s headers pair bytes (.dict payload)
  /-- The nonce is a number, a boolean, a list or a dictionary. -/
  | nonce {payload : List (PyString × PyJson)} :
      Current cfg clock payload →
      (∀ text, getOr payload "nonce" (.str []) ≠ .str text) →
      getOr payload "nonce" (.str []) ≠ .none →
      Escapes clock req s headers pair bytes (.dict payload)
  /-- The HMAC of the payload is a text that is not ASCII. -/
  | secretHmac {payload : List (PyString × PyJson)} {text : PyString} :
      Current cfg clock payload → Keyed lib pair payload →
      getOr payload "secret_hmac" (.str []) = .str text → (∃ c ∈ text, 128 ≤ c.1) →
      Escapes clock req s headers pair bytes (.dict payload)
  /-- Everything is right, and the nonce would be kept for longer than a float can say. -/
  | ttl {payload : List (PyString × PyJson)} {nonce : PyString} :
      Authentic lib cfg s.registry clock req headers pair bytes payload nonce →
      (NonceStore.evict s.nonces clock.consumed).get nonce = none →
      (∀ q, Js.ofRat (cfg.ttlMs / 1000) ≠ .fin q) →
      Escapes clock req s headers pair bytes (.dict payload)

theorem readHeaders_eq_ok {req : VerifyRequest} {headers : BpcHeaders} :
    readHeaders lib req = .ok headers ↔
      (headersLower lib req.headers).get (.lit "x-bpc-pair-id") = some headers.pairId ∧
        (headersLower lib req.headers).get (.lit "x-bpc-signature") = some headers.signature ∧
        (headersLower lib req.headers).get (.lit "x-bpc-signed-data") = some headers.signedData ∧
        (headersLower lib req.headers).get (.lit "x-bpc-version") = some (.lit "1.0") := by
  simp only [readHeaders, requiredHeader, bind_eq_ok, pure_eq_ok, exists_unit, failUnless_eq_ok,
    elim_eq_ok]
  constructor
  · rintro ⟨pairId, hpairId, signature, hsignature, signedData, hsignedData, _, hversion, rfl, rfl⟩
    exact ⟨hpairId, hsignature, hsignedData, hversion⟩
  · rintro ⟨hpairId, hsignature, hsignedData, hversion⟩
    exact ⟨_, hpairId, _, hsignature, _, hsignedData, _, hversion, rfl, rfl⟩

theorem readPair_eq_ok {registry : PairRegistry} {clock : Clock} {pairId : PyString}
    {pair : PairRecord} :
    readPair cfg registry clock pairId = .ok pair ↔
      registry.get pairId = some pair ∧ pair.status ≠ .lit "revoked" ∧
        hasExpired pair clock.expiry = false ∧ pair.scope ∈ allowedScopes ∧
        pair.failedSigs < cfg.lockoutCount := by
  simp only [readPair, bind_eq_ok, pure_eq_ok, exists_unit, failUnless_eq_ok, elim_eq_ok]
  constructor
  · rintro ⟨_, hstored, hstatus, hexpired, hscope, hbelow, rfl⟩
    exact ⟨hstored, hstatus, hexpired, hscope, hbelow⟩
  · rintro ⟨hstored, hstatus, hexpired, hscope, hbelow⟩
    exact ⟨_, hstored, hstatus, hexpired, hscope, hbelow, rfl⟩

theorem admitted_iff {registry : PairRegistry} {clock : Clock} {req : VerifyRequest}
    {headers : BpcHeaders} {pair : PairRecord} :
    Admitted lib cfg registry clock req headers pair ↔
      readHeaders lib req = .ok headers ∧
        readPair cfg registry clock headers.pairId = .ok pair := by
  rw [readHeaders_eq_ok, readPair_eq_ok]
  constructor
  · intro h
    exact ⟨⟨h.pairId, h.signature, h.signedData, h.version⟩,
      h.stored, h.notRevoked, h.notExpired, h.scope, h.below⟩
  · rintro ⟨⟨hpairId, hsignature, hsignedData, hversion⟩, hstored, hstatus, hexpired, hscope, hbelow⟩
    exact ⟨hpairId, hsignature, hsignedData, hversion, hstored, hstatus, hexpired, hscope, hbelow⟩

theorem readPayload_eq_ok {signedData : PyString} {signed : Bytes × List (PyString × PyJson)} :
    readPayload lib signedData = .ok signed ↔ b64urlDecode lib (.str signedData) = .ok signed.1 ∧
      lib.loads signed.1 = .ok (.dict signed.2) := by
  simp only [readPayload, bind_eq_ok, pure_eq_ok, handle_eq_ok, asDict_eq_ok]
  constructor
  · rintro ⟨bytes, hbytes, _, hloads, items, rfl, rfl⟩
    exact ⟨hbytes, hloads⟩
  · rintro ⟨hbytes, hloads⟩
    exact ⟨_, hbytes, _, hloads, _, rfl, rfl⟩

theorem checkTimestamp_eq_ok {clock : Clock} {pairId : PyString}
    {payload : List (PyString × PyJson)} :
    checkTimestamp lib cfg clock pairId payload = .ok () ↔ Current cfg clock payload := by
  simp only [checkTimestamp, integerTimestamp, bind_eq_ok, exists_unit, failUnless_eq_ok, elim_eq_ok,
    isText_iff]
  constructor
  · rintro ⟨hversion, nowMs, hnow, ts, hts, hwindow⟩
    exact ⟨hversion, nowMs, ts, hnow, hts, hwindow⟩
  · rintro ⟨hversion, nowMs, ts, hnow, hts, hwindow⟩
    exact ⟨hversion, nowMs, hnow, ts, hts, hwindow⟩

theorem exists_expectedHmac {pair : PairRecord} {payload : List (PyString × PyJson)} :
    (∃ expected, expectedHmac lib pair payload = .ok expected) ↔ Keyed lib pair payload := by
  simp only [expectedHmac, encode, bind_eq_ok, pure_eq_ok, exists_unit, elim_eq_ok, asText_eq_ok]
  constructor
  · rintro ⟨_, huuid, key, hkey, text, htext, message, hmessage, -⟩
    exact ⟨huuid, ⟨key, hkey⟩, text, htext, message, hmessage⟩
  · rintro ⟨huuid, ⟨key, hkey⟩, text, htext, message, hmessage⟩
    exact ⟨_, huuid, key, hkey, text, htext, message, hmessage, rfl⟩

/-- The checks raise exactly in the first four cases. -/
theorem raises_check {registry : PairRegistry} {clock : Clock}
    {req : VerifyRequest} :
    Raises (check lib cfg registry clock req) ↔
      ∃ headers pair, Admitted lib cfg registry clock req headers pair ∧
        (Raises (readPayload lib headers.signedData) ∨
          ∃ bytes payload, readPayload lib headers.signedData = .ok (bytes, payload) ∧
            (Raises (checkTimestamp lib cfg clock headers.pairId payload) ∨
              Current cfg clock payload ∧
                Raises (checkSecret lib headers.pairId pair payload))) := by
  have hbinding : ∀ pairId payload, ¬Raises (checkBinding lib req pairId payload) := by
    simp only [checkBinding, raises_bind, not_raises_failUnless, false_or, and_false, exists_false,
      not_false_eq_true, implies_true]
  have hsignature : ∀ pairId pair signature bytes,
      ¬Raises (checkSignature lib pairId pair signature bytes) := by
    simp only [checkSignature, raises_bind, not_raises_failUnless, not_raises_signatureError, false_or,
      and_false, exists_false, not_false_eq_true, implies_true]
  have hbody : ∀ pairId payload, ¬Raises (checkBody lib req pairId payload) := by
    simp only [checkBody, not_raises_failUnless, not_false_eq_true, implies_true]
  have hscope : ∀ pair, ¬Raises (checkScope lib req pair) := by
    simp only [checkScope, not_raises_failUnless, not_false_eq_true, implies_true]
  simp only [check, raises_bind, not_raises_readHeaders, not_raises_readPair, hbinding, hsignature,
    hbody, hscope, not_raises_pure, exists_unit, false_or, and_false, exists_false, or_false,
    checkTimestamp_eq_ok, admitted_iff]
  constructor
  · rintro ⟨headers, hheaders, pair, hpair, h | ⟨signed, hsigned, h⟩⟩
    · exact ⟨headers, pair, ⟨hheaders, hpair⟩, .inl h⟩
    · exact ⟨headers, pair, ⟨hheaders, hpair⟩, .inr ⟨signed.1, signed.2, hsigned, h⟩⟩
  · rintro ⟨headers, pair, ⟨hheaders, hpair⟩, h | ⟨bytes, payload, hsigned, h⟩⟩
    · exact ⟨headers, hheaders, pair, hpair, .inl h⟩
    · exact ⟨headers, hheaders, pair, hpair, .inr ⟨(bytes, payload), hsigned, h⟩⟩

/-- Only the scopes that are allowed have methods. -/
theorem mem_allowedScopes {scope method : PyString} (h : method ∈ scopeMethods scope) :
    scope ∈ allowedScopes := by
  simp only [allowedScopes, List.map_cons, List.map_nil, List.mem_cons, List.not_mem_nil, or_false]
  unfold scopeMethods at h
  split at h
  · next hread => exact .inl hread
  · split at h
    · next hwrite => exact .inr (.inl hwrite)
    · split at h
      · next hadmin => exact .inr (.inr hadmin)
      · cases h

/-- A request that passes the checks is authentic. -/
theorem authentic_of_check {registry : PairRegistry} {clock : Clock} {req : VerifyRequest}
    {checked : Checked} (h : check lib cfg registry clock req = .ok checked) :
    ∃ headers bytes payload, Admitted lib cfg registry clock req headers checked.pair ∧
      Authentic lib cfg registry clock req headers checked.pair bytes payload checked.nonce := by
  obtain ⟨headers, bytes, payload, hauthentic, -, hstatus, hexpired⟩ := check_eq_ok h
  refine ⟨headers, bytes, payload, admitted_iff.mpr ⟨hauthentic.present, ?_⟩, hauthentic⟩
  exact readPair_eq_ok.mpr ⟨hauthentic.stored, hstatus, hexpired,
    mem_allowedScopes hauthentic.scope, hauthentic.below⟩

/-- A text of ASCII is the same as itself. -/
theorem sameHmac_b64url (bytes : Bytes) :
    sameHmac (.str (.ofUnits (b64url bytes))) (.ofUnits (b64url bytes)) = .ok true := by
  have hascii : (PyString.ofUnits (b64url bytes)).all (fun c => decide (c.1 < 128)) = true := by
    rw [List.all_eq_true]
    intro c hc
    obtain ⟨u, hu, rfl⟩ := List.mem_map.mp hc
    simpa using Wire.ascii_b64url bytes u hu
  simp [sameHmac, compareDigest, hascii]

/-- A request that is authentic passes the checks. -/
theorem check_of_authentic {registry : PairRegistry} {clock : Clock} {req : VerifyRequest}
    {headers : BpcHeaders} {pair : PairRecord} {bytes : Bytes} {payload : List (PyString × PyJson)}
    {nonce : PyString} (hadmitted : Admitted lib cfg registry clock req headers pair)
    (h : Authentic lib cfg registry clock req headers pair bytes payload nonce) :
    check lib cfg registry clock req = .ok ⟨headers.pairId, pair, nonce⟩ := by
  obtain ⟨hheaders, hpair⟩ := admitted_iff.mp hadmitted
  have hcurrent : Current cfg clock payload := ⟨h.version, h.timestamp⟩
  obtain ⟨key, message, hkey, hmessage, hsecret⟩ := h.secret
  obtain ⟨publicKey, sigBytes, hpublicKey, hsigBytes, hlength, hvalid⟩ := h.signature
  have hexpected : expectedHmac lib pair payload =
      .ok (nonce, .ofUnits (b64url (lib.hmacSha256 key message))) := by
    simp only [expectedHmac, h.nonceIs.1, h.nonceIs.2, hkey, asText, encode, hmessage, ok_bind,
      Option.elim_some]
    rfl
  have hsame : checkSecret lib headers.pairId pair payload = .ok nonce := by
    simp only [checkSecret, hexpected, handle, ok_bind, hsecret, sameHmac_b64url, failUnless,
      require_of]
    rfl
  have hbinding : checkBinding lib req headers.pairId payload = .ok () := by
    simp only [checkBinding, bind_eq_ok, exists_unit, failUnless_eq_ok, isText_iff]
    exact ⟨h.method, h.path, h.pairId⟩
  have hbody : checkBody lib req headers.pairId payload = .ok () := by
    simp only [checkBody, failUnless_eq_ok, isText_iff]
    exact h.bodyHash
  have hsignature : checkSignature lib headers.pairId pair headers.signature bytes = .ok () := by
    simp only [checkSignature, signatureValid, bind_eq_ok, exists_unit, failUnless_eq_ok, handle_eq_ok,
      require_eq_ok, pure_eq_ok]
    exact ⟨true, ⟨publicKey, hpublicKey, sigBytes, hsigBytes, hlength, hvalid⟩, rfl⟩
  simp only [check, bind_eq_ok, exists_unit, pure_eq_ok]
  exact ⟨headers, hheaders, pair, hpair, (bytes, payload), readPayload_eq_ok.mpr h.signed,
    checkTimestamp_eq_ok.mpr hcurrent, nonce, hsame, hbinding, hbody, hsignature,
    failUnless_eq_ok.mpr h.scope, rfl⟩

/-- After the checks only the end of the time that a nonce is kept can be too large. -/
theorem consume_raises {nonces : NonceStore} {nonce : PyString} {ttlMs : ℤ} {now : ℚ} :
    (∃ e, (NonceStore.consume nonces nonce ttlMs now).1 = .error e) ↔
      (NonceStore.evict nonces now).get nonce = none ∧ ∀ q, Js.ofRat (ttlMs / 1000) ≠ .fin q := by
  have hexpiry : (∃ e, nonceExpiry now ttlMs = .error e) ↔ ∀ q, Js.ofRat (ttlMs / 1000) ≠ .fin q := by
    unfold nonceExpiry
    cases Js.ofRat (ttlMs / 1000) with
    | fin q => simp [finiteFloat]
    | _ => simp [finiteFloat]
  unfold NonceStore.consume
  cases hget : (NonceStore.evict nonces now).get nonce with
  | some expiry => simp [OrderedMap.has, hget]
  | none =>
      rw [if_neg (by simp [OrderedMap.has, hget]), ← hexpiry]
      cases nonceExpiry now ttlMs with
      | error e => simp [Except.map]
      | ok expiry => simp [Except.map]

/-- `verify` raises where its checks do, or the nonce store at the end of them. -/
theorem verify_raises {clock : Clock} {req : VerifyRequest} {s : Store} :
    (∃ e, (verify lib cfg clock req s).1 = .error e) ↔
      Raises (check lib cfg s.registry clock req) ∨
        ∃ checked, check lib cfg s.registry clock req = .ok checked ∧
          ∃ e, (NonceStore.consume s.nonces checked.nonce cfg.ttlMs clock.consumed).1 = .error e := by
  unfold verify
  cases check lib cfg s.registry clock req with
  | error stop =>
      cases stop with
      | failure code message counted => simp [afterChecks]
      | raised e => simp [afterChecks]
  | ok checked =>
      simp only [afterChecks, not_raises_ok, Except.ok.injEq, exists_eq_left', false_or]
      generalize NonceStore.consume s.nonces checked.nonce cfg.ttlMs clock.consumed = x
      obtain ⟨answer, nonces⟩ := x
      cases answer with
      | error e => simp [conclude]
      | ok fresh =>
          cases fresh with
          | false => simp [conclude]
          | true => simp [conclude]

variable (lib cfg) in
/-- The signed data of the request is read, and then there is no result. -/
def Unanswered (clock : Clock) (req : VerifyRequest) (s : Store) : Prop :=
  ∃ headers pair bytes v, Admitted lib cfg s.registry clock req headers pair ∧
    b64urlDecode lib (.str headers.signedData) = .ok bytes ∧ lib.loads bytes = .ok v ∧
    Escapes lib cfg clock req s headers pair bytes v

theorem verify_raises_iff (hlib : lib.Documented) (clock : Clock) (req : VerifyRequest) (s : Store) :
    (∃ e, (verify lib cfg clock req s).1 = .error e) ↔ Unanswered lib cfg clock req s := by
  rw [verify_raises]
  constructor
  · rintro (h | ⟨checked, hchecked, h⟩)
    · obtain ⟨headers, pair, hadmitted, hpayload | ⟨bytes, payload, hpayload, hstage⟩⟩ :=
        raises_check.mp h
      · obtain ⟨bytes, v, hbytes, hloads, hv⟩ := raises_readPayload.mp hpayload
        exact ⟨headers, pair, bytes, v, hadmitted, hbytes, hloads, .notDict hv⟩
      · obtain ⟨hbytes, hloads⟩ := readPayload_eq_ok.mp hpayload
        refine ⟨headers, pair, bytes, .dict payload, hadmitted, hbytes, hloads, ?_⟩
        rcases hstage with htimestamp | ⟨hcurrent, hsecret⟩
        · obtain ⟨hversion, hclock⟩ := raises_checkTimestamp.mp htimestamp
          exact .clock hversion hclock
        · rcases (raises_checkSecret hlib).mp hsecret with
            ⟨htext, hnone⟩ | ⟨hexpected, text, htext, hascii⟩
          · exact .nonce hcurrent htext hnone
          · exact .secretHmac hcurrent (exists_expectedHmac.mp hexpected) htext hascii
    · obtain ⟨hnew, hlarge⟩ := consume_raises.mp h
      obtain ⟨headers, bytes, payload, hadmitted, hauthentic⟩ := authentic_of_check hchecked
      exact ⟨headers, checked.pair, bytes, .dict payload, hadmitted, hauthentic.signed.1,
        hauthentic.signed.2, .ttl hauthentic hnew hlarge⟩
  · rintro ⟨headers, pair, bytes, v, hadmitted, hbytes, hloads, h⟩
    cases h with
    | notDict hv =>
        exact .inl (raises_check.mpr ⟨headers, pair, hadmitted,
          .inl (raises_readPayload.mpr ⟨bytes, v, hbytes, hloads, hv⟩)⟩)
    | @clock payload hversion hclock =>
        exact .inl (raises_check.mpr ⟨headers, pair, hadmitted, .inr ⟨bytes, payload,
          readPayload_eq_ok.mpr ⟨hbytes, hloads⟩,
          .inl (raises_checkTimestamp.mpr ⟨hversion, hclock⟩)⟩⟩)
    | @nonce payload hcurrent htext hnone =>
        exact .inl (raises_check.mpr ⟨headers, pair, hadmitted, .inr ⟨bytes, payload,
          readPayload_eq_ok.mpr ⟨hbytes, hloads⟩,
          .inr ⟨hcurrent, (raises_checkSecret hlib).mpr (.inl ⟨htext, hnone⟩)⟩⟩⟩)
    | @secretHmac payload text hcurrent hkeyed htext hascii =>
        exact .inl (raises_check.mpr ⟨headers, pair, hadmitted, .inr ⟨bytes, payload,
          readPayload_eq_ok.mpr ⟨hbytes, hloads⟩, .inr ⟨hcurrent, (raises_checkSecret hlib).mpr
            (.inr ⟨exists_expectedHmac.mpr hkeyed, text, htext, hascii⟩)⟩⟩⟩)
    | @ttl payload nonce hauthentic hnew hlarge =>
        exact .inr ⟨_, check_of_authentic hadmitted hauthentic, consume_raises.mpr ⟨hnew, hlarge⟩⟩

/-- **`verify` returns a result for exactly the other requests.** -/
theorem verify_returns_iff (hlib : lib.Documented) (clock : Clock) (req : VerifyRequest)
    (s : Store) :
    (∃ r, (verify lib cfg clock req s).1 = .ok r) ↔ ¬Unanswered lib cfg clock req s := by
  rw [← verify_raises_iff hlib]
  cases (verify lib cfg clock req s).1 with
  | error e => simp
  | ok r => simp

/-! ## Signed data that is `null` -/

namespace Sample

/-- The library on this request, with the exceptions of `uuid.UUID`. -/
def documentedLibrary : PyLibrary Unit :=
  { library with
    uuid4 := fun
      | .str s => require (Pair.uuidRe s.units = true) refused
      | .none => .error ⟨.typeError, []⟩
      | _ => .error ⟨.attributeError, []⟩ }

theorem documented : documentedLibrary.Documented where
  uuidOfText s e h := by
    simp only [documentedLibrary, require] at h
    split at h
    · cases h
    · cases h
      rfl
  uuidOfNone e h := by
    cases h
    rfl
  uuidOfOther v htext hnone := by
    cases v with
    | str s => exact absurd rfl (htext s)
    | none => exact absurd rfl hnone
    | _ => exact ⟨_, rfl, rfl⟩
  decodeOfText s e h := by
    simp only [documentedLibrary, library] at h
    generalize Wire.b64urlDecode s.units = x at h
    cases x with
    | none =>
        cases h
        rfl
    | some bytes => cases h

/-- A request whose signed data is the text `null`. -/
def nullRequest : VerifyRequest :=
  { request with
    headers :=
      [(.lit "X-BPC-Pair-ID", .lit "p"), (.lit "X-BPC-Signature", .lit ""),
        (.lit "X-BPC-Signed-Data", .lit "bnVsbA"), (.lit "X-BPC-Version", .lit "1.0")] }

end Sample

/-- The verifier answers a request that it accepts. -/
theorem verify_returns_sample :
    Sample.documentedLibrary.Documented ∧
      ¬Unanswered Sample.documentedLibrary Sample.verifier Sample.clock Sample.request
        (Sample.registered "active").store := by
  refine ⟨Sample.documented, (verify_returns_iff Sample.documented _ _ _).mp ?_⟩
  have hok : returnedOk (verify Sample.documentedLibrary Sample.verifier Sample.clock Sample.request
      (Sample.registered "active").store).1 = true := by decide +kernel
  generalize (verify Sample.documentedLibrary Sample.verifier Sample.clock Sample.request
    (Sample.registered "active").store).1 = x at hok
  cases x with
  | error e => cases hok
  | ok r => exact ⟨r, rfl⟩

/-- Of a pair that the registry accepted, a request with the signed data `null` is not answered. -/
theorem verify_raises_null :
    ¬∀ (req : VerifyRequest) (s : Store),
      (∀ pairId pair, s.registry.get pairId = some pair → pair.scope ∈ allowedScopes) →
        ∃ r, (verify Sample.documentedLibrary Sample.verifier Sample.clock req s).1 = .ok r := by
  intro hclaim
  have hscopes : ∀ pairId pair, (Sample.registered "active").store.registry.get pairId = some pair →
      pair.scope ∈ allowedScopes := by
    intro pairId pair hpair
    have hget : (OrderedMap.empty.set (.lit "p") (Sample.record "active")).get pairId = some pair :=
      hpair
    rw [OrderedMap.get_set] at hget
    split at hget
    · cases hget
      decide
    · cases hget
  obtain ⟨r, hr⟩ := hclaim Sample.nullRequest (Sample.registered "active").store hscopes
  have hraised : (verify Sample.documentedLibrary Sample.verifier Sample.clock Sample.nullRequest
      (Sample.registered "active").store).1.isOk = false := by decide +kernel
  rw [hr] at hraised
  cases hraised

end Python
