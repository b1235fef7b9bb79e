import BpcProtocol.Wire.Scan

set_option autoImplicit false

/-! # One request between client and server

What a client signs and sends, what the runtime and the pair promise, and what the server decodes of
it: everything but the path arrives as it was signed. -/

namespace Wire

open Fallible Pair

/-! ## Lengths -/

theorem length_sextets (buf : Bytes) : (sextets buf).length = (4 * buf.length + 2) / 3 := by
  have hbytes : ∀ l : List ℕ, (Js.byteSextets l).length = (4 * l.length + 2) / 3 := by
    intro l
    induction l using Js.byteSextets.induct with
    | case1 a b c rest ih =>
        simp only [Js.byteSextets, List.length_cons, ih]
        omega
    | case2 a b => simp [Js.byteSextets]
    | case3 a => simp [Js.byteSextets]
    | case4 => simp [Js.byteSextets]
  rw [sextets, hbytes, List.length_map]

theorem length_b64url (buf : Bytes) : (b64url buf).length = (4 * buf.length + 2) / 3 := by
  rw [b64url_eq, List.length_map, length_sextets]

/-! ## Signing -/

/-- The SHA-256 digest of nothing. -/
def emptyDigest : Bytes :=
  [0xe3, 0xb0, 0xc4, 0x42, 0x98, 0xfc, 0x1c, 0x14, 0x9a, 0xfb, 0xf4, 0xc8, 0x99, 0x6f, 0xb9, 0x24,
    0x27, 0xae, 0x41, 0xe4, 0x64, 0x9b, 0x93, 0x4c, 0xa4, 0x95, 0x99, 0x1b, 0x78, 0x52, 0xb8, 0x55]

/-- What the documentation of the runtime says: lengths, the digest of nothing, and that a signature
    verifies under the public key of the pair. -/
structure WebCrypto.Documented {PrivateKey PublicKey : Type} (c : WebCrypto PrivateKey PublicKey)
    (privateKey : PrivateKey) (publicKey : PublicKey) : Prop where
  digest : c.sha256 [] = emptyDigest
  derived : ∀ key salt info, (c.deriveBits key salt info).length = 32
  tag : ∀ key data, (c.hmac key data).length = 32
  signature : ∀ data, (c.sign privateKey data).length = 64
  verifies : ∀ data, c.verify publicKey (c.sign privateKey data) data = true

/-- The bytes that a body sends. -/
def bodyBytes (body : Option RequestBody) : Except ServerError Bytes :=
  body.elim (.ok []) exactBodyBytes

theorem emptyBodyHash_eq : emptyBodyHash = Js.lit "sha256:" ++ b64url emptyDigest := by
  decide

/-- A request, from the call of `signRequest` to the pair and the verifier it reaches. -/
structure Exchange (PrivateKey PublicKey : Type) where
  crypto : WebCrypto PrivateKey PublicKey
  client : BPCClient PrivateKey
  method : JsString
  path : JsString
  body : Option RequestBody
  nonce : JsString
  timestamp : ℤ
  pair : StoredPair
  verifier : VerifierConfig
  ip : Option JsString

namespace Exchange

variable {PrivateKey PublicKey : Type} (e : Exchange PrivateKey PublicKey)

/-- What the client makes of it. -/
def signed : Except ServerError SignedHeaders :=
  e.client.signRequest e.crypto e.method e.path e.body e.nonce (.fin e.timestamp)

/-- The request as the server sees it, its body hashed by the server. -/
def request (headers : SignedHeaders) (bytes : Bytes) : BPCRequestData where
  pairId := some headers.pairId
  signedData := some headers.signedData
  signature := some headers.signature
  method := e.method
  path := e.path
  version := some headers.version
  bodyHash := some (hashOf e.crypto bytes)
  ip := e.ip

/-- The payload that is signed. -/
def payload (bytes : Bytes) (secretHmac : JsString) : RequestPayload where
  bodyHash := hashOf e.crypto bytes
  method := e.method
  nonce := e.nonce
  pairId := e.client.pairId
  path := e.path
  secretHmac
  timestamp := .fin e.timestamp

/-- A moment at which the request is fresh and the pair has not expired. -/
def Fresh (now : JsNumber) : Prop :=
  MemoryPairStore.isTimestamp now = true ∧
    e.verifier.sigWindowMs.lt (now.sub (.fin e.timestamp)).abs = false ∧
    ∀ t, e.pair.expiresAt = some t → t.truthy = true → t.lt now = false

/-- An active pair that holds the key and the secret of the client, with a method that its scope
    permits, neither locked nor used up; and a client whose identifiers, nonce and clock are those
    that the packages make. -/
structure Honest (publicKey : PublicKey) : Prop where
  runtime : e.crypto.Documented e.client.privateKey publicKey
  pairId : ∃ hex, e.client.pairId = Js.lit "pair_" ++ hex ∧ hex.length = 16 ∧
    ∀ c ∈ hex, Js.isLowerHex c = true
  nonce : uuidRe e.nonce = true
  clock : Js.isSafeInteger e.timestamp = true
  active : e.pair.status = .active
  secretHash : hashSecret e.crypto e.client.secret = .ok e.pair.secretHash
  key : ∃ jwk, canonicalAuthorizationJwk e.pair.pubJwk = .ok jwk ∧
    e.crypto.importPublicKey jwk.toJwk = .ok publicKey
  scope : ∃ methods, scopeAllowedMethods e.pair.scope = some methods ∧ e.method ∈ methods
  unlocked : e.pair.failedSigs.ge (e.verifier.lockoutCount.getD (.fin 10)) = false
  unused : ∀ m, e.pair.maxRequests = some m →
    (m.truthy && (JsNumber.fin 0).lt m && e.pair.requests.ge m) = false
  fresh : ∃ now, e.Fresh now

variable {e} {publicKey : PublicKey} {headers : SignedHeaders} {bytes : Bytes}

/-- What a client signs: the payload with the hash of the bytes that are sent. -/
theorem signed_spec (h : e.Honest publicKey) (hbody : bodyBytes e.body = .ok bytes)
    (hsigned : e.signed = .ok headers) :
    ∃ secretHmac,
      hmacDerive e.crypto e.pair.secretHash (e.nonce ++ Js.numberText (.fin e.timestamp)) =
        .ok secretHmac ∧
      headers = ⟨e.client.pairId,
        b64url (e.crypto.sign e.client.privateKey (Js.utf8 (e.payload bytes secretHmac).text)),
        b64url (Js.utf8 (e.payload bytes secretHmac).text), bpcProtocolVersion⟩ := by
  have hhash : clientBodyHash e.crypto e.body = .ok (hashOf e.crypto bytes) := by
    unfold clientBodyHash
    unfold bodyBytes at hbody
    cases hkind : e.body with
    | none =>
        rw [hkind] at hbody
        cases hbody
        rw [Option.elim_none, emptyBodyHash_eq, hashOf, h.runtime.digest]
    | some body =>
        rw [hkind, Option.elim_some] at hbody
        rw [Option.elim_some, hbody]
        rfl
  unfold signed BPCClient.signRequest at hsigned
  rw [hhash, h.secretHash] at hsigned
  simp only [ok_bind] at hsigned
  cases hmac : hmacDerive e.crypto e.pair.secretHash
      (e.nonce ++ Js.numberText (.fin e.timestamp)) with
  | error error =>
      rw [hmac] at hsigned
      cases hsigned
  | ok secretHmac =>
      refine ⟨secretHmac, rfl, ?_⟩
      have hcanonical := canonicalize_payload (e.payload bytes secretHmac)
      unfold payload at hcanonical ⊢
      rw [hmac] at hsigned
      simp only [ok_bind, signPayload, hcanonical] at hsigned
      cases hsigned
      rfl

/-! ## What arrives -/

/-- A string of ASCII without quotes arrives, and ends in a forbidden key only if it is one. -/
theorem oneByte_of_ascii {s : JsString} (h : Js.Ascii s) : OneByte s := by
  rw [← readText_eq_iff]
  induction s using readText.induct with
  | case1 => rfl
  | case2 c => exact (readUnit_spec c).2.1 (.inl (h c List.mem_cons_self))
  | case3 c d rest hpair ih =>
      rw [Bool.and_eq_true, Js.isHighSurrogate_iff] at hpair
      have hc := h c List.mem_cons_self
      omega
  | case4 c d rest hpair ih =>
      rw [readText, if_neg hpair, (readUnit_spec c).2.1 (.inl (h c List.mem_cons_self)),
        ih fun x hx => h x (List.mem_cons_of_mem _ hx)]
      rfl

theorem afterLastQuote_self {s : JsString} (h : 34 ∉ s) : afterLastQuote s = s := by
  rw [afterLastQuote, List.rtakeWhile_eq_self_iff]
  intro x hx
  simpa using fun hx34 : x = 34 => h (hx34 ▸ hx)

/-- A string that arrives as it was sent. -/
def Arrives (s : JsString) : Prop :=
  OneByte s ∧ afterLastQuote s ∉ forbiddenKeys

theorem arrives_of {s : JsString} (hascii : Js.Ascii s) (hquote : 34 ∉ s) (hkey : s ∉ forbiddenKeys) :
    Arrives s :=
  ⟨oneByte_of_ascii hascii, by rwa [afterLastQuote_self hquote]⟩

/-- The characters of identifiers: letters, digits, and marks other than a quote. -/
theorem arrives_of_class {s : JsString} (hclass : ∀ c ∈ s, (Js.isAlnum c || Js.oneOf "_-:" c) = true)
    (hkey : s ∉ forbiddenKeys) : Arrives s := by
  have hunit : ∀ c : UInt16, (Js.isAlnum c || Js.oneOf "_-:" c) = true → c.toNat < 128 ∧ c ≠ 34 := by
    intro c hc
    rw [Bool.or_eq_true] at hc
    rcases hc with hc | hc
    · simp only [Js.isAlnum, Bool.or_eq_true, Bool.and_eq_true, decide_eq_true_eq,
        UInt16.le_iff_toNat_le, Js.isDigit_iff] at hc
      refine ⟨?_, ?_⟩
      · rcases hc with (hc | hc) | hc
        · omega
        · exact Nat.lt_of_le_of_lt hc.2 (by decide)
        · exact Nat.lt_of_le_of_lt hc.2 (by decide)
      · rintro rfl
        revert hc
        decide
    · have hmem : c ∈ Js.lit "_-:" := List.elem_iff.mp hc
      have hall : (Js.lit "_-:").all (fun d => decide (d.toNat < 128 ∧ d ≠ 34)) = true := by decide
      exact of_decide_eq_true (List.all_eq_true.mp hall c hmem)
  exact arrives_of (fun c hc => (hunit c (hclass c hc)).1)
    (fun h34 => (hunit 34 (hclass 34 h34)).2 rfl) hkey

theorem forbiddenKeys_length : ∀ key ∈ forbiddenKeys, key.length ≤ 16 := by decide

theorem not_forbidden_of_length {s : JsString} (h : 16 < s.length) : s ∉ forbiddenKeys :=
  fun hmem => absurd (forbiddenKeys_length s hmem) (not_le.mpr h)

theorem methods_arrive {scope : JsString} {methods : List JsString}
    (h : scopeAllowedMethods scope = some methods) :
    ∀ method ∈ methods, method ∈ allowedMethods ∧ toUpperCase method = method ∧
      Js.Ascii method ∧ 34 ∉ method ∧ method ∉ forbiddenKeys := by
  unfold scopeAllowedMethods at h
  split_ifs at h <;> (cases h; decide)

theorem isAlnum_of_lowerHex {c : UInt16} (h : Js.isLowerHex c = true) : Js.isAlnum c = true := by
  simp only [Js.isLowerHex, Js.isAlnum, Bool.or_eq_true, Bool.and_eq_true, decide_eq_true_eq] at h ⊢
  rcases h with h | h
  · exact .inl (.inl h)
  · exact .inr ⟨h.1, UInt16.le_trans h.2 (show (102 : UInt16) ≤ 122 by decide)⟩

/-- The pair ids that the registry makes. -/
theorem pairId_spec (h : e.Honest publicKey) :
    Arrives e.client.pairId ∧ pairIdRe e.client.pairId = true ∧ e.client.pairId.length = 21 := by
  obtain ⟨hex, hid, hlength, hhex⟩ := h.pairId
  have hall : ∀ c ∈ e.client.pairId, Js.isAlnum c = true ∨ c = 95 := by
    intro c hc
    rw [hid, List.mem_append] at hc
    rcases hc with hc | hc
    · have hbegins : (Js.lit "pair_").all (fun d => decide (Js.isAlnum d = true ∨ d = 95)) = true := by
        decide
      exact of_decide_eq_true (List.all_eq_true.mp hbegins c hc)
    · exact .inl (isAlnum_of_lowerHex (hhex c hc))
  have hlen : e.client.pairId.length = 21 := by
    rw [hid, List.length_append, hlength]
    rfl
  refine ⟨arrives_of_class (fun c hc => ?_) (not_forbidden_of_length (by omega)), ?_, hlen⟩
  · rcases hall c hc with hc | rfl
    · rw [hc]
      rfl
    · decide
  · rw [pairIdRe, Bool.and_eq_true, List.all_eq_true]
    refine ⟨?_, fun c hc => ?_⟩
    · cases hnil : e.client.pairId with
      | nil => rw [hnil] at hlen; cases hlen
      | cons c rest => rfl
    · rcases hall c hc with hc | rfl
      · rw [hc]
        rfl
      · decide

theorem nonce_arrives (h : e.Honest publicKey) : Arrives e.nonce := by
  have hnonce := h.nonce
  rw [uuidRe, Bool.and_eq_true, decide_eq_true_eq, List.all_eq_true] at hnonce
  have hunit : ∀ (i : ℕ) (c : UInt16), uuidUnit i c = true →
      (Js.isAlnum c || Js.oneOf "_-:" c) = true := by
    intro i c hc
    unfold uuidUnit at hc
    split_ifs at hc
    · rw [of_decide_eq_true hc]
      decide
    · rw [of_decide_eq_true hc]
      decide
    · have hmem : c ∈ Js.lit "89abAB" := List.elem_iff.mp hc
      have hall : (Js.lit "89abAB").all (fun d => Js.isAlnum d || Js.oneOf "_-:" d) = true := by decide
      exact List.all_eq_true.mp hall c hmem
    · rw [Bool.or_eq_true] at hc ⊢
      left
      rcases hc with hc | hc
      · exact isAlnum_of_lowerHex hc
      · simp only [Bool.and_eq_true, decide_eq_true_eq] at hc
        simp only [Js.isAlnum, Bool.or_eq_true, Bool.and_eq_true, decide_eq_true_eq]
        exact .inl (.inr ⟨hc.1, UInt16.le_trans hc.2 (show (70 : UInt16) ≤ 90 by decide)⟩)
  refine arrives_of_class (fun c hc => ?_) (not_forbidden_of_length (by omega))
  obtain ⟨i, hi⟩ := List.mem_iff_getElem?.mp hc
  exact hunit i c (hnonce.2 (c, i) (List.mem_zipIdx_iff_getElem?.mpr hi))

theorem b64url_arrives {buf : Bytes} (h : b64url buf ∉ forbiddenKeys) : Arrives (b64url buf) := by
  refine arrives_of_class (fun c hc => ?_) h
  have hc := b64url_class buf c hc
  rw [Bool.or_eq_true] at hc ⊢
  refine hc.imp_right fun hc => ?_
  have hmem : c ∈ Js.lit "_-" := List.elem_iff.mp hc
  have hall : (Js.lit "_-").all (Js.oneOf "_-:") = true := by decide
  exact List.all_eq_true.mp hall c hmem

theorem hashOf_arrives (c : WebCrypto PrivateKey PublicKey) (bytes : Bytes) :
    Arrives (hashOf c bytes) := by
  refine arrives_of_class (fun d hd => ?_) fun hmem => ?_
  · rw [hashOf, List.mem_append] at hd
    rcases hd with hd | hd
    · have hall : (Js.lit "sha256:").all (fun d => Js.isAlnum d || Js.oneOf "_-:" d) = true := by decide
      exact List.all_eq_true.mp hall d hd
    · have hd := b64url_class _ d hd
      rw [Bool.or_eq_true] at hd ⊢
      refine hd.imp_right fun hd => ?_
      have hmem : d ∈ Js.lit "_-" := List.elem_iff.mp hd
      have hall : (Js.lit "_-").all (Js.oneOf "_-:") = true := by decide
      exact List.all_eq_true.mp hall d hmem
  · exact (forbiddenKeys_spec _ hmem).2.2.2.1 (List.mem_append_left _ (by decide))

end Exchange

end Wire
