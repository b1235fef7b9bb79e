import BpcProtocol.Durable.PairReplica
import BpcProtocol.Durable.PairReturned

set_option autoImplicit false

/-! # Sealed payloads stay where they were sealed

An ideal cipher decrypts nothing but the encryptions that were made, each under its own key, nonce
and associated data. The canonical form of the associated data tells streams, kinds of mutations,
identities, and pairs from registrations, so a sealed payload opens only as what it was sealed as. -/

namespace Durable

open Ha Fallible
open Pair (stringOf present presentFields present_eq keys_presentFields_sublist)

/-! ## An ideal cipher -/

/-- What one encryption is made of. -/
structure Encryption where
  key : Bytes
  nonce : Bytes
  aad : Bytes
  text : JsString
  deriving DecidableEq

/-- The ciphertext and the tag. -/
def Aead.output (aead : Aead) (e : Encryption) : Bytes × Bytes :=
  aead.encrypt e.key e.nonce e.aad e.text

/-- An ideal cipher: of the encryptions that were made, no two under one key and nonce, it restores
    the text, and it decrypts nothing else. A ciphertext is as long as the bytes of its text. -/
structure Aead.Ideal (aead : Aead) (made : Encryption → Prop) : Prop where
  restores : ∀ e, made e → Js.WellFormed e.text →
    aead.decrypt e.key e.nonce e.aad (aead.output e).1 (aead.output e).2 = some e.text
  authentic : ∀ key nonce aad ciphertext tag text,
    aead.decrypt key nonce aad ciphertext tag = some text →
      ∃ e, made e ∧ e.key = key ∧ e.nonce = nonce ∧ e.aad = aad ∧
        aead.output e = (ciphertext, tag)
  fresh : ∀ e e', made e → made e' → e.key = e'.key → e.nonce = e'.nonce → e = e'
  length_ciphertext : ∀ e, made e → (aead.output e).1.length = (Js.utf8 e.text).length
  length_tag : ∀ e, made e → (aead.output e).2.length = 16

/-- An encryption that is undone, to a ciphertext as long as the bytes of its text. -/
structure Aead.Restores (aead : Aead) (e : Encryption) : Prop where
  restores : Js.WellFormed e.text →
    aead.decrypt e.key e.nonce e.aad (aead.output e).1 (aead.output e).2 = some e.text
  length_ciphertext : (aead.output e).1.length = (Js.utf8 e.text).length
  length_tag : (aead.output e).2.length = 16

theorem Aead.Ideal.restored {aead : Aead} {made : Encryption → Prop} (h : aead.Ideal made)
    {e : Encryption} (hmade : made e) : aead.Restores e :=
  ⟨h.restores e hmade, h.length_ciphertext e hmade, h.length_tag e hmade⟩

/-- The check of the codec's constructor. -/
def PairSealKeyring.valid (keyring : PairSealKeyring) : Bool :=
  b64u keyring.activeKeyId && decide (keyring.activeKeyId.length ≤ 128)

/-! ## Sealing a value -/

/-- What is sealed: a value as a pair or as a registration, with its associated data. -/
inductive SealRequest where
  | pair (value : JsValue) (aad : PairSetAad)
  | registration (value : JsValue) (aad : PendingSetAad)

def SealRequest.aad : SealRequest → List (String × Option JsValue)
  | pair _ aad => aad.members
  | registration _ aad => aad.members

namespace PairPayloadCodec

/-- What `sealPair(value, aad)` and `sealRegistration(value, aad)` hand on to be sealed. -/
def clean : SealRequest → Except HaError JsValue
  | .pair value aad => do
      validateDomain aad.streamId
      let clean ← normalizePair value true
      ensure (clean.id.1 = aad.pairId) "pair identity/AAD mismatch"
      pure clean.toJs
  | .registration value aad => do
      validateDomain aad.streamId
      validatePending aad
      let clean ← normalizeRegistration value
      pure clean.toJs

variable (codec : PairPayloadCodec)

/-- `sealPair(value, aad)` and `sealRegistration(value, aad)`, of any value. -/
def sealRequest (nonce : Bytes) (r : SealRequest) : Except HaError SealedPairPayload := do
  let value ← clean r
  codec.sealValue nonce value r.aad

theorem sealPair_eq (nonce : Bytes) (pair : CanonicalStoredPair) (aad : PairSetAad) :
    codec.sealPair nonce pair aad = codec.sealRequest nonce (.pair pair.toJs aad) := by
  simp only [sealPair, sealRequest, clean, bind_assoc, pure_bind]
  rfl

/-- The encryption that sealing a value makes. -/
def encryptionOf (nonce : Bytes) (r : SealRequest) : Except HaError Encryption := do
  let value ← clean r
  let key ← codec.key codec.keyring.activeKeyId
  let aad ← aadBytes codec.keyring.activeKeyId r.aad
  let text ← canonicalize value
  pure { key, nonce, aad, text }

/-- The payload of an encryption. -/
def payloadOf (e : Encryption) : SealedPairPayload where
  keyId := codec.keyring.activeKeyId
  nonce := Js.toBase64Url e.nonce
  ciphertext := Js.toBase64Url (codec.aead.output e).1
  tag := Js.toBase64Url (codec.aead.output e).2

/-- An encryption that a request made. -/
structure Encrypts (nonce : Bytes) (r : SealRequest) (value : JsValue) (e : Encryption) : Prop where
  clean : clean r = .ok value
  key : codec.key codec.keyring.activeKeyId = .ok e.key
  nonce : e.nonce = nonce
  aad : aadBytes codec.keyring.activeKeyId r.aad = .ok e.aad
  text : canonicalize value = .ok e.text

variable {codec} {nonce : Bytes} {r : SealRequest} {s : SealedPairPayload}

theorem encryptionOf_eq_ok {e : Encryption} :
    codec.encryptionOf nonce r = .ok e ↔ ∃ value, codec.Encrypts nonce r value e := by
  simp only [encryptionOf, bind_eq_ok, pure_eq_ok]
  constructor
  · rintro ⟨value, hclean, key, hkey, aad, haad, text, htext, rfl⟩
    exact ⟨value, hclean, hkey, rfl, haad, htext⟩
  · rintro ⟨value, hclean, hkey, rfl, haad, htext⟩
    exact ⟨value, hclean, e.key, hkey, e.aad, haad, e.text, htext, rfl⟩

/-- **A sealed payload is the payload of the encryption that sealing made.** -/
theorem sealRequest_eq_ok :
    codec.sealRequest nonce r = .ok s ↔
      ∃ value e, codec.Encrypts nonce r value e ∧ s = codec.payloadOf e := by
  simp only [sealRequest, sealValue, bind_eq_ok, pure_eq_ok]
  constructor
  · rintro ⟨value, hclean, key, hkey, aad, haad, text, htext, rfl⟩
    exact ⟨value, ⟨key, nonce, aad, text⟩, ⟨hclean, hkey, rfl, haad, htext⟩, rfl⟩
  · rintro ⟨value, e, ⟨hclean, hkey, rfl, haad, htext⟩, rfl⟩
    exact ⟨value, hclean, e.key, hkey, e.aad, haad, e.text, htext, rfl⟩

/-! ## What was sealed is accepted -/

theorem canonicalBase64Url_toBase64Url {bytes : Bytes} (h : bytes ≠ []) :
    canonicalBase64Url (Js.toBase64Url bytes) = true := by
  have hlength : 0 < bytes.length := List.length_pos_iff.mpr h
  have hne : Js.toBase64Url bytes ≠ [] := by
    rw [← List.length_pos_iff, Js.length_toBase64Url]
    omega
  simp only [canonicalBase64Url, b64u, Js.fromBase64Url_toBase64Url, Bool.and_eq_true,
    Bool.not_eq_true', List.isEmpty_eq_false_iff, List.all_eq_true, decide_eq_true_eq, and_true]
  exact ⟨hne, fun c hc => Js.toBase64Url_alphabet hc⟩

theorem canonicalBytes_toBase64Url {bytes : Bytes} {n : ℕ} (h : bytes.length = n) (hn : 0 < n) :
    canonicalBytes (Js.toBase64Url bytes) n = true := by
  have hne : bytes ≠ [] := List.length_pos_iff.mp (h ▸ hn)
  rw [canonicalBytes, canonicalBase64Url_toBase64Url hne, Js.fromBase64Url_toBase64Url]
  simpa using h

/-- A canonical text has a byte. -/
theorem utf8_canonText_ne_nil {v : JsValue} (h : IJson v) (hkeys : v.DistinctKeys) :
    Js.utf8 (canonText v) ≠ [] := by
  intro hnil
  have htext : canonText v = [] := by
    have hempty : Js.WellFormed [] := trivial
    exact Js.utf8_injective h.wellFormed hempty hnil
  have hnone : Js.parseJson [] = none := by decide
  have hparse := (plain_sortKeys (plain_of_ijson h hkeys)).parse_stringify h.hasText
  rw [htext, hnone] at hparse
  cases hparse

theorem accepted_payloadOf {value : JsValue} {e : Encryption} (hrestores : codec.aead.Restores e)
    (hkeyring : codec.keyring.valid = true) (hnonce : nonce.length = 12)
    (he : codec.Encrypts nonce r value e) (hkeys : value.DistinctKeys) :
    (codec.payloadOf e).Accepted := by
  simp only [PairSealKeyring.valid, Bool.and_eq_true, decide_eq_true_eq] at hkeyring
  obtain ⟨hkeyId, hlength⟩ := hkeyring
  obtain ⟨hcanon, htext⟩ := canonicalize_eq_ok.mp he.text
  have hbytes := hcanon.bytes
  have hne := List.length_pos_iff.mpr (utf8_canonText_ne_nil hcanon.ijson hkeys)
  have hciphertext := hrestores.length_ciphertext
  have htag := hrestores.length_tag
  rw [htext] at hciphertext
  rw [canonMaxTotalBytes] at hbytes
  have hkeyIdNe : 1 ≤ codec.keyring.activeKeyId.length := by
    simp only [b64u, Bool.and_eq_true, Bool.not_eq_true', List.isEmpty_eq_false_iff] at hkeyId
    exact List.length_pos_iff.mpr hkeyId.1
  refine
    { keyId := ⟨hkeyIdNe, hlength⟩
      nonce := ?_, ciphertext := ?_, tag := ?_, encoded := ?_ }
  · show 1 ≤ (Js.toBase64Url e.nonce).length ∧ (Js.toBase64Url e.nonce).length ≤ 32
    rw [Js.length_toBase64Url, he.nonce, hnonce]
    omega
  · show 1 ≤ (Js.toBase64Url _).length ∧ (Js.toBase64Url _).length ≤ 1500000
    rw [Js.length_toBase64Url, hciphertext]
    omega
  · show 1 ≤ (Js.toBase64Url _).length ∧ (Js.toBase64Url _).length ≤ 32
    rw [Js.length_toBase64Url, htag]
    omega
  · have hcipherNe : (codec.aead.output e).1 ≠ [] := by
      rw [← List.length_pos_iff, hciphertext]
      exact hne
    simp only [SealedPairPayload.encoded, payloadOf, hkeyId,
      canonicalBytes_toBase64Url (he.nonce ▸ hnonce) (by decide : 0 < 12),
      canonicalBase64Url_toBase64Url hcipherNe,
      canonicalBytes_toBase64Url htag (by decide : 0 < 16), Bool.and_self]

/-! ## Associated data -/

/-- The members that are authenticated. -/
def authenticated (keyId : JsString) (aad : List (String × Option JsValue)) :
    List (String × Option JsValue) :=
  ("alg", some (.string (Js.lit "A256GCM"))) :: ("keyId", some (.string keyId)) :: aad

theorem aadBytes_eq_ok {keyId : JsString} {aad : List (String × Option JsValue)} {bytes : Bytes} :
    aadBytes keyId aad = .ok bytes ↔
      ∃ text, canonicalize (present (authenticated keyId aad)) = .ok text ∧
        bytes = Js.utf8 text := by
  simp only [aadBytes, bind_eq_ok, pure_eq_ok]
  exact exists_congr fun text => and_congr_right fun _ => eq_comm

/-- Associated data with the names of their members distinct. -/
structure AadMembers (aad : List (String × Option JsValue)) : Prop where
  flat : Flat aad
  nodup : ∀ keyId, ((authenticated keyId aad).map fun f => Js.lit f.1).Nodup

theorem aadMembers_pair (aad : PairSetAad) : AadMembers aad.members where
  flat := Flat.string (Flat.string (Flat.string (Flat.string (Flat.string Flat.nil))))
  nodup := fun _ => by
    show (["alg", "keyId", "domain", "version", "streamId", "kind", "pairId"].map Js.lit).Nodup
    decide

theorem aadMembers_pending (aad : PendingSetAad) : AadMembers aad.members where
  flat := Flat.string (Flat.string (Flat.string (Flat.string (Flat.string
    (Flat.value (distinctKeys_nat aad.requestedAt) Flat.nil)))))
  nodup := fun _ => by
    show (["alg", "keyId", "domain", "version", "streamId", "kind", "token", "requestedAt"].map
      Js.lit).Nodup
    decide

/-- **Associated data of the same bytes have the same members.** -/
theorem member_of_aadBytes {keyId : JsString} {a b : List (String × Option JsValue)} {bytes : Bytes}
    (ha : aadBytes keyId a = .ok bytes) (hb : aadBytes keyId b = .ok bytes) (hka : AadMembers a)
    (hkb : AadMembers b) (name : String) :
    sortKeys (ownValue (presentFields (authenticated keyId a)) name) =
      sortKeys (ownValue (presentFields (authenticated keyId b)) name) := by
  obtain ⟨text, htext, rfl⟩ := aadBytes_eq_ok.mp ha
  obtain ⟨text', htext', hbytes⟩ := aadBytes_eq_ok.mp hb
  obtain ⟨hca, hta⟩ := canonicalize_eq_ok.mp htext
  obtain ⟨hcb, htb⟩ := canonicalize_eq_ok.mp htext'
  have hsame : text = text' := by
    rw [hta, htb] at hbytes ⊢
    exact Js.utf8_injective hca.ijson.wellFormed hcb.ijson.wellFormed hbytes
  subst hsame
  have hplain : ∀ {aad : List (String × Option JsValue)}, AadMembers aad →
      Canonicalizable (present (authenticated keyId aad)) →
      Js.Plain (present (authenticated keyId aad)) := fun hmembers hcanon =>
    plain_of_ijson hcanon.ijson
      (distinctKeys_present (hmembers.nodup keyId) (Flat.string (Flat.string hmembers.flat)))
  have hsorted := sortKeys_eq_of_canonicalize htext htext' (hplain hka hca) (hplain hkb hcb)
  rw [present_eq, present_eq, sortKeys_object, sortKeys_object, JsValue.object.injEq] at hsorted
  rw [← ownValue_sortedFields ((hka.nodup keyId).sublist (keys_presentFields_sublist _)), hsorted,
    ownValue_sortedFields ((hkb.nodup keyId).sublist (keys_presentFields_sublist _))]

theorem eq_of_aadBytes {keyId : JsString} {a b : List (String × Option JsValue)} {bytes : Bytes}
    (ha : aadBytes keyId a = .ok bytes) (hb : aadBytes keyId b = .ok bytes) (hka : AadMembers a)
    (hkb : AadMembers b) {name : String} {v w : JsValue} (hv : (name, some v) ∈ a)
    (hw : (name, some w) ∈ b) : sortKeys v = sortKeys w := by
  have hsame := member_of_aadBytes ha hb hka hkb name
  rwa [ownValue_presentFields (hka.nodup keyId) (List.mem_cons_of_mem _ (List.mem_cons_of_mem _ hv)),
    ownValue_presentFields (hkb.nodup keyId) (List.mem_cons_of_mem _ (List.mem_cons_of_mem _ hw))]
    at hsame

theorem MutationKind.text_injective {k k' : MutationKind} (h : k.text = k'.text) : k = k' := by
  have hkind := enumOf_mutationKind k
  rw [h, enumOf_mutationKind] at hkind
  exact (Option.some.inj hkind).symm

theorem pairAad_of_aadBytes {keyId : JsString} {a b : PairSetAad} {bytes : Bytes}
    (ha : aadBytes keyId a.members = .ok bytes) (hb : aadBytes keyId b.members = .ok bytes) :
    a = b := by
  have hsame := fun {name : String} {v w : JsValue} (hv : (name, some v) ∈ a.members)
    (hw : (name, some w) ∈ b.members) =>
      eq_of_aadBytes ha hb (aadMembers_pair a) (aadMembers_pair b) hv hw
  have hstream : JsValue.string a.streamId = .string b.streamId :=
    @hsame "streamId" (.string a.streamId) (.string b.streamId) (by simp [PairSetAad.members])
      (by simp [PairSetAad.members])
  have hkind : JsValue.string a.kind.text = .string b.kind.text :=
    @hsame "kind" (.string a.kind.text) (.string b.kind.text) (by simp [PairSetAad.members])
      (by simp [PairSetAad.members])
  have hpairId : JsValue.string a.pairId = .string b.pairId :=
    @hsame "pairId" (.string a.pairId) (.string b.pairId) (by simp [PairSetAad.members])
      (by simp [PairSetAad.members])
  obtain ⟨streamId, kind, pairId⟩ := a
  obtain ⟨streamId', kind', pairId'⟩ := b
  obtain rfl : kind = kind' := MutationKind.text_injective (JsValue.string.inj hkind)
  cases hstream
  cases hpairId
  rfl

theorem pendingAad_of_aadBytes {keyId : JsString} {a b : PendingSetAad} {bytes : Bytes}
    (ha : aadBytes keyId a.members = .ok bytes) (hb : aadBytes keyId b.members = .ok bytes) :
    a = b := by
  have hsame := fun {name : String} {v w : JsValue} (hv : (name, some v) ∈ a.members)
    (hw : (name, some w) ∈ b.members) =>
      eq_of_aadBytes ha hb (aadMembers_pending a) (aadMembers_pending b) hv hw
  have hstream : JsValue.string a.streamId = .string b.streamId :=
    @hsame "streamId" (.string a.streamId) (.string b.streamId) (by simp [PendingSetAad.members])
      (by simp [PendingSetAad.members])
  have hkind : JsValue.string a.kind.text = .string b.kind.text :=
    @hsame "kind" (.string a.kind.text) (.string b.kind.text) (by simp [PendingSetAad.members])
      (by simp [PendingSetAad.members])
  have htoken : JsValue.string a.token = .string b.token :=
    @hsame "token" (.string a.token) (.string b.token) (by simp [PendingSetAad.members])
      (by simp [PendingSetAad.members])
  have hat : a.requestedAt.toJs = b.requestedAt.toJs :=
    @hsame "requestedAt" a.requestedAt.toJs b.requestedAt.toJs (by simp [PendingSetAad.members])
      (by simp [PendingSetAad.members])
  obtain ⟨streamId, kind, token, requestedAt⟩ := a
  obtain ⟨streamId', kind', token', requestedAt'⟩ := b
  obtain rfl : kind = kind' := MutationKind.text_injective (JsValue.string.inj hkind)
  have hnat : some requestedAt = some requestedAt' := by
    rw [← safeNatOf_toJs requestedAt, ← safeNatOf_toJs requestedAt']
    exact congrArg safeNatOf hat
  cases hstream
  cases htoken
  cases hnat
  rfl

/-- The associated data of a pair are never those of a registration. -/
theorem not_pair_and_pending {keyId : JsString} {a : PairSetAad} {b : PendingSetAad} {bytes : Bytes}
    (ha : aadBytes keyId a.members = .ok bytes) (hb : aadBytes keyId b.members = .ok bytes) :
    False := by
  have hsame := member_of_aadBytes ha hb (aadMembers_pair a) (aadMembers_pending b) "pairId"
  have hpair : ownValue (presentFields (authenticated keyId a.members)) "pairId" =
      .string a.pairId :=
    ownValue_presentFields (o := some (.string a.pairId)) ((aadMembers_pair a).nodup keyId)
      (by simp [authenticated, PairSetAad.members])
  have hpending : ownValue (presentFields (authenticated keyId b.members)) "pairId" = .undefined := by
    refine ownValue_of_not_mem fun hmem => ?_
    have hname := (keys_presentFields_sublist _).subset hmem
    have habsent : Js.lit "pairId" ∉ ["alg", "keyId", "domain", "version", "streamId", "kind",
        "token", "requestedAt"].map Js.lit := by decide
    exact habsent hname
  rw [hpair, hpending] at hsame
  cases hsame

/-! ## Opening -/

/-- **What opens was encrypted with the same associated data.** -/
theorem aadBytes_of_openValue {made : Encryption → Prop} (hideal : codec.aead.Ideal made)
    {value v : JsValue} {e : Encryption} (he : codec.Encrypts nonce r value e) (hmade : made e)
    {aad : List (String × Option JsValue)}
    (hopen : codec.openValue (codec.payloadOf e) aad = .ok v) :
    aadBytes codec.keyring.activeKeyId aad = .ok e.aad := by
  simp only [openValue, bind_eq_ok, found_eq_ok] at hopen
  obtain ⟨s, hs, hopened⟩ := hopen
  obtain ⟨rfl, -⟩ := normalizeSealed_toJs.mp hs
  simp only [opened, payloadOf, Js.fromBase64Url_toBase64Url, he.key, Except.toOption,
    Option.bind_eq_bind, Option.bind_some] at hopened
  cases hdata : aadBytes codec.keyring.activeKeyId aad with
  | error err =>
      rw [hdata] at hopened
      cases hopened
  | ok data =>
      rw [hdata] at hopened
      have hread : (codec.aead.decrypt e.key e.nonce data (codec.aead.output e).1
          (codec.aead.output e).2).bind Js.parseJson = some v := hopened
      obtain ⟨text, hdecrypt, -⟩ := Option.bind_eq_some_iff.mp hread
      obtain ⟨e', hmade', hkey, hnonce, rfl, -⟩ := hideal.authentic _ _ _ _ _ _ hdecrypt
      rw [hideal.fresh e' e hmade' hmade hkey hnonce]

theorem openValue_payloadOf {value : JsValue} {e : Encryption} (hrestores : codec.aead.Restores e)
    (hkeyring : codec.keyring.valid = true) (hnonce : nonce.length = 12)
    (he : codec.Encrypts nonce r value e) (hkeys : value.DistinctKeys) :
    codec.openValue (codec.payloadOf e) r.aad = .ok (sortKeys value) := by
  have hwellFormed : Js.WellFormed e.text := by
    obtain ⟨hcanon, htext⟩ := canonicalize_eq_ok.mp he.text
    exact htext ▸ hcanon.ijson.wellFormed
  exact openValue_of_decrypt hkeys he.key he.aad he.text (hrestores.restores hwellFormed)
    (accepted_payloadOf hrestores hkeyring hnonce he hkeys)

theorem error_of_not_ok {α : Type} {x : Except HaError α} (h : ∀ a, x ≠ .ok a) :
    ∃ e, x = .error e := by
  cases x with
  | error e => exact ⟨e, rfl⟩
  | ok a => exact absurd rfl (h a)

theorem openValue_of_openPair {s : SealedPairPayload} {aad : PairSetAad} {q : CanonicalStoredPair}
    (h : codec.openPair s aad = .ok q) : ∃ v, codec.openValue s aad.members = .ok v := by
  simp only [openPair, bind_eq_ok] at h
  obtain ⟨-, -, -, -, v, hv, -⟩ := h
  exact ⟨v, hv⟩

theorem openValue_of_openRegistration {s : SealedPairPayload} {aad : PendingSetAad}
    {q : CanonicalPairRegistration} (h : codec.openRegistration s aad = .ok q) :
    ∃ v, codec.openValue s aad.members = .ok v := by
  simp only [openRegistration, bind_eq_ok] at h
  obtain ⟨-, -, -, -, v, hv, -⟩ := h
  exact ⟨v, hv⟩

section Restored

variable (hkeyring : codec.keyring.valid = true) (hnonce : nonce.length = 12)

include hkeyring hnonce

/-- A value that was sealed as a pair opens as the pair that it was normalized to. -/
theorem openPair_sealRequest {value : JsValue} {aad : PairSetAad}
    (hrestores : ∀ e, codec.encryptionOf nonce (.pair value aad) = .ok e → codec.aead.Restores e)
    (hs : codec.sealRequest nonce (.pair value aad) = .ok s) :
    ∃ q, normalizePair value true = .ok q ∧ codec.openPair s aad = .ok q := by
  obtain ⟨written, e, he, rfl⟩ := sealRequest_eq_ok.mp hs
  have hclean := he.clean
  simp only [clean, bind_eq_ok, ensure_eq_ok, exists_unit, pure_eq_ok] at hclean
  obtain ⟨hdomain, q, hq, hid, rfl⟩ := hclean
  have hopen : codec.openValue (codec.payloadOf e) aad.members = .ok (sortKeys q.toJs) :=
    openValue_payloadOf (r := .pair value aad) (hrestores e (encryptionOf_eq_ok.mpr ⟨_, he⟩))
      hkeyring hnonce he (distinctKeys_pair q)
  refine ⟨q, hq, ?_⟩
  simp only [openPair, bind_eq_ok, ensure_eq_ok, exists_unit, pure_eq_ok]
  exact ⟨hdomain, hid ▸ q.id.2, sortKeys q.toJs, hopen, q,
    normalizePair_sortKeys (scored_of_normalizePair hq), hid, rfl⟩

/-- A value that was sealed as a registration opens as the registration. -/
theorem openRegistration_sealRequest {value : JsValue} {aad : PendingSetAad}
    (hrestores : ∀ e, codec.encryptionOf nonce (.registration value aad) = .ok e →
      codec.aead.Restores e)
    (hs : codec.sealRequest nonce (.registration value aad) = .ok s) :
    ∃ q, normalizeRegistration value = .ok q ∧ codec.openRegistration s aad = .ok q := by
  obtain ⟨written, e, he, rfl⟩ := sealRequest_eq_ok.mp hs
  have hclean := he.clean
  simp only [clean, bind_eq_ok, pure_eq_ok] at hclean
  obtain ⟨_, hdomain, _, hpending, q, hq, rfl⟩ := hclean
  have hopen : codec.openValue (codec.payloadOf e) aad.members = .ok (sortKeys q.toJs) :=
    openValue_payloadOf (r := .registration value aad)
      (hrestores e (encryptionOf_eq_ok.mpr ⟨_, he⟩)) hkeyring hnonce he (distinctKeys_registration q)
  refine ⟨q, hq, ?_⟩
  simp only [openRegistration, bind_eq_ok]
  exact ⟨(), hdomain, (), hpending, sortKeys q.toJs, hopen, normalizeRegistration_sortKeys q⟩

end Restored

/-- What a request sealed opens only under associated data of the same bytes. -/
theorem aadBytes_of_sealRequest {made : Encryption → Prop} (hideal : codec.aead.Ideal made)
    (hmade : ∀ e, codec.encryptionOf nonce r = .ok e → made e)
    (hs : codec.sealRequest nonce r = .ok s) {aad : List (String × Option JsValue)} {v : JsValue}
    (hopen : codec.openValue s aad = .ok v) :
    ∃ bytes, aadBytes codec.keyring.activeKeyId r.aad = .ok bytes ∧
      aadBytes codec.keyring.activeKeyId aad = .ok bytes := by
  obtain ⟨value, e, he, rfl⟩ := sealRequest_eq_ok.mp hs
  exact ⟨e.aad, he.aad,
    aadBytes_of_openValue hideal he (hmade e (encryptionOf_eq_ok.mpr ⟨value, he⟩)) hopen⟩

/-- **Sealed payloads cannot be transplanted.** With an ideal cipher a sealed pair opens under its
    own associated data, with every field as it was but a kind that was left out and a key that had
    more than its four members; under any other it does not open, and never as a registration.
    Likewise a sealed registration. -/
theorem sealed_payload_bound {codec : PairPayloadCodec} {made : Encryption → Prop}
    (hideal : codec.aead.Ideal made) (hkeyring : codec.keyring.valid = true) {nonce : Bytes}
    (hnonce : nonce.length = 12) :
    (∀ value aad s, (∀ e, codec.encryptionOf nonce (.pair value aad) = .ok e → made e) →
      codec.sealRequest nonce (.pair value aad) = .ok s →
        (∃ q, codec.openPair s aad = .ok q ∧ Returned pairKeys value q.toJs) ∧
        (∀ aad', aad' ≠ aad → ∃ e, codec.openPair s aad' = .error e) ∧
        ∀ aad', ∃ e, codec.openRegistration s aad' = .error e) ∧
    (∀ value aad s, (∀ e, codec.encryptionOf nonce (.registration value aad) = .ok e → made e) →
      codec.sealRequest nonce (.registration value aad) = .ok s →
        (∃ q, codec.openRegistration s aad = .ok q ∧ Returned regKeys value q.toJs) ∧
        (∀ aad', aad' ≠ aad → ∃ e, codec.openRegistration s aad' = .error e) ∧
        ∀ aad', ∃ e, codec.openPair s aad' = .error e) := by
  refine ⟨fun value aad s hmade hs => ⟨?_, fun aad' hne => error_of_not_ok fun q hq => ?_,
      fun aad' => error_of_not_ok fun q hq => ?_⟩,
    fun value aad s hmade hs => ⟨?_, fun aad' hne => error_of_not_ok fun q hq => ?_,
      fun aad' => error_of_not_ok fun q hq => ?_⟩⟩
  · obtain ⟨q, hq, hopen⟩ := openPair_sealRequest hkeyring hnonce
      (fun e he => hideal.restored (hmade e he)) hs
    exact ⟨q, hopen, normalizePair_returned hq⟩
  · obtain ⟨v, hv⟩ := openValue_of_openPair hq
    obtain ⟨bytes, hown, hother⟩ := aadBytes_of_sealRequest hideal hmade hs hv
    exact hne (pairAad_of_aadBytes hother hown)
  · obtain ⟨v, hv⟩ := openValue_of_openRegistration hq
    obtain ⟨bytes, hown, hother⟩ := aadBytes_of_sealRequest hideal hmade hs hv
    exact not_pair_and_pending hown hother
  · obtain ⟨q, hq, hopen⟩ := openRegistration_sealRequest hkeyring hnonce
      (fun e he => hideal.restored (hmade e he)) hs
    exact ⟨q, hopen, normalizeRegistration_returned hq⟩
  · obtain ⟨v, hv⟩ := openValue_of_openRegistration hq
    obtain ⟨bytes, hown, hother⟩ := aadBytes_of_sealRequest hideal hmade hs hv
    exact hne (pendingAad_of_aadBytes hother hown)
  · obtain ⟨v, hv⟩ := openValue_of_openPair hq
    obtain ⟨bytes, hown, hother⟩ := aadBytes_of_sealRequest hideal hmade hs hv
    exact not_pair_and_pending hother hown

end PairPayloadCodec

/-! ## A pair without a kind -/

/-- The cipher that has made one encryption: the bytes of the text, with a tag of zeros. -/
def Encryption.cipher (e : Encryption) : Aead where
  encrypt key nonce aad text :=
    if (⟨key, nonce, aad, text⟩ : Encryption) = e then (Js.utf8 text, List.replicate 16 0)
    else ([], [])
  decrypt key nonce aad ciphertext tag :=
    if (⟨key, nonce, aad, e.text⟩ : Encryption) = e ∧
        (ciphertext, tag) = (Js.utf8 e.text, List.replicate 16 0) then some e.text
    else none

theorem Encryption.output_cipher (e : Encryption) :
    e.cipher.output e = (Js.utf8 e.text, List.replicate 16 0) :=
  if_pos rfl

theorem Encryption.ideal_cipher (e : Encryption) : e.cipher.Ideal (· = e) where
  restores := by
    rintro _ rfl _
    rw [Encryption.output_cipher]
    exact if_pos ⟨rfl, rfl⟩
  authentic := by
    intro key nonce aad ciphertext tag text h
    simp only [cipher, Option.ite_none_right_eq_some] at h
    obtain ⟨⟨he, hout⟩, -⟩ := h
    refine ⟨e, rfl, ?_, ?_, ?_, e.output_cipher.trans hout.symm⟩
    · exact (congrArg Encryption.key he).symm
    · exact (congrArg Encryption.nonce he).symm
    · exact (congrArg Encryption.aad he).symm
  fresh := by
    rintro _ _ rfl rfl _ _
    rfl
  length_ciphertext := by
    rintro _ rfl
    rw [Encryption.output_cipher]
  length_tag := by
    rintro _ rfl
    rw [Encryption.output_cipher]
    exact List.length_replicate

/-- The sample pair without its kind. -/
def kindlessPair : JsValue :=
  present (samplePair.members.filter fun f => f.1 != "kind")

/-- The encryption that sealing it makes. -/
def kindlessEncryption : Encryption where
  key := sampleSeal.key
  nonce := sampleSeal.nonce
  aad := sampleSeal.aad
  text := sampleSeal.text

def kindlessCodec : PairPayloadCodec where
  aead := kindlessEncryption.cipher
  keyring := sampleStore.codec.keyring

theorem kindless_encryption :
    kindlessCodec.encryptionOf sampleSeal.nonce (.pair kindlessPair sampleAad) =
      .ok kindlessEncryption := by
  decide +kernel

theorem kindless_made (e : Encryption)
    (h : kindlessCodec.encryptionOf sampleSeal.nonce (.pair kindlessPair sampleAad) = .ok e) :
    e = kindlessEncryption :=
  Except.ok.inj (h.symm.trans kindless_encryption)

theorem kindless_sealed :
    kindlessCodec.sealRequest sampleSeal.nonce (.pair kindlessPair sampleAad) =
      .ok (kindlessCodec.payloadOf kindlessEncryption) := by
  obtain ⟨value, he⟩ := PairPayloadCodec.encryptionOf_eq_ok.mp kindless_encryption
  exact PairPayloadCodec.sealRequest_eq_ok.mpr ⟨value, _, he, rfl⟩

/-- A pair that was sealed without a kind comes back with one. -/
theorem sealed_pair_changed :
    ∃ q, kindlessCodec.openPair (kindlessCodec.payloadOf kindlessEncryption) sampleAad = .ok q ∧
      kindlessPair.get (Js.lit "kind") = .undefined ∧
      q.toJs.get (Js.lit "kind") = .string (Js.lit "legitimate") := by
  obtain ⟨q, hclean, hq⟩ := PairPayloadCodec.openPair_sealRequest (by decide) (by decide)
    (fun e he => kindlessEncryption.ideal_cipher.restored (kindless_made e he)) kindless_sealed
  have hkind : kindlessPair.get (Js.lit "kind") = .undefined := rfl
  have hwritten := (normalizePair_returned hclean).kind
  rw [hkind] at hwritten
  exact ⟨q, hq, hkind, hwritten⟩

theorem sealed_payload_bound_kindless :
    (∃ q, kindlessCodec.openPair (kindlessCodec.payloadOf kindlessEncryption) sampleAad = .ok q ∧
      Returned pairKeys kindlessPair q.toJs) ∧
    (∀ aad', aad' ≠ sampleAad → ∃ e,
      kindlessCodec.openPair (kindlessCodec.payloadOf kindlessEncryption) aad' = .error e) ∧
    ∀ aad', ∃ e,
      kindlessCodec.openRegistration (kindlessCodec.payloadOf kindlessEncryption) aad' = .error e :=
  (PairPayloadCodec.sealed_payload_bound kindlessEncryption.ideal_cipher (by decide) (by decide)).1
    kindlessPair sampleAad _ kindless_made kindless_sealed

end Durable
