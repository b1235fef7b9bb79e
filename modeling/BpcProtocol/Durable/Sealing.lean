import BpcProtocol.Durable.PairRoundTrip
import BpcProtocol.Js.Base64

set_option autoImplicit false

/-! # Sealed payloads

Pairs and registrations travel sealed under a key of the keyring, bound to the stream, the kind of
the mutation and the identity they belong to. What was sealed opens as itself. -/

namespace Durable

open Ha Fallible
open Pair (present stringOf presentFields mem_presentFields keys_presentFields_sublist)

/-! ## Mutation kinds and associated data -/

/-- The kinds of `BpcPairMutation`. -/
inductive MutationKind where
  | pairSet
  | pairDelete
  | pendingSet
  | pendingDelete
  | pairApprove
  | pairRotate
  deriving DecidableEq, Repr

def MutationKind.text : MutationKind → JsString
  | pairSet => Js.lit "bpc.pair.set.v1"
  | pairDelete => Js.lit "bpc.pair.delete.v1"
  | pendingSet => Js.lit "bpc.pending.set.v1"
  | pendingDelete => Js.lit "bpc.pending.delete.v1"
  | pairApprove => Js.lit "bpc.pair.approve.v1"
  | pairRotate => Js.lit "bpc.pair.rotate.v1"

def mutationKinds : List MutationKind :=
  [.pairSet, .pairDelete, .pendingSet, .pendingDelete, .pairApprove, .pairRotate]

@[simp]
theorem enumOf_mutationKind (kind : MutationKind) :
    enumOf mutationKinds MutationKind.text kind.text = some kind := by
  cases kind <;> decide

/-- `PairSetAad`. -/
structure PairSetAad where
  streamId : JsString
  kind : MutationKind
  pairId : JsString

/-- `PendingSetAad`. -/
structure PendingSetAad where
  streamId : JsString
  kind : MutationKind
  token : JsString
  requestedAt : SafeNat

def PairSetAad.members (aad : PairSetAad) : List (String × Option JsValue) :=
  [("domain", some (.string (Js.lit "bpc-pair-payload"))),
    ("version", some (.string (Js.lit "1"))), ("streamId", some (.string aad.streamId)),
    ("kind", some (.string aad.kind.text)), ("pairId", some (.string aad.pairId))]

def PendingSetAad.members (aad : PendingSetAad) : List (String × Option JsValue) :=
  [("domain", some (.string (Js.lit "bpc-pair-payload"))),
    ("version", some (.string (Js.lit "1"))), ("streamId", some (.string aad.streamId)),
    ("kind", some (.string aad.kind.text)), ("token", some (.string aad.token)),
    ("requestedAt", some aad.requestedAt.toJs)]

/-! ## Sealed payloads -/

/-- `SealedPairPayload`. The algorithm is always `A256GCM`. -/
structure SealedPairPayload where
  keyId : JsString
  nonce : JsString
  ciphertext : JsString
  tag : JsString
  deriving DecidableEq, Repr

def SealedPairPayload.members (s : SealedPairPayload) : List (String × Option JsValue) :=
  [("alg", some (.string (Js.lit "A256GCM"))), ("keyId", some (.string s.keyId)),
    ("nonce", some (.string s.nonce)), ("ciphertext", some (.string s.ciphertext)),
    ("tag", some (.string s.tag))]

def SealedPairPayload.toJs (s : SealedPairPayload) : JsValue :=
  present s.members

/-- `SEALED_KEYS`. -/
def sealedKeys : List JsString :=
  [Js.lit "alg", Js.lit "keyId", Js.lit "nonce", Js.lit "ciphertext", Js.lit "tag"]

/-- `canonical(text)`: the text is the one its bytes are written as. -/
def canonicalBase64Url (text : JsString) : Bool :=
  b64u text && decide (Js.toBase64Url (Js.fromBase64Url text) = text)

/-- `canonical(text, bytes)`. -/
def canonicalBytes (text : JsString) (bytes : ℕ) : Bool :=
  canonicalBase64Url text && decide ((Js.fromBase64Url text).length = bytes)

/-- The encodings that a sealed payload must have. -/
def SealedPairPayload.encoded (s : SealedPairPayload) : Bool :=
  b64u s.keyId && canonicalBytes s.nonce 12 && canonicalBase64Url s.ciphertext &&
    canonicalBytes s.tag 16

/-- `normalizeSealed(value)`. -/
def normalizeSealed (value : JsValue) : Except HaError SealedPairPayload := do
  let s ← dataObject value sealedKeys "sealed payload"
  ensure (s.length = sealedKeys.length ∧ stringOf (ownValue s "alg") = some (Js.lit "A256GCM"))
    "sealed payload shape/algorithm is invalid"
  let keyId ← reqString s "keyId" "sealed payload" 128
  let nonce ← reqString s "nonce" "sealed payload" 32
  let ciphertext ← reqString s "ciphertext" "sealed payload" 1500000
  let tag ← reqString s "tag" "sealed payload" 32
  let payload : SealedPairPayload :=
    { keyId := keyId.1, nonce := nonce.1, ciphertext := ciphertext.1, tag := tag.1 }
  ensure (payload.encoded = true) "sealed payload encoding is invalid"
  pure payload

/-! ## The codec -/

/-- AES-256-GCM: a text is encrypted under a key, a nonce and associated data to a ciphertext with
    its tag, and decrypted to the text its bytes are. -/
structure Aead where
  encrypt (key nonce aad : Bytes) (text : JsString) : Bytes × Bytes
  decrypt (key nonce aad ciphertext tag : Bytes) : Option JsString

/-- Decryption under the key, the nonce and the data of an encryption restores the text. -/
def Aead.Inverts (aead : Aead) : Prop :=
  ∀ (key nonce aad : Bytes) (text : JsString), Js.WellFormed text →
    aead.decrypt key nonce aad (aead.encrypt key nonce aad text).1
      (aead.encrypt key nonce aad text).2 = some text

/-- `PairSealKeyring`. The resolver may throw. -/
structure PairSealKeyring where
  activeKeyId : JsString
  resolveKey : JsString → Option Bytes

/-- `Aes256GcmPairPayloadCodec`. -/
structure PairPayloadCodec where
  aead : Aead
  keyring : PairSealKeyring

namespace PairPayloadCodec

variable (codec : PairPayloadCodec)

/-- `key(keyId)`. -/
def key (keyId : JsString) : Except HaError Bytes := do
  let key ← found (codec.keyring.resolveKey keyId) "seal key cannot be resolved"
  ensure (key.length = 32) "seal key must be exactly 32 bytes"
  pure key

/-- `aadBytes({ alg, keyId, ...aad })`. -/
def aadBytes (keyId : JsString) (aad : List (String × Option JsValue)) : Except HaError Bytes := do
  let text ← canonicalize (present
    (("alg", some (.string (Js.lit "A256GCM"))) :: ("keyId", some (.string keyId)) :: aad))
  pure (Js.utf8 text)

/-- `seal(value, aad)` under a nonce. -/
def sealValue (nonce : Bytes) (value : JsValue) (aad : List (String × Option JsValue)) :
    Except HaError SealedPairPayload := do
  let key ← codec.key codec.keyring.activeKeyId
  let aad ← aadBytes codec.keyring.activeKeyId aad
  let text ← canonicalize value
  let encrypted := codec.aead.encrypt key nonce aad text
  pure
    { keyId := codec.keyring.activeKeyId, nonce := Js.toBase64Url nonce,
      ciphertext := Js.toBase64Url encrypted.1, tag := Js.toBase64Url encrypted.2 }

/-- What a sealed payload authenticates and decrypts to. -/
def opened (s : SealedPairPayload) (aad : List (String × Option JsValue)) :
    Option JsValue := do
  let key ← (codec.key s.keyId).toOption
  let aad ← (aadBytes s.keyId aad).toOption
  let text ← codec.aead.decrypt key (Js.fromBase64Url s.nonce) aad (Js.fromBase64Url s.ciphertext)
    (Js.fromBase64Url s.tag)
  Js.parseJson text

/-- `open(sealed, aad)`. -/
def openValue (s : SealedPairPayload) (aad : List (String × Option JsValue)) :
    Except HaError JsValue := do
  let s ← normalizeSealed s.toJs
  found (codec.opened s aad) "sealed pair payload authentication failed"

/-- `validateDomain(aad)`. -/
def validateDomain (streamId : JsString) : Except HaError Unit :=
  ensure (1 ≤ streamId.length ∧ streamId.length ≤ 512)
    "pair payload domain/version/stream is invalid"

/-- The check of a pending registration's associated data. -/
def validatePending (aad : PendingSetAad) : Except HaError Unit :=
  ensure (1 ≤ aad.token.length ∧ aad.token.length ≤ 256) "pending AAD invalid"

/-- `sealPair(pair, aad)`. -/
def sealPair (nonce : Bytes) (pair : CanonicalStoredPair) (aad : PairSetAad) :
    Except HaError SealedPairPayload := do
  validateDomain aad.streamId
  let clean ← normalizePair pair.toJs true
  ensure (clean.id.1 = aad.pairId) "pair identity/AAD mismatch"
  codec.sealValue nonce clean.toJs aad.members

/-- `openPair(sealed, aad)`. -/
def openPair (s : SealedPairPayload) (aad : PairSetAad) : Except HaError CanonicalStoredPair := do
  validateDomain aad.streamId
  ensure (pairIdPattern aad.pairId = true) "pair AAD invalid"
  let value ← codec.openValue s aad.members
  let pair ← normalizePair value true
  ensure (pair.id.1 = aad.pairId) "sealed pair identity/AAD mismatch"
  pure pair

/-- `sealRegistration(reg, aad)`. -/
def sealRegistration (nonce : Bytes) (reg : CanonicalPairRegistration) (aad : PendingSetAad) :
    Except HaError SealedPairPayload := do
  validateDomain aad.streamId
  validatePending aad
  let clean ← normalizeRegistration reg.toJs
  codec.sealValue nonce clean.toJs aad.members

/-- `openRegistration(sealed, aad)`. -/
def openRegistration (s : SealedPairPayload) (aad : PendingSetAad) :
    Except HaError CanonicalPairRegistration := do
  validateDomain aad.streamId
  validatePending aad
  let value ← codec.openValue s aad.members
  normalizeRegistration value

end PairPayloadCodec

/-! ## Normalized payloads -/

/-- A payload that normalization accepts. -/
structure SealedPairPayload.Accepted (s : SealedPairPayload) : Prop where
  keyId : 1 ≤ s.keyId.length ∧ s.keyId.length ≤ 128
  nonce : 1 ≤ s.nonce.length ∧ s.nonce.length ≤ 32
  ciphertext : 1 ≤ s.ciphertext.length ∧ s.ciphertext.length ≤ 1500000
  tag : 1 ≤ s.tag.length ∧ s.tag.length ≤ 32
  encoded : s.encoded = true

/-- An object from which a payload is read. -/
structure ReadsSealed (fields : List (JsString × JsValue)) (s : SealedPairPayload) : Prop where
  keys : ∀ f ∈ fields, f.1 ∈ sealedKeys
  length : fields.length = sealedKeys.length
  alg : ownValue fields "alg" = .string (Js.lit "A256GCM")
  keyId : ownValue fields "keyId" = .string s.keyId
  nonce : ownValue fields "nonce" = .string s.nonce
  ciphertext : ownValue fields "ciphertext" = .string s.ciphertext
  tag : ownValue fields "tag" = .string s.tag

theorem reqString_eq_ok {fields : List (JsString × JsValue)} {key label : String} {max : ℕ}
    {s : JsString} {b : Bounded max} (h : ownValue fields key = .string s) :
    reqString fields key label max = .ok b ↔ b.1 = s := by
  rw [reqString, h]
  show checked s (label ++ "." ++ key ++ " is invalid") = .ok b ↔ _
  exact checked_eq_ok

/-- What is normalized from an object from which a payload is read is that payload. -/
theorem normalizeSealed_eq_ok_of {fields : List (JsString × JsValue)} {s t : SealedPairPayload}
    (h : ReadsSealed fields s) :
    normalizeSealed (.object fields) = .ok t ↔ t = s ∧ s.Accepted := by
  simp only [normalizeSealed, bind_eq_ok, ensure_eq_ok, exists_unit, pure_eq_ok, dataObject_eq_ok,
    JsValue.object.injEq]
  constructor
  · rintro ⟨_, ⟨rfl, -⟩, -, keyId, hkeyId, nonce, hnonce, ciphertext, hciphertext, tag, htag,
      hencoded, rfl⟩
    rw [reqString_eq_ok h.keyId] at hkeyId
    rw [reqString_eq_ok h.nonce] at hnonce
    rw [reqString_eq_ok h.ciphertext] at hciphertext
    rw [reqString_eq_ok h.tag] at htag
    obtain ⟨skeyId, snonce, sciphertext, stag⟩ := s
    simp only at hkeyId hnonce hciphertext htag
    subst hkeyId hnonce hciphertext htag
    exact ⟨rfl, keyId.2, nonce.2, ciphertext.2, tag.2, hencoded⟩
  · rintro ⟨rfl, haccepted⟩
    refine ⟨fields, ⟨rfl, h.keys⟩, ⟨h.length, by rw [h.alg]; rfl⟩,
      ⟨t.keyId, haccepted.keyId⟩, (reqString_eq_ok h.keyId).mpr rfl,
      ⟨t.nonce, haccepted.nonce⟩, (reqString_eq_ok h.nonce).mpr rfl,
      ⟨t.ciphertext, haccepted.ciphertext⟩, (reqString_eq_ok h.ciphertext).mpr rfl,
      ⟨t.tag, haccepted.tag⟩, (reqString_eq_ok h.tag).mpr rfl, haccepted.encoded, rfl⟩

theorem ReadsSealed.sorted {fields : List (JsString × JsValue)} {s : SealedPairPayload}
    (hnodup : (fields.map Prod.fst).Nodup) (h : ReadsSealed fields s) :
    ReadsSealed (sortedFields fields) s where
  keys := fun f hf => by
    have hkey := (keys_sortedFields fields).mem_iff.mp (List.mem_map_of_mem hf)
    obtain ⟨g, hg, hgf⟩ := List.mem_map.mp hkey
    exact hgf ▸ h.keys g hg
  length := (length_sortedFields fields).trans h.length
  alg := by rw [ownValue_sortedFields hnodup, h.alg]; rfl
  keyId := by rw [ownValue_sortedFields hnodup, h.keyId]; rfl
  nonce := by rw [ownValue_sortedFields hnodup, h.nonce]; rfl
  ciphertext := by rw [ownValue_sortedFields hnodup, h.ciphertext]; rfl
  tag := by rw [ownValue_sortedFields hnodup, h.tag]; rfl

theorem nodup_sealed (s : SealedPairPayload) : (s.members.map fun f => Js.lit f.1).Nodup := by
  show (["alg", "keyId", "nonce", "ciphertext", "tag"].map Js.lit).Nodup
  decide

theorem readsSealed_toJs (s : SealedPairPayload) : ReadsSealed (presentFields s.members) s := by
  have hread := fun {name : String} {o : Option JsValue} (hmem : (name, o) ∈ s.members) =>
    ownValue_presentFields (nodup_sealed s) hmem
  exact
    { keys := fun f hf =>
        (keys_presentFields_sublist s.members).subset (List.mem_map_of_mem hf)
      length := rfl
      alg := hread (o := some _) (by simp [SealedPairPayload.members])
      keyId := hread (o := some _) (by simp [SealedPairPayload.members])
      nonce := hread (o := some _) (by simp [SealedPairPayload.members])
      ciphertext := hread (o := some _) (by simp [SealedPairPayload.members])
      tag := hread (o := some _) (by simp [SealedPairPayload.members]) }

/-- The fields of a payload, in the order of the object or of its keys. -/
theorem normalizeSealed_toJs {s t : SealedPairPayload} :
    normalizeSealed s.toJs = .ok t ↔ t = s ∧ s.Accepted :=
  normalizeSealed_eq_ok_of (readsSealed_toJs s)

theorem normalizeSealed_sortKeys {s t : SealedPairPayload} :
    normalizeSealed (sortKeys s.toJs) = .ok t ↔ t = s ∧ s.Accepted := by
  show normalizeSealed (sortKeys (.object (presentFields s.members))) = .ok t ↔ _
  rw [sortKeys_object]
  exact normalizeSealed_eq_ok_of ((readsSealed_toJs s).sorted
    ((nodup_sealed s).sublist (keys_presentFields_sublist s.members)))

/-! ## Opening what was sealed -/

theorem distinctKeys_present {spec : List (String × Option JsValue)}
    (hnodup : (spec.map fun f => Js.lit f.1).Nodup)
    (h : ∀ name v, (name, some v) ∈ spec → v.DistinctKeys) : (present spec).DistinctKeys := by
  refine .object (hnodup.sublist (keys_presentFields_sublist spec)) fun f hf => ?_
  obtain ⟨name, v, hmem, rfl⟩ := mem_presentFields.mp hf
  exact h name v hmem

/-- Every member that is present has a property. -/
def EachMember (P : JsValue → Prop) (spec : List (String × Option JsValue)) : Prop :=
  ∀ name v, (name, some v) ∈ spec → P v

section EachMember

variable {P : JsValue → Prop} {name : String} {rest : List (String × Option JsValue)}

theorem EachMember.nil : EachMember P [] := fun _ _ h => by cases h

theorem EachMember.value {v : JsValue} (hv : P v) (h : EachMember P rest) :
    EachMember P ((name, some v) :: rest) := by
  intro n w hmem
  rcases List.mem_cons.mp hmem with heq | hrest
  · cases heq
    exact hv
  · exact h n w hrest

theorem EachMember.optional {α : Type} {f : α → JsValue} {o : Option α}
    (hf : ∀ a, o = some a → P (f a)) (h : EachMember P rest) :
    EachMember P ((name, o.map f) :: rest) := by
  intro n v hmem
  rcases List.mem_cons.mp hmem with heq | hrest
  · obtain ⟨a, ha, rfl⟩ := Option.map_eq_some_iff.mp (Prod.mk.inj heq).2.symm
    exact hf a ha
  · exact h n v hrest

theorem EachMember.append {spec : List (String × Option JsValue)} (hspec : EachMember P spec)
    (h : EachMember P rest) : EachMember P (spec ++ rest) := by
  intro n v hmem
  rcases List.mem_append.mp hmem with hin | hin
  · exact hspec n v hin
  · exact h n v hin

end EachMember

/-- Every member is a string, a number or `null`. -/
def Flat (spec : List (String × Option JsValue)) : Prop :=
  ∀ name v, (name, some v) ∈ spec → v.DistinctKeys

theorem Flat.nil : Flat [] :=
  EachMember.nil

theorem Flat.string {name : String} {s : JsString} {rest : List (String × Option JsValue)}
    (h : Flat rest) : Flat ((name, some (.string s)) :: rest) :=
  EachMember.value (.string s) h

theorem Flat.optional {α : Type} {name : String} {f : α → JsValue}
    (hf : ∀ a, (f a).DistinctKeys) {o : Option α} {rest : List (String × Option JsValue)}
    (h : Flat rest) : Flat ((name, o.map f) :: rest) :=
  EachMember.optional (fun a _ => hf a) h

theorem Flat.value {name : String} {v : JsValue} (hv : v.DistinctKeys)
    {rest : List (String × Option JsValue)} (h : Flat rest) : Flat ((name, some v) :: rest) :=
  EachMember.value hv h

theorem Flat.append {a b : List (String × Option JsValue)} (ha : Flat a) (hb : Flat b) :
    Flat (a ++ b) :=
  EachMember.append ha hb

theorem distinctKeys_nat (n : SafeNat) : n.toJs.DistinctKeys := .number _

theorem distinctKeys_nullable (o : Option SafeNat) : (nullableNat o).DistinctKeys := by
  cases o with
  | none => exact .null
  | some n => exact .number _

theorem distinctKeys_jwk (jwk : CanonicalPublicJwk) : jwk.toJs.DistinctKeys := by
  refine distinctKeys_present ?_ (Flat.string (Flat.string (Flat.string (Flat.string Flat.nil))))
  show (["kty", "crv", "x", "y"].map Js.lit).Nodup
  decide

theorem flat_registration (r : CanonicalPairRegistration) : Flat r.members :=
  Flat.string (Flat.string (Flat.string (Flat.string (Flat.value (distinctKeys_jwk r.pubJwk)
    (Flat.string (Flat.optional distinctKeys_nat (Flat.optional distinctKeys_nat
      (Flat.optional (fun _ => .string _) Flat.nil))))))))

theorem distinctKeys_registration (r : CanonicalPairRegistration) : r.toJs.DistinctKeys :=
  distinctKeys_present (nodup_registration r) (flat_registration r)

theorem distinctKeys_pair (p : CanonicalStoredPair) : p.toJs.DistinctKeys :=
  distinctKeys_present (nodup_pair p) ((flat_registration p.toCanonicalPairRegistration).append
    (Flat.string (Flat.string (Flat.value (distinctKeys_nat p.created)
      (Flat.value (distinctKeys_nullable p.lastActive) (Flat.value (distinctKeys_nat p.requests)
        (Flat.value (distinctKeys_nat p.failedSigs) (Flat.optional (fun _ => .string _)
          (Flat.optional distinctKeys_nullable Flat.nil)))))))))

namespace PairPayloadCodec

variable {codec : PairPayloadCodec}

/-- A canonical text that decrypts opens as the value with its keys sorted. -/
theorem openValue_of_decrypt {nonce key data text : Bytes} {value : JsValue} {canonical : JsString}
    {tag : Bytes} {keyId : JsString} {aad : List (String × Option JsValue)}
    (hkeys : value.DistinctKeys) (hkey : codec.key keyId = .ok key)
    (hdata : aadBytes keyId aad = .ok data) (htext : canonicalize value = .ok canonical)
    (hdecrypt : codec.aead.decrypt key nonce data text tag = some canonical)
    (haccepted : SealedPairPayload.Accepted
      ⟨keyId, Js.toBase64Url nonce, Js.toBase64Url text, Js.toBase64Url tag⟩) :
    codec.openValue ⟨keyId, Js.toBase64Url nonce, Js.toBase64Url text, Js.toBase64Url tag⟩ aad =
      .ok (sortKeys value) := by
  obtain ⟨hcanon, rfl⟩ := canonicalize_eq_ok.mp htext
  have hparse : Js.parseJson (canonText value) = some (sortKeys value) :=
    (plain_sortKeys (plain_of_ijson hcanon.ijson hkeys)).parse_stringify hcanon.ijson.hasText
  simp only [openValue, bind_eq_ok, found_eq_ok]
  refine ⟨_, normalizeSealed_toJs.mpr ⟨rfl, haccepted⟩, ?_⟩
  simp only [opened, hkey, hdata, Js.fromBase64Url_toBase64Url, Except.toOption, Option.bind_some,
    Option.bind_eq_bind]
  rw [hdecrypt]
  exact hparse

/-- A value that was sealed opens, under the same associated data, as the value with its keys
    sorted. -/
theorem openValue_sealValue (hinv : codec.aead.Inverts) {nonce : Bytes} {value : JsValue}
    {aad : List (String × Option JsValue)} {s : SealedPairPayload} (hkeys : value.DistinctKeys)
    (hs : codec.sealValue nonce value aad = .ok s) (haccepted : s.Accepted) :
    codec.openValue s aad = .ok (sortKeys value) := by
  simp only [sealValue, bind_eq_ok, pure_eq_ok] at hs
  obtain ⟨key, hkey, data, hdata, text, htext, rfl⟩ := hs
  have hwellFormed : Js.WellFormed text := by
    obtain ⟨hcanon, rfl⟩ := canonicalize_eq_ok.mp htext
    exact hcanon.ijson.wellFormed
  exact openValue_of_decrypt hkeys hkey hdata htext (hinv key nonce data text hwellFormed) haccepted

/-- **A sealed pair opens as the pair**, under the associated data it was sealed with. -/
theorem openPair_sealPair (hinv : codec.aead.Inverts) {nonce : Bytes} {pair : CanonicalStoredPair}
    {aad : PairSetAad} {s : SealedPairPayload} (hs : codec.sealPair nonce pair aad = .ok s)
    (haccepted : s.Accepted) :
    codec.openPair s aad = .ok pair ∧ pair.id.1 = aad.pairId ∧ pair.Scored := by
  simp only [sealPair, bind_eq_ok, ensure_eq_ok, exists_unit] at hs
  obtain ⟨hdomain, clean, hclean, hid, hsealed⟩ := hs
  obtain ⟨rfl, hscored⟩ := normalizePair_toJs.mp hclean
  refine ⟨?_, hid, hscored⟩
  simp only [openPair, bind_eq_ok, ensure_eq_ok, exists_unit, pure_eq_ok]
  exact ⟨hdomain, hid ▸ clean.id.2, _,
    openValue_sealValue hinv (distinctKeys_pair clean) hsealed haccepted, clean,
    normalizePair_sortKeys hscored, hid, rfl⟩

/-- **A sealed registration opens as the registration.** -/
theorem openRegistration_sealRegistration (hinv : codec.aead.Inverts) {nonce : Bytes}
    {reg : CanonicalPairRegistration} {aad : PendingSetAad} {s : SealedPairPayload}
    (hs : codec.sealRegistration nonce reg aad = .ok s) (haccepted : s.Accepted) :
    codec.openRegistration s aad = .ok reg := by
  simp only [sealRegistration, bind_eq_ok] at hs
  obtain ⟨_, hdomain, _, hpending, clean, hclean, hsealed⟩ := hs
  rw [normalizeRegistration_toJs] at hclean
  cases hclean
  simp only [openRegistration, bind_eq_ok]
  exact ⟨(), hdomain, (), hpending, _,
    openValue_sealValue hinv (distinctKeys_registration reg) hsealed haccepted,
    normalizeRegistration_sortKeys reg⟩

end PairPayloadCodec

end Durable
