import BpcProtocol.Ha.RedisFence
import BpcProtocol.Ha.Snapshot

set_option autoImplicit false

/-! # Signed artifacts

Leases, fence records, cutover receipts, readiness attestations, snapshot bundles and answers to node
identity challenges are all signed under one frame of the key's id, each after a domain of its own.
A signature therefore stands for one artifact. -/

namespace Ha

open Fallible Encoding

/-! ## Frames -/

/-- What a part writes. -/
def FramePart.text? : FramePart → Option JsString
  | .null => none
  | .text s => some s
  | .number n => some (Js.decimal n)

/-- The bytes a part writes, behind its tag and its length. -/
def FramePart.payload (p : FramePart) : Option Bytes := p.text?.map Js.utf8

/-- A part whose length `writeUInt32BE` does not refuse. -/
def FramePart.Fits (p : FramePart) : Prop := ∀ b ∈ p.payload, b.length < 0x100000000

/-- A part's bytes, from its payload. -/
def payloadCode : Option Bytes → Bytes
  | none => [0]
  | some b => 1 :: (Js.u32be b.length ++ b)

theorem frame_eq (parts : List FramePart) :
    frame parts = (parts.map FramePart.payload).flatMap payloadCode := by
  rw [List.flatMap_map]
  exact List.flatMap_congr fun p _ => by cases p <;> rfl

theorem payloadCode_selfDelimiting :
    SelfDelimiting (fun o : Option Bytes => ∀ b ∈ o, b.length < 0x100000000) payloadCode := by
  have hword : SelfDelimiting (fun b : Bytes => b.length < 0x100000000)
      fun b => 1 :: (Js.u32be b.length ++ b) :=
    (Js.u32be_selfDelimiting.lengthPrefixed (fun _ h => h) fun _ _ _ _ h => h).cons 1
  intro o o' x y ho ho' h
  cases o with
  | none =>
      cases o' with
      | none => exact ⟨rfl, (List.cons.inj h).2⟩
      | some b' => exact absurd (List.cons.inj h).1 (by decide)
  | some b =>
      cases o' with
      | none => exact absurd (List.cons.inj h).1 (by decide)
      | some b' =>
          obtain ⟨rfl, hxy⟩ := hword b b' x y (ho b rfl) (ho' b' rfl) h
          exact ⟨rfl, hxy⟩

/-- Frames of as many parts are read back in front of any text. -/
theorem payloads_of_frame {ps qs : List FramePart} {x y : Bytes} (hlen : ps.length = qs.length)
    (hp : ∀ p ∈ ps, p.Fits) (hq : ∀ q ∈ qs, q.Fits) (h : frame ps ++ x = frame qs ++ y) :
    ps.map FramePart.payload = qs.map FramePart.payload ∧ x = y := by
  rw [frame_eq, frame_eq] at h
  refine payloadCode_selfDelimiting.sequence (by simpa using hlen) ?_ ?_ h
  · exact List.forall_mem_map.mpr hp
  · exact List.forall_mem_map.mpr hq

/-- **Frames are injective** on strings without lone surrogates, numbers as decimals, and nulls. -/
theorem frame_injective {ps qs : List FramePart} (hp : ∀ p ∈ ps, p.Fits) (hq : ∀ q ∈ qs, q.Fits)
    (hpw : ∀ p ∈ ps, ∀ s ∈ p.text?, Js.WellFormed s) (hqw : ∀ q ∈ qs, ∀ s ∈ q.text?, Js.WellFormed s)
    (h : frame ps = frame qs) : ps.map FramePart.text? = qs.map FramePart.text? := by
  have hpayloads : ps.map FramePart.payload = qs.map FramePart.payload := by
    rw [frame_eq, frame_eq] at h
    refine payloadCode_selfDelimiting.flatMap_injective ?_ ?_ ?_ h
    · intro o _
      cases o <;> simp [payloadCode]
    · exact List.forall_mem_map.mpr hp
    · exact List.forall_mem_map.mpr hq
  clear h hp hq
  induction ps generalizing qs with
  | nil =>
      obtain rfl : qs = [] := by simpa using hpayloads.symm
      rfl
  | cons p ps ih =>
      cases qs with
      | nil => simp at hpayloads
      | cons q qs =>
          obtain ⟨hhead, htail⟩ := List.cons.inj hpayloads
          have htext : p.text? = q.text? := by
            cases hpt : p.text? with
            | none =>
                cases hqt : q.text? with
                | none => rfl
                | some t => simp [FramePart.payload, hpt, hqt] at hhead
            | some s =>
                cases hqt : q.text? with
                | none => simp [FramePart.payload, hpt, hqt] at hhead
                | some t =>
                    rw [FramePart.payload, FramePart.payload, hpt, hqt] at hhead
                    exact congrArg some (Js.utf8_injective (hpw p List.mem_cons_self s hpt)
                      (hqw q List.mem_cons_self t hqt) (Option.some.inj hhead))
          rw [List.map_cons, List.map_cons, htext,
            ih (fun r hr => hpw r (List.mem_cons_of_mem _ hr))
              (fun r hr => hqw r (List.mem_cons_of_mem _ hr)) htail]

/-- A lone surrogate is framed as the replacement character is. -/
theorem frame_lone_surrogate :
    ¬∀ ps qs : List FramePart, frame ps = frame qs →
      ps.map FramePart.text? = qs.map FramePart.text? := by
  intro h
  exact absurd (h [.text [0xD800]] [.text [0xFFFD]] (by decide)) (by decide)

/-! ## Artifacts -/

/-- A signed artifact, or what is presented as one. A Redis fence record is presented as a record or
    as the value that was parsed. The keys of a bundle's objects are distinct. -/
inductive Artifact where
  | lease (grant : SourceLeaseGrant)
  | fence (record : RedisFenceRecord)
  | fenceValue (v : JsValue)
  | cutover (receipt : CutoverReceipt)
  | readiness (attestation : PromotionReadinessAttestation)
  | snapshot (bundle : PairSnapshotBundle) (keys : (recordsValue bundle.records).DistinctKeys)
  | identity (keyId : JsString) (challenge : Bytes) (signature : JsString)

namespace Artifact

def keyId : Artifact → JsString
  | lease grant => grant.keyId
  | fence record => record.keyId
  | fenceValue v => Js.toText (v.get (Js.lit "keyId"))
  | cutover receipt => receipt.keyId
  | readiness attestation => attestation.keyId
  | snapshot bundle _ => bundle.manifest.keyId
  | identity keyId _ _ => keyId

def signature : Artifact → JsString
  | lease grant => grant.signature
  | fence record => record.signature
  | fenceValue v => Js.toText (v.get (Js.lit "signature"))
  | cutover receipt => receipt.signature
  | readiness attestation => attestation.signature
  | snapshot bundle _ => bundle.manifest.signature
  | identity _ _ signature => signature

/-- The domain an artifact is signed under. -/
def domain : Artifact → JsString
  | lease _ => Js.lit "bpc-source-lease/v1"
  | fence _ => Js.lit "bpc-redis-fence/v1"
  | fenceValue _ => Js.lit "bpc-redis-fence/v1"
  | cutover _ => Js.lit "bpc-cutover/v1"
  | readiness _ => Js.lit "bpc-promotion-readiness/v1"
  | snapshot _ _ => Js.lit "bpc-pair-snapshot/v1"
  | identity _ _ _ => Js.lit "bpc-node-identity/v1"

/-- What is framed behind the domain. -/
def fields : Artifact → List FramePart
  | lease g =>
      [.text g.streamId, .number g.epoch, .text g.status.text, .text g.holderNodeId,
        .text g.leaseId, .text g.commandId, .number g.expiresAtMs,
        .number g.maxTransactionDurationMs, .number g.grantSeq, .ofOption g.prevDigest,
        .text g.grantDigest]
  | fence r =>
      [.text r.streamId, .number r.epoch, .text r.nodeId, .text r.authoritySystemId,
        .text r.nodeCredentialKeyId, .text r.commandId, .number r.claimedAtMs]
  | fenceValue v =>
      ["streamId", "epoch", "nodeId", "authoritySystemId", "nodeCredentialKeyId", "commandId",
        "claimedAtMs"].map fun key => framePart (v.get (Js.lit key))
  | cutover r =>
      [.text r.streamId, .text r.commandId, .text r.phase.text, .number r.previousEpoch,
        .number r.targetEpoch, .text r.targetNodeId, .text r.targetSourceEpoch,
        .text r.manifestDigest, .number r.finalSourceSequence, .text r.stateDigest,
        .text r.redisClaimDigest, .text r.oldLeaseDigest, .number r.oldLeaseExpiresAtMs,
        .number r.sourceTransactionWindowMs, .ofOption r.prevStateDigest,
        .text r.stateDigestSigned]
  | readiness a =>
      [.text a.streamId, .text a.commandId, .number a.targetEpoch, .text a.targetSourceEpoch,
        .text a.targetSystemId, .text a.snapshotKeyId, .text a.manifestDigest,
        .number a.appliedSequence, .text a.stateDigest, .text a.fencedDigest,
        .text a.attestationDigest]
  | snapshot b _ =>
      [.text b.manifest.streamId, .text b.manifest.sourceEpoch, .number b.manifest.finalSequence,
        .text b.manifest.sourceSystemId, .text b.manifest.stateDigest,
        .text b.manifest.historyDigest, .number b.manifest.issuedAtMs]
  | identity _ _ _ => []

/-- What follows the frame. -/
def tail : Artifact → Bytes
  | identity _ challenge _ => challenge
  | _ => []

/-- What is signed under the key's id. -/
def message (a : Artifact) : Bytes := frame (.text a.domain :: a.fields) ++ a.tail

theorem message_eq {a : Artifact} (h : a.tail = []) :
    a.message = frame (.text a.domain :: a.fields) := by
  rw [message, h, List.append_nil]

/-- `frame` has not thrown. -/
def Framed (a : Artifact) : Prop := ∀ p ∈ a.fields, p.Fits

end Artifact

variable (c : Crypto)

/-- What the signing functions produce under a key. -/
inductive Signed (key : c.PrivateKey) : Artifact → Prop
  | lease {keyId : JsString} {bare : BareSourceLeaseGrant} {grant : SourceLeaseGrant} :
      signSourceLeaseGrant c keyId key bare = .ok grant → Signed key (.lease grant)
  | fence {keyId : JsString} {bare : BareRedisFenceRecord} {record : RedisFenceRecord} :
      signRedisFenceRecord c keyId key bare = .ok record → Signed key (.fence record)
  | cutover {keyId : JsString} {bare : BareCutover} {receipt : CutoverReceipt} :
      signCutoverReceipt c keyId key bare = .ok receipt → Signed key (.cutover receipt)
  | readiness {target : PromotedTarget} {fenced : CutoverReceipt} {snapshotKeyId keyId : JsString}
      {attestation : PromotionReadinessAttestation} :
      buildPromotionReadinessAttestation c target fenced snapshotKeyId keyId key = .ok attestation →
      Signed key (.readiness attestation)
  | snapshot {source : SnapshotSource} {streamId keyId : JsString} {throughSequence now : ℤ}
      {bundle : PairSnapshotBundle} {keys : (recordsValue bundle.records).DistinctKeys} :
      buildPairSnapshotBundle c source streamId throughSequence keyId key now = .ok bundle →
      Signed key (.snapshot bundle keys)
  | identity {keyId signature : JsString} {challenge : Bytes} :
      signNodeIdentityChallenge c keyId key challenge = .ok signature →
      Signed key (.identity keyId challenge signature)

/-- What the verifying functions accept. A fence record is verified as a record
    (`bootstrapGenesis`) or as what a member has parsed. -/
inductive Verified (resolver : PublicKeyResolver c) : Artifact → Prop
  | lease {grant : SourceLeaseGrant} :
      verifySourceLeaseGrant c resolver grant = .ok () → Verified resolver (.lease grant)
  | fence {record : RedisFenceRecord} :
      verify c resolver record.keyId (redisFenceMessage record.toBareRedisFenceRecord)
        record.signature = .ok () → Verified resolver (.fence record)
  | fenceValue {v : JsValue} :
      checkFenceValue c resolver v = .ok () → Verified resolver (.fenceValue v)
  | cutover {receipt : CutoverReceipt} :
      verifyCutoverReceipt c resolver receipt = .ok () → Verified resolver (.cutover receipt)
  | readiness {attestation : PromotionReadinessAttestation} :
      verifyPromotionReadinessAttestation c resolver attestation = .ok () →
      Verified resolver (.readiness attestation)
  | snapshot {bundle : PairSnapshotBundle} {keys : (recordsValue bundle.records).DistinctKeys}
      {assertSanitized : JsValue → Except HaError Unit} :
      verifyBundle c resolver bundle assertSanitized = .ok () →
      Verified resolver (.snapshot bundle keys)
  | identity {keyId signature : JsString} {challenge : Bytes} :
      verify c resolver keyId (nodeIdentityMessage challenge) signature = .ok () →
      Verified resolver (.identity keyId challenge signature)

/-- The presented artifact is the signed one: of its kind, under its key id and with its fields. A
    parsed fence record has them as its values' texts, and a bundle has its records up to the order
    of their keys. -/
inductive Presents : Artifact → Artifact → Prop
  | lease (grant : SourceLeaseGrant) : Presents (.lease grant) (.lease grant)
  | fence (record : RedisFenceRecord) : Presents (.fence record) (.fence record)
  | fenceValue {record : RedisFenceRecord} {v : JsValue} :
      (Artifact.fenceValue v).fields.map FramePart.text? =
        (Artifact.fence record).fields.map FramePart.text? →
      Js.toText (v.get (Js.lit "keyId")) = record.keyId → Presents (.fence record) (.fenceValue v)
  | cutover (receipt : CutoverReceipt) : Presents (.cutover receipt) (.cutover receipt)
  | readiness (attestation : PromotionReadinessAttestation) :
      Presents (.readiness attestation) (.readiness attestation)
  | snapshot {a b : PairSnapshotBundle} {ha : (recordsValue a.records).DistinctKeys}
      {hb : (recordsValue b.records).DistinctKeys} : a.manifest = b.manifest →
      (recordsValue a.records).Same (recordsValue b.records) →
      Presents (.snapshot a ha) (.snapshot b hb)
  | identity (keyId : JsString) (challenge : Bytes) (signature : JsString) :
      Presents (.identity keyId challenge signature) (.identity keyId challenge signature)

/-- Ideal Ed25519: a signature verifies for the message it was made for only. -/
def IdealSignatures : Prop :=
  ∀ (key : c.PrivateKey) (pub : c.PublicKey) (m m' : Bytes),
    c.edVerify pub m' (c.edSign key m) = true → m' = m

/-! ## Fields are read back -/

theorem ascii_streamRe {s : JsString} (h : streamRe s = true) : Js.Ascii s :=
  (ascii_classPattern (fun _ => Js.idClass_lt (by decide)) h).1

theorem ascii_idRe {s : JsString} (h : idRe s = true) : Js.Ascii s :=
  (ascii_classPattern (fun _ => Js.idClass_lt (by decide)) h).1

theorem ascii_keyRe {s : JsString} (h : keyRe s = true) : Js.Ascii s ∧ s.length ≤ 64 :=
  ascii_classPattern (fun _ => Js.idClass_lt (by decide)) h

theorem ascii_digits {s : JsString} (h : digits s = true) : Js.Ascii s := by
  rw [digits, Bool.and_eq_true, List.all_eq_true] at h
  exact fun c hc => isDigit_lt (h.2 c hc)

theorem text_inj {s t : JsString} (hs : Js.Ascii s)
    (h : (FramePart.text s).payload = (FramePart.text t).payload) : s = t :=
  (hs.eq_of_utf8 (Option.some.inj h).symm).symm

theorem text_inj' {s t : JsString} (ht : Js.Ascii t)
    (h : (FramePart.text s).payload = (FramePart.text t).payload) : s = t :=
  ht.eq_of_utf8 (Option.some.inj h)

theorem number_inj {m n : ℤ} (h : (FramePart.number m).payload = (FramePart.number n).payload) :
    m = n :=
  Js.decimal_injective (text_inj (ascii_decimal m) h)

theorem option_inj {o o' : Option JsString} (ho : ∀ s ∈ o, Js.Ascii s)
    (h : (FramePart.ofOption o).payload = (FramePart.ofOption o').payload) : o = o' := by
  cases o with
  | none =>
      cases o' with
      | none => rfl
      | some t => cases h
  | some s =>
      cases o' with
      | none => cases h
      | some t => exact congrArg some (text_inj (ho s rfl) h)

theorem fits_of_ascii {s : JsString} (hs : Js.Ascii s) (hlen : s.length < 0x10000) :
    (FramePart.text s).Fits := by
  rintro b ⟨⟩
  exact (isField_of_ascii hs hlen).2

theorem ascii_domain (a : Artifact) : Js.Ascii a.domain ∧ a.domain.length < 0x10000 := by
  cases a <;> simp only [Artifact.domain] <;> decide

/-- What is signed tells the key id, the domain and the fields. -/
theorem fields_of_keyedMessage {a b : Artifact} (ha : keyRe a.keyId = true)
    (hb : keyRe b.keyId = true) (hfa : a.Framed) (hfb : b.Framed)
    (h : keyedMessage b.keyId b.message = keyedMessage a.keyId a.message) :
    a.keyId = b.keyId ∧ a.domain = b.domain ∧ (a.fields.length = b.fields.length →
      a.fields.map FramePart.payload = b.fields.map FramePart.payload ∧ a.tail = b.tail) := by
  have hcons : ∀ (p : FramePart) (ps : List FramePart), frame (p :: ps) = frame [p] ++ frame ps := by
    intro p ps
    simp [frame]
  have hkeyFits : ∀ {k : JsString}, keyRe k = true →
      ∀ p ∈ [FramePart.text (Js.lit "bpc-ha-key/v1"), .text k], p.Fits := by
    intro k hk
    obtain ⟨hascii, hlen⟩ := ascii_keyRe hk
    simp only [List.forall_mem_cons, List.not_mem_nil, false_implies, implies_true, and_true]
    exact ⟨fits_of_ascii (by decide) (by decide), fits_of_ascii hascii (by omega)⟩
  have hdomainFits : ∀ a : Artifact, ∀ p ∈ [FramePart.text a.domain], p.Fits := by
    intro a
    rw [List.forall_mem_singleton]
    exact fits_of_ascii (ascii_domain a).1 (ascii_domain a).2
  -- the key's frame, then the domain, then the fields
  obtain ⟨hkeys, hmessage⟩ := payloads_of_frame (by rfl) (hkeyFits hb) (hkeyFits ha) h
  simp only [List.map_cons, List.map_nil, List.cons.injEq, and_true, true_and] at hkeys
  rw [Artifact.message, Artifact.message, hcons, hcons (.text a.domain), List.append_assoc,
    List.append_assoc] at hmessage
  obtain ⟨hdomain, hfields⟩ := payloads_of_frame (by rfl) (hdomainFits b) (hdomainFits a) hmessage
  simp only [List.map_cons, List.map_nil, List.cons.injEq, and_true] at hdomain
  refine ⟨(text_inj' (ascii_keyRe ha).1 hkeys).symm, (text_inj' (ascii_domain a).1 hdomain).symm, ?_⟩
  intro hlen
  obtain ⟨hpayloads, htail⟩ := payloads_of_frame hlen.symm hfb hfa hfields
  exact ⟨hpayloads.symm, htail.symm⟩

/-! ## Signing and verifying -/

variable {c} {resolver : PublicKeyResolver c} {key : c.PrivateKey}

theorem sign_eq_ok {keyId signature : JsString} {m : Bytes} :
    sign c keyId key m = .ok signature ↔
      keyRe keyId = true ∧ signature = c.edSign key (keyedMessage keyId m) := by
  simp only [sign, bind_eq_ok, id_eq_ok, exists_unit, pure_eq_ok]
  exact and_congr Iff.rfl eq_comm

theorem verify_eq_ok {keyId signature : JsString} {m : Bytes}
    (h : verify c resolver keyId m signature = .ok ()) :
    keyRe keyId = true ∧ ∃ pub, c.edVerify pub (keyedMessage keyId m) signature = true := by
  simp only [verify, bind_eq_ok, ensure_eq_ok, exists_unit, publicKey_eq_ok] at h
  obtain ⟨-, pub, ⟨hkey, -⟩, hverify⟩ := h
  exact ⟨hkey, pub, hverify⟩

/-- Every signing function signs the artifact's message under its key id. -/
theorem Signed.spec {a : Artifact} (h : Signed c key a) :
    keyRe a.keyId = true ∧ a.signature = c.edSign key (keyedMessage a.keyId a.message) := by
  cases h with
  | lease h =>
      simp only [signSourceLeaseGrant, bind_eq_ok, exists_unit, sign_eq_ok, pure_eq_ok] at h
      obtain ⟨-, _, ⟨hkey, rfl⟩, rfl⟩ := h
      exact ⟨hkey, by rw [Artifact.message_eq rfl]; rfl⟩
  | fence h =>
      simp only [signRedisFenceRecord, bind_eq_ok, exists_unit, sign_eq_ok, pure_eq_ok] at h
      obtain ⟨-, _, ⟨hkey, rfl⟩, rfl⟩ := h
      exact ⟨hkey, by rw [Artifact.message_eq rfl]; rfl⟩
  | cutover h =>
      simp only [signCutoverReceipt, bind_eq_ok, exists_unit, sign_eq_ok, pure_eq_ok] at h
      obtain ⟨-, _, ⟨hkey, rfl⟩, rfl⟩ := h
      exact ⟨hkey, by rw [Artifact.message_eq rfl]; rfl⟩
  | readiness h =>
      simp only [buildPromotionReadinessAttestation, bind_eq_ok, ensure_eq_ok, exists_unit,
        sign_eq_ok, pure_eq_ok] at h
      obtain ⟨-, -, _, ⟨hkey, rfl⟩, rfl⟩ := h
      exact ⟨hkey, by rw [Artifact.message_eq rfl]; rfl⟩
  | snapshot h =>
      simp only [buildPairSnapshotBundle, bind_eq_ok, ensure_eq_ok, exists_unit, sign_eq_ok,
        pure_eq_ok] at h
      obtain ⟨-, _, -, _, -, _, -, -, _, -, -, _, -, _, -, _, ⟨hkey, rfl⟩, rfl⟩ := h
      exact ⟨hkey, by rw [Artifact.message_eq rfl]; rfl⟩
  | identity h =>
      obtain ⟨hkey, rfl⟩ := sign_eq_ok.mp h
      exact ⟨hkey, rfl⟩

/-- Every verifying function checks the artifact's signature of its message under its key id. -/
theorem Verified.spec {a : Artifact} (h : Verified c resolver a) :
    keyRe a.keyId = true ∧
      ∃ pub, c.edVerify pub (keyedMessage a.keyId a.message) a.signature = true := by
  cases h with
  | lease h =>
      simp only [verifySourceLeaseGrant, bind_eq_ok, ensure_eq_ok, exists_unit] at h
      obtain ⟨hkey, pub, hverify⟩ := verify_eq_ok h.2.2
      exact ⟨hkey, pub, by rw [Artifact.message_eq rfl]; exact hverify⟩
  | fence h =>
      obtain ⟨hkey, pub, hverify⟩ := verify_eq_ok h
      exact ⟨hkey, pub, by rw [Artifact.message_eq rfl]; exact hverify⟩
  | fenceValue h =>
      simp only [checkFenceValue, bind_eq_ok, ensure_eq_ok, exists_unit] at h
      obtain ⟨-, -, -, -, -, _, -, _, -, h⟩ := h
      obtain ⟨hkey, pub, hverify⟩ := verify_eq_ok h
      exact ⟨hkey, pub, by rw [Artifact.message_eq rfl]; exact hverify⟩
  | cutover h =>
      simp only [verifyCutoverReceipt, bind_eq_ok, ensure_eq_ok, exists_unit] at h
      obtain ⟨hkey, pub, hverify⟩ := verify_eq_ok h.2.2
      exact ⟨hkey, pub, by rw [Artifact.message_eq rfl]; exact hverify⟩
  | readiness h =>
      simp only [verifyPromotionReadinessAttestation, bind_eq_ok, ensure_eq_ok, exists_unit,
        id_eq_ok] at h
      obtain ⟨-, -, -, -, -, _, -, _, -, -, -, h⟩ := h
      obtain ⟨hkey, pub, hverify⟩ := verify_eq_ok h
      exact ⟨hkey, pub, by rw [Artifact.message_eq rfl]; exact hverify⟩
  | snapshot h =>
      simp only [verifyBundle, verifyPairSnapshotManifest, bind_eq_ok, ensure_eq_ok, exists_unit,
        id_eq_ok] at h
      obtain ⟨⟨-, -, _, -, _, -, -, h⟩, -⟩ := h
      obtain ⟨hkey, pub, hverify⟩ := verify_eq_ok h
      exact ⟨hkey, pub, by rw [Artifact.message_eq rfl]; exact hverify⟩
  | identity h => exact verify_eq_ok h

/-! ## One artifact for a signature -/

theorem status_inj {a b : LeaseStatus}
    (h : (FramePart.text a.text).payload = (FramePart.text b.text).payload) : a = b := by
  cases a <;> cases b <;> first | rfl | exact absurd h (by decide)

theorem phase_inj {a b : CutoverPhase}
    (h : (FramePart.text a.text).payload = (FramePart.text b.text).payload) : a = b := by
  cases a <;> cases b <;> first | rfl | exact absurd h (by decide)

theorem ascii_of_all_hex64 {o : Option JsString} (h : o.all hex64 = true) :
    ∀ s ∈ o, Js.Ascii s := by
  rintro s ⟨⟩
  exact ascii_hex64 (by simpa using h)

theorem lease_eq {a b : SourceLeaseGrant} (hb : verifySourceLeaseGrant c resolver b = .ok ())
    (hkey : a.keyId = b.keyId) (hsignature : b.signature = a.signature)
    (hfields : (Artifact.lease a).fields.map FramePart.payload =
      (Artifact.lease b).fields.map FramePart.payload) : a = b := by
  simp only [verifySourceLeaseGrant, validateBareLease, bind_eq_ok, ensure_eq_ok, id_eq_ok,
    exists_unit] at hb
  obtain ⟨⟨hstream, hholder, hlease, hcommand, _, -, _, -, _, -, _, -, hprev⟩, ⟨hdigest, -⟩, -⟩ := hb
  simp only [Artifact.fields, List.map_cons, List.map_nil, List.cons.injEq, and_true] at hfields
  obtain ⟨h₁, h₂, h₃, h₄, h₅, h₆, h₇, h₈, h₉, h₁₀, h₁₁⟩ := hfields
  obtain ⟨⟨_, _, _, _, _, _, _, _, _, _⟩, _, _, _⟩ := a
  obtain ⟨⟨_, _, _, _, _, _, _, _, _, _⟩, _, _, _⟩ := b
  simp only [SourceLeaseGrant.mk.injEq, BareSourceLeaseGrant.mk.injEq]
  exact ⟨⟨text_inj' (ascii_streamRe hstream) h₁, number_inj h₂, status_inj h₃,
    text_inj' (ascii_idRe hholder) h₄, text_inj' (ascii_idRe hlease) h₅,
    text_inj' (ascii_idRe hcommand) h₆, number_inj h₇, number_inj h₈, number_inj h₉,
    (option_inj (ascii_of_all_hex64 hprev) h₁₀.symm).symm⟩,
    text_inj' (ascii_hex64 hdigest) h₁₁, hkey, hsignature.symm⟩

theorem fence_eq {bare : BareRedisFenceRecord} {keyId : JsString} {a b : RedisFenceRecord}
    (ha : signRedisFenceRecord c keyId key bare = .ok a) (hkey : a.keyId = b.keyId)
    (hsignature : b.signature = a.signature)
    (hfields : (Artifact.fence a).fields.map FramePart.payload =
      (Artifact.fence b).fields.map FramePart.payload) : a = b := by
  simp only [signRedisFenceRecord, validateRedisFenceRecord, bind_eq_ok, ensure_eq_ok, id_eq_ok,
    exists_unit, pure_eq_ok] at ha
  obtain ⟨⟨hstream, hnode, hcommand, hcredential, hauthority, _, -, _, -⟩, _, -, rfl⟩ := ha
  simp only [Artifact.fields, List.map_cons, List.map_nil, List.cons.injEq, and_true] at hfields
  obtain ⟨h₁, h₂, h₃, h₄, h₅, h₆, h₇⟩ := hfields
  obtain ⟨⟨_, _, _, _, _, _, _⟩, _, _⟩ := b
  cases bare
  simp only [RedisFenceRecord.mk.injEq, BareRedisFenceRecord.mk.injEq]
  exact ⟨⟨text_inj (ascii_streamRe hstream) h₁, number_inj h₂, text_inj (ascii_idRe hnode) h₃,
    text_inj (ascii_digits hauthority) h₄, text_inj (ascii_keyRe hcredential).1 h₅,
    text_inj (ascii_idRe hcommand) h₆, number_inj h₇⟩, hkey, hsignature.symm⟩

theorem cutover_eq {a b : CutoverReceipt} (hb : verifyCutoverReceipt c resolver b = .ok ())
    (hkey : a.keyId = b.keyId) (hsignature : b.signature = a.signature)
    (hfields : (Artifact.cutover a).fields.map FramePart.payload =
      (Artifact.cutover b).fields.map FramePart.payload) : a = b := by
  simp only [verifyCutoverReceipt, validateBareCutover, bind_eq_ok, ensure_eq_ok, id_eq_ok,
    exists_unit] at hb
  obtain ⟨⟨hstream, hcommand, hnode, hepoch, _, -, _, -, _, -, _, -, _, -, -, hmanifest, hstate,
    hredis, hlease, hprev⟩, ⟨hdigest, -⟩, -⟩ := hb
  simp only [Artifact.fields, List.map_cons, List.map_nil, List.cons.injEq, and_true] at hfields
  obtain ⟨h₁, h₂, h₃, h₄, h₅, h₆, h₇, h₈, h₉, h₁₀, h₁₁, h₁₂, h₁₃, h₁₄, h₁₅, h₁₆⟩ := hfields
  obtain ⟨⟨⟨_, _, _, _, _, _, _, _, _, _, _, _, _⟩, _, _⟩, _, _, _⟩ := a
  obtain ⟨⟨⟨_, _, _, _, _, _, _, _, _, _, _, _, _⟩, _, _⟩, _, _, _⟩ := b
  simp only [CutoverReceipt.mk.injEq, BareCutover.mk.injEq, CutoverIntent.mk.injEq]
  exact ⟨⟨⟨text_inj' (ascii_streamRe hstream) h₁, text_inj' (ascii_idRe hcommand) h₂,
    number_inj h₄, number_inj h₅, text_inj' (ascii_idRe hnode) h₆,
    text_inj' (ascii_idRe hepoch) h₇, text_inj' (ascii_hex64 hmanifest) h₈, number_inj h₉,
    text_inj' (ascii_hex64 hstate) h₁₀, text_inj' (ascii_hex64 hredis) h₁₁,
    text_inj' (ascii_hex64 hlease) h₁₂, number_inj h₁₃, number_inj h₁₄⟩, phase_inj h₃,
    (option_inj (ascii_of_all_hex64 hprev) h₁₅.symm).symm⟩, text_inj' (ascii_hex64 hdigest) h₁₆,
    hkey, hsignature.symm⟩

theorem readiness_eq {a b : PromotionReadinessAttestation}
    (hb : verifyPromotionReadinessAttestation c resolver b = .ok ()) (hkey : a.keyId = b.keyId)
    (hsignature : b.signature = a.signature)
    (hfields : (Artifact.readiness a).fields.map FramePart.payload =
      (Artifact.readiness b).fields.map FramePart.payload) : a = b := by
  simp only [verifyPromotionReadinessAttestation, bind_eq_ok, ensure_eq_ok, id_eq_ok, exists_unit,
    List.all_cons, List.all_nil, Bool.and_true, Bool.and_eq_true] at hb
  obtain ⟨hstream, hcommand, hepoch, hsnapshot, hsystem, _, -, _, -,
    ⟨hmanifest, hstate, hfenced, hdigest⟩, -, -⟩ := hb
  simp only [Artifact.fields, List.map_cons, List.map_nil, List.cons.injEq, and_true] at hfields
  obtain ⟨h₁, h₂, h₃, h₄, h₅, h₆, h₇, h₈, h₉, h₁₀, h₁₁⟩ := hfields
  obtain ⟨_, _, _, _, _, _, _, _, _, _, _, _, _⟩ := a
  obtain ⟨_, _, _, _, _, _, _, _, _, _, _, _, _⟩ := b
  simp only [PromotionReadinessAttestation.mk.injEq]
  exact ⟨text_inj' (ascii_streamRe hstream) h₁, text_inj' (ascii_idRe hcommand) h₂, number_inj h₃,
    text_inj' (ascii_idRe hepoch) h₄, text_inj' (ascii_digits hsystem) h₅,
    text_inj' (ascii_keyRe hsnapshot).1 h₆, text_inj' (ascii_hex64 hmanifest) h₇, number_inj h₈,
    text_inj' (ascii_hex64 hstate) h₉, text_inj' (ascii_hex64 hfenced) h₁₀, hkey,
    text_inj' (ascii_hex64 hdigest) h₁₁, hsignature.symm⟩

theorem manifest_eq {a b : PairSnapshotManifest}
    (hb : verifyPairSnapshotManifest c resolver b = .ok ()) (hkey : a.keyId = b.keyId)
    (hsignature : b.signature = a.signature)
    (hfields : [FramePart.text a.streamId, .text a.sourceEpoch, .number a.finalSequence,
        .text a.sourceSystemId, .text a.stateDigest, .text a.historyDigest,
        .number a.issuedAtMs].map FramePart.payload =
      [FramePart.text b.streamId, .text b.sourceEpoch, .number b.finalSequence,
        .text b.sourceSystemId, .text b.stateDigest, .text b.historyDigest,
        .number b.issuedAtMs].map FramePart.payload) : a = b := by
  simp only [verifyPairSnapshotManifest, bind_eq_ok, ensure_eq_ok, id_eq_ok, exists_unit] at hb
  obtain ⟨hstream, hepoch, _, -, _, -, ⟨hsystem, hstate, hhistory⟩, -⟩ := hb
  simp only [List.map_cons, List.map_nil, List.cons.injEq, and_true] at hfields
  obtain ⟨h₁, h₂, h₃, h₄, h₅, h₆, h₇⟩ := hfields
  obtain ⟨⟨_, _, _, _, _, _, _⟩, _, _⟩ := a
  obtain ⟨⟨_, _, _, _, _, _, _⟩, _, _⟩ := b
  simp only [PairSnapshotManifest.mk.injEq, BareSnapshot.mk.injEq]
  exact ⟨⟨text_inj' (ascii_streamRe hstream) h₁, text_inj' (ascii_idRe hepoch) h₂, number_inj h₃,
    text_inj' (ascii_digits hsystem) h₄, text_inj' (ascii_hex64 hstate) h₅,
    text_inj' (ascii_hex64 hhistory) h₆, number_inj h₇⟩, hkey, hsignature.symm⟩

/-- The history digest of a bundle, as it was built and as it is verified. -/
theorem history_of_build {source : SnapshotSource} {streamId keyId : JsString}
    {throughSequence now : ℤ} {bundle : PairSnapshotBundle}
    (h : buildPairSnapshotBundle c source streamId throughSequence keyId key now = .ok bundle) :
    Canonicalizable (recordsValue bundle.records) ∧
      bundle.manifest.historyDigest = c.sha256 (Js.utf8 (canonText (recordsValue bundle.records))) := by
  simp only [buildPairSnapshotBundle, bind_eq_ok, ensure_eq_ok, exists_unit, pure_eq_ok] at h
  obtain ⟨-, _, -, _, -, _, -, -, _, -, -, _, hhistory, _, -, _, -, rfl⟩ := h
  obtain ⟨hcanon, rfl⟩ := canonicalize_eq_ok.mp hhistory
  exact ⟨hcanon, rfl⟩

theorem history_of_verify {bundle : PairSnapshotBundle}
    {assertSanitized : JsValue → Except HaError Unit}
    (h : verifyBundle c resolver bundle assertSanitized = .ok ()) :
    Canonicalizable (recordsValue bundle.records) ∧
      bundle.manifest.historyDigest = c.sha256 (Js.utf8 (canonText (recordsValue bundle.records))) := by
  simp only [verifyBundle, bind_eq_ok, ensure_eq_ok, exists_unit] at h
  obtain ⟨-, -, _, hhistory, hdigest, -⟩ := h
  obtain ⟨hcanon, rfl⟩ := canonicalize_eq_ok.mp hhistory
  exact ⟨hcanon, hdigest.symm⟩

/-- The fields of a parsed record are the texts of the record's. -/
theorem fenceValue_fields {bare : BareRedisFenceRecord} {keyId : JsString} {a : RedisFenceRecord}
    {v : JsValue} (ha : signRedisFenceRecord c keyId key bare = .ok a)
    (hfields : (Artifact.fence a).fields.map FramePart.payload =
      (Artifact.fenceValue v).fields.map FramePart.payload) :
    (Artifact.fenceValue v).fields.map FramePart.text? =
      (Artifact.fence a).fields.map FramePart.text? := by
  simp only [signRedisFenceRecord, validateRedisFenceRecord, bind_eq_ok, ensure_eq_ok, id_eq_ok,
    exists_unit, pure_eq_ok] at ha
  obtain ⟨⟨hstream, hnode, hcommand, hcredential, hauthority, _, -, _, -⟩, _, -, rfl⟩ := ha
  have hone : ∀ {p q : FramePart} {s : JsString}, p.text? = some s → Js.Ascii s →
      p.payload = q.payload → q.text? = p.text? := by
    intro p q s hp hs h
    rw [FramePart.payload, FramePart.payload, hp] at h
    obtain ⟨t, ht, hutf8⟩ := Option.map_eq_some_iff.mp h.symm
    rw [ht, hp, hs.eq_of_utf8 hutf8]
  simp only [Artifact.fields, List.map_cons, List.map_nil, List.cons.injEq, and_true] at hfields ⊢
  obtain ⟨h₁, h₂, h₃, h₄, h₅, h₆, h₇⟩ := hfields
  exact ⟨hone rfl (ascii_streamRe hstream) h₁, hone rfl (ascii_decimal _) h₂,
    hone rfl (ascii_idRe hnode) h₃, hone rfl (ascii_digits hauthority) h₄,
    hone rfl (ascii_keyRe hcredential).1 h₅, hone rfl (ascii_idRe hcommand) h₆,
    hone rfl (ascii_decimal _) h₇⟩

/-- What a signature was made for is all it verifies for. -/
theorem presents_of_signature (hinj : Function.Injective c.sha256) (hideal : IdealSignatures c)
    {a b : Artifact} (ha : Signed c key a) (hb : Verified c resolver b) (hfa : a.Framed)
    (hfb : b.Framed) (hsignature : b.signature = a.signature) : Presents a b := by
  obtain ⟨hkeyA, hsigned⟩ := ha.spec
  obtain ⟨hkeyB, pub, hverified⟩ := hb.spec
  rw [hsignature, hsigned] at hverified
  obtain ⟨hkey, hdomain, hrest⟩ :=
    fields_of_keyedMessage hkeyA hkeyB hfa hfb (hideal key pub _ _ hverified)
  cases ha with
  | lease ha =>
      cases hb with
      | lease hb =>
          rw [lease_eq hb hkey hsignature (hrest rfl).1]
          exact .lease _
      | _ => exact absurd hdomain (by simp only [Artifact.domain]; decide)
  | fence ha =>
      cases hb with
      | fence hb =>
          rw [fence_eq ha hkey hsignature (hrest rfl).1]
          exact .fence _
      | fenceValue hb => exact .fenceValue (fenceValue_fields ha (hrest rfl).1) hkey.symm
      | _ => exact absurd hdomain (by simp only [Artifact.domain]; decide)
  | cutover ha =>
      cases hb with
      | cutover hb =>
          rw [cutover_eq hb hkey hsignature (hrest rfl).1]
          exact .cutover _
      | _ => exact absurd hdomain (by simp only [Artifact.domain]; decide)
  | readiness ha =>
      cases hb with
      | readiness hb =>
          rw [readiness_eq hb hkey hsignature (hrest rfl).1]
          exact .readiness _
      | _ => exact absurd hdomain (by simp only [Artifact.domain]; decide)
  | @snapshot _ _ _ _ _ bundleA keysA ha =>
      cases hb with
      | @snapshot bundleB keysB assertSanitized hb =>
          have hmanifest : verifyPairSnapshotManifest c resolver bundleB.manifest = .ok () := by
            simp only [verifyBundle, bind_eq_ok, exists_unit] at hb
            exact hb.1
          have heq := manifest_eq hmanifest hkey hsignature (hrest rfl).1
          obtain ⟨hcanonA, hhistoryA⟩ := history_of_build ha
          obtain ⟨hcanonB, hhistoryB⟩ := history_of_verify hb
          -- the records are covered by the digest of their canonical form
          have htext : canonText (recordsValue bundleA.records) =
              canonText (recordsValue bundleB.records) := by
            rw [heq, hhistoryB] at hhistoryA
            exact Js.utf8_injective hcanonA.ijson.wellFormed hcanonB.ijson.wellFormed
              (hinj hhistoryA).symm
          exact .snapshot heq (same_of_canonText hcanonA hcanonB keysA keysB htext)
      | _ => exact absurd hdomain (by simp only [Artifact.domain]; decide)
  | identity ha =>
      cases hb with
      | identity hb =>
          have htail := (hrest rfl).2
          simp only [Artifact.tail] at htail
          simp only [Artifact.keyId] at hkey
          simp only [Artifact.signature] at hsignature
          rw [htail, hkey, hsignature]
          exact .identity _ _ _
      | _ => exact absurd hdomain (by simp only [Artifact.domain]; decide)

/-- **Signed artifacts are not transferable.** Frames are injective on well-formed strings, numbers as
    decimals and nulls; and with ideal signatures and an injective digest, whatever verifies with the
    signature of an artifact is that artifact. -/
theorem artifacts_not_transferable (c : Crypto) (hinj : Function.Injective c.sha256)
    (hideal : IdealSignatures c) :
    (∀ ps qs : List FramePart, (∀ p ∈ ps, p.Fits) → (∀ q ∈ qs, q.Fits) →
      (∀ p ∈ ps, ∀ s ∈ p.text?, Js.WellFormed s) → (∀ q ∈ qs, ∀ s ∈ q.text?, Js.WellFormed s) →
      frame ps = frame qs → ps.map FramePart.text? = qs.map FramePart.text?) ∧
    ∀ (resolver : PublicKeyResolver c) (key : c.PrivateKey) (a b : Artifact), Signed c key a →
      Verified c resolver b → a.Framed → b.Framed → b.signature = a.signature → Presents a b :=
  ⟨fun _ _ => frame_injective, fun _ _ _ _ => presents_of_signature hinj hideal⟩

/-! ## A concrete record -/

theorem hexCrypto_ideal : IdealSignatures hexCrypto := by
  intro key pub m m' h
  have hdigit : ∀ (b : Bytes), ∀ d ∈ b.flatMap hexByte, d ≠ 75 := by
    intro b d hd
    obtain ⟨x, -, hx⟩ := List.mem_flatMap.mp hd
    have hx256 : x.toNat < 256 := x.toNat_lt
    have hne : ∀ n < 16, Js.hexDigit n ≠ 75 := by decide
    simp only [hexByte, List.mem_cons, List.not_mem_nil, or_false] at hx
    rcases hx with rfl | rfl
    · exact hne _ (by omega)
    · exact hne _ (by omega)
  have hsplit : ∀ (n : ℕ) (b : Bytes),
      (List.replicate n 75 ++ b.flatMap hexByte).dropWhile (· == 75) = b.flatMap hexByte := by
    intro n b
    rw [List.dropWhile_append_of_pos (by simp)]
    cases hb : b.flatMap hexByte with
    | nil => rfl
    | cons d ds =>
        rw [List.dropWhile_cons_of_neg]
        simpa using hdigit b d (hb ▸ List.mem_cons_self)
  have heq : List.replicate key 75 ++ m.flatMap hexByte =
      List.replicate pub 75 ++ m'.flatMap hexByte := beq_iff_eq.mp h
  have hbytes := congrArg (List.dropWhile (· == 75)) heq
  exact (hexBytes_injective ((hsplit key m).symm.trans (hbytes.trans (hsplit pub m')))).symm

/-- A fence record of the node `n1` for epoch 5, signed by the key `guard`. -/
def guardFence : RedisFenceRecord :=
  let bare : BareRedisFenceRecord :=
    { streamId := Js.lit "pairs", epoch := 5, nodeId := Js.lit "n1",
      authoritySystemId := Js.lit "7", nodeCredentialKeyId := Js.lit "node",
      commandId := Js.lit "c1", claimedAtMs := 1 }
  { bare with
    keyId := Js.lit "guard"
    signature := hexCrypto.edSign (0 : ℕ) (keyedMessage (Js.lit "guard") (redisFenceMessage bare)) }

theorem artifacts_not_transferable_parsed :
    Presents (.fence guardFence) (.fenceValue guardFence.toValue) := by
  have hsigned : signRedisFenceRecord hexCrypto (Js.lit "guard") (0 : ℕ)
      guardFence.toBareRedisFenceRecord = .ok guardFence := by
    decide +kernel
  have hverified : checkFenceValue hexCrypto (fun _ => some (0 : ℕ)) guardFence.toValue = .ok () := by
    decide +kernel
  have hfits : ∀ s ∈ [Js.lit "pairs", Js.lit "5", Js.lit "n1", Js.lit "7", Js.lit "node",
      Js.lit "c1", Js.lit "1"], (FramePart.text s).Fits := by
    intro s hs
    have hall : ∀ s ∈ [Js.lit "pairs", Js.lit "5", Js.lit "n1", Js.lit "7", Js.lit "node",
        Js.lit "c1", Js.lit "1"], Js.Ascii s ∧ s.length < 0x10000 := by decide
    exact fits_of_ascii (hall s hs).1 (hall s hs).2
  simp only [List.forall_mem_cons, List.not_mem_nil, false_implies, implies_true, and_true] at hfits
  obtain ⟨h₁, h₂, h₃, h₄, h₅, h₆, h₇⟩ := hfits
  refine (artifacts_not_transferable hexCrypto hexBytes_injective hexCrypto_ideal).2 _ _ _ _
    (.fence hsigned) (.fenceValue hverified) ?_ ?_ rfl
  · simp only [Artifact.Framed, Artifact.fields, List.forall_mem_cons, List.not_mem_nil,
      false_implies, implies_true, and_true]
    exact ⟨h₁, h₂, h₃, h₄, h₅, h₆, h₇⟩
  · simp only [Artifact.Framed, Artifact.fields, List.map_cons, List.map_nil, List.forall_mem_cons,
      List.not_mem_nil, false_implies, implies_true, and_true]
    exact ⟨h₁, h₂, h₃, h₄, h₅, h₆, h₇⟩

end Ha
