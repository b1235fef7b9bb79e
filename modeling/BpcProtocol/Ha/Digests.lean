import BpcProtocol.Ha.CanonicalData

set_option autoImplicit false

/-! # What the digests bind

The digests of a mutation record, of an epoch transition and of a stream head. Each hashes its fields
under their lengths, and each begins with a domain of its own, so a digest stands for one call. -/

namespace Ha

open Fallible Encoding

/-! ## The digest functions -/

/-- The argument of `epochTransitionDigest`. -/
structure EpochTransitionInput where
  streamId : JsString
  fromEpoch : JsString
  fromEpochIndex : ℤ
  toEpoch : JsString
  toEpochIndex : ℤ
  snapshotSequence : ℤ
  snapshotDigest : JsString
  fenceToken : JsString

/-- The fields of `epochTransitionDigest`, in order. -/
def EpochTransitionInput.fields (r : EpochTransitionInput) : List JsString :=
  [Js.lit "selfconnect/ha-outbox/v1/epoch-transition", Js.lit "1", r.streamId, r.fromEpoch,
    Js.decimal r.fromEpochIndex, r.toEpoch, Js.decimal r.toEpochIndex,
    Js.decimal r.snapshotSequence, r.snapshotDigest, r.fenceToken]

/-- `epochTransitionDigest(input)`. -/
def epochTransitionDigest (c : Crypto) (input : EpochTransitionInput) : Except HaError JsString := do
  assertId input.streamId "streamId"
  assertNoLoneSurrogate input.streamId
  assertId input.fromEpoch "fromEpoch"
  assertNoLoneSurrogate input.fromEpoch
  assertId input.toEpoch "toEpoch"
  assertNoLoneSurrogate input.toEpoch
  ensure (input.fromEpoch ≠ input.toEpoch) "epoch transition fromEpoch must differ from toEpoch"
  ensure (Js.isSafeInteger input.fromEpochIndex ∧ 0 ≤ input.fromEpochIndex)
    "fromEpochIndex must be a non-negative safe integer"
  ensure (input.toEpochIndex = input.fromEpochIndex + 1)
    "toEpochIndex must be exactly fromEpochIndex + 1 (no skipped epochs)"
  ensure (Js.isSafeInteger input.snapshotSequence ∧ 0 ≤ input.snapshotSequence)
    "snapshotSequence must be a non-negative safe integer"
  ensure (hex64 input.snapshotDigest = true) "snapshotDigest must be 64 lowercase hex"
  assertFenceToken input.fenceToken
  pure (c.sha256 (input.fields.flatMap digestField))

/-- `STREAM_HEAD_ALGS`. -/
def streamHeadAlgs : List JsString := [Js.lit "ed25519", Js.lit "ecdsa-p256-sha256"]

/-- The argument of `streamHeadDigest`. -/
structure StreamHeadInput where
  streamId : JsString
  sequence : ℤ
  prevHeadDigest : JsString
  opDigest : JsString
  keyId : JsString
  alg : JsString

/-- The fields of `streamHeadDigest`, in order. -/
def StreamHeadInput.fields (h : StreamHeadInput) : List JsString :=
  [Js.lit "selfconnect/ha-outbox/v1/tsk-stream-head", Js.lit "1", h.streamId, Js.decimal h.sequence,
    h.prevHeadDigest, h.opDigest, h.keyId, h.alg]

/-- `streamHeadDigest(input)`. `KEY_ID_PATTERN` is the pattern of the ids. -/
def streamHeadDigest (c : Crypto) (input : StreamHeadInput) : Except HaError JsString := do
  assertId input.streamId "streamId"
  assertNoLoneSurrogate input.streamId
  ensure (Js.isSafeInteger input.sequence ∧ 1 ≤ input.sequence)
    "mutation stream-head sequence must be a safe integer >= 1"
  ensure (hex64 input.prevHeadDigest = true) "prevHeadDigest must be 64 lowercase hex"
  ensure (hex64 input.opDigest = true) "opDigest must be 64 lowercase hex"
  ensure (idPattern input.keyId = true) "invalid keyId"
  ensure (input.alg ∈ streamHeadAlgs) "unknown alg"
  pure (c.sha256 (input.fields.flatMap digestField))

/-! ## Fields -/

/-- A field whose framing tells it from every other one. -/
def IsField (f : JsString) : Prop := Js.WellFormed f ∧ (Js.utf8 f).length < 0x100000000

theorem digestField_selfDelimiting : SelfDelimiting IsField digestField :=
  Js.u32be_selfDelimiting.lengthPrefixed (fun _ h => h.2) fun _ _ ha hb h =>
    Js.utf8_injective ha.1 hb.1 h

/-- Framed fields are read back. -/
theorem eq_of_digestFields {fs gs : List JsString} (hf : ∀ f ∈ fs, IsField f)
    (hg : ∀ g ∈ gs, IsField g) (h : fs.flatMap digestField = gs.flatMap digestField) : fs = gs :=
  digestField_selfDelimiting.flatMap_injective (fun f _ => by simp [digestField, Js.u32be]) hf hg h

theorem isField_of_ascii {f : JsString} (h : Js.Ascii f) (hlen : f.length < 0x10000) :
    IsField f := by
  have hbytes := Js.length_utf8_le f
  exact ⟨h.wellFormed, by omega⟩

theorem isField_lit (s : String)
    (h : Js.Ascii (Js.lit s) ∧ (Js.lit s).length < 0x10000) : IsField (Js.lit s) :=
  isField_of_ascii h.1 h.2

theorem isLowerHex_lt {c : UInt16} (h : Js.isLowerHex c = true) : c.toNat < 128 := by
  simp only [Js.isLowerHex, Js.isDigit, Bool.or_eq_true, Bool.and_eq_true, decide_eq_true_eq,
    UInt16.le_iff_toNat_le] at h
  simp at h
  omega

theorem ascii_classPattern {cls : UInt16 → Bool} {lo hi : ℕ} {s : JsString}
    (hcls : ∀ c, cls c = true → c.toNat < 128) (h : Js.classPattern cls lo hi s = true) :
    Js.Ascii s ∧ s.length ≤ hi := by
  simp only [Js.classPattern, Bool.and_eq_true, decide_eq_true_eq, List.all_eq_true] at h
  exact ⟨fun c hc => hcls c (h.2 c hc), h.1.2⟩

theorem isField_of_idPattern {s : JsString} (h : idPattern s = true) : IsField s := by
  cases s with
  | nil => cases h
  | cons c rest =>
      rw [idPattern, Bool.and_eq_true] at h
      obtain ⟨hrest, hlen⟩ := ascii_classPattern (fun d => Js.idClass_lt (by decide)) h.2
      exact isField_of_ascii (List.forall_mem_cons.mpr ⟨Js.isAlnum_lt h.1, hrest⟩)
        (by rw [List.length_cons]; omega)

theorem ascii_hex64 {s : JsString} (h : hex64 s = true) : Js.Ascii s :=
  (ascii_classPattern (fun _ => isLowerHex_lt) h).1

theorem isField_of_hex64 {s : JsString} (h : hex64 s = true) : IsField s := by
  obtain ⟨hascii, hlen⟩ := ascii_classPattern (fun _ => isLowerHex_lt) h
  exact isField_of_ascii hascii (by omega)

theorem isField_of_fenceToken {s : JsString} (h : fenceTokenPattern s = true) : IsField s := by
  match s with
  | [] => cases h
  | [c] => exact isField_of_ascii (by simpa [Js.Ascii] using isDigit_lt h) (by simp)
  | c :: d :: rest =>
      rw [fenceTokenPattern, Bool.and_eq_true, Bool.and_eq_true] at h
      · obtain ⟨hrest, hlen⟩ := ascii_classPattern (fun _ => isDigit_lt) h.2
        exact isField_of_ascii (List.forall_mem_cons.mpr ⟨isDigit_lt h.1.1, hrest⟩)
          (by rw [List.length_cons]; omega)
      · simp

theorem isField_decimal {n : ℤ} (h : n.natAbs ≤ 9007199254740992) : IsField (Js.decimal n) := by
  have hlen : ∀ m : ℕ, m ≤ 9007199254740992 → (Js.natDigits m).length ≤ 16 := by
    intro m hm
    rw [Js.natDigits, List.length_map]
    exact (Nat.length_toDigits_le_iff (by decide) (by decide)).mpr (by omega)
  refine isField_of_ascii (ascii_decimal n) ?_
  rw [Js.decimal_eq]
  split
  · have := hlen n.toNat (by omega)
    omega
  · have := hlen (-n).toNat (by omega)
    rw [List.length_cons]
    omega

theorem natAbs_le_of_safe {n : ℤ} (h : Js.isSafeInteger n = true) : n.natAbs ≤ 9007199254740991 := by
  unfold Js.isSafeInteger Js.maxSafeInteger at h
  rw [Bool.and_eq_true, decide_eq_true_iff, decide_eq_true_iff] at h
  omega

theorem isField_safe {n : ℤ} (h : Js.isSafeInteger n = true) : IsField (Js.decimal n) :=
  isField_decimal (le_trans (natAbs_le_of_safe h) (by decide))

theorem isField_canonText {v : JsValue} (h : Canonicalizable v) : IsField (canonText v) :=
  ⟨h.ijson.wellFormed, lt_of_le_of_lt h.bytes (by decide)⟩

/-! ## The preimages -/

/-- The fields of `canonicalOpDigest`, in order, before a canonical mutation. -/
def OpDigestInput.fields (input : OpDigestInput) : List JsString :=
  [Js.lit "selfconnect/ha-outbox/v1", Js.lit "1", input.streamId, input.sourceEpoch,
    Js.decimal input.sequence, input.fenceToken, canonText input.mutation]

variable {c : Crypto} {t : JsString}

theorem canonicalOpDigest_eq_ok {input : OpDigestInput} (h : canonicalOpDigest c input = .ok t) :
    t = c.sha256 (input.fields.flatMap digestField) ∧ Canonicalizable input.mutation ∧
      ∀ f ∈ input.fields, IsField f := by
  simp only [canonicalOpDigest, assertId, assertFenceToken, bind_eq_ok, ensure_eq_ok, exists_unit,
    pure_eq_ok] at h
  obtain ⟨hstream, -, hepoch, -, ⟨hsafe, -⟩, hfence, text, htext, rfl⟩ := h
  obtain ⟨hcanon, rfl⟩ := canonicalize_eq_ok.mp htext
  refine ⟨rfl, hcanon, ?_⟩
  simp only [OpDigestInput.fields, List.forall_mem_cons, List.not_mem_nil, false_implies,
    implies_true, and_true]
  exact ⟨isField_lit _ (by decide), isField_lit _ (by decide),
    isField_of_idPattern hstream, isField_of_idPattern hepoch, isField_safe hsafe,
    isField_of_fenceToken hfence, isField_canonText hcanon⟩

theorem epochTransitionDigest_eq_ok {input : EpochTransitionInput}
    (h : epochTransitionDigest c input = .ok t) :
    t = c.sha256 (input.fields.flatMap digestField) ∧ ∀ f ∈ input.fields, IsField f := by
  simp only [epochTransitionDigest, assertId, assertFenceToken, bind_eq_ok, ensure_eq_ok,
    exists_unit, pure_eq_ok] at h
  obtain ⟨hstream, -, hfrom, -, hto, -, -, ⟨hsafe, hpos⟩, hnext, ⟨hsequence, -⟩, hdigest, hfence,
    rfl⟩ := h
  -- the index of the new epoch may be one past the safe integers
  have hnextField : IsField (Js.decimal input.toEpochIndex) := by
    have := natAbs_le_of_safe hsafe
    exact isField_decimal (by omega)
  refine ⟨rfl, ?_⟩
  simp only [EpochTransitionInput.fields, List.forall_mem_cons, List.not_mem_nil, false_implies,
    implies_true, and_true]
  exact ⟨isField_lit _ (by decide), isField_lit _ (by decide),
    isField_of_idPattern hstream, isField_of_idPattern hfrom, isField_safe hsafe,
    isField_of_idPattern hto, hnextField, isField_safe hsequence, isField_of_hex64 hdigest,
    isField_of_fenceToken hfence⟩

theorem streamHeadDigest_eq_ok {input : StreamHeadInput} (h : streamHeadDigest c input = .ok t) :
    t = c.sha256 (input.fields.flatMap digestField) ∧ ∀ f ∈ input.fields, IsField f := by
  simp only [streamHeadDigest, assertId, bind_eq_ok, ensure_eq_ok, exists_unit, pure_eq_ok] at h
  obtain ⟨hstream, -, ⟨hsafe, -⟩, hprev, hop, hkey, halg, rfl⟩ := h
  have halgField : IsField input.alg := by
    have hall : ∀ a ∈ streamHeadAlgs, Js.Ascii a ∧ a.length < 0x10000 := by decide
    exact isField_of_ascii (hall _ halg).1 (hall _ halg).2
  refine ⟨rfl, ?_⟩
  simp only [StreamHeadInput.fields, List.forall_mem_cons, List.not_mem_nil, false_implies,
    implies_true, and_true]
  exact ⟨isField_lit _ (by decide), isField_lit _ (by decide),
    isField_of_idPattern hstream, isField_safe hsafe, isField_of_hex64 hprev, isField_of_hex64 hop,
    isField_of_idPattern hkey, halgField⟩

/-! ## Calls -/

/-- A call of one of the digest functions. The keys of a mutation's objects are distinct. -/
inductive DigestCall where
  | op (input : OpDigestInput) (keys : input.mutation.DistinctKeys)
  | epochTransition (input : EpochTransitionInput)
  | streamHead (input : StreamHeadInput)

/-- What the call returns. -/
def DigestCall.run (c : Crypto) : DigestCall → Except HaError JsString
  | .op input _ => canonicalOpDigest c input
  | .epochTransition input => epochTransitionDigest c input
  | .streamHead input => streamHeadDigest c input

def DigestCall.fields : DigestCall → List JsString
  | .op input _ => input.fields
  | .epochTransition input => input.fields
  | .streamHead input => input.fields

/-- Calls of one function on equal arguments, up to the order of a mutation's keys. -/
inductive DigestCall.Same : DigestCall → DigestCall → Prop
  | op {a b : OpDigestInput} {ha : a.mutation.DistinctKeys} {hb : b.mutation.DistinctKeys} :
      a.streamId = b.streamId → a.sourceEpoch = b.sourceEpoch → a.sequence = b.sequence →
      a.fenceToken = b.fenceToken → a.mutation.Same b.mutation → Same (.op a ha) (.op b hb)
  | epochTransition (input : EpochTransitionInput) :
      Same (.epochTransition input) (.epochTransition input)
  | streamHead (input : StreamHeadInput) : Same (.streamHead input) (.streamHead input)

theorem DigestCall.run_eq_ok {call : DigestCall} (h : call.run c = .ok t) :
    t = c.sha256 (call.fields.flatMap digestField) ∧ ∀ f ∈ call.fields, IsField f := by
  cases call with
  | op input keys =>
      obtain ⟨ht, -, hfields⟩ := canonicalOpDigest_eq_ok h
      exact ⟨ht, hfields⟩
  | epochTransition input => exact epochTransitionDigest_eq_ok h
  | streamHead input => exact streamHeadDigest_eq_ok h

/-- Mutations of one canonical text are structurally equal. -/
theorem same_of_canonText {v w : JsValue} (hv : Canonicalizable v) (hw : Canonicalizable w)
    (hkv : v.DistinctKeys) (hkw : w.DistinctKeys) (h : canonText v = canonText w) : v.Same w := by
  have hpv := plain_of_ijson hv.ijson hkv
  have hpw := plain_of_ijson hw.ijson hkw
  exact same_of_sortKeys hpv hpw (sortKeys_eq_of_canonicalize (canonicalize_eq_ok.mpr ⟨hv, rfl⟩)
    (canonicalize_eq_ok.mpr ⟨hw, h⟩) hpv hpw)

/-- **A digest stands for one call.** -/
theorem digest_binding (c : Crypto) (hinj : Function.Injective c.sha256) {a b : DigestCall}
    {t : JsString} (ha : a.run c = .ok t) (hb : b.run c = .ok t) : a.Same b := by
  obtain ⟨hta, hfa⟩ := DigestCall.run_eq_ok ha
  obtain ⟨htb, hfb⟩ := DigestCall.run_eq_ok hb
  have hfields := eq_of_digestFields hfa hfb (hinj (hta.symm.trans htb))
  cases a with
  | op a hka =>
      cases b with
      | op b hkb =>
          obtain ⟨-, hcanonA, -⟩ := canonicalOpDigest_eq_ok ha
          obtain ⟨-, hcanonB, -⟩ := canonicalOpDigest_eq_ok hb
          simp only [DigestCall.fields, OpDigestInput.fields, List.cons.injEq, true_and,
            and_true] at hfields
          obtain ⟨hstream, hepoch, hsequence, hfence, htext⟩ := hfields
          exact .op hstream hepoch (Js.decimal_injective hsequence) hfence
            (same_of_canonText hcanonA hcanonB hka hkb htext)
      | epochTransition b => simp [DigestCall.fields, OpDigestInput.fields,
          EpochTransitionInput.fields] at hfields
      | streamHead b => simp [DigestCall.fields, OpDigestInput.fields,
          StreamHeadInput.fields] at hfields
  | epochTransition a =>
      cases b with
      | op b hkb => simp [DigestCall.fields, OpDigestInput.fields,
          EpochTransitionInput.fields] at hfields
      | epochTransition b =>
          simp only [DigestCall.fields, EpochTransitionInput.fields, List.cons.injEq, true_and,
            and_true] at hfields
          obtain ⟨hstream, hfrom, hindex, hto, hnext, hsequence, hdigest, hfence⟩ := hfields
          have hab : a = b := by
            cases a
            cases b
            simp only [EpochTransitionInput.mk.injEq]
            exact ⟨hstream, hfrom, Js.decimal_injective hindex, hto, Js.decimal_injective hnext,
              Js.decimal_injective hsequence, hdigest, hfence⟩
          rw [hab]
          exact .epochTransition b
      | streamHead b => simp [DigestCall.fields, EpochTransitionInput.fields,
          StreamHeadInput.fields] at hfields
  | streamHead a =>
      cases b with
      | op b hkb => simp [DigestCall.fields, OpDigestInput.fields,
          StreamHeadInput.fields] at hfields
      | epochTransition b => simp [DigestCall.fields, EpochTransitionInput.fields,
          StreamHeadInput.fields] at hfields
      | streamHead b =>
          simp only [DigestCall.fields, StreamHeadInput.fields, List.cons.injEq, true_and,
            and_true] at hfields
          obtain ⟨hstream, hsequence, hprev, hop, hkey, halg⟩ := hfields
          have hab : a = b := by
            cases a
            cases b
            simp only [StreamHeadInput.mk.injEq]
            exact ⟨hstream, Js.decimal_injective hsequence, hprev, hop, hkey, halg⟩
          rw [hab]
          exact .streamHead b

/-! ## A concrete instance -/

/-- Two lowercase hexadecimal digits. -/
def hexByte (b : UInt8) : JsString := [Js.hexDigit (b.toNat / 16), Js.hexDigit (b.toNat % 16)]

theorem hexBytes_injective : Function.Injective fun m : Bytes => m.flatMap hexByte := by
  have hdigit : ∀ m < 16, ∀ n < 16, Js.hexDigit m = Js.hexDigit n → m = n := by decide
  have hdelimiting : SelfDelimiting (fun _ => True) hexByte := by
    refine SelfDelimiting.of_length (n := 2) (fun _ _ => rfl) fun a b _ _ h => ?_
    simp only [hexByte, List.cons.injEq, and_true] at h
    have ha : a.toNat < 256 := a.toNat_lt
    have hb : b.toNat < 256 := b.toNat_lt
    have hhigh := hdigit _ (by omega) _ (by omega) h.1
    have hlow := hdigit _ (by omega) _ (by omega) h.2
    exact UInt8.toNat_inj.mp (by omega)
  intro a b h
  exact hdelimiting.flatMap_injective (fun _ _ => List.cons_ne_nil _ _) (fun _ _ => trivial)
    (fun _ _ => trivial) h

/-- The digest of a message is the message in hexadecimal, and a signature is the key's number and
    the message. -/
def hexCrypto : Crypto where
  PrivateKey := ℕ
  PublicKey := ℕ
  sha256 message := message.flatMap hexByte
  edSign key message := List.replicate key 75 ++ message.flatMap hexByte
  edVerify key message signature := signature == List.replicate key 75 ++ message.flatMap hexByte
  fingerprint key := Js.decimal key

/-- A record of a mutation with these fields. -/
def pairMutation (fields : List (JsString × JsValue)) : OpDigestInput :=
  { streamId := Js.lit "pairs", sourceEpoch := Js.lit "e1", sequence := 1, fenceToken := Js.lit "7",
    mutation := .object fields }

theorem digest_binding_reordered :
    ∃ (h : (pairMutation [(Js.lit "a", .null), (Js.lit "b", .bool true)]).mutation.DistinctKeys)
      (h' : (pairMutation [(Js.lit "b", .bool true), (Js.lit "a", .null)]).mutation.DistinctKeys),
      DigestCall.Same (.op _ h) (.op _ h') := by
  have hkeys : ∀ {k l : JsString} {v w : JsValue}, k ≠ l → v.DistinctKeys → w.DistinctKeys →
      (JsValue.object [(k, v), (l, w)]).DistinctKeys := by
    intro k l v w hkl hv hw
    refine .object (by simpa using hkl) ?_
    simpa using ⟨hv, hw⟩
  refine ⟨hkeys (by decide) .null (.bool true), hkeys (by decide) (.bool true) .null, ?_⟩
  have hok : (canonicalOpDigest hexCrypto
      (pairMutation [(Js.lit "a", .null), (Js.lit "b", .bool true)])).isOk = true := by
    decide +kernel
  have heq : canonicalOpDigest hexCrypto
        (pairMutation [(Js.lit "b", .bool true), (Js.lit "a", .null)]) =
      canonicalOpDigest hexCrypto
        (pairMutation [(Js.lit "a", .null), (Js.lit "b", .bool true)]) := by
    decide +kernel
  exact digest_binding hexCrypto hexBytes_injective (eq_ok_result _ hok)
    (heq.trans (eq_ok_result _ hok))

end Ha
