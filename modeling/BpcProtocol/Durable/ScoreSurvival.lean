import BpcProtocol.Durable.PairText
import BpcProtocol.Durable.ScoreRendering
import BpcProtocol.Durable.Transplant

set_option autoImplicit false

/-! # Scores survive

What halvings and failures make of a score is written as a decimal, sealed, opened, stored and
normalized again without a change, however small it becomes. -/

namespace Durable

open Ha Fallible
open PairTables (pairParams float8)
open Pair (Produced present presentFields)
open PgTransactionalPairStore (rowOf)

/-! ## Scores as text -/

/-- **A score is written as a short decimal** that is read back as the score. -/
theorem scoreText_produced {score : JsNumber} (h : Produced score) :
    ∃ x text, score = .fin x ∧ ScoreText x text ∧
      scoreOf (.number score) false = .ok (some text) := by
  obtain ⟨x, rfl, hx, -, hdouble⟩ := h.isScore.exists_fin
  obtain ⟨text, htext⟩ := exists_scoreText hdouble hx
  refine ⟨x, text, rfl, htext, ?_⟩
  show (do
    let n ← found (numberOf (.number (.fin x))) "pair.cumulativeFailures is invalid"
    let text ← finiteNumberToDecimal n
    pure (some text)) = _
  simp only [bind_eq_ok, found_eq_ok, pure_eq_ok]
  exact ⟨.fin x, rfl, text, htext.written, rfl⟩

theorem ScoreText.ascii {x : ℚ} {text : JsString} (h : ScoreText x text) : Js.Ascii text := by
  intro c hc
  rcases h.plain c hc with hdigit | rfl
  · exact isDigit_lt hdigit
  · decide

/-! ## Pairs as they are stored -/

/-- The members of a pair in the order of a stored pair, with its failure score as a number. -/
def CanonicalStoredPair.storedMembers (p : CanonicalStoredPair) : List (String × Option JsValue) :=
  [("id", some (.string p.id.1)), ("name", some (.string p.name.1)),
    ("scope", some (.string p.scope.text)), ("mode", some (.string p.mode.text)),
    ("secretHash", some (.string p.secretHash.1)), ("pubJwk", some p.pubJwk.toJs),
    ("expiresAt", p.expiresAt.map SafeNat.toJs), ("maxRequests", p.maxRequests.map SafeNat.toJs),
    ("status", some (.string p.status.text)), ("created", some p.created.toJs),
    ("lastActive", some (nullableNat p.lastActive)), ("requests", some p.requests.toJs),
    ("failedSigs", some p.failedSigs.toJs),
    ("cumulativeFailures", p.toStored.cumulativeFailures.map JsValue.number),
    ("firstFailureAt", p.firstFailureAt.map nullableNat), ("kind", some (.string p.kind.text)),
    ("canaryClass", p.canaryClass.map fun c => .string c.text)]

theorem nullable_toNumber (o : Option SafeNat) :
    Pair.nullable (o.map SafeNat.toNumber) = nullableNat o := by
  cases o <;> rfl

theorem toStored_toJs (p : CanonicalStoredPair) : p.toStored.toJs = present p.storedMembers := by
  have hfirst : (p.firstFailureAt.map fun t => t.map SafeNat.toNumber).map Pair.nullable =
      p.firstFailureAt.map nullableNat := by
    rw [Option.map_map]
    exact congrArg (Option.map · p.firstFailureAt) (funext nullable_toNumber)
  have hexpires : (p.expiresAt.map SafeNat.toNumber).map JsValue.number =
      p.expiresAt.map SafeNat.toJs := Option.map_map _ _ _
  have hrequests : (p.maxRequests.map SafeNat.toNumber).map JsValue.number =
      p.maxRequests.map SafeNat.toJs := Option.map_map _ _ _
  rw [CanonicalStoredPair.storedMembers, ← hfirst, ← hexpires, ← hrequests, ← nullable_toNumber]
  rfl

theorem names_storedMembers (p : CanonicalStoredPair) :
    (p.storedMembers.map fun f => Js.lit f.1) =
      ["id", "name", "scope", "mode", "secretHash", "pubJwk", "expiresAt", "maxRequests", "status",
        "created", "lastActive", "requests", "failedSigs", "cumulativeFailures", "firstFailureAt",
        "kind", "canaryClass"].map Js.lit :=
  rfl

theorem nodup_storedMembers (p : CanonicalStoredPair) :
    (p.storedMembers.map fun f => Js.lit f.1).Nodup := by
  rw [names_storedMembers]
  decide

theorem readsFields_toStored (p : CanonicalStoredPair) :
    ReadsFields (presentFields p.storedMembers) p := by
  refine readsFields_of (nodup_storedMembers p) ?_ ?_
  · rw [names_storedMembers]
    decide
  · intro f hf hne
    simp only [CanonicalStoredPair.members, CanonicalPairRegistration.members, List.cons_append,
      List.nil_append, List.mem_cons, List.not_mem_nil, or_false] at hf
    rcases hf with rfl | rfl | rfl | rfl | rfl | rfl | rfl | rfl | rfl | rfl | rfl | rfl | rfl | rfl |
      rfl | rfl | rfl
    all_goals simp [CanonicalStoredPair.storedMembers] at hne ⊢

theorem ownValue_storedMembers {p : CanonicalStoredPair} {score : JsNumber}
    (hstored : p.toStored.cumulativeFailures = some score) :
    ownValue (presentFields p.storedMembers) "cumulativeFailures" = .number score := by
  rw [ownValue_presentFields (nodup_storedMembers p)
    (o := p.toStored.cumulativeFailures.map JsValue.number)
    (by simp [CanonicalStoredPair.storedMembers]), hstored]
  rfl

/-- **A pair is normalized from its stored form** if its score is written as the same text again. -/
theorem normalizePair_toStored {p : CanonicalStoredPair} {score : JsNumber}
    (hstored : p.toStored.cumulativeFailures = some score)
    (hscore : scoreOf (.number score) false = .ok p.cumulativeFailures) :
    normalizePair p.toStored.toJs false = .ok p := by
  rw [toStored_toJs]
  have hread : scoreOf (ownValue (presentFields p.storedMembers) "cumulativeFailures") false =
      .ok p.cumulativeFailures := by
    rw [ownValue_storedMembers hstored]
    exact hscore
  exact normalizePair_of (readsFields_toStored p) hread

/-! ## Rows -/

/-- A pair as its columns tell it: `null` is no time of a first failure. -/
def CanonicalStoredPair.columns (p : CanonicalStoredPair) : CanonicalStoredPair :=
  { p with firstFailureAt := p.firstFailureAt.join.map some }

theorem pairParams_of {p : CanonicalStoredPair} {text : JsString} {score : JsNumber}
    (htext : p.cumulativeFailures = some text) (hread : Js.stringToNumber text = score)
    (hfinite : score.isFinite = true) :
    pairParams p = .ok (rowOf p) ∧ (rowOf p).cumulativeFailures = some score := by
  have hrow : (rowOf p).cumulativeFailures = some score := by
    show p.cumulativeFailures.map Js.stringToNumber = _
    rw [htext, ← hread]
    rfl
  have hfloat : (float8 text).map some = .ok (some score) := by
    rw [float8, hread, if_pos hfinite]
    rfl
  refine ⟨?_, hrow⟩
  simp only [pairParams, bind_eq_ok, pure_eq_ok]
  refine ⟨some score, ?_, ?_⟩
  · rw [htext]
    exact hfloat
  · rw [← hrow]
    rfl

theorem names_rowMembers (row : PairRow) (score : Option JsString) :
    ((rowMembers row score).map fun f => Js.lit f.1) =
      ["id", "name", "scope", "mode", "secretHash", "pubJwk", "status", "created", "lastActive",
        "requests", "failedSigs", "cumulativeFailures", "firstFailureAt", "maxRequests", "kind",
        "canaryClass", "expiresAt"].map Js.lit :=
  rfl

theorem nodup_rowMembers (row : PairRow) (score : Option JsString) :
    ((rowMembers row score).map fun f => Js.lit f.1).Nodup := by
  rw [names_rowMembers]
  decide

theorem columnNumber_nullable (o : Option SafeNat) :
    (o.map fun n => (n.1 : ℤ)).elim .null columnNumber = nullableNat o := by
  cases o <;> rfl

theorem columnNumber_map (o : Option SafeNat) :
    (o.map fun n => (n.1 : ℤ)).map columnNumber = o.map SafeNat.toJs :=
  Option.map_map _ _ _

theorem readsFields_rowOf (p : CanonicalStoredPair) (score : Option JsString) :
    ReadsFields (presentFields (rowMembers (rowOf p) score)) p.columns := by
  have hfirst : ((p.firstFailureAt.join.map fun n => (n.1 : ℤ)).map columnNumber) =
      (p.firstFailureAt.join.map some).map nullableNat := by
    rw [columnNumber_map, Option.map_map]
    rfl
  refine readsFields_of (nodup_rowMembers _ _) ?_ ?_
  · rw [names_rowMembers]
    decide
  · intro f hf hne
    simp only [CanonicalStoredPair.members, CanonicalPairRegistration.members, List.cons_append,
      List.nil_append, List.mem_cons, List.not_mem_nil, or_false] at hf
    simp only [rowMembers, rowOf, columnNumber_nullable, columnNumber_map, hfirst]
    rcases hf with rfl | rfl | rfl | rfl | rfl | rfl | rfl | rfl | rfl | rfl | rfl | rfl | rfl | rfl |
      rfl | rfl | rfl
    all_goals simp [CanonicalStoredPair.columns, columnNumber, SafeNat.toJs, Function.comp_def] at hne ⊢

/-- **A row is read as the pair it was written from**, if its score is written as the same text. -/
theorem rowToPair_rowOf {p : CanonicalStoredPair} {text : JsString} {score : JsNumber}
    (htext : p.cumulativeFailures = some text) (hscored : p.Scored)
    (hrow : (rowOf p).cumulativeFailures = some score)
    (hdecimal : finiteNumberToDecimal score = .ok text) :
    rowToPair (rowOf p) = .ok p.columns.toStored := by
  have hread : ownValue (presentFields (rowMembers (rowOf p) (some text))) "cumulativeFailures" =
      .string text :=
    ownValue_presentFields (nodup_rowMembers _ _) (o := some (.string text)) (by simp [rowMembers])
  have hscore : scoreOf (.string text) true = .ok (some text) :=
    scoreOf_eq_ok.mpr ⟨rfl, fun t ht => hscored t (htext.trans ht)⟩
  have hnormal := normalizePair_of (readsFields_rowOf p (some text)) (hread ▸ hscore)
  simp only [rowToPair, bind_eq_ok, pure_eq_ok]
  refine ⟨some text, ?_, _, hnormal, ?_⟩
  · rw [hrow]
    show (databaseFloatToDecimal score).map some = _
    rw [databaseFloatToDecimal, hdecimal]
    rfl
  · rw [← htext]
    rfl

/-! ## Sealing -/

theorem scoreOf_of_normalizePair {fields : List (JsString × JsValue)} {cumulativeText : Bool}
    {p : CanonicalStoredPair} (h : normalizePair (.object fields) cumulativeText = .ok p) :
    scoreOf (ownValue fields "cumulativeFailures") cumulativeText = .ok p.cumulativeFailures := by
  simp only [normalizePair, bind_eq_ok, pure_eq_ok] at h
  obtain ⟨own, hown, reg, -, -, -, -, -, id, -, status, -, lastActive, -, firstFailureAt, -, score,
    hscore, created, -, requests, -, failedSigs, -, rfl⟩ := h
  obtain ⟨heq, -⟩ := dataObject_eq_ok.mp hown
  rw [JsValue.object.inj heq]
  exact hscore

namespace PairPayloadCodec

variable {codec : PairPayloadCodec} {nonce : Bytes} {aad : PairSetAad}

/-- **What sealing a pair depends on**: its identity and its name, and never its score. -/
theorem sealPair_isOk {p : CanonicalStoredPair} (hscored : p.Scored) (hbrief : p.Brief) :
    (∃ s, codec.sealPair nonce p aad = .ok s) ↔
      validateDomain aad.streamId = .ok () ∧ p.id.1 = aad.pairId ∧
        (∃ key, codec.key codec.keyring.activeKeyId = .ok key) ∧
        (∃ bytes, aadBytes codec.keyring.activeKeyId aad.members = .ok bytes) ∧
        Js.WellFormed p.name.1 := by
  have hnormal : ∀ q, normalizePair p.toJs true = .ok q ↔ q = p := by
    intro q
    rw [normalizePair_toJs]
    exact and_iff_left hscored
  simp only [sealPair, sealValue, bind_eq_ok, ensure_eq_ok, exists_unit, pure_eq_ok, hnormal,
    canonicalize_eq_ok]
  constructor
  · rintro ⟨s, hdomain, q, rfl, hid, key, hkey, bytes, hbytes, text, ⟨hcanon, -⟩, -⟩
    exact ⟨hdomain, hid, ⟨key, hkey⟩, ⟨bytes, hbytes⟩, (canonicalizable_pair hbrief).mp hcanon⟩
  · rintro ⟨hdomain, hid, ⟨key, hkey⟩, ⟨bytes, hbytes⟩, hname⟩
    exact ⟨_, hdomain, p, rfl, hid, key, hkey, bytes, hbytes, _,
      ⟨(canonicalizable_pair hbrief).mpr hname, rfl⟩, rfl⟩

/-- What was sealed of a pair opens as the pair. -/
theorem openPair_of_sealPair {p : CanonicalStoredPair} {s : SealedPairPayload}
    (hkeyring : codec.keyring.valid = true) (hnonce : nonce.length = 12)
    (hrestores : ∀ e, codec.encryptionOf nonce (.pair p.toJs aad) = .ok e → codec.aead.Restores e)
    (hs : codec.sealPair nonce p aad = .ok s) : codec.openPair s aad = .ok p := by
  rw [sealPair_eq] at hs
  obtain ⟨q, hq, hopen⟩ := openPair_sealRequest hkeyring hnonce hrestores hs
  rwa [(normalizePair_toJs.mp hq).1] at hopen

end PairPayloadCodec

/-! ## Survival -/

/-- A pair whose score went through text and came back as it was. -/
structure Survives (score : JsNumber) (p : CanonicalStoredPair) : Prop where
  /-- The pair has the decimal of the score, which is read back as the score. -/
  written : ∃ text, finiteNumberToDecimal score = .ok text ∧ p.cumulativeFailures = some text ∧
    p.toStored.cumulativeFailures = some score
  /-- Whether the pair can be sealed does not depend on the score. -/
  sealable : ∀ (codec : PairPayloadCodec) (nonce : Bytes) (aad : PairSetAad),
    (∃ s, codec.sealPair nonce p aad = .ok s) ↔
      ∃ s, codec.sealPair nonce { p with cumulativeFailures := none } aad = .ok s
  /-- What was sealed opens as the pair. -/
  opened : ∀ (codec : PairPayloadCodec) (nonce : Bytes) (aad : PairSetAad) (s : SealedPairPayload),
    codec.keyring.valid = true → nonce.length = 12 →
    (∀ e, codec.encryptionOf nonce (.pair p.toJs aad) = .ok e → codec.aead.Restores e) →
    codec.sealPair nonce p aad = .ok s → codec.openPair s aad = .ok p
  /-- The row of the pair has the score and is read as the pair. -/
  stored : pairParams p = .ok (rowOf p) ∧ (rowOf p).cumulativeFailures = some score ∧
    rowToPair (rowOf p) = .ok p.columns.toStored
  /-- The pair is normalized again as itself, with its score as text and as a number. -/
  normalized : normalizePair p.toJs true = .ok p ∧ normalizePair p.toStored.toJs false = .ok p

theorem survives {score : JsNumber} (h : Produced score) {fields : List (JsString × JsValue)}
    {p : CanonicalStoredPair} (hscore : ownValue fields "cumulativeFailures" = .number score)
    (hp : normalizePair (.object fields) false = .ok p) : Survives score p := by
  obtain ⟨x, text, rfl, hdecimal, hread⟩ := scoreText_produced h
  have htext : p.cumulativeFailures = some text := by
    have hown := scoreOf_of_normalizePair hp
    rw [hscore, hread] at hown
    exact (Except.ok.inj hown).symm
  have hpScored : p.Scored := by
    intro t ht
    rw [htext] at ht
    exact Option.some.inj ht ▸ hdecimal.score
  have hpBrief : p.Brief := by
    intro t ht
    rw [htext] at ht
    exact Option.some.inj ht ▸ ⟨hdecimal.ascii, hdecimal.short⟩
  have hstored : p.toStored.cumulativeFailures = some (.fin x) := by
    show p.cumulativeFailures.map Js.stringToNumber = _
    rw [htext, ← hdecimal.read]
    rfl
  obtain ⟨hparams, hrow⟩ := pairParams_of htext hdecimal.read rfl
  have hunscored : ({ p with cumulativeFailures := none } : CanonicalStoredPair).Scored ∧
      ({ p with cumulativeFailures := none } : CanonicalStoredPair).Brief :=
    ⟨fun _ ht => (by cases ht), fun _ ht => (by cases ht)⟩
  exact
    { written := ⟨text, hdecimal.written, htext, hstored⟩
      sealable := fun codec nonce aad =>
        (PairPayloadCodec.sealPair_isOk hpScored hpBrief).trans
          (PairPayloadCodec.sealPair_isOk hunscored.1 hunscored.2).symm
      opened := fun codec nonce aad s => PairPayloadCodec.openPair_of_sealPair
      stored := ⟨hparams, hrow, rowToPair_rowOf htext hpScored hrow hdecimal.written⟩
      normalized := ⟨normalizePair_toJs.mpr ⟨rfl, hpScored⟩, normalizePair_toStored hstored (htext ▸ hread)⟩ }

/-- The score of one failure after twenty windows. -/
def smallScore : JsNumber := .fin (1 / 1048576)

theorem produced_smallScore : Produced smallScore := by
  have hdiv : (JsNumber.fin 0).incr.div (JsNumber.fin 20).twoPow = smallScore := by decide +kernel
  exact hdiv ▸ (Produced.zero.raised).halved (by decide)

/-- What `String` makes of it. -/
theorem renders_small : Renders (1 / 1048576) (Js.lit "9.5367431640625e-7") (1 / 1048576) where
  form := Rendering.scientific (c := 95367431640625) true 7 (by decide)
  denotes := by decide +kernel
  reads := by decide +kernel
  zero := fun h => absurd h (by norm_num)

/-- The sample pair with the small score. -/
def scoredPair : CanonicalStoredPair :=
  { samplePair with cumulativeFailures := some (Js.lit "0.00000095367431640625") }

theorem normalizePair_scoredPair :
    ownValue (presentFields scoredPair.storedMembers) "cumulativeFailures" = .number smallScore ∧
      normalizePair (.object (presentFields scoredPair.storedMembers)) false = .ok scoredPair := by
  have hstored : scoredPair.toStored.cumulativeFailures = some smallScore := by decide +kernel
  have hscore : scoreOf (.number smallScore) false = .ok scoredPair.cumulativeFailures := by
    decide +kernel
  refine ⟨ownValue_storedMembers hstored, ?_⟩
  have hnormal := normalizePair_toStored hstored hscore
  rwa [toStored_toJs] at hnormal

/-- The sealing of the pair. -/
def scoredSeal : RecordedSeal where
  key := List.replicate 32 7
  nonce := List.replicate 12 9
  aad := sampleSeal.aad
  text := canonText scoredPair.toJs
  ciphertext := Js.fromBase64Url
    (Js.lit "XKfn5tuRtQTEQPEJysjAqrnFD5JAh4GlKc8v" ++ Js.lit "yqAGZAnx38XzzGIaIE-DlS9xB9XjSGevoiak" ++
    Js.lit "mHxQTS21MHcT4gkb22fuVc6Z6MzrHdvLvtd_" ++ Js.lit "mahJyG7mkV_UP-g7pTdAbxSz-r005mhWpLUk" ++
    Js.lit "SostZN9Pbgz046vKbbyqhiEqYpvv_HpJTYgk" ++ Js.lit "jCcAua4MjCnMP_tCBZM-sW5jB872npAt4W4L" ++
    Js.lit "oykPo0D3l3S2MzirV0SWy5T3A7Zge_iCxBVV" ++ Js.lit "AUsajWhSDUICWS9VUp7wpq7IXuw0aEE6XrwK" ++
    Js.lit "JgE93dB6KSsTyDR69KZLVO5tkMSN_6IzBmr6" ++ Js.lit "ruotLBWj__dhj3W9_hrM2OPknNf2r4zy4eUP" ++
    Js.lit "5VEDe-bi9cb3WoW_cr8t4uKMA4n3Eq-l_955" ++ Js.lit "G7Juoh61gFtCGFnuYsRCLOa5gJl0alWvaSyc" ++
    Js.lit "3SZLVYY4vd4eGHKnlU1UNgg2RjHXcLAjglhl" ++ Js.lit "UAJQ6h95qiR8ce-MV9fKgpzy-goUVipT15GY" ++
    Js.lit "dXYcwrqCXEUQtWErkDhXWNZL_vTV")
  tag := Js.fromBase64Url (Js.lit "l4ai7jehtAJOOT8ARqTAiw")
  tagged := by decide

/-- The encryption that was recorded. -/
def RecordedSeal.encryption (r : RecordedSeal) : Encryption where
  key := r.key
  nonce := r.nonce
  aad := r.aad
  text := r.text

theorem RecordedSeal.restores {r : RecordedSeal}
    (hlength : r.ciphertext.length = (Js.utf8 r.text).length) (htag : r.tag.length = 16) :
    r.aead.Restores r.encryption := by
  have hout : r.aead.output r.encryption = (r.ciphertext, r.tag) :=
    if_pos ⟨rfl, rfl, rfl, rfl⟩
  refine ⟨fun _ => ?_, ?_, ?_⟩
  · rw [hout]
    exact if_pos ⟨rfl, rfl, rfl, rfl, rfl⟩
  · rw [hout]
    exact hlength
  · rw [hout]
    exact htag

def scoredCodec : PairPayloadCodec where
  aead := scoredSeal.aead
  keyring := sampleStore.codec.keyring

theorem scored_key : scoredCodec.key scoredCodec.keyring.activeKeyId = .ok scoredSeal.key := by
  decide

theorem scored_restores (e : Encryption)
    (h : scoredCodec.encryptionOf scoredSeal.nonce (.pair scoredPair.toJs sampleAad) = .ok e) :
    scoredCodec.aead.Restores e := by
  obtain ⟨value, hclean, hkey, hnonce, haad, htext⟩ := PairPayloadCodec.encryptionOf_eq_ok.mp h
  simp only [PairPayloadCodec.clean, bind_eq_ok, ensure_eq_ok, exists_unit, pure_eq_ok] at hclean
  obtain ⟨-, q, hq, -, rfl⟩ := hclean
  obtain ⟨rfl, -⟩ := normalizePair_toJs.mp hq
  obtain ⟨aad, haad, haadBytes⟩ := PairPayloadCodec.aadBytes_eq_ok.mp haad
  have he : e = scoredSeal.encryption := by
    rw [scored_key] at hkey
    rw [(canonicalize_eq_ok.mp haad).2] at haadBytes
    cases e
    simp only [Encryption.mk.injEq, RecordedSeal.encryption]
    exact ⟨(Except.ok.inj hkey).symm, hnonce, haadBytes, (canonicalize_eq_ok.mp htext).2⟩
  have hlengths : scoredSeal.ciphertext.length = (Js.utf8 scoredSeal.text).length ∧
      scoredSeal.tag.length = 16 := by decide +kernel
  exact he ▸ RecordedSeal.restores hlengths.1 hlengths.2

theorem scored_sealed :
    ∃ s, scoredCodec.sealPair scoredSeal.nonce scoredPair sampleAad = .ok s := by
  have hscored : scoredPair.Scored := by
    intro text htext
    cases htext
    decide +kernel
  have hbrief : scoredPair.Brief := by
    intro text htext
    cases htext
    decide
  rw [PairPayloadCodec.sealPair_isOk hscored hbrief]
  refine ⟨by decide, rfl, ⟨_, scored_key⟩, ?_,
    (show Js.Ascii scoredPair.name.1 by decide).wellFormed⟩
  have hdata : (PairPayloadCodec.aadBytes (Js.lit "k1") sampleAad.members).isOk = true := by
    decide +kernel
  exact ⟨_, eq_ok_result _ hdata⟩

end Durable
