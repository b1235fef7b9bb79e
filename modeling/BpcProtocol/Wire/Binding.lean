import BpcProtocol.Js.Ascii
import BpcProtocol.Js.JsonParsed
import BpcProtocol.Pair.Failures
import BpcProtocol.Wire.Agreement

set_option autoImplicit false

/-! # What a signature binds

The signature is checked over the text that `canonicalize` writes of the parsed payload. That text tells
flat payloads apart, but for infinite numbers, which are written as `null`; and no value that the
verifier has checked is one. -/

namespace Wire

open Fallible Async Pair
open Js (Json Genuine image)

/-! ## The signed text -/

theorem checkMember_eq_ok {member : JsString × JsValue} (h : checkMember member = .ok ()) :
    isNested member.2 = false := by
  obtain ⟨_, -, hflat⟩ := (bind_eq_ok _ _ _).mp h
  exact (require_eq_ok _ _ _).mp hflat

/-- What `canonicalize` accepts, and what it writes. -/
theorem canonicalize_eq_ok {v : JsValue} {t : JsString} (h : canonicalize v = .ok t) :
    ∃ fields, v = .object fields ∧ (∀ member ∈ fields, isNested member.2 = false) ∧
      Js.stringify (.object (sortedMembers fields)) = some t := by
  cases v with
  | object fields =>
      obtain ⟨_, hchecks, htext⟩ := (bind_eq_ok _ _ _).mp h
      refine ⟨fields, rfl, fun member hmember => ?_, ?_⟩
      · exact checkMember_eq_ok
          (forM_eq_ok.mp hchecks member ((List.mem_insertionSort Ha.keyLe).mpr hmember))
      · rw [← Except.ok.inj htext, Js.stringify, Option.getD_some]
  | _ => cases h

theorem canonicalize_wellFormed {v : JsValue} {t : JsString} (h : canonicalize v = .ok t) :
    Js.WellFormed t := by
  obtain ⟨fields, -, -, htext⟩ := canonicalize_eq_ok h
  exact Js.stringify_wellFormed htext

theorem flat_get_of_canonicalize {v : JsValue} {t : JsString} (h : canonicalize v = .ok t)
    (key : JsString) : isNested (v.get key) = false := by
  obtain ⟨fields, rfl, hflat, -⟩ := canonicalize_eq_ok h
  rw [JsValue.get]
  cases hfind : fields.find? fun f => f.1 == key with
  | none => rfl
  | some f => exact hflat f (List.mem_of_find?_eq_some hfind)

/-- The text of a payload says what each property is, as far as JSON writes it. -/
theorem parse_canonicalize {v : JsValue} (hv : Genuine v) {t : JsString}
    (h : canonicalize v = .ok t) : ∃ parsed, Js.parseJson t = some parsed ∧
      ∀ key, parsed.get key = (image (v.get key)).getD .undefined := by
  obtain ⟨fields, rfl, -, htext⟩ := canonicalize_eq_ok h
  cases hv with
  | object hnodup hfields =>
      have hperm : (sortedMembers fields).Perm fields := List.perm_insertionSort Js.ownLe fields
      have hsorted := ((hperm.map Prod.fst).nodup_iff).mpr hnodup
      have hgenuine : Genuine (.object (sortedMembers fields)) :=
        .object hsorted fun f hf => hfields f (hperm.mem_iff.mp hf)
      have hparse := hgenuine.parse_stringify
      rw [htext, Option.bind_some, Js.image_object] at hparse
      refine ⟨_, hparse, fun key => ?_⟩
      rw [Js.get_imageFields hsorted, Js.get_of_perm hsorted hperm]

/-- Payloads of one text have the same properties, as far as JSON writes them. -/
theorem image_get_of_canonicalize {v w : JsValue} (hv : Genuine v) (hw : Genuine w) {t : JsString}
    (h : canonicalize v = .ok t) (h' : canonicalize w = .ok t) (key : JsString) :
    image (v.get key) = image (w.get key) := by
  obtain ⟨x, hx, hget⟩ := parse_canonicalize hv h
  obtain ⟨y, hy, hget'⟩ := parse_canonicalize hw h'
  obtain rfl : x = y := Option.some.inj (hx.symm.trans hy)
  exact Js.getD_image_inj ((hget key).symm.trans (hget' key))

/-- A property that JSON writes as it is. -/
def Written (v : JsValue) : Prop :=
  image v = some v ∧ isNested v = false ∧ v ≠ .null

theorem Written.eq_of_image {v w : JsValue} (h : Written v) (hw : image w = image v) : w = v := by
  obtain ⟨hv, hflat, hnull⟩ := h
  rw [hv] at hw
  cases w with
  | number n =>
      rw [image] at hw
      split at hw
      · exact Option.some.inj hw
      · exact absurd (Option.some.inj hw).symm hnull
  | array items =>
      rw [← Option.some.inj hw] at hflat
      cases hflat
  | object fields =>
      rw [← Option.some.inj hw] at hflat
      cases hflat
  | undefined => cases hw
  | other => cases hw
  | _ => exact Option.some.inj hw

theorem written_bool (b : Bool) : Written (.bool b) := by
  refine ⟨rfl, rfl, ?_⟩
  intro h
  cases h

theorem written_string (s : JsString) : Written (.string s) := by
  refine ⟨rfl, rfl, ?_⟩
  intro h
  cases h

theorem written_number {n : JsNumber} (h : n.isFinite = true) : Written (.number n) := by
  refine ⟨by rw [image, if_pos h], rfl, ?_⟩
  intro h
  cases h

/-! ## What is checked -/

theorem eq_ok_of_toOption {ε α : Type} {x : Except ε α} {a : α} (h : x.toOption = some a) :
    x = .ok a := by
  cases x with
  | error e => cases h
  | ok b => rw [Option.some.inj h]

theorem string_of_stringOf {v : JsValue} {s : JsString} (h : stringOf v = some s) : v = .string s := by
  cases v with
  | string t => rw [Option.some.inj h]
  | _ => cases h

theorem json_of_decodePayload {signedData : JsString} {payload : JsValue}
    (h : decodePayload signedData = some payload) : Json payload := by
  obtain ⟨text, -, h⟩ := Option.bind_eq_some_iff.mp h
  obtain ⟨_, -, hparse⟩ := Option.bind_eq_some_iff.mp h
  exact Js.json_of_parse hparse

/-- A request whose check has passed: its headers, the pair that it was admitted on, and the payload with
    the time at which it was compared. -/
abbrev PassedCheck := Headers × (AuthorizationContext × JsNumber) × SignedPayload × JsNumber

/-- The payload is about these values: those that the verifier has checked. -/
structure Binds (payload : JsValue) (req : BPCRequestData) (passed : PassedCheck) : Prop where
  method : payload.get (Js.lit "method") = .string req.method
  path : payload.get (Js.lit "path") = .string req.path
  pairId : ∃ pairId, req.pairId = some pairId ∧ payload.get (Js.lit "pair_id") = .string pairId
  version : payload.get (Js.lit "version") = .string bpcProtocolVersion
  bodyHash : ∃ hash, req.bodyHash = some hash ∧ payload.get (Js.lit "body_hash") = .string hash
  nonce : payload.get (Js.lit "nonce") = .string passed.2.2.1.nonce
  timestamp : payload.get (Js.lit "timestamp") = .number passed.2.2.1.timestamp
  secretHmac : payload.get (Js.lit "secret_hmac") =
    passed.2.2.1.payload.get (Js.lit "secret_hmac")

theorem eq_of_differs {payload : JsValue} {key : String} {s : JsString}
    (h : differs payload key (.string s) = false) : payload.get (Js.lit key) = .string s := by
  rw [differs, Bool.not_eq_false'] at h
  generalize payload.get (Js.lit key) = v at h
  cases v with
  | string t => rw [eq_of_beq h]
  | _ => cases h

/-- The checks up to the signature. -/
theorem checkRequest_follows {registry : RegistryConfig} {cfg : VerifierConfig} {req : BPCRequestData} :
    Stage.Follows (May cfg req)
      (fun h passed => Checked cfg req h passed.1 passed.2.1.1 passed.2.2.1 passed.2.2.2)
      (fun _ _ => True) (checkRequest registry cfg req) [] := by
  have hstages : checkRequest registry cfg req = (admission registry cfg req >>= fun a =>
      verifySignedPayload registry cfg req a.1 a.2.1 >>= fun verified =>
        pure (a.1, a.2, verified)) := by
    simp only [checkRequest, admission, Stage.bind_assoc]
    rfl
  rw [hstages]
  refine Stage.Follows.bind (admission_follows.exits_mono fun _ _ _ => trivial) ?_
  intro h a _ hadmission
  obtain ⟨hadmitted, hactive⟩ := hadmission
  refine Stage.Follows.bind ((verifySignedPayload_follows hadmitted hactive).exits_mono
    fun _ _ _ => trivial) ?_
  intro h' verified _ hverified
  obtain ⟨_, hchecked, _⟩ := hverified
  exact Stage.follows_pure hchecked

section Binding

variable {PrivateKey PublicKey : Type} (c : WebCrypto PrivateKey PublicKey)

/-- The package answers in this history what it computes. -/
structure Computes (h : ServerHistory) : Prop where
  secret : ∀ key nonce timestamp secretHmac (x : Bool),
    Answered h (.verifySecretHmac key nonce timestamp secretHmac) x →
      x = verifySecretHmac c key nonce timestamp secretHmac
  signature : ∀ jwk payload signature (x : Except ServerError Bool),
    Answered h (.verifyPayload jwk payload signature) x →
      x = (crypto c).verifyPayload jwk payload signature

/-- Of each key the payloads that its holder has signed: no other text has a signature. -/
structure Unforgeable (signed : PublicKey → JsValue → Prop) : Prop where
  genuine : ∀ {publicKey payload}, signed publicKey payload → Genuine payload
  verified : ∀ {publicKey sigBuf data}, c.verify publicKey sigBuf data = true →
    ∃ payload text, signed publicKey payload ∧ canonicalize payload = .ok text ∧ Js.utf8 text = data

variable {c} {signed : PublicKey → JsValue → Prop}

/-- A signature that verifies is of a payload with the same properties, as far as JSON writes them. -/
theorem exists_signed (hunforgeable : Unforgeable c signed) {jwk : JsonWebKey} {payload : JsValue}
    {signature : JsString} (hpayload : Genuine payload)
    (h : (crypto c).verifyPayload jwk payload signature = .ok true) :
    ∃ publicKey source, c.importPublicKey jwk = .ok publicKey ∧ signed publicKey source ∧
      (∀ key, isNested (payload.get key) = false) ∧
      ∀ key, image (source.get key) = image (payload.get key) := by
  obtain ⟨publicKey, hkey, hvalid⟩ := (bind_eq_ok _ _ _).mp h
  have hvalid : verifyPayload c publicKey payload signature = true := Except.ok.inj hvalid
  obtain ⟨text, htext, hsig⟩ := (Option.any_eq_true _ _).mp hvalid
  obtain ⟨sigBuf, -, hverified⟩ := (Option.any_eq_true _ _).mp hsig
  have htext := eq_ok_of_toOption htext
  obtain ⟨source, text', hsource, htext', hbytes⟩ := hunforgeable.verified hverified
  obtain rfl := Js.utf8_injective (canonicalize_wellFormed htext') (canonicalize_wellFormed htext)
    hbytes
  exact ⟨publicKey, source, hkey, hsource, flat_get_of_canonicalize htext,
    image_get_of_canonicalize (hunforgeable.genuine hsource) hpayload htext' htext⟩

/-- No MAC has the text of an infinite number. -/
theorem finite_of_verifySecretHmac (hmac : ∀ key data, (c.hmac key data).length = 32)
    {key nonce : JsString} {timestamp n : JsNumber} (hn : n ≠ .nan)
    (h : verifySecretHmac c key nonce timestamp (.number n) = true) : n.isFinite = true := by
  have hderived := (Bool.and_eq_true_iff.mp h).2
  obtain ⟨expected, hexpected, hsame⟩ := (Option.any_eq_true _ _).mp hderived
  have hlength : expected.length = 43 := by
    have hderive : hmacDerive c key (nonce ++ Js.numberText timestamp) = .ok expected :=
      eq_ok_of_toOption hexpected
    obtain ⟨_, -, hderive⟩ := (bind_eq_ok _ _ _).mp hderive
    obtain ⟨keyBytes, -, hderive⟩ := (bind_eq_ok _ _ _).mp hderive
    rw [← Except.ok.inj hderive, length_b64url, hmac]
  have hinfinite : ∀ s : JsString, Js.Ascii s → s.length ≠ 43 →
      Js.toText (.number n) = s → False := by
    intro s hs hne htext
    rw [htext] at hsame
    rw [hs.eq_of_utf8 (eq_of_beq hsame)] at hlength
    exact hne hlength
  cases n with
  | fin q => rfl
  | nan => exact absurd rfl hn
  | posInf => exact (hinfinite (Js.lit "Infinity") (by decide) (by decide) rfl).elim
  | negInf => exact (hinfinite (Js.lit "-Infinity") (by decide) (by decide) rfl).elim

/-- The HMAC that was checked is written as it is. -/
theorem written_secretHmac (hmac : ∀ key data, (c.hmac key data).length = 32)
    {key nonce : JsString} {timestamp : JsNumber} {v : JsValue} (hv : v = .undefined ∨ Json v)
    (hflat : isNested v = false) (h : verifySecretHmac c key nonce timestamp v = true) :
    Written v := by
  have htruthy : truthy v = true := by
    simp only [verifySecretHmac, Bool.and_eq_true] at h
    exact h.1.1.1.2
  rcases hv with rfl | hv
  · cases htruthy
  · cases hv with
    | null => cases htruthy
    | bool b => exact written_bool b
    | number hn _ => exact written_number (finite_of_verifySecretHmac hmac hn h)
    | string s => exact written_string s
    | array _ => cases hflat
    | object _ _ => cases hflat

/-- What the verifier has checked is what the holder of the key has signed. -/
theorem exists_bound (hunforgeable : Unforgeable c signed)
    (hmac : ∀ key data, (c.hmac key data).length = 32) {cfg : VerifierConfig} {req : BPCRequestData}
    {es : ServerHistory} {passed : PassedCheck} (hcomputes : Computes c es)
    (hchecked : Checked cfg req es passed.1 passed.2.1.1 passed.2.2.1 passed.2.2.2) :
    ∃ publicKey source, c.importPublicKey passed.2.1.1.pubJwk = .ok publicKey ∧
      signed publicKey source ∧ Binds source req passed := by
  obtain ⟨headers, admitted, ⟨payload, nonce, timestamp⟩, now⟩ := passed
  have hpayload : Json payload := json_of_decodePayload hchecked.decodes.decoded
  obtain ⟨publicKey, source, hkey, hsource, hflat, himage⟩ := exists_signed hunforgeable
    hpayload.genuine (hcomputes.signature _ _ _ _ hchecked.signature).symm
  have hsecret := written_secretHmac hmac (hpayload.get _) (hflat _)
    (hcomputes.secret _ _ _ _ _ hchecked.secret).symm
  have htext : ∀ {key : String} {s : JsString}, payload.get (Js.lit key) = .string s →
      source.get (Js.lit key) = .string s := fun hs =>
    (written_string _).eq_of_image (hs ▸ himage _)
  have hbound := hchecked.bound
  obtain ⟨hash, hpayloadHash, hreqHash⟩ := hbound.body
  obtain ⟨hpayloadHash, -⟩ := (Option.filter_eq_some_iff).mp hpayloadHash
  obtain ⟨hreqHash, -⟩ := (Option.filter_eq_some_iff).mp hreqHash
  obtain ⟨hnonce, -⟩ := (Option.filter_eq_some_iff).mp hchecked.decodes.nonce
  obtain ⟨htime, hfinite⟩ := number_of_finiteNumber hchecked.decodes.timestamp
  refine ⟨publicKey, source, hkey, hsource, ?_⟩
  exact
    { method := htext (eq_of_differs hbound.method)
      path := htext (eq_of_differs hbound.path)
      pairId := ⟨headers.pairId, hchecked.named.pairId, htext (eq_of_differs hbound.pairId)⟩
      version := htext (eq_of_differs hbound.version)
      bodyHash := ⟨hash, hreqHash, htext (string_of_stringOf hpayloadHash)⟩
      nonce := htext (string_of_stringOf hnonce)
      timestamp := (written_number hfinite).eq_of_image (htime ▸ himage _)
      secretHmac := hsecret.eq_of_image (himage _) }

/-! ## Other payloads -/

/-- A value that is written as `null`. -/
inductive WritesNull : JsValue → Prop
  | null : WritesNull .null
  | infinite {n : JsNumber} : n.isFinite = false → WritesNull (.number n)

/-- A flat value of JSON that is there is written as it is or as `null`. -/
theorem written_or_null {v : JsValue} (hv : Json v) (hflat : isNested v = false) :
    Written v ∨ WritesNull v := by
  cases hv with
  | null => exact .inr .null
  | bool b => exact .inl (written_bool b)
  | @number n _ _ =>
      cases hn : n.isFinite with
      | true => exact .inl (written_number hn)
      | false => exact .inr (.infinite hn)
  | string s => exact .inl (written_string s)
  | array _ => cases hflat
  | object _ _ => cases hflat

theorem WritesNull.image_eq {v : JsValue} (h : WritesNull v) : image v = some .null := by
  cases h with
  | null => rfl
  | infinite hn => rw [image, hn, if_neg Bool.false_ne_true]

/-- Flat values that are written alike are equal, or both are written as `null`. -/
theorem eq_or_writesNull {v w : JsValue} (hv : v = .undefined ∨ Json v) (hw : w = .undefined ∨ Json w)
    (hvflat : isNested v = false) (hwflat : isNested w = false) (h : image v = image w) :
    v = w ∨ WritesNull v ∧ WritesNull w := by
  rcases hv with rfl | hv
  · rcases hw with rfl | hw
    · exact .inl rfl
    · rcases written_or_null hw hwflat with hwritten | hnull
      · exact .inl (hwritten.eq_of_image h)
      · rw [hnull.image_eq] at h
        cases h
  · rcases written_or_null hv hvflat with hwritten | hnull
    · exact .inl (hwritten.eq_of_image h.symm).symm
    · rcases hw with rfl | hw
      · rw [hnull.image_eq] at h
        cases h
      · rcases written_or_null hw hwflat with hwritten | hnull'
        · exact .inl (hwritten.eq_of_image h)
        · exact .inr ⟨hnull, hnull'⟩

/-- **The signature binds a request**: what the verifier has checked is what the holder of the pair's key
    has signed; and flat payloads that differ in one of these fields are signed as different bytes, but
    where both values are written as `null`. -/
theorem request_binding (hunforgeable : Unforgeable c signed)
    (hmac : ∀ key data, (c.hmac key data).length = 32) {registry : RegistryConfig}
    {cfg : VerifierConfig} {req : BPCRequestData} {es : ServerHistory} {passed : PassedCheck}
    (hpasses : Stage.Passes (checkRequest registry cfg req) es passed) (hcomputes : Computes c es) :
    (Found es passed.1.pairId passed.2.1.1 ∧ ∃ publicKey source,
      c.importPublicKey passed.2.1.1.pubJwk = .ok publicKey ∧ signed publicKey source ∧
        Binds source req passed) ∧
    ∀ {text text' t u : JsString} {v w : JsValue}, Js.parseJson text = some v →
      Js.parseJson text' = some w → canonicalize v = .ok t → canonicalize w = .ok u →
      ∀ name ∈ payloadKeys, v.get (Js.lit name) ≠ w.get (Js.lit name) →
        ¬(WritesNull (v.get (Js.lit name)) ∧ WritesNull (w.get (Js.lit name))) →
          Js.utf8 t ≠ Js.utf8 u := by
  have hchecked := (Trace.returns hpasses checkRequest_follows).1 passed rfl
  refine ⟨⟨hchecked.found, exists_bound hunforgeable hmac hcomputes hchecked⟩, ?_⟩
  intro text text' t u v w hv hw ht hu name _ hdiffer hnull hbytes
  have hv := Js.json_of_parse hv
  have hw := Js.json_of_parse hw
  obtain rfl := Js.utf8_injective (canonicalize_wellFormed ht) (canonicalize_wellFormed hu) hbytes
  rcases eq_or_writesNull (hv.get _) (hw.get _) (flat_get_of_canonicalize ht _)
    (flat_get_of_canonicalize hu _) (image_get_of_canonicalize hv.genuine hw.genuine ht hu _)
    with heq | hboth
  · exact hdiffer heq
  · exact hnull hboth

end Binding

/-! ## A signed request -/

/-- What the operations of a run answer. -/
theorem computes_of_runs {PrivateKey PublicKey : Type} {c : WebCrypto PrivateKey PublicKey}
    {s t : ServerState} {es : ServerHistory} (hrun : Runs (ServerExec (crypto c)) s es t) :
    Computes c es where
  secret key nonce timestamp secretHmac x h := by
    obtain ⟨u, v, hexec⟩ := hrun.exec_of_mem h
    cases hexec
    rfl
  signature jwk payload signature x h := by
    obtain ⟨u, v, hexec⟩ := hrun.exec_of_mem h
    cases hexec
    rfl

/-- The payload of `GET /`. -/
def rootPayload : RequestPayload :=
  (sampleExchange (Js.lit "/") rootSignature).payload [] (b64url sampleTag)

/-- The runtime where the holder of the key has signed this payload only. -/
def rootCrypto : WebCrypto Unit Unit :=
  { sampleCrypto rootSignature with verify := fun _ _ data => decide (data = Js.utf8 rootPayload.text) }

theorem root_unforgeable :
    Unforgeable rootCrypto fun (_ : Unit) payload => payload = rootPayload.toJs where
  genuine := by
    rintro _ payload rfl
    exact .of_check (by decide +kernel)
  verified := by
    intro _ sigBuf data h
    exact ⟨_, _, rfl, canonicalize_payload rootPayload, (of_decide_eq_true h).symm⟩

/-- The request as it arrives. -/
def rootRequest : BPCRequestData :=
  (sampleExchange (Js.lit "/") rootSignature).request
    ⟨samplePair.id, b64url rootSignature, b64url (Js.utf8 rootPayload.text), bpcProtocolVersion⟩ []

/-- A server that stores the pair. -/
def rootServer : ServerState where
  store := MemoryPairStore.empty.setPair samplePair.id samplePair
  tracker := .empty
  now := 1700000000000

/-- The checks of this request, by a verifier with the components of `sampleVerifier`. -/
def rootChecks : ServerProg (Except BPCVerifyResult PassedCheck) :=
  ExceptT.run (checkRequest ⟨.fin 9, .fin 9⟩ sampleVerifier rootRequest)

/-- The check that has passed. -/
def passedCheck? : ServerProg (Except BPCVerifyResult PassedCheck) → Option PassedCheck
  | .ret (.ok passed) => some passed
  | _ => none

theorem ret_of_passedCheck {prog : ServerProg (Except BPCVerifyResult PassedCheck)}
    {passed : PassedCheck} (h : passedCheck? prog = some passed) : prog = .ret (.ok passed) := by
  unfold passedCheck? at h
  split at h
  · rw [Option.some.inj h]
  · cases h

theorem root_passes : ∃ es passed,
    Stage.Passes (checkRequest ⟨.fin 9, .fin 9⟩ sampleVerifier rootRequest) es passed ∧
      Computes rootCrypto es := by
  obtain ⟨es, htrace, hrun, -⟩ := Prog.runs_drive (ServerState.exec_perform (crypto rootCrypto))
    rootChecks rootServer 0 []
  have hends : (passedCheck?
      (rootChecks.drive (ServerState.perform (crypto rootCrypto)) 0 rootServer []).1).isSome = true := by
    decide +kernel
  obtain ⟨passed, hpassed⟩ := Option.isSome_iff_exists.mp hends
  rw [ret_of_passedCheck hpassed] at htrace
  exact ⟨es, passed, htrace, computes_of_runs hrun⟩

theorem root_bound : ∃ es passed, Found es passed.1.pairId passed.2.1.1 ∧
    Binds rootPayload.toJs rootRequest passed := by
  obtain ⟨es, passed, hpasses, hcomputes⟩ := root_passes
  have hmac : ∀ key data, (rootCrypto.hmac key data).length = 32 := fun _ _ =>
    show sampleTag.length = 32 by decide
  obtain ⟨⟨hfound, _, source, -, rfl, hbinds⟩, -⟩ :=
    request_binding root_unforgeable hmac hpasses hcomputes
  exact ⟨es, passed, hfound, hbinds⟩

/-- A timestamp that is too large is signed as no timestamp is. -/
theorem infinite_timestamp_unbound : ∃ v w t,
    Js.parseJson (Js.lit "\x7b\"timestamp\":1e309\x7d") = some v ∧
      Js.parseJson (Js.lit "\x7b\"timestamp\":null\x7d") = some w ∧
      canonicalize v = .ok t ∧ canonicalize w = .ok t ∧
      v.get (Js.lit "timestamp") ≠ w.get (Js.lit "timestamp") := by
  have hinfinite : (Js.parseJson (Js.lit "\x7b\"timestamp\":1e309\x7d")).any (fun v =>
      decide ((canonicalize v).toOption = some (Js.lit "\x7b\"timestamp\":null\x7d")) &&
        decide (Js.toText (v.get (Js.lit "timestamp")) = Js.lit "Infinity")) = true := by
    decide +kernel
  have hnull : (Js.parseJson (Js.lit "\x7b\"timestamp\":null\x7d")).any (fun w =>
      decide ((canonicalize w).toOption = some (Js.lit "\x7b\"timestamp\":null\x7d")) &&
        decide (Js.toText (w.get (Js.lit "timestamp")) = Js.lit "null")) = true := by
    decide +kernel
  obtain ⟨v, hparse, hv⟩ := (Option.any_eq_true _ _).mp hinfinite
  obtain ⟨w, hparse', hw⟩ := (Option.any_eq_true _ _).mp hnull
  rw [Bool.and_eq_true, decide_eq_true_eq, decide_eq_true_eq] at hv hw
  refine ⟨v, w, _, hparse, hparse', eq_ok_of_toOption hv.1, eq_ok_of_toOption hw.1, ?_⟩
  intro heq
  have hinfinity := hv.2
  rw [heq, hw.2] at hinfinity
  exact absurd hinfinity (by decide)

end Wire
