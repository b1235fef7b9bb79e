import BpcProtocol.Wire.Client

set_option autoImplicit false

/-! # The Python client

`sign_request` signs the text that `json.dumps` writes, in ASCII. The receiver parses that text and
verifies the signature over the text that `canonicalize` writes. The two differ outside of a part of
ASCII. -/

namespace Wire

open Fallible Pair

/-! ## Python strings -/

/-- A character of a Python string: any code point, surrogates included. -/
abbrev PyChar := {n : ℕ // Js.IsCodePoint n}

abbrev PyString := List PyChar

namespace PyString

/-- The code units of a string. -/
def units (s : PyString) : JsString :=
  s.flatMap fun c => Js.codeUnits c.1

/-- The Python string of code units. -/
def ofUnits (s : JsString) : PyString :=
  s.map fun u => ⟨u.toNat, Nat.lt_trans u.toNat_lt (by decide)⟩

/-- A string literal. -/
def lit (s : String) : PyString :=
  ofUnits (Js.lit s)

/-- `s.encode()`, `none` where it raises: a surrogate has no encoding. -/
def encode (s : PyString) : Option Bytes :=
  if s.all fun c => c.1 < 0xD800 || 0xDFFF < c.1 then some (s.flatMap fun c => Js.utf8CodePoint c.1)
  else none

/-- The order of strings: by code point. -/
def le (s t : PyString) : Prop :=
  s.map Subtype.val ≤ t.map Subtype.val

instance (s t : PyString) : Decidable (s.le t) :=
  inferInstanceAs (Decidable (s.map Subtype.val ≤ t.map Subtype.val))

end PyString

/-! ## `json.dumps` -/

/-- One code unit of a JSON string in ASCII: `ESCAPE_DCT`, a printable character as it is, and
    `\uXXXX`. A character of two code units is written as two escapes. -/
def escapeAscii (u : UInt16) : JsString :=
  if u = 92 then [92, 92]
  else if u = 34 then [92, 34]
  else if u = 8 then [92, 98]
  else if u = 12 then [92, 102]
  else if u = 10 then [92, 110]
  else if u = 13 then [92, 114]
  else if u = 9 then [92, 116]
  else if 32 ≤ u.toNat ∧ u.toNat ≤ 126 then [u]
  else Js.unicodeEscape u

/-- A JSON string in ASCII. -/
def quoteAscii (s : PyString) : JsString :=
  34 :: s.units.flatMap escapeAscii ++ [34]

/-- The values of the payload. -/
inductive PyValue where
  | str (s : PyString)
  | int (n : ℤ)

def PyValue.dumps : PyValue → JsString
  | str s => quoteAscii s
  | int n => Js.decimal n

/-- The order of the items of a dictionary. -/
def itemLe (a b : PyString × PyValue) : Prop :=
  a.1.le b.1

instance : DecidableRel itemLe := fun a b => inferInstanceAs (Decidable (a.1.le b.1))

/-- `json.dumps(dct, sort_keys=True, separators=(",", ":"))`, of distinct keys. -/
def dumps (dct : List (PyString × PyValue)) : JsString :=
  123 :: Js.commas ((dct.insertionSort itemLe).map fun item =>
    quoteAscii item.1 ++ 58 :: item.2.dumps) ++ [125]

/-! ## `sign_request` -/

/-- The payload of a request, but for its version, which is a constant. -/
structure PyPayload where
  bodyHash : PyString
  method : PyString
  nonce : PyString
  pairId : PyString
  path : PyString
  secretHmac : PyString
  timestamp : ℤ

namespace PyPayload

variable (p : PyPayload)

def dict : List (PyString × PyValue) :=
  [(.lit "body_hash", .str p.bodyHash), (.lit "method", .str p.method), (.lit "nonce", .str p.nonce),
    (.lit "pair_id", .str p.pairId), (.lit "path", .str p.path),
    (.lit "secret_hmac", .str p.secretHmac), (.lit "timestamp", .int p.timestamp),
    (.lit "version", .str (.lit "1.0"))]

/-- `canonical.encode()`: the bytes that are signed. -/
def canonicalBytes : Bytes :=
  Js.utf8 (dumps p.dict)

/-- `_b64url(canonical_bytes)`. -/
def signedData : JsString :=
  b64url p.canonicalBytes

/-- The payload that the receiver reads. -/
def received : Option JsValue :=
  (Js.atob (Js.base64UrlPadded p.signedData)).bind Js.parseJson

end PyPayload

section SignRequest

variable {PrivateKey PublicKey : Type} (c : WebCrypto PrivateKey PublicKey)

/-- `compute_body_hash(body)`. -/
def computeBodyHash (body : Option Bytes) : PyString :=
  .ofUnits (hashOf c (body.getD []))

/-- `derive_secret_key(secret)`, `none` where it raises. -/
def deriveSecretKey (secret : PyString) : Option JsString :=
  if secret = [] then none
  else secret.encode.map fun bytes => b64url (c.deriveBits bytes hkdfSalt hkdfInfo)

/-- `derive_secret_hmac(secret, nonce, timestamp)`, `none` where it raises. -/
def deriveSecretHmac (secret nonce : PyString) (timestamp : ℤ) : Option PyString := do
  let message ← PyString.encode (nonce ++ .ofUnits (Js.decimal timestamp))
  let derived ← deriveSecretKey c secret
  let key ← b64urlDecode derived
  pure (.ofUnits (b64url (c.hmac key message)))

/-- The headers that `sign_request` returns. -/
structure PySignedHeaders where
  pairId : PyString
  signature : JsString
  signedData : JsString
  version : JsString

/-- `sign_request(private_key, pair_id, secret, method, path, body)`, with the nonce and the time it
    takes and with `str.upper`; `none` where it raises. -/
def signRequest (upper : PyString → PyString) (privateKey : PrivateKey)
    (pairId secret method path : PyString) (body : Option Bytes) (nonce : PyString) (timestamp : ℤ) :
    Option PySignedHeaders := do
  let secretHmac ← deriveSecretHmac c secret nonce timestamp
  let payload : PyPayload :=
    { bodyHash := computeBodyHash c body, method := upper method, nonce, pairId, path, secretHmac
      timestamp }
  pure
    { pairId
      signature := b64url (c.sign privateKey payload.canonicalBytes)
      signedData := payload.signedData
      version := Js.lit "1.0" }

end SignRequest

/-! ## What is read of a payload -/

/-- The payload as it is in JavaScript: a timestamp is the double next to it. -/
def PyPayload.toRequest (p : PyPayload) : RequestPayload where
  bodyHash := p.bodyHash.units
  method := p.method.units
  nonce := p.nonce.units
  pairId := p.pairId.units
  path := p.path.units
  secretHmac := p.secretHmac.units
  timestamp := Js.ofRat p.timestamp

theorem parseChars_escapeAscii (u : UInt16) (rest : JsString) :
    Js.parseChars (escapeAscii u ++ rest) = (Js.parseChars rest).map (Js.consUnit u) := by
  have hshort : ∀ {e : UInt16}, e ≠ 117 → Js.shortEscape e = some u →
      Js.parseChars ([92, e] ++ rest) = (Js.parseChars rest).map (Js.consUnit u) :=
    fun he h => Js.parseChars_shortEscape rest he h
  unfold escapeAscii
  split_ifs with h92 h34 h8 h12 h10 h13 h9 hprintable
  · exact hshort (by decide) (by rw [h92]; decide)
  · exact hshort (by decide) (by rw [h34]; decide)
  · exact hshort (by decide) (by rw [h8]; decide)
  · exact hshort (by decide) (by rw [h12]; decide)
  · exact hshort (by decide) (by rw [h10]; decide)
  · exact hshort (by decide) (by rw [h13]; decide)
  · exact hshort (by decide) (by rw [h9]; decide)
  · refine Js.parseChars_plain rest h34 h92 ?_
    rw [UInt16.lt_iff_toNat_lt]
    exact Nat.not_lt.mpr hprintable.1
  · exact Js.parseChars_unicodeEscape u rest

/-- A string reads back, from behind its opening quote. -/
theorem parseChars_ascii (s rest : JsString) :
    Js.parseChars (s.flatMap escapeAscii ++ 34 :: rest) = some (s, rest) := by
  induction s with
  | nil => rfl
  | cons u tail ih =>
      rw [List.flatMap_cons, List.append_assoc, parseChars_escapeAscii, ih]
      rfl

theorem reads_quoteAscii (s : PyString) : Js.Reads (.string s.units) (quoteAscii s) where
  head := ⟨34, _, rfl, by decide, by decide, by decide⟩
  parse fuel hfuel rest hrest := by
    obtain ⟨fuel, rfl⟩ : ∃ k, fuel = k + 1 := ⟨fuel - 1, by simp [quoteAscii] at hfuel; omega⟩
    have hq : quoteAscii s ++ rest = 34 :: (s.units.flatMap escapeAscii ++ 34 :: rest) := by
      simp [quoteAscii]
    rw [hq, Js.parseValue, Js.skipSpace_cons (by decide)]
    simp only [parseChars_ascii, Option.map_some]

/-- The texts of the strings of a payload. -/
def PyPayload.strings (p : PyPayload) : List (String × PyString) :=
  [("body_hash", p.bodyHash), ("method", p.method), ("nonce", p.nonce), ("pair_id", p.pairId),
    ("path", p.path), ("secret_hmac", p.secretHmac)]

/-- The members of a payload as Python writes them. -/
def PyPayload.memberTexts (p : PyPayload) : List JsString :=
  (p.strings.map fun f => Js.memberText (Js.lit f.1) (quoteAscii f.2)) ++
    [Js.memberText (Js.lit "timestamp") (Js.decimal p.timestamp),
      Js.memberText (Js.lit "version") (Js.quote bpcProtocolVersion)]

/-- A dictionary of a payload is in the order of its keys. -/
theorem sorted_dict (p : PyPayload) : p.dict.insertionSort itemLe = p.dict := by
  have hkeys : (payloadKeys.map PyString.lit).Pairwise PyString.le := by decide
  have hdict : (p.dict.map Prod.fst).Pairwise PyString.le := hkeys
  have hitems : p.dict.Pairwise fun a b => a.1.le b.1 := List.pairwise_map.mp hdict
  exact List.Pairwise.insertionSort_eq hitems

theorem quoteAscii_keys :
    ∀ key ∈ payloadKeys, quoteAscii (PyString.lit key) = Js.quote (Js.lit key) := by
  decide

theorem dumps_dict (p : PyPayload) : dumps p.dict = 123 :: Js.commas p.memberTexts ++ [125] := by
  have hkey : ∀ {key : String} (t : JsString), key ∈ payloadKeys →
      quoteAscii (PyString.lit key) ++ 58 :: t = Js.memberText (Js.lit key) t := by
    intro key t hmem
    rw [quoteAscii_keys key hmem]
    rfl
  have hversion : quoteAscii (PyString.lit "1.0") = Js.quote bpcProtocolVersion := by decide
  rw [dumps, sorted_dict]
  simp only [PyPayload.dict, List.map_cons, List.map_nil, PyValue.dumps, hversion]
  rw [hkey _ (by decide), hkey _ (by decide), hkey _ (by decide), hkey _ (by decide),
    hkey _ (by decide), hkey _ (by decide), hkey _ (by decide), hkey _ (by decide)]
  rfl

/-- The text that Python writes reads as the payload. -/
theorem parseJson_dumps (p : PyPayload) :
    Js.parseJson (dumps p.dict) = some p.toRequest.toJs := by
  rw [dumps_dict]
  refine Js.Reads.parse_json (Js.reads_object (nodup_members p.toRequest) ?_)
  have hstring : ∀ (key : String) (s : PyString), Js.MemberReads (Js.lit key, .string s.units)
      (Js.memberText (Js.lit key) (quoteAscii s)) :=
    fun key s => ⟨_, rfl, reads_quoteAscii s⟩
  refine .cons (hstring _ _) (.cons (hstring _ _) (.cons (hstring _ _) (.cons (hstring _ _)
    (.cons (hstring _ _) (.cons (hstring _ _) (.cons ?_ (.cons ?_ .nil)))))))
  · exact ⟨_, rfl, Js.reads_decimal p.timestamp⟩
  · exact ⟨_, rfl, Js.reads_string _⟩

/-! ### ASCII -/

theorem escapeAscii_ascii (u : UInt16) : Js.Ascii (escapeAscii u) := by
  have hshort : ∀ d : UInt16, d.toNat < 128 → Js.Ascii [92, d] := by
    intro d hd e he
    simp only [List.mem_cons, List.not_mem_nil, or_false] at he
    rcases he with rfl | rfl
    · decide
    · exact hd
  unfold escapeAscii
  split_ifs with h92 h34 h8 h12 h10 h13 h9 hprintable
  all_goals first
    | exact hshort _ (by decide)
    | exact Js.unicodeEscape_ascii u
    | skip
  intro d hd
  rw [List.mem_singleton.mp hd]
  omega

theorem quoteAscii_ascii (s : PyString) : Js.Ascii (quoteAscii s) := by
  refine Js.ascii_append (Js.ascii_cons (by decide) fun c hc => ?_) (by decide)
  obtain ⟨u, -, hc⟩ := List.mem_flatMap.mp hc
  exact escapeAscii_ascii u c hc

/-- Python writes ASCII. -/
theorem dumps_ascii (p : PyPayload) : Js.Ascii (dumps p.dict) := by
  refine Js.ascii_append (Js.ascii_cons (by decide) (Js.ascii_commas fun t ht => ?_)) (by decide)
  obtain ⟨item, -, rfl⟩ := List.mem_map.mp ht
  refine Js.ascii_append (quoteAscii_ascii _) (Js.ascii_cons (by decide) ?_)
  cases item.2 with
  | str s => exact quoteAscii_ascii s
  | int n => exact Js.decimal_ascii n

/-- The receiver reads the payload that was sent. -/
theorem received_eq (p : PyPayload) : p.received = some p.toRequest.toJs := by
  rw [PyPayload.received, PyPayload.signedData, atob_b64url, Option.bind_some,
    PyPayload.canonicalBytes, latin1_utf8 (dumps_ascii p), parseJson_dumps]

/-! ## Where the texts agree -/

/-- Every code unit is below U+007F or a lone surrogate. -/
def Shared : JsString → Prop
  | [] => True
  | [c] => c.toNat < 127 ∨ Js.isHighSurrogate c = true ∨ Js.isLowSurrogate c = true
  | c :: d :: rest =>
      (Js.isHighSurrogate c && Js.isLowSurrogate d) = false ∧
        (c.toNat < 127 ∨ Js.isHighSurrogate c = true ∨ Js.isLowSurrogate c = true) ∧
        Shared (d :: rest)

/-- A printable character of ASCII is no surrogate, and written as it is or by a short escape. -/
theorem escapeLone_eq_iff (c : UInt16) (s t : JsString) :
    Js.escapeLone c ++ s = escapeAscii c ++ t ↔
      (c.toNat < 127 ∨ Js.isHighSurrogate c = true ∨ Js.isLowSurrogate c = true) ∧ s = t := by
  by_cases hsurrogate : Js.isHighSurrogate c = true ∨ Js.isLowSurrogate c = true
  · -- both write the escape of a surrogate
    have hlarge := Js.le_of_surrogate hsurrogate
    obtain ⟨h34, h92, h8, h12, h10, h13, h9, -⟩ := Js.not_escaped (Nat.le_trans (by decide) hlarge)
    have hascii : escapeAscii c = Js.unicodeEscape c := by
      rw [escapeAscii, if_neg h92, if_neg h34, if_neg h8, if_neg h12, if_neg h10, if_neg h13,
        if_neg h9, if_neg (by omega)]
    have hlone : Js.escapeLone c = Js.unicodeEscape c := by
      rw [Js.escapeLone, if_pos]
      simpa using hsurrogate
    rw [hascii, hlone, List.append_cancel_left_eq]
    exact ⟨fun h => ⟨.inr hsurrogate, h⟩, fun h => h.2⟩
  · have hlone : Js.escapeLone c = Js.escapeUnit c := by
      rw [Js.escapeLone, if_neg]
      simpa using hsurrogate
    by_cases hlow : c.toNat < 127
    · have hsame : Js.escapeUnit c = escapeAscii c := by
        have hcontrol : c < 32 ↔ ¬(32 ≤ c.toNat ∧ c.toNat ≤ 126) := by
          rw [UInt16.lt_iff_toNat_lt]
          show c.toNat < 32 ↔ _
          omega
        unfold Js.escapeUnit escapeAscii
        by_cases h34 : c = 34
        · subst h34
          rfl
        · by_cases hctrl : c < 32
          · simp [h34, hctrl, hcontrol.mp hctrl]
          · simp [h34, hctrl, not_not.mp (hcontrol.not.mp hctrl)]
      rw [hlone, hsame, List.append_cancel_left_eq]
      exact ⟨fun h => ⟨.inl hlow, h⟩, fun h => h.2⟩
    · -- the one writes the character and the other a backslash
      have hne : ∀ d : UInt16, d.toNat < 127 → c ≠ d := by
        rintro d hd rfl
        exact hlow hd
      have hctrl : ¬c < 32 := by
        rw [UInt16.lt_iff_toNat_lt]
        show ¬c.toNat < 32
        omega
      have hunit : Js.escapeUnit c = [c] := by
        simp [Js.escapeUnit, hne 34 (by decide), hne 92 (by decide), hne 8 (by decide),
          hne 12 (by decide), hne 10 (by decide), hne 13 (by decide), hne 9 (by decide), hctrl]
      have hascii : escapeAscii c = Js.unicodeEscape c := by
        simp [escapeAscii, hne 34 (by decide), hne 92 (by decide), hne 8 (by decide),
          hne 12 (by decide), hne 10 (by decide), hne 13 (by decide), hne 9 (by decide)]
        omega
      rw [hlone, hunit, hascii]
      constructor
      · intro h
        exact absurd (List.cons.inj h).1 (hne 92 (by decide))
      · rintro ⟨h | h, -⟩
        · exact absurd h hlow
        · exact absurd h hsurrogate

/-- The two texts of a string are one where every code unit is shared. -/
theorem escapeText_eq_iff (s : JsString) :
    Js.escapeText s = s.flatMap escapeAscii ↔ Shared s := by
  induction s using Js.escapeText.induct with
  | case1 => simp [Js.escapeText, Shared]
  | case2 c =>
      have h := escapeLone_eq_iff c [] []
      simp only [List.append_nil, and_true] at h
      simpa [Js.escapeText, Shared] using h
  | case3 c d rest hpair ih =>
      have hsurrogate : Js.isHighSurrogate c = true := by
        rw [Bool.and_eq_true] at hpair
        exact hpair.1
      have hlarge := Js.le_of_surrogate (.inl hsurrogate)
      obtain ⟨h34, h92, h8, h12, h10, h13, h9, -⟩ :=
        Js.not_escaped (Nat.le_trans (by decide) hlarge)
      rw [Js.escapeText, if_pos hpair, List.flatMap_cons, escapeAscii, if_neg h92, if_neg h34,
        if_neg h8, if_neg h12, if_neg h10, if_neg h13, if_neg h9, if_neg (by omega), Shared]
      constructor
      · intro h
        exact absurd (List.cons.inj h).1 h92
      · rintro ⟨h, -⟩
        rw [hpair] at h
        cases h
  | case4 c d rest hpair ih =>
      rw [Js.escapeText, if_neg hpair, List.flatMap_cons, escapeLone_eq_iff, ih, Shared,
        Bool.eq_false_iff]
      exact ⟨fun h => ⟨hpair, h⟩, fun h => h.2⟩

theorem parseChars_quote (s rest : JsString) :
    Js.parseChars ((Js.quote s ++ rest).drop 1) = some (s, rest) := by
  have hq : (Js.quote s ++ rest).drop 1 = Js.escapeText s ++ 34 :: rest := by simp [Js.quote]
  rw [hq, Js.parseChars_escapeText]

theorem parseChars_quoteAscii (s : PyString) (rest : JsString) :
    Js.parseChars ((quoteAscii s ++ rest).drop 1) = some (s.units, rest) := by
  have hq : (quoteAscii s ++ rest).drop 1 = s.units.flatMap escapeAscii ++ 34 :: rest := by
    simp [quoteAscii]
  rw [hq, parseChars_ascii]

/-- Two texts that start with a string: the strings are written alike, and what follows them is the
    same. -/
theorem quote_append_eq_iff (s : PyString) (rest rest' : JsString) :
    Js.quote s.units ++ rest = quoteAscii s ++ rest' ↔ Shared s.units ∧ rest = rest' := by
  constructor
  · intro h
    have hparse := parseChars_quote s.units rest
    rw [h, parseChars_quoteAscii, Option.some.injEq, Prod.mk.injEq] at hparse
    obtain ⟨-, rfl⟩ := hparse
    have hquote := List.append_cancel_right h
    rw [Js.quote, quoteAscii, List.append_cancel_right_eq, List.cons.injEq] at hquote
    exact ⟨(escapeText_eq_iff _).mp hquote.2, rfl⟩
  · rintro ⟨hs, rfl⟩
    rw [Js.quote, quoteAscii, (escapeText_eq_iff _).mpr hs]

theorem followed_eq_iff (fields : List (String × PyString)) (rest rest' : JsString) :
    followed (fields.map fun f => Js.memberText (Js.lit f.1) (Js.quote f.2.units)) rest =
        followed (fields.map fun f => Js.memberText (Js.lit f.1) (quoteAscii f.2)) rest' ↔
      (∀ f ∈ fields, Shared f.2.units) ∧ rest = rest' := by
  induction fields with
  | nil => simp [followed]
  | cons f fields ih =>
      simp only [List.map_cons, followed, List.foldr_cons, Js.memberText, List.append_assoc,
        List.cons_append, List.append_cancel_left_eq, List.cons.injEq, true_and,
        quote_append_eq_iff, List.forall_mem_cons, and_assoc] at ih ⊢
      rw [ih]

/-- What the text of a payload depends on: the strings of Python are shared, and JavaScript writes
    the double next to the timestamp as the digits of the timestamp. -/
def PyPayload.Portable (p : PyPayload) : Prop :=
  (∀ f ∈ p.strings, Shared f.2.units) ∧
    numberJson (Js.ofRat p.timestamp) = Js.decimal p.timestamp

theorem text_eq_dumps_iff (p : PyPayload) : p.toRequest.text = dumps p.dict ↔ p.Portable := by
  have hstrings : p.toRequest.strings = p.strings.map fun f => (f.1, f.2.units) := rfl
  rw [dumps_dict, RequestPayload.text, List.append_cancel_right_eq, List.cons.injEq,
    RequestPayload.memberTexts, PyPayload.memberTexts, commas_append, commas_append, hstrings,
    List.map_map]
  have hmembers := followed_eq_iff p.strings
    (Js.memberText (Js.lit "timestamp") (numberJson p.toRequest.timestamp) ++
      44 :: Js.memberText (Js.lit "version") (Js.quote bpcProtocolVersion))
    (Js.memberText (Js.lit "timestamp") (Js.decimal p.timestamp) ++
      44 :: Js.memberText (Js.lit "version") (Js.quote bpcProtocolVersion))
  have hmember : ∀ a b : JsString, Js.memberText (Js.lit "timestamp") a =
      Js.memberText (Js.lit "timestamp") b ↔ a = b := by
    intro a b
    rw [Js.memberText, Js.memberText, List.append_cancel_left_eq, List.cons.injEq]
    simp
  rw [List.append_cancel_right_eq, hmember] at hmembers
  simp only [true_and]
  exact hmembers

/-- The bytes that Python signs are those that the receiver verifies over. -/
def PyPayload.SignsCanonical (p : PyPayload) : Prop :=
  ∃ payload text, p.received = some payload ∧ canonicalize payload = .ok text ∧
    Js.utf8 text = p.canonicalBytes

theorem signsCanonical_iff (p : PyPayload) : p.SignsCanonical ↔ p.Portable := by
  rw [← text_eq_dumps_iff]
  constructor
  · rintro ⟨payload, text, hreceived, hcanonical, hbytes⟩
    rw [received_eq, Option.some.injEq] at hreceived
    subst hreceived
    rw [canonicalize_payload, Except.ok.injEq] at hcanonical
    subst hcanonical
    exact (dumps_ascii p).eq_of_utf8 hbytes
  · intro h
    exact ⟨_, _, received_eq p, canonicalize_payload _, congrArg Js.utf8 h⟩

/-- A signature over these bytes is judged as it is over the canonical text. -/
theorem SignsCanonical.verifies {PrivateKey PublicKey : Type} {p : PyPayload}
    (h : p.SignsCanonical) (c : WebCrypto PrivateKey PublicKey) (publicKey : PublicKey)
    (sigBuf : Bytes) :
    ∃ payload, p.received = some payload ∧
      verifyPayload c publicKey payload (b64url sigBuf) =
        c.verify publicKey sigBuf p.canonicalBytes := by
  obtain ⟨payload, text, hreceived, hcanonical, hbytes⟩ := h
  refine ⟨payload, hreceived, ?_⟩
  rw [verifyPayload, hcanonical, b64urlDecode_b64url, ← hbytes]
  rfl

/-- What `sign_request` signs and sends is one payload, with the method in upper case. -/
theorem signRequest_spec {PrivateKey PublicKey : Type} {c : WebCrypto PrivateKey PublicKey}
    {upper : PyString → PyString} {privateKey : PrivateKey} {pairId secret method path : PyString}
    {body : Option Bytes} {nonce : PyString} {timestamp : ℤ} {headers : PySignedHeaders}
    (h : signRequest c upper privateKey pairId secret method path body nonce timestamp =
      some headers) :
    ∃ p : PyPayload, p.method = upper method ∧ p.path = path ∧ p.pairId = pairId ∧
      p.nonce = nonce ∧ p.timestamp = timestamp ∧
      headers = ⟨pairId, b64url (c.sign privateKey p.canonicalBytes), p.signedData, Js.lit "1.0"⟩ := by
  cases hmac : deriveSecretHmac c secret nonce timestamp with
  | none =>
      rw [signRequest, hmac] at h
      cases h
  | some secretHmac =>
      simp only [signRequest, hmac, Option.bind_eq_bind, Option.bind_some, Option.pure_def,
        Option.some.injEq] at h
      subst h
      exact ⟨⟨computeBodyHash c body, upper method, nonce, pairId, path, secretHmac, timestamp⟩,
        rfl, rfl, rfl, rfl, rfl, rfl⟩

/-- **The Python client signs the canonical text exactly of portable payloads**, and the receiver
    then verifies what was signed. -/
theorem python_canonical {PrivateKey PublicKey : Type} (c : WebCrypto PrivateKey PublicKey)
    (p : PyPayload) :
    (p.SignsCanonical ↔ p.Portable) ∧
      ∀ (publicKey : PublicKey) (sigBuf : Bytes), p.SignsCanonical →
        ∃ payload, p.received = some payload ∧
          verifyPayload c publicKey payload (b64url sigBuf) =
            c.verify publicKey sigBuf p.canonicalBytes :=
  ⟨signsCanonical_iff p, fun publicKey sigBuf h => SignsCanonical.verifies h c publicKey sigBuf⟩

/-- A request for a path with an accent. -/
def accented : PyPayload where
  bodyHash := .lit "sha256:"
  method := .lit "GET"
  nonce := .lit "nonce"
  pairId := .lit "pair_0"
  path := .ofUnits [47, 233]
  secretHmac := .lit "hmac"
  timestamp := 0

/-- Python escapes the accent, and the receiver does not. -/
theorem python_diverges : ¬accented.SignsCanonical := by
  rw [signsCanonical_iff]
  rintro ⟨hstrings, -⟩
  have hpath := hstrings ("path", accented.path) (by simp [PyPayload.strings])
  have hunits : accented.path.units = [47, 233] := by decide
  rw [hunits, Shared, Shared] at hpath
  exact absurd hpath.2.2 (by decide)

end Wire
