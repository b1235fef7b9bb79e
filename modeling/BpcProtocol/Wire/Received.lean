import BpcProtocol.Wire.Client
import Mathlib.Data.List.DropRight
import Mathlib.Data.List.Infix

set_option autoImplicit false

/-! # The payload that the server reads

The client encodes the text of a payload in UTF-8. The server decodes one character from every byte,
looks for forbidden keys in the text, and parses it. -/

namespace Wire

open Pair

/-! ## One character from every byte -/

/-- `atob` of what was encoded in UTF-8. -/
def latin1 (s : JsString) : JsString :=
  (Js.utf8 s).map fun b => b.toNat.toUInt16

/-- What a character that is not escaped becomes. -/
def latin1Point (n : ℕ) : JsString :=
  (Js.utf8CodePoint n).map fun b => b.toNat.toUInt16

/-- What a code unit that stands alone becomes: a surrogate is escaped. -/
def readUnit (c : UInt16) : JsString :=
  if Js.isHighSurrogate c || Js.isLowSurrogate c then [c] else latin1Point c.toNat

/-- What the server reads of a string that the client has sent. -/
def readText : JsString → JsString
  | [] => []
  | [c] => readUnit c
  | c :: d :: rest =>
      if Js.isHighSurrogate c && Js.isLowSurrogate d then
        latin1Point (0x10000 + (c.toNat - 0xD800) * 0x400 + (d.toNat - 0xDC00)) ++ readText rest
      else readUnit c ++ readText (d :: rest)

/-- Every code unit is ASCII or a lone surrogate. -/
def OneByte : JsString → Prop
  | [] => True
  | [c] => c.toNat < 128 ∨ Js.isHighSurrogate c = true ∨ Js.isLowSurrogate c = true
  | c :: d :: rest =>
      (Js.isHighSurrogate c && Js.isLowSurrogate d) = false ∧
        (c.toNat < 128 ∨ Js.isHighSurrogate c = true ∨ Js.isLowSurrogate c = true) ∧
        OneByte (d :: rest)

theorem latin1_append {s t : JsString} (hs : Js.WellFormed s) :
    latin1 (s ++ t) = latin1 s ++ latin1 t := by
  rw [latin1, Js.utf8_append hs, List.map_append, latin1, latin1]

theorem latin1_ascii {s : JsString} (h : Js.Ascii s) : latin1 s = s :=
  latin1_utf8 h

theorem latin1_cons {c : UInt16} (hc : c.toNat < 128) (t : JsString) :
    latin1 (c :: t) = c :: latin1 t := by
  have hascii : Js.Ascii [c] := List.forall_mem_singleton.mpr hc
  rw [← List.singleton_append, latin1_append hascii.wellFormed, latin1_ascii hascii]
  rfl

/-- A character outside of ASCII becomes several. -/
theorem latin1Point_large {n : ℕ} (hn : 128 ≤ n) (hpoint : Js.IsCodePoint n) :
    2 ≤ (latin1Point n).length ∧ ∀ u ∈ latin1Point n, 128 ≤ u.toNat := by
  have hbyte : ∀ {m : ℕ}, 128 ≤ m → m < 256 → 128 ≤ (m.toUInt8.toNat.toUInt16).toNat := by
    intro m hlo hhi
    simp [Nat.toUInt8, Nat.toUInt16, Nat.mod_eq_of_lt hhi]
    omega
  unfold Js.IsCodePoint at hpoint
  unfold latin1Point Js.utf8CodePoint
  split_ifs with h1 h2 h3
  · omega
  all_goals
    refine ⟨by simp, ?_⟩
    simp only [List.map_cons, List.map_nil, List.forall_mem_cons, List.not_mem_nil,
      false_implies, implies_true, and_true]
  · exact ⟨hbyte (by omega) (by omega), hbyte (by omega) (by omega)⟩
  · exact ⟨hbyte (by omega) (by omega), hbyte (by omega) (by omega), hbyte (by omega) (by omega)⟩
  · exact ⟨hbyte (by omega) (by omega), hbyte (by omega) (by omega), hbyte (by omega) (by omega),
      hbyte (by omega) (by omega)⟩

theorem latin1Point_ascii {c : UInt16} (hc : c.toNat < 128) : latin1Point c.toNat = [c] := by
  rw [latin1Point, Js.utf8CodePoint, if_pos hc, List.map_singleton]
  simp [Nat.toUInt16, Nat.toUInt8, Nat.mod_eq_of_lt (show c.toNat < 256 by omega)]

/-- A pair becomes four characters. -/
theorem latin1Point_pair {c d : UInt16} (h : (Js.isHighSurrogate c && Js.isLowSurrogate d) = true) :
    (latin1Point (0x10000 + (c.toNat - 0xD800) * 0x400 + (d.toNat - 0xDC00))).length = 4 ∧
      ∀ u ∈ latin1Point (0x10000 + (c.toNat - 0xD800) * 0x400 + (d.toNat - 0xDC00)),
        128 ≤ u.toNat := by
  rw [Bool.and_eq_true, Js.isHighSurrogate_iff, Js.isLowSurrogate_iff] at h
  refine ⟨?_, (latin1Point_large (by omega) (show _ < 0x110000 by omega)).2⟩
  rw [latin1Point, Js.utf8CodePoint, if_neg (by omega), if_neg (by omega), if_neg (by omega)]
  rfl

/-- A unit that is read as itself. -/
theorem readUnit_spec (c : UInt16) :
    1 ≤ (readUnit c).length ∧
      ((c.toNat < 128 ∨ Js.isHighSurrogate c = true ∨ Js.isLowSurrogate c = true) →
        readUnit c = [c]) ∧
      (¬(c.toNat < 128 ∨ Js.isHighSurrogate c = true ∨ Js.isLowSurrogate c = true) →
        2 ≤ (readUnit c).length) := by
  have hc : c.toNat < 65536 := c.toNat_lt
  unfold readUnit
  by_cases hsurrogate : Js.isHighSurrogate c = true ∨ Js.isLowSurrogate c = true
  · rw [if_pos (by simpa using hsurrogate)]
    exact ⟨Nat.le_refl _, fun _ => rfl, fun h => absurd (.inr hsurrogate) h⟩
  · rw [if_neg (by simpa using hsurrogate)]
    by_cases hlow : c.toNat < 128
    · rw [latin1Point_ascii hlow]
      exact ⟨Nat.le_refl _, fun _ => rfl, fun h => absurd (.inl hlow) h⟩
    · have hlarge := (latin1Point_large (not_lt.mp hlow)
        (show c.toNat < 0x110000 by omega)).1
      exact ⟨by omega, fun h => absurd h (by tauto), fun _ => hlarge⟩

theorem length_readText (s : JsString) : s.length ≤ (readText s).length := by
  induction s using readText.induct with
  | case1 => exact Nat.le_refl _
  | case2 c => exact (readUnit_spec c).1
  | case3 c d rest hpair ih =>
      rw [readText, if_pos hpair, List.length_append, List.length_cons, List.length_cons,
        (latin1Point_pair hpair).1]
      omega
  | case4 c d rest hpair ih =>
      rw [readText, if_neg hpair, List.length_append, List.length_cons]
      have hunit := (readUnit_spec c).1
      omega

/-- **A string is read as it was sent** where every code unit is ASCII or a lone surrogate: any
    other character becomes several. -/
theorem readText_eq_iff (s : JsString) : readText s = s ↔ OneByte s := by
  induction s using readText.induct with
  | case1 => simp [readText, OneByte]
  | case2 c =>
      obtain ⟨-, hsame, hlarge⟩ := readUnit_spec c
      rw [readText, OneByte]
      refine ⟨fun h => ?_, hsame⟩
      by_contra hnot
      have hlength := hlarge hnot
      rw [h] at hlength
      simp at hlength
  | case3 c d rest hpair ih =>
      have hlength := length_readText rest
      rw [readText, if_pos hpair, OneByte]
      constructor
      · intro h
        have hfour := congrArg List.length h
        rw [List.length_append, (latin1Point_pair hpair).1] at hfour
        simp only [List.length_cons] at hfour
        omega
      · rintro ⟨h, -⟩
        rw [hpair] at h
        cases h
  | case4 c d rest hpair ih =>
      obtain ⟨-, hsame, hlarge⟩ := readUnit_spec c
      have hlength := length_readText (d :: rest)
      rw [readText, if_neg hpair, OneByte, ← ih]
      constructor
      · intro h
        have hunit : c.toNat < 128 ∨ Js.isHighSurrogate c = true ∨ Js.isLowSurrogate c = true := by
          by_contra hnot
          have htwo := hlarge hnot
          have hsum := congrArg List.length h
          rw [List.length_append, List.length_cons] at hsum
          omega
        rw [hsame hunit, List.singleton_append, List.cons.injEq] at h
        exact ⟨by simpa using hpair, hunit, h.2⟩
      · rintro ⟨-, hunit, hrest⟩
        rw [hsame hunit, hrest]
        rfl

/-! ## Reading a text -/

theorem parseChars_large {l : JsString} (h : ∀ u ∈ l, 128 ≤ u.toNat) (rest : JsString) :
    Js.parseChars (l ++ rest) = (Js.parseChars rest).map fun p => (l ++ p.1, p.2) := by
  induction l with
  | nil =>
      show Js.parseChars rest = _
      cases Js.parseChars rest <;> rfl
  | cons u tail ih =>
      rw [List.forall_mem_cons] at h
      obtain ⟨h34, h92, -, -, -, -, -, hlow⟩ := Js.not_escaped h.1
      rw [List.cons_append, Js.parseChars_plain _ h34 h92 hlow, ih h.2, Option.map_map]
      rfl

/-- A code unit is read as what it becomes. -/
theorem parseChars_escapeLone (c : UInt16) (rest : JsString) :
    Js.parseChars (latin1 (Js.escapeLone c) ++ rest) =
      (Js.parseChars rest).map fun p => (readUnit c ++ p.1, p.2) := by
  have hc : c.toNat < 65536 := c.toNat_lt
  by_cases hunit : c.toNat < 128 ∨ Js.isHighSurrogate c = true ∨ Js.isLowSurrogate c = true
  · rw [latin1_ascii (Js.escapeLone_ascii hunit), (readUnit_spec c).2.1 hunit]
    exact Js.parseChars_escapeLone c rest
  · rw [Js.escapeLone_large hunit]
    rw [not_or] at hunit
    have hlone : ¬(Js.isHighSurrogate c || Js.isLowSurrogate c) = true := by simpa using hunit.2
    have hlatin : latin1 [c] = latin1Point c.toNat := by
      rw [latin1, Js.utf8, if_neg hlone]
      rfl
    rw [hlatin, readUnit, if_neg hlone]
    exact parseChars_large (latin1Point_large (not_lt.mp hunit.1)
      (show c.toNat < 0x110000 by omega)).2 rest

/-- A string is read, from behind its opening quote. -/
theorem parseChars_latin1 (s rest : JsString) :
    Js.parseChars (latin1 (Js.escapeText s) ++ 34 :: rest) = some (readText s, rest) := by
  induction s using Js.escapeText.induct with
  | case1 => rfl
  | case2 c =>
      rw [Js.escapeText, parseChars_escapeLone, readText]
      show some (readUnit c ++ [], rest) = _
      rw [List.append_nil]
  | case3 c d tail hpair ih =>
      have hlatin : latin1 (c :: d :: Js.escapeText tail) =
          latin1Point (0x10000 + (c.toNat - 0xD800) * 0x400 + (d.toNat - 0xDC00)) ++
            latin1 (Js.escapeText tail) := by
        rw [latin1, Js.utf8, if_pos hpair, List.map_append]
        rfl
      rw [Js.escapeText, if_pos hpair, hlatin, List.append_assoc,
        parseChars_large (latin1Point_pair hpair).2, ih, readText, if_pos hpair]
      rfl
  | case4 c d tail hpair ih =>
      rw [Js.escapeText, if_neg hpair, latin1_append (Js.escapeLone_wellFormed c), List.append_assoc,
        parseChars_escapeLone, ih, readText, if_neg hpair]
      rfl

theorem latin1_quote (s : JsString) : latin1 (Js.quote s) = 34 :: latin1 (Js.escapeText s) ++ [34] := by
  rw [Js.quote, List.cons_append, latin1_cons (by decide), latin1_append (Js.escapeText_wellFormed s),
    latin1_ascii (show Js.Ascii [34] by decide)]
  rfl

theorem reads_latin1 (s : JsString) : Js.Reads (.string (readText s)) (latin1 (Js.quote s)) where
  head := ⟨34, _, latin1_quote s, by decide, by decide, by decide⟩
  parse fuel hfuel rest hrest := by
    rw [latin1_quote] at hfuel ⊢
    obtain ⟨fuel, rfl⟩ : ∃ k, fuel = k + 1 := ⟨fuel - 1, by simp at hfuel; omega⟩
    have hq : 34 :: latin1 (Js.escapeText s) ++ [34] ++ rest =
        34 :: (latin1 (Js.escapeText s) ++ 34 :: rest) := by
      simp
    rw [hq, Js.parseValue, Js.skipSpace_cons (by decide)]
    simp only [parseChars_latin1, Option.map_some]

/-! ## Reading a payload -/

theorem commas_wellFormed {ts : List JsString} (h : ∀ t ∈ ts, Js.WellFormed t) :
    Js.WellFormed (Js.commas ts) := by
  induction ts with
  | nil => trivial
  | cons t rest ih =>
      have ht := h t List.mem_cons_self
      have hrest := ih fun u hu => h u (List.mem_cons_of_mem _ hu)
      cases rest with
      | nil => exact ht
      | cons u rest =>
          have hcomma : Js.Ascii [44] := by decide
          exact Js.wellFormed_append ht (Js.wellFormed_append hcomma.wellFormed hrest)

theorem latin1_commas {ts : List JsString} (h : ∀ t ∈ ts, Js.WellFormed t) :
    latin1 (Js.commas ts) = Js.commas (ts.map latin1) := by
  induction ts with
  | nil => rfl
  | cons t rest ih =>
      have ht := h t List.mem_cons_self
      have hrest := ih fun u hu => h u (List.mem_cons_of_mem _ hu)
      cases rest with
      | nil => rfl
      | cons u rest =>
          show latin1 (t ++ 44 :: Js.commas (u :: rest)) =
            latin1 t ++ 44 :: Js.commas ((u :: rest).map latin1)
          rw [latin1_append ht, latin1_cons (by decide), hrest]

/-- The keys of a payload are ASCII. -/
theorem quote_keys_ascii : ∀ key ∈ payloadKeys, Js.Ascii (Js.quote (Js.lit key)) := by
  decide

theorem latin1_memberText {key : String} (hkey : key ∈ payloadKeys) (t : JsString) :
    latin1 (Js.memberText (Js.lit key) t) = Js.memberText (Js.lit key) (latin1 t) := by
  have hascii := quote_keys_ascii key hkey
  rw [Js.memberText, latin1_append hascii.wellFormed, latin1_cons (by decide), latin1_ascii hascii]
  rfl

theorem memberText_wellFormed {key : String} (hkey : key ∈ payloadKeys) {t : JsString}
    (ht : Js.WellFormed t) : Js.WellFormed (Js.memberText (Js.lit key) t) := by
  have hcolon : Js.Ascii [58] := by decide
  exact Js.wellFormed_append (quote_keys_ascii key hkey).wellFormed
    (Js.wellFormed_append hcolon.wellFormed ht)

/-- A payload whose timestamp is a safe integer. -/
def RequestPayload.Timed (p : RequestPayload) : Prop :=
  ∃ n : ℤ, Js.isSafeInteger n = true ∧ p.timestamp = .fin n

/-- The payload that the server reads. -/
def RequestPayload.read (p : RequestPayload) : RequestPayload where
  bodyHash := readText p.bodyHash
  method := readText p.method
  nonce := readText p.nonce
  pairId := readText p.pairId
  path := readText p.path
  secretHmac := readText p.secretHmac
  timestamp := p.timestamp

theorem RequestPayload.Timed.readsBack {p : RequestPayload} (h : p.Timed) : Js.ReadsBack p.timestamp := by
  obtain ⟨n, hn, htimestamp⟩ := h
  rw [htimestamp]
  exact Js.readsBack_int hn

theorem RequestPayload.Timed.numberJson {p : RequestPayload} (h : p.Timed) :
    numberJson p.timestamp = Js.numberText p.timestamp :=
  if_pos h.readsBack.1

/-- A timestamp is written in digits. -/
theorem RequestPayload.Timed.digits {p : RequestPayload} (h : p.Timed) :
    ∀ c ∈ Js.numberText p.timestamp, c = 45 ∨ Js.isDigit c = true := by
  obtain ⟨n, hn, htimestamp⟩ := h
  rw [htimestamp, Js.numberText_int hn, Js.decimal_eq]
  intro c hc
  split at hc
  · exact .inr (Js.isDigit_of_mem_natDigits hc)
  · rcases List.mem_cons.mp hc with rfl | hc
    · exact .inl rfl
    · exact .inr (Js.isDigit_of_mem_natDigits hc)

theorem RequestPayload.Timed.ascii {p : RequestPayload} (h : p.Timed) : Js.Ascii (Js.numberText p.timestamp) := by
  intro c hc
  rcases h.digits c hc with rfl | hdigit
  · decide
  · have hrange := (Js.isDigit_iff c).mp hdigit
    omega

theorem strings_keys (p : RequestPayload) : ∀ f ∈ p.strings, f.1 ∈ payloadKeys := by
  intro f hf
  simp only [RequestPayload.strings, List.mem_cons, List.not_mem_nil, or_false] at hf
  rcases hf with rfl | rfl | rfl | rfl | rfl | rfl <;> simp [payloadKeys]

theorem memberTexts_wellFormed {p : RequestPayload} (h : p.Timed) :
    ∀ t ∈ p.memberTexts, Js.WellFormed t := by
  intro t ht
  rw [RequestPayload.memberTexts, List.mem_append] at ht
  rcases ht with ht | ht
  · obtain ⟨f, hf, rfl⟩ := List.mem_map.mp ht
    exact memberText_wellFormed (strings_keys p f hf) (Js.quote_wellFormed _)
  · simp only [List.mem_cons, List.not_mem_nil, or_false] at ht
    rcases ht with rfl | rfl
    · refine memberText_wellFormed (by simp [payloadKeys]) ?_
      rw [h.numberJson]
      exact h.ascii.wellFormed
    · exact memberText_wellFormed (by simp [payloadKeys]) (Js.quote_wellFormed _)

theorem latin1_text {p : RequestPayload} (h : p.Timed) :
    latin1 p.text = 123 :: Js.commas (p.memberTexts.map latin1) ++ [125] := by
  have hcommas := commas_wellFormed (memberTexts_wellFormed h)
  rw [RequestPayload.text, List.cons_append, latin1_cons (by decide), latin1_append hcommas,
    latin1_commas (memberTexts_wellFormed h), latin1_ascii (show Js.Ascii [125] by decide)]
  rfl

/-- The text that the server decodes is read as this payload. -/
theorem parseJson_latin1 {p : RequestPayload} (h : p.Timed) :
    Js.parseJson (latin1 p.text) = some p.read.toJs := by
  have hstring : ∀ {key : String} (s : JsString), key ∈ payloadKeys →
      Js.MemberReads (Js.lit key, .string (readText s))
        (latin1 (Js.memberText (Js.lit key) (Js.quote s))) :=
    fun s hkey => ⟨_, latin1_memberText hkey _, reads_latin1 s⟩
  have hversion : readText bpcProtocolVersion = bpcProtocolVersion := by decide
  rw [latin1_text h]
  refine Js.Reads.parse_json (Js.reads_object (nodup_members p.read) ?_)
  refine .cons (hstring _ (by decide)) (.cons (hstring _ (by decide)) (.cons (hstring _ (by decide))
    (.cons (hstring _ (by decide)) (.cons (hstring _ (by decide)) (.cons (hstring _ (by decide))
    (.cons ?_ (.cons ?_ .nil)))))))
  · refine ⟨_, latin1_memberText (by decide) _, ?_⟩
    rw [h.numberJson, latin1_ascii h.ascii]
    exact Js.reads_number h.readsBack
  · have hreads := @hstring "version" bpcProtocolVersion (by decide)
    rw [hversion] at hreads
    exact hreads

end Wire
