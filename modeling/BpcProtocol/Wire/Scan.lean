import BpcProtocol.Lib.Separated
import BpcProtocol.Wire.Received

set_option autoImplicit false

/-! # The scan for forbidden keys

`assertNoForbiddenKeys` looks for a forbidden key between two quotes, anywhere in the text: a value
is found as well as a key, and so is the end of a value that holds a quote. -/

namespace Wire

open Pair Separated

theorem includes_iff (s t : JsString) : includes s t = true ↔ t <:+: s := by
  rw [includes, List.any_eq_true]
  constructor
  · rintro ⟨u, hu, hbegins⟩
    exact List.infix_iff_prefix_suffix.mpr
      ⟨u, List.isPrefixOf_iff_prefix.mp hbegins, (List.mem_tails _ _).mp hu⟩
  · intro h
    obtain ⟨u, hbegins, hsuffix⟩ := List.infix_iff_prefix_suffix.mp h
    exact ⟨u, (List.mem_tails _ _).mpr hsuffix, List.isPrefixOf_iff_prefix.mpr hbegins⟩

/-! ## Strings between quotes -/

/-- What stands behind the last quote of a string, all of it where there is none. -/
def afterLastQuote (s : JsString) : JsString :=
  s.rtakeWhile (· != 34)

theorem escapeText_append_quote (a b : JsString) :
    Js.escapeText (a ++ 34 :: b) = (Js.escapeText a ++ [92]) ++ 34 :: Js.escapeText b := by
  have hquote : Js.escapeText (34 :: b) = 92 :: 34 :: Js.escapeText b := by
    cases b with
    | nil => decide
    | cons d rest =>
        rw [Js.escapeText, if_neg (by simp [show Js.isHighSurrogate 34 = false by decide])]
        rfl
  have hlow : Js.isLowSurrogate 34 = false := by decide
  induction a using Js.escapeText.induct with
  | case1 => exact hquote
  | case2 c =>
      show Js.escapeText (c :: 34 :: b) = _
      rw [Js.escapeText, Js.escapeText, if_neg (by simp [hlow]), hquote]
      simp
  | case3 c d rest hpair ih =>
      show Js.escapeText (c :: d :: (rest ++ 34 :: b)) = _
      rw [Js.escapeText, if_pos hpair, ih, Js.escapeText, if_pos hpair]
      simp
  | case4 c d rest hpair ih =>
      show Js.escapeText (c :: d :: (rest ++ 34 :: b)) = _
      rw [Js.escapeText, if_neg hpair, ← List.cons_append, ih, Js.escapeText, if_neg hpair]
      simp

theorem not_mem_unicodeEscape (c : UInt16) : 34 ∉ Js.unicodeEscape c := by
  have hc : c.toNat < 65536 := c.toNat_lt
  have hdigit : ∀ n < 16, Js.hexDigit n ≠ 34 := by decide
  intro h
  simp only [Js.unicodeEscape, List.mem_cons, List.not_mem_nil, or_false] at h
  rcases h with h | h | h | h | h | h
  · exact absurd h (by decide)
  · exact absurd h (by decide)
  all_goals exact hdigit _ (by omega) h.symm

theorem not_mem_escapeLone {c : UInt16} (hc : c ≠ 34) : 34 ∉ Js.escapeLone c := by
  unfold Js.escapeLone
  split
  · exact not_mem_unicodeEscape c
  · unfold Js.escapeUnit
    rw [if_neg hc]
    split_ifs
    all_goals first
      | decide
      | exact not_mem_unicodeEscape c
      | exact fun h => hc (List.mem_singleton.mp h).symm

theorem not_mem_escapeText {s : JsString} (h : 34 ∉ s) : 34 ∉ Js.escapeText s := by
  induction s using Js.escapeText.induct with
  | case1 => simp [Js.escapeText]
  | case2 c =>
      rw [Js.escapeText]
      exact not_mem_escapeLone fun hc => h (by simp [hc])
  | case3 c d rest hpair ih =>
      simp only [List.mem_cons, not_or] at h
      rw [Js.escapeText, if_pos hpair]
      simp only [List.mem_cons, not_or]
      exact ⟨h.1, h.2.1, ih h.2.2⟩
  | case4 c d rest hpair ih =>
      rw [List.mem_cons, not_or] at h
      rw [Js.escapeText, if_neg hpair, List.mem_append, not_or]
      exact ⟨not_mem_escapeLone (Ne.symm h.1), ih h.2⟩

theorem not_mem_afterLastQuote (s : JsString) : 34 ∉ afterLastQuote s := by
  intro h
  have hp := List.mem_rtakeWhile_imp h
  simp at hp

/-- A written string is cut at its quotes. A piece before a quote ends with a backslash. -/
theorem exists_pieces (s : JsString) :
    ∃ init : List JsString, (∀ x ∈ init, 34 ∉ x ∧ ∃ y, x = y ++ [92]) ∧
      Js.escapeText s = join 34 (init ++ [Js.escapeText (afterLastQuote s)]) := by
  induction hn : s.length using Nat.strongRecOn generalizing s with
  | ind n ih =>
      by_cases hquote : 34 ∈ s
      · obtain ⟨a, b, rfl, ha⟩ := List.eq_append_cons_of_mem hquote
        obtain ⟨init, hinit, hb⟩ := ih b.length (by simp at hn; omega) b rfl
        have hlast : afterLastQuote (a ++ 34 :: b) = afterLastQuote b :=
          rtakeWhile_append_cons (by decide) a b
        refine ⟨(Js.escapeText a ++ [92]) :: init, ?_, ?_⟩
        · rw [List.forall_mem_cons]
          refine ⟨⟨?_, _, rfl⟩, hinit⟩
          rw [List.mem_append, not_or]
          exact ⟨not_mem_escapeText ha, by decide⟩
        · rw [escapeText_append_quote, hb, hlast, List.cons_append, join_cons 34 (by simp)]
      · refine ⟨[], by simp, ?_⟩
        have hself : afterLastQuote s = s := by
          rw [afterLastQuote, List.rtakeWhile_eq_self_iff]
          intro x hx
          simpa using fun hx34 : x = 34 => hquote (hx34 ▸ hx)
        rw [hself]
        rfl

theorem escapeText_injective : Function.Injective Js.escapeText := by
  intro s t h
  have hs := Js.parseChars_escapeText s []
  rw [h, Js.parseChars_escapeText t []] at hs
  cases hs
  rfl

/-- The forbidden keys are written as they are, and hold neither a quote nor a backslash. -/
theorem forbiddenKeys_spec : ∀ key ∈ forbiddenKeys, Js.escapeText key = key ∧ 34 ∉ key ∧ 92 ∉ key ∧
    58 ∉ key ∧ 44 ∉ key := by
  decide

theorem forbiddenKeys_payload : ∀ key ∈ forbiddenKeys, ∀ name ∈ payloadKeys, key ≠ Js.lit name := by
  decide

theorem quote_payloadKeys :
    ∀ name ∈ payloadKeys, Js.quote (Js.lit name) = 34 :: Js.lit name ++ [34] ∧ 34 ∉ Js.lit name := by
  decide

/-- Members that are cut at their quotes. Of the pieces only the end of a value may be a forbidden
    key. -/
theorem exists_memberPieces (fields : List (String × JsString))
    (hnames : ∀ f ∈ fields, f.1 ∈ payloadKeys) {tail : List JsString} (htail : tail ≠ []) :
    ∃ segs : List JsString, (∀ x ∈ segs, 34 ∉ x) ∧
      (∀ key ∈ forbiddenKeys, key ∈ segs ↔ ∃ f ∈ fields, afterLastQuote f.2 = key) ∧
      followed (fields.map fun f => Js.memberText (Js.lit f.1) (Js.quote f.2))
        (34 :: join 34 tail) = 34 :: join 34 (segs ++ tail) := by
  induction fields with
  | nil => exact ⟨[], by simp, by simp, rfl⟩
  | cons f fields ih =>
      rw [List.forall_mem_cons] at hnames
      obtain ⟨segs, hquotes, hkeys, hjoin⟩ := ih hnames.2
      obtain ⟨init, hinit, hpieces⟩ := exists_pieces f.2
      obtain ⟨hname, hnameQuote⟩ := quote_payloadKeys f.1 hnames.1
      refine ⟨Js.lit f.1 :: [58] :: ((init ++ [Js.escapeText (afterLastQuote f.2)]) ++ [44] :: segs),
        ?_, ?_, ?_⟩
      · intro x hx
        simp only [List.mem_cons, List.mem_append, List.not_mem_nil, or_false] at hx
        rcases hx with rfl | rfl | (hx | rfl) | rfl | hx
        · exact hnameQuote
        · decide
        · exact (hinit x hx).1
        · exact not_mem_escapeText (not_mem_afterLastQuote f.2)
        · decide
        · exact hquotes x hx
      · intro key hkey
        obtain ⟨hself, -, h92, h58, h44⟩ := forbiddenKeys_spec key hkey
        have hne : ∀ c : UInt16, c ∉ key → key ≠ [c] := by
          rintro c hc rfl
          exact hc List.mem_cons_self
        have hnotInit : key ∉ init := by
          intro hmem
          obtain ⟨-, y, hy⟩ := hinit key hmem
          exact h92 (by rw [hy]; simp)
        have hend : key = Js.escapeText (afterLastQuote f.2) ↔ afterLastQuote f.2 = key := by
          constructor
          · intro h
            exact (escapeText_injective (hself.trans h)).symm
          · intro h
            rw [h, hself]
        rw [List.exists_mem_cons_iff, ← hkeys key hkey]
        simp only [List.mem_cons, List.mem_append, List.not_mem_nil, or_false,
          forbiddenKeys_payload key hkey f.1 hnames.1, hne 58 h58, hne 44 h44, hnotInit, hend,
          false_or]
      · have hassoc : (Js.lit f.1 :: [58] :: ((init ++ [Js.escapeText (afterLastQuote f.2)]) ++
            [44] :: segs)) ++ tail = Js.lit f.1 :: [58] ::
              ((init ++ [Js.escapeText (afterLastQuote f.2)]) ++ [44] :: (segs ++ tail)) := by
          simp
        rw [hassoc, join_cons 34 (by simp), join_cons 34 (by simp), join_append 34 (by simp) (by simp),
          join_cons 34 (by simp [htail]), ← hpieces, List.map_cons, followed, List.foldr_cons,
          ← followed, hjoin, Js.memberText, hname, Js.quote]
        simp

/-- The pieces behind the strings of a payload. -/
def lastPieces (p : RequestPayload) : List JsString :=
  [Js.lit "timestamp", 58 :: Js.numberText p.timestamp ++ [44], Js.lit "version", [58],
    bpcProtocolVersion, [125]]

theorem followed_append (members : List JsString) (rest tail : JsString) :
    followed members rest ++ tail = followed members (rest ++ tail) := by
  induction members with
  | nil => rfl
  | cons t members ih =>
      rw [followed, List.foldr_cons, ← followed, List.append_assoc, List.cons_append, ih]
      rfl

/-- The text of a payload, cut at its quotes. -/
theorem text_eq_join {p : RequestPayload} (h : p.Timed) {segs : List JsString}
    (hjoin : followed (p.strings.map fun f => Js.memberText (Js.lit f.1) (Js.quote f.2))
      (34 :: join 34 (lastPieces p)) = 34 :: join 34 (segs ++ lastPieces p)) :
    p.text = join 34 ([123] :: (segs ++ lastPieces p)) := by
  have hlast : Js.memberText (Js.lit "timestamp") (numberJson p.timestamp) ++
      44 :: Js.memberText (Js.lit "version") (Js.quote bpcProtocolVersion) ++ [125] =
        34 :: join 34 (lastPieces p) := by
    have hversion : Js.quote bpcProtocolVersion = 34 :: bpcProtocolVersion ++ [34] := by decide
    rw [h.numberJson, Js.memberText, Js.memberText, hversion,
      (quote_payloadKeys "timestamp" (by decide)).1, (quote_payloadKeys "version" (by decide)).1]
    simp [lastPieces, join]
  rw [join_cons 34 (by simp [lastPieces]), List.singleton_append, ← hjoin, ← hlast,
    ← followed_append, RequestPayload.text, RequestPayload.memberTexts, commas_append,
    List.cons_append]

/-- **The scan finds** what a string of the payload ends with, behind its last quote. -/
theorem assertNoForbiddenKeys_text {p : RequestPayload} (h : p.Timed) :
    assertNoForbiddenKeys p.text = some () ↔
      ∀ f ∈ p.strings, afterLastQuote f.2 ∉ forbiddenKeys := by
  obtain ⟨segs, hquotes, hkeys, hjoin⟩ :=
    exists_memberPieces p.strings (strings_keys p) (show lastPieces p ≠ [] by simp [lastPieces])
  have hclass : ∀ s ∈ [123] :: (segs ++ lastPieces p), 34 ∉ s := by
    intro s hs
    simp only [lastPieces, List.mem_cons, List.mem_append, List.not_mem_nil, or_false] at hs
    rcases hs with rfl | hs | rfl | rfl | rfl | rfl | rfl | rfl
    · decide
    · exact hquotes s hs
    · decide
    · simp only [List.mem_append, List.mem_cons, List.not_mem_nil, or_false, not_or]
      refine ⟨⟨by decide, fun hmem => ?_⟩, by decide⟩
      rcases h.digits 34 hmem with h34 | hdigit
      · exact absurd h34 (by decide)
      · exact absurd hdigit (by decide)
    all_goals decide
  have hscan : ∀ key ∈ forbiddenKeys, includes p.text (34 :: key ++ [34]) = true ↔
      ∃ f ∈ p.strings, afterLastQuote f.2 = key := by
    intro key hkey
    obtain ⟨-, h34, -, h58, -⟩ := forbiddenKeys_spec key hkey
    have hlast : key ∉ (lastPieces p).dropLast := by
      intro hmem
      simp only [lastPieces, List.dropLast, List.mem_cons, List.not_mem_nil, or_false] at hmem
      rcases hmem with h1 | h1 | h1 | h1 | h1
      · exact forbiddenKeys_payload key hkey "timestamp" (by decide) h1
      · exact h58 (by rw [h1]; simp)
      · exact forbiddenKeys_payload key hkey "version" (by decide) h1
      · exact h58 (by rw [h1]; simp)
      · subst h1
        exact absurd hkey (by decide)
    rw [includes_iff, text_eq_join h hjoin, infix_join_iff hclass h34, List.tail_cons,
      List.dropLast_append_of_ne_nil (by simp [lastPieces]), List.mem_append, hkeys key hkey]
    exact or_iff_left hlast
  have hnone : (forbiddenKeys.any fun key => includes p.text (34 :: key ++ [34])) = true ↔
      ∃ f ∈ p.strings, afterLastQuote f.2 ∈ forbiddenKeys := by
    rw [List.any_eq_true]
    constructor
    · rintro ⟨key, hkey, hincludes⟩
      obtain ⟨f, hf, rfl⟩ := (hscan key hkey).mp hincludes
      exact ⟨f, hf, hkey⟩
    · rintro ⟨f, hf, hkey⟩
      exact ⟨_, hkey, (hscan _ hkey).mpr ⟨f, hf, rfl⟩⟩
  unfold assertNoForbiddenKeys
  split
  · next hany =>
      obtain ⟨f, hf, hkey⟩ := hnone.mp hany
      refine ⟨fun hsome => ?_, fun hall => absurd hkey (hall f hf)⟩
      cases hsome
  · next hany =>
      exact ⟨fun _ f hf hkey => hany (hnone.mpr ⟨f, hf, hkey⟩), fun _ => rfl⟩

/-! ## What the server decodes -/

theorem escapeText_ascii {s : JsString} (h : OneByte s) : Js.Ascii (Js.escapeText s) := by
  induction s using Js.escapeText.induct with
  | case1 => simp [Js.escapeText, Js.Ascii]
  | case2 c => exact Js.escapeLone_ascii h
  | case3 c d rest hpair ih =>
      rw [OneByte, hpair] at h
      cases h.1
  | case4 c d rest hpair ih =>
      rw [Js.escapeText, if_neg hpair]
      exact Js.ascii_append (Js.escapeLone_ascii h.2.1) (ih h.2.2)

theorem text_ascii {p : RequestPayload} (h : p.Timed) (hs : ∀ f ∈ p.strings, OneByte f.2) :
    Js.Ascii p.text := by
  have hmember : ∀ {name : String} {t : JsString}, name ∈ payloadKeys → Js.Ascii t →
      Js.Ascii (Js.memberText (Js.lit name) t) := by
    intro name t hname ht
    exact Js.ascii_append (quote_keys_ascii name hname) (Js.ascii_cons (by decide) ht)
  refine Js.ascii_append (Js.ascii_cons (by decide) (Js.ascii_commas fun t ht => ?_)) (by decide)
  rw [RequestPayload.memberTexts, List.mem_append] at ht
  rcases ht with ht | ht
  · obtain ⟨f, hf, rfl⟩ := List.mem_map.mp ht
    refine hmember (strings_keys p f hf) ?_
    exact Js.ascii_append (Js.ascii_cons (by decide) (escapeText_ascii (hs f hf))) (by decide)
  · simp only [List.mem_cons, List.not_mem_nil, or_false] at ht
    rcases ht with rfl | rfl
    · refine hmember (by decide) ?_
      rw [h.numberJson]
      exact h.ascii
    · exact hmember (by decide) (by decide)

/-- What the server decodes of the payload that a client has encoded. -/
theorem decodePayload_sent {p : RequestPayload} (h : p.Timed) :
    decodePayload (b64url (Js.utf8 p.text)) =
      (assertNoForbiddenKeys (latin1 p.text)).map fun _ => p.read.toJs := by
  have hdecode : decodePayload (b64url (Js.utf8 p.text)) =
      (assertNoForbiddenKeys (latin1 p.text)).bind fun _ => Js.parseJson (latin1 p.text) := by
    rw [decodePayload, atob_b64url]
    rfl
  rw [hdecode, parseJson_latin1 h]
  cases assertNoForbiddenKeys (latin1 p.text) <;> rfl

/-- A payload of one-byte strings that end in no forbidden key is decoded as it was sent. -/
theorem decodePayload_travels {p : RequestPayload} (h : p.Timed)
    (hs : ∀ f ∈ p.strings, OneByte f.2 ∧ afterLastQuote f.2 ∉ forbiddenKeys) :
    decodePayload (b64url (Js.utf8 p.text)) = some p.toJs := by
  have hread : p.read = p := by
    have heq : ∀ f ∈ p.strings, readText f.2 = f.2 := fun f hf => (readText_eq_iff f.2).mpr (hs f hf).1
    simp only [RequestPayload.strings, List.forall_mem_cons, List.not_mem_nil, false_implies,
      implies_true, and_true] at heq
    obtain ⟨h1, h2, h3, h4, h5, h6⟩ := heq
    simp only [RequestPayload.read, h1, h2, h3, h4, h5, h6]
  rw [decodePayload_sent h, latin1_ascii (text_ascii h fun f hf => (hs f hf).1),
    (assertNoForbiddenKeys_text h).mpr fun f hf => (hs f hf).2, hread]
  rfl

/-- What is decoded of a payload is read from what was sent; and a payload of one-byte strings is not
    decoded where one of them ends in a forbidden key. -/
theorem decodePayload_eq_some {p : RequestPayload} (h : p.Timed) {payload : JsValue}
    (hdecode : decodePayload (b64url (Js.utf8 p.text)) = some payload) :
    payload = p.read.toJs ∧
      ((∀ f ∈ p.strings, OneByte f.2) → ∀ f ∈ p.strings, afterLastQuote f.2 ∉ forbiddenKeys) := by
  rw [decodePayload_sent h, Option.map_eq_some_iff] at hdecode
  obtain ⟨u, hscan, rfl⟩ := hdecode
  refine ⟨rfl, fun hone => (assertNoForbiddenKeys_text h).mp ?_⟩
  rw [← hscan, latin1_ascii (text_ascii h hone)]

end Wire
