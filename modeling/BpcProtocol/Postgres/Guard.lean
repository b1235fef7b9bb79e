import BpcProtocol.Lib.Fallible
import BpcProtocol.Postgres.Lexical
import Mathlib.Data.List.TakeWhile

set_option autoImplicit false

/-! # What the guard lets through

The scanner of `assertExecutorStatement` and the lexical rules of the server read a text alike, as
long as the server comes to no place where they differ. Then what the guard lets through is a single
statement that does not begin with a forbidden word. -/

namespace Postgres

open Fallible

/-! ## Where the two differ -/

/-- A carriage return that ends a line comment has only white space behind it on its line. -/
def clearComment : JsString → Bool
  | 13 :: rest => (rest.takeWhile (· != 10)).all isSpace
  | _ => true

/-- A backslash in an escape string takes a quote with it. -/
def escapedQuote : JsString → Bool
  | c :: d :: rest =>
      if c = 92 then d == 39 || escapedQuote rest
      else if c = 39 then d == 39 && escapedQuote rest
      else escapedQuote (d :: rest)
  | _ => false

/-- The scanner finds a dollar quote inside a name: `inWord` behind a letter or an underscore, up to
    a character outside of ASCII. -/
def tagInside (inWord : Bool) : JsString → Bool
  | [] => false
  | c :: rest =>
      if isHigh c then tagInside false rest
      else if inWord || isWordStart c then tagInside true rest
      else (dollarTag (c :: rest)).isSome || tagInside false rest

/-- A name in which the scanner finds neither white space nor a dollar quote. -/
def clearName (name : JsString) : Bool :=
  name.all (fun c => !(isHigh c && Js.isWhiteSpace c)) && !tagInside false name

/-- The scanner reads the piece at the character `c` as the server does. -/
def clearPiece (mode : LexMode) (c : UInt16) (rest : JsString) : Bool :=
  if isSpace c then true
  else if c == 45 && rest.head? == some 45 then
    clearComment ((rest.drop 1).dropWhile fun d => !isNewline d)
  else if c == 39 then decide (mode ≠ .behindEscape true) || !escapedQuote rest
  else if (c == 101 || c == 69) && rest.head? == some 39 then !escapedQuote (rest.drop 1)
  else if isIdentStart c then clearName (c :: rest.takeWhile isIdentPart)
  else (dollarDelimiter (c :: rest)).all fun delimiter => delimiter.all fun d => !isHigh d

/-- The server comes to this place of the text. -/
inductive Comes (sql : JsString) : LexMode → JsString → Prop where
  | start : Comes sql .plain sql
  | piece {mode mode' : LexMode} {c : UInt16} {rest rest' : JsString} {token : Option Token}
      (hcomes : Comes sql mode (c :: rest))
      (hstep : lexStep mode c rest = some (token, mode', rest')) : Comes sql mode' rest'

/-- The server comes to no piece that the scanner reads in another way: no line comment that ends at
    a carriage return before other text, no escaped quote in an escape string, no dollar quote with
    a tag outside of ASCII, and no name with such white space or with what looks like a dollar
    quote. -/
def Clear (sql : JsString) : Prop :=
  ∀ mode c rest, Comes sql mode (c :: rest) → clearPiece mode c rest = true

/-! ## Characters -/

theorem isWhiteSpace_of_low {c : UInt16} (h : isHigh c = false) :
    Js.isWhiteSpace c = isSpace c := by
  rw [Bool.eq_iff_iff]
  simp only [isHigh, decide_eq_false_iff_not, UInt16.le_iff_toNat_le] at h
  simp only [Js.isWhiteSpace, isSpace, Bool.or_eq_true, Bool.and_eq_true, decide_eq_true_eq,
    beq_iff_eq, UInt16.le_iff_toNat_le, ← UInt16.toNat_inj]
  simp at h ⊢
  omega

theorem isWordStart_iff (c : UInt16) :
    isWordStart c = true ↔ 65 ≤ c.toNat ∧ c.toNat ≤ 90 ∨ 97 ≤ c.toNat ∧ c.toNat ≤ 122 ∨
      c.toNat = 95 := by
  simp only [isWordStart, Js.isAlnum, Js.isDigit, Bool.or_eq_true, Bool.and_eq_true,
    decide_eq_true_eq, beq_iff_eq, Bool.not_eq_true', Bool.and_eq_false_iff,
    decide_eq_false_iff_not, UInt16.le_iff_toNat_le, ← UInt16.toNat_inj]
  simp
  omega

theorem isWordPart_iff (c : UInt16) :
    isWordPart c = true ↔ 48 ≤ c.toNat ∧ c.toNat ≤ 57 ∨ isWordStart c = true := by
  rw [isWordStart_iff]
  simp only [isWordPart, Js.isAlnum, Js.isDigit, Bool.or_eq_true, Bool.and_eq_true,
    decide_eq_true_eq, beq_iff_eq, UInt16.le_iff_toNat_le, ← UInt16.toNat_inj]
  simp
  omega

theorem isHigh_iff (c : UInt16) : isHigh c = true ↔ 128 ≤ c.toNat := by
  simp [isHigh, UInt16.le_iff_toNat_le]

theorem isSpace_iff (c : UInt16) :
    isSpace c = true ↔ 9 ≤ c.toNat ∧ c.toNat ≤ 13 ∨ c.toNat = 32 := by
  simp [isSpace, UInt16.le_iff_toNat_le, ← UInt16.toNat_inj]

/-- A further character of a word of the scanner. -/
def isWordOn (c : UInt16) : Bool :=
  isWordPart c || c == 36

theorem isWordOn_iff (c : UInt16) : isWordOn c = true ↔ isWordPart c = true ∨ c.toNat = 36 := by
  simp [isWordOn, ← UInt16.toNat_inj]

/-- A character of a name is one of a word, or outside of ASCII. -/
theorem isIdentPart_iff (c : UInt16) :
    isIdentPart c = true ↔ isWordOn c = true ∨ isHigh c = true := by
  simp only [isIdentPart, isTagPart, isWordOn, Bool.or_eq_true]
  tauto

/-! ## Runs of the scanner -/

/-- The scanner goes over the rest of a text. -/
inductive Scans : Scanned → JsString → Scanned → Prop where
  | done (seen : Scanned) : Scans seen [] seen
  | turn {seen final : Scanned} {c : UInt16} {rest : JsString} {next : Scanned × JsString}
      (hstep : scanStep seen c rest = .ok next) (htail : Scans next.1 next.2 final) :
      Scans seen (c :: rest) final

theorem Scans.of_cons {seen final : Scanned} {c : UInt16} {rest : JsString}
    (h : Scans seen (c :: rest) final) :
    ∃ next, scanStep seen c rest = .ok next ∧ Scans next.1 next.2 final := by
  cases h with
  | turn hstep htail => exact ⟨_, hstep, htail⟩

theorem closed_eq_ok {rest : Option JsString} {what : String} {rest' : JsString} :
    closed rest what = .ok rest' ↔ rest = some rest' := by
  cases rest with
  | none => simp [closed]
  | some rest => simp [closed]

theorem content_eq_ok {seen seen' : Scanned} :
    seen.content = .ok seen' ↔ seen.ended = false ∧ seen' = { seen with hasContent := true } := by
  unfold Scanned.content
  cases seen.ended with
  | true => simp
  | false => simp [eq_comm]

theorem scanContent_eq_ok {seen : Scanned} {c : UInt16} {rest : JsString}
    {next : Scanned × JsString} :
    scanContent seen c rest = .ok next ↔ seen.ended = false ∧
      next = if isWordStart c = true then
          ({ seen with
            hasContent := true
            firstWord := seen.firstWord.or (some ((c :: rest.takeWhile isWordOn).map upperCase)) },
            rest.dropWhile isWordOn)
        else ({ seen with hasContent := true }, rest) := by
  simp only [scanContent, bind_eq_ok, content_eq_ok]
  constructor
  · rintro ⟨seen', ⟨hended, rfl⟩, h⟩
    refine ⟨hended, ?_⟩
    split at h
    · next hstart =>
        rw [if_pos hstart]
        exact (Except.ok.inj h).symm
    · next hstart =>
        rw [if_neg hstart]
        exact (Except.ok.inj h).symm
  · rintro ⟨hended, rfl⟩
    refine ⟨_, ⟨hended, rfl⟩, ?_⟩
    split
    · rfl
    · rfl

section Lengths

theorem skipBlockComment_length {depth : ℕ} {text rest : JsString}
    (h : skipBlockComment depth text = some rest) : rest.length ≤ text.length := by
  fun_induction skipBlockComment depth text with
  | case1 text =>
      cases h
      exact le_rfl
  | case2 => cases h
  | case3 depth rest' ih => exact (ih h).trans (Nat.le_add_right _ 2)
  | case4 depth rest' ih => exact (ih h).trans (Nat.le_add_right _ 2)
  | case5 depth c rest' _ _ ih => exact (ih h).trans (by simp)

theorem skipQuoted_length {quote : UInt16} {text rest : JsString}
    (h : skipQuoted quote text = some rest) : rest.length ≤ text.length := by
  fun_induction skipQuoted quote text with
  | case1 => cases h
  | case2 =>
      cases h
      simp
  | case3 => cases h
  | case4 rest' ih => exact (ih h).trans (Nat.le_add_right _ 2)
  | case5 =>
      cases h
      simp
  | case6 c d rest' _ ih => exact (ih h).trans (by simp)

theorem skipTo_length {tag text rest : JsString} (h : skipTo tag text = some rest) :
    rest.length ≤ text.length := by
  fun_induction skipTo tag text with
  | case1 => cases h
  | case2 c rest' _ =>
      cases h
      exact (List.drop_suffix _ _).length_le
  | case3 c rest' _ ih => exact (ih h).trans (by simp)

theorem dollarTag_pos {text tag : JsString} (h : dollarTag text = some tag) : 1 ≤ tag.length := by
  unfold dollarTag at h
  split at h
  · cases h
    simp
  · split at h
    · cases h
      simp
    · cases h
  · cases h

theorem length_dropWhile_le (p : UInt16 → Bool) (text : JsString) :
    (text.dropWhile p).length ≤ text.length :=
  (List.dropWhile_suffix p).length_le

/-- Every turn leaves less of the text. -/
theorem scanStep_length {seen : Scanned} {c : UInt16} {rest : JsString}
    {next : Scanned × JsString} (h : scanStep seen c rest = .ok next) :
    next.2.length ≤ rest.length := by
  have hdrop : (rest.drop 1).length ≤ rest.length := by simp
  unfold scanStep at h
  split_ifs at h
  · cases h
    exact le_rfl
  · cases h
    exact (length_dropWhile_le _ _).trans hdrop
  · simp only [bind_eq_ok, closed_eq_ok, pure_eq_ok] at h
    obtain ⟨rest', hrest, rfl⟩ := h
    exact (skipBlockComment_length hrest).trans hdrop
  · cases h
    exact le_rfl
  · simp only [bind_eq_ok, closed_eq_ok, pure_eq_ok] at h
    obtain ⟨seen', -, rest', hrest, rfl⟩ := h
    exact skipQuoted_length hrest
  · cases htag : dollarTag (c :: rest) with
    | none =>
        rw [htag] at h
        obtain ⟨-, rfl⟩ := scanContent_eq_ok.mp h
        split
        · exact length_dropWhile_le _ _
        · exact le_rfl
    | some tag =>
        rw [htag] at h
        simp only [Option.elim_some, bind_eq_ok, closed_eq_ok, pure_eq_ok] at h
        obtain ⟨seen', -, rest', hrest, rfl⟩ := h
        have hpos := dollarTag_pos htag
        refine (skipTo_length hrest).trans ?_
        rw [List.length_drop, List.length_cons]
        omega

end Lengths

theorem scans_of_scan {fuel : ℕ} {seen final : Scanned} {text : JsString}
    (hfuel : text.length ≤ fuel) (h : scan fuel seen text = .ok final) :
    Scans seen text final := by
  induction fuel generalizing seen text with
  | zero =>
      obtain rfl := List.eq_nil_of_length_eq_zero (Nat.le_zero.mp hfuel)
      cases h
      exact .done _
  | succ fuel ih =>
      cases text with
      | nil =>
          cases h
          exact .done _
      | cons c rest =>
          simp only [scan, bind_eq_ok] at h
          obtain ⟨next, hstep, htail⟩ := h
          have hlength := scanStep_length hstep
          rw [List.length_cons] at hfuel
          exact .turn hstep (ih (by omega) htail)

/-! ## Quotes -/

theorem skipQuoted_cons_of_ne {quote c : UInt16} (hc : c ≠ quote) (rest : JsString) :
    skipQuoted quote (c :: rest) = skipQuoted quote rest := by
  cases rest with
  | nil => simp [skipQuoted, hc]
  | cons d rest => simp [skipQuoted, hc]

/-- Without an escaped quote an escape string ends where another string would. -/
theorem skipEscape_eq {text : JsString} (h : escapedQuote text = false) :
    skipEscape text = skipQuoted 39 text := by
  fun_induction skipEscape text with
  | case1 => rfl
  | case2 => rfl
  | case3 c hc => simp [skipQuoted, hc]
  | case4 d rest ih =>
      rw [escapedQuote, if_pos rfl, Bool.or_eq_false_iff] at h
      have hd : d ≠ 39 := by simpa using h.1
      rw [skipQuoted_cons_of_ne (by decide), skipQuoted_cons_of_ne hd, ih h.2]
  | case5 rest _ ih =>
      rw [escapedQuote, if_neg (by decide), if_pos rfl] at h
      rw [ih (by simpa using h)]
      simp [skipQuoted]
  | case6 d rest hd _ => simp [skipQuoted, hd]
  | case7 c d rest hbackslash hquote ih =>
      rw [escapedQuote, if_neg hbackslash, if_neg hquote] at h
      rw [skipQuoted_cons_of_ne hquote, ih h]

/-! ## Dollar quotes -/

theorem takeWhile_eq_of_all {p q : UInt16 → Bool} (hqp : ∀ c, q c = true → p c = true)
    (text : JsString) (h : ∀ c ∈ text.takeWhile p, q c = true) :
    text.takeWhile q = text.takeWhile p ∧ text.dropWhile q = text.dropWhile p := by
  induction text with
  | nil => exact ⟨rfl, rfl⟩
  | cons c rest ih =>
      cases hc : p c with
      | true =>
          rw [List.takeWhile_cons_of_pos hc, List.forall_mem_cons] at h
          obtain ⟨htake, hdrop⟩ := ih h.2
          rw [List.takeWhile_cons_of_pos h.1, List.takeWhile_cons_of_pos hc,
            List.dropWhile_cons_of_pos h.1, List.dropWhile_cons_of_pos hc, htake, hdrop]
          exact ⟨rfl, rfl⟩
      | false =>
          have hq : ¬q c = true := fun hq => by simp [hqp c hq] at hc
          have hp : ¬p c = true := by simp [hc]
          rw [List.takeWhile_cons_of_neg hq, List.takeWhile_cons_of_neg hp,
            List.dropWhile_cons_of_neg hq, List.dropWhile_cons_of_neg hp]
          exact ⟨rfl, rfl⟩

/-- A longer run ends where the shorter one does, if what is there ends it. -/
theorem dropWhile_eq_of_head {p q : UInt16 → Bool} (hqp : ∀ c, q c = true → p c = true)
    {text : JsString} {d : UInt16} (hhead : (text.dropWhile q).head? = some d) (hd : p d = false) :
    text.dropWhile p = text.dropWhile q := by
  induction text with
  | nil => rfl
  | cons c rest ih =>
      cases hc : q c with
      | true =>
          rw [List.dropWhile_cons_of_pos hc] at hhead ⊢
          rw [List.dropWhile_cons_of_pos (hqp c hc), ih hhead]
      | false =>
          have hq : ¬q c = true := by simp [hc]
          rw [List.dropWhile_cons_of_neg hq] at hhead ⊢
          obtain rfl := Option.some.inj hhead
          exact List.dropWhile_cons_of_neg (by simp [hd])

theorem isTagPart_of_isWordPart (c : UInt16) (h : isWordPart c = true) : isTagPart c = true := by
  simp [isTagPart, h]

theorem isWordPart_of_low {c : UInt16} (h : isTagPart c = true) (hlow : isHigh c = false) :
    isWordPart c = true := by
  simpa [isTagPart, hlow] using h

/-- The scanner finds each delimiter of a dollar quote that is ASCII. -/
theorem dollarTag_of_low {text delimiter : JsString} (h : dollarDelimiter text = some delimiter)
    (hlow : delimiter.all (fun d => !isHigh d) = true) : dollarTag text = some delimiter := by
  unfold dollarDelimiter at h
  split at h
  · cases h
    rfl
  · next c rest hne =>
      split_ifs at h with hdelimiter
      obtain rfl := Option.some.inj h
      simp only [List.all_cons, List.all_append, Bool.and_eq_true, List.all_eq_true,
        Bool.not_eq_true'] at hlow
      rw [Bool.and_eq_true] at hdelimiter
      obtain ⟨htake, hdrop⟩ := takeWhile_eq_of_all isTagPart_of_isWordPart rest
        fun d hd => isWordPart_of_low (List.mem_takeWhile_imp hd) (hlow.1.2.2 d hd)
      have hstart : isWordStart c = true := by
        simpa [isIdentStart, hlow.1.2.1] using hdelimiter.1
      rw [dollarTag, hstart, htake, hdrop, hdelimiter.2]
      · rfl
      · exact hne
  · cases h

/-- What the scanner takes for a dollar quote is one. -/
theorem dollarTag_eq_none {text : JsString} (h : dollarDelimiter text = none) :
    dollarTag text = none := by
  unfold dollarTag
  split
  · cases h
  · next c rest hne =>
      split_ifs with htag
      · exfalso
        rw [Bool.and_eq_true, beq_iff_eq] at htag
        have hdrop := dropWhile_eq_of_head isTagPart_of_isWordPart htag.2 (by decide)
        rw [dollarDelimiter, hdrop, htag.2, isIdentStart, htag.1] at h
        · cases h
        · exact hne
      · rfl
  · rfl

/-! ## Turns of the scanner -/

theorem dollarTag_of_ne {c : UInt16} (hc : c ≠ 36) (rest : JsString) :
    dollarTag (c :: rest) = none := by
  unfold dollarTag
  split
  · next h => exact absurd (List.cons.inj h).1 hc
  · next h => exact absurd (List.cons.inj h).1 hc
  · rfl

theorem dollarDelimiter_of_ne {c : UInt16} (hc : c ≠ 36) (rest : JsString) :
    dollarDelimiter (c :: rest) = none := by
  unfold dollarDelimiter
  split
  · next h => exact absurd (List.cons.inj h).1 hc
  · next h => exact absurd (List.cons.inj h).1 hc
  · rfl

theorem scanStep_space {c : UInt16} (h : isSpace c = true) (seen : Scanned) (rest : JsString) :
    scanStep seen c rest = .ok (seen, rest) := by
  have hlow : isHigh c = false := by
    rw [isSpace_iff] at h
    rw [← Bool.not_eq_true, isHigh_iff]
    omega
  have hspace : Js.isWhiteSpace c = true := (isWhiteSpace_of_low hlow).trans h
  rw [scanStep, if_pos hspace]
  rfl

theorem scanStep_quote {c : UInt16} (hc : c = 39 ∨ c = 34) {seen : Scanned} {rest : JsString}
    {next : Scanned × JsString} :
    scanStep seen c rest = .ok next ↔ seen.ended = false ∧ ∃ rest', skipQuoted c rest = some rest' ∧
      next = ({ seen with hasContent := true }, rest') := by
  have hstep : scanStep seen c rest = (do
      let seen ← seen.content
      let rest ← closed (skipQuoted c rest) "quote"
      pure (seen, rest)) := by
    obtain rfl | rfl := hc
    · rfl
    · rfl
  rw [hstep]
  simp only [bind_eq_ok, content_eq_ok, closed_eq_ok, pure_eq_ok]
  constructor
  · rintro ⟨seen', ⟨hended, rfl⟩, rest', hrest, rfl⟩
    exact ⟨hended, rest', hrest, rfl⟩
  · rintro ⟨hended, rest', hrest, rfl⟩
    exact ⟨_, ⟨hended, rfl⟩, rest', hrest, rfl⟩

/-- A character that begins nothing else is content. -/
theorem scanStep_content {c : UInt16} {rest : JsString} (hspace : Js.isWhiteSpace c = false)
    (hline : (c == 45 && rest.head? == some 45) = false)
    (hblock : (c == 47 && rest.head? == some 42) = false)
    (hne : c ≠ 59 ∧ c ≠ 39 ∧ c ≠ 34) (htag : dollarTag (c :: rest) = none) (seen : Scanned) :
    scanStep seen c rest = scanContent seen c rest := by
  have hquote : (c == 39 || c == 34) = false := by simp [hne]
  rw [scanStep, hspace, hline, hblock, hquote, htag, if_neg (by simp), if_neg (by simp),
    if_neg (by simp), if_neg (by simpa using hne.1), if_neg (by simp)]
  rfl

/-- A character of a name, unless it is a dollar sign. -/
theorem scanStep_ident {c : UInt16} {rest : JsString} (hc : isIdentPart c = true)
    (hspace : (isHigh c && Js.isWhiteSpace c) = false) (htag : dollarTag (c :: rest) = none)
    (seen : Scanned) : scanStep seen c rest = scanContent seen c rest := by
  rw [isIdentPart_iff, isWordOn_iff, isWordPart_iff, isWordStart_iff, isHigh_iff] at hc
  have hne : ∀ d : UInt16, d.toNat ∈ [45, 47, 59, 39, 34] → c ≠ d := by
    rintro d hd rfl
    simp only [List.mem_cons, List.not_mem_nil, or_false] at hd
    omega
  have hwhite : Js.isWhiteSpace c = false := by
    cases hhigh : isHigh c with
    | true => simpa [hhigh] using hspace
    | false =>
        rw [isWhiteSpace_of_low hhigh, ← Bool.not_eq_true, isSpace_iff]
        omega
  exact scanStep_content hwhite (by simp [hne 45 (by decide)]) (by simp [hne 47 (by decide)])
    ⟨hne 59 (by decide), hne 39 (by decide), hne 34 (by decide)⟩ htag seen

/-! ## Content -/

/-- The scanner has read content of the statement. -/
structure Reads (seen seen' : Scanned) : Prop where
  before : seen.ended = false
  after : seen'.ended = false
  content : seen'.hasContent = true
  firstWord : ∀ word, seen.firstWord = some word → seen'.firstWord = some word

theorem Reads.trans {seen seen' seen'' : Scanned} (h : Reads seen seen') (h' : Reads seen' seen'') :
    Reads seen seen'' where
  before := h.before
  after := h'.after
  content := h'.content
  firstWord word hword := h'.firstWord word (h.firstWord word hword)

theorem reads_content {seen : Scanned} (h : seen.ended = false) :
    Reads seen { seen with hasContent := true } :=
  ⟨h, h, rfl, fun _ hword => hword⟩

theorem reads_word {seen : Scanned} (h : seen.ended = false) (word : JsString) :
    Reads seen
      { seen with hasContent := true, firstWord := seen.firstWord.or (some word) } :=
  ⟨h, h, rfl, fun first hfirst => by simp [hfirst]⟩

variable {seen final : Scanned} {c : UInt16} {rest rest' : JsString}

theorem Scans.quoted (hc : c = 39 ∨ c = 34) (h : Scans seen (c :: rest) final)
    (hskip : skipQuoted c rest = some rest') :
    ∃ seen', Reads seen seen' ∧ Scans seen' rest' final := by
  obtain ⟨next, hstep, htail⟩ := h.of_cons
  obtain ⟨hended, rest'', hrest, rfl⟩ := (scanStep_quote hc).mp hstep
  obtain rfl := Option.some.inj (hskip.symm.trans hrest)
  exact ⟨_, reads_content hended, htail⟩

theorem Scans.content (h : Scans seen (c :: rest) final)
    (hcontent : scanStep seen c rest = scanContent seen c rest) (hc : isWordStart c = false) :
    ∃ seen', Reads seen seen' ∧ Scans seen' rest final := by
  obtain ⟨next, hstep, htail⟩ := h.of_cons
  obtain ⟨hended, rfl⟩ := scanContent_eq_ok.mp (hcontent ▸ hstep)
  rw [if_neg (by simp [hc])] at htail
  exact ⟨_, reads_content hended, htail⟩

theorem Scans.word (h : Scans seen (c :: rest) final) (hc : isWordStart c = true) :
    ∃ seen', Reads seen seen' ∧ Scans seen' (rest.dropWhile isWordOn) final ∧
      (seen.firstWord = none →
        seen'.firstWord = some ((c :: rest.takeWhile isWordOn).map upperCase)) := by
  have hstart := (isWordStart_iff c).mp hc
  have hlow : isHigh c = false := by
    rw [← Bool.not_eq_true, isHigh_iff]
    omega
  have hdollar : c ≠ 36 := by
    rintro rfl
    exact absurd hstart (by decide)
  have hident : isIdentPart c = true := by
    rw [isIdentPart_iff, isWordOn_iff, isWordPart_iff]
    exact .inl (.inl (.inr hc))
  obtain ⟨next, hstep, htail⟩ := h.of_cons
  rw [scanStep_ident hident (by simp [hlow]) (dollarTag_of_ne hdollar rest)] at hstep
  obtain ⟨hended, rfl⟩ := scanContent_eq_ok.mp hstep
  rw [if_pos hc] at htail
  exact ⟨_, reads_word hended _, htail, fun hnone => by simp [hnone]⟩

/-! ## Names -/

/-- A name cannot go on in what is behind it. -/
def Behind (rest : JsString) : Prop :=
  ∀ c, rest.head? = some c → isIdentPart c = false

theorem behind_dropWhile (text : JsString) : Behind (text.dropWhile isIdentPart) := by
  intro c hc
  have h := List.head?_dropWhile_not isIdentPart text
  rw [hc] at h
  simpa using h

theorem Behind.dropWhile (h : Behind rest) {p : UInt16 → Bool}
    (hp : ∀ c, p c = true → isIdentPart c = true) : rest.dropWhile p = rest := by
  cases rest with
  | nil => rfl
  | cons c rest =>
      refine List.dropWhile_cons_of_neg fun hc => ?_
      exact absurd (hp c hc) (by simp [h c rfl])

theorem isIdentPart_of_isWordOn (c : UInt16) (h : isWordOn c = true) : isIdentPart c = true :=
  (isIdentPart_iff c).mpr (.inl h)

theorem isIdentPart_of_isWordPart (c : UInt16) (h : isWordPart c = true) : isIdentPart c = true :=
  isIdentPart_of_isWordOn c ((isWordOn_iff c).mpr (.inl h))

/-- A dollar quote that is not found inside a name is not found across its end. -/
theorem dollarTag_append {name : JsString} (h : dollarTag (36 :: name) = none)
    (hrest : Behind rest) : dollarTag (36 :: (name ++ rest)) = none := by
  have hnot : ∀ c, isIdentPart c = true → rest.head? ≠ some c := by
    intro c hc hhead
    rw [hrest c hhead] at hc
    cases hc
  cases name with
  | nil =>
      cases rest with
      | nil => rfl
      | cons c rest =>
          have hc : isIdentPart c = false := hrest c rfl
          have hstart : isWordStart c = false := by
            rw [← Bool.not_eq_true]
            intro hstart
            rw [isIdentPart_of_isWordPart c ((isWordPart_iff c).mpr (.inr hstart))] at hc
            cases hc
          have hne : c ≠ 36 := by
            rintro rfl
            exact absurd hc (by decide)
          rw [List.nil_append, dollarTag, hstart]
          · rfl
          · exact hne
  | cons c name =>
      have hne : c ≠ 36 := by
        rintro rfl
        cases h
      have hname : (isWordStart c && (name.dropWhile isWordPart).head? == some 36) = false := by
        rw [dollarTag] at h
        · rw [← Bool.not_eq_true]
          intro htag
          rw [if_pos htag] at h
          cases h
        · exact hne
      have hall : (isWordStart c && ((name ++ rest).dropWhile isWordPart).head? == some 36) =
          false := by
        cases hstart : isWordStart c with
        | false => rfl
        | true =>
            rw [hstart, Bool.true_and] at hname
            rw [Bool.true_and, List.dropWhile_append]
            split
            · rw [hrest.dropWhile isIdentPart_of_isWordPart]
              simpa using hnot 36 (by decide)
            · next hdrop =>
                cases hdropped : name.dropWhile isWordPart with
                | nil => simp [hdropped] at hdrop
                | cons d tail =>
                    rw [hdropped] at hname
                    exact hname
      rw [List.cons_append, dollarTag]
      · rw [hall]
        rfl
      · exact hne

/-- Behind a letter nothing is found up to the end of the word. -/
theorem tagInside_word (text : JsString) (htext : ∀ c ∈ text, isIdentPart c = true) :
    tagInside true text = tagInside false (text.dropWhile isWordOn) := by
  induction text with
  | nil => rfl
  | cons c text ih =>
      have hrest := ih fun d hd => htext d (List.mem_cons_of_mem c hd)
      cases hc : isWordOn c with
      | true =>
          have hlow : isHigh c = false := by
            rw [isWordOn_iff, isWordPart_iff, isWordStart_iff] at hc
            rw [← Bool.not_eq_true, isHigh_iff]
            omega
          rw [List.dropWhile_cons_of_pos hc, ← hrest, tagInside, hlow]
          rfl
      | false =>
          have hhigh : isHigh c = true := by
            have hident := (isIdentPart_iff c).mp (htext c List.mem_cons_self)
            simpa [hc] using hident
          rw [List.dropWhile_cons_of_neg (by simp [hc]), tagInside, tagInside, hhigh]
          rfl

/-- **A name is content** where the scanner finds no white space and no dollar quote in it. -/
theorem Scans.name {name : JsString} (hname : ∀ c ∈ name, isIdentPart c = true)
    (hwhite : ∀ c ∈ name, (isHigh c && Js.isWhiteSpace c) = false)
    (htag : tagInside false name = false) (hne : name ≠ []) (hrest : Behind rest)
    (h : Scans seen (name ++ rest) final) :
    ∃ seen', Reads seen seen' ∧ Scans seen' rest final := by
  induction hlength : name.length using Nat.strongRecOn generalizing name seen with
  | ind n ih =>
      cases name with
      | nil => exact absurd rfl hne
      | cons c tail =>
          rw [List.forall_mem_cons] at hname hwhite
          -- what is left of the name, if anything, is shorter
          have hgo : ∀ {seen' : Scanned} {left : JsString}, left <:+ tail →
              tagInside false left = false → Reads seen seen' → Scans seen' (left ++ rest) final →
              ∃ seen', Reads seen seen' ∧ Scans seen' rest final := by
            intro seen' left hleft htagLeft hreads hscans
            by_cases hempty : left = []
            · subst hempty
              exact ⟨seen', hreads, hscans⟩
            · have hshort := hleft.length_le
              rw [List.length_cons] at hlength
              obtain ⟨seen'', hreads', hscans'⟩ := ih left.length (by omega)
                (fun d hd => hname.2 d (hleft.subset hd)) (fun d hd => hwhite.2 d (hleft.subset hd))
                htagLeft hempty hscans rfl
              exact ⟨seen'', hreads.trans hreads', hscans'⟩
          cases hstart : isWordStart c with
          | true =>
              have hlow : isHigh c = false := by
                rw [isWordStart_iff] at hstart
                rw [← Bool.not_eq_true, isHigh_iff]
                omega
              rw [List.cons_append] at h
              obtain ⟨seen', hreads, hscans, -⟩ := h.word hstart
              have hdrop : (tail ++ rest).dropWhile isWordOn = tail.dropWhile isWordOn ++ rest := by
                rw [List.dropWhile_append]
                split
                · next hnil =>
                    rw [hrest.dropWhile isIdentPart_of_isWordOn, List.isEmpty_iff.mp hnil]
                    rfl
                · rfl
              rw [hdrop] at hscans
              refine hgo (List.dropWhile_suffix _) ?_ hreads hscans
              rw [← tagInside_word tail hname.2]
              rw [tagInside, hlow, hstart] at htag
              exact htag
          | false =>
              have htagTail : tagInside false tail = false := by
                rw [tagInside, hstart] at htag
                split_ifs at htag with hhigh hword
                · exact htag
                · cases hword
                · exact (Bool.or_eq_false_iff.mp htag).2
              have hnone : dollarTag (c :: (tail ++ rest)) = none := by
                by_cases hdollar : c = 36
                · subst hdollar
                  refine dollarTag_append ?_ hrest
                  rw [tagInside, if_neg (by decide), if_neg (by decide),
                    Bool.or_eq_false_iff] at htag
                  simpa using htag.1
                · exact dollarTag_of_ne hdollar _
              obtain ⟨seen', hreads, hscans⟩ :=
                Scans.content h (scanStep_ident hname.1 hwhite.1 hnone seen) hstart
              exact hgo (List.suffix_refl tail) htagTail hreads hscans

/-! ## Pieces -/

/-- What the scanner has seen once it has read a piece of the server. -/
def Takes (seen : Scanned) : Option Token → Scanned → Prop
  | none, seen' => seen' = seen
  | some .semicolon, seen' =>
      seen.hasContent = true ∧ seen.ended = false ∧ seen' = { seen with ended := true }
  | some (.word text), seen' =>
      Reads seen seen' ∧ ((∀ c ∈ text, isHigh c = false) → seen.firstWord = none →
        seen'.firstWord = some (text.map upperCase))
  | some _, seen' => Reads seen seen'

theorem Scans.spaces {spaces : JsString} (hspaces : spaces.all isSpace = true)
    (h : Scans seen rest final) : Scans seen (spaces ++ rest) final := by
  induction spaces with
  | nil => exact h
  | cons c spaces ih =>
      rw [List.all_cons, Bool.and_eq_true] at hspaces
      exact .turn (scanStep_space hspaces.1 seen _) (ih hspaces.2)

/-- What the scanner takes for the rest of a line comment is white space. -/
theorem Scans.comment {text : JsString}
    (hclear : clearComment (text.dropWhile fun d => !isNewline d) = true)
    (h : Scans seen (text.dropWhile (· != 10)) final) :
    Scans seen (text.dropWhile fun d => !isNewline d) final := by
  induction text with
  | nil => exact h
  | cons c text ih =>
      by_cases hline : c = 10
      · subst hline
        exact h
      · rw [List.dropWhile_cons_of_pos (by simpa using hline)] at h
        by_cases hreturn : c = 13
        · subst hreturn
          have hspaces : (13 :: text.takeWhile (· != 10)).all isSpace = true := hclear
          have hsplit :
              13 :: text.takeWhile (· != 10) ++ text.dropWhile (· != 10) = 13 :: text := by
            rw [List.cons_append, List.takeWhile_append_dropWhile]
          have hscans := h.spaces hspaces
          rwa [hsplit] at hscans
        · have hkeep : (fun d => !isNewline d) c = true := by simp [isNewline, hline, hreturn]
          rw [List.dropWhile_cons_of_pos (p := fun d => !isNewline d) hkeep] at hclear ⊢
          exact ih hclear h

/-- A single letter before a quote or an ampersand. -/
theorem Scans.letter (h : Scans seen (c :: rest) final) (hc : isWordStart c = true)
    (hrest : Behind rest) : ∃ seen', Reads seen seen' ∧ Scans seen' rest final := by
  obtain ⟨seen', hreads, hscans, -⟩ := h.word hc
  rw [hrest.dropWhile isIdentPart_of_isWordOn] at hscans
  exact ⟨seen', hreads, hscans⟩

theorem lexQuoted_eq_some {mode mode' : LexMode} {behind : Option JsString}
    {token : Option Token} :
    lexQuoted mode behind = some (token, mode', rest') ↔
      token = some .quoted ∧ mode' = mode ∧ behind = some rest' := by
  cases behind with
  | none => simp [lexQuoted]
  | some behind =>
      simp only [lexQuoted, Option.map_some, Option.some.injEq, Prod.mk.injEq]
      exact and_congr eq_comm (and_congr eq_comm Iff.rfl)

/-- A string behind a letter. -/
theorem Scans.prefixed {quote : UInt16} (hquote : quote = 39 ∨ quote = 34)
    (h : Scans seen (c :: rest) final) (hc : isWordStart c = true)
    (hhead : rest.head? = some quote) (hskip : skipQuoted quote (rest.drop 1) = some rest') :
    ∃ seen', Reads seen seen' ∧ Scans seen' rest' final := by
  obtain ⟨rest, rfl⟩ : ∃ tail, rest = quote :: tail :=
    ⟨rest.tail, (List.cons_head?_tail hhead).symm⟩
  have hbehind : Behind (quote :: rest) := by
    rintro d hd
    obtain rfl := Option.some.inj hd
    obtain rfl | rfl := hquote
    · decide
    · decide
  obtain ⟨seen', hreads, hscans⟩ := h.letter hc hbehind
  obtain ⟨seen'', hreads', hscans'⟩ := hscans.quoted hquote hskip
  exact ⟨seen'', hreads.trans hreads', hscans'⟩

/-- A string or a name with Unicode escapes. -/
theorem Scans.unicode {quote : UInt16} (h : Scans seen (c :: rest) final)
    (hunicode : unicodeQuote c rest = some quote)
    (hskip : skipQuoted quote (rest.drop 2) = some rest') :
    ∃ seen', Reads seen seen' ∧ Scans seen' rest' final := by
  unfold unicodeQuote at hunicode
  split_ifs at hunicode with hletter
  rw [Bool.and_eq_true, beq_iff_eq] at hletter
  obtain ⟨hhead, hquote⟩ := Option.filter_eq_some_iff.mp hunicode
  have hquote : quote = 39 ∨ quote = 34 := by simpa using hquote
  obtain ⟨rest, rfl⟩ : ∃ tail, rest = 38 :: quote :: tail := by
    have hrest := List.cons_head?_tail hletter.2
    have htail : rest.tail.head? = some quote := by rwa [← List.drop_one]
    exact ⟨rest.tail.tail, by rw [← hrest, ← List.cons_head?_tail htail]; rfl⟩
  have hstart : isWordStart c = true := by
    have hmem : c ∈ Js.lit "uU" := by simpa [Js.oneOf] using hletter.1
    have hall : (Js.lit "uU").all isWordStart = true := by decide
    exact List.all_eq_true.mp hall c hmem
  have hbehind : Behind (38 :: quote :: rest) := by
    rintro d hd
    obtain rfl := Option.some.inj hd
    decide
  obtain ⟨seen₁, hreads, hscans⟩ := h.letter hstart hbehind
  have hcontent : scanStep seen₁ 38 (quote :: rest) = scanContent seen₁ 38 (quote :: rest) :=
    scanStep_content (by decide) rfl rfl (by decide) (dollarTag_of_ne (by decide) _) seen₁
  obtain ⟨seen₂, hreads', hscans'⟩ := hscans.content hcontent (by decide)
  obtain ⟨seen₃, hreads'', hscans''⟩ := hscans'.quoted hquote hskip
  exact ⟨seen₃, (hreads.trans hreads').trans hreads'', hscans''⟩

/-- A dollar quote with a delimiter that is ASCII. -/
theorem Scans.dollar {delimiter : JsString} (h : Scans seen (c :: rest) final)
    (hdelimiter : dollarDelimiter (c :: rest) = some delimiter)
    (hlow : delimiter.all (fun d => !isHigh d) = true)
    (hskip : skipTo delimiter ((c :: rest).drop delimiter.length) = some rest') :
    ∃ seen', Reads seen seen' ∧ Scans seen' rest' final := by
  have hc : c = 36 := by
    by_contra hne
    rw [dollarDelimiter_of_ne hne] at hdelimiter
    cases hdelimiter
  subst hc
  obtain ⟨next, hstep, htail⟩ := h.of_cons
  have hturn : scanStep seen 36 rest = (dollarTag (36 :: rest)).elim (scanContent seen 36 rest)
      fun tag => (do
        let seen ← seen.content
        let rest ← closed (skipTo tag ((36 :: rest).drop tag.length)) "dollar quote"
        pure (seen, rest)) := rfl
  rw [hturn, dollarTag_of_low hdelimiter hlow] at hstep
  simp only [Option.elim_some, bind_eq_ok, content_eq_ok, closed_eq_ok, pure_eq_ok] at hstep
  obtain ⟨seen', ⟨hended, rfl⟩, rest'', hrest, rfl⟩ := hstep
  obtain rfl := Option.some.inj (hskip.symm.trans hrest)
  exact ⟨_, reads_content hended, htail⟩

theorem tagInside_numeral {text : JsString} (htext : ∀ c ∈ text, isWordPart c = true) :
    ∀ inWord, tagInside inWord text = false := by
  induction text with
  | nil => exact fun _ => rfl
  | cons c text ih =>
      intro inWord
      rw [List.forall_mem_cons] at htext
      have hc := htext.1
      have hdollar : c ≠ 36 := by
        rintro rfl
        exact absurd hc (by decide)
      rw [tagInside]
      split_ifs
      · exact ih htext.2 false
      · exact ih htext.2 true
      · rw [dollarTag_of_ne hdollar, ih htext.2 false]
        rfl

theorem isHigh_of_isWordPart {c : UInt16} (h : isWordPart c = true) : isHigh c = false := by
  rw [isWordPart_iff, isWordStart_iff] at h
  rw [← Bool.not_eq_true, isHigh_iff]
  omega

theorem isWordPart_of_isDigit {c : UInt16} (h : Js.isDigit c = true) : isWordPart c = true := by
  simp [isWordPart, Js.isAlnum, h]

/-- A name of the server. -/
theorem Scans.takes_name (h : Scans seen (c :: rest) final) (hc : isIdentStart c = true)
    (hclear : clearName (c :: rest.takeWhile isIdentPart) = true) :
    ∃ seen', Takes seen (some (.word (c :: rest.takeWhile isIdentPart))) seen' ∧
      Scans seen' (rest.dropWhile isIdentPart) final := by
  rw [clearName, Bool.and_eq_true, List.all_eq_true, Bool.not_eq_true'] at hclear
  by_cases hlow : ∀ d ∈ c :: rest.takeWhile isIdentPart, isHigh d = false
  · rw [List.forall_mem_cons] at hlow
    have hstart : isWordStart c = true := by simpa [isIdentStart, hlow.1] using hc
    obtain ⟨htake, hdrop⟩ := takeWhile_eq_of_all isIdentPart_of_isWordOn rest fun d hd => by
      have hident := (isIdentPart_iff d).mp (List.mem_takeWhile_imp hd)
      simpa [hlow.2 d hd] using hident
    obtain ⟨seen', hreads, hscans, hword⟩ := h.word hstart
    rw [htake] at hword
    rw [hdrop] at hscans
    exact ⟨seen', ⟨hreads, fun _ => hword⟩, hscans⟩
  · have hident : ∀ d ∈ c :: rest.takeWhile isIdentPart, isIdentPart d = true := by
      rw [List.forall_mem_cons]
      refine ⟨?_, fun d hd => List.mem_takeWhile_imp hd⟩
      rw [isIdentStart, Bool.or_eq_true] at hc
      rw [isIdentPart_iff, isWordOn_iff, isWordPart_iff]
      tauto
    have hscans : Scans seen (c :: rest.takeWhile isIdentPart ++ rest.dropWhile isIdentPart)
        final := by
      rwa [List.cons_append, List.takeWhile_append_dropWhile]
    obtain ⟨seen', hreads, hscans'⟩ := hscans.name hident
      (fun d hd => (Bool.not_eq_true' _).mp (hclear.1 d hd)) hclear.2 (by simp)
      (behind_dropWhile rest)
    exact ⟨seen', ⟨hreads, fun hall => absurd hall hlow⟩, hscans'⟩

/-- A digit of the server, with the letters behind it. -/
theorem Scans.takes_digit {mode : LexMode} {token : Option Token}
    (h : Scans seen (c :: rest) final) (hc : Js.isDigit c = true)
    (hstep : lexDigit rest = some (token, mode, rest')) :
    ∃ seen', Takes seen token seen' ∧ Scans seen' rest' final := by
  have hpart := isWordPart_of_isDigit hc
  have hlow := isHigh_of_isWordPart hpart
  unfold lexDigit at hstep
  split_ifs at hstep with hletter hall
  · cases hstep
    rw [List.all_eq_true] at hall
    have hname : ∀ d ∈ c :: rest.takeWhile isIdentPart, isWordPart d = true :=
      List.forall_mem_cons.mpr ⟨hpart, hall⟩
    have hscans : Scans seen (c :: rest.takeWhile isIdentPart ++ rest.dropWhile isIdentPart)
        final := by
      rwa [List.cons_append, List.takeWhile_append_dropWhile]
    exact hscans.name (fun d hd => isIdentPart_of_isWordPart d (hname d hd))
      (fun d hd => by simp [isHigh_of_isWordPart (hname d hd)]) (tagInside_numeral hname false)
      (by simp) (behind_dropWhile rest)
  · cases hstep
    have hdigit : 48 ≤ c.toNat ∧ c.toNat ≤ 57 := by
      simpa [Js.isDigit, UInt16.le_iff_toNat_le] using hc
    have hdollar : c ≠ 36 := by
      rintro rfl
      exact absurd hdigit (by decide)
    have hstart : isWordStart c = false := by
      rw [← Bool.not_eq_true, isWordStart_iff]
      omega
    exact h.content (scanStep_ident (isIdentPart_of_isWordPart c hpart) (by simp [hlow])
      (dollarTag_of_ne hdollar rest) seen) hstart

/-- What begins with a letter or a dollar sign, or is a character of its own. -/
theorem Scans.takes_constant {mode mode' : LexMode} {token : Option Token}
    (h : Scans seen (c :: rest) final) (hspace : isSpace c = false)
    (hline : (c == 45 && rest.head? == some 45) = false)
    (hblock : (c == 47 && rest.head? == some 42) = false)
    (hne : c ≠ 59 ∧ c ≠ 39 ∧ c ≠ 34) (hclear : clearPiece mode c rest = true)
    (hstep : lexConstant c rest = some (token, mode', rest')) :
    ∃ seen', Takes seen token seen' ∧ Scans seen' rest' final := by
  rw [clearPiece, hspace, hline, if_neg (by simp), if_neg (by simp),
    if_neg (by simpa using hne.2.1)] at hclear
  unfold lexConstant at hstep
  split_ifs at hstep with hescape hletter
  · obtain ⟨rfl, -, hskip⟩ := lexQuoted_eq_some.mp hstep
    rw [if_pos hescape, Bool.not_eq_true'] at hclear
    rw [Bool.and_eq_true, beq_iff_eq] at hescape
    have hstart : isWordStart c = true := by
      have hmem : c ∈ Js.lit "eE" := by simpa [Js.lit] using hescape.1
      have hall : (Js.lit "eE").all isWordStart = true := by decide
      exact List.all_eq_true.mp hall c hmem
    rw [skipEscape_eq hclear] at hskip
    exact h.prefixed (.inl rfl) hstart hescape.2 hskip
  · obtain ⟨rfl, -, hskip⟩ := lexQuoted_eq_some.mp hstep
    rw [Bool.and_eq_true, beq_iff_eq] at hletter
    have hstart : isWordStart c = true := by
      have hmem : c ∈ Js.lit "bBxXnN" := by simpa [isStringPrefix, Js.oneOf] using hletter.1
      have hall : (Js.lit "bBxXnN").all isWordStart = true := by decide
      exact List.all_eq_true.mp hall c hmem
    exact h.prefixed (.inl rfl) hstart hletter.2 hskip
  · rw [if_neg hescape] at hclear
    cases hunicode : unicodeQuote c rest with
    | some quote =>
        rw [hunicode] at hstep
        obtain ⟨rfl, -, hskip⟩ := lexQuoted_eq_some.mp hstep
        exact h.unicode hunicode hskip
    | none =>
        rw [hunicode] at hstep
        cases hdelimiter : dollarDelimiter (c :: rest) with
        | some delimiter =>
            rw [hdelimiter] at hstep
            obtain ⟨rfl, -, hskip⟩ := lexQuoted_eq_some.mp hstep
            have hident : ¬isIdentStart c = true := by
              intro hident
              have hc : c ≠ 36 := by
                rintro rfl
                exact absurd hident (by decide)
              rw [dollarDelimiter_of_ne hc] at hdelimiter
              cases hdelimiter
            rw [if_neg hident, hdelimiter] at hclear
            exact h.dollar hdelimiter hclear hskip
        | none =>
            rw [hdelimiter] at hstep
            change lexWord c rest = _ at hstep
            unfold lexWord at hstep
            split_ifs at hstep with hident hdigit
            · cases hstep
              rw [if_pos hident] at hclear
              exact h.takes_name hident hclear
            · exact h.takes_digit hdigit hstep
            · cases hstep
              rw [isIdentStart, Bool.or_eq_true, not_or, Bool.not_eq_true, Bool.not_eq_true]
                at hident
              exact h.content (scanStep_content ((isWhiteSpace_of_low hident.2).trans hspace) hline
                hblock hne (dollarTag_eq_none hdelimiter) seen) hident.1

/-- **The scanner takes each piece as the server does**, where the piece is clear. -/
theorem Scans.takes_piece {mode mode' : LexMode} {token : Option Token}
    (h : Scans seen (c :: rest) final) (hclear : clearPiece mode c rest = true)
    (hstep : lexStep mode c rest = some (token, mode', rest')) :
    ∃ seen', Takes seen token seen' ∧ Scans seen' rest' final := by
  unfold lexStep at hstep
  split_ifs at hstep with hspace hline hblock hsemicolon hquote hescape hdouble
  · cases hstep
    obtain ⟨next, hturn, htail⟩ := h.of_cons
    rw [scanStep_space hspace] at hturn
    cases hturn
    exact ⟨seen, rfl, htail⟩
  · cases hstep
    rw [clearPiece, if_neg hspace, if_pos hline] at hclear
    obtain ⟨next, hturn, htail⟩ := h.of_cons
    rw [Bool.and_eq_true, beq_iff_eq] at hline
    obtain rfl := hline.1
    have hcomment : scanStep seen 45 rest = .ok (seen, (rest.drop 1).dropWhile (· != 10)) := by
      rw [scanStep, if_neg (by decide), if_pos (by simp [hline.2])]
      rfl
    rw [hcomment] at hturn
    cases hturn
    exact ⟨seen, rfl, Scans.comment hclear htail⟩
  · obtain ⟨behind, hskip, heq⟩ := Option.map_eq_some_iff.mp hstep
    cases heq
    obtain ⟨next, hturn, htail⟩ := h.of_cons
    rw [Bool.and_eq_true, beq_iff_eq] at hblock
    obtain rfl := hblock.1
    have hcomment : scanStep seen 47 rest = .ok (seen, rest') := by
      rw [scanStep, if_neg (by decide), if_neg (by simp), if_pos (by simp [hblock.2]), hskip]
      rfl
    rw [hcomment] at hturn
    cases hturn
    exact ⟨seen, rfl, htail⟩
  · cases hstep
    obtain ⟨next, hturn, htail⟩ := h.of_cons
    rw [beq_iff_eq] at hsemicolon
    subst hsemicolon
    have hend : scanStep seen 59 rest = if !seen.hasContent || seen.ended then .error oneStatement
        else .ok ({ seen with ended := true }, rest) := rfl
    rw [hend] at hturn
    split_ifs at hturn with hcontent
    cases hturn
    rw [Bool.or_eq_true, not_or, Bool.not_eq_true', Bool.not_eq_false, Bool.not_eq_true] at hcontent
    exact ⟨_, ⟨hcontent.1, hcontent.2, rfl⟩, htail⟩
  · obtain ⟨rfl, -, hskip⟩ := lexQuoted_eq_some.mp hstep
    have hc : c = 39 := by simpa using hquote
    rw [clearPiece, if_neg hspace, if_neg hline, if_pos hquote] at hclear
    have hfree : escapedQuote rest = false := by simpa [hescape] using hclear
    rw [skipEscape_eq hfree] at hskip
    exact h.quoted (.inl hc) (hc ▸ hskip)
  · obtain ⟨rfl, -, hskip⟩ := lexQuoted_eq_some.mp hstep
    have hc : c = 39 := by simpa using hquote
    exact h.quoted (.inl hc) (hc ▸ hskip)
  · obtain ⟨rfl, -, hskip⟩ := lexQuoted_eq_some.mp hstep
    have hc : c = 34 := by simpa using hdouble
    exact h.quoted (.inr hc) (hc ▸ hskip)
  · exact h.takes_constant (by simpa using hspace) (by simpa using hline) (by simpa using hblock)
      ⟨by simpa using hsemicolon, by simpa using hquote, by simpa using hdouble⟩ hclear hstep

/-! ## Whole texts -/

section Texts

variable {sql text : JsString} {mode : LexMode} {tokens : List Token}

/-- Behind the statement the server finds no token. -/
theorem tokens_of_ended (hlex : Lexes mode text tokens) (hclear : Clear sql)
    (hcomes : Comes sql mode text) (hended : seen.ended = true) (hscan : Scans seen text final) :
    tokens = [] ∧ final = seen := by
  induction hlex with
  | done mode =>
      cases hscan
      exact ⟨rfl, rfl⟩
  | @piece mode mode' c rest rest' token tokens hstep htail ih =>
      obtain ⟨seen', htakes, hscan'⟩ := hscan.takes_piece (hclear _ _ _ hcomes) hstep
      cases token with
      | none =>
          obtain rfl : seen' = seen := htakes
          exact ih (hcomes.piece hstep) hscan'
      | some token =>
          exfalso
          have hopen : seen.ended = false := by
            cases token with
            | word text => exact htakes.1.before
            | quoted => exact htakes.before
            | symbol => exact htakes.before
            | semicolon => exact htakes.2.1
          rw [hended] at hopen
          cases hopen

/-- What the scanner and the server agree on, from a place in the statement on: the tokens up to its
    end, and the word it begins with. -/
structure Agrees (seen final : Scanned) (tokens : List Token) : Prop where
  split : ∃ behind, tokens.takeWhile (· != .semicolon) ++ behind = tokens ∧
    (behind = [] ∨ behind = [.semicolon])
  content : seen.hasContent = false → final.hasContent = true →
    tokens.takeWhile (· != .semicolon) ≠ []
  kept : ∀ word, seen.firstWord = some word → final.firstWord = some word
  found : seen.firstWord = none → ∀ word, tokens.head? = some (.word word) →
    (∀ c ∈ word, isHigh c = false) → final.firstWord = some (word.map upperCase)

theorem Agrees.read {seen' : Scanned} {token : Token} (hreads : Reads seen seen')
    (hne : token ≠ .semicolon)
    (hword : seen.firstWord = none → ∀ word, token = .word word →
      (∀ c ∈ word, isHigh c = false) → seen'.firstWord = some (word.map upperCase))
    (h : Agrees seen' final tokens) : Agrees seen final (token :: tokens) := by
  have htake : (token :: tokens).takeWhile (· != .semicolon) =
      token :: tokens.takeWhile (· != .semicolon) :=
    List.takeWhile_cons_of_pos (by simpa using hne)
  obtain ⟨behind, hsplit, hbehind⟩ := h.split
  exact
    { split := ⟨behind, by rw [htake, List.cons_append, hsplit], hbehind⟩
      content := fun _ _ => by rw [htake]; exact List.cons_ne_nil _ _
      kept := fun word hseen => h.kept word (hreads.firstWord word hseen)
      found := fun hnone word hhead hlow =>
        h.kept _ (hword hnone word (Option.some.inj hhead) hlow) }

theorem agrees_of_lexes (hlex : Lexes mode text tokens) (hclear : Clear sql)
    (hcomes : Comes sql mode text) (hopen : seen.ended = false) (hscan : Scans seen text final) :
    Agrees seen final tokens := by
  induction hlex generalizing seen with
  | done mode =>
      cases hscan
      exact
        { split := ⟨[], rfl, .inl rfl⟩
          content := fun hno hyes => absurd (hno.symm.trans hyes) (by decide)
          kept := fun _ hword => hword
          found := fun _ _ hhead => (by cases hhead) }
  | @piece mode mode' c rest rest' token tokens hstep htail ih =>
      obtain ⟨seen', htakes, hscan'⟩ := hscan.takes_piece (hclear _ _ _ hcomes) hstep
      have hcomes' := hcomes.piece hstep
      cases token with
      | none =>
          obtain rfl : seen' = seen := htakes
          exact ih hcomes' hopen hscan'
      | some token =>
          cases token with
          | word text =>
              refine (ih hcomes' htakes.1.after hscan').read htakes.1 (by simp) ?_
              intro hnone word hword hlow
              cases hword
              exact htakes.2 hlow hnone
          | quoted =>
              exact (ih hcomes' htakes.after hscan').read htakes (by simp) fun _ _ h => (by cases h)
          | symbol =>
              exact (ih hcomes' htakes.after hscan').read htakes (by simp) fun _ _ h => (by cases h)
          | semicolon =>
              obtain ⟨hcontent, -, rfl⟩ := htakes
              obtain ⟨rfl, rfl⟩ := tokens_of_ended htail hclear hcomes' rfl hscan'
              exact
                { split := ⟨[.semicolon], rfl, .inr rfl⟩
                  content := fun hno _ => absurd (hno.symm.trans hcontent) (by decide)
                  kept := fun _ hword => hword
                  found := fun _ _ hhead => (by cases hhead) }

/-- The tokens up to the semicolon are the only statement. -/
theorem statements_eq {behind : List Token}
    (hsplit : tokens.takeWhile (· != .semicolon) ++ behind = tokens)
    (hbehind : behind = [] ∨ behind = [.semicolon])
    (hne : tokens.takeWhile (· != .semicolon) ≠ []) :
    statements tokens = [tokens.takeWhile (· != .semicolon)] := by
  have hfree : ∀ t ∈ tokens.takeWhile (· != .semicolon), (t == Token.semicolon) = false :=
    fun t ht => by simpa using List.mem_takeWhile_imp ht
  generalize tokens.takeWhile (· != .semicolon) = body at hsplit hne hfree
  subst hsplit
  have hempty : body.isEmpty = false := by simpa using hne
  have hsingle : body.splitOnP (· == Token.semicolon) = [body] :=
    List.splitOnP_eq_singleton hfree
  obtain rfl | rfl := hbehind
  · rw [List.append_nil, statements, List.splitOn, hsingle]
    simp [hempty]
  · rw [statements, List.splitOn, List.splitOnP_append_cons body [] (by simp), hsingle]
    simp [hempty]

theorem isHigh_of_upperCase {d : UInt16} (h : isHigh (upperCase d) = false) : isHigh d = false := by
  rw [← Bool.not_eq_true] at h ⊢
  intro hhigh
  refine h ?_
  have hsame : upperCase d = d := by
    rw [isHigh_iff] at hhigh
    refine if_neg ?_
    simp only [Bool.and_eq_true, decide_eq_true_eq, UInt16.le_iff_toNat_le]
    intro hlower
    exact absurd hlower.2 (by simp; omega)
  rwa [hsame]

/-- The forbidden words are ASCII. -/
theorem low_of_forbidden {word : JsString}
    (h : forbiddenExecutorKeywords.contains (word.map upperCase) = true) :
    ∀ c ∈ word, isHigh c = false := by
  have hall : (forbiddenExecutorKeywords.all fun word => word.all fun c => !isHigh c) = true := by
    decide
  intro c hc
  have hkeyword := List.all_eq_true.mp hall _ (List.contains_iff_mem.mp h)
  exact isHigh_of_upperCase (by simpa using List.all_eq_true.mp hkeyword _ (List.mem_map_of_mem hc))

theorem assertExecutorStatement_eq_ok (h : assertExecutorStatement sql = .ok ()) :
    ∃ final, Scans ⟨none, false, false⟩ sql final ∧ final.hasContent = true ∧
      ∀ word, final.firstWord = some word → forbiddenExecutorKeywords.contains word = false := by
  unfold assertExecutorStatement at h
  split at h
  · cases h
  · simp only [bind_eq_ok] at h
    obtain ⟨final, hscan, h⟩ := h
    refine ⟨final, scans_of_scan le_rfl hscan, ?_⟩
    split_ifs at h with hcontent
    refine ⟨by simpa using hcontent, fun word hword => ?_⟩
    cases hforbidden : forbiddenExecutorKeywords.contains word with
    | false => rfl
    | true =>
        rw [hword, Option.filter_some, if_pos hforbidden] at h
        cases h

/-- **What the guard lets through is one statement.** A text that it accepts, and in which the
    server comes to no piece that the scanner reads in another way, is read by the server as a
    single statement, and the statement does not begin with a forbidden word. -/
theorem accepted_oneStatement (haccepted : assertExecutorStatement sql = .ok ())
    (hclear : Clear sql) (hlex : Lexes .plain sql tokens) : OneStatement tokens := by
  obtain ⟨final, hscan, hcontent, hallowed⟩ := assertExecutorStatement_eq_ok haccepted
  have hagrees := agrees_of_lexes hlex hclear .start rfl hscan
  obtain ⟨behind, hsplit, hbehind⟩ := hagrees.split
  have hne := hagrees.content rfl hcontent
  refine ⟨_, statements_eq hsplit hbehind hne, ?_⟩
  cases hfirst : (tokens.takeWhile (· != .semicolon)).head? with
  | none => rw [beginsForbidden, hfirst]
  | some token =>
      have hhead : tokens.head? = some token := by
        rw [← hsplit, List.head?_append, hfirst]
        rfl
      cases token with
      | word word =>
          rw [beginsForbidden, hfirst, ← Bool.not_eq_true]
          intro hforbidden
          change forbiddenExecutorKeywords.contains (word.map upperCase) = true at hforbidden
          have hword := hagrees.found rfl word hhead (low_of_forbidden hforbidden)
          rw [hallowed _ hword] at hforbidden
          cases hforbidden
      | quoted => rw [beginsForbidden, hfirst]
      | symbol => rw [beginsForbidden, hfirst]
      | semicolon => rw [beginsForbidden, hfirst]

end Texts

/-! ## An escaped quote -/

/-- The check of the places that the server comes to, in as many pieces. -/
def clear : ℕ → LexMode → JsString → Bool
  | _, _, [] => true
  | 0, _, _ :: _ => false
  | fuel + 1, mode, c :: rest =>
      clearPiece mode c rest &&
        (lexStep mode c rest).all fun piece => clear fuel piece.2.1 piece.2.2

theorem clear_of_check (fuel : ℕ) {sql : JsString} (h : clear fuel .plain sql = true) :
    Clear sql := by
  have hall : ∀ {mode : LexMode} {text : JsString}, Comes sql mode text →
      ∃ fuel, clear fuel mode text = true := by
    intro mode text hcomes
    induction hcomes with
    | start => exact ⟨fuel, h⟩
    | piece _ hstep ih =>
        obtain ⟨fuel, hfuel⟩ := ih
        cases fuel with
        | zero => cases hfuel
        | succ fuel =>
            rw [clear, hstep, Bool.and_eq_true] at hfuel
            exact ⟨fuel, hfuel.2⟩
  intro mode c rest hcomes
  obtain ⟨fuel, hfuel⟩ := hall hcomes
  cases fuel with
  | zero => cases hfuel
  | succ fuel =>
      rw [clear, Bool.and_eq_true] at hfuel
      exact hfuel.1

/-- Semicolons in an escape string, in a quoted name and in comments. -/
def quotedSql : JsString :=
  Js.lit "SELECT E'a''\\n;', \"b;\" /* ; */ -- ;"

theorem accepted_oneStatement_quoted :
    OneStatement [.word (Js.lit "SELECT"), .quoted, .symbol, .quoted] :=
  have haccepted : assertExecutorStatement quotedSql = .ok () := by decide +kernel
  accepted_oneStatement haccepted (clear_of_check 40 (by decide +kernel))
    (lexes_of_lex 40 (by decide +kernel))

/-- An escaped quote hides the end of the string from the scanner, and a commit. -/
def hiddenCommit : JsString :=
  Js.lit "SELECT E'\\'';COMMIT;SELECT E'\\''"

theorem hiddenCommit_accepted :
    assertExecutorStatement hiddenCommit = .ok () ∧ ∃ tokens, Lexes .plain hiddenCommit tokens ∧
      statements tokens = [[.word (Js.lit "SELECT"), .quoted], [.word (Js.lit "COMMIT")],
        [.word (Js.lit "SELECT"), .quoted]] ∧ ¬OneStatement tokens := by
  let tokens : List Token := [.word (Js.lit "SELECT"), .quoted, .semicolon,
    .word (Js.lit "COMMIT"), .semicolon, .word (Js.lit "SELECT"), .quoted]
  have hlex : lex 40 .plain hiddenCommit = some tokens := by decide +kernel
  have hstatements : statements tokens = [[.word (Js.lit "SELECT"), .quoted],
      [.word (Js.lit "COMMIT")], [.word (Js.lit "SELECT"), .quoted]] := by decide +kernel
  refine ⟨by decide +kernel, tokens, lexes_of_lex 40 hlex, hstatements, ?_⟩
  rintro ⟨statement, hone, -⟩
  rw [hstatements] at hone
  cases hone

end Postgres
