import BpcProtocol.Postgres.Statement

set_option autoImplicit false

/-! # The lexical rules of the server

How PostgreSQL reads the text of a query, with conforming strings: white space and comments, string
constants with and without escapes, quoted identifiers, dollar quotes, names, and the semicolons
that separate statements. What a token says beyond its kind is left out, and so is where an operator
or a numeral ends. -/

namespace Postgres

/-! ## Characters -/

/-- White space. -/
def isSpace (c : UInt16) : Bool :=
  (9 ≤ c && c ≤ 13) || c == 32

/-- A character that ends a line. -/
def isNewline (c : UInt16) : Bool :=
  c == 10 || c == 13

/-- A character outside of ASCII. -/
def isHigh (c : UInt16) : Bool :=
  128 ≤ c

/-- The first character of a name: a letter, an underscore, or a character outside of ASCII. -/
def isIdentStart (c : UInt16) : Bool :=
  isWordStart c || isHigh c

/-- A further character of the tag of a dollar quote. -/
def isTagPart (c : UInt16) : Bool :=
  isWordPart c || isHigh c

/-- A further character of a name. -/
def isIdentPart (c : UInt16) : Bool :=
  isTagPart c || c == 36

/-! ## Quotes -/

/-- What is behind an escape string: a backslash takes the next character with it. -/
def skipEscape : JsString → Option JsString
  | [] => none
  | [c] => if c = 39 then some [] else none
  | c :: d :: rest =>
      if c = 92 then skipEscape rest
      else if c = 39 then if d = 39 then skipEscape rest else some (d :: rest)
      else skipEscape (d :: rest)

/-- The delimiter of a dollar quote that begins here: two dollar signs around a tag, which may be
    empty. -/
def dollarDelimiter : JsString → Option JsString
  | 36 :: 36 :: _ => some [36, 36]
  | 36 :: c :: rest =>
      if isIdentStart c && (rest.dropWhile isTagPart).head? == some 36 then
        some (36 :: c :: rest.takeWhile isTagPart ++ [36])
      else none
  | _ => none

/-! ## Tokens -/

/-- The tokens of a query. -/
inductive Token where
  /-- A keyword or a name. -/
  | word (text : JsString)
  /-- A constant or a name in quotes. -/
  | quoted
  /-- An operator, a parameter, a digit, or another character. -/
  | symbol
  | semicolon
  deriving DecidableEq, Repr

/-- Whether an escape string goes on if a quote comes, which it does behind a line end. -/
inductive LexMode where
  | plain
  | behindEscape (newline : Bool)
  deriving DecidableEq, Repr

/-- White space behind an escape string. -/
def LexMode.space (c : UInt16) : LexMode → LexMode
  | plain => plain
  | behindEscape newline => behindEscape (newline || isNewline c)

/-- The letter of a bit string or of a string in the national character set. -/
def isStringPrefix (c : UInt16) : Bool :=
  Js.oneOf "bBxXnN" c

/-- A string or a name with Unicode escapes begins: the letter, an ampersand and the quote. -/
def unicodeQuote (c : UInt16) (rest : JsString) : Option UInt16 :=
  if Js.oneOf "uU" c && rest.head? == some 38 then
    (rest.drop 1).head?.filter fun quote => quote == 39 || quote == 34
  else none

/-- The digit `c`: of letters behind it a numeral takes those that could belong to it, and other
    junk is an error. -/
def lexDigit (rest : JsString) : Option (Option Token × LexMode × JsString) :=
  if rest.head?.any isIdentStart then
    if (rest.takeWhile isIdentPart).all isWordPart then
      some (some .symbol, .plain, rest.dropWhile isIdentPart)
    else none
  else some (some .symbol, .plain, rest)

/-- A name, a digit or another character. -/
def lexWord (c : UInt16) (rest : JsString) : Option (Option Token × LexMode × JsString) :=
  if isIdentStart c then
    some (some (.word (c :: rest.takeWhile isIdentPart)), .plain, rest.dropWhile isIdentPart)
  else if Js.isDigit c then lexDigit rest
  else some (some .symbol, .plain, rest)

/-- A piece in quotes, and the mode behind it. -/
def lexQuoted (mode : LexMode) (rest : Option JsString) :
    Option (Option Token × LexMode × JsString) :=
  rest.map fun rest => (some .quoted, mode, rest)

/-- What begins with a letter: a string with a prefix, or a name; or with a dollar sign. -/
def lexConstant (c : UInt16) (rest : JsString) : Option (Option Token × LexMode × JsString) :=
  if (c == 101 || c == 69) && rest.head? == some 39 then
    lexQuoted (.behindEscape false) (skipEscape (rest.drop 1))
  else if isStringPrefix c && rest.head? == some 39 then
    lexQuoted .plain (skipQuoted 39 (rest.drop 1))
  else
    (unicodeQuote c rest).elim
      ((dollarDelimiter (c :: rest)).elim (lexWord c rest) fun delimiter =>
        lexQuoted .plain (skipTo delimiter ((c :: rest).drop delimiter.length)))
      fun quote => lexQuoted .plain (skipQuoted quote (rest.drop 2))

/-- One piece of the text, at the character `c`: the token it is, if it is one, and where the text
    goes on. -/
def lexStep (mode : LexMode) (c : UInt16) (rest : JsString) :
    Option (Option Token × LexMode × JsString) :=
  if isSpace c then some (none, mode.space c, rest)
  else if c == 45 && rest.head? == some 45 then
    some (none, mode, (rest.drop 1).dropWhile fun d => !isNewline d)
  else if c == 47 && rest.head? == some 42 then
    (skipBlockComment 1 (rest.drop 1)).map fun rest => (none, .plain, rest)
  else if c == 59 then some (some .semicolon, .plain, rest)
  else if c == 39 then
    if mode = .behindEscape true then lexQuoted (.behindEscape false) (skipEscape rest)
    else lexQuoted .plain (skipQuoted 39 rest)
  else if c == 34 then lexQuoted .plain (skipQuoted 34 rest)
  else lexConstant c rest

/-- The text is read as these tokens. -/
inductive Lexes : LexMode → JsString → List Token → Prop where
  | done (mode : LexMode) : Lexes mode [] []
  | piece {mode mode' : LexMode} {c : UInt16} {rest rest' : JsString} {token : Option Token}
      {tokens : List Token} (hstep : lexStep mode c rest = some (token, mode', rest'))
      (htail : Lexes mode' rest' tokens) : Lexes mode (c :: rest) (token.toList ++ tokens)

/-- The tokens of a text, in as many pieces. -/
def lex : ℕ → LexMode → JsString → Option (List Token)
  | _, _, [] => some []
  | 0, _, _ :: _ => none
  | fuel + 1, mode, c :: rest =>
      (lexStep mode c rest).bind fun piece =>
        (lex fuel piece.2.1 piece.2.2).map fun tokens => piece.1.toList ++ tokens

theorem lexes_of_lex (fuel : ℕ) {mode : LexMode} {text : JsString} {tokens : List Token}
    (h : lex fuel mode text = some tokens) : Lexes mode text tokens := by
  induction fuel generalizing mode text tokens with
  | zero =>
      cases text with
      | nil =>
          cases h
          exact .done mode
      | cons c rest => cases h
  | succ fuel ih =>
      cases text with
      | nil =>
          cases h
          exact .done mode
      | cons c rest =>
          obtain ⟨⟨token, mode', rest'⟩, hstep, htail⟩ := Option.bind_eq_some_iff.mp h
          obtain ⟨tokens', htokens, rfl⟩ := Option.map_eq_some_iff.mp htail
          exact .piece hstep (ih htokens)

/-! ## Statements -/

/-- The statements that semicolons separate; empty ones are none. -/
def statements (tokens : List Token) : List (List Token) :=
  (tokens.splitOn .semicolon).filter fun statement => !statement.isEmpty

/-- The statement begins with one of the forbidden words, however its letters are written. -/
def beginsForbidden (statement : List Token) : Bool :=
  match statement.head? with
  | some (.word text) => forbiddenExecutorKeywords.contains (text.map upperCase)
  | _ => false

/-- A single statement that does not begin with a forbidden word. -/
def OneStatement (tokens : List Token) : Prop :=
  ∃ statement, statements tokens = [statement] ∧ beginsForbidden statement = false

example : (lex 40 .plain (Js.lit "SELECT E'\\'';COMMIT")).map statements =
    some [[.word (Js.lit "SELECT"), .quoted], [.word (Js.lit "COMMIT")]] := by
  decide +kernel

end Postgres
