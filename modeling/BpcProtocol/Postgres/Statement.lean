import BpcProtocol.Js.Coerce

set_option autoImplicit false

/-! # The statement guard

`assertExecutorStatement` scans what a transaction's callback asks to execute, and lets one
statement through that begins with none of the forbidden words. -/

namespace Postgres

/-- What the scanner has seen. -/
structure Scanned where
  firstWord : Option JsString
  hasContent : Bool
  ended : Bool

def oneStatement : String :=
  "PostgreSQL executor accepts exactly one statement"

/-- `content()`. -/
def Scanned.content (seen : Scanned) : Except String Scanned :=
  if seen.ended then .error oneStatement else .ok { seen with hasContent := true }

/-- `[A-Za-z_]`. -/
def isWordStart (c : UInt16) : Bool :=
  (Js.isAlnum c && !Js.isDigit c) || c == 95

/-- `[A-Za-z0-9_]`. -/
def isWordPart (c : UInt16) : Bool :=
  Js.isAlnum c || c == 95

/-- `c.toUpperCase()`, of ASCII letters. -/
def upperCase (c : UInt16) : UInt16 :=
  if 97 ≤ c && c ≤ 122 then c - 32 else c

/-- What is behind a block comment of this depth, if it ends. -/
def skipBlockComment : ℕ → JsString → Option JsString
  | 0, text => some text
  | _ + 1, [] => none
  | depth + 1, 47 :: 42 :: rest => skipBlockComment (depth + 2) rest
  | depth + 1, 42 :: 47 :: rest => skipBlockComment depth rest
  | depth + 1, _ :: rest => skipBlockComment (depth + 1) rest

/-- What is behind the closing quote, where a doubled one does not close. -/
def skipQuoted (quote : UInt16) : JsString → Option JsString
  | [] => none
  | [c] => if c = quote then some [] else none
  | c :: d :: rest =>
      if c = quote then if d = quote then skipQuoted quote rest else some (d :: rest)
      else skipQuoted quote (d :: rest)

/-- The tag of a dollar quote that begins here: `/^\$[A-Za-z_][A-Za-z0-9_]*\$|^\$\$/`. -/
def dollarTag : JsString → Option JsString
  | 36 :: 36 :: _ => some [36, 36]
  | 36 :: c :: rest =>
      if isWordStart c && (rest.dropWhile isWordPart).head? == some 36 then
        some (36 :: c :: rest.takeWhile isWordPart ++ [36])
      else none
  | _ => none

/-- What is behind the first occurrence of a tag. -/
def skipTo (tag : JsString) : JsString → Option JsString
  | [] => none
  | c :: rest => if tag.isPrefixOf (c :: rest) then some ((c :: rest).drop tag.length) else skipTo tag rest

/-- What is behind a piece that has to be closed. -/
def closed (rest : Option JsString) (what : String) : Except String JsString :=
  rest.elim (.error ("PostgreSQL executor SQL has an unterminated " ++ what)) .ok

/-- The last turns of the loop: a word, or any other character. -/
def scanContent (seen : Scanned) (c : UInt16) (rest : JsString) :
    Except String (Scanned × JsString) := do
  let seen ← seen.content
  if isWordStart c then
    let isPart := fun d => isWordPart d || d == 36
    let word := c :: rest.takeWhile isPart
    pure ({ seen with firstWord := seen.firstWord.or (some (word.map upperCase)) },
      rest.dropWhile isPart)
  else pure (seen, rest)

/-- One turn of the loop, at the character `c`: what has been seen, and where it goes on. -/
def scanStep (seen : Scanned) (c : UInt16) (rest : JsString) :
    Except String (Scanned × JsString) := do
  if Js.isWhiteSpace c then pure (seen, rest)
  else if c == 45 && rest.head? == some 45 then pure (seen, (rest.drop 1).dropWhile (· != 10))
  else if c == 47 && rest.head? == some 42 then
    let rest ← closed (skipBlockComment 1 (rest.drop 1)) "comment"
    pure (seen, rest)
  else if c == 59 then
    if !seen.hasContent || seen.ended then .error oneStatement
    else pure ({ seen with ended := true }, rest)
  else if c == 39 || c == 34 then
    let seen ← seen.content
    let rest ← closed (skipQuoted c rest) "quote"
    pure (seen, rest)
  else
    (dollarTag (c :: rest)).elim (scanContent seen c rest) fun tag => do
      let seen ← seen.content
      let rest ← closed (skipTo tag ((c :: rest).drop tag.length)) "dollar quote"
      pure (seen, rest)

/-- The loop: each turn leaves less of the text. -/
def scan : ℕ → Scanned → JsString → Except String Scanned
  | 0, seen, _ => .ok seen
  | _ + 1, seen, [] => .ok seen
  | fuel + 1, seen, c :: rest => do
      let next ← scanStep seen c rest
      scan fuel next.1 next.2

/-- `FORBIDDEN_EXECUTOR_KEYWORDS`. -/
def forbiddenExecutorKeywords : List JsString :=
  ["BEGIN", "START", "COMMIT", "END", "ROLLBACK", "ABORT", "SAVEPOINT", "RELEASE", "PREPARE", "SET",
    "RESET", "DISCARD", "CALL", "DO"].map Js.lit

/-- `assertExecutorStatement(sql)`. -/
def assertExecutorStatement (sql : JsString) : Except String Unit := do
  if sql.length < 1 ∨ sql.length > 10000000 then .error "PostgreSQL executor SQL is invalid"
  else
    let seen ← scan sql.length ⟨none, false, false⟩ sql
    if !seen.hasContent then .error "PostgreSQL executor SQL is empty"
    else
      (seen.firstWord.filter forbiddenExecutorKeywords.contains).elim (.ok ()) fun word =>
        .error ("PostgreSQL executor forbids " ++ Js.message word ++ " statements")

example : assertExecutorStatement (Js.lit "SELECT ';' -- one; two") = .ok () := by
  decide +kernel

example : assertExecutorStatement (Js.lit "/* a */ commit") =
    .error "PostgreSQL executor forbids COMMIT statements" := by
  decide +kernel

end Postgres
