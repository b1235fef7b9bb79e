import BpcProtocol.Js.Number
import Mathlib.Data.List.Nodup

set_option autoImplicit false

/-! # JSON

`JSON.stringify` and `JSON.parse` on text as JavaScript holds it, in UTF-16 code units, and what
survives the way out and back. -/

namespace Js

/-! ## Writing -/

/-- The lowercase hexadecimal digit of a number below sixteen. -/
def hexDigit (n : ℕ) : UInt16 := if n < 10 then (48 + n).toUInt16 else (87 + n).toUInt16

/-- `\uXXXX`. -/
def unicodeEscape (c : UInt16) : JsString :=
  [92, 117, hexDigit (c.toNat / 4096), hexDigit (c.toNat / 256 % 16), hexDigit (c.toNat / 16 % 16),
    hexDigit (c.toNat % 16)]

/-- One code unit inside a JSON string: the short escapes, `\u00XX` below the blank, or itself. -/
def escapeUnit (c : UInt16) : JsString :=
  if c = 34 then [92, 34]
  else if c = 92 then [92, 92]
  else if c = 8 then [92, 98]
  else if c = 12 then [92, 102]
  else if c = 10 then [92, 110]
  else if c = 13 then [92, 114]
  else if c = 9 then [92, 116]
  else if c < 32 then unicodeEscape c
  else [c]

/-- A code unit that stands alone: a surrogate is escaped. -/
def escapeLone (c : UInt16) : JsString :=
  if isHighSurrogate c || isLowSurrogate c then unicodeEscape c else escapeUnit c

/-- The inside of a JSON string: surrogate pairs are written as they are. -/
def escapeText : JsString → JsString
  | [] => []
  | [c] => escapeLone c
  | c :: d :: rest =>
      if isHighSurrogate c && isLowSurrogate d then c :: d :: escapeText rest
      else escapeLone c ++ escapeText (d :: rest)

def quote (s : JsString) : JsString := 34 :: escapeText s ++ [34]

/-- Texts separated by commas. -/
def commas : List JsString → JsString
  | [] => []
  | [t] => t
  | t :: rest => t ++ 44 :: commas rest

mutual

/-- `JSON.stringify(v)`, `none` where it answers `undefined`. -/
def stringify : JsValue → Option JsString
  | .undefined => none
  | .null => some (lit "null")
  | .bool b => some (if b then lit "true" else lit "false")
  | .number n => some (if n.isFinite then numberText n else lit "null")
  | .string s => some (quote s)
  | .array items => some (91 :: commas (stringifyItems items) ++ [93])
  | .object fields => some (123 :: commas (stringifyFields fields) ++ [125])
  | .other => none

/-- The elements of an array: what has no text is written as `null`. -/
def stringifyItems : List JsValue → List JsString
  | [] => []
  | v :: rest => (stringify v).getD (lit "null") :: stringifyItems rest

/-- The properties of an object: what has no text is left out. -/
def stringifyFields : List (JsString × JsValue) → List JsString
  | [] => []
  | (k, v) :: rest =>
      match stringify v with
      | none => stringifyFields rest
      | some t => (quote k ++ 58 :: t) :: stringifyFields rest

end

/-! ## Reading -/

def isSpace (c : UInt16) : Bool := c = 32 || c = 9 || c = 10 || c = 13

def skipSpace (s : JsString) : JsString := s.dropWhile isSpace

/-- The value of a hexadecimal digit. -/
def hexValue (c : UInt16) : Option ℕ :=
  if 48 ≤ c && c ≤ 57 then some (c.toNat - 48)
  else if 97 ≤ c && c ≤ 102 then some (c.toNat - 87)
  else if 65 ≤ c && c ≤ 70 then some (c.toNat - 55)
  else none

/-- The code unit of four hexadecimal digits. -/
def hexUnit (a b c d : UInt16) : Option UInt16 := do
  let a ← hexValue a
  let b ← hexValue b
  let c ← hexValue c
  let d ← hexValue d
  pure (4096 * a + 256 * b + 16 * c + d).toUInt16

/-- The code unit of a short escape. -/
def shortEscape (c : UInt16) : Option UInt16 :=
  if c = 34 || c = 92 || c = 47 then some c
  else if c = 98 then some 8
  else if c = 102 then some 12
  else if c = 110 then some 10
  else if c = 114 then some 13
  else if c = 116 then some 9
  else none

/-- A string from behind its opening quote, and what follows its closing one. -/
def parseChars : JsString → Option (JsString × JsString)
  | [] => none
  | 34 :: rest => some ([], rest)
  | 92 :: 117 :: a :: b :: c :: d :: rest => do
      let u ← hexUnit a b c d
      let (s, rest) ← parseChars rest
      pure (u :: s, rest)
  | 92 :: e :: rest => do
      let u ← shortEscape e
      let (s, rest) ← parseChars rest
      pure (u :: s, rest)
  | c :: rest =>
      if c < 32 then none
      else do
        let (s, rest) ← parseChars rest
        pure (c :: s, rest)

/-- The fraction behind an integer part. -/
def parseFraction : JsString → Option (JsString × JsString)
  | 46 :: rest =>
      let (f, rest) := rest.span isDigit
      if f.isEmpty then none else some (f, rest)
  | s => some ([], s)

/-- The digits of an exponent. -/
def parseExponentDigits (negative : Bool) (s : JsString) : Option (ℤ × JsString) :=
  let (e, rest) := s.span isDigit
  if e.isEmpty then none else some (if negative then -ofDigits e else ofDigits e, rest)

/-- The exponent at the end of a number. -/
def parseExponent : JsString → Option (ℤ × JsString)
  | c :: rest =>
      if c = 101 || c = 69 then
        match rest with
        | 43 :: rest => parseExponentDigits false rest
        | 45 :: rest => parseExponentDigits true rest
        | rest => parseExponentDigits false rest
      else some (0, c :: rest)
  | [] => some (0, [])

/-- A number without its sign. -/
def parseUnsigned (s : JsString) : Option (ℚ × JsString) := do
  let (i, s) := s.span isDigit
  if i.isEmpty || (i.head? = some 48 && 1 < i.length) then none
  else do
    let (f, s) ← parseFraction s
    let (e, s) ← parseExponent s
    pure (decimalValue i f e, s)

/-- A number. -/
def parseNumber : JsString → Option (JsNumber × JsString)
  | 45 :: rest => do
      let (q, rest) ← parseUnsigned rest
      pure ((ofRat q).neg, rest)
  | s => do
      let (q, rest) ← parseUnsigned s
      pure (ofRat q, rest)

/-- An own property is set: a key that is there keeps its place. -/
def setField (fields : List (JsString × JsValue)) (k : JsString) (v : JsValue) :
    List (JsString × JsValue) :=
  if fields.any (fun f => f.1 == k) then fields.map fun f => if f.1 == k then (k, v) else f
  else fields ++ [(k, v)]

/-- The object a list of members writes: of two members of one key the later one counts. -/
def ofMembers (members : List (JsString × JsValue)) : JsValue :=
  .object (members.foldl (fun fields m => setField fields m.1 m.2) [])

/-- The text behind a constant. -/
def parseConstant (word : String) (v : JsValue) (s : JsString) : Option (JsValue × JsString) :=
  if (lit word).isPrefixOf s then some (v, s.drop (lit word).length) else none

mutual

/-- A value and the text behind it. Every call has used up a character, so the length of the text
    bounds the depth of the calls. -/
def parseValue : ℕ → JsString → Option (JsValue × JsString)
  | 0, _ => none
  | fuel + 1, s =>
      match skipSpace s with
      | [] => none
      | 123 :: rest =>
          match skipSpace rest with
          | 125 :: rest => some (.object [], rest)
          | rest => (parseMembers fuel rest).map fun (members, rest) => (ofMembers members, rest)
      | 91 :: rest =>
          match skipSpace rest with
          | 93 :: rest => some (.array [], rest)
          | rest => (parseItems fuel rest).map fun (items, rest) => (.array items, rest)
      | 34 :: rest => (parseChars rest).map fun (s, rest) => (.string s, rest)
      | 110 :: rest => parseConstant "null" .null (110 :: rest)
      | 116 :: rest => parseConstant "true" (.bool true) (116 :: rest)
      | 102 :: rest => parseConstant "false" (.bool false) (102 :: rest)
      | s => (parseNumber s).map fun (n, rest) => (.number n, rest)

/-- The elements of an array, to its closing bracket. -/
def parseItems : ℕ → JsString → Option (List JsValue × JsString)
  | 0, _ => none
  | fuel + 1, s =>
      match parseValue fuel s with
      | none => none
      | some (v, rest) =>
          match skipSpace rest with
          | 44 :: rest => (parseItems fuel rest).map fun (items, rest) => (v :: items, rest)
          | 93 :: rest => some ([v], rest)
          | _ => none

/-- The members of an object, to its closing brace. -/
def parseMembers : ℕ → JsString → Option (List (JsString × JsValue) × JsString)
  | 0, _ => none
  | fuel + 1, s =>
      match parseKey s with
      | none => none
      | some (k, rest) =>
          match parseValue fuel rest with
          | none => none
          | some (v, rest) =>
              match skipSpace rest with
              | 44 :: rest =>
                  (parseMembers fuel rest).map fun (members, rest) => ((k, v) :: members, rest)
              | 125 :: rest => some ([(k, v)], rest)
              | _ => none
where
  /-- A key and its colon. -/
  parseKey (s : JsString) : Option (JsString × JsString) :=
    match skipSpace s with
    | 34 :: rest =>
        match parseChars rest with
        | none => none
        | some (k, rest) =>
            match skipSpace rest with
            | 58 :: rest => some (k, rest)
            | _ => none
    | _ => none

end

/-- `JSON.parse(text)`, `none` where it throws. -/
def parseJson (text : JsString) : Option JsValue :=
  match parseValue (text.length + 1) text with
  | none => none
  | some (v, rest) => if (skipSpace rest).isEmpty then some v else none

end Js
