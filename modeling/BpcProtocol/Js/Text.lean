import Mathlib.Data.List.Basic
import Mathlib.Data.Int.Notation

set_option autoImplicit false

/-! # JavaScript text

Strings are sequences of UTF-16 code units, as in the language: `===` is equality of the code
units, `length` counts them, and a lone surrogate is a legal value. -/

/-- A JavaScript string. -/
abbrev JsString := List UInt16

instance : LawfulBEq JsString :=
  inferInstanceAs (LawfulBEq (List UInt16))

/-- Bytes, as held by a `Buffer`. -/
abbrev Bytes := List UInt8

namespace Js

/-- The string literal `s`, for text within the basic multilingual plane. -/
def lit (s : String) : JsString :=
  s.toList.map fun c => c.toNat.toUInt16

/-- `String(n)` for an integer `n` that a number represents exactly below `1e21`. -/
def decimal (n : ℤ) : JsString :=
  lit (toString n)

/-- A string inside the text of an error, surrogates aside. -/
def message (s : JsString) : String :=
  String.ofList (s.map fun c => Char.ofNat c.toNat)

/-- `Number.MAX_SAFE_INTEGER`. -/
def maxSafeInteger : ℤ := 9007199254740991

/-- `Number.isSafeInteger(n)` for an integer value. -/
def isSafeInteger (n : ℤ) : Bool :=
  decide (-maxSafeInteger ≤ n) && decide (n ≤ maxSafeInteger)

/-! ## Character classes -/

/-- `[0-9]`. -/
def isDigit (c : UInt16) : Bool := 48 ≤ c && c ≤ 57

/-- `[A-Za-z0-9]`. -/
def isAlnum (c : UInt16) : Bool :=
  isDigit c || (65 ≤ c && c ≤ 90) || (97 ≤ c && c ≤ 122)

/-- `[0-9a-f]`. -/
def isLowerHex (c : UInt16) : Bool := isDigit c || (97 ≤ c && c ≤ 102)

/-- `c` is one of the characters of `s`. -/
def oneOf (s : String) (c : UInt16) : Bool := (lit s).contains c

/-- The anchored pattern `^[class]{lo,hi}$`. -/
def classPattern (cls : UInt16 → Bool) (lo hi : ℕ) (s : JsString) : Bool :=
  decide (lo ≤ s.length) && decide (s.length ≤ hi) && s.all cls

/-! ## UTF-8 -/

/-- The UTF-8 encoding of one code point. -/
def utf8CodePoint (c : ℕ) : Bytes :=
  if c < 0x80 then [c.toUInt8]
  else if c < 0x800 then [(0xC0 + c / 0x40).toUInt8, (0x80 + c % 0x40).toUInt8]
  else if c < 0x10000 then
    [(0xE0 + c / 0x1000).toUInt8, (0x80 + c / 0x40 % 0x40).toUInt8, (0x80 + c % 0x40).toUInt8]
  else
    [(0xF0 + c / 0x40000).toUInt8, (0x80 + c / 0x1000 % 0x40).toUInt8,
      (0x80 + c / 0x40 % 0x40).toUInt8, (0x80 + c % 0x40).toUInt8]

def isHighSurrogate (c : UInt16) : Bool := 0xD800 ≤ c && c ≤ 0xDBFF

def isLowSurrogate (c : UInt16) : Bool := 0xDC00 ≤ c && c ≤ 0xDFFF

/-- `Buffer.from(s, 'utf8')`: a surrogate pair is one code point, and a lone surrogate is replaced
    by U+FFFD. -/
def utf8 : JsString → Bytes
  | [] => []
  | [c] =>
      utf8CodePoint (if isHighSurrogate c || isLowSurrogate c then 0xFFFD else c.toNat)
  | c :: d :: rest =>
      if isHighSurrogate c && isLowSurrogate d then
        utf8CodePoint (0x10000 + (c.toNat - 0xD800) * 0x400 + (d.toNat - 0xDC00)) ++ utf8 rest
      else
        utf8CodePoint (if isHighSurrogate c || isLowSurrogate c then 0xFFFD else c.toNat) ++
          utf8 (d :: rest)

/-- `buffer.writeUInt32BE(n)`. -/
def u32be (n : ℕ) : Bytes :=
  [(n / 0x1000000).toUInt8, (n / 0x10000).toUInt8, (n / 0x100).toUInt8, n.toUInt8]

end Js
