import BpcProtocol.Js.Json

set_option autoImplicit false

/-! # Coercions

`String(v)` and `Number(s)`. -/

namespace Js

/-! ## To a string -/

mutual

/-- `String(v)`. -/
def toText : JsValue → JsString
  | .undefined => lit "undefined"
  | .null => lit "null"
  | .bool b => if b then lit "true" else lit "false"
  | .number n => numberText n
  | .string s => s
  | .array items => commas (elementTexts items)
  | .object _ => lit "[object Object]"
  | .other => lit "[object Object]"

/-- The elements of an array as `join` writes them. -/
def elementTexts : List JsValue → List JsString
  | [] => []
  | .undefined :: rest => [] :: elementTexts rest
  | .null :: rest => [] :: elementTexts rest
  | v :: rest => toText v :: elementTexts rest

end

mutual

/-- `String(v)` does not throw. A parsed object with a property `toString` of its own has no text:
    the property is no function, and `valueOf` gives the object back. -/
def hasText : JsValue → Bool
  | .array items => elementsHaveText items
  | .object fields => !fields.any fun f => f.1 == lit "toString"
  | _ => true

def elementsHaveText : List JsValue → Bool
  | [] => true
  | v :: rest => hasText v && elementsHaveText rest

end

/-! ## To a number -/

/-- White space and line terminators. -/
def isWhiteSpace (c : UInt16) : Bool :=
  (9 ≤ c && c ≤ 13) || c = 32 || c = 160 || c = 0x1680 || (0x2000 ≤ c && c ≤ 0x200A) ||
    c = 0x2028 || c = 0x2029 || c = 0x202F || c = 0x205F || c = 0x3000 || c = 0xFEFF

/-- `s.trim()`. -/
def trim (s : JsString) : JsString :=
  ((s.dropWhile isWhiteSpace).reverse.dropWhile isWhiteSpace).reverse

theorem dropWhile_of_noSpace {s : JsString} (h : ∀ c ∈ s, isWhiteSpace c = false) :
    s.dropWhile isWhiteSpace = s := by
  cases s with
  | nil => rfl
  | cons c cs =>
      rw [List.dropWhile_cons_of_neg]
      simp [h c List.mem_cons_self]

/-- White space behind a text without white space is all that is trimmed. -/
theorem trim_append {s t : JsString} (hs : ∀ c ∈ s, isWhiteSpace c = false) (hne : s ≠ [])
    (ht : ∀ c ∈ t, isWhiteSpace c = true) : trim (s ++ t) = s := by
  have hhead : (s ++ t).dropWhile isWhiteSpace = s ++ t := by
    cases s with
    | nil => exact absurd rfl hne
    | cons c cs =>
        rw [List.cons_append, List.dropWhile_cons_of_neg]
        simp [hs c List.mem_cons_self]
  rw [trim, hhead, List.reverse_append, List.dropWhile_append_of_pos
    fun c hc => ht c (List.mem_reverse.mp hc),
    dropWhile_of_noSpace fun c hc => hs c (List.mem_reverse.mp hc), List.reverse_reverse]

theorem trim_of_noSpace {s : JsString} (h : ∀ c ∈ s, isWhiteSpace c = false) : trim s = s := by
  rw [trim, dropWhile_of_noSpace h, dropWhile_of_noSpace fun c hc => h c (List.mem_reverse.mp hc),
    List.reverse_reverse]

/-- An integer in another radix, behind its prefix. -/
def radixNumber (radix : ℕ) (ds : JsString) : JsNumber :=
  match ds.mapM hexValue with
  | some values =>
      if values.isEmpty || values.any (radix ≤ ·) then .nan
      else ofRat (values.foldl (fun n d => radix * n + d) 0 : ℕ)
  | none => .nan

/-- A decimal literal without its sign: digits, a point with digits on at least one side, and an
    exponent. -/
def unsignedLiteral (s : JsString) : JsNumber :=
  if s = lit "Infinity" then .posInf
  else
    let (i, rest) := s.span isDigit
    let (f, rest) : JsString × JsString :=
      match rest with
      | 46 :: rest => rest.span isDigit
      | rest => ([], rest)
    if i.isEmpty && f.isEmpty then .nan
    else
      match parseExponent rest with
      | some (e, []) => ofRat (decimalValue i f e)
      | _ => .nan

/-- `Number(s)`. -/
def stringToNumber (s : JsString) : JsNumber :=
  match trim s with
  | [] => .fin 0
  | 48 :: c :: ds =>
      if c = 120 || c = 88 then radixNumber 16 ds
      else if c = 111 || c = 79 then radixNumber 8 ds
      else if c = 98 || c = 66 then radixNumber 2 ds
      else unsignedLiteral (48 :: c :: ds)
  | 43 :: rest => unsignedLiteral rest
  | 45 :: rest => (unsignedLiteral rest).neg
  | t => unsignedLiteral t

/-- `Number(v)`, for a value that has a text. -/
def toNumber : JsValue → JsNumber
  | .undefined => .nan
  | .null => .fin 0
  | .bool b => if b then .fin 1 else .fin 0
  | .number n => n
  | v => stringToNumber (toText v)

end Js
