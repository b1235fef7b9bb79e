import BpcProtocol.Ha.Signing
import BpcProtocol.Js.Json
import Mathlib.Data.List.Sort

set_option autoImplicit false

/-! # Canonical JSON and the operation digest

`canonicalize` is RFC 8785 restricted to I-JSON values, with its bounds on depth, nodes and bytes;
`canonicalOpDigest` hashes an outbox record's fields, each under its length. -/

namespace Ha

open Fallible

/-! ## Bounds and patterns -/

def canonMaxDepth : ℕ := 64

def canonMaxNodes : ℕ := 10000

def canonMaxStringBytes : ℕ := 65536

def canonMaxTotalBytes : ℕ := 1048576

/-- `ID_PATTERN`. -/
def idPattern : JsString → Bool
  | [] => false
  | c :: rest => Js.isAlnum c && Js.classPattern (fun c => Js.isAlnum c || Js.oneOf ":._/-" c) 0 127 rest

/-- `FENCE_TOKEN_PATTERN`: a decimal without leading zeros, of at most 39 digits. -/
def fenceTokenPattern : JsString → Bool
  | [] => false
  | [c] => Js.isDigit c
  | c :: rest => (Js.isDigit c && c != 48) && Js.classPattern Js.isDigit 0 38 rest

/-- `assertId(value, label)`. -/
def assertId (value : JsString) (label : String) : Except HaError Unit :=
  ensure (idPattern value = true)
    (label ++ " must match /^[A-Za-z0-9][A-Za-z0-9:._/-]\x7b0,127\x7d$/ (bounded, no separators)")

/-! ## Strings and numbers -/

/-- `assertNoLoneSurrogate(s)`. -/
def assertNoLoneSurrogate : JsString → Except HaError Unit
  | [] => .ok ()
  | [c] =>
      if Js.isHighSurrogate c then
        .error (.contractValidation "lone high surrogate is not canonicalizable")
      else if Js.isLowSurrogate c then
        .error (.contractValidation "lone low surrogate is not canonicalizable")
      else .ok ()
  | c :: d :: rest =>
      if Js.isHighSurrogate c then
        if Js.isLowSurrogate d then assertNoLoneSurrogate rest
        else .error (.contractValidation "lone high surrogate is not canonicalizable")
      else if Js.isLowSurrogate c then
        .error (.contractValidation "lone low surrogate is not canonicalizable")
      else assertNoLoneSurrogate (d :: rest)

/-- One code unit of a JCS string: the short escapes, then `\u00XX` below the blank, then itself. -/
def jcsEscape (c : UInt16) : JsString :=
  if c = 34 then Js.lit "\\\""
  else if c = 92 then Js.lit "\\\\"
  else if c = 8 then Js.lit "\\b"
  else if c = 12 then Js.lit "\\f"
  else if c = 10 then Js.lit "\\n"
  else if c = 13 then Js.lit "\\r"
  else if c = 9 then Js.lit "\\t"
  else if c < 32 then Js.lit "\\u00" ++ [Js.hexDigit (c.toNat / 16), Js.hexDigit (c.toNat % 16)]
  else [c]

/-- `jcsString(s)`. -/
def jcsString (s : JsString) : Except HaError JsString := do
  assertNoLoneSurrogate s
  ensure ((Js.utf8 s).length ≤ canonMaxStringBytes) "string exceeds CANON_MAX_STRING_BYTES"
  pure (Js.lit "\"" ++ s.flatMap jcsEscape ++ Js.lit "\"")

/-- `jcsNumber(n)`. -/
def jcsNumber (n : JsNumber) : Except HaError JsString :=
  match n.toInt? with
  | some i => do
      ensure (Js.isSafeInteger i = true) "only safe-integer numbers are canonicalizable"
      pure (Js.decimal i)
  | none => .error (.contractValidation "only safe-integer numbers are canonicalizable")

/-! ## The walk -/

/-- What the walk counts and has written so far. -/
structure CanonState where
  nodes : ℕ
  bytes : ℕ
  parts : JsString

/-- The walk's state monad. -/
abbrev CanonM := StateT CanonState (Except HaError)

/-- `push(s)`. -/
def canonPush (s : JsString) : CanonM Unit := fun st => do
  let bytes := st.bytes + (Js.utf8 s).length
  ensure (bytes ≤ canonMaxTotalBytes) "canonical form exceeds CANON_MAX_TOTAL_BYTES"
  pure ((), { st with bytes, parts := st.parts ++ s })

/-- `++nodes > CANON_MAX_NODES`. -/
def canonEnter : CanonM Unit := fun st => do
  ensure (st.nodes + 1 ≤ canonMaxNodes) "max canonicalization node count exceeded"
  pure ((), { st with nodes := st.nodes + 1 })

def canonFail (message : String) : CanonM Unit := fun _ => .error (.contractValidation message)

/-- Entries separated by commas. -/
def canonSeparated {α : Type} (entry : α → CanonM Unit) : List α → CanonM Unit
  | [] => pure ()
  | [a] => entry a
  | a :: rest => do
      entry a
      canonPush (Js.lit ",")
      canonSeparated entry rest

/-- The order of the keys: by UTF-16 code unit. -/
def keyLe (a b : JsString × JsValue) : Prop := a.1 ≤ b.1

instance : DecidableRel keyLe := fun a b => inferInstanceAs (Decidable (a.1 ≤ b.1))

/-- A member of an object: its key, a colon and its value. -/
def canonMember (walk : JsValue → CanonM Unit) (f : JsString × JsValue) : CanonM Unit := do
  let k ← StateT.lift (jcsString f.1)
  canonPush (k ++ Js.lit ":")
  walk f.2

/-- `walk(v, depth)`, by the depth that is left. -/
def canonWalk : ℕ → JsValue → CanonM Unit
  | 0, _ => canonFail "max canonicalization depth exceeded"
  | left + 1, v => do
      canonEnter
      match v with
      | .null => canonPush (Js.lit "null")
      | .bool b => canonPush (if b then Js.lit "true" else Js.lit "false")
      | .number n => do
          let s ← StateT.lift (jcsNumber n)
          canonPush s
      | .string s => do
          let s ← StateT.lift (jcsString s)
          canonPush s
      | .undefined => canonFail "undefined is not canonicalizable"
      | .other => canonFail "value is not canonicalizable"
      | .array items => do
          canonPush (Js.lit "[")
          canonSeparated (canonWalk left) items
          canonPush (Js.lit "]")
      | .object fields => do
          if fields.any fun f => f.1 == Js.lit "__proto__" then
            canonFail "__proto__ key is rejected"
          canonPush (Js.lit "\x7b")
          canonSeparated (canonMember (canonWalk left)) (fields.insertionSort keyLe)
          canonPush (Js.lit "\x7d")

/-- `canonicalize(value)`. -/
def canonicalize (value : JsValue) : Except HaError JsString := do
  let (_, st) ← (canonWalk (canonMaxDepth + 1) value).run { nodes := 0, bytes := 0, parts := [] }
  pure st.parts

/-! ## The operation digest -/

/-- `assertFenceToken(t)`. -/
def assertFenceToken (t : JsString) : Except HaError Unit :=
  ensure (fenceTokenPattern t = true)
    "fenceToken must be canonical non-negative decimal (no leading zeros)"

/-- The argument of `canonicalOpDigest`. -/
structure OpDigestInput where
  streamId : JsString
  sourceEpoch : JsString
  sequence : ℤ
  fenceToken : JsString
  mutation : JsValue

/-- A digest field: its byte length and its bytes. -/
def digestField (f : JsString) : Bytes :=
  Js.u32be (Js.utf8 f).length ++ Js.utf8 f

/-- `canonicalOpDigest(input)`. -/
def canonicalOpDigest (c : Crypto) (input : OpDigestInput) : Except HaError JsString := do
  assertId input.streamId "streamId"
  assertNoLoneSurrogate input.streamId
  assertId input.sourceEpoch "sourceEpoch"
  assertNoLoneSurrogate input.sourceEpoch
  ensure (Js.isSafeInteger input.sequence ∧ 1 ≤ input.sequence)
    "mutation sequence must be a safe integer >= 1 (0 is genesis)"
  assertFenceToken input.fenceToken
  let mutation ← canonicalize input.mutation
  let fields := [Js.lit "selfconnect/ha-outbox/v1", Js.lit "1", input.streamId, input.sourceEpoch,
    Js.decimal input.sequence, input.fenceToken, mutation]
  pure (c.sha256 (fields.flatMap digestField))

end Ha
