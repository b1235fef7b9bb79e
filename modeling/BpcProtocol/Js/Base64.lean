import BpcProtocol.Js.Text

set_option autoImplicit false

/-! # Base64

`atob`, and the base64url texts of buffers. -/

namespace Js

/-- The value of a character of the base64 alphabet. -/
def base64Value (c : UInt16) : Option ℕ :=
  if 65 ≤ c && c ≤ 90 then some (c.toNat - 65)
  else if 97 ≤ c && c ≤ 122 then some (c.toNat - 71)
  else if 48 ≤ c && c ≤ 57 then some (c.toNat + 4)
  else if c = 43 then some 62
  else if c = 47 then some 63
  else none

/-- The bytes of groups of four sextets. The bits of a last group that fill no byte are dropped. -/
def sextetBytes : List ℕ → List ℕ
  | a :: b :: c :: d :: rest =>
      (a * 4 + b / 16) :: (b % 16 * 16 + c / 4) :: (c % 4 * 64 + d) :: sextetBytes rest
  | [a, b, c] => [a * 4 + b / 16, b % 16 * 16 + c / 4]
  | [a, b] => [a * 4 + b / 16]
  | _ => []

/-- ASCII white space, which `atob` removes. -/
def isAsciiSpace (c : UInt16) : Bool :=
  c = 9 || c = 10 || c = 12 || c = 13 || c = 32

/-- The text without its padding of one or two `=`, where its length asks for it. -/
def unpadded (s : JsString) : JsString :=
  if s.length % 4 ≠ 0 then s
  else if s.drop (s.length - 2) = [61, 61] then s.take (s.length - 2)
  else if s.drop (s.length - 1) = [61] then s.take (s.length - 1)
  else s

/-- `atob(s)`, `none` where it throws. -/
def atob (s : JsString) : Option JsString :=
  let digits := unpadded (s.filter fun c => !isAsciiSpace c)
  if digits.length % 4 = 1 then none
  else do
    let sextets ← digits.mapM base64Value
    pure ((sextetBytes sextets).map Nat.toUInt16)

/-- The base64 of a base64url text: `+` for `-`, `/` for `_`, and `=` up to a multiple of four. -/
def base64UrlPadded (s : JsString) : JsString :=
  let padded := s.map fun c => if c = 45 then 43 else if c = 95 then 47 else c
  padded ++ List.replicate ((4 - padded.length % 4) % 4) 61

/-! ## Buffers -/

/-- The character of a sextet in the base64url alphabet. -/
def base64UrlChar (n : ℕ) : UInt16 :=
  if n < 26 then (65 + n).toUInt16
  else if n < 52 then (71 + n).toUInt16
  else if n < 62 then (n - 4).toUInt16
  else if n = 62 then 45
  else 95

/-- The value of a character of the base64url alphabet. -/
def base64UrlValue (c : UInt16) : Option ℕ :=
  if c = 45 then some 62 else if c = 95 then some 63 else base64Value c

/-- The sextets of bytes, three bytes at a time. The last one is filled up with zeros. -/
def byteSextets : List ℕ → List ℕ
  | a :: b :: c :: rest =>
      a / 4 :: (a % 4 * 16 + b / 16) :: (b % 16 * 4 + c / 64) :: c % 64 :: byteSextets rest
  | [a, b] => [a / 4, a % 4 * 16 + b / 16, b % 16 * 4]
  | [a] => [a / 4, a % 4 * 16]
  | [] => []

/-- The character of a sextet in the base64 alphabet. -/
def base64Char (n : ℕ) : UInt16 :=
  if n < 26 then (65 + n).toUInt16
  else if n < 52 then (71 + n).toUInt16
  else if n < 62 then (n - 4).toUInt16
  else if n = 62 then 43
  else 47

/-- `btoa(String.fromCharCode(...bytes))`. -/
def btoa (bytes : Bytes) : JsString :=
  let digits := (byteSextets (bytes.map UInt8.toNat)).map base64Char
  digits ++ List.replicate ((4 - digits.length % 4) % 4) 61

/-- `buffer.toString('base64url')`. -/
def toBase64Url (bytes : Bytes) : JsString :=
  (byteSextets (bytes.map UInt8.toNat)).map base64UrlChar

/-- `Buffer.from(text, 'base64url')`, of a text in the alphabet. -/
def fromBase64Url (text : JsString) : Bytes :=
  (sextetBytes (text.filterMap base64UrlValue)).map Nat.toUInt8

theorem base64UrlValue_char {n : ℕ} (h : n < 64) : base64UrlValue (base64UrlChar n) = some n := by
  have hall : ∀ m < 64, base64UrlValue (base64UrlChar m) = some m := by decide
  exact hall n h

theorem byteSextets_lt {bytes : List ℕ} (h : ∀ b ∈ bytes, b < 256) :
    ∀ n ∈ byteSextets bytes, n < 64 := by
  induction bytes using byteSextets.induct with
  | case1 a b c rest ih =>
      simp only [List.forall_mem_cons] at h
      obtain ⟨ha, hb, hc, hrest⟩ := h
      simp only [byteSextets, List.forall_mem_cons]
      exact ⟨by omega, by omega, by omega, by omega, ih hrest⟩
  | case2 a b =>
      simp only [List.forall_mem_cons] at h
      simp only [byteSextets, List.forall_mem_cons, List.not_mem_nil, false_implies, implies_true,
        and_true]
      omega
  | case3 a =>
      simp only [List.forall_mem_cons] at h
      simp only [byteSextets, List.forall_mem_cons, List.not_mem_nil, false_implies, implies_true,
        and_true]
      omega
  | case4 =>
      intro n hn
      cases hn

theorem length_byteSextets (bytes : List ℕ) :
    (byteSextets bytes).length = (4 * bytes.length + 2) / 3 := by
  induction bytes using byteSextets.induct with
  | case1 a b c rest ih =>
      simp only [byteSextets, List.length_cons, ih]
      omega
  | case2 a b => simp [byteSextets]
  | case3 a => simp [byteSextets]
  | case4 => rfl

/-- The bytes of the sextets of bytes. -/
theorem sextetBytes_byteSextets {bytes : List ℕ} (h : ∀ b ∈ bytes, b < 256) :
    sextetBytes (byteSextets bytes) = bytes := by
  induction bytes using byteSextets.induct with
  | case1 a b c rest ih =>
      simp only [List.forall_mem_cons] at h
      obtain ⟨ha, hb, hc, hrest⟩ := h
      rw [byteSextets, sextetBytes, ih hrest]
      simp only [List.cons.injEq, and_true]
      omega
  | case2 a b =>
      simp only [List.forall_mem_cons] at h
      simp only [byteSextets, sextetBytes, List.cons.injEq, and_true]
      omega
  | case3 a =>
      simp only [List.forall_mem_cons] at h
      simp only [byteSextets, sextetBytes, List.cons.injEq, and_true]
      omega
  | case4 => rfl

theorem length_toBase64Url (bytes : Bytes) :
    (toBase64Url bytes).length = (4 * bytes.length + 2) / 3 := by
  rw [toBase64Url, List.length_map, length_byteSextets, List.length_map]

theorem toBase64Url_alphabet {bytes : Bytes} {c : UInt16} (h : c ∈ toBase64Url bytes) :
    (isAlnum c || oneOf "_-" c) = true := by
  have hall : ∀ n < 64, (isAlnum (base64UrlChar n) || oneOf "_-" (base64UrlChar n)) = true := by
    decide
  obtain ⟨n, hn, rfl⟩ := List.mem_map.mp h
  refine hall n (byteSextets_lt (fun b hb => ?_) n hn)
  obtain ⟨u, -, rfl⟩ := List.mem_map.mp hb
  exact u.toNat_lt

theorem forall_toNat_lt (bytes : Bytes) : ∀ b ∈ bytes.map UInt8.toNat, b < 256 := by
  intro b hb
  obtain ⟨u, -, rfl⟩ := List.mem_map.mp hb
  exact u.toNat_lt

theorem filterMap_base64UrlValue {char : ℕ → UInt16}
    (hchar : ∀ n < 64, base64UrlValue (char n) = some n) {sextets : List ℕ}
    (h : ∀ n ∈ sextets, n < 64) : (sextets.map char).filterMap base64UrlValue = sextets := by
  induction sextets with
  | nil => rfl
  | cons n rest ih =>
      rw [List.forall_mem_cons] at h
      rw [List.map_cons, List.filterMap_cons, hchar n h.1, ih h.2]

/-- The bytes of the characters of their sextets, in either alphabet. -/
theorem bytes_of_sextets {char : ℕ → UInt16}
    (hchar : ∀ n < 64, base64UrlValue (char n) = some n) (bytes : Bytes) :
    (sextetBytes (((byteSextets (bytes.map UInt8.toNat)).map char).filterMap
      base64UrlValue)).map Nat.toUInt8 = bytes := by
  have hbytes := forall_toNat_lt bytes
  rw [filterMap_base64UrlValue hchar (byteSextets_lt hbytes), sextetBytes_byteSextets hbytes,
    List.map_map]
  have hround : Nat.toUInt8 ∘ UInt8.toNat = fun u : UInt8 => u := by
    funext u
    exact UInt8.ofNat_toNat
  rw [hround, List.map_id']

/-- A buffer is read back from its base64url text. -/
theorem fromBase64Url_toBase64Url (bytes : Bytes) : fromBase64Url (toBase64Url bytes) = bytes :=
  bytes_of_sextets (fun _ => base64UrlValue_char) bytes

/-- `Buffer.from(text, 'base64')`: both alphabets are read, other characters are skipped, and the
    padding ends the text. -/
def fromBase64 (text : JsString) : Bytes :=
  (sextetBytes ((text.takeWhile fun c => c ≠ 61).filterMap base64UrlValue)).map Nat.toUInt8

theorem base64Char_spec : ∀ n < 64,
    base64UrlValue (base64Char n) = some n ∧ base64Char n ≠ 61 ∧ (base64Char n).toNat < 128 ∧
      33 ≤ (base64Char n).toNat := by
  decide

/-- A buffer is read back from its base64 text. -/
theorem fromBase64_btoa (bytes : Bytes) : fromBase64 (btoa bytes) = bytes := by
  have hdigits : ∀ c ∈ (byteSextets (bytes.map UInt8.toNat)).map base64Char,
      decide (c ≠ 61) = true := by
    intro c hc
    obtain ⟨n, hn, rfl⟩ := List.mem_map.mp hc
    exact decide_eq_true (base64Char_spec n (byteSextets_lt (forall_toNat_lt bytes) n hn)).2.1
  have hpadding : ∀ k : ℕ, (List.replicate k (61 : UInt16)).takeWhile (fun c => c ≠ 61) = [] := by
    intro k
    cases k with
    | zero => rfl
    | succ k => rfl
  simp only [fromBase64, btoa]
  rw [List.takeWhile_append_of_pos hdigits, hpadding, List.append_nil]
  exact bytes_of_sextets (fun n hn => (base64Char_spec n hn).1) bytes

end Js
