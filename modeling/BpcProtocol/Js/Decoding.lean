import BpcProtocol.Js.Utf8

set_option autoImplicit false

/-! # Decoding UTF-8

Bytes that are not the encoding of a code point are replaced by U+FFFD, one for every longest piece
that an encoding could begin with. -/

namespace Js

/-- An encoding that has begun: the bytes still to come, what they add to, and the range of the
    next one. -/
structure Pending where
  needed : ℕ
  point : ℕ
  lower : ℕ
  upper : ℕ

/-- A byte where an encoding may begin: the code points decoded, and the encoding begun. -/
def decodeLead (b : ℕ) : List ℕ × Option Pending :=
  if b < 0x80 then ([b], none)
  else if b < 0xC2 then ([0xFFFD], none)
  else if b < 0xE0 then ([], some ⟨1, b - 0xC0, 0x80, 0xBF⟩)
  else if b < 0xF0 then
    ([], some ⟨2, b - 0xE0, if b = 0xE0 then 0xA0 else 0x80, if b = 0xED then 0x9F else 0xBF⟩)
  else if b < 0xF5 then
    ([], some ⟨3, b - 0xF0, if b = 0xF0 then 0x90 else 0x80, if b = 0xF4 then 0x8F else 0xBF⟩)
  else ([0xFFFD], none)

/-- A byte, behind an encoding that has begun: one that does not go on with it ends it, and is read
    as the first byte of another. -/
def decodeByte : Option Pending → ℕ → List ℕ × Option Pending
  | none, b => decodeLead b
  | some p, b =>
      let point := p.point * 0x40 + (b - 0x80)
      if p.lower ≤ b ∧ b ≤ p.upper then
        if p.needed = 1 then ([point], none) else ([], some ⟨p.needed - 1, point, 0x80, 0xBF⟩)
      else (0xFFFD :: (decodeLead b).1, (decodeLead b).2)

def decodeBytes : Option Pending → List ℕ → List ℕ
  | none, [] => []
  | some _, [] => [0xFFFD]
  | p, b :: rest => (decodeByte p b).1 ++ decodeBytes (decodeByte p b).2 rest

/-- `buffer.toString('utf8')`. -/
def fromUtf8 (bytes : Bytes) : JsString :=
  (decodeBytes none (bytes.map UInt8.toNat)).flatMap codeUnits

/-! ## What UTF-8 keeps -/

/-- A code point that is not half of a surrogate pair. -/
def IsScalar (n : ℕ) : Prop := IsCodePoint n ∧ ¬(0xD800 ≤ n ∧ n ≤ 0xDFFF)

theorem toNat_toUInt8 {n : ℕ} (h : n < 256) : n.toUInt8.toNat = n := by
  simp [Nat.toUInt8, UInt8.toNat_ofNat', Nat.mod_eq_of_lt h]

/-- A byte that an encoding goes on with is its last one, or there are others to come. -/
theorem decodeBytes_next {needed point lower upper b : ℕ} (hlower : lower ≤ b) (hupper : b ≤ upper)
    (rest : List ℕ) :
    decodeBytes (some ⟨needed, point, lower, upper⟩) (b :: rest) =
      if needed = 1 then (point * 0x40 + (b - 0x80)) :: decodeBytes none rest
      else decodeBytes (some ⟨needed - 1, point * 0x40 + (b - 0x80), 0x80, 0xBF⟩) rest := by
  rw [decodeBytes, decodeByte]
  simp only [if_pos (And.intro hlower hupper)]
  split <;> rfl

theorem decodeBytes_lead {b : ℕ} {p : Pending} (h : decodeLead b = ([], some p)) (rest : List ℕ) :
    decodeBytes none (b :: rest) = decodeBytes (some p) rest := by
  rw [decodeBytes, decodeByte, h]
  rfl

/-- The encoding of a scalar value is decoded to it, whatever comes behind. -/
theorem decodeBytes_utf8CodePoint {n : ℕ} (h : IsScalar n) (rest : List ℕ) :
    decodeBytes none ((utf8CodePoint n).map UInt8.toNat ++ rest) = n :: decodeBytes none rest := by
  obtain ⟨hpoint, hsurrogate⟩ := h
  unfold IsCodePoint at hpoint
  unfold utf8CodePoint
  -- one case for each length of an encoding
  split_ifs with h1 h2 h3
  · rw [List.map_singleton, toNat_toUInt8 (by omega)]
    simp [decodeBytes, decodeByte, decodeLead, h1]
  · have hlead : decodeLead (0xC0 + n / 0x40) = ([], some ⟨1, n / 0x40, 0x80, 0xBF⟩) := by
      rw [decodeLead, if_neg (by omega), if_neg (by omega), if_pos (by omega)]
      simp
    simp (disch := omega) only [List.map_cons, List.map_nil, toNat_toUInt8, List.cons_append,
      List.nil_append]
    rw [decodeBytes_lead hlead, decodeBytes_next (by omega) (by omega), if_pos rfl]
    have hpoint : n / 0x40 * 0x40 + (0x80 + n % 0x40 - 0x80) = n := by omega
    rw [hpoint]
  · have hlead : decodeLead (0xE0 + n / 0x1000) = ([], some ⟨2, n / 0x1000,
        if n / 0x1000 = 0 then 0xA0 else 0x80, if n / 0x1000 = 0xD then 0x9F else 0xBF⟩) := by
      have hzero : 0xE0 + n / 0x1000 = 0xE0 ↔ n / 0x1000 = 0 := by omega
      have hd : 0xE0 + n / 0x1000 = 0xED ↔ n / 0x1000 = 0xD := by omega
      rw [decodeLead, if_neg (by omega), if_neg (by omega), if_neg (by omega), if_pos (by omega)]
      simp only [hzero, hd, Nat.add_sub_cancel_left]
    simp (disch := omega) only [List.map_cons, List.map_nil, toNat_toUInt8, List.cons_append,
      List.nil_append]
    -- an encoding that is too long or of a surrogate would have another second byte
    rw [decodeBytes_lead hlead, decodeBytes_next (by split <;> omega) (by split <;> omega),
      if_neg (by omega), decodeBytes_next (by omega) (by omega), if_pos rfl]
    have hpoint : (n / 0x1000 * 0x40 + (0x80 + n / 0x40 % 0x40 - 0x80)) * 0x40 +
        (0x80 + n % 0x40 - 0x80) = n := by omega
    rw [hpoint]
  · have hlead : decodeLead (0xF0 + n / 0x40000) = ([], some ⟨3, n / 0x40000,
        if n / 0x40000 = 0 then 0x90 else 0x80, if n / 0x40000 = 4 then 0x8F else 0xBF⟩) := by
      have hzero : 0xF0 + n / 0x40000 = 0xF0 ↔ n / 0x40000 = 0 := by omega
      have hfour : 0xF0 + n / 0x40000 = 0xF4 ↔ n / 0x40000 = 4 := by omega
      rw [decodeLead, if_neg (by omega), if_neg (by omega), if_neg (by omega), if_neg (by omega),
        if_pos (by omega)]
      simp only [hzero, hfour, Nat.add_sub_cancel_left]
    simp (disch := omega) only [List.map_cons, List.map_nil, toNat_toUInt8, List.cons_append,
      List.nil_append]
    rw [decodeBytes_lead hlead, decodeBytes_next (by split <;> omega) (by split <;> omega),
      if_neg (by omega), decodeBytes_next (by omega) (by omega), if_neg (by omega),
      decodeBytes_next (by omega) (by omega), if_pos rfl]
    have hpoint : ((n / 0x40000 * 0x40 + (0x80 + n / 0x1000 % 0x40 - 0x80)) * 0x40 +
        (0x80 + n / 0x40 % 0x40 - 0x80)) * 0x40 + (0x80 + n % 0x40 - 0x80) = n := by omega
    rw [hpoint]

theorem scalars_isScalar (s : JsString) : ∀ n ∈ scalars s, IsScalar n := by
  have hunit : ∀ c : UInt16,
      IsScalar (if isHighSurrogate c || isLowSurrogate c then 0xFFFD else c.toNat) := by
    intro c
    have hc : c.toNat < 65536 := c.toNat_lt
    unfold IsScalar IsCodePoint
    split
    · omega
    · next hnot =>
      rw [Bool.or_eq_true, isHighSurrogate_iff, isLowSurrogate_iff] at hnot
      omega
  induction s using scalars.induct with
  | case1 => simp [scalars]
  | case2 c =>
      rw [scalars, List.forall_mem_singleton]
      exact hunit c
  | case3 c d rest hpair ih =>
      have hsurrogates := hpair
      rw [Bool.and_eq_true, isHighSurrogate_iff, isLowSurrogate_iff] at hsurrogates
      rw [scalars, if_pos hpair, List.forall_mem_cons]
      refine ⟨?_, ih⟩
      unfold IsScalar IsCodePoint
      omega
  | case4 c d rest hpair ih =>
      rw [scalars, if_neg hpair, List.forall_mem_cons]
      exact ⟨hunit c, ih⟩

theorem decodeBytes_scalars {points : List ℕ} (h : ∀ n ∈ points, IsScalar n) :
    decodeBytes none ((points.flatMap utf8CodePoint).map UInt8.toNat) = points := by
  induction points with
  | nil => rfl
  | cons n rest ih =>
      rw [List.forall_mem_cons] at h
      rw [List.flatMap_cons, List.map_append, decodeBytes_utf8CodePoint h.1, ih h.2]

/-- A string without lone surrogates comes back from its bytes. -/
theorem fromUtf8_utf8 {s : JsString} (h : WellFormed s) : fromUtf8 (utf8 s) = s := by
  rw [fromUtf8, utf8_eq_scalars, decodeBytes_scalars (scalars_isScalar s), scalars_eq_codePoints h,
    codePoints_codeUnits]

end Js
