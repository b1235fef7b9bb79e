import BpcProtocol.Js.Ascii
import BpcProtocol.Wire.Core

set_option autoImplicit false

/-! # Encoded bytes

What `b64url` writes, `atob` and `b64urlDecode` read. -/

namespace Wire

open Js (toBase64Url byteSextets base64Char base64UrlChar base64Value atob base64UrlPadded)

/-! ## The alphabet -/

theorem base64Char_url {n : ℕ} (h : n < 64) :
    (if base64Char n = 43 then 45 else if base64Char n = 47 then 95 else base64Char n) =
      base64UrlChar n := by
  have hall : ∀ m < 64, (if base64Char m = 43 then 45 else if base64Char m = 47 then 95
      else base64Char m) = base64UrlChar m := by decide
  exact hall n h

theorem base64UrlChar_back {n : ℕ} (h : n < 64) :
    (if base64UrlChar n = 45 then 43 else if base64UrlChar n = 95 then 47 else base64UrlChar n) =
      base64Char n := by
  have hall : ∀ m < 64, (if base64UrlChar m = 45 then 43 else if base64UrlChar m = 95 then 47
      else base64UrlChar m) = base64Char m := by decide
  exact hall n h

theorem base64UrlChar_ne {n : ℕ} (h : n < 64) : base64UrlChar n ≠ 61 := by
  have hall : ∀ m < 64, base64UrlChar m ≠ 61 := by decide
  exact hall n h

theorem base64Char_spec {n : ℕ} (h : n < 64) :
    base64Value (base64Char n) = some n ∧ base64Char n ≠ 61 ∧
      Js.isAsciiSpace (base64Char n) = false := by
  have hall : ∀ m < 64, base64Value (base64Char m) = some m ∧ base64Char m ≠ 61 ∧
      Js.isAsciiSpace (base64Char m) = false := by decide
  exact hall n h

theorem base64UrlChar_class {n : ℕ} (h : n < 64) :
    (Js.isAlnum (base64UrlChar n) || Js.oneOf "_-" (base64UrlChar n)) = true := by
  have hall : ∀ m < 64, (Js.isAlnum (base64UrlChar m) || Js.oneOf "_-" (base64UrlChar m)) = true := by
    decide
  exact hall n h

/-- The sextets of a buffer. -/
def sextets (buf : Bytes) : List ℕ :=
  byteSextets (buf.map UInt8.toNat)

theorem toNat_lt (buf : Bytes) : ∀ b ∈ buf.map UInt8.toNat, b < 256 := by
  intro b hb
  obtain ⟨u, -, rfl⟩ := List.mem_map.mp hb
  exact u.toNat_lt

theorem sextets_lt (buf : Bytes) : ∀ n ∈ sextets buf, n < 64 :=
  Js.byteSextets_lt (toNat_lt buf)

/-- `b64url` writes the text that a `Buffer` writes. -/
theorem b64url_eq (buf : Bytes) : b64url buf = (sextets buf).map base64UrlChar := by
  have hmap : ∀ l : List ℕ, (∀ n ∈ l, n < 64) →
      ((l.map base64Char).map fun c => if c = 43 then 45 else if c = 47 then 95 else c) =
        l.map base64UrlChar := by
    intro l hl
    rw [List.map_map]
    exact List.map_congr_left fun n hn => base64Char_url (hl n hn)
  have hkeep : ∀ l : List ℕ, (∀ n ∈ l, n < 64) →
      (l.map base64UrlChar).filter (· != 61) = l.map base64UrlChar := by
    intro l hl
    rw [List.filter_eq_self]
    intro c hc
    obtain ⟨n, hn, rfl⟩ := List.mem_map.mp hc
    simpa using base64UrlChar_ne (hl n hn)
  have hpad : ∀ k, (List.replicate k (61 : UInt16)).filter (· != 61) = [] := by
    intro k
    simp
  have hbtoa : Js.btoa buf = (sextets buf).map base64Char ++
      List.replicate ((4 - ((sextets buf).map base64Char).length % 4) % 4) 61 := rfl
  rw [b64url, hbtoa, List.map_append, List.map_replicate, List.filter_append,
    hmap _ (sextets_lt buf), hkeep _ (sextets_lt buf)]
  simp only [show (if (61 : UInt16) = 43 then (45 : UInt16) else if (61 : UInt16) = 47 then 95
    else 61) = 61 by decide, hpad, List.append_nil]

/-! ## Padding -/

/-- A text without padding is what is left of it with its padding. -/
theorem unpadded_append {digits : JsString} (h61 : 61 ∉ digits) (hlen : digits.length % 4 ≠ 1) :
    Js.unpadded (digits ++ List.replicate ((4 - digits.length % 4) % 4) 61) = digits := by
  obtain h | h | h : digits.length % 4 = 0 ∨ digits.length % 4 = 2 ∨ digits.length % 4 = 3 := by
    omega
  · rw [h, List.replicate_zero, List.append_nil, Js.unpadded, if_neg (by omega), if_neg, if_neg]
    · intro hdrop
      exact h61 (List.mem_of_mem_drop (hdrop ▸ List.mem_cons_self))
    · intro hdrop
      exact h61 (List.mem_of_mem_drop (hdrop ▸ List.mem_cons_self))
  · rw [h]
    simp [Js.unpadded]
    omega
  · rw [h, Js.unpadded, if_neg (by simp; omega), if_neg, if_pos]
    · simp
    · simp
    · intro hdrop
      have hshort : (digits ++ List.replicate ((4 - 3) % 4) 61).drop
          ((digits ++ List.replicate ((4 - 3) % 4) 61).length - 2) =
            digits.drop (digits.length - 1) ++ [61] := by
        rw [List.length_append, List.length_replicate]
        show (digits ++ [61]).drop (digits.length + 1 - 2) = _
        rw [List.drop_append_of_le_length (by omega)]
        rfl
      rw [hshort] at hdrop
      have hhead : digits.drop (digits.length - 1) = [61] :=
        @List.append_cancel_right _ _ [61] _ hdrop
      exact h61 (List.mem_of_mem_drop (hhead ▸ List.mem_cons_self))

theorem length_byteSextets (l : List ℕ) : (byteSextets l).length % 4 ≠ 1 := by
  induction l using Js.byteSextets.induct with
  | case1 a b c rest ih =>
      simp only [byteSextets, List.length_cons]
      omega
  | case2 a b => simp [byteSextets]
  | case3 a => simp [byteSextets]
  | case4 => simp [byteSextets]

/-! ## Reading -/

theorem mapM_base64Value {l : List ℕ} (h : ∀ n ∈ l, n < 64) :
    (l.map base64Char).mapM base64Value = some l := by
  induction l with
  | nil => rfl
  | cons n rest ih =>
      rw [List.forall_mem_cons] at h
      rw [List.map_cons, List.mapM_cons, (base64Char_spec h.1).1, ih h.2]
      rfl

theorem base64UrlPadded_b64url (buf : Bytes) :
    base64UrlPadded (b64url buf) = (sextets buf).map base64Char ++
      List.replicate ((4 - ((sextets buf).map base64Char).length % 4) % 4) 61 := by
  have hmap : ((b64url buf).map fun c => if c = 45 then 43 else if c = 95 then 47 else c) =
      (sextets buf).map base64Char := by
    rw [b64url_eq, List.map_map]
    exact List.map_congr_left fun n hn => base64UrlChar_back (sextets_lt buf n hn)
  unfold base64UrlPadded
  simp only [hmap]

/-- **`atob` reads what `b64url` wrote**, each byte as one character. -/
theorem atob_b64url (buf : Bytes) :
    atob (base64UrlPadded (b64url buf)) = some (buf.map fun b => b.toNat.toUInt16) := by
  have hdigits : ∀ c ∈ (sextets buf).map base64Char, c ≠ 61 ∧ Js.isAsciiSpace c = false := by
    intro c hc
    obtain ⟨n, hn, rfl⟩ := List.mem_map.mp hc
    exact (base64Char_spec (sextets_lt buf n hn)).2
  have h61 : 61 ∉ (sextets buf).map base64Char := fun hmem => (hdigits 61 hmem).1 rfl
  have hlen : ((sextets buf).map base64Char).length % 4 ≠ 1 := by
    rw [List.length_map]
    exact length_byteSextets _
  have hfilter : (base64UrlPadded (b64url buf)).filter (fun c => !Js.isAsciiSpace c) =
      (sextets buf).map base64Char ++
        List.replicate ((4 - ((sextets buf).map base64Char).length % 4) % 4) 61 := by
    rw [base64UrlPadded_b64url, List.filter_eq_self]
    intro c hc
    rcases List.mem_append.mp hc with hc | hc
    · simp [(hdigits c hc).2]
    · rw [List.eq_of_mem_replicate hc]
      decide
  have hbytes : Js.sextetBytes (sextets buf) = buf.map UInt8.toNat :=
    Js.sextetBytes_byteSextets (toNat_lt buf)
  unfold atob
  simp only [hfilter, unpadded_append h61 hlen, if_neg hlen,
    mapM_base64Value (sextets_lt buf), Option.bind_eq_bind, Option.bind_some, hbytes, List.map_map]
  rfl

/-- `b64urlDecode` gives the bytes back. -/
theorem b64urlDecode_b64url (buf : Bytes) : b64urlDecode (b64url buf) = some buf := by
  rw [b64urlDecode, atob_b64url, Option.map_some, List.map_map]
  refine congrArg some ((List.map_congr_left fun b _ => ?_).trans (List.map_id buf))
  simp [Nat.toUInt16, Nat.toUInt8]

/-- The characters of an encoding. -/
theorem b64url_class (buf : Bytes) :
    ∀ c ∈ b64url buf, (Js.isAlnum c || Js.oneOf "_-" c) = true := by
  rw [b64url_eq]
  intro c hc
  obtain ⟨n, hn, rfl⟩ := List.mem_map.mp hc
  exact base64UrlChar_class (sextets_lt buf n hn)

theorem ascii_b64url (buf : Bytes) : Js.Ascii (b64url buf) :=
  fun c hc => Js.idClass_lt (by decide) (b64url_class buf c hc)

/-- The bytes of an ASCII text, each as one character. -/
theorem latin1_utf8 {s : JsString} (h : Js.Ascii s) :
    (Js.utf8 s).map (fun b => b.toNat.toUInt16) = s := by
  have hpoint : ∀ c : UInt16, c.toNat < 128 →
      (Js.utf8CodePoint c.toNat).map (fun b => b.toNat.toUInt16) = [c] := by
    intro c hc
    rw [Js.utf8CodePoint, if_pos hc, List.map_singleton]
    simp [Nat.toUInt16, Nat.toUInt8, Nat.mod_eq_of_lt (show c.toNat < 256 by omega)]
  rw [Js.utf8_eq_flatMap h.wellFormed]
  induction s using Js.codePoints.induct with
  | case1 => rfl
  | case2 c => simpa [Js.codePoints] using hpoint c (h c List.mem_cons_self)
  | case3 c d rest hpair ih =>
      rw [Bool.and_eq_true, Js.isHighSurrogate_iff] at hpair
      have hc := h c List.mem_cons_self
      omega
  | case4 c d rest hpair ih =>
      rw [Js.codePoints, if_neg hpair, List.flatMap_cons, List.map_append,
        hpoint c (h c List.mem_cons_self), ih fun e he => h e (List.mem_cons_of_mem _ he)]
      rfl

end Wire
