import BpcProtocol.Durable.Sealing
import BpcProtocol.Js.Ascii
import Mathlib.Tactic.GCongr
import Mathlib.Tactic.Ring

set_option autoImplicit false

/-! # The canonical text of a pair

The records of pairs stay far below the bounds of canonical form: whether a pair can be written
depends on nothing but the code units of its name. -/

namespace Durable

open Ha Fallible
open Pair (present presentFields mem_presentFields b64url256)

/-! ## Lengths of texts -/

theorem length_unicodeEscape (c : UInt16) : (Js.unicodeEscape c).length = 6 := by
  simp [Js.unicodeEscape]

theorem length_escapeUnit_le (c : UInt16) : (Js.escapeUnit c).length ≤ 6 := by
  unfold Js.escapeUnit
  split_ifs
  all_goals simp [length_unicodeEscape]

theorem length_escapeLone_le (c : UInt16) : (Js.escapeLone c).length ≤ 6 := by
  unfold Js.escapeLone
  split
  · exact (length_unicodeEscape c).le
  · exact length_escapeUnit_le c

theorem length_escapeText_le (s : JsString) : (Js.escapeText s).length ≤ 6 * s.length := by
  induction s using Js.escapeText.induct with
  | case1 => simp [Js.escapeText]
  | case2 c => simpa [Js.escapeText] using length_escapeLone_le c
  | case3 c d rest hpair ih =>
      rw [Js.escapeText, if_pos hpair]
      simp only [List.length_cons]
      omega
  | case4 c d rest hpair ih =>
      have hc := length_escapeLone_le c
      rw [Js.escapeText, if_neg hpair, List.length_append]
      simp only [List.length_cons] at ih ⊢
      omega

theorem length_quote_le (s : JsString) : (Js.quote s).length ≤ 6 * s.length + 2 := by
  have hs := length_escapeText_le s
  simp only [Js.quote, List.length_cons, List.length_append, List.length_nil]
  omega

theorem length_commas_le (ts : List JsString) :
    (Js.commas ts).length ≤ (ts.map fun t => t.length + 1).sum := by
  induction ts with
  | nil => exact Nat.le_refl _
  | cons t rest ih =>
      cases rest with
      | nil => simp [Js.commas]
      | cons u rest =>
          simp only [Js.commas, List.length_append, List.length_cons, List.map_cons,
            List.sum_cons] at ih ⊢
          omega

/-- The text of an object is bounded by its members, in whatever order they are written. -/
theorem length_canonText_object {fields : List (JsString × JsValue)} {m n : ℕ}
    (htext : ∀ f ∈ fields, HasText f.2) (hkeys : ∀ f ∈ fields, f.1.length ≤ m)
    (hvalues : ∀ f ∈ fields, (canonText f.2).length ≤ n) :
    (canonText (.object fields)).length ≤ 2 + fields.length * (6 * m + n + 4) := by
  have hmember : ∀ t ∈ (fields.insertionSort keyLe).map canonMemberText,
      t.length + 1 ≤ 6 * m + n + 4 := by
    intro t ht
    obtain ⟨f, hf, rfl⟩ := List.mem_map.mp ht
    have hmem := (List.mem_insertionSort keyLe).mp hf
    have hquote := length_quote_le f.1
    have hkey := hkeys f hmem
    have hvalue := hvalues f hmem
    simp only [canonMemberText, Js.memberText, List.length_append, List.length_cons]
    omega
  have hcommas := length_commas_le ((fields.insertionSort keyLe).map canonMemberText)
  have hsum := List.sum_le_card_nsmul
    (((fields.insertionSort keyLe).map canonMemberText).map fun t => t.length + 1)
    (6 * m + n + 4) (by
      intro k hk
      obtain ⟨t, ht, rfl⟩ := List.mem_map.mp hk
      exact hmember t ht)
  rw [List.length_map, List.length_map, List.length_insertionSort, Nat.nsmul_eq_mul] at hsum
  rw [(text_object htext).2]
  simp only [List.cons_append, List.length_cons, List.length_append, List.length_nil]
  omega

/-! ## Members of a pair -/

/-- A value that is a small part of a record. -/
structure Slight (v : JsValue) : Prop where
  ijson : IJson v
  depth : depth v ≤ 1
  nodes : nodeCount v ≤ 5
  length : (canonText v).length ≤ 2500

theorem canonText_string (s : JsString) : canonText (.string s) = Js.quote s :=
  rfl

theorem jcsString_of_short {s : JsString} (hs : Js.WellFormed s) (hlength : s.length ≤ 360) :
    JcsString s := by
  have hbytes := Js.length_utf8_le s
  refine ⟨hs, ?_⟩
  rw [canonMaxStringBytes]
  omega

theorem slight_string {s : JsString} (hs : Js.WellFormed s) (hlength : s.length ≤ 360) :
    Slight (.string s) where
  ijson := .string (jcsString_of_short hs hlength)
  depth := Nat.zero_le _
  nodes := by simp [nodeCount]
  length := by
    have hquote := length_quote_le s
    rw [canonText_string]
    omega

theorem slight_ascii {s : JsString} (hs : Js.Ascii s) (hlength : s.length ≤ 360) :
    Slight (.string s) :=
  slight_string hs.wellFormed hlength

theorem slight_null : Slight .null where
  ijson := .null
  depth := Nat.zero_le _
  nodes := by simp [nodeCount]
  length := by decide

theorem isSafeInteger_nat (n : SafeNat) : Js.isSafeInteger (n.1 : ℤ) = true := by
  have hn := n.2
  rw [Js.isSafeInteger, Bool.and_eq_true, decide_eq_true_iff, decide_eq_true_iff,
    Js.maxSafeInteger]
  omega

theorem slight_nat (n : SafeNat) : Slight n.toJs where
  ijson := .number (isSafeInteger_nat n)
  depth := Nat.zero_le _
  nodes := by simp [SafeNat.toJs, nodeCount]
  length := by
    have hdigits : (Js.natDigits n.1).length ≤ 16 := by
      rw [Js.natDigits_length_le (by decide)]
      exact Nat.lt_of_le_of_lt n.2 (by decide)
    have htext : canonText n.toJs = Js.natDigits n.1 := by
      rw [← Js.decimal_natCast, ← Js.numberText_int (isSafeInteger_nat n)]
      rfl
    rw [htext]
    omega

theorem slight_nullable (o : Option SafeNat) : Slight (nullableNat o) := by
  cases o with
  | none => exact slight_null
  | some n => exact slight_nat n

/-! ## Records -/

/-- A name of a member. -/
def ShortName (name : String) : Prop :=
  Js.Ascii (Js.lit name) ∧ (Js.lit name).length ≤ 20 ∧ Js.lit name ≠ Js.lit "__proto__"

section Record

variable {spec : List (String × Option JsValue)} (hnames : ∀ f ∈ spec, ShortName f.1)
  (h : EachMember Slight spec)

include hnames h

theorem slight_presentFields :
    ∀ f ∈ presentFields spec,
      (JcsString f.1 ∧ f.1.length ≤ 20 ∧ f.1 ≠ Js.lit "__proto__") ∧ Slight f.2 := by
  intro f hf
  obtain ⟨name, v, hmem, rfl⟩ := mem_presentFields.mp hf
  obtain ⟨hascii, hlength, hproto⟩ := hnames _ hmem
  exact ⟨⟨jcsString_of_short hascii.wellFormed (hlength.trans (by decide)), hlength, hproto⟩,
    h name v hmem⟩

theorem ijson_present : IJson (present spec) :=
  .object (fun f hf => (slight_presentFields hnames h f hf).1.2.2)
    (fun f hf => (slight_presentFields hnames h f hf).1.1)
    fun f hf => (slight_presentFields hnames h f hf).2.ijson

theorem length_canonText_present {n : ℕ}
    (hvalues : ∀ name v, (name, some v) ∈ spec → (canonText v).length ≤ n) :
    (canonText (present spec)).length ≤ 2 + spec.length * (n + 124) := by
  have hfields : (presentFields spec).length ≤ spec.length := List.length_filterMap_le _ _
  have hfieldValues : ∀ f ∈ presentFields spec, (canonText f.2).length ≤ n := by
    intro f hf
    obtain ⟨name, v, hmem, rfl⟩ := mem_presentFields.mp hf
    exact hvalues name v hmem
  have hobject := length_canonText_object
    (fun f hf => (slight_presentFields hnames h f hf).2.ijson.hasText)
    (fun f hf => (slight_presentFields hnames h f hf).1.2.1) hfieldValues
  calc (canonText (present spec)).length
      ≤ 2 + (presentFields spec).length * (6 * 20 + n + 4) := hobject
    _ = 2 + (presentFields spec).length * (n + 124) := by ring_nf
    _ ≤ 2 + spec.length * (n + 124) := by gcongr

/-- A record of some small members has a canonical form. -/
theorem canonicalizable_present (hlength : spec.length ≤ 20) : Canonicalizable (present spec) where
  ijson := ijson_present hnames h
  depth := by
    have hdepth : depthFields (presentFields spec) ≤ 2 := by
      rw [depthFields_le]
      intro f hf
      have := (slight_presentFields hnames h f hf).2.depth
      omega
    exact hdepth.trans (by decide)
  nodes := by
    have hfields : (presentFields spec).length ≤ spec.length := List.length_filterMap_le _ _
    have hsum := List.sum_le_card_nsmul ((presentFields spec).map fun f => nodeCount f.2) 5 (by
      intro k hk
      obtain ⟨f, hf, rfl⟩ := List.mem_map.mp hk
      exact (slight_presentFields hnames h f hf).2.nodes)
    rw [List.length_map, Nat.nsmul_eq_mul, ← nodeCountFields_eq] at hsum
    show 1 + nodeCountFields (presentFields spec) ≤ canonMaxNodes
    rw [canonMaxNodes]
    omega
  bytes := by
    have htext := length_canonText_present hnames h (n := 2500) fun name v hmem => (h name v hmem).length
    have hbytes := Js.length_utf8_le (canonText (present spec))
    have hbound : spec.length * (2500 + 124) ≤ 20 * (2500 + 124) := Nat.mul_le_mul_right _ hlength
    rw [canonMaxTotalBytes]
    omega

end Record

theorem slight_b64url256 {s : JsString} (h : b64url256 s = true) :
    Slight (.string s) ∧ (canonText (.string s)).length ≤ 260 := by
  have hlength := length_b64url256 h
  simp only [b64url256, Bool.and_eq_true] at h
  have hmarks : Js.Ascii (Js.lit "AEIMQUYcgkosw048") := by decide
  have hhead := (ascii_classPattern (fun d => Js.idClass_lt (by decide)) h.1).1
  have htail := (ascii_classPattern (fun d hd => hmarks d (by simpa [Js.oneOf] using hd)) h.2).1
  have hascii : Js.Ascii s := by
    rw [← List.take_append_drop 42 s]
    exact Js.ascii_append hhead htail
  have hquote := length_quote_le s
  refine ⟨slight_ascii hascii (by omega), ?_⟩
  rw [canonText_string]
  omega

theorem slight_jwk (jwk : CanonicalPublicJwk) : Slight jwk.toJs := by
  obtain ⟨hx, hxlength⟩ := slight_b64url256 jwk.2.1
  obtain ⟨hy, hylength⟩ := slight_b64url256 jwk.2.2
  have hmembers : EachMember Slight jwk.members :=
    .value (slight_ascii (by decide) (by decide)) (.value (slight_ascii (by decide) (by decide))
      (.value hx (.value hy .nil)))
  have hnames : ∀ f ∈ jwk.members, ShortName f.1 := by
    have hall : ∀ name ∈ ["kty", "crv", "x", "y"], ShortName name := by
      unfold ShortName
      decide
    exact fun f hf => hall f.1 (List.mem_map_of_mem (f := Prod.fst) hf)
  refine ⟨ijson_present hnames hmembers, ?_, ?_, ?_⟩
  · have hflat : EachMember (fun v => depth v < 1) jwk.members :=
      .value Nat.one_pos (.value Nat.one_pos (.value Nat.one_pos (.value Nat.one_pos .nil)))
    show depthFields (presentFields jwk.members) ≤ 1
    rw [depthFields_le]
    intro f hf
    obtain ⟨name, v, hmem, rfl⟩ := mem_presentFields.mp hf
    exact hflat name v hmem
  · exact Nat.le_refl 5
  · have hlength := length_canonText_present hnames hmembers (n := 260) (by
      have hshort : EachMember (fun v => (canonText v).length ≤ 260) jwk.members :=
        .value (by decide) (.value (by decide) (.value hxlength (.value hylength .nil)))
      exact hshort)
    exact hlength.trans (show 2 + 4 * (260 + 124) ≤ 2500 by decide)

/-! ## Pairs -/

/-- A failure score that is written briefly. -/
def CanonicalStoredPair.Brief (p : CanonicalStoredPair) : Prop :=
  ∀ text, p.cumulativeFailures = some text → Js.Ascii text ∧ text.length ≤ 360

theorem slight_members {p : CanonicalStoredPair} (hname : Js.WellFormed p.name.1) (hscore : p.Brief) :
    EachMember Slight p.members := by
  have hid := ascii_classPattern (fun d => Js.idClass_lt (by decide)) p.id.2
  have hscope : ∀ a : PairScope, Slight (.string a.text) :=
    fun a => slight_ascii (by cases a <;> decide) (by cases a <;> decide)
  have hmode : ∀ a : PairMode, Slight (.string a.text) :=
    fun a => slight_ascii (by cases a <;> decide) (by cases a <;> decide)
  have hkind : ∀ a : Pair.PairKind, Slight (.string a.text) :=
    fun a => slight_ascii (by cases a <;> decide) (by cases a <;> decide)
  have hcanary : ∀ a : Pair.CanaryClass, Slight (.string a.text) :=
    fun a => slight_ascii (by cases a <;> decide) (by cases a <;> decide)
  have hstatus : ∀ a : Pair.PairStatus, Slight (.string a.text) :=
    fun a => slight_ascii (by cases a <;> decide) (by cases a <;> decide)
  have hregistration : EachMember Slight p.toCanonicalPairRegistration.members :=
    .value (slight_string hname (by have := p.name.2.2; omega)) (.value (hscope _)
      (.value (hmode _) (.value (slight_b64url256 p.secretHash.2).1 (.value (slight_jwk _)
        (.value (hkind _) (.optional (fun n _ => slight_nat n) (.optional (fun n _ => slight_nat n)
          (.optional (fun c _ => hcanary c) .nil))))))))
  refine hregistration.append (.value (slight_ascii hid.1 (by omega)) (.value (hstatus _)
    (.value (slight_nat _) (.value (slight_nullable _) (.value (slight_nat _) (.value (slight_nat _)
      (.optional (fun text htext => ?_) (.optional (fun o _ => slight_nullable o) .nil))))))))
  obtain ⟨hascii, hlength⟩ := hscore text htext
  exact slight_ascii hascii hlength

theorem shortName_members (p : CanonicalStoredPair) : ∀ f ∈ p.members, ShortName f.1 := by
  have hall : ∀ name ∈ ["name", "scope", "mode", "secretHash", "pubJwk", "kind", "expiresAt",
      "maxRequests", "canaryClass", "id", "status", "created", "lastActive", "requests",
      "failedSigs", "cumulativeFailures", "firstFailureAt"], ShortName name := by
    unfold ShortName
    decide
  exact fun f hf => hall f.1 (List.mem_map_of_mem (f := Prod.fst) hf)

/-- **A pair has a canonical form** exactly if its name has no lone surrogate. -/
theorem canonicalizable_pair {p : CanonicalStoredPair} (hscore : p.Brief) :
    Canonicalizable p.toJs ↔ Js.WellFormed p.name.1 := by
  constructor
  · intro h
    have hijson := h.ijson
    cases hijson with
    | object _ _ hvalues =>
        have hname := hvalues (Js.lit "name", .string p.name.1) (mem_presentFields.mpr
          ⟨"name", .string p.name.1, List.mem_cons_self, rfl⟩)
        cases hname with
        | string hs => exact hs.1
  · intro hname
    exact canonicalizable_present (shortName_members p) (slight_members hname hscore)
      (show 17 ≤ 20 by decide)

end Durable
