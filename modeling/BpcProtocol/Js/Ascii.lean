import BpcProtocol.Js.JsonRoundTrip
import BpcProtocol.Js.Utf8

set_option autoImplicit false

/-! # ASCII texts

What JSON writes of ASCII is ASCII, and whatever it writes is well formed. -/

namespace Js

theorem hexDigit_ascii {n : ℕ} (h : n < 16) : (hexDigit n).toNat < 128 := by
  have hall : ∀ m < 16, (hexDigit m).toNat < 128 := by decide
  exact hall n h

theorem unicodeEscape_ascii (u : UInt16) : Ascii (unicodeEscape u) := by
  have hu : u.toNat < 65536 := u.toNat_lt
  intro d hd
  simp only [unicodeEscape, List.mem_cons, List.not_mem_nil, or_false] at hd
  rcases hd with rfl | rfl | rfl | rfl | rfl | rfl
  · decide
  · decide
  all_goals exact hexDigit_ascii (by omega)

theorem ascii_append {s t : JsString} (hs : Ascii s) (ht : Ascii t) : Ascii (s ++ t) := by
  intro c hc
  rcases List.mem_append.mp hc with hc | hc
  · exact hs c hc
  · exact ht c hc

theorem ascii_cons {c : UInt16} {s : JsString} (hc : c.toNat < 128) (hs : Ascii s) :
    Ascii (c :: s) :=
  ascii_append (List.forall_mem_singleton.mpr hc) hs

theorem ascii_commas {ts : List JsString} (h : ∀ t ∈ ts, Ascii t) : Ascii (commas ts) := by
  induction ts with
  | nil => simp [commas, Ascii]
  | cons t rest ih =>
      have ht := h t List.mem_cons_self
      have hrest := ih fun u hu => h u (List.mem_cons_of_mem _ hu)
      cases rest with
      | nil => exact ht
      | cons u rest => exact ascii_append ht (ascii_cons (by decide) hrest)

theorem natDigits_ascii (n : ℕ) : Ascii (natDigits n) := by
  intro c hc
  have hdigit := (isDigit_iff c).mp (isDigit_of_mem_natDigits hc)
  omega

theorem decimal_ascii (n : ℤ) : Ascii (decimal n) := by
  rw [decimal_eq]
  split
  · exact natDigits_ascii _
  · exact ascii_cons (by decide) (natDigits_ascii _)

/-- An escaped code unit is ASCII, unless it is a character outside of ASCII. -/
theorem escapeUnit_ascii {c : UInt16} (hc : c.toNat < 128) : Ascii (escapeUnit c) := by
  have hshort : ∀ d : UInt16, d.toNat < 128 → Ascii [92, d] := by
    intro d hd
    exact ascii_cons (by decide) (List.forall_mem_singleton.mpr hd)
  unfold escapeUnit
  split_ifs
  all_goals first
    | exact hshort _ (by decide)
    | exact unicodeEscape_ascii c
    | exact List.forall_mem_singleton.mpr hc

theorem escapeLone_ascii {c : UInt16}
    (hc : c.toNat < 128 ∨ isHighSurrogate c = true ∨ isLowSurrogate c = true) :
    Ascii (escapeLone c) := by
  unfold escapeLone
  split
  · exact unicodeEscape_ascii c
  · next hlone =>
      rw [Bool.or_eq_true] at hlone
      exact escapeUnit_ascii (hc.resolve_right hlone)

/-- A character outside of ASCII that is no surrogate is written as it is. -/
theorem escapeLone_large {c : UInt16}
    (hc : ¬(c.toNat < 128 ∨ isHighSurrogate c = true ∨ isLowSurrogate c = true)) :
    escapeLone c = [c] := by
  rw [not_or] at hc
  obtain ⟨h34, h92, h8, h12, h10, h13, h9, hlow⟩ := not_escaped (not_lt.mp hc.1)
  rw [escapeLone, if_neg (by simpa using hc.2)]
  simp [escapeUnit, h34, h92, h8, h12, h10, h13, h9, hlow]

/-! ## Well-formed texts -/

theorem escapeLone_wellFormed (c : UInt16) : WellFormed (escapeLone c) := by
  by_cases hc : c.toNat < 128 ∨ isHighSurrogate c = true ∨ isLowSurrogate c = true
  · exact (escapeLone_ascii hc).wellFormed
  · rw [escapeLone_large hc]
    rw [not_or, not_or, Bool.not_eq_true, Bool.not_eq_true] at hc
    exact hc.2

/-- JSON writes well-formed text. -/
theorem escapeText_wellFormed (s : JsString) : WellFormed (escapeText s) := by
  induction s using escapeText.induct with
  | case1 => trivial
  | case2 c => exact escapeLone_wellFormed c
  | case3 c d rest hpair ih =>
      rw [escapeText, if_pos hpair]
      rw [Bool.and_eq_true] at hpair
      rw [WellFormed, if_pos hpair.1]
      exact ⟨hpair.2, ih⟩
  | case4 c d rest hpair ih =>
      rw [escapeText, if_neg hpair]
      exact wellFormed_append (escapeLone_wellFormed c) ih

theorem quote_wellFormed (s : JsString) : WellFormed (quote s) := by
  have hquote : Ascii [34] := by decide
  exact wellFormed_append (wellFormed_append hquote.wellFormed (escapeText_wellFormed s))
    hquote.wellFormed

theorem ascii_ite {c : Prop} [Decidable c] {s t : JsString} (hs : Ascii s) (ht : Ascii t) :
    Ascii (if c then s else t) := by
  split
  · exact hs
  · exact ht

theorem layoutDigits_ascii {s : JsString} (hs : Ascii s) (n : ℤ) : Ascii (layoutDigits s n) := by
  have hzeros : ∀ k, Ascii (List.replicate k 48) := by
    intro k c hc
    rw [List.eq_of_mem_replicate hc]
    decide
  have htake : ∀ k, Ascii (s.take k) := fun k c hc => hs c (List.mem_of_mem_take hc)
  have hdrop : ∀ k, Ascii (s.drop k) := fun k c hc => hs c (List.mem_of_mem_drop hc)
  have hpoint : Ascii (lit ".") := by decide
  have hzeropoint : Ascii (lit "0.") := by decide
  have hexponent : Ascii ((if 0 < n then lit "e+" else lit "e-") ++ natDigits (n - 1).natAbs) :=
    ascii_append (ascii_ite (by decide) (by decide)) (natDigits_ascii _)
  exact ascii_ite (ascii_append hs (hzeros _))
    (ascii_ite (ascii_append (ascii_append (htake _) hpoint) (hdrop _))
      (ascii_ite (ascii_append (ascii_append hzeropoint (hzeros _)) hs)
        (ascii_ite (ascii_append hs hexponent)
          (ascii_append (ascii_append (ascii_append (htake _) hpoint) (hdrop _)) hexponent))))

theorem shortestDigits_ascii (x : ℚ) : Ascii (shortestDigits x).1 := by
  unfold shortestDigits
  dsimp only
  split
  · next s e hhead =>
      have hmem := (List.mem_filter.mp (List.mem_of_head? hhead)).1
      obtain ⟨k, -, hk⟩ := List.mem_flatMap.mp hmem
      obtain ⟨c, -, hc⟩ := List.mem_map.mp hk
      rw [← (Prod.mk.inj hc).1]
      exact natDigits_ascii c
  · intro c hc
    cases hc

theorem numberText_ascii (n : JsNumber) : Ascii (numberText n) := by
  have htext : ∀ q, Ascii (numberText.text q) := by
    intro q
    have hlayout := layoutDigits_ascii (shortestDigits_ascii |q|) (shortestDigits |q|).2
    unfold numberText.text
    dsimp only
    split
    · exact ascii_append (by decide) hlayout
    · exact hlayout
  unfold numberText
  split
  · decide
  · decide
  · decide
  · split
    · split
      · exact decimal_ascii _
      · exact htext _
    · exact htext _

theorem commas_wellFormed {ts : List JsString} (h : ∀ t ∈ ts, WellFormed t) :
    WellFormed (commas ts) := by
  have hcomma : Ascii [44] := by decide
  induction ts with
  | nil => trivial
  | cons t rest ih =>
      have ht := h t List.mem_cons_self
      have hrest := ih fun u hu => h u (List.mem_cons_of_mem _ hu)
      cases rest with
      | nil => exact ht
      | cons u rest => exact wellFormed_append ht (wellFormed_append hcomma.wellFormed hrest)

/-- The text of an array or an object, between its brackets. -/
theorem bracketed_wellFormed {a b : UInt16} {ts : List JsString} (ha : a.toNat < 128)
    (hb : b.toNat < 128) (h : ∀ t ∈ ts, WellFormed t) : WellFormed (a :: commas ts ++ [b]) := by
  have hopen : Ascii [a] := List.forall_mem_singleton.mpr ha
  have hclose : Ascii [b] := List.forall_mem_singleton.mpr hb
  exact wellFormed_append (wellFormed_append hopen.wellFormed (commas_wellFormed h))
    hclose.wellFormed

mutual

/-- Whatever `JSON.stringify` writes is well formed. -/
theorem stringify_wellFormed : ∀ {v : JsValue} {t : JsString}, stringify v = some t → WellFormed t
  | .undefined, t, h => nomatch h
  | .other, t, h => nomatch h
  | .null, t, h => Option.some.inj h ▸ Ascii.wellFormed (by decide)
  | .bool b, t, h => by
      rw [← Option.some.inj h]
      cases b with
      | false => exact Ascii.wellFormed (by decide)
      | true => exact Ascii.wellFormed (by decide)
  | .number n, t, h => by
      rw [← Option.some.inj h]
      split
      · exact (numberText_ascii n).wellFormed
      · exact Ascii.wellFormed (by decide)
  | .string s, t, h => Option.some.inj h ▸ quote_wellFormed s
  | .array items, t, h => by
      rw [← Option.some.inj h]
      exact bracketed_wellFormed (by decide) (by decide) stringifyItems_wellFormed
  | .object fields, t, h => by
      rw [← Option.some.inj h]
      exact bracketed_wellFormed (by decide) (by decide) stringifyFields_wellFormed

theorem stringifyItems_wellFormed : ∀ {items : List JsValue}, ∀ t ∈ stringifyItems items, WellFormed t
  | [], t, h => nomatch h
  | v :: rest, t, h => by
      rw [stringifyItems, List.mem_cons] at h
      rcases h with rfl | h
      · cases hv : stringify v with
        | none => exact Ascii.wellFormed (by decide)
        | some t => exact stringify_wellFormed hv
      · exact stringifyItems_wellFormed t h

theorem stringifyFields_wellFormed : ∀ {fields : List (JsString × JsValue)},
    ∀ t ∈ stringifyFields fields, WellFormed t
  | [], t, h => nomatch h
  | (k, v) :: rest, t, h => by
      rw [stringifyFields] at h
      cases hv : stringify v with
      | none =>
          rw [hv] at h
          exact stringifyFields_wellFormed t h
      | some u =>
          rw [hv, List.mem_cons] at h
          rcases h with rfl | h
          · have hcolon : Ascii [58] := by decide
            exact wellFormed_append (quote_wellFormed k)
              (wellFormed_append hcolon.wellFormed (stringify_wellFormed hv))
          · exact stringifyFields_wellFormed t h

end

end Js
