import BpcProtocol.Js.NumberRoundTrip

set_option autoImplicit false

/-! # What JSON keeps of a value

`JSON.parse(JSON.stringify(v))` for any value: what has no text is dropped from objects and is `null`
in arrays, numbers that are not finite are `null`, and everything else comes back. -/

namespace Js

mutual

/-- What comes back of a value, `none` where it has no text. -/
def image : JsValue → Option JsValue
  | .undefined => none
  | .null => some .null
  | .bool b => some (.bool b)
  | .number n => some (if n.isFinite then .number n else .null)
  | .string s => some (.string s)
  | .array items => some (.array (imageItems items))
  | .object fields => some (.object (imageFields fields))
  | .other => none

def imageItems : List JsValue → List JsValue
  | [] => []
  | v :: rest => (image v).getD .null :: imageItems rest

def imageFields : List (JsString × JsValue) → List (JsString × JsValue)
  | [] => []
  | (k, v) :: rest => ((image v).map fun w => (k, w)).toList ++ imageFields rest

end

/-- A value that the language can hold: its numbers are doubles, and the keys of its objects are
    distinct. -/
inductive Genuine : JsValue → Prop
  | undefined : Genuine .undefined
  | null : Genuine .null
  | bool (b : Bool) : Genuine (.bool b)
  | number {n : JsNumber} : (∀ q, n = .fin q → IsDouble q) → Genuine (.number n)
  | string (s : JsString) : Genuine (.string s)
  | array {items : List JsValue} : (∀ v ∈ items, Genuine v) → Genuine (.array items)
  | object {fields : List (JsString × JsValue)} : (fields.map Prod.fst).Nodup →
      (∀ f ∈ fields, Genuine f.2) → Genuine (.object fields)
  | other : Genuine .other

instance (q : ℚ) : Decidable (IsDouble q) :=
  inferInstanceAs (Decidable (ofRat q = .fin q))

mutual

/-- Whether a value is genuine. -/
def isGenuine : JsValue → Bool
  | .number n => isGenuineNumber n
  | .array items => itemsAreGenuine items
  | .object fields => decide (fields.map Prod.fst).Nodup && fieldsAreGenuine fields
  | _ => true

def itemsAreGenuine : List JsValue → Bool
  | [] => true
  | v :: rest => isGenuine v && itemsAreGenuine rest

def fieldsAreGenuine : List (JsString × JsValue) → Bool
  | [] => true
  | (_, v) :: rest => isGenuine v && fieldsAreGenuine rest

def isGenuineNumber : JsNumber → Bool
  | .fin q => decide (IsDouble q)
  | _ => true

end

mutual

theorem Genuine.of_check : ∀ {v : JsValue}, isGenuine v = true → Genuine v
  | .undefined, _ => .undefined
  | .null, _ => .null
  | .bool b, _ => .bool b
  | .number n, h => by
      refine .number fun q hq => ?_
      subst hq
      rw [isGenuine, isGenuineNumber] at h
      exact of_decide_eq_true h
  | .string s, _ => .string s
  | .array items, h => .array (Genuine.items_of_check (by rwa [isGenuine] at h))
  | .object fields, h => by
      rw [isGenuine, Bool.and_eq_true] at h
      exact .object (of_decide_eq_true h.1) (Genuine.fields_of_check h.2)
  | .other, _ => .other

theorem Genuine.items_of_check : ∀ {items : List JsValue}, itemsAreGenuine items = true →
    ∀ v ∈ items, Genuine v
  | [], _ => by simp
  | v :: rest, h => by
      rw [itemsAreGenuine, Bool.and_eq_true] at h
      intro w hw
      rcases List.mem_cons.mp hw with heq | hw
      · rw [heq]
        exact Genuine.of_check h.1
      · exact Genuine.items_of_check h.2 w hw

theorem Genuine.fields_of_check : ∀ {fields : List (JsString × JsValue)},
    fieldsAreGenuine fields = true → ∀ f ∈ fields, Genuine f.2
  | [], _ => by simp
  | (k, v) :: rest, h => by
      rw [fieldsAreGenuine, Bool.and_eq_true] at h
      intro f hf
      rcases List.mem_cons.mp hf with heq | hf
      · rw [heq]
        exact Genuine.of_check h.1
      · exact Genuine.fields_of_check h.2 f hf

end

theorem reads_null : Reads .null (lit "null") := by
  obtain ⟨t, ht, hreads⟩ := Plain.null.reads
  cases ht
  exact hreads

theorem reads_bool (b : Bool) : Reads (.bool b) (if b then lit "true" else lit "false") := by
  obtain ⟨t, ht, hreads⟩ := (Plain.bool b).reads
  cases ht
  exact hreads

/-- The digits of an integer read as the double next to it. -/
theorem reads_decimal (n : ℤ) : Reads (.number (ofRat n)) (decimal n) := by
  refine reads_of_parseNumber (decimal_head n) fun rest hrest => ?_
  rw [parseNumber_decimal n hrest]
  split
  · rfl
  · rw [Int.cast_neg, ofRat_neg]
    cases ofRat n <;> simp [JsNumber.neg]

theorem mem_keys_imageFields {fields : List (JsString × JsValue)} {k : JsString}
    (h : k ∈ (imageFields fields).map Prod.fst) : k ∈ fields.map Prod.fst := by
  induction fields with
  | nil => exact h
  | cons f rest ih =>
      rw [imageFields, List.map_append, List.mem_append] at h
      rcases h with h | h
      · cases hv : image f.2 with
        | none => simp [hv] at h
        | some w =>
            simp only [hv, Option.map_some, Option.toList_some, List.map_cons, List.map_nil,
              List.mem_singleton] at h
            simp [h]
      · exact List.mem_cons_of_mem _ (ih h)

theorem nodup_imageFields {fields : List (JsString × JsValue)}
    (h : (fields.map Prod.fst).Nodup) : ((imageFields fields).map Prod.fst).Nodup := by
  induction fields with
  | nil => exact h
  | cons f rest ih =>
      rw [List.map_cons, List.nodup_cons] at h
      rw [imageFields]
      cases hv : image f.2 with
      | none => simpa using ih h.2
      | some w =>
          simp only [Option.map_some, Option.toList_some, List.singleton_append, List.map_cons,
            List.nodup_cons]
          exact ⟨fun hmem => h.1 (mem_keys_imageFields hmem), ih h.2⟩

theorem reads_items {items : List JsValue}
    (h : ∀ v ∈ items, Option.Rel Reads (image v) (stringify v)) :
    List.Forall₂ Reads (imageItems items) (stringifyItems items) := by
  induction items with
  | nil => exact .nil
  | cons v rest ih =>
      have hv := h v List.mem_cons_self
      rw [imageItems, stringifyItems]
      refine .cons ?_ (ih fun w hw => h w (List.mem_cons_of_mem _ hw))
      generalize image v = w, stringify v = t at hv
      cases hv with
      | none => exact reads_null
      | some hv => exact hv

theorem reads_fields {fields : List (JsString × JsValue)}
    (h : ∀ f ∈ fields, Option.Rel Reads (image f.2) (stringify f.2)) :
    List.Forall₂ MemberReads (imageFields fields) (stringifyFields fields) := by
  induction fields with
  | nil => exact .nil
  | cons f rest ih =>
      have hf := h f List.mem_cons_self
      have hrest := ih fun g hg => h g (List.mem_cons_of_mem _ hg)
      rw [imageFields, stringifyFields]
      generalize image f.2 = w, stringify f.2 = t at hf
      cases hf with
      | none => exact hrest
      | some hf => exact .cons ⟨_, rfl, hf⟩ hrest

/-- The text of a value reads as what comes back of it. -/
theorem Genuine.reads {v : JsValue} (h : Genuine v) : Option.Rel Reads (image v) (stringify v) := by
  induction h with
  | undefined => exact .none
  | null => exact .some reads_null
  | bool b => exact .some (reads_bool b)
  | @number n hn =>
      cases n with
      | fin q => exact .some (reads_number (readsBack_double (hn q rfl)))
      | nan => exact .some reads_null
      | posInf => exact .some reads_null
      | negInf => exact .some reads_null
  | string s => exact .some (reads_string s)
  | array _ ih => exact .some (reads_array (reads_items ih))
  | object hnodup _ ih => exact .some (reads_object (nodup_imageFields hnodup) (reads_fields ih))
  | other => exact .none

theorem Reads.parse_json {v : JsValue} {t : JsString} (h : Reads v t) : parseJson t = some v := by
  have hparse := h.parse (t.length + 1) (by omega) [] delimited_nil
  rw [List.append_nil] at hparse
  simp [parseJson, hparse, skipSpace]

/-- **What comes back of a value** is its image. -/
theorem Genuine.parse_stringify {v : JsValue} (h : Genuine v) :
    (stringify v).bind parseJson = image v := by
  have hreads := h.reads
  generalize image v = w, stringify v = t at hreads
  cases hreads with
  | none => rfl
  | some hreads => exact hreads.parse_json

/-! ## Values that come back as they are -/

/-! ## Properties -/

theorem image_object (fields : List (JsString × JsValue)) :
    image (.object fields) = some (.object (imageFields fields)) := by
  rw [image]

theorem get_cons (k key : JsString) (v : JsValue) (rest : List (JsString × JsValue)) :
    (JsValue.object ((k, v) :: rest)).get key = if k = key then v else (JsValue.object rest).get key := by
  by_cases h : k = key
  · subst h
    simp [JsValue.get]
  · rw [if_neg h]
    simp [JsValue.get, h]

theorem get_eq_undefined {fields : List (JsString × JsValue)} {key : JsString}
    (h : key ∉ fields.map Prod.fst) : (JsValue.object fields).get key = .undefined := by
  induction fields with
  | nil => rfl
  | cons f rest ih =>
      rw [List.map_cons, List.mem_cons, not_or] at h
      rw [get_cons, if_neg (Ne.symm h.1), ih h.2]

/-- Where keys are distinct, a property has the value that is written under its key. -/
theorem get_of_mem {fields : List (JsString × JsValue)} (h : (fields.map Prod.fst).Nodup)
    {key : JsString} {v : JsValue} (hmem : (key, v) ∈ fields) :
    (JsValue.object fields).get key = v := by
  induction fields with
  | nil => cases hmem
  | cons f rest ih =>
      rw [List.map_cons, List.nodup_cons] at h
      rw [get_cons]
      rcases List.mem_cons.mp hmem with heq | hrest
      · rw [← heq, if_pos rfl]
      · rw [if_neg, ih h.2 hrest]
        rintro rfl
        exact h.1 (List.mem_map.mpr ⟨_, hrest, rfl⟩)

/-- A property of what comes back is what comes back of the property. -/
theorem get_imageFields {fields : List (JsString × JsValue)} (h : (fields.map Prod.fst).Nodup)
    (key : JsString) :
    (JsValue.object (imageFields fields)).get key =
      (image ((JsValue.object fields).get key)).getD .undefined := by
  induction fields with
  | nil => rfl
  | cons f rest ih =>
      rw [List.map_cons, List.nodup_cons] at h
      rw [imageFields, get_cons]
      by_cases hkey : f.1 = key
      · subst hkey
        rw [if_pos rfl]
        cases hv : image f.2 with
        | none =>
            have hout := get_eq_undefined fun hmem => h.1 (mem_keys_imageFields hmem)
            simpa using hout
        | some w => simp [get_cons]
      · rw [if_neg hkey, ← ih h.2]
        cases hv : image f.2 with
        | none => simp
        | some w => simp [get_cons, hkey]

end Js
