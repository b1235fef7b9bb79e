import BpcProtocol.Js.JsonImage
import BpcProtocol.Pair.Types

set_option autoImplicit false

/-! # Written records

What is read of the objects that `present` writes, and what comes back of them through JSON. -/

namespace Pair

/-- The fields that `present` writes. -/
def presentFields (spec : List (String × Option JsValue)) : List (JsString × JsValue) :=
  spec.filterMap fun f => f.2.map fun v => (Js.lit f.1, v)

theorem present_eq (spec : List (String × Option JsValue)) :
    present spec = .object (presentFields spec) :=
  rfl

theorem mem_presentFields {spec : List (String × Option JsValue)} {f : JsString × JsValue} :
    f ∈ presentFields spec ↔ ∃ name v, (name, some v) ∈ spec ∧ f = (Js.lit name, v) := by
  simp only [presentFields, List.mem_filterMap, Option.map_eq_some_iff]
  constructor
  · rintro ⟨⟨name, o⟩, hmem, v, rfl, rfl⟩
    exact ⟨name, v, hmem, rfl⟩
  · rintro ⟨name, v, hmem, rfl⟩
    exact ⟨_, hmem, v, rfl, rfl⟩

theorem keys_presentFields_sublist (spec : List (String × Option JsValue)) :
    ((presentFields spec).map Prod.fst).Sublist (spec.map fun f => Js.lit f.1) := by
  induction spec with
  | nil => exact List.Sublist.slnil
  | cons f rest ih =>
      obtain ⟨name, o⟩ := f
      cases o with
      | none => exact ih.cons _
      | some v => exact ih.cons_cons _

/-- What is read of written fields: the value under a name, or `undefined` where it has none. -/
theorem get_presentFields {spec : List (String × Option JsValue)}
    (h : (spec.map fun f => Js.lit f.1).Nodup) {name : String} {o : Option JsValue}
    (hmem : (name, o) ∈ spec) :
    (JsValue.object (presentFields spec)).get (Js.lit name) = o.getD .undefined := by
  have hkeys := h.sublist (keys_presentFields_sublist spec)
  cases o with
  | some v => exact Js.get_of_mem hkeys (mem_presentFields.mpr ⟨name, v, hmem, rfl⟩)
  | none =>
      refine Js.get_eq_undefined fun hkey => ?_
      obtain ⟨f, hf, hfkey⟩ := List.mem_map.mp hkey
      obtain ⟨other, v, hother, rfl⟩ := mem_presentFields.mp hf
      -- names are distinct, so the name has the value `v` and has none
      have heq := List.inj_on_of_nodup_map h hother hmem hfkey
      cases heq

theorem imageFields_presentFields (spec : List (String × Option JsValue)) :
    Js.imageFields (presentFields spec) =
      presentFields (spec.map fun f => (f.1, f.2.bind Js.image)) := by
  induction spec with
  | nil => rfl
  | cons f rest ih =>
      obtain ⟨name, o⟩ := f
      cases o with
      | none => exact ih
      | some v =>
          show Js.imageFields ((Js.lit name, v) :: presentFields rest) = _
          rw [Js.imageFields, ih]
          cases hv : Js.image v with
          | none => simp [presentFields, hv]
          | some w => simp [presentFields, hv]

/-- What comes back of a written object is written from what comes back of its values. -/
theorem image_present (spec : List (String × Option JsValue)) :
    Js.image (present spec) = some (present (spec.map fun f => (f.1, f.2.bind Js.image))) := by
  rw [present_eq, Js.image_object, imageFields_presentFields, present_eq]

/-- What is read of an object that came back: what comes back of the value under a name. -/
theorem get_image_present {spec : List (String × Option JsValue)} {v : JsValue}
    (hv : Js.image (present spec) = some v) (h : (spec.map fun f => Js.lit f.1).Nodup)
    {name : String} {o : Option JsValue} (hmem : (name, o) ∈ spec) :
    v.get (Js.lit name) = (o.bind Js.image).getD .undefined := by
  rw [image_present, Option.some.injEq] at hv
  subst hv
  refine get_presentFields ?_ (List.mem_map.mpr ⟨(name, o), hmem, rfl⟩)
  rw [List.map_map]
  exact h

/-! ## Pairs and registrations -/

/-- The names of a pair's fields, as they are written. -/
def pairNames : List String :=
  ["id", "name", "scope", "mode", "secretHash", "pubJwk", "expiresAt", "maxRequests", "status",
    "created", "lastActive", "requests", "failedSigs", "cumulativeFailures", "firstFailureAt", "kind",
    "canaryClass"]

theorem nodup_pairNames : (pairNames.map Js.lit).Nodup := by decide

end Pair
