import BpcProtocol.Js.Data
import BpcProtocol.Js.JsonImage
import BpcProtocol.Js.PropertyOrder
import BpcProtocol.Js.Rounding

set_option autoImplicit false

/-! # What JSON parses to

The values that `JSON.parse` builds, and when two of them are structurally equal: their texts agree
once the own properties of every object are put in one order. -/

namespace Js

/-- A value of `JSON.parse`. -/
inductive Json : JsValue → Prop
  | null : Json .null
  | bool (b : Bool) : Json (.bool b)
  | number {n : JsNumber} : n ≠ .nan → (∀ q, n = .fin q → IsDouble q) → Json (.number n)
  | string (s : JsString) : Json (.string s)
  | array {items : List JsValue} : (∀ v ∈ items, Json v) → Json (.array items)
  | object {fields : List (JsString × JsValue)} : (fields.map Prod.fst).Nodup →
      (∀ f ∈ fields, Json f.2) → Json (.object fields)

theorem Json.genuine {v : JsValue} (h : Json v) : Genuine v := by
  induction h with
  | null => exact .null
  | bool b => exact .bool b
  | number _ hdouble => exact .number hdouble
  | string s => exact .string s
  | array _ ih => exact .array ih
  | object hnodup _ ih => exact .object hnodup ih

theorem Json.distinctKeys {v : JsValue} (h : Json v) : v.DistinctKeys := by
  induction h with
  | null => exact .null
  | bool b => exact .bool b
  | number _ _ => exact .number _
  | string s => exact .string s
  | array _ ih => exact .array ih
  | object hnodup _ ih => exact .object hnodup ih

/-! ## Parsing -/

theorem json_parseNumber {s rest : JsString} {n : JsNumber} (h : parseNumber s = some (n, rest)) :
    Json (.number n) := by
  have hround : ∀ q, Json (.number (ofRat q)) := fun q =>
    .number (JsNumber.ofRat_ne_nan q) fun _ hr => isDouble_of_ofRat hr
  rw [parseNumber.eq_def] at h
  split at h
  · obtain ⟨⟨q, tail⟩, -, heq⟩ := Option.bind_eq_some_iff.mp h
    obtain ⟨rfl, rfl⟩ := Prod.mk.inj (Option.some.inj heq)
    rw [← ofRat_neg]
    exact hround (-q)
  · obtain ⟨⟨q, tail⟩, -, heq⟩ := Option.bind_eq_some_iff.mp h
    obtain ⟨rfl, rfl⟩ := Prod.mk.inj (Option.some.inj heq)
    exact hround q

theorem json_parseConstant {word : String} {v w : JsValue} {s rest : JsString}
    (h : parseConstant word v s = some (w, rest)) : w = v := by
  unfold parseConstant at h
  split_ifs at h
  exact (Prod.mk.inj (Option.some.inj h)).1.symm

theorem keys_setField {fields : List (JsString × JsValue)} (h : (fields.map Prod.fst).Nodup)
    (k : JsString) (v : JsValue) : ((setField fields k v).map Prod.fst).Nodup := by
  unfold setField
  split
  · have hkeys : (fields.map fun f => if f.1 == k then (k, v) else f).map Prod.fst =
        fields.map Prod.fst := by
      rw [List.map_map]
      refine List.map_congr_left fun f _ => ?_
      rw [Function.comp_apply]
      split
      · next hk => exact (eq_of_beq hk).symm
      · rfl
    rw [hkeys]
    exact h
  · next hk =>
      rw [List.map_append, List.nodup_append]
      refine ⟨h, List.nodup_singleton k, fun j hj i hi heq => hk ?_⟩
      obtain ⟨f, hf, rfl⟩ := List.mem_map.mp hj
      obtain rfl := List.mem_singleton.mp hi
      exact List.any_eq_true.mpr ⟨f, hf, by simpa using heq⟩

theorem mem_setField {fields : List (JsString × JsValue)} {k : JsString} {v : JsValue}
    {f : JsString × JsValue} (h : f ∈ setField fields k v) : f ∈ fields ∨ f = (k, v) := by
  unfold setField at h
  split at h
  · obtain ⟨g, hg, rfl⟩ := List.mem_map.mp h
    split
    · exact .inr rfl
    · exact .inl hg
  · simpa using h

theorem json_ofMembers {members : List (JsString × JsValue)} (h : ∀ m ∈ members, Json m.2) :
    Json (ofMembers members) := by
  -- member by member, the properties set so far are distinct and parsed
  have hfold : ∀ (rest fields : List (JsString × JsValue)), (∀ m ∈ rest, Json m.2) →
      (fields.map Prod.fst).Nodup → (∀ f ∈ fields, Json f.2) →
      Json (.object (rest.foldl (fun fields m => setField fields m.1 m.2) fields)) := by
    intro rest
    induction rest with
    | nil => exact fun fields _ hnodup hfields => .object hnodup hfields
    | cons m rest ih =>
        intro fields hrest hnodup hfields
        rw [List.forall_mem_cons] at hrest
        refine ih _ hrest.2 (keys_setField hnodup m.1 m.2) fun f hf => ?_
        rcases mem_setField hf with hf | rfl
        · exact hfields f hf
        · exact hrest.1
  exact hfold members [] h List.nodup_nil (by simp)

theorem json_parse (fuel : ℕ) :
    (∀ s v rest, parseValue fuel s = some (v, rest) → Json v) ∧
    (∀ s items rest, parseItems fuel s = some (items, rest) → ∀ v ∈ items, Json v) ∧
    ∀ s members rest, parseMembers fuel s = some (members, rest) → ∀ m ∈ members, Json m.2 := by
  induction fuel with
  | zero =>
      refine ⟨fun s v rest h => ?_, fun s items rest h => ?_, fun s members rest h => ?_⟩
      · cases h
      · cases h
      · cases h
  | succ fuel ih =>
      obtain ⟨ihvalue, ihitems, ihmembers⟩ := ih
      refine ⟨fun s v rest h => ?_, fun s items rest h => ?_, fun s members rest h => ?_⟩
      · rw [parseValue] at h
        split at h
        · cases h
        · split at h
          · cases h
            exact .object List.nodup_nil (by simp)
          · obtain ⟨⟨members, tail⟩, hmembers, heq⟩ := Option.map_eq_some_iff.mp h
            obtain ⟨rfl, rfl⟩ := Prod.mk.inj heq
            exact json_ofMembers (ihmembers _ _ _ hmembers)
        · split at h
          · cases h
            exact .array (by simp)
          · obtain ⟨⟨items, tail⟩, hitems, heq⟩ := Option.map_eq_some_iff.mp h
            obtain ⟨rfl, rfl⟩ := Prod.mk.inj heq
            exact .array (ihitems _ _ _ hitems)
        · obtain ⟨⟨text, tail⟩, -, heq⟩ := Option.map_eq_some_iff.mp h
          obtain ⟨rfl, rfl⟩ := Prod.mk.inj heq
          exact .string text
        · rw [json_parseConstant h]
          exact .null
        · rw [json_parseConstant h]
          exact .bool true
        · rw [json_parseConstant h]
          exact .bool false
        · obtain ⟨⟨n, tail⟩, hnumber, heq⟩ := Option.map_eq_some_iff.mp h
          obtain ⟨rfl, rfl⟩ := Prod.mk.inj heq
          exact json_parseNumber hnumber
      · rw [parseItems] at h
        split at h
        · cases h
        · next v tail hv =>
            split at h
            · obtain ⟨⟨others, tail⟩, hothers, heq⟩ := Option.map_eq_some_iff.mp h
              obtain ⟨rfl, rfl⟩ := Prod.mk.inj heq
              exact List.forall_mem_cons.mpr ⟨ihvalue _ _ _ hv, ihitems _ _ _ hothers⟩
            · cases h
              exact List.forall_mem_singleton.mpr (ihvalue _ _ _ hv)
            · cases h
      · rw [parseMembers] at h
        split at h
        · cases h
        · next k tail hk =>
            split at h
            · cases h
            · next v tail hv =>
                split at h
                · obtain ⟨⟨others, tail⟩, hothers, heq⟩ := Option.map_eq_some_iff.mp h
                  obtain ⟨rfl, rfl⟩ := Prod.mk.inj heq
                  exact List.forall_mem_cons.mpr ⟨ihvalue _ _ _ hv, ihmembers _ _ _ hothers⟩
                · cases h
                  exact List.forall_mem_singleton.mpr (ihvalue _ _ _ hv)
                · cases h

/-- **What `JSON.parse` answers** has distinct keys, and doubles for numbers. -/
theorem json_of_parse {text : JsString} {v : JsValue} (h : parseJson text = some v) : Json v := by
  unfold parseJson at h
  split at h
  · cases h
  · next w rest hw =>
      split_ifs at h
      rw [← Option.some.inj h]
      exact (json_parse _).1 _ _ _ hw

/-! ## One order -/

mutual

/-- A value with the own properties of its objects in one order. -/
def sortOwn : JsValue → JsValue
  | .array items => .array (sortOwnItems items)
  | .object fields => .object ((sortOwnFields fields).insertionSort ownLe)
  | v => v

def sortOwnItems : List JsValue → List JsValue
  | [] => []
  | v :: rest => sortOwn v :: sortOwnItems rest

def sortOwnFields : List (JsString × JsValue) → List (JsString × JsValue)
  | [] => []
  | (k, v) :: rest => (k, sortOwn v) :: sortOwnFields rest

end

theorem sortOwnItems_eq (items : List JsValue) : sortOwnItems items = items.map sortOwn := by
  induction items with
  | nil => rfl
  | cons v rest ih => rw [sortOwnItems, ih, List.map_cons]

theorem sortOwnFields_eq (fields : List (JsString × JsValue)) :
    sortOwnFields fields = fields.map fun f => (f.1, sortOwn f.2) := by
  induction fields with
  | nil => rfl
  | cons f rest ih => rw [sortOwnFields, ih, List.map_cons]

/-- Sorting by key sorts the same whatever stands under the keys. -/
theorem insertionSort_map (g : JsValue → JsValue) (fields : List (JsString × JsValue)) :
    (fields.map fun f => (f.1, g f.2)).insertionSort ownLe =
      (fields.insertionSort ownLe).map fun f => (f.1, g f.2) :=
  (List.map_insertionSort ownLe ownLe (fun f : JsString × JsValue => (f.1, g f.2)) fields
    fun _ _ _ _ => Iff.rfl).symm

theorem sortOwn_array (items : List JsValue) : sortOwn (.array items) = .array (items.map sortOwn) := by
  rw [sortOwn, sortOwnItems_eq]

theorem sortOwn_object (fields : List (JsString × JsValue)) : sortOwn (.object fields) =
    .object ((fields.map fun f => (f.1, sortOwn f.2)).insertionSort ownLe) := by
  rw [sortOwn, sortOwnFields_eq]

theorem Json.same_of_sortOwn {v w : JsValue} (hv : Json v) (hw : Json w)
    (h : sortOwn v = sortOwn w) : v.Same w := by
  induction hv generalizing w with
  | null =>
      cases hw <;> simp [sortOwn] at h
      exact .refl _
  | bool b =>
      cases hw <;> simp [sortOwn] at h
      rw [h]
      exact .refl _
  | number _ _ =>
      cases hw <;> simp [sortOwn] at h
      rw [h]
      exact .refl _
  | string s =>
      cases hw <;> simp [sortOwn] at h
      rw [h]
      exact .refl _
  | @array items _ ih =>
      cases hw <;> simp only [sortOwn, reduceCtorEq, JsValue.array.injEq] at h
      next items' hitems' =>
        rw [sortOwnItems_eq, sortOwnItems_eq] at h
        exact .array_of_map h fun v hv w hw => ih v hv (hitems' w hw)
  | @object fields hnodup _ ih =>
      cases hw <;> simp only [sortOwn, reduceCtorEq, JsValue.object.injEq] at h
      next fields' hnodup' hfields' =>
        have hperm : (sortOwnFields fields).Perm (sortOwnFields fields') :=
          (List.perm_insertionSort ownLe _).symm.trans
            (h ▸ List.perm_insertionSort ownLe (sortOwnFields fields'))
        rw [sortOwnFields_eq, sortOwnFields_eq] at hperm
        exact .object_of_perm hnodup' hperm fun m hm m' hm' => ih m hm (hfields' m' hm')

theorem Json.sortOwn_of_same {v w : JsValue} (hv : Json v) (hw : Json w) (h : v.Same w) :
    sortOwn v = sortOwn w := by
  induction h with
  | refl v => rfl
  | @array items items' hlength _ ih =>
      cases hv with
      | array hitems =>
          cases hw with
          | array hitems' =>
              rw [sortOwn_array, sortOwn_array]
              refine congrArg JsValue.array (List.ext_getElem (by simpa using hlength) ?_)
              intro i hi hi'
              rw [List.length_map] at hi hi'
              rw [List.getElem_map, List.getElem_map]
              exact ih i _ _ (List.getElem?_eq_getElem hi) (List.getElem?_eq_getElem hi')
                (hitems _ (List.getElem_mem hi)) (hitems' _ (List.getElem_mem hi'))
  | @object fields fields' hnames _ ih =>
      cases hv with
      | object hnodup hfields =>
          cases hw with
          | object hnodup' hfields' =>
              have hkeys : ∀ fields : List (JsString × JsValue),
                  (fields.map fun f => (f.1, sortOwn f.2)).map Prod.fst = fields.map Prod.fst := by
                intro fields
                rw [List.map_map]
                rfl
              -- each member has its like under the same key, and there are as many on both sides
              have hsubset : (fields.map fun f => (f.1, sortOwn f.2)) ⊆
                  fields'.map fun f => (f.1, sortOwn f.2) := by
                intro g hg
                obtain ⟨⟨k, v⟩, hkv, rfl⟩ := List.mem_map.mp hg
                obtain ⟨⟨k, w⟩, hkw, rfl⟩ := List.mem_map.mp
                  (hnames.mem_iff.mp (List.mem_map.mpr ⟨(k, v), hkv, rfl⟩))
                have hvalue := ih k v w hkv hkw (hfields _ hkv) (hfields' _ hkw)
                exact List.mem_map.mpr ⟨(k, w), hkw, by rw [hvalue]⟩
              have hlength : fields'.length ≤ fields.length := by
                simpa using hnames.length_eq.ge
              have hperm : (fields.map fun f => (f.1, sortOwn f.2)).Perm
                  (fields'.map fun f => (f.1, sortOwn f.2)) :=
                (List.Nodup.of_map Prod.fst ((hkeys fields).symm ▸ hnodup)).subperm hsubset
                  |>.perm_of_length_le (by simpa using hlength)
              rw [sortOwn_object, sortOwn_object,
                insertionSort_eq_of_perm ((hkeys fields).symm ▸ hnodup) hperm]

/-- Two parsed values are structurally equal where they are one value in one order. -/
theorem Json.sortOwn_eq_iff {v w : JsValue} (hv : Json v) (hw : Json w) :
    sortOwn v = sortOwn w ↔ v.Same w :=
  ⟨hv.same_of_sortOwn hw, hv.sortOwn_of_same hw⟩

/-! ## Texts -/

theorem imageItems_map {items : List JsValue} {f g : JsValue → JsValue}
    (h : ∀ v ∈ items, image (f v) = some (g v)) : imageItems (items.map f) = items.map g := by
  induction items with
  | nil => rfl
  | cons v rest ih =>
      rw [List.map_cons, imageItems, h v List.mem_cons_self,
        ih fun w hw => h w (List.mem_cons_of_mem _ hw)]
      rfl

theorem imageFields_map {fields : List (JsString × JsValue)} {f g : JsValue → JsValue}
    (h : ∀ m ∈ fields, image (f m.2) = some (g m.2)) :
    imageFields (fields.map fun m => (m.1, f m.2)) = fields.map fun m => (m.1, g m.2) := by
  induction fields with
  | nil => rfl
  | cons m rest ih =>
      rw [List.map_cons, imageFields, h m List.mem_cons_self,
        ih fun n hn => h n (List.mem_cons_of_mem _ hn)]
      rfl

theorem stringify_eq_none (v : JsValue) : stringify v = none ↔ image v = none := by
  cases v <;> simp [stringify, image]

mutual

/-- What comes back of a value has its text. -/
theorem stringify_image : ∀ {v w : JsValue}, image v = some w → stringify w = stringify v
  | .undefined, w, h => nomatch h
  | .other, w, h => nomatch h
  | .null, w, h => Option.some.inj h ▸ rfl
  | .bool b, w, h => Option.some.inj h ▸ rfl
  | .number n, w, h => by
      rw [← Option.some.inj h]
      split
      · rfl
      · next hn => rw [stringify, stringify, if_neg hn]
  | .string s, w, h => Option.some.inj h ▸ rfl
  | .array items, w, h => by
      rw [← Option.some.inj h, stringify, stringify, stringifyItems_image items]
  | .object fields, w, h => by
      rw [← Option.some.inj h, stringify, stringify, stringifyFields_image fields]

theorem stringifyItems_image : ∀ items : List JsValue,
    stringifyItems (imageItems items) = stringifyItems items
  | [] => rfl
  | v :: rest => by
      rw [imageItems, stringifyItems, stringifyItems, stringifyItems_image rest]
      cases hv : image v with
      | none => rw [(stringify_eq_none v).mpr hv]; rfl
      | some w => rw [Option.getD_some, stringify_image hv]

theorem stringifyFields_image : ∀ fields : List (JsString × JsValue),
    stringifyFields (imageFields fields) = stringifyFields fields
  | [] => rfl
  | (k, v) :: rest => by
      rw [imageFields, stringifyFields]
      cases hv : image v with
      | none =>
          rw [(stringify_eq_none v).mpr hv]
          exact stringifyFields_image rest
      | some w =>
          rw [Option.map_some, Option.toList_some, List.singleton_append, stringifyFields,
            stringify_image hv, stringifyFields_image rest]

end

/-! ## Properties -/

/-- A property that is there is parsed too. -/
theorem Json.get {v : JsValue} (h : Json v) (key : JsString) :
    v.get key = .undefined ∨ Json (v.get key) := by
  cases h with
  | @object fields hnodup hfields =>
      by_cases hkey : key ∈ fields.map Prod.fst
      · obtain ⟨f, hf, rfl⟩ := List.mem_map.mp hkey
        exact .inr (get_of_mem hnodup hf ▸ hfields f hf)
      · exact .inl (get_eq_undefined hkey)
  | _ => exact .inl rfl

theorem Json.same_get {v w : JsValue} (hv : Json v) (hw : Json w) (h : v.Same w) (key : JsString) :
    (v.get key).Same (w.get key) := by
  cases h with
  | refl => exact .refl _
  | array _ _ => exact .refl _
  | @object fields fields' hnames hvalues =>
      cases hv with
      | object hnodup _ =>
          cases hw with
          | object hnodup' _ =>
              by_cases hkey : key ∈ fields.map Prod.fst
              · obtain ⟨⟨k, v⟩, hkv, rfl⟩ := List.mem_map.mp hkey
                obtain ⟨⟨k, w⟩, hkw, rfl⟩ := List.mem_map.mp (hnames.mem_iff.mp hkey)
                rw [get_of_mem hnodup hkv, get_of_mem hnodup' hkw]
                exact hvalues k v w hkv hkw
              · rw [get_eq_undefined hkey, get_eq_undefined fun h => hkey (hnames.mem_iff.mpr h)]
                exact .refl _

theorem same_string {s : JsString} {v : JsValue} (h : (JsValue.string s).Same v) : v = .string s := by
  cases h
  rfl

theorem same_number {n : JsNumber} {v : JsValue} (h : (JsValue.number n).Same v) : v = .number n := by
  cases h
  rfl

theorem keys_of_members {fields fields' : List (JsString × JsValue)}
    (h : List.Forall₂ (fun f g => f.1 = g.1 ∧ f.2.Same g.2) fields fields') :
    fields.map Prod.fst = fields'.map Prod.fst := by
  induction h with
  | nil => rfl
  | cons hhead _ ih => rw [List.map_cons, List.map_cons, hhead.1, ih]

/-- Objects whose members agree one by one. -/
theorem same_of_members {fields fields' : List (JsString × JsValue)}
    (hnodup : (fields.map Prod.fst).Nodup)
    (h : List.Forall₂ (fun f g => f.1 = g.1 ∧ f.2.Same g.2) fields fields') :
    (JsValue.object fields).Same (.object fields') := by
  refine .object (keys_of_members h ▸ .refl _) ?_
  induction h with
  | nil => exact fun k v w hkv => absurd hkv List.not_mem_nil
  | @cons f g fields fields' hhead hrest ih =>
      rw [List.map_cons, List.nodup_cons] at hnodup
      intro k v w hkv hkw
      rcases List.mem_cons.mp hkv with rfl | hkv
      · rcases List.mem_cons.mp hkw with rfl | hkw
        · exact hhead.2
        · exact absurd (keys_of_members hrest ▸ List.mem_map.mpr ⟨_, hkw, rfl⟩) hnodup.1
      · rcases List.mem_cons.mp hkw with rfl | hkw
        · exact absurd (hhead.1 ▸ List.mem_map.mpr ⟨_, hkv, rfl⟩) hnodup.1
        · exact ih hnodup.2 k v w hkv hkw

/-! ## Order and image -/

/-- A property does not depend on the order of the members. -/
theorem get_of_perm {fields fields' : List (JsString × JsValue)} (hnodup : (fields.map Prod.fst).Nodup)
    (hperm : fields.Perm fields') (key : JsString) :
    (JsValue.object fields).get key = (JsValue.object fields').get key := by
  have hnodup' := ((hperm.map Prod.fst).nodup_iff).mp hnodup
  by_cases hkey : key ∈ fields.map Prod.fst
  · obtain ⟨⟨k, v⟩, hmem, rfl⟩ := List.mem_map.mp hkey
    rw [get_of_mem hnodup hmem, get_of_mem hnodup' (hperm.mem_iff.mp hmem)]
  · have hkey' : key ∉ fields'.map Prod.fst := fun h => hkey ((hperm.map Prod.fst).mem_iff.mpr h)
    rw [get_eq_undefined hkey, get_eq_undefined hkey']

theorem image_ne_undefined (v : JsValue) : image v ≠ some .undefined := by
  intro h
  cases v with
  | number n =>
      rw [image] at h
      split at h <;> cases h
  | _ => cases h

theorem getD_image_inj {v w : JsValue} (h : (image v).getD .undefined = (image w).getD .undefined) :
    image v = image w := by
  have hv := image_ne_undefined v
  have hw := image_ne_undefined w
  generalize image v = x, image w = y at h hv hw
  cases x with
  | none =>
      cases y with
      | none => rfl
      | some y => exact absurd (congrArg some h).symm hw
  | some x =>
      cases y with
      | none => exact absurd (congrArg some h) hv
      | some y => exact congrArg some h

end Js
