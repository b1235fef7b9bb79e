import BpcProtocol.Durable.PairRecord
import BpcProtocol.Pair.Written

set_option autoImplicit false

/-! # Canonical pairs are read back

A canonical registration or pair, written as an object in any order of its keys, is normalized to
itself. What normalization reads of an object are its keys and the values under them
(`ReadsRegistration`, `ReadsPair`), and sorting the keys changes neither. -/

namespace Durable

open Ha Fallible
open Pair (PairStatus PairKind CanaryClass b64url256 stringOf present presentFields present_eq
  mem_presentFields keys_presentFields_sublist)

/-! ## Own values -/

theorem ownValue_eq (fields : List (JsString × JsValue)) (key : String) :
    ownValue fields key = (OrderedMap.lookup (Js.lit key) fields).getD .undefined := by
  show ((fields.find? fun f => f.1 == Js.lit key).map Prod.snd).getD .undefined = _
  congr 1
  induction fields with
  | nil => rfl
  | cons f rest ih =>
      by_cases hf : f.1 = Js.lit key
      · simp [OrderedMap.lookup, hf]
      · rw [OrderedMap.lookup, if_neg hf, ← ih, List.find?_cons_of_neg (by simpa using hf)]

theorem ownValue_of_mem {fields : List (JsString × JsValue)} (h : (fields.map Prod.fst).Nodup)
    {key : String} {v : JsValue} (hmem : (Js.lit key, v) ∈ fields) : ownValue fields key = v := by
  rw [ownValue_eq, (OrderedMap.lookup_eq_some h).mpr hmem, Option.getD_some]

theorem ownValue_of_not_mem {fields : List (JsString × JsValue)} {key : String}
    (h : Js.lit key ∉ fields.map Prod.fst) : ownValue fields key = .undefined := by
  rw [ownValue_eq, OrderedMap.lookup_eq_none.mpr h, Option.getD_none]

/-- The fields of an object after its keys are sorted. -/
def sortedFields (fields : List (JsString × JsValue)) : List (JsString × JsValue) :=
  (fields.insertionSort keyLe).map fun f => (f.1, sortKeys f.2)

theorem sortKeys_object (fields : List (JsString × JsValue)) :
    sortKeys (.object fields) = .object (sortedFields fields) := by
  rw [sortKeys, sort_sortKeysFields, sortedFields]

theorem keys_sortedFields (fields : List (JsString × JsValue)) :
    ((sortedFields fields).map Prod.fst).Perm (fields.map Prod.fst) := by
  rw [sortedFields, List.map_map]
  exact (List.perm_insertionSort keyLe fields).map Prod.fst

theorem length_sortedFields (fields : List (JsString × JsValue)) :
    (sortedFields fields).length = fields.length := by
  rw [sortedFields, List.length_map, List.length_insertionSort]

/-- Sorting the keys keeps what is read under each. -/
theorem ownValue_sortedFields {fields : List (JsString × JsValue)}
    (h : (fields.map Prod.fst).Nodup) (key : String) :
    ownValue (sortedFields fields) key = sortKeys (ownValue fields key) := by
  have hsorted : ((sortedFields fields).map Prod.fst).Nodup :=
    (keys_sortedFields fields).nodup_iff.mpr h
  by_cases hkey : Js.lit key ∈ fields.map Prod.fst
  · obtain ⟨f, hf, hfkey⟩ := List.mem_map.mp hkey
    obtain ⟨k, v⟩ := f
    obtain rfl : k = Js.lit key := hfkey
    rw [ownValue_of_mem h hf]
    refine ownValue_of_mem hsorted (List.mem_map.mpr ⟨(Js.lit key, v), ?_, rfl⟩)
    exact (List.mem_insertionSort keyLe).mpr hf
  · have hsortedKey : Js.lit key ∉ (sortedFields fields).map Prod.fst := fun hmem =>
      hkey ((keys_sortedFields fields).mem_iff.mp hmem)
    rw [ownValue_of_not_mem hkey, ownValue_of_not_mem hsortedKey]
    rfl

/-! ## Written fields -/

/-- What is read of written fields: the value under a name, or `undefined` where it has none. -/
theorem ownValue_presentFields {spec : List (String × Option JsValue)}
    (h : (spec.map fun f => Js.lit f.1).Nodup) {name : String} {o : Option JsValue}
    (hmem : (name, o) ∈ spec) : ownValue (presentFields spec) name = o.getD .undefined :=
  Pair.get_presentFields h hmem

/-! ## Checked reads -/

theorem dataObject_eq_ok {v : JsValue} {allowed : List JsString} {label : String}
    {fields : List (JsString × JsValue)} :
    dataObject v allowed label = .ok fields ↔
      v = .object fields ∧ ∀ f ∈ fields, f.1 ∈ allowed := by
  simp only [dataObject, bind_eq_ok, forM_eq_ok, ensure_eq_ok, exists_unit, pure_eq_ok]
  constructor
  · rintro ⟨fields', hown, hall, rfl⟩
    cases v with
    | object fs =>
        obtain rfl : fs = fields' := by simpa [ownFields] using hown
        exact ⟨rfl, hall⟩
    | _ => simp [ownFields] at hown
  · rintro ⟨rfl, hall⟩
    exact ⟨fields, rfl, hall, rfl⟩

theorem reqString_of {fields : List (JsString × JsValue)} {key label : String} {max : ℕ}
    {s : Bounded max} (h : ownValue fields key = .string s.1) :
    reqString fields key label max = .ok s := by
  rw [reqString, h]
  exact checked_val s _

theorem safeNatOfNumber_of (n : SafeNat) : safeNatOfNumber (.fin (n.1 : ℤ)) = some n := by
  have hn := n.2
  rw [safeNatOfNumber, JsNumber.toInt?_int, Option.bind_some, dif_pos ⟨by omega, by omega⟩]
  exact congrArg some (Subtype.ext (Int.toNat_natCast n.1))

theorem safeNatOf_toJs (n : SafeNat) : safeNatOf n.toJs = some n :=
  safeNatOfNumber_of n

theorem optInt_of {fields : List (JsString × JsValue)} {key label : String} {o : Option SafeNat}
    (h : ownValue fields key = (o.map SafeNat.toJs).getD .undefined) :
    optInt fields key label = .ok o := by
  rw [optInt, h]
  cases o with
  | none => rfl
  | some n =>
      show (safeNatOf n.toJs).elim _ _ = _
      rw [safeNatOf_toJs]
      rfl

theorem reqInt_of {fields : List (JsString × JsValue)} {key label : String} {n : SafeNat}
    (h : ownValue fields key = n.toJs) : reqInt fields key label = .ok n := by
  rw [reqInt, optInt_of (o := some n) h]
  rfl

theorem nullableNatOf_of (o : Option SafeNat) : nullableNatOf (nullableNat o) = some o := by
  cases o with
  | none => rfl
  | some n =>
      show (safeNatOf n.toJs).map some = _
      rw [safeNatOf_toJs]
      rfl

/-! ## Keys -/

/-- An object from which a key is read. -/
structure ReadsJwk (fields : List (JsString × JsValue)) (jwk : CanonicalPublicJwk) : Prop where
  keys : ∀ f ∈ fields, f.1 ∈ Pair.jwkFields
  kty : ownValue fields "kty" = .string (Js.lit "EC")
  crv : ownValue fields "crv" = .string (Js.lit "P-256")
  x : ownValue fields "x" = .string jwk.1.x
  y : ownValue fields "y" = .string jwk.1.y
  key_ops : ownValue fields "key_ops" = .undefined
  ext : ownValue fields "ext" = .undefined

theorem canonicalJwk_of {fields : List (JsString × JsValue)} {jwk : CanonicalPublicJwk}
    (h : ReadsJwk fields jwk) : canonicalJwk (.object fields) = .ok jwk.1 := by
  have hcoordinate : ∀ {s : JsString}, b64url256 s = true → Pair.coordinate (.string s) = some s := by
    intro s hs
    simp [Pair.coordinate, stringOf, Option.filter, hs]
  simp only [canonicalJwk, bind_eq_ok, forM_eq_ok, Pair.ensure_eq_ok, exists_unit, pure_eq_ok]
  refine ⟨fields, rfl, h.keys, jwk.1, Pair.exactKey_eq_ok.mpr ⟨⟨?_, ?_⟩, ?_, ?_⟩, ?_, ?_, rfl⟩
  · rw [h.kty]
    rfl
  · rw [h.crv]
    rfl
  · rw [h.x]
    exact hcoordinate jwk.2.1
  · rw [h.y]
    exact hcoordinate jwk.2.2
  · rw [h.key_ops]
    rfl
  · rw [h.ext]
    rfl

theorem normalizeJwk_of {fields : List (JsString × JsValue)} {jwk : CanonicalPublicJwk}
    (h : ReadsJwk fields jwk) : normalizeJwk (.object fields) = .ok jwk := by
  simp only [normalizeJwk, bind_eq_ok]
  refine ⟨fields, dataObject_eq_ok.mpr ⟨rfl, h.keys⟩, jwk.1, ?_, checked_val jwk _⟩
  rw [canonicalJwk_of h]
  rfl

theorem readsJwk_toJs (jwk : CanonicalPublicJwk) : ReadsJwk (presentFields jwk.members) jwk := by
  have hnodup : (jwk.members.map fun f => Js.lit f.1).Nodup := by
    show ([Js.lit "kty", Js.lit "crv", Js.lit "x", Js.lit "y"] : List JsString).Nodup
    decide
  have hread := fun {name : String} {o : Option JsValue} (h : (name, o) ∈ jwk.members) =>
    ownValue_presentFields hnodup h
  have habsent : ∀ name, Js.lit name ∉ jwk.members.map (fun f => Js.lit f.1) →
      ownValue (presentFields jwk.members) name = .undefined := fun name h =>
    ownValue_of_not_mem fun hmem => h ((keys_presentFields_sublist _).subset hmem)
  refine
    { keys := fun f hf => ?_
      kty := hread (o := some _) (by simp [CanonicalPublicJwk.members])
      crv := hread (o := some _) (by simp [CanonicalPublicJwk.members])
      x := hread (o := some _) (by simp [CanonicalPublicJwk.members])
      y := hread (o := some _) (by simp [CanonicalPublicJwk.members])
      key_ops := habsent _ ?_
      ext := habsent _ ?_ }
  · have hmem := (keys_presentFields_sublist jwk.members).subset (List.mem_map_of_mem hf)
    have hall : ∀ k ∈ ([Js.lit "kty", Js.lit "crv", Js.lit "x", Js.lit "y"] : List JsString),
        k ∈ Pair.jwkFields := by decide
    exact hall _ hmem
  · show Js.lit "key_ops" ∉ ([Js.lit "kty", Js.lit "crv", Js.lit "x", Js.lit "y"] : List JsString)
    decide
  · show Js.lit "ext" ∉ ([Js.lit "kty", Js.lit "crv", Js.lit "x", Js.lit "y"] : List JsString)
    decide

theorem ReadsJwk.sorted {fields : List (JsString × JsValue)} {jwk : CanonicalPublicJwk}
    (hnodup : (fields.map Prod.fst).Nodup) (h : ReadsJwk fields jwk) :
    ReadsJwk (sortedFields fields) jwk where
  keys := fun f hf => by
    have hkey := (keys_sortedFields fields).mem_iff.mp (List.mem_map_of_mem hf)
    obtain ⟨g, hg, hgf⟩ := List.mem_map.mp hkey
    exact hgf ▸ h.keys g hg
  kty := by rw [ownValue_sortedFields hnodup, h.kty]; rfl
  crv := by rw [ownValue_sortedFields hnodup, h.crv]; rfl
  x := by rw [ownValue_sortedFields hnodup, h.x]; rfl
  y := by rw [ownValue_sortedFields hnodup, h.y]; rfl
  key_ops := by rw [ownValue_sortedFields hnodup, h.key_ops]; rfl
  ext := by rw [ownValue_sortedFields hnodup, h.ext]; rfl

/-! ## Registrations -/

/-- An object from which a registration is read. -/
structure ReadsRegistration (fields : List (JsString × JsValue)) (r : CanonicalPairRegistration) :
    Prop where
  name : ownValue fields "name" = .string r.name.1
  scope : ownValue fields "scope" = .string r.scope.text
  mode : ownValue fields "mode" = .string r.mode.text
  secretHash : ownValue fields "secretHash" = .string r.secretHash.1
  pubJwk : ∃ jwk, ownValue fields "pubJwk" = .object jwk ∧ (jwk.map Prod.fst).Nodup ∧
    ReadsJwk jwk r.pubJwk
  kind : ownValue fields "kind" = .string r.kind.text
  expiresAt : ownValue fields "expiresAt" = (r.expiresAt.map SafeNat.toJs).getD .undefined
  maxRequests : ownValue fields "maxRequests" = (r.maxRequests.map SafeNat.toJs).getD .undefined
  canaryClass : ownValue fields "canaryClass" =
    (r.canaryClass.map fun c => JsValue.string c.text).getD .undefined

theorem kindOf_of (kind : PairKind) : kindOf (.string kind.text) = some kind := by
  show (stringOf (.string kind.text)).bind (enumOf kinds PairKind.text) = some kind
  exact enumOf_kind kind

theorem canaryOf_of {kind : PairKind} {canary : Option CanaryClass}
    (h : canary.isSome = decide (kind = .ghost)) :
    canaryOf kind ((canary.map fun c => JsValue.string c.text).getD .undefined) = some canary := by
  unfold canaryOf
  cases canary with
  | none =>
      have hkind : ¬kind = .ghost := by simpa using h
      rw [if_neg hkind]
      rfl
  | some c =>
      have hkind : kind = .ghost := by simpa using h
      rw [if_pos hkind]
      show ((stringOf (.string c.text)).bind (enumOf canaries CanaryClass.text)).map some = _
      simp [stringOf]

theorem length_text (scope : PairScope) : 1 ≤ scope.text.length ∧ scope.text.length ≤ 10 := by
  cases scope <;> decide

theorem length_modeText (mode : PairMode) : 1 ≤ mode.text.length ∧ mode.text.length ≤ 16 := by
  cases mode <;> decide

theorem length_statusText (status : PairStatus) :
    1 ≤ status.text.length ∧ status.text.length ≤ 16 := by
  cases status <;> decide

theorem length_b64url256 {s : JsString} (h : b64url256 s = true) :
    1 ≤ s.length ∧ s.length ≤ 43 := by
  simp only [b64url256, Js.classPattern, Bool.and_eq_true, decide_eq_true_eq, List.length_take,
    List.length_drop] at h
  omega

theorem normalizeRegistration_of {fields : List (JsString × JsValue)}
    {r : CanonicalPairRegistration} (hkeys : ∀ f ∈ fields, f.1 ∈ regKeys)
    (h : ReadsRegistration fields r) : normalizeRegistration (.object fields) = .ok r := by
  obtain ⟨jwk, hjwk, -, hreads⟩ := h.pubJwk
  have hpubJwk : normalizeJwk (ownValue fields "pubJwk") = .ok r.pubJwk := by
    rw [hjwk]
    exact normalizeJwk_of hreads
  simp only [normalizeRegistration, bind_eq_ok, pure_eq_ok, found_eq_ok]
  refine ⟨fields, dataObject_eq_ok.mpr ⟨rfl, hkeys⟩,
    ⟨r.scope.text, length_text r.scope⟩, reqString_of h.scope,
    ⟨r.mode.text, length_modeText r.mode⟩, reqString_of h.mode,
    r.scope, enumOf_scope r.scope, r.mode, enumOf_mode r.mode, r.kind, ?_, r.canaryClass, ?_,
    ⟨r.canaryClass, r.consistent⟩, checked_eq_ok.mpr rfl, r.name, reqString_of h.name,
    ⟨r.secretHash.1, length_b64url256 r.secretHash.2⟩, reqString_of h.secretHash,
    r.pubJwk, hpubJwk, r.secretHash, checked_val r.secretHash _,
    r.expiresAt, optInt_of h.expiresAt, r.maxRequests, optInt_of h.maxRequests, rfl⟩
  · rw [h.kind]
    exact kindOf_of r.kind
  · rw [h.canaryClass]
    exact canaryOf_of r.consistent

theorem ReadsRegistration.sorted {fields : List (JsString × JsValue)}
    {r : CanonicalPairRegistration} (hnodup : (fields.map Prod.fst).Nodup)
    (h : ReadsRegistration fields r) : ReadsRegistration (sortedFields fields) r where
  name := by rw [ownValue_sortedFields hnodup, h.name]; rfl
  scope := by rw [ownValue_sortedFields hnodup, h.scope]; rfl
  mode := by rw [ownValue_sortedFields hnodup, h.mode]; rfl
  secretHash := by rw [ownValue_sortedFields hnodup, h.secretHash]; rfl
  pubJwk := by
    obtain ⟨jwk, hjwk, hjwkNodup, hreads⟩ := h.pubJwk
    refine ⟨sortedFields jwk, ?_, ?_, hreads.sorted hjwkNodup⟩
    · rw [ownValue_sortedFields hnodup, hjwk, sortKeys_object]
    · exact (keys_sortedFields jwk).nodup_iff.mpr hjwkNodup
  kind := by rw [ownValue_sortedFields hnodup, h.kind]; rfl
  expiresAt := by
    rw [ownValue_sortedFields hnodup, h.expiresAt]
    cases r.expiresAt <;> rfl
  maxRequests := by
    rw [ownValue_sortedFields hnodup, h.maxRequests]
    cases r.maxRequests <;> rfl
  canaryClass := by
    rw [ownValue_sortedFields hnodup, h.canaryClass]
    cases r.canaryClass <;> rfl

/-! ## The registration of a pair -/

theorem eq_undefined {v : JsValue} (h : isUndefined v = true) : v = .undefined := by
  cases v with
  | undefined => rfl
  | _ => cases h

section Candidate

variable {fields : List (JsString × JsValue)} {always optional : List String}

/-- Fields copied from an object, of which the optional ones are left out where they are
    `undefined`. -/
def copied (fields : List (JsString × JsValue)) (always optional : List String) :
    List (JsString × JsValue) :=
  (always.map fun key => (Js.lit key, ownValue fields key)) ++
    (optional.map fun key => (Js.lit key, ownValue fields key)).filter fun f => !isUndefined f.2

theorem keys_copied_sublist :
    ((copied fields always optional).map Prod.fst).Sublist ((always ++ optional).map Js.lit) := by
  have hsub : (copied fields always optional).Sublist
      ((always ++ optional).map fun key => (Js.lit key, ownValue fields key)) := by
    rw [List.map_append]
    exact (List.Sublist.refl _).append List.filter_sublist
  have hkeys := hsub.map Prod.fst
  rwa [List.map_map] at hkeys

/-- What is copied under a name is what is read under it. -/
theorem ownValue_copied (hnodup : ((always ++ optional).map Js.lit).Nodup) {key : String}
    (h : key ∈ always ++ optional) :
    ownValue (copied fields always optional) key = ownValue fields key := by
  have hkeys : ((copied fields always optional).map Prod.fst).Nodup :=
    hnodup.sublist keys_copied_sublist
  by_cases hundef : isUndefined (ownValue fields key) = true
  · rw [eq_undefined hundef]
    -- an entry under the name is a copy of the same undefined value
    rw [ownValue_eq]
    cases hlook : OrderedMap.lookup (Js.lit key) (copied fields always optional) with
    | none => rfl
    | some v =>
        have hmem := (OrderedMap.lookup_eq_some hkeys).mp hlook
        have hcopy : ∃ k ∈ always ++ optional, (Js.lit k, ownValue fields k) = (Js.lit key, v) := by
          rcases List.mem_append.mp hmem with hin | hin
          · obtain ⟨k, hk, heq⟩ := List.mem_map.mp hin
            exact ⟨k, List.mem_append_left _ hk, heq⟩
          · obtain ⟨k, hk, heq⟩ := List.mem_map.mp (List.mem_filter.mp hin).1
            exact ⟨k, List.mem_append_right _ hk, heq⟩
        obtain ⟨k, hk, heq⟩ := hcopy
        obtain rfl : k = key := List.inj_on_of_nodup_map hnodup hk h (congrArg Prod.fst heq)
        rw [Option.getD_some, ← (Prod.mk.inj heq).2]
        exact eq_undefined hundef
  · refine ownValue_of_mem hkeys ?_
    rcases List.mem_append.mp h with hin | hin
    · exact List.mem_append_left _ (List.mem_map.mpr ⟨key, hin, rfl⟩)
    · refine List.mem_append_right _ (List.mem_filter.mpr ⟨List.mem_map.mpr ⟨key, hin, rfl⟩, ?_⟩)
      simpa using hundef

end Candidate

theorem registrationFromPairObject_of {fields : List (JsString × JsValue)}
    {r : CanonicalPairRegistration} (h : ReadsRegistration fields r) :
    registrationFromPairObject fields = .ok r := by
  have hnodup : (((["name", "scope", "mode", "secretHash", "pubJwk"] : List String) ++
      ["expiresAt", "maxRequests", "kind", "canaryClass"]).map Js.lit).Nodup := by decide
  have hsame : ∀ {key : String}, key ∈ ["name", "scope", "mode", "secretHash", "pubJwk"] ++
      ["expiresAt", "maxRequests", "kind", "canaryClass"] →
      ownValue (copied fields ["name", "scope", "mode", "secretHash", "pubJwk"]
        ["expiresAt", "maxRequests", "kind", "canaryClass"]) key = ownValue fields key :=
    fun hkey => ownValue_copied hnodup hkey
  refine normalizeRegistration_of (fun f hf => ?_)
    { name := (hsame (by decide)).trans h.name
      scope := (hsame (by decide)).trans h.scope
      mode := (hsame (by decide)).trans h.mode
      secretHash := (hsame (by decide)).trans h.secretHash
      pubJwk := by
        obtain ⟨jwk, hjwk, hreads⟩ := h.pubJwk
        exact ⟨jwk, (hsame (by decide)).trans hjwk, hreads⟩
      kind := (hsame (by decide)).trans h.kind
      expiresAt := (hsame (by decide)).trans h.expiresAt
      maxRequests := (hsame (by decide)).trans h.maxRequests
      canaryClass := (hsame (by decide)).trans h.canaryClass }
  have hmem := keys_copied_sublist.subset (List.mem_map_of_mem hf)
  have hall : ∀ k ∈ ((["name", "scope", "mode", "secretHash", "pubJwk"] : List String) ++
      ["expiresAt", "maxRequests", "kind", "canaryClass"]).map Js.lit, k ∈ regKeys := by decide
  exact hall _ hmem

/-! ## Pairs -/

/-- An object from which all of a pair is read but its failure score. -/
structure ReadsFields (fields : List (JsString × JsValue)) (p : CanonicalStoredPair) : Prop where
  keys : ∀ f ∈ fields, f.1 ∈ pairKeys
  registration : ReadsRegistration fields p.toCanonicalPairRegistration
  id : ownValue fields "id" = .string p.id.1
  status : ownValue fields "status" = .string p.status.text
  created : ownValue fields "created" = p.created.toJs
  lastActive : ownValue fields "lastActive" = nullableNat p.lastActive
  requests : ownValue fields "requests" = p.requests.toJs
  failedSigs : ownValue fields "failedSigs" = p.failedSigs.toJs
  firstFailureAt : ownValue fields "firstFailureAt" =
    (p.firstFailureAt.map nullableNat).getD .undefined

/-- An object from which a pair is read. -/
structure ReadsPair (fields : List (JsString × JsValue)) (p : CanonicalStoredPair) : Prop
    extends ReadsFields fields p where
  cumulativeFailures : ownValue fields "cumulativeFailures" =
    (p.cumulativeFailures.map JsValue.string).getD .undefined

/-- The failure score is a decimal that a number can be read from. -/
def CanonicalStoredPair.Scored (p : CanonicalStoredPair) : Prop :=
  ∀ text, p.cumulativeFailures = some text → decimalScore text = true

theorem scoreOf_eq_ok {score : Option JsString} {o : Option JsString} :
    scoreOf ((score.map JsValue.string).getD .undefined) true = .ok o ↔
      o = score ∧ ∀ text, score = some text → decimalScore text = true := by
  cases score with
  | none =>
      show Except.ok none = Except.ok o ↔ _
      constructor
      · rintro ⟨⟩
        exact ⟨rfl, fun text h => by cases h⟩
      · rintro ⟨rfl, -⟩
        rfl
  | some text =>
      show (do
        let text ← found (stringOf (.string text)) "pair.cumulativeFailures decimal is invalid"
        ensure (decimalScore text = true) "pair.cumulativeFailures decimal is invalid"
        pure (some text)) = .ok o ↔ _
      simp only [bind_eq_ok, found_eq_ok, ensure_eq_ok, exists_unit, pure_eq_ok, stringOf,
        Option.some.injEq]
      constructor
      · rintro ⟨t, rfl, hdecimal, rfl⟩
        exact ⟨rfl, fun u hu => hu ▸ hdecimal⟩
      · rintro ⟨rfl, hdecimal⟩
        exact ⟨text, rfl, hdecimal text rfl, rfl⟩

theorem firstFailureOf_of (o : Option (Option SafeNat)) :
    firstFailureOf ((o.map nullableNat).getD .undefined) = .ok o := by
  cases o with
  | none => rfl
  | some t =>
      have hdefined : isUndefined (nullableNat t) = false := by cases t <;> rfl
      show (if isUndefined (nullableNat t) then _ else
        (found (nullableNatOf (nullableNat t)) "pair.firstFailureAt is invalid").map some) = _
      rw [hdefined, nullableNatOf_of]
      rfl

/-- A pair is normalized from its fields with the score that is read of them. -/
theorem normalizePair_of {fields : List (JsString × JsValue)} {p : CanonicalStoredPair}
    {cumulativeText : Bool} {score : Option JsString} (h : ReadsFields fields p)
    (hscore : scoreOf (ownValue fields "cumulativeFailures") cumulativeText = .ok score) :
    normalizePair (.object fields) cumulativeText = .ok { p with cumulativeFailures := score } := by
  have hid : ∀ {s : PairId}, 1 ≤ s.1.length ∧ s.1.length ≤ 64 := by
    intro s
    have hs := s.2
    simp only [pairIdPattern, Js.classPattern, Bool.and_eq_true, decide_eq_true_eq] at hs
    exact hs.1
  have hlast : nullableNatOf (ownValue fields "lastActive") = some p.lastActive := by
    rw [h.lastActive]
    exact nullableNatOf_of p.lastActive
  have hfirst : firstFailureOf (ownValue fields "firstFailureAt") = .ok p.firstFailureAt := by
    rw [h.firstFailureAt]
    exact firstFailureOf_of p.firstFailureAt
  simp only [normalizePair, bind_eq_ok, pure_eq_ok, found_eq_ok]
  exact ⟨fields, dataObject_eq_ok.mpr ⟨rfl, h.keys⟩, p.toCanonicalPairRegistration,
    registrationFromPairObject_of h.registration, ⟨p.id.1, hid⟩, reqString_of h.id,
    ⟨p.status.text, length_statusText p.status⟩, reqString_of h.status, p.id,
    checked_val p.id _, p.status, enumOf_status p.status, p.lastActive, hlast,
    p.firstFailureAt, hfirst, score, hscore,
    p.created, reqInt_of h.created, p.requests, reqInt_of h.requests,
    p.failedSigs, reqInt_of h.failedSigs, rfl⟩

/-- **What is normalized from an object from which a pair is read** is that pair. -/
theorem normalizePair_eq_ok_of {fields : List (JsString × JsValue)} {p q : CanonicalStoredPair}
    (h : ReadsPair fields p) :
    normalizePair (.object fields) true = .ok q ↔ q = p ∧ p.Scored := by
  constructor
  · intro hq
    have hscored : ∃ score, scoreOf (ownValue fields "cumulativeFailures") true = .ok score := by
      simp only [normalizePair, bind_eq_ok] at hq
      obtain ⟨own, hown, -, -, -, -, -, -, -, -, -, -, -, -, -, -, score, hscore, -⟩ := hq
      obtain ⟨heq, -⟩ := dataObject_eq_ok.mp hown
      obtain rfl : fields = own := JsValue.object.inj heq
      exact ⟨score, hscore⟩
    obtain ⟨score, hscore⟩ := hscored
    have hsame := hscore
    rw [h.cumulativeFailures, scoreOf_eq_ok] at hsame
    obtain ⟨rfl, hdecimal⟩ := hsame
    rw [normalizePair_of h.toReadsFields hscore] at hq
    exact ⟨(Except.ok.inj hq).symm, hdecimal⟩
  · rintro ⟨rfl, hscored⟩
    refine normalizePair_of h.toReadsFields ?_
    rw [h.cumulativeFailures, scoreOf_eq_ok]
    exact ⟨rfl, hscored⟩

theorem ReadsPair.sorted {fields : List (JsString × JsValue)} {p : CanonicalStoredPair}
    (hnodup : (fields.map Prod.fst).Nodup) (h : ReadsPair fields p) :
    ReadsPair (sortedFields fields) p where
  keys := fun f hf => by
    have hkey := (keys_sortedFields fields).mem_iff.mp (List.mem_map_of_mem hf)
    obtain ⟨g, hg, hgf⟩ := List.mem_map.mp hkey
    exact hgf ▸ h.keys g hg
  registration := h.registration.sorted hnodup
  id := by rw [ownValue_sortedFields hnodup, h.id]; rfl
  status := by rw [ownValue_sortedFields hnodup, h.status]; rfl
  created := by rw [ownValue_sortedFields hnodup, h.created]; rfl
  lastActive := by
    rw [ownValue_sortedFields hnodup, h.lastActive]
    cases p.lastActive <;> rfl
  requests := by rw [ownValue_sortedFields hnodup, h.requests]; rfl
  failedSigs := by rw [ownValue_sortedFields hnodup, h.failedSigs]; rfl
  cumulativeFailures := by
    rw [ownValue_sortedFields hnodup, h.cumulativeFailures]
    cases p.cumulativeFailures <;> rfl
  firstFailureAt := by
    rw [ownValue_sortedFields hnodup, h.firstFailureAt]
    cases p.firstFailureAt with
    | none => rfl
    | some t => cases t <;> rfl

/-! ## Written pairs and registrations -/

/-- A registration is read from fields that have its own among them. -/
theorem readsRegistration_of {spec : List (String × Option JsValue)}
    {r : CanonicalPairRegistration} (hnodup : (spec.map fun f => Js.lit f.1).Nodup)
    (h : ∀ f ∈ r.members, f ∈ spec) : ReadsRegistration (presentFields spec) r := by
  have hread := fun {name : String} {o : Option JsValue} (hmem : (name, o) ∈ r.members) =>
    ownValue_presentFields hnodup (h _ hmem)
  exact
    { name := hread (o := some _) (by simp [CanonicalPairRegistration.members])
      scope := hread (o := some _) (by simp [CanonicalPairRegistration.members])
      mode := hread (o := some _) (by simp [CanonicalPairRegistration.members])
      secretHash := hread (o := some _) (by simp [CanonicalPairRegistration.members])
      pubJwk := ⟨presentFields r.pubJwk.members,
        hread (o := some r.pubJwk.toJs) (by simp [CanonicalPairRegistration.members]),
        ((by decide : ([Js.lit "kty", Js.lit "crv", Js.lit "x", Js.lit "y"] :
          List JsString).Nodup)).sublist (keys_presentFields_sublist r.pubJwk.members),
        readsJwk_toJs r.pubJwk⟩
      kind := hread (o := some _) (by simp [CanonicalPairRegistration.members])
      expiresAt := hread (by simp [CanonicalPairRegistration.members])
      maxRequests := hread (by simp [CanonicalPairRegistration.members])
      canaryClass := hread (by simp [CanonicalPairRegistration.members]) }

/-- The names of a registration's fields. -/
theorem names_registration (r : CanonicalPairRegistration) :
    r.members.map (fun f => Js.lit f.1) =
      ["name", "scope", "mode", "secretHash", "pubJwk", "kind", "expiresAt", "maxRequests",
        "canaryClass"].map Js.lit :=
  rfl

theorem nodup_registration (r : CanonicalPairRegistration) :
    (r.members.map fun f => Js.lit f.1).Nodup := by
  rw [names_registration]
  decide

/-- The names of a pair's fields. -/
theorem names_pair (p : CanonicalStoredPair) :
    p.members.map (fun f => Js.lit f.1) =
      ["name", "scope", "mode", "secretHash", "pubJwk", "kind", "expiresAt", "maxRequests",
        "canaryClass", "id", "status", "created", "lastActive", "requests", "failedSigs",
        "cumulativeFailures", "firstFailureAt"].map Js.lit :=
  rfl

theorem nodup_pair (p : CanonicalStoredPair) : (p.members.map fun f => Js.lit f.1).Nodup := by
  rw [names_pair]
  decide

theorem readsRegistration_toJs (r : CanonicalPairRegistration) :
    ReadsRegistration (presentFields r.members) r :=
  readsRegistration_of (nodup_registration r) fun _ hf => hf

theorem keys_toJs (r : CanonicalPairRegistration) : ∀ f ∈ presentFields r.members, f.1 ∈ regKeys := by
  intro f hf
  have hmem := (keys_presentFields_sublist r.members).subset (List.mem_map_of_mem hf)
  rw [names_registration] at hmem
  have hall : ∀ k ∈ ["name", "scope", "mode", "secretHash", "pubJwk", "kind", "expiresAt",
      "maxRequests", "canaryClass"].map Js.lit, k ∈ regKeys := by decide
  exact hall _ hmem

/-- A pair is read, but for its score, from fields that have its own among them. -/
theorem readsFields_of {spec : List (String × Option JsValue)} {p : CanonicalStoredPair}
    (hnodup : (spec.map fun f => Js.lit f.1).Nodup)
    (hkeys : ∀ k ∈ spec.map fun f => Js.lit f.1, k ∈ pairKeys)
    (h : ∀ f ∈ p.members, f.1 ≠ "cumulativeFailures" → f ∈ spec) :
    ReadsFields (presentFields spec) p := by
  have hread := fun {name : String} {o : Option JsValue} (hmem : (name, o) ∈ p.members)
    (hne : name ≠ "cumulativeFailures") => ownValue_presentFields hnodup (h _ hmem hne)
  have hregistration : ∀ f ∈ p.toCanonicalPairRegistration.members, f.1 ≠ "cumulativeFailures" := by
    have hall : ∀ name ∈ ["name", "scope", "mode", "secretHash", "pubJwk", "kind", "expiresAt",
        "maxRequests", "canaryClass"], name ≠ "cumulativeFailures" := by decide
    exact fun f hf => hall f.1 (List.mem_map_of_mem (f := Prod.fst) hf)
  exact
    { keys := fun f hf =>
        hkeys _ ((keys_presentFields_sublist spec).subset (List.mem_map_of_mem hf))
      registration := readsRegistration_of hnodup fun f hf =>
        h f (List.mem_append_left _ hf) (hregistration f hf)
      id := hread (o := some _) (by simp [CanonicalStoredPair.members]) (by decide)
      status := hread (o := some _) (by simp [CanonicalStoredPair.members]) (by decide)
      created := hread (o := some p.created.toJs) (by simp [CanonicalStoredPair.members]) (by decide)
      lastActive := hread (o := some (nullableNat p.lastActive))
        (by simp [CanonicalStoredPair.members]) (by decide)
      requests := hread (o := some p.requests.toJs) (by simp [CanonicalStoredPair.members]) (by decide)
      failedSigs := hread (o := some p.failedSigs.toJs) (by simp [CanonicalStoredPair.members])
        (by decide)
      firstFailureAt := hread (by simp [CanonicalStoredPair.members]) (by decide) }

theorem readsPair_toJs (p : CanonicalStoredPair) : ReadsPair (presentFields p.members) p where
  toReadsFields := readsFields_of (nodup_pair p) (by
    rw [names_pair]
    decide) fun _ hf _ => hf
  cumulativeFailures :=
    ownValue_presentFields (nodup_pair p) (by simp [CanonicalStoredPair.members])

/-- A canonical pair is accepted exactly as itself, if its failure score is a decimal. -/
theorem normalizePair_toJs {p q : CanonicalStoredPair} :
    normalizePair p.toJs true = .ok q ↔ q = p ∧ p.Scored :=
  normalizePair_eq_ok_of (readsPair_toJs p)

theorem normalizePair_sortKeys {p : CanonicalStoredPair} (h : p.Scored) :
    normalizePair (sortKeys p.toJs) true = .ok p := by
  show normalizePair (sortKeys (.object (presentFields p.members))) true = .ok p
  rw [sortKeys_object]
  exact (normalizePair_eq_ok_of ((readsPair_toJs p).sorted
    ((nodup_pair p).sublist (keys_presentFields_sublist p.members)))).mpr ⟨rfl, h⟩

/-- A canonical registration is accepted as itself. -/
theorem normalizeRegistration_toJs (r : CanonicalPairRegistration) :
    normalizeRegistration r.toJs = .ok r :=
  normalizeRegistration_of (keys_toJs r) (readsRegistration_toJs r)

theorem normalizeRegistration_sortKeys (r : CanonicalPairRegistration) :
    normalizeRegistration (sortKeys r.toJs) = .ok r := by
  show normalizeRegistration (sortKeys (.object (presentFields r.members))) = .ok r
  rw [sortKeys_object]
  refine normalizeRegistration_of (fun f hf => ?_) ((readsRegistration_toJs r).sorted
    ((nodup_registration r).sublist (keys_presentFields_sublist r.members)))
  have hkey := (keys_sortedFields (presentFields r.members)).mem_iff.mp (List.mem_map_of_mem hf)
  obtain ⟨g, hg, hgf⟩ := List.mem_map.mp hkey
  exact hgf ▸ keys_toJs r g hg

end Durable
