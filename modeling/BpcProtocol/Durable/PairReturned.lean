import BpcProtocol.Durable.PairRoundTrip

set_option autoImplicit false

/-! # What normalization keeps

The converse of `PairRoundTrip`: each field of a normalized registration or pair is the field of the
value it was normalized from. Only a kind that was left out is filled in, and of the key the four
members of a public P-256 key remain. -/

namespace Durable

open Ha Fallible
open Pair (PairStatus PairKind CanaryClass stringOf present presentFields)

/-! ## Reads -/

theorem eq_string {v : JsValue} {s : JsString} (h : stringOf v = some s) : v = .string s := by
  cases v with
  | string t => exact congrArg JsValue.string (Option.some.inj h)
  | _ => cases h

theorem eq_null {v : JsValue} (h : isNull v = true) : v = .null := by
  cases v with
  | null => rfl
  | _ => cases h

theorem eq_toJs {v : JsValue} {n : SafeNat} (h : safeNatOf v = some n) : v = n.toJs := by
  cases v with
  | number m =>
      cases m with
      | fin q =>
          have hnumber : safeNatOfNumber (.fin q) = some n := h
          obtain ⟨i, hi, hn⟩ := Option.bind_eq_some_iff.mp hnumber
          simp only [JsNumber.toInt?, Option.ite_none_right_eq_some, Option.some.injEq] at hi
          obtain ⟨hden, rfl⟩ := hi
          split at hn
          · next hrange =>
              cases hn
              have hnum : ((q.num.toNat : ℤ) : ℚ) = q := by
                rw [Int.toNat_of_nonneg hrange.1]
                exact (Rat.den_eq_one_iff q).mp hden
              show JsValue.number (.fin q) = .number (.fin ((q.num.toNat : ℤ) : ℚ))
              rw [hnum]
          · cases hn
      | _ => cases h
  | _ => cases h

section Fields

variable {fields : List (JsString × JsValue)} {key label : String}

theorem ownValue_of_reqString {max : ℕ} {s : Bounded max}
    (h : reqString fields key label max = .ok s) : ownValue fields key = .string s.1 := by
  unfold reqString at h
  cases hs : stringOf (ownValue fields key) with
  | none =>
      rw [hs] at h
      cases h
  | some t =>
      rw [hs] at h
      have hchecked : checked t (label ++ "." ++ key ++ " is invalid") = .ok s := h
      rw [eq_string hs, checked_eq_ok.mp hchecked]

theorem ownValue_of_optInt {o : Option SafeNat} (h : optInt fields key label = .ok o) :
    ownValue fields key = (o.map SafeNat.toJs).getD .undefined := by
  unfold optInt at h
  split at h
  · next hundef =>
      cases h
      exact eq_undefined hundef
  · cases hn : safeNatOf (ownValue fields key) with
    | none =>
        rw [hn] at h
        cases h
    | some n =>
        rw [hn] at h
        cases h
        exact eq_toJs hn

theorem ownValue_of_reqInt {n : SafeNat} (h : reqInt fields key label = .ok n) :
    ownValue fields key = n.toJs := by
  simp only [reqInt, bind_eq_ok, found_eq_ok] at h
  obtain ⟨_, hopt, rfl⟩ := h
  exact ownValue_of_optInt hopt

end Fields

theorem eq_nullableNat {v : JsValue} {o : Option SafeNat} (h : nullableNatOf v = some o) :
    v = nullableNat o := by
  unfold nullableNatOf at h
  split at h
  · next hnull =>
      cases h
      exact eq_null hnull
  · obtain ⟨n, hn, rfl⟩ := Option.map_eq_some_iff.mp h
    exact eq_toJs hn

theorem eq_of_firstFailureOf {v : JsValue} {o : Option (Option SafeNat)}
    (h : firstFailureOf v = .ok o) : v = (o.map nullableNat).getD .undefined := by
  unfold firstFailureOf at h
  split at h
  · next hundef =>
      cases h
      exact eq_undefined hundef
  · cases ht : nullableNatOf v with
    | none =>
        rw [ht] at h
        cases h
    | some t =>
        rw [ht] at h
        cases h
        exact eq_nullableNat ht

theorem eq_of_scoreOf {v : JsValue} {o : Option JsString} (h : scoreOf v true = .ok o) :
    v = (o.map JsValue.string).getD .undefined := by
  unfold scoreOf at h
  split at h
  · next hundef =>
      cases h
      exact eq_undefined hundef
  · simp only [if_true, bind_eq_ok, found_eq_ok, pure_eq_ok] at h
    obtain ⟨text, htext, -, -, rfl⟩ := h
    exact eq_string htext

/-- A value that `??` replaces. -/
def isNullish (v : JsValue) : Bool :=
  isUndefined v || isNull v

theorem text_of_kindOf {v : JsValue} {kind : PairKind} (h : kindOf v = some kind) :
    JsValue.string kind.text = if isNullish v then .string (Js.lit "legitimate") else v := by
  unfold kindOf at h
  split at h
  · next hnullish =>
      cases h
      rw [isNullish, if_pos hnullish]
      rfl
  · next hpresent =>
      obtain ⟨s, hs, hkind⟩ := Option.bind_eq_some_iff.mp h
      rw [isNullish, if_neg hpresent, eq_string hs, text_of_enumOf hkind]

theorem eq_of_canaryOf {kind : PairKind} {v : JsValue} {canary : Option CanaryClass}
    (h : canaryOf kind v = some canary) :
    v = (canary.map fun c => JsValue.string c.text).getD .undefined := by
  unfold canaryOf at h
  split at h
  · obtain ⟨c, hc, rfl⟩ := Option.map_eq_some_iff.mp h
    obtain ⟨s, hs, hcanary⟩ := Option.bind_eq_some_iff.mp hc
    rw [eq_string hs, ← text_of_enumOf hcanary]
    rfl
  · split at h
    · next hundef =>
        cases h
        exact eq_undefined hundef
    · cases h

/-- The four members of a public P-256 key. -/
def keyNames : List String := ["kty", "crv", "x", "y"]

/-- The members of a normalized key are those of the value. -/
theorem get_of_normalizeJwk {v : JsValue} {jwk : CanonicalPublicJwk}
    (h : normalizeJwk v = .ok jwk) {name : String} (hname : name ∈ keyNames) :
    jwk.toJs.get (Js.lit name) = v.get (Js.lit name) := by
  simp only [normalizeJwk, bind_eq_ok, dataObject_eq_ok] at h
  obtain ⟨fields, ⟨rfl, -⟩, key, hcanonical, hkey⟩ := h
  have hok : canonicalJwk (.object fields) = .ok key := by
    cases hjwk : canonicalJwk (.object fields) with
    | error e =>
        rw [hjwk] at hcanonical
        cases hcanonical
    | ok k =>
        rw [hjwk] at hcanonical
        exact congrArg Except.ok (Except.ok.inj hcanonical)
  simp only [canonicalJwk, bind_eq_ok] at hok
  obtain ⟨own, hown, -, -, exact, hexact, -, -, -, -, hpure⟩ := hok
  cases hown
  cases hpure
  obtain ⟨⟨hkty, hcrv⟩, hx, hy⟩ := Pair.exactKey_eq_ok.mp hexact
  obtain rfl := checked_eq_ok.mp hkey
  have hreads := readsJwk_toJs jwk
  show ownValue (presentFields jwk.members) name = ownValue fields name
  simp only [keyNames, List.mem_cons, List.not_mem_nil, or_false] at hname
  rcases hname with rfl | rfl | rfl | rfl
  · rw [hreads.kty, eq_string hkty]
  · rw [hreads.crv, eq_string hcrv]
  · rw [hreads.x, eq_string (Option.filter_eq_some_iff.mp hx).1]
  · rw [hreads.y, eq_string (Option.filter_eq_some_iff.mp hy).1]

/-! ## Registrations and pairs -/

/-- What is returned of a value: its fields but for the kind and the key, the kind or its default,
    and the members of the key. -/
structure Returned (keys : List JsString) (value returned : JsValue) : Prop where
  field : ∀ key ∈ keys, key ≠ Js.lit "kind" → key ≠ Js.lit "pubJwk" →
    returned.get key = value.get key
  kind : returned.get (Js.lit "kind") =
    if isNullish (value.get (Js.lit "kind")) then .string (Js.lit "legitimate")
    else value.get (Js.lit "kind")
  pubJwk : ∀ name ∈ keyNames, (returned.get (Js.lit "pubJwk")).get (Js.lit name) =
    (value.get (Js.lit "pubJwk")).get (Js.lit name)

/-- The fields from which a registration was read. -/
structure RegistrationFields (fields : List (JsString × JsValue)) (r : CanonicalPairRegistration) :
    Prop where
  name : ownValue fields "name" = .string r.name.1
  scope : ownValue fields "scope" = .string r.scope.text
  mode : ownValue fields "mode" = .string r.mode.text
  secretHash : ownValue fields "secretHash" = .string r.secretHash.1
  pubJwk : ∀ name ∈ keyNames,
    r.pubJwk.toJs.get (Js.lit name) = (ownValue fields "pubJwk").get (Js.lit name)
  kind : JsValue.string r.kind.text =
    if isNullish (ownValue fields "kind") then .string (Js.lit "legitimate")
    else ownValue fields "kind"
  expiresAt : ownValue fields "expiresAt" = (r.expiresAt.map SafeNat.toJs).getD .undefined
  maxRequests : ownValue fields "maxRequests" = (r.maxRequests.map SafeNat.toJs).getD .undefined
  canaryClass : ownValue fields "canaryClass" =
    (r.canaryClass.map fun c => JsValue.string c.text).getD .undefined

theorem registrationFields_of {fields : List (JsString × JsValue)} {r : CanonicalPairRegistration}
    (h : normalizeRegistration (.object fields) = .ok r) : RegistrationFields fields r := by
  simp only [normalizeRegistration, bind_eq_ok, pure_eq_ok, found_eq_ok, dataObject_eq_ok] at h
  obtain ⟨own, ⟨hown, -⟩, scopeText, hscopeText, modeText, hmodeText, scope, hscope, mode, hmode,
    kind, hkind, canary, hcanary, canaryClass, hclass, name, hname, secretText, hsecretText,
    pubJwk, hpubJwk, secretHash, hsecretHash, expiresAt, hexpiresAt, maxRequests, hmaxRequests,
    rfl⟩ := h
  cases hown
  have hcanaryClass := checked_eq_ok.mp hclass
  subst hcanaryClass
  exact
    { name := ownValue_of_reqString hname
      scope := (ownValue_of_reqString hscopeText).trans
        (congrArg JsValue.string (text_of_enumOf hscope).symm)
      mode := (ownValue_of_reqString hmodeText).trans
        (congrArg JsValue.string (text_of_enumOf hmode).symm)
      secretHash := (ownValue_of_reqString hsecretText).trans
        (congrArg JsValue.string (checked_eq_ok.mp hsecretHash).symm)
      pubJwk := fun _ hmem => get_of_normalizeJwk hpubJwk hmem
      kind := text_of_kindOf hkind
      expiresAt := ownValue_of_optInt hexpiresAt
      maxRequests := ownValue_of_optInt hmaxRequests
      canaryClass := eq_of_canaryOf hcanary }

theorem registrationFields_of_pairObject {fields : List (JsString × JsValue)}
    {r : CanonicalPairRegistration} (h : registrationFromPairObject fields = .ok r) :
    RegistrationFields fields r := by
  have hnodup : (((["name", "scope", "mode", "secretHash", "pubJwk"] : List String) ++
      ["expiresAt", "maxRequests", "kind", "canaryClass"]).map Js.lit).Nodup := by decide
  have hsame : ∀ {key : String}, key ∈ ["name", "scope", "mode", "secretHash", "pubJwk"] ++
      ["expiresAt", "maxRequests", "kind", "canaryClass"] →
      ownValue (copied fields ["name", "scope", "mode", "secretHash", "pubJwk"]
        ["expiresAt", "maxRequests", "kind", "canaryClass"]) key = ownValue fields key :=
    fun hkey => ownValue_copied hnodup hkey
  have hcopy := registrationFields_of h
  exact
    { name := (hsame (by decide)).symm.trans hcopy.name
      scope := (hsame (by decide)).symm.trans hcopy.scope
      mode := (hsame (by decide)).symm.trans hcopy.mode
      secretHash := (hsame (by decide)).symm.trans hcopy.secretHash
      pubJwk := fun name hmem =>
        (hcopy.pubJwk name hmem).trans (congrArg (JsValue.get · (Js.lit name)) (hsame (by decide)))
      kind := by
        have hkind : ownValue (copied fields _ _) "kind" = _ := hsame (by decide)
        exact hkind ▸ hcopy.kind
      expiresAt := (hsame (by decide)).symm.trans hcopy.expiresAt
      maxRequests := (hsame (by decide)).symm.trans hcopy.maxRequests
      canaryClass := (hsame (by decide)).symm.trans hcopy.canaryClass }

/-- A registration written as an object has the fields it was read from. -/
theorem RegistrationFields.returned {fields own : List (JsString × JsValue)}
    {r : CanonicalPairRegistration} (h : RegistrationFields fields r)
    (hown : ReadsRegistration own r) : Returned regKeys (.object fields) (.object own) where
  field := fun key hkey hkind hjwk => by
    simp only [regKeys, List.mem_cons, List.not_mem_nil, or_false] at hkey
    rcases hkey with rfl | rfl | rfl | rfl | rfl | rfl | rfl | rfl | rfl
    · exact hown.name.trans h.name.symm
    · exact hown.scope.trans h.scope.symm
    · exact hown.mode.trans h.mode.symm
    · exact hown.secretHash.trans h.secretHash.symm
    · exact absurd rfl hjwk
    · exact hown.expiresAt.trans h.expiresAt.symm
    · exact hown.maxRequests.trans h.maxRequests.symm
    · exact absurd rfl hkind
    · exact hown.canaryClass.trans h.canaryClass.symm
  kind := hown.kind.trans h.kind
  pubJwk := fun name hname => by
    obtain ⟨jwk, hjwk, -, hreads⟩ := hown.pubJwk
    show (ownValue own "pubJwk").get (Js.lit name) = _
    rw [hjwk]
    refine Eq.trans ?_ (h.pubJwk name hname)
    have hwritten := readsJwk_toJs r.pubJwk
    show ownValue jwk name = ownValue (presentFields r.pubJwk.members) name
    simp only [keyNames, List.mem_cons, List.not_mem_nil, or_false] at hname
    rcases hname with rfl | rfl | rfl | rfl
    · exact hreads.kty.trans hwritten.kty.symm
    · exact hreads.crv.trans hwritten.crv.symm
    · exact hreads.x.trans hwritten.x.symm
    · exact hreads.y.trans hwritten.y.symm

/-- **A normalized registration** has the fields of the value. -/
theorem normalizeRegistration_returned {value : JsValue} {r : CanonicalPairRegistration}
    (h : normalizeRegistration value = .ok r) : Returned regKeys value r.toJs := by
  have hobject : ∃ fields, value = .object fields := by
    simp only [normalizeRegistration, bind_eq_ok, dataObject_eq_ok] at h
    obtain ⟨fields, ⟨hvalue, -⟩, -⟩ := h
    exact ⟨fields, hvalue⟩
  obtain ⟨fields, rfl⟩ := hobject
  exact (registrationFields_of h).returned (readsRegistration_toJs r)

/-- **A normalized pair** has the fields of the value, and a decimal for its failure score. -/
theorem normalizePair_returned {value : JsValue} {p : CanonicalStoredPair}
    (h : normalizePair value true = .ok p) : Returned pairKeys value p.toJs := by
  simp only [normalizePair, bind_eq_ok, pure_eq_ok, found_eq_ok, dataObject_eq_ok] at h
  obtain ⟨fields, ⟨rfl, -⟩, reg, hreg, idText, hidText, statusText, hstatusText, id, hid, status,
    hstatus, lastActive, hlastActive, firstFailureAt, hfirst, score, hscore, created, hcreated,
    requests, hrequests, failedSigs, hfailedSigs, rfl⟩ := h
  have hread := readsPair_toJs
    { toCanonicalPairRegistration := reg, id, status, created, lastActive, requests, failedSigs,
      cumulativeFailures := score, firstFailureAt }
  have hregistration := (registrationFields_of_pairObject hreg).returned hread.registration
  refine ⟨fun key hkey hkind hjwk => ?_, hregistration.kind, hregistration.pubJwk⟩
  by_cases hreg : key ∈ regKeys
  · exact hregistration.field key hreg hkind hjwk
  · have hown : key ∈ ["id", "status", "created", "lastActive", "requests", "failedSigs",
        "cumulativeFailures", "firstFailureAt"].map Js.lit := by
      have hall : ∀ k ∈ pairKeys, k ∉ regKeys → k ∈ ["id", "status", "created", "lastActive",
        "requests", "failedSigs", "cumulativeFailures", "firstFailureAt"].map Js.lit := by decide
      exact hall key hkey hreg
    simp only [List.map_cons, List.map_nil, List.mem_cons, List.not_mem_nil, or_false] at hown
    rcases hown with rfl | rfl | rfl | rfl | rfl | rfl | rfl | rfl
    · exact hread.id.trans
        ((ownValue_of_reqString hidText).trans (congrArg JsValue.string (checked_eq_ok.mp hid).symm)).symm
    · exact hread.status.trans ((ownValue_of_reqString hstatusText).trans
        (congrArg JsValue.string (text_of_enumOf hstatus).symm)).symm
    · exact hread.created.trans (ownValue_of_reqInt hcreated).symm
    · exact hread.lastActive.trans (eq_nullableNat hlastActive).symm
    · exact hread.requests.trans (ownValue_of_reqInt hrequests).symm
    · exact hread.failedSigs.trans (ownValue_of_reqInt hfailedSigs).symm
    · exact hread.cumulativeFailures.trans (eq_of_scoreOf hscore).symm
    · exact hread.firstFailureAt.trans (eq_of_firstFailureOf hfirst).symm

theorem scored_of_normalizePair {value : JsValue} {p : CanonicalStoredPair}
    (h : normalizePair value true = .ok p) : p.Scored := by
  simp only [normalizePair, bind_eq_ok, pure_eq_ok] at h
  obtain ⟨fields, -, reg, -, -, -, -, -, id, -, status, -, lastActive, -, firstFailureAt, -, score,
    hscore, created, -, requests, -, failedSigs, -, rfl⟩ := h
  rw [eq_of_scoreOf hscore] at hscore
  exact (scoreOf_eq_ok.mp hscore).2

end Durable
