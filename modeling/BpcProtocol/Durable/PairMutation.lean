import BpcProtocol.Durable.PairTables

set_option autoImplicit false

/-! # Pair mutations

The mutations that the source appends to its outbox, the form they are stored in, and
`PgPairMutationApplier.applyInTx`, which applies them to the tables of a replica. -/

namespace Durable

open Ha Fallible Relational
open Pair (stringOf present presentFields)

/-! ## Mutations -/

/-- `BpcPairMutation`. -/
inductive BpcPairMutation where
  | pairSet (pairId : PairId) (sealed : SealedPairPayload)
  | pairDelete (pairId : PairId)
  | pendingSet (token : Bounded 256) (requestedAt : SafeNat) (sealed : SealedPairPayload)
  | pendingDelete (token : Bounded 256)
  | pairApprove (token : Bounded 256) (requestedAt : SafeNat) (expectedPending : SealedPairPayload)
      (pairId : PairId) (sealed : SealedPairPayload)
  | pairRotate (oldPairId : PairId) (expectedOld : SealedPairPayload) (newPairId : PairId)
      (sealed : SealedPairPayload)
  deriving DecidableEq

namespace BpcPairMutation

def kind : BpcPairMutation → MutationKind
  | pairSet _ _ => .pairSet
  | pairDelete _ => .pairDelete
  | pendingSet _ _ _ => .pendingSet
  | pendingDelete _ => .pendingDelete
  | pairApprove _ _ _ _ _ => .pairApprove
  | pairRotate _ _ _ _ => .pairRotate

/-- The members beside the kind. -/
def arguments : BpcPairMutation → List (String × JsValue)
  | pairSet pairId payload => [("pairId", .string pairId.1), ("sealed", payload.toJs)]
  | pairDelete pairId => [("pairId", .string pairId.1)]
  | pendingSet token requestedAt payload =>
      [("token", .string token.1), ("requestedAt", requestedAt.toJs), ("sealed", payload.toJs)]
  | pendingDelete token => [("token", .string token.1)]
  | pairApprove token requestedAt expectedPending pairId payload =>
      [("token", .string token.1), ("requestedAt", requestedAt.toJs),
        ("expectedPending", expectedPending.toJs), ("pairId", .string pairId.1),
        ("sealed", payload.toJs)]
  | pairRotate oldPairId expectedOld newPairId payload =>
      [("oldPairId", .string oldPairId.1), ("expectedOld", expectedOld.toJs),
        ("newPairId", .string newPairId.1), ("sealed", payload.toJs)]

def members (m : BpcPairMutation) : List (String × Option JsValue) :=
  ("kind", some (.string m.kind.text)) :: m.arguments.map fun f => (f.1, some f.2)

def toJs (m : BpcPairMutation) : JsValue :=
  present m.members

end BpcPairMutation

/-! ## Normalization -/

/-- The keys that a mutation may have. -/
def mutationKeys : List JsString :=
  [Js.lit "kind", Js.lit "pairId", Js.lit "token", Js.lit "requestedAt", Js.lit "sealed",
    Js.lit "expectedPending", Js.lit "oldPairId", Js.lit "expectedOld", Js.lit "newPairId"]

section Fields

variable (root : List (JsString × JsValue))

/-- The identity of a pair under a key of a mutation. -/
def reqPairId (key message : String) : Except HaError PairId := do
  let id ← reqString root key "pair mutation" 64
  checked id.1 message

/-- The sealed payload under a key. -/
def reqSealed (key : String) : Except HaError SealedPairPayload :=
  normalizeSealed (ownValue root key)

/-- The pairs of a rotation, checked together. -/
def reqRotated : Except HaError (PairId × PairId) := do
  let oldPairId ← reqString root "oldPairId" "pair mutation" 64
  let newPairId ← reqString root "newPairId" "pair mutation" 64
  let oldId : PairId ← checked oldPairId.1 "rotation identities invalid"
  let newId : PairId ← checked newPairId.1 "rotation identities invalid"
  ensure (oldPairId.1 ≠ newPairId.1) "rotation identities invalid"
  pure (oldId, newId)

/-- The mutation of a kind that the properties make. -/
def mutationOf : MutationKind → Except HaError BpcPairMutation
  | .pairSet => do
      ensure (root.length = 3) "pair.set shape is invalid"
      let pairId ← reqPairId root "pairId" "pairId invalid"
      let payload ← reqSealed root "sealed"
      pure (.pairSet pairId payload)
  | .pairDelete => do
      ensure (root.length = 2) "pair.delete shape is invalid"
      let pairId ← reqPairId root "pairId" "pairId invalid"
      pure (.pairDelete pairId)
  | .pendingSet => do
      ensure (root.length = 4) "pending.set shape is invalid"
      let token ← reqString root "token" "pair mutation" 256
      let requestedAt ← reqInt root "requestedAt" "pair mutation"
      let payload ← reqSealed root "sealed"
      pure (.pendingSet token requestedAt payload)
  | .pendingDelete => do
      ensure (root.length = 2) "pending.delete shape is invalid"
      let token ← reqString root "token" "pair mutation" 256
      pure (.pendingDelete token)
  | .pairApprove => do
      ensure (root.length = 6) "pair.approve shape is invalid"
      let pairId ← reqPairId root "pairId" "pairId invalid"
      let token ← reqString root "token" "pair mutation" 256
      let requestedAt ← reqInt root "requestedAt" "pair mutation"
      let expectedPending ← reqSealed root "expectedPending"
      let payload ← reqSealed root "sealed"
      pure (.pairApprove token requestedAt expectedPending pairId payload)
  | .pairRotate => do
      ensure (root.length = 5) "pair.rotate shape is invalid"
      let ids ← reqRotated root
      let expectedOld ← reqSealed root "expectedOld"
      let payload ← reqSealed root "sealed"
      pure (.pairRotate ids.1 expectedOld ids.2 payload)

end Fields

/-- `normalizeMutation(value)`. -/
def normalizeMutation (value : JsValue) : Except HaError BpcPairMutation := do
  let root ← dataObject value mutationKeys "pair mutation"
  let kind ← found ((stringOf (ownValue root "kind")).bind (enumOf mutationKinds MutationKind.text))
    "unknown pair mutation kind"
  mutationOf root kind

/-- `bpcPairMutationSanitizer.sanitize`. -/
def sanitizeMutation (value : JsValue) : Except HaError JsValue :=
  BpcPairMutation.toJs <$> normalizeMutation value

/-! ## What is normalized -/

namespace BpcPairMutation

/-- The payloads can be sealed payloads, and a rotation is between two pairs. -/
def Accepted : BpcPairMutation → Prop
  | pairSet _ payload => payload.Accepted
  | pairDelete _ => True
  | pendingSet _ _ payload => payload.Accepted
  | pendingDelete _ => True
  | pairApprove _ _ expectedPending _ payload => expectedPending.Accepted ∧ payload.Accepted
  | pairRotate oldPairId expectedOld newPairId payload =>
      oldPairId.1 ≠ newPairId.1 ∧ expectedOld.Accepted ∧ payload.Accepted

end BpcPairMutation

/-- Two values from which the same is normalized: the payloads may differ in the order of their
    keys. -/
def SameField (v w : JsValue) : Prop :=
  v = w ∨ v = sortKeys w

/-- Properties from which a mutation is read. -/
structure ReadsMutation (root : List (JsString × JsValue)) (m : BpcPairMutation) : Prop where
  keys : ∀ f ∈ root, f.1 ∈ mutationKeys
  length : root.length = m.arguments.length + 1
  kind : ownValue root "kind" = .string m.kind.text
  arguments : ∀ f ∈ m.arguments, SameField (ownValue root f.1) f.2

theorem sameField_string {v : JsValue} {s : JsString} (h : SameField v (.string s)) :
    v = .string s :=
  h.elim id id

theorem sameField_nat {v : JsValue} {n : SafeNat} (h : SameField v n.toJs) : v = n.toJs :=
  h.elim id id

theorem sameField_sealed {v : JsValue} {s t : SealedPairPayload} (h : SameField v s.toJs) :
    normalizeSealed v = .ok t ↔ t = s ∧ s.Accepted := by
  rcases h with rfl | rfl
  · exact normalizeSealed_toJs
  · exact normalizeSealed_sortKeys

theorem length_pairId (id : PairId) : 1 ≤ id.1.length ∧ id.1.length ≤ 64 := by
  have hid := id.2
  simp only [pairIdPattern, Js.classPattern, Bool.and_eq_true, decide_eq_true_eq] at hid
  exact hid.1

theorem reqPairId_of {root : List (JsString × JsValue)} {key message : String} {id : PairId}
    (h : ownValue root key = .string id.1) : reqPairId root key message = .ok id := by
  have hstring : reqString root key "pair mutation" 64 = .ok ⟨id.1, length_pairId id⟩ :=
    reqString_of h
  rw [reqPairId, hstring]
  exact checked_val id message

theorem reqSealed_of {root : List (JsString × JsValue)} {key : String}
    {s t : SealedPairPayload} (h : SameField (ownValue root key) s.toJs) :
    reqSealed root key = .ok t ↔ t = s ∧ s.Accepted :=
  sameField_sealed h

theorem reqRotated_of {root : List (JsString × JsValue)} {oldId newId : PairId}
    (hold : ownValue root "oldPairId" = .string oldId.1)
    (hnew : ownValue root "newPairId" = .string newId.1) {ids : PairId × PairId} :
    reqRotated root = .ok ids ↔ ids = (oldId, newId) ∧ oldId.1 ≠ newId.1 := by
  have hreadOld : reqString root "oldPairId" "pair mutation" 64 =
      .ok ⟨oldId.1, length_pairId oldId⟩ := reqString_of hold
  have hreadNew : reqString root "newPairId" "pair mutation" 64 =
      .ok ⟨newId.1, length_pairId newId⟩ := reqString_of hnew
  have hchecked : ∀ id : PairId, (checked id.1 "rotation identities invalid" :
      Except HaError PairId) = .ok id := fun id => checked_val id _
  simp only [reqRotated, hreadOld, hreadNew, ok_bind, hchecked, bind_eq_ok, ensure_eq_ok,
    exists_unit, pure_eq_ok]
  constructor
  · rintro ⟨hne, rfl⟩
    exact ⟨rfl, hne⟩
  · rintro ⟨rfl, hne⟩
    exact ⟨hne, rfl⟩

/-- **What is normalized from properties from which a mutation is read** is that mutation. -/
theorem normalizeMutation_of {root : List (JsString × JsValue)} {m n : BpcPairMutation}
    (h : ReadsMutation root m) :
    normalizeMutation (.object root) = .ok n ↔ n = m ∧ m.Accepted := by
  have hkind : (stringOf (ownValue root "kind")).bind (enumOf mutationKinds MutationKind.text) =
      some m.kind := by
    rw [h.kind]
    exact enumOf_mutationKind m.kind
  have hroot : normalizeMutation (.object root) = mutationOf root m.kind := by
    have hdata : dataObject (.object root) mutationKeys "pair mutation" = .ok root :=
      dataObject_eq_ok.mpr ⟨rfl, h.keys⟩
    rw [normalizeMutation, hdata, ok_bind, hkind]
    rfl
  have hlength := h.length
  have hargs := h.arguments
  rw [hroot]
  cases m with
  | pairSet pairId payload =>
      simp only [BpcPairMutation.arguments, List.forall_mem_cons, List.not_mem_nil, false_implies,
        implies_true, and_true] at hargs
      obtain ⟨hid, hsealed⟩ := hargs
      have hlen : root.length = 3 := hlength
      simp only [BpcPairMutation.kind, mutationOf, hlen, reqPairId_of (sameField_string hid),
        bind_eq_ok, ensure_eq_ok, exists_unit, pure_eq_ok, reqSealed_of hsealed]
      constructor
      · rintro ⟨-, _, ⟨⟩, _, ⟨rfl, haccepted⟩, rfl⟩
        exact ⟨rfl, haccepted⟩
      · rintro ⟨rfl, haccepted⟩
        exact ⟨trivial, pairId, rfl, payload, ⟨rfl, haccepted⟩, rfl⟩
  | pairDelete pairId =>
      simp only [BpcPairMutation.arguments, List.forall_mem_cons, List.not_mem_nil, false_implies,
        implies_true, and_true] at hargs
      have hlen : root.length = 2 := hlength
      simp only [BpcPairMutation.kind, mutationOf, hlen, reqPairId_of (sameField_string hargs),
        bind_eq_ok, ensure_eq_ok, exists_unit, pure_eq_ok]
      constructor
      · rintro ⟨-, _, ⟨⟩, rfl⟩
        exact ⟨rfl, trivial⟩
      · rintro ⟨rfl, -⟩
        exact ⟨trivial, pairId, rfl, rfl⟩
  | pendingSet token requestedAt payload =>
      simp only [BpcPairMutation.arguments, List.forall_mem_cons, List.not_mem_nil, false_implies,
        implies_true, and_true] at hargs
      obtain ⟨htoken, hat, hsealed⟩ := hargs
      have hlen : root.length = 4 := hlength
      simp only [BpcPairMutation.kind, mutationOf, hlen, reqString_of (sameField_string htoken),
        reqInt_of (sameField_nat hat), bind_eq_ok, ensure_eq_ok, exists_unit, pure_eq_ok,
        reqSealed_of hsealed]
      constructor
      · rintro ⟨-, _, ⟨⟩, _, ⟨⟩, _, ⟨rfl, haccepted⟩, rfl⟩
        exact ⟨rfl, haccepted⟩
      · rintro ⟨rfl, haccepted⟩
        exact ⟨trivial, token, rfl, requestedAt, rfl, payload, ⟨rfl, haccepted⟩, rfl⟩
  | pendingDelete token =>
      simp only [BpcPairMutation.arguments, List.forall_mem_cons, List.not_mem_nil, false_implies,
        implies_true, and_true] at hargs
      have hlen : root.length = 2 := hlength
      simp only [BpcPairMutation.kind, mutationOf, hlen, reqString_of (sameField_string hargs),
        bind_eq_ok, ensure_eq_ok, exists_unit, pure_eq_ok]
      constructor
      · rintro ⟨-, _, ⟨⟩, rfl⟩
        exact ⟨rfl, trivial⟩
      · rintro ⟨rfl, -⟩
        exact ⟨trivial, token, rfl, rfl⟩
  | pairApprove token requestedAt expectedPending pairId payload =>
      simp only [BpcPairMutation.arguments, List.forall_mem_cons, List.not_mem_nil, false_implies,
        implies_true, and_true] at hargs
      obtain ⟨htoken, hat, hpending, hid, hsealed⟩ := hargs
      have hlen : root.length = 6 := hlength
      simp only [BpcPairMutation.kind, mutationOf, hlen, reqPairId_of (sameField_string hid),
        reqString_of (sameField_string htoken), reqInt_of (sameField_nat hat), bind_eq_ok,
        ensure_eq_ok, exists_unit, pure_eq_ok, reqSealed_of hpending, reqSealed_of hsealed]
      constructor
      · rintro ⟨-, _, ⟨⟩, _, ⟨⟩, _, ⟨⟩, _, ⟨rfl, hpendingOk⟩, _, ⟨rfl, hsealedOk⟩, rfl⟩
        exact ⟨rfl, hpendingOk, hsealedOk⟩
      · rintro ⟨rfl, hpendingOk, hsealedOk⟩
        exact ⟨trivial, pairId, rfl, token, rfl, requestedAt, rfl, expectedPending,
          ⟨rfl, hpendingOk⟩, payload, ⟨rfl, hsealedOk⟩, rfl⟩
  | pairRotate oldPairId expectedOld newPairId payload =>
      simp only [BpcPairMutation.arguments, List.forall_mem_cons, List.not_mem_nil, false_implies,
        implies_true, and_true] at hargs
      obtain ⟨hold, hexpected, hnew, hsealed⟩ := hargs
      have hlen : root.length = 5 := hlength
      simp only [BpcPairMutation.kind, mutationOf, hlen,
        reqRotated_of (sameField_string hold) (sameField_string hnew), bind_eq_ok, ensure_eq_ok,
        exists_unit, pure_eq_ok, reqSealed_of hexpected, reqSealed_of hsealed]
      constructor
      · rintro ⟨-, _, ⟨rfl, hne⟩, _, ⟨rfl, hexpectedOk⟩, _, ⟨rfl, hsealedOk⟩, rfl⟩
        exact ⟨rfl, hne, hexpectedOk, hsealedOk⟩
      · rintro ⟨rfl, hne, hexpectedOk, hsealedOk⟩
        exact ⟨trivial, (oldPairId, newPairId), ⟨rfl, hne⟩, expectedOld, ⟨rfl, hexpectedOk⟩, payload,
          ⟨rfl, hsealedOk⟩, rfl⟩

/-! ## Mutations as they are written and stored -/

/-- The names of the members of a mutation. -/
def memberNames : MutationKind → List String
  | .pairSet => ["kind", "pairId", "sealed"]
  | .pairDelete => ["kind", "pairId"]
  | .pendingSet => ["kind", "token", "requestedAt", "sealed"]
  | .pendingDelete => ["kind", "token"]
  | .pairApprove => ["kind", "token", "requestedAt", "expectedPending", "pairId", "sealed"]
  | .pairRotate => ["kind", "oldPairId", "expectedOld", "newPairId", "sealed"]

theorem names_mutation (m : BpcPairMutation) : m.members.map Prod.fst = memberNames m.kind := by
  cases m <;> rfl

theorem memberNames_spec (kind : MutationKind) :
    ((memberNames kind).map Js.lit).Nodup ∧ ∀ name ∈ memberNames kind, Js.lit name ∈ mutationKeys := by
  cases kind <;> decide

theorem nodup_mutation (m : BpcPairMutation) : (m.members.map fun f => Js.lit f.1).Nodup := by
  have hnodup := (memberNames_spec m.kind).1
  rw [← names_mutation, List.map_map] at hnodup
  exact hnodup

theorem readsMutation_toJs (m : BpcPairMutation) : ReadsMutation (presentFields m.members) m := by
  have hread := fun {name : String} {v : JsValue} (hmem : (name, some v) ∈ m.members) =>
    ownValue_presentFields (nodup_mutation m) hmem
  constructor
  · intro f hf
    have hkey := (Pair.keys_presentFields_sublist m.members).subset (List.mem_map_of_mem hf)
    obtain ⟨g, hg, hgf⟩ := List.mem_map.mp hkey
    rw [← hgf]
    refine (memberNames_spec m.kind).2 g.1 ?_
    rw [← names_mutation]
    exact List.mem_map_of_mem hg
  · cases m <;> rfl
  · exact hread List.mem_cons_self
  · intro f hf
    exact .inl (hread (List.mem_cons_of_mem _ (List.mem_map_of_mem hf)))

theorem ReadsMutation.sorted {root : List (JsString × JsValue)} {m : BpcPairMutation}
    (hnodup : (root.map Prod.fst).Nodup) (h : ReadsMutation root m)
    (hplain : ∀ f ∈ m.arguments, ownValue root f.1 = f.2) : ReadsMutation (sortedFields root) m := by
  constructor
  · intro f hf
    have hkey := (keys_sortedFields root).mem_iff.mp (List.mem_map_of_mem hf)
    obtain ⟨g, hg, hgf⟩ := List.mem_map.mp hkey
    exact hgf ▸ h.keys g hg
  · exact (length_sortedFields root).trans h.length
  · rw [ownValue_sortedFields hnodup, h.kind]
    rfl
  · intro f hf
    rw [ownValue_sortedFields hnodup, hplain f hf]
    exact .inr rfl

/-- A mutation is normalized to itself. -/
theorem normalizeMutation_toJs {m n : BpcPairMutation} :
    normalizeMutation m.toJs = .ok n ↔ n = m ∧ m.Accepted :=
  normalizeMutation_of (readsMutation_toJs m)

/-- So is the form that it is stored in. -/
theorem normalizeMutation_sortKeys {m n : BpcPairMutation} :
    normalizeMutation (sortKeys m.toJs) = .ok n ↔ n = m ∧ m.Accepted := by
  show normalizeMutation (sortKeys (.object (presentFields m.members))) = .ok n ↔ _
  rw [sortKeys_object]
  refine normalizeMutation_of ((readsMutation_toJs m).sorted
    ((nodup_mutation m).sublist (Pair.keys_presentFields_sublist m.members)) fun f hf => ?_)
  exact ownValue_presentFields (nodup_mutation m)
    (List.mem_cons_of_mem _ (List.mem_map_of_mem hf))

theorem distinctKeys_sealed (s : SealedPairPayload) : s.toJs.DistinctKeys :=
  distinctKeys_present (nodup_sealed s)
    (Flat.string (Flat.string (Flat.string (Flat.string (Flat.string Flat.nil)))))

theorem distinctKeys_mutation (m : BpcPairMutation) : m.toJs.DistinctKeys := by
  refine distinctKeys_present (nodup_mutation m) (Flat.string fun name v hmem => ?_)
  obtain ⟨f, hf, heq⟩ := List.mem_map.mp hmem
  cases heq
  cases m with
  | pairSet pairId payload =>
      simp only [BpcPairMutation.arguments, List.mem_cons, List.not_mem_nil, or_false] at hf
      rcases hf with rfl | rfl
      · exact .string _
      · exact distinctKeys_sealed _
  | pairDelete pairId =>
      simp only [BpcPairMutation.arguments, List.mem_cons, List.not_mem_nil, or_false] at hf
      subst hf
      exact .string _
  | pendingSet token requestedAt payload =>
      simp only [BpcPairMutation.arguments, List.mem_cons, List.not_mem_nil, or_false] at hf
      rcases hf with rfl | rfl | rfl
      · exact .string _
      · exact .number _
      · exact distinctKeys_sealed _
  | pendingDelete token =>
      simp only [BpcPairMutation.arguments, List.mem_cons, List.not_mem_nil, or_false] at hf
      subst hf
      exact .string _
  | pairApprove token requestedAt expectedPending pairId payload =>
      simp only [BpcPairMutation.arguments, List.mem_cons, List.not_mem_nil, or_false] at hf
      rcases hf with rfl | rfl | rfl | rfl | rfl
      · exact .string _
      · exact .number _
      · exact distinctKeys_sealed _
      · exact .string _
      · exact distinctKeys_sealed _
  | pairRotate oldPairId expectedOld newPairId payload =>
      simp only [BpcPairMutation.arguments, List.mem_cons, List.not_mem_nil, or_false] at hf
      rcases hf with rfl | rfl | rfl | rfl
      · exact .string _
      · exact distinctKeys_sealed _
      · exact .string _
      · exact distinctKeys_sealed _

/-! ## Applying -/

/-- `PgPairMutationApplier`: the stream and the codec under its keyring. -/
structure PgPairMutationApplier where
  streamId : JsString
  codec : PairPayloadCodec

namespace PgPairMutationApplier

variable (applier : PgPairMutationApplier)

/-- The associated data of a pair in a mutation of a kind. -/
def pairAad (kind : MutationKind) (pairId : PairId) : PairSetAad :=
  { streamId := applier.streamId, kind, pairId := pairId.1 }

/-- The associated data of a registration. -/
def pendingAad (kind : MutationKind) (token : Bounded 256) (requestedAt : SafeNat) :
    PendingSetAad :=
  { streamId := applier.streamId, kind, token := token.1, requestedAt }

/-- The registration that is pending is the one that the mutation expects. -/
def checkPending (db : PairTables) (token : Bounded 256) (requestedAt : SafeNat)
    (pending : CanonicalPairRegistration) : Except HaError Unit := do
  let row ← found (db.pendingOf token.1) "replica pending approval precondition failed"
  ensure (row.requestedAt = (requestedAt.1 : ℤ)) "replica pending approval precondition failed"
  let registration ← normalizeRegistration row.registration
  let same ← sameCanonical registration.toJs pending.toJs
  ensure (same = true) "replica pending approval precondition failed"

/-- The pair that is stored is the one that the mutation expects. -/
def checkOld (db : PairTables) (oldPairId : PairId) (expected : CanonicalStoredPair) :
    Except HaError Unit := do
  let row ← found (db.pairOf oldPairId.1) "replica rotation precondition failed"
  let stored ← rowToPair row
  let current ← normalizePair stored.toJs false
  let same ← sameCanonical current.toJs expected.toJs
  ensure (same = true) "replica rotation precondition failed"

/-- `case 'bpc.pair.approve.v1'`. -/
def applyApprove (db : PairTables) (token : Bounded 256) (requestedAt : SafeNat)
    (expectedPending : SealedPairPayload) (pairId : PairId) (payload : SealedPairPayload) :
    Except HaError PairTables := do
  let pending ← applier.codec.openRegistration expectedPending
    (applier.pendingAad .pairApprove token requestedAt)
  let approved ← applier.codec.openPair payload (applier.pairAad .pairApprove pairId)
  ensure (approved.id.1 = pairId.1) "replica approval envelope identity mismatch"
  assertApprovalPair pending approved
  checkPending db token requestedAt pending
  ensure (db.pairOf pairId.1 = none) "replica approval pair identity already exists"
  let db ← db.deleteApproved token.1 requestedAt "replica pending approval delete"
  db.insertPair approved

/-- `case 'bpc.pair.rotate.v1'`. -/
def applyRotate (db : PairTables) (oldPairId : PairId) (expectedOld : SealedPairPayload)
    (newPairId : PairId) (payload : SealedPairPayload) : Except HaError PairTables := do
  let expected ← applier.codec.openPair expectedOld (applier.pairAad .pairRotate oldPairId)
  let replacement ← applier.codec.openPair payload (applier.pairAad .pairRotate newPairId)
  ensure (expected.id.1 = oldPairId.1 ∧ replacement.id.1 = newPairId.1 ∧
      expected.status = .active ∧ Pair.hasInitialPairState replacement.toStored = true ∧
      Pair.rotationPolicyMatches expected.toStored replacement.toStored = true)
    "replica rotation identity/state/policy inheritance failed"
  checkOld db oldPairId expected
  ensure (db.pairOf newPairId.1 = none) "replica rotation pair identity already exists"
  let db ← db.upsertPair { expected with status := .rotated }
  db.insertPair replacement

/-- What each kind of mutation does to the tables. -/
def applyMutation (db : PairTables) : BpcPairMutation → Except HaError PairTables
  | .pairSet pairId payload => do
      let pair ← applier.codec.openPair payload (applier.pairAad .pairSet pairId)
      db.upsertPair pair
  | .pairDelete pairId => db.deletePair pairId.1
  | .pendingSet token requestedAt payload => do
      let registration ← applier.codec.openRegistration payload
        (applier.pendingAad .pendingSet token requestedAt)
      db.upsertPending token.1 registration requestedAt
  | .pendingDelete token => db.deletePending token.1
  | .pairApprove token requestedAt expectedPending pairId payload =>
      applier.applyApprove db token requestedAt expectedPending pairId payload
  | .pairRotate oldPairId expectedOld newPairId payload =>
      applier.applyRotate db oldPairId expectedOld newPairId payload

/-- `applyInTx(exec, record)`. -/
def applyInTx (db : PairTables) (record : OutboxRecord) : Except HaError PairTables := do
  ensure (record.streamId = applier.streamId) "pair mutation stream mismatch"
  let mutation ← normalizeMutation record.mutation
  applier.applyMutation db mutation

end PgPairMutationApplier

end Durable
