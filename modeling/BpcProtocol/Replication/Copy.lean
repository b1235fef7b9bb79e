import BpcProtocol.Js.Ascii
import BpcProtocol.Js.JsonParsed
import BpcProtocol.Replication.Mirror

set_option autoImplicit false

/-! # What the signature covers

Signature and digest are computed of a copy with sorted keys, and the operation is applied as it was
parsed. The copy has no member named `__proto__`, and its text has `null` for an infinite number: what
two operations differ in elsewhere, they are told apart by. -/

namespace Replication

open Js (Json ownLe sortOwn image imageItems imageFields Genuine)

/-! ## The copy -/

mutual

/-- What the copy keeps of a value. -/
def kept : JsValue → JsValue
  | .number n => if n.isFinite then .number n else .null
  | .array items => .array (keptItems items)
  | .object fields => .object (keptFields fields)
  | v => v

def keptItems : List JsValue → List JsValue
  | [] => []
  | v :: rest => kept v :: keptItems rest

def keptFields : List (JsString × JsValue) → List (JsString × JsValue)
  | [] => []
  | (k, v) :: rest =>
      if k = Js.lit "__proto__" then keptFields rest else (k, kept v) :: keptFields rest

end

/-- The members that the copy keeps. -/
def keptMembers (fields : List (JsString × JsValue)) : List (JsString × JsValue) :=
  fields.filter fun f => decide (f.1 ≠ Js.lit "__proto__")

theorem keptItems_eq (items : List JsValue) : keptItems items = items.map kept := by
  induction items with
  | nil => rfl
  | cons v rest ih => rw [keptItems, ih, List.map_cons]

theorem keptFields_eq (fields : List (JsString × JsValue)) :
    keptFields fields = (keptMembers fields).map fun f => (f.1, kept f.2) := by
  induction fields with
  | nil => rfl
  | cons f rest ih =>
      rw [keptFields, ih, keptMembers, keptMembers]
      by_cases hk : f.1 = Js.lit "__proto__"
      · rw [if_pos hk, List.filter_cons_of_neg (by simpa using hk)]
      · rw [if_neg hk, List.filter_cons_of_pos (by simpa using hk), List.map_cons]

theorem sortItems_eq (items : List JsValue) : sortItems items = items.map sortValue := by
  induction items with
  | nil => rfl
  | cons v rest ih => rw [sortItems, ih, List.map_cons]

theorem sortFields_eq (fields : List (JsString × JsValue)) :
    sortFields fields = (keptMembers fields).map fun f => (f.1, sortValue f.2) := by
  induction fields with
  | nil => rfl
  | cons f rest ih =>
      rw [sortFields, ih, keptMembers, keptMembers]
      by_cases hk : f.1 = Js.lit "__proto__"
      · rw [if_pos hk, List.filter_cons_of_neg (by simpa using hk)]
      · rw [if_neg hk, List.filter_cons_of_pos (by simpa using hk), List.map_cons]

theorem mem_of_keptMembers {fields : List (JsString × JsValue)} {f : JsString × JsValue}
    (h : f ∈ keptMembers fields) : f ∈ fields :=
  List.mem_of_mem_filter h

theorem nodup_keptMembers {fields : List (JsString × JsValue)} (h : (fields.map Prod.fst).Nodup) :
    ((keptMembers fields).map Prod.fst).Nodup :=
  h.sublist (List.filter_sublist.map Prod.fst)

theorem json_kept {v : JsValue} (h : Json v) : Json (kept v) := by
  induction h with
  | null => exact .null
  | bool b => exact .bool b
  | number hn hdouble =>
      rw [kept]
      split
      · exact .number hn hdouble
      · exact .null
  | string s => exact .string s
  | @array items _ ih =>
      rw [kept, keptItems_eq]
      refine .array fun w hw => ?_
      obtain ⟨v, hv, rfl⟩ := List.mem_map.mp hw
      exact ih v hv
  | @object fields hnodup _ ih =>
      rw [kept, keptFields_eq]
      refine .object ?_ fun g hg => ?_
      · rw [List.map_map]
        exact nodup_keptMembers hnodup
      · obtain ⟨f, hf, rfl⟩ := List.mem_map.mp hg
        exact ih f (mem_of_keptMembers hf)

theorem genuine_sortValue {v : JsValue} (h : Json v) : Genuine (sortValue v) := by
  induction h with
  | null => exact .null
  | bool b => exact .bool b
  | number _ hdouble => exact .number hdouble
  | string s => exact .string s
  | @array items _ ih =>
      rw [sortValue, sortItems_eq]
      refine .array fun w hw => ?_
      obtain ⟨v, hv, rfl⟩ := List.mem_map.mp hw
      exact ih v hv
  | @object fields hnodup _ ih =>
      rw [sortValue, sortFields_eq]
      refine .object ?_ fun g hg => ?_
      · refine (((List.perm_insertionSort ownLe _).map Prod.fst).nodup_iff).mpr ?_
        rw [List.map_map]
        exact nodup_keptMembers hnodup
      · obtain ⟨f, hf, rfl⟩ := List.mem_map.mp ((List.mem_insertionSort ownLe).mp hg)
        exact ih f (mem_of_keptMembers hf)

/-- What comes back of the copy is what it keeps, in one order. -/
theorem image_sortValue {v : JsValue} (h : Json v) : image (sortValue v) = some (sortOwn (kept v)) := by
  induction h with
  | null => rfl
  | bool b => rfl
  | @number n _ _ =>
      rw [sortValue, image, kept]
      · split
        · rfl
        · rfl
      · simp
      · simp
  | string s => rfl
  | @array items _ ih =>
      rw [sortValue, sortItems_eq, image, Js.imageItems_map ih, kept, keptItems_eq, Js.sortOwn_array,
        List.map_map]
      rfl
  | @object fields _ _ ih =>
      have hmembers : ∀ f ∈ (keptMembers fields).insertionSort ownLe,
          image (sortValue f.2) = some (sortOwn (kept f.2)) :=
        fun f hf => ih f (mem_of_keptMembers ((List.mem_insertionSort ownLe).mp hf))
      have hcopied := Js.imageFields_map (g := fun v => sortOwn (kept v)) hmembers
      rw [sortValue, sortFields_eq, Js.insertionSort_map, image, hcopied, kept, keptFields_eq,
        Js.sortOwn_object, List.map_map]
      have hsort := Js.insertionSort_map (fun v => sortOwn (kept v)) (keptMembers fields)
      exact congrArg (some ∘ JsValue.object) hsort.symm

/-! ## Its text -/

theorem stringify_sortValue {v : JsValue} (h : Json v) :
    Js.stringify (sortValue v) = some (canonicalJson v) := by
  cases htext : Js.stringify (sortValue v) with
  | none =>
      have hnone := (Js.stringify_eq_none _).mp htext
      rw [image_sortValue h] at hnone
      cases hnone
  | some t => rw [canonicalJson, htext, Option.getD_some]

theorem canonicalJson_wellFormed {v : JsValue} (h : Json v) : Js.WellFormed (canonicalJson v) :=
  Js.stringify_wellFormed (stringify_sortValue h)

/-- The text of the copy tells apart what the copy keeps, and nothing else. -/
theorem canonicalJson_eq_iff {v w : JsValue} (hv : Json v) (hw : Json w) :
    canonicalJson v = canonicalJson w ↔ (kept v).Same (kept w) := by
  rw [← (json_kept hv).sortOwn_eq_iff (json_kept hw)]
  have hparse : ∀ {v : JsValue}, Json v → Js.parseJson (canonicalJson v) = some (sortOwn (kept v)) := by
    intro v h
    have himage := (genuine_sortValue h).parse_stringify
    rwa [stringify_sortValue h, Option.bind_some, image_sortValue h] at himage
  constructor
  · intro h
    exact Option.some.inj ((hparse hv).symm.trans (h ▸ hparse hw))
  · intro h
    have htext := (Js.stringify_image (image_sortValue hv)).symm.trans
      (h ▸ Js.stringify_image (image_sortValue hw))
    rw [stringify_sortValue hv, stringify_sortValue hw] at htext
    exact Option.some.inj htext

theorem kept_string (s : JsString) : kept (.string s) = .string s := by
  rw [kept] <;> simp

theorem kept_number {n : JsNumber} (h : n.isFinite = true) : kept (.number n) = .number n := by
  rw [kept, if_pos h]

/-- Properties of another name are kept. -/
theorem get_kept (v : JsValue) {key : JsString} (hkey : key ≠ Js.lit "__proto__") :
    (kept v).get key = kept (v.get key) := by
  cases v with
  | object fields =>
      rw [kept]
      induction fields with
      | nil => rfl
      | cons f rest ih =>
          obtain ⟨k, v⟩ := f
          rw [keptFields, Js.get_cons]
          by_cases hk : k = key
          · subst hk
            rw [if_neg hkey, Js.get_cons, if_pos rfl, if_pos rfl]
          · rw [if_neg hk, ← ih]
            split
            · rfl
            · rw [Js.get_cons, if_neg hk]
  | number n =>
      rw [kept]
      split <;> rfl
  | array items => rfl
  | _ => rfl

/-! ## Operations -/

namespace ReceivedOp

/-- Structural equality of operations. -/
inductive Same : ReceivedOp → ReceivedOp → Prop
  | set {pairId : JsString} {pair pair' : JsValue} : pair.Same pair' →
      Same (.set pairId pair) (.set pairId pair')
  | delete (pairId : JsString) : Same (.delete pairId) (.delete pairId)
  | setPending {token : JsString} {registration registration' : JsValue} {requestedAt : JsNumber} :
      registration.Same registration' →
        Same (.setPending token registration requestedAt) (.setPending token registration' requestedAt)
  | deletePending (token : JsString) : Same (.deletePending token) (.deletePending token)

/-- What the copy keeps of an operation. -/
def kept : ReceivedOp → ReceivedOp
  | .set pairId pair => .set pairId (Replication.kept pair)
  | .setPending token registration requestedAt =>
      .setPending token (Replication.kept registration) requestedAt
  | op => op

/-- Operations that differ, but only in what the copy loses. -/
def DifferInLoss (a b : ReceivedOp) : Prop :=
  a.kept.Same b.kept ∧ ¬a.Same b

end ReceivedOp

/-- An operation that has been read from this body. -/
inductive OpOf (body : JsValue) : ReceivedOp → Prop
  | set {pairId : JsString} {pair : JsValue} : field body "op" = .string (Js.lit "set") →
      field body "pair" = pair → field pair "id" = .string pairId → OpOf body (.set pairId pair)
  | delete {pairId : JsString} : field body "op" = .string (Js.lit "delete") →
      field body "pairId" = .string pairId → OpOf body (.delete pairId)
  | setPending {token : JsString} {registration : JsValue} {requestedAt : JsNumber} :
      field body "op" = .string (Js.lit "setPending") → field body "token" = .string token →
      field body "registration" = registration → isObject registration = true →
      field body "requestedAt" = .number requestedAt → requestedAt.isFinite = true →
      OpOf body (.setPending token registration requestedAt)
  | deletePending {token : JsString} : field body "op" = .string (Js.lit "deletePending") →
      field body "token" = .string token → OpOf body (.deletePending token)

theorem string_of_isText {p : JsString → Bool} {v : JsValue} (h : isText p v = true) :
    v = .string (textOf v) ∧ p (textOf v) = true := by
  cases v with
  | string s => exact ⟨rfl, h⟩
  | _ => cases h

theorem number_of_isNumber {p : JsNumber → Bool} {v : JsValue} (h : isNumber p v = true) :
    v = .number (numberOf v) ∧ p (numberOf v) = true := by
  cases v with
  | number n => exact ⟨rfl, h⟩
  | _ => cases h

theorem eq_of_isText {s : JsString} {v : JsValue} (h : isText (· == s) v = true) : v = .string s := by
  obtain ⟨hv, hs⟩ := string_of_isText h
  rw [hv, eq_of_beq hs]

theorem id_of_isValidStoredPair {pair : JsValue} (h : isValidStoredPair pair = true) :
    field pair "id" = .string (textOf (field pair "id")) := by
  simp only [isValidStoredPair, Bool.and_eq_true] at h
  obtain ⟨⟨⟨⟨⟨⟨⟨⟨⟨⟨⟨⟨-, hid⟩, -⟩, -⟩, -⟩, -⟩, -⟩, -⟩, -⟩, -⟩, -⟩, -⟩, -⟩ := h
  exact (string_of_isText hid).1

/-- What is validated is read from the body. -/
theorem opOf_of_validate {body : JsValue} {op : ReceivedOp} (h : validateReplicaOp body = .ok op) :
    OpOf body op := by
  unfold validateReplicaOp at h
  split_ifs at h with _ hset hpair hdelete hid hsetPending htoken hregistration hat hdeletePending
    htoken
  · cases h
    exact .set (eq_of_isText hset) rfl (id_of_isValidStoredPair hpair)
  · cases h
    exact .delete (eq_of_isText hdelete) (string_of_isText hid).1
  · cases h
    obtain ⟨hnumber, hfinite⟩ := number_of_isNumber (Bool.not_eq_false _ ▸ hat)
    rw [Bool.not_eq_false] at hregistration
    simp only [isValidRegistration, Bool.and_eq_true] at hregistration
    exact .setPending (eq_of_isText hsetPending)
      (string_of_isText (Bool.not_eq_false _ ▸ htoken)).1 rfl hregistration.1.1.1.1.1 hnumber hfinite
  · cases h
    exact .deletePending (eq_of_isText hdeletePending) (string_of_isText htoken).1

def ReceivedOp.name : ReceivedOp → JsString
  | .set _ _ => Js.lit "set"
  | .delete _ => Js.lit "delete"
  | .setPending _ _ _ => Js.lit "setPending"
  | .deletePending _ => Js.lit "deletePending"

theorem OpOf.name {body : JsValue} {op : ReceivedOp} (h : OpOf body op) :
    field body "op" = .string op.name := by
  cases h with
  | set hname _ _ => exact hname
  | delete hname _ => exact hname
  | setPending hname _ _ _ _ _ => exact hname
  | deletePending hname _ => exact hname

/-- A property of another name, of bodies of which the copy keeps the same. -/
theorem field_of_kept {v w : JsValue} (hv : Json v) (hw : Json w) (h : (kept v).Same (kept w))
    (key : String) (hkey : Js.lit key ≠ Js.lit "__proto__") :
    (kept (field v key)).Same (kept (field w key)) := by
  rw [field, field, ← get_kept v hkey, ← get_kept w hkey]
  exact (json_kept hv).same_get (json_kept hw) h _

theorem text_of_kept {s t : JsString} (h : (kept (.string s)).Same (kept (.string t))) : s = t := by
  rw [kept_string, kept_string] at h
  exact (JsValue.string.inj (Js.same_string h)).symm

theorem number_of_kept {m n : JsNumber} (hm : m.isFinite = true) (hn : n.isFinite = true)
    (h : (kept (.number m)).Same (kept (.number n))) : m = n := by
  rw [kept_number hm, kept_number hn] at h
  exact (JsValue.number.inj (Js.same_number h)).symm

theorem json_field {v : JsValue} (h : Json v) {key : String} (hne : field v key ≠ .undefined) :
    Json (field v key) :=
  (h.get _).resolve_left hne

/-- Of bodies of which the copy keeps the same, operations are read of which it keeps the same. -/
theorem OpOf.same_kept {body body' : JsValue} {op op' : ReceivedOp} (hbody : Json body)
    (hbody' : Json body') (h : (Replication.kept body).Same (Replication.kept body'))
    (hop : OpOf body op) (hop' : OpOf body' op') : op.kept.Same op'.kept := by
  have hfield := field_of_kept hbody hbody' h
  have htext : ∀ {key : String} {s t : JsString}, Js.lit key ≠ Js.lit "__proto__" →
      field body key = .string s → field body' key = .string t → s = t := by
    intro key s t hkey hs ht
    have hsame := hfield key hkey
    rw [hs, ht] at hsame
    exact text_of_kept hsame
  have hname := htext (by decide) hop.name hop'.name
  cases hop with
  | @set pairId pair _ hpair hid =>
      cases hop' with
      | @set pairId' pair' _ hpair' hid' =>
          have hsame := hfield "pair" (by decide)
          have hjson : ∀ {body pair : JsValue} {pairId : JsString}, Json body →
              field body "pair" = pair → field pair "id" = .string pairId → Json pair := by
            intro body pair pairId hbody hpair hid
            rw [← hpair]
            refine json_field hbody fun hundefined => ?_
            rw [← hpair, hundefined] at hid
            cases hid
          have hids := field_of_kept (hjson hbody hpair hid) (hjson hbody' hpair' hid')
            (hpair ▸ hpair' ▸ hsame) "id" (by decide)
          rw [hid, hid'] at hids
          rw [hpair, hpair'] at hsame
          rw [ReceivedOp.kept, ReceivedOp.kept, text_of_kept hids]
          exact .set hsame
      | _ => exact absurd hname (by simp only [ReceivedOp.name]; decide)
  | delete _ hid =>
      cases hop' with
      | delete _ hid' =>
          rw [htext (by decide) hid hid']
          exact .delete _
      | _ => exact absurd hname (by simp only [ReceivedOp.name]; decide)
  | setPending _ htoken hregistration _ hat hfinite =>
      cases hop' with
      | setPending _ htoken' hregistration' _ hat' hfinite' =>
          have hsame := hfield "registration" (by decide)
          have hnumber := hfield "requestedAt" (by decide)
          rw [hregistration, hregistration'] at hsame
          rw [hat, hat'] at hnumber
          rw [htext (by decide) htoken htoken', number_of_kept hfinite hfinite' hnumber]
          exact .setPending hsame
      | _ => exact absurd hname (by simp only [ReceivedOp.name]; decide)
  | deletePending _ htoken =>
      cases hop' with
      | deletePending _ htoken' =>
          rw [htext (by decide) htoken htoken']
          exact .deletePending _
      | _ => exact absurd hname (by simp only [ReceivedOp.name]; decide)

/-- An operation as its digest is computed of it. -/
theorem OpOf.toJs {body : JsValue} {op : ReceivedOp} (h : OpOf body op) : OpOf op.toJs op := by
  cases h with
  | set _ _ hid => exact .set rfl rfl hid
  | delete _ _ => exact .delete rfl rfl
  | setPending _ _ _ hobject _ hfinite => exact .setPending rfl rfl rfl hobject rfl hfinite
  | deletePending _ _ => exact .deletePending rfl rfl

theorem nodup_setNames : [Js.lit "op", Js.lit "pair"].Nodup := by decide

theorem nodup_deleteNames : [Js.lit "op", Js.lit "pairId"].Nodup := by decide

theorem nodup_setPendingNames :
    [Js.lit "op", Js.lit "token", Js.lit "registration", Js.lit "requestedAt"].Nodup := by decide

theorem nodup_deletePendingNames : [Js.lit "op", Js.lit "token"].Nodup := by decide

theorem OpOf.json {body : JsValue} {op : ReceivedOp} (hbody : Json body) (h : OpOf body op) :
    Json op.toJs := by
  have hobject : ∀ {v : JsValue} {key : String}, field body key = v → v ≠ .undefined → Json v :=
    fun hv hne => hv ▸ json_field hbody (hv.symm ▸ hne)
  cases h with
  | @set pairId pair _ hpair hid =>
      have hne : pair ≠ .undefined := by
        rintro rfl
        cases hid
      exact .object nodup_setNames (List.forall_mem_cons.mpr ⟨.string _,
        List.forall_mem_singleton.mpr (hobject hpair hne)⟩)
  | delete _ _ =>
      exact .object nodup_deleteNames (List.forall_mem_cons.mpr ⟨.string _,
        List.forall_mem_singleton.mpr (.string _)⟩)
  | @setPending token registration requestedAt _ _ hregistration hisObject hat _ =>
      have hne : registration ≠ .undefined := by
        rintro rfl
        cases hisObject
      exact .object nodup_setPendingNames (List.forall_mem_cons.mpr ⟨.string _,
        List.forall_mem_cons.mpr ⟨.string _, List.forall_mem_cons.mpr ⟨hobject hregistration hne,
          List.forall_mem_singleton.mpr (hobject hat nofun)⟩⟩⟩)
  | deletePending _ _ =>
      exact .object nodup_deletePendingNames (List.forall_mem_cons.mpr ⟨.string _,
        List.forall_mem_singleton.mpr (.string _)⟩)

/-- The copy of an operation. -/
theorem OpOf.kept_toJs {body : JsValue} {op : ReceivedOp} (h : OpOf body op) :
    kept op.toJs = op.kept.toJs := by
  have hkeys : ∀ key ∈ ["op", "pair", "pairId", "token", "registration", "requestedAt"],
      Js.lit key ≠ Js.lit "__proto__" := by decide
  cases h with
  | set _ _ _ => simp [ReceivedOp.toJs, ReceivedOp.kept, kept, keptFields, hkeys]
  | delete _ _ => simp [ReceivedOp.toJs, ReceivedOp.kept, kept, keptFields, hkeys]
  | setPending _ _ _ _ _ hfinite =>
      simp [ReceivedOp.toJs, ReceivedOp.kept, kept, keptFields, hkeys, hfinite]
  | deletePending _ _ => simp [ReceivedOp.toJs, ReceivedOp.kept, kept, keptFields, hkeys]

theorem ReceivedOp.Same.toJs {a b : ReceivedOp} (h : a.Same b) : a.toJs.Same b.toJs := by
  cases h with
  | set hpair =>
      exact Js.same_of_members nodup_setNames (.cons ⟨rfl, .refl _⟩ (.cons ⟨rfl, hpair⟩ .nil))
  | delete pairId => exact .refl _
  | setPending hregistration =>
      exact Js.same_of_members nodup_setPendingNames (.cons ⟨rfl, .refl _⟩ (.cons ⟨rfl, .refl _⟩
        (.cons ⟨rfl, hregistration⟩ (.cons ⟨rfl, .refl _⟩ .nil))))
  | deletePending token => exact .refl _

/-! ## Digests -/

theorem canonicalJson_of_utf8 {v w : JsValue} (hv : Json v) (hw : Json w)
    (h : Js.utf8 (canonicalJson v) = Js.utf8 (canonicalJson w)) : (kept v).Same (kept w) :=
  (canonicalJson_eq_iff hv hw).mp
    (Js.utf8_injective (canonicalJson_wellFormed hv) (canonicalJson_wellFormed hw) h)

/-- Digests tell apart the operations of which the copy keeps different things, and no others. -/
theorem replicaOperationDigest_eq_iff {c : ReplicaCrypto} (hsha : Function.Injective c.sha256)
    {body body' : JsValue} {a b : ReceivedOp} (hbody : Json body) (hbody' : Json body')
    (ha : OpOf body a) (hb : OpOf body' b) :
    replicaOperationDigest c a = replicaOperationDigest c b ↔ a.kept.Same b.kept := by
  have hjson := ha.json hbody
  have hjson' := hb.json hbody'
  constructor
  · intro h
    exact ha.toJs.same_kept hjson hjson' (canonicalJson_of_utf8 hjson hjson' (hsha h)) hb.toJs
  · intro h
    have hsame : (kept a.toJs).Same (kept b.toJs) := by
      rw [ha.kept_toJs, hb.kept_toJs]
      exact h.toJs
    rw [replicaOperationDigest, replicaOperationDigest, (canonicalJson_eq_iff hjson hjson').mpr hsame]

/-! ## Signatures -/

/-- An envelope that has been read from this body. -/
structure EnvelopeOf (body : JsValue) (e : ReplicaEnvelope) : Prop where
  sourceId : field body "sourceId" = .string e.sourceId
  sequence : field body "sequence" = .number (.fin (e.sequence : ℤ))
  sentAt : field body "sentAt" = .number e.sentAt
  finite : e.sentAt.isFinite = true
  op : field body "op" = e.op
  composite : isComposite e.op = true

/-- A safe integer from one on is the number that is read of it. -/
theorem number_of_sequence {n : JsNumber} (h : (n.isSafeInteger && !n.lt (.fin 1)) = true) :
    n = .fin (((n.toInt?.getD 0).toNat : ℕ) : ℤ) := by
  cases n with
  | fin q =>
      simp only [JsNumber.isSafeInteger, JsNumber.toInt?, JsNumber.lt, Bool.and_eq_true,
        Bool.not_eq_true', decide_eq_false_iff_not, not_lt] at h ⊢
      split at h
      · next hden =>
          have hq : q = (q.num : ℚ) := Rat.ext rfl (by simpa using hden)
          have hnum : 1 ≤ q.num := by
            have hle := h.2
            rw [hq] at hle
            exact_mod_cast hle
          rw [if_pos hden, Option.getD_some, Int.toNat_of_nonneg (by omega), ← hq]
      · simp at h
  | nan => cases h
  | posInf => cases h
  | negInf => cases h

theorem envelopeOf_of_validate {body : JsValue} {expectedSourceId : JsString} {now : JsNumber}
    {e : ReplicaEnvelope} (h : validateReplicaEnvelope body expectedSourceId now = .ok e) :
    EnvelopeOf body e := by
  unfold validateReplicaEnvelope at h
  split_ifs at h with hobject hversion hsource hsequence hsentAt hexpired hop hlarge
  cases h
  obtain ⟨hnumber, hsafe⟩ := number_of_isNumber (Bool.not_eq_false _ ▸ hsequence)
  obtain ⟨hat, hfinite⟩ := number_of_isNumber (Bool.not_eq_false _ ▸ hsentAt)
  exact
    { sourceId := (string_of_isText (Bool.not_eq_false _ ▸ hsource)).1
      sequence := hnumber.trans (congrArg JsValue.number (number_of_sequence hsafe))
      sentAt := hat
      finite := hfinite
      op := rfl
      composite := Bool.not_eq_false _ ▸ hop }

theorem EnvelopeOf.json_op {body : JsValue} {e : ReplicaEnvelope} (hbody : Json body)
    (h : EnvelopeOf body e) : Json e.op := by
  have hop : field body "op" ≠ .undefined := by
    intro hundefined
    have hcomposite := h.composite
    rw [← h.op, hundefined] at hcomposite
    cases hcomposite
  exact h.op ▸ json_field hbody hop

theorem EnvelopeOf.json {body : JsValue} {e : ReplicaEnvelope} (hbody : Json body)
    (h : EnvelopeOf body e) : Json e.toJs := by
  have hnumber : ∀ {n : JsNumber} {key : String}, field body key = .number n → Json (.number n) :=
    fun hn => hn ▸ json_field hbody (hn.symm ▸ nofun)
  exact .object nodup_envelopeNames (List.forall_mem_cons.mpr ⟨.string _,
    List.forall_mem_cons.mpr ⟨.string _, List.forall_mem_cons.mpr ⟨hnumber h.sequence,
      List.forall_mem_cons.mpr ⟨hnumber h.sentAt,
        List.forall_mem_singleton.mpr (h.json_op hbody)⟩⟩⟩⟩)

theorem EnvelopeOf.unique {body : JsValue} {e e' : ReplicaEnvelope} (h : EnvelopeOf body e)
    (h' : EnvelopeOf body e') : e = e' := by
  obtain ⟨sourceId, sequence, sentAt, op⟩ := e
  obtain ⟨sourceId', sequence', sentAt', op'⟩ := e'
  have hsequence := JsNumber.fin.inj (JsValue.number.inj (h.sequence.symm.trans h'.sequence))
  obtain rfl := JsValue.string.inj (h.sourceId.symm.trans h'.sourceId)
  obtain rfl : sequence = sequence' := by exact_mod_cast hsequence
  obtain rfl := JsValue.number.inj (h.sentAt.symm.trans h'.sentAt)
  obtain rfl : op = op' := h.op.symm.trans h'.op
  rfl

/-- What one signature is of. -/
theorem same_of_signature {c : ReplicaCrypto} {key : JsString}
    (hmac : Function.Injective (c.hmacSha256 (Js.utf8 key))) {body body' : JsValue}
    {e e' : ReplicaEnvelope} (hbody : Json body) (hbody' : Json body') (h : EnvelopeOf body e)
    (h' : EnvelopeOf body' e') {signature : JsString}
    (hsigned : signReplicaEnvelope c e key = some signature)
    (hsigned' : signReplicaEnvelope c e' key = some signature) :
    e.sourceId = e'.sourceId ∧ e.sequence = e'.sequence ∧ e.sentAt = e'.sentAt ∧
      (kept e.op).Same (kept e'.op) := by
  have hjson := h.json hbody
  have hjson' := h'.json hbody'
  unfold signReplicaEnvelope at hsigned hsigned'
  split_ifs at hsigned with hkey
  rw [if_neg hkey] at hsigned'
  have hbytes := hmac ((Option.some.inj hsigned).trans (Option.some.inj hsigned').symm)
  have hfield := field_of_kept hjson hjson' (canonicalJson_of_utf8 hjson hjson' hbytes)
  have hsequence := JsNumber.fin.inj
    (number_of_kept rfl rfl (hfield "sequence" (by decide)))
  exact ⟨text_of_kept (hfield "sourceId" (by decide)), by exact_mod_cast hsequence,
    number_of_kept h.finite h'.finite (hfield "sentAt" (by decide)), hfield "op" (by decide)⟩

/-! ## Bodies -/

/-- A body that has been parsed, and what the receiver has validated of it. -/
structure Validated (body : JsValue) (e : ReplicaEnvelope) (op : ReceivedOp) : Prop where
  parsed : ∃ text, Js.parseJson text = some body
  envelope : ∃ expectedSourceId nowMs, validateReplicaEnvelope body expectedSourceId nowMs = .ok e
  operation : validateReplicaOp e.op = .ok op

/-- The signature covers envelope and operation of the two, and the digest their operations. -/
structure Covered (c : ReplicaCrypto) (key : JsString) (e e' : ReplicaEnvelope) (op op' : ReceivedOp) :
    Prop where
  signature : ∀ signature, signReplicaEnvelope c e key = some signature →
    signReplicaEnvelope c e' key = some signature →
    e.sourceId = e'.sourceId ∧ e.sequence = e'.sequence ∧ e.sentAt = e'.sentAt ∧ op.Same op'
  digest : replicaOperationDigest c op = replicaOperationDigest c op' → op.Same op'

section Covered

variable {c : ReplicaCrypto} {key : JsString} {body body' : JsValue} {e e' : ReplicaEnvelope}
  {op op' : ReceivedOp}

/-- **Signature and digest cover an operation** but for what the copy loses of it. -/
theorem covered_iff (hsha : Function.Injective c.sha256)
    (hmac : Function.Injective (c.hmacSha256 (Js.utf8 key))) (h : Validated body e op)
    (h' : Validated body' e' op') : Covered c key e e' op op' ↔ ¬op.DifferInLoss op' := by
  obtain ⟨⟨text, htext⟩, ⟨source, now, haccepted⟩, hvalid⟩ := h
  obtain ⟨⟨text', htext'⟩, ⟨source', now', haccepted'⟩, hvalid'⟩ := h'
  have hbody := Js.json_of_parse htext
  have hbody' := Js.json_of_parse htext'
  have henvelope := envelopeOf_of_validate haccepted
  have henvelope' := envelopeOf_of_validate haccepted'
  have hop := opOf_of_validate hvalid
  have hop' := opOf_of_validate hvalid'
  have hjson := henvelope.json_op hbody
  have hjson' := henvelope'.json_op hbody'
  have hdigest := replicaOperationDigest_eq_iff hsha hjson hjson' hop hop'
  constructor
  · rintro hcovered ⟨hkept, hdiffer⟩
    exact hdiffer (hcovered.digest (hdigest.mpr hkept))
  · intro hloss
    have hsame : op.kept.Same op'.kept → op.Same op' := fun hkept =>
      not_not.mp fun hdiffer => hloss ⟨hkept, hdiffer⟩
    refine ⟨fun signature hsigned hsigned' => ?_, fun h => hsame (hdigest.mp h)⟩
    obtain ⟨hsource, hsequence, hsentAt, hkept⟩ :=
      same_of_signature hmac hbody hbody' henvelope henvelope' hsigned hsigned'
    exact ⟨hsource, hsequence, hsentAt, hsame (hop.same_kept hjson hjson' hkept hop')⟩

end Covered

/-! ## A member that the copy loses -/

/-- A pair with further members. -/
def samplePair (members : List (JsString × JsValue)) : JsValue :=
  .object ([(Js.lit "id", .string (Js.lit "pair_0")), (Js.lit "name", .string (Js.lit "sample")),
    (Js.lit "scope", .string (Js.lit "read")), (Js.lit "mode", .string (Js.lit "production")),
    (Js.lit "secretHash", .string (List.replicate 43 65)),
    (Js.lit "pubJwk", .object [(Js.lit "kty", .string (Js.lit "EC")),
      (Js.lit "crv", .string (Js.lit "P-256")), (Js.lit "x", .string (List.replicate 43 65)),
      (Js.lit "y", .string (List.replicate 43 65))]),
    (Js.lit "status", .string (Js.lit "active")), (Js.lit "created", .number (.fin 0)),
    (Js.lit "lastActive", .null), (Js.lit "requests", .number (.fin 0)),
    (Js.lit "failedSigs", .number (.fin 0))] ++ members)

/-- An envelope that sets it. -/
def sampleEnvelope (members : List (JsString × JsValue)) : ReplicaEnvelope where
  sourceId := Js.lit "primary"
  sequence := 1
  sentAt := .fin 0
  op := .object [(Js.lit "op", .string (Js.lit "set")), (Js.lit "pair", samplePair members)]

/-- What the receiver asks of it. -/
def sampleAccepted (members : List (JsString × JsValue)) : Bool :=
  Js.isGenuine (sampleEnvelope members).toJs && isValidStoredPair (samplePair members) &&
    (validateReplicaEnvelope (sampleEnvelope members).toJs (Js.lit "primary") (.fin 0)).isOk

theorem validated_sample {members : List (JsString × JsValue)} (h : sampleAccepted members = true)
    (himage : image (sampleEnvelope members).toJs = some (sampleEnvelope members).toJs) :
    Validated (sampleEnvelope members).toJs (sampleEnvelope members)
      (.set (Js.lit "pair_0") (samplePair members)) := by
  obtain ⟨hchecks, haccepted⟩ := Bool.and_eq_true_iff.mp h
  obtain ⟨hgenuine, hpair⟩ := Bool.and_eq_true_iff.mp hchecks
  refine ⟨?_, ⟨Js.lit "primary", .fin 0, ?_⟩, ?_⟩
  · have hparse := (Genuine.of_check hgenuine).parse_stringify
    rw [himage] at hparse
    obtain ⟨text, -, htext⟩ := Option.bind_eq_some_iff.mp hparse
    exact ⟨text, htext⟩
  · cases hvalidated : validateReplicaEnvelope (sampleEnvelope members).toJs (Js.lit "primary")
        (.fin 0) with
    | error message =>
        rw [hvalidated] at haccepted
        cases haccepted
    | ok e =>
        have hread : EnvelopeOf (sampleEnvelope members).toJs (sampleEnvelope members) :=
          ⟨rfl, rfl, rfl, rfl, rfl, rfl⟩
        rw [hread.unique (envelopeOf_of_validate hvalidated)]
  · have hcomposite : ¬isComposite (sampleEnvelope members).op = false := nofun
    have hset : isText (· == Js.lit "set") (field (sampleEnvelope members).op "op") = true := rfl
    unfold validateReplicaOp
    rw [if_neg hcomposite, if_pos hset]
    exact if_pos hpair

/-- A member that the copy does not have. -/
def protoMember : List (JsString × JsValue) :=
  [(Js.lit "__proto__", .object [(Js.lit "role", .string (Js.lit "admin"))])]

/-- Two operations that set different pairs have one signature and one digest. -/
theorem proto_uncovered :
    Validated (sampleEnvelope []).toJs (sampleEnvelope [])
      (.set (Js.lit "pair_0") (samplePair [])) ∧
    Validated (sampleEnvelope protoMember).toJs (sampleEnvelope protoMember)
      (.set (Js.lit "pair_0") (samplePair protoMember)) ∧
    ∀ c key,
      signReplicaEnvelope c (sampleEnvelope []) key =
          signReplicaEnvelope c (sampleEnvelope protoMember) key ∧
        ¬Covered c key (sampleEnvelope []) (sampleEnvelope protoMember)
          (.set (Js.lit "pair_0") (samplePair [])) (.set (Js.lit "pair_0") (samplePair protoMember)) := by
  have htext : canonicalReplicaEnvelope (sampleEnvelope []) =
      canonicalReplicaEnvelope (sampleEnvelope protoMember) := by
    decide +kernel
  have hdigest : canonicalJson (ReceivedOp.set (Js.lit "pair_0") (samplePair [])).toJs =
      canonicalJson (ReceivedOp.set (Js.lit "pair_0") (samplePair protoMember)).toJs := by
    decide +kernel
  refine ⟨validated_sample (by decide +kernel) rfl, validated_sample (by decide +kernel) rfl,
    fun c key => ⟨?_, fun hcovered => ?_⟩⟩
  · rw [signReplicaEnvelope, htext]
    rfl
  · have hsame := hcovered.digest (congrArg (fun text => c.sha256 (Js.utf8 text)) hdigest)
    cases hsame with
    | set hpair =>
        cases hpair with
        | object hnames _ => exact absurd hnames.length_eq (by decide)

/-- Every byte a code unit. -/
def plainReplicaCrypto : ReplicaCrypto where
  sha256 bytes := bytes.map UInt8.toUInt16
  hmacSha256 _ bytes := bytes.map UInt8.toUInt16

theorem covered_iff_sample :
    Covered plainReplicaCrypto (List.replicate 32 107) (sampleEnvelope []) (sampleEnvelope protoMember)
        (.set (Js.lit "pair_0") (samplePair [])) (.set (Js.lit "pair_0") (samplePair protoMember)) ↔
      ¬(ReceivedOp.set (Js.lit "pair_0") (samplePair [])).DifferInLoss
        (.set (Js.lit "pair_0") (samplePair protoMember)) := by
  have hunits : Function.Injective (List.map UInt8.toUInt16) :=
    List.map_injective_iff.mpr fun a b h => by
      have hnat := congrArg UInt16.toNat h
      rw [UInt8.toNat_toUInt16, UInt8.toNat_toUInt16] at hnat
      exact UInt8.toNat_inj.mp hnat
  exact covered_iff hunits hunits (validated_sample (by decide +kernel) rfl)
    (validated_sample (by decide +kernel) rfl)

end Replication
