import BpcProtocol.Ha.RedisFence
import BpcProtocol.Lib.Quorum
import BpcProtocol.Lib.Transition

set_option autoImplicit false

/-! # The Redis fence quorum

Any number of claims and reads over an odd number of members. A member executes a claim's script at
any time, early, late, twice or never, whatever became of the call; a call settles on whatever
answers have reached it. -/

namespace Ha

open Fallible Quorum

variable (c : Crypto) (resolver : PublicKeyResolver c)

/-! ## Calls and steps -/

/-- A call of `claim(record)`: the members that have answered 1 to it, and what it returned. -/
structure ClaimCall (n : ℕ) where
  record : RedisFenceRecord
  answered : Finset (Fin n)
  result : Option Bool

/-- A call of `current()`: the claims that had returned true when it started, the replies to its
    `GET`s, and what it returned. -/
structure CurrentCall (n : ℕ) where
  after : List RedisFenceRecord
  replies : Fin n → Option (Option JsString)
  result : Option (Except HaError JsValue)

/-- The members' keys and the records each has answered 1 to, the calls, and the records whose
    claims have returned true. -/
structure QuorumState (n : ℕ) (κ : Type) where
  members : Fin n → Option JsString
  accepted : Fin n → List RedisFenceRecord
  claims : κ → Option (ClaimCall n)
  currents : κ → Option (CurrentCall n)
  won : List RedisFenceRecord

variable {n : ℕ} {κ : Type} [DecidableEq κ]

/-- What a member's `current()` has settled on in a call: outside `settled` it has failed or not
    answered in time. -/
def settledAnswer (call : CurrentCall n) (settled : Finset (Fin n)) (error : HaError) (i : Fin n) :
    Except HaError (Option JsValue) :=
  match call.replies i with
  | some raw => if i ∈ settled then fenceCurrent c resolver raw else .error error
  | none => .error error

/-- `BpcRedisQuorumFenceStore.current()`, from the settled answers of the members and the answer of
    `witness.verify`. -/
def quorumCurrent (verified : JsValue → Except HaError Unit)
    (answers : List (Except HaError (Option JsValue))) : Except HaError JsValue := do
  let record ← rawCurrent answers
  verified record
  pure record

/-- One step of the quorum. A claim starts once `witness.verify` has accepted its record. -/
inductive QuorumStep : QuorumState n κ → QuorumState n κ → Prop
  | startClaim {s : QuorumState n κ} (k : κ) (record : RedisFenceRecord) :
      s.claims k = none → SafeRecord record →
      QuorumStep s { s with claims := Function.update s.claims k (some ⟨record, ∅, none⟩) }
  | execClaim {s : QuorumState n κ} (k : κ) (i : Fin n) {call : ClaimCall n}
      {epochArg text : JsString} :
      s.claims k = some call → fenceClaimArgs c resolver call.record = .ok (epochArg, text) →
      QuorumStep s { s with
        members := Function.update s.members i (claimFence (s.members i) epochArg text).2
        accepted := Function.update s.accepted i
          (if (claimFence (s.members i) epochArg text).1 = .claimed
            then call.record :: s.accepted i else s.accepted i)
        claims := Function.update s.claims k (some { call with
          answered := if (claimFence (s.members i) epochArg text).1 = .claimed
            then insert i call.answered else call.answered }) }
  | returnClaim {s : QuorumState n κ} (k : κ) {call : ClaimCall n} (settled : Finset (Fin n)) :
      s.claims k = some call → call.result = none → settled ⊆ call.answered →
      QuorumStep s { s with
        claims := Function.update s.claims k
          (some { call with result := some (fenceQuorum n ≤ settled.card) })
        won := if fenceQuorum n ≤ settled.card then s.won ++ [call.record] else s.won }
  | startCurrent {s : QuorumState n κ} (k : κ) :
      s.currents k = none →
      QuorumStep s { s with
        currents := Function.update s.currents k (some ⟨s.won, fun _ => none, none⟩) }
  | execGet {s : QuorumState n κ} (k : κ) (i : Fin n) {call : CurrentCall n} :
      s.currents k = some call → call.result = none →
      QuorumStep s { s with
        currents := Function.update s.currents k
          (some { call with replies := Function.update call.replies i (some (s.members i)) }) }
  | returnCurrent {s : QuorumState n κ} (k : κ) {call : CurrentCall n} (settled : Finset (Fin n))
      (error : HaError) (verified : JsValue → Except HaError Unit) :
      s.currents k = some call → call.result = none →
      QuorumStep s { s with
        currents := Function.update s.currents k
          (some { call with
            result := some (quorumCurrent verified
              ((List.finRange n).map (settledAnswer c resolver call settled error))) }) }

/-- Members without a record, and no calls yet. -/
def quorumSystem (n : ℕ) (κ : Type) [DecidableEq κ] : Transition.System (QuorumState n κ) where
  init s := s = ⟨fun _ => none, fun _ => [], fun _ => none, fun _ => none, []⟩
  next := QuorumStep c resolver

/-! ## One script call -/

/-- A key that holds the text of a record, or nothing. -/
def Holds (raw : Option JsString) (held : Option RedisFenceRecord) : Prop :=
  raw = held.map recordText ∧ ∀ r ∈ held, SafeRecord r

/-- **The script is a ranked register.** It answers 1 exactly when the register takes the record,
    and then holds it; otherwise it leaves the key alone. -/
theorem claimFence_spec {raw : Option JsString} {held : Option RedisFenceRecord}
    (hraw : Holds raw held) {r : RedisFenceRecord} (hr : SafeRecord r) :
    ((claimFence raw (Js.numberText (.fin r.epoch)) (recordText r)).1 = .claimed ∧
        Takes (·.epoch) held r ∧
        (claimFence raw (Js.numberText (.fin r.epoch)) (recordText r)).2 = some (recordText r)) ∨
      ((claimFence raw (Js.numberText (.fin r.epoch)) (recordText r)).1 ≠ .claimed ∧
        (claimFence raw (Js.numberText (.fin r.epoch)) (recordText r)).2 = raw) := by
  obtain ⟨rfl, hsafe⟩ := hraw
  cases held with
  | none => exact Or.inl ⟨rfl, by simp [Takes], rfl⟩
  | some cur =>
      have hcur := hsafe cur rfl
      simp only [Option.map_some, claimFence, decodedEpoch_recordText hcur, luaToNumber_epoch hr,
        claimOver, JsNumber.lt_int, JsNumber.eq_int, decide_eq_true_eq]
      split
      · exact Or.inr ⟨by simp, rfl⟩
      · next hge =>
          split
          · split
            · next htext =>
                obtain rfl := recordText_inj hcur hr htext
                refine Or.inl ⟨rfl, ?_, rfl⟩
                rintro w ⟨⟩
                exact Or.inr rfl
            · exact Or.inr ⟨by simp, rfl⟩
          · next hne =>
              refine Or.inl ⟨rfl, ?_, rfl⟩
              rintro w ⟨⟩
              exact Or.inl (show cur.epoch < r.epoch by omega)

/-! ## One read -/

/-- An answer with a record of the canonical form `key`. -/
def hasKey (key : JsString) : Except HaError (Option JsValue) → Bool
  | .ok (some v) => (canonicalize v).toOption = some key
  | _ => false

/-- A group that counts answers: its record is one of them and has its key, and it counts no more
    than were seen with that key. -/
structure Counts (seen : List (Except HaError (Option JsValue))) (g : FenceGroup) : Prop where
  record : Except.ok (some g.record) ∈ seen
  key : canonicalize g.record = .ok g.key
  count : g.count ≤ seen.countP (hasKey g.key)

theorem Counts.append {seen : List (Except HaError (Option JsValue))} {g : FenceGroup}
    (h : Counts seen g) (more : List (Except HaError (Option JsValue))) :
    Counts (seen ++ more) g where
  record := List.mem_append_left _ h.record
  key := h.key
  count := by
    rw [List.countP_append]
    exact Nat.le_trans h.count (Nat.le_add_right _ _)

def Grouped (seen : List (Except HaError (Option JsValue))) (groups : List FenceGroup) : Prop :=
  ∀ g ∈ groups, Counts seen g

theorem Grouped.add {seen : List (Except HaError (Option JsValue))} {groups : List FenceGroup}
    (h : Grouped seen groups) {v : JsValue} {key : JsString} (hkey : canonicalize v = .ok key) :
    Grouped (seen ++ [.ok (some v)]) (addToGroup key v groups) := by
  have hhas : hasKey key (Except.ok (some v) : Except HaError (Option JsValue)) = true := by
    simp [hasKey, hkey, Except.toOption]
  have hmem : (Except.ok (some v) : Except HaError (Option JsValue)) ∈ seen ++ [.ok (some v)] := by
    simp
  induction groups with
  | nil =>
      intro g hg
      rw [addToGroup, List.mem_singleton] at hg
      subst hg
      exact ⟨hmem, hkey, by simp [List.countP_append, hhas]⟩
  | cons g rest ih =>
      have hrest : Grouped seen rest := fun g' hg' => h g' (List.mem_cons_of_mem _ hg')
      rw [addToGroup]
      split
      · next heq =>
          subst heq
          intro g' hg'
          rcases List.mem_cons.mp hg' with rfl | hg'
          · refine ⟨hmem, hkey, ?_⟩
            have hcount := (h g List.mem_cons_self).count
            simp only [List.countP_append, List.countP_singleton, hhas, if_true]
            omega
          · exact (hrest g' hg').append _
      · intro g' hg'
        rcases List.mem_cons.mp hg' with rfl | hg'
        · exact (h g' List.mem_cons_self).append _
        · exact ih hrest g' hg'

theorem groupAnswers_grouped {answers seen : List (Except HaError (Option JsValue))}
    {groups groups' : List FenceGroup} (h : groupAnswers answers groups = .ok groups')
    (hg : Grouped seen groups) : Grouped (seen ++ answers) groups' := by
  induction answers generalizing seen groups with
  | nil =>
      obtain rfl := (pure_eq_ok _ _).mp h
      rwa [List.append_nil]
  | cons a rest ih =>
      have happ : seen ++ a :: rest = (seen ++ [a]) ++ rest := by simp
      rw [happ]
      match a, h with
      | .ok (some v), h =>
          rw [groupAnswers, bind_eq_ok] at h
          obtain ⟨key, hkey, h⟩ := h
          exact ih h (hg.add hkey)
      | .ok none, h => exact ih h fun g hgm => (hg g hgm).append _
      | .error e, h => exact ih h fun g hgm => (hg g hgm).append _

/-- What `rawCurrent` returns is one of the answers, and its canonical form is that of a majority of
    them. -/
theorem rawCurrent_spec {answers : List (Except HaError (Option JsValue))} {v : JsValue}
    (h : rawCurrent answers = .ok v) :
    Except.ok (some v) ∈ answers ∧ ∃ key, canonicalize v = .ok key ∧
      fenceQuorum answers.length ≤ answers.countP (hasKey key) := by
  simp only [rawCurrent, bind_eq_ok] at h
  obtain ⟨groups, hgroups, h⟩ := h
  have hg : Grouped answers groups := by
    have hempty : Grouped [] [] := by simp [Grouped]
    simpa using groupAnswers_grouped hgroups hempty
  split at h
  · next winner hfind =>
      obtain rfl := (pure_eq_ok _ _).mp h
      have hcounts := hg winner (List.mem_of_find?_eq_some hfind)
      have hquorum := List.find?_some hfind
      rw [decide_eq_true_eq] at hquorum
      exact ⟨hcounts.record, winner.key, hcounts.key, Nat.le_trans hquorum hcounts.count⟩
  · simp at h

/-- The members whose answers have a canonical form. -/
theorem countP_finRange (p : Fin n → Bool) :
    (List.finRange n).countP p = (Finset.univ.filter fun i => p i = true).card := by
  rw [List.countP_eq_length_filter,
    ← List.toFinset_card_of_nodup ((List.nodup_finRange n).filter p)]
  congr 1
  ext i
  simp

/-- The member `epoch` of a record is its epoch. -/
theorem epoch_mem_toValue (r : RedisFenceRecord) :
    ∃ fields, r.toValue = .object fields ∧
      ∀ v, (Js.lit "epoch", v) ∈ fields ↔ v = .number (.fin r.epoch) := by
  refine ⟨_, rfl, fun v => ?_⟩
  have hne : ∀ key ∈ ["streamId", "nodeId", "authoritySystemId", "nodeCredentialKeyId",
      "commandId", "claimedAtMs", "keyId", "signature"], Js.lit "epoch" ≠ Js.lit key := by
    decide +kernel
  simp only [List.forall_mem_cons] at hne
  obtain ⟨h₁, h₂, h₃, h₄, h₅, h₆, h₇, h₈, -⟩ := hne
  simp only [List.mem_cons, Prod.mk.injEq, h₁, h₂, h₃, h₄, h₅, h₆, h₇, h₈, false_and, true_and,
    List.not_mem_nil, or_false, false_or]

/-- Records of one canonical form have one epoch. -/
theorem epoch_eq_of_canonicalize {r r' : RedisFenceRecord} {key : JsString} (hr : SafeRecord r)
    (hr' : SafeRecord r') (h : canonicalize r.toValue = .ok key)
    (h' : canonicalize r'.toValue = .ok key) : r.epoch = r'.epoch := by
  have hsort := sortKeys_eq_of_canonicalize h h' hr.plain hr'.plain
  obtain ⟨fields, hf, hmem⟩ := epoch_mem_toValue r
  obtain ⟨fields', hf', hmem'⟩ := epoch_mem_toValue r'
  rw [hf, hf', sortKeys, sortKeys, sort_sortKeysFields, sort_sortKeysFields] at hsort
  injection hsort with hsort
  have hin : (Js.lit "epoch", JsValue.number (.fin r.epoch)) ∈
      (fields.insertionSort keyLe).map fun f => (f.1, sortKeys f.2) :=
    List.mem_map.mpr ⟨_, (List.mem_insertionSort keyLe).mpr ((hmem _).mpr rfl), rfl⟩
  rw [hsort] at hin
  obtain ⟨⟨k, v⟩, hv, heq⟩ := List.mem_map.mp hin
  obtain ⟨rfl, hsorted⟩ := Prod.mk.inj heq
  obtain rfl := (hmem' v).mp ((List.mem_insertionSort keyLe).mp hv)
  simpa [sortKeys] using hsorted.symm

/-- What is read from a key is the record it holds. -/
theorem fenceCurrent_spec {raw : Option JsString} {held : Option RedisFenceRecord}
    (hraw : Holds raw held) {v : JsValue} (h : fenceCurrent c resolver raw = .ok (some v)) :
    ∃ r ∈ held, v = r.toValue := by
  obtain ⟨rfl, hsafe⟩ := hraw
  cases held with
  | none => simp [fenceCurrent, pure_eq_ok] at h
  | some r =>
      refine ⟨r, rfl, ?_⟩
      simp only [Option.map_some, fenceCurrent, bind_eq_ok, pure_eq_ok, Option.some.injEq] at h
      obtain ⟨w, hparse, rfl⟩ := h
      rw [parseFence, parse_recordText (hsafe r rfl)] at hparse
      simp only [RedisFenceRecord.toValue, bind_eq_ok, pure_eq_ok] at hparse
      obtain ⟨_, -, rfl⟩ := hparse
      rfl

/-! ## The invariant -/

/-- A record that a majority of the members has accepted. -/
def Stored (accepted : Fin n → List RedisFenceRecord) (r : RedisFenceRecord) : Prop :=
  ∃ members : Finset (Fin n), Majority members ∧ ∀ i ∈ members, r ∈ accepted i

/-- A call of `current()`: what was read were records, none older than what a majority had accepted
    before the call. -/
structure CurrentOk (accepted : Fin n → List RedisFenceRecord) (call : CurrentCall n) : Prop where
  replies : ∀ i raw, call.replies i = some raw → ∃ held, Holds raw held
  after : ∀ r ∈ call.after, ∃ members : Finset (Fin n), Majority members ∧
    (∀ i ∈ members, r ∈ accepted i) ∧ ∀ i ∈ members, ∀ raw held, call.replies i = some raw →
      Holds raw held → ∃ cur ∈ held, r.epoch ≤ cur.epoch
  result : ∀ v, call.result = some (.ok v) →
    ∃ cur : RedisFenceRecord, v = cur.toValue ∧ ∀ r ∈ call.after, r.epoch ≤ cur.epoch

structure QuorumInv (s : QuorumState n κ) : Prop where
  members : ∀ i, ∃ held, Holds (s.members i) held ∧
    Covers (fun r : RedisFenceRecord => r.epoch) (· ∈ s.accepted i) held
  safe : ∀ k call, s.claims k = some call → SafeRecord call.record
  answered : ∀ k call, s.claims k = some call → ∀ i ∈ call.answered, call.record ∈ s.accepted i
  returned : ∀ k call, s.claims k = some call → call.result = some true → call.record ∈ s.won
  won : ∀ r ∈ s.won, Stored s.accepted r
  currents : ∀ k call, s.currents k = some call → CurrentOk s.accepted call

variable {c resolver}

theorem Holds.unique {raw : Option JsString} {held held' : Option RedisFenceRecord}
    (h : Holds raw held) (h' : Holds raw held') : held = held' := by
  obtain ⟨rfl, hsafe⟩ := h
  obtain ⟨heq, hsafe'⟩ := h'
  cases held <;> cases held' <;> simp only [Option.map_some, Option.map_none, reduceCtorEq,
    Option.some.injEq] at heq ⊢
  next r r' => exact recordText_inj (hsafe r rfl) (hsafe' r' rfl) heq

theorem settledAnswer_eq_ok {call : CurrentCall n} {settled : Finset (Fin n)} {error : HaError}
    {i : Fin n} {v : JsValue} (h : settledAnswer c resolver call settled error i = .ok (some v)) :
    ∃ raw, call.replies i = some raw ∧ fenceCurrent c resolver raw = .ok (some v) := by
  unfold settledAnswer at h
  split at h
  · next raw hraw =>
      split at h
      · exact ⟨raw, hraw, h⟩
      · simp at h
  · simp at h

/-- What a call returns is a record no older than any that a majority had accepted before it: the
    two majorities share a member, which held one at least as new when it was read. -/
theorem CurrentOk.read {accepted : Fin n → List RedisFenceRecord} {call : CurrentCall n}
    (hcall : CurrentOk accepted call) {settled : Finset (Fin n)} {error : HaError}
    {verified : JsValue → Except HaError Unit} {v : JsValue}
    (h : quorumCurrent verified ((List.finRange n).map
      (settledAnswer c resolver call settled error)) = .ok v) :
    ∃ cur : RedisFenceRecord, v = cur.toValue ∧ ∀ r ∈ call.after, r.epoch ≤ cur.epoch := by
  simp only [quorumCurrent, bind_eq_ok, pure_eq_ok] at h
  obtain ⟨v, hraw, _, -, rfl⟩ := h
  obtain ⟨hmem, key, hkey, hcount⟩ := rawCurrent_spec hraw
  -- what a settled answer reads is the record its member held
  have hread : ∀ i w, settledAnswer c resolver call settled error i = .ok (some w) →
      ∃ raw held, call.replies i = some raw ∧ Holds raw held ∧ ∃ r ∈ held, w = r.toValue := by
    intro i w hw
    obtain ⟨raw, hraw, hw⟩ := settledAnswer_eq_ok hw
    obtain ⟨held, hheld⟩ := hcall.replies i raw hraw
    exact ⟨raw, held, hraw, hheld, fenceCurrent_spec c resolver hheld hw⟩
  obtain ⟨i, -, hi⟩ := List.mem_map.mp hmem
  obtain ⟨_, held, -, hheld, cur, hcur, rfl⟩ := hread i v hi
  refine ⟨cur, rfl, fun r hr => ?_⟩
  obtain ⟨members, hmaj, -, hnewer⟩ := hcall.after r hr
  -- the members that answered with this canonical form are a majority
  rw [List.length_map, List.length_finRange, List.countP_map, countP_finRange] at hcount
  have hagree : Majority (Finset.univ.filter fun j =>
      (hasKey key ∘ settledAnswer c resolver call settled error) j = true) := by
    unfold Majority
    rw [Fintype.card_fin]
    exact hcount
  obtain ⟨j, hj, hjkey⟩ := hmaj.inter hagree
  obtain ⟨w, hw, hwkey⟩ : ∃ w, settledAnswer c resolver call settled error j = .ok (some w) ∧
      canonicalize w = .ok key := by
    have hjhas := (Finset.mem_filter.mp hjkey).2
    simp only [Function.comp_apply, hasKey] at hjhas
    split at hjhas
    · next w hw =>
        rw [decide_eq_true_eq] at hjhas
        refine ⟨w, hw, ?_⟩
        cases hc : canonicalize w with
        | ok t => simpa [hc, Except.toOption] using hjhas
        | error e => simp [hc, Except.toOption] at hjhas
    · simp at hjhas
  obtain ⟨raw, heldj, hreply, hheldj, rj, hrj, rfl⟩ := hread j w hw
  obtain ⟨newer, hnew, hle⟩ := hnewer j hj raw heldj hreply hheldj
  obtain rfl : newer = rj := Option.some.inj (hnew.symm.trans hrj)
  rwa [epoch_eq_of_canonicalize (hheld.2 cur hcur) (hheldj.2 newer hrj) hkey hwkey]

/-- The members have accepted at least as much. -/
def Grows (accepted accepted' : Fin n → List RedisFenceRecord) : Prop :=
  ∀ i r, r ∈ accepted i → r ∈ accepted' i

theorem Stored.mono {accepted accepted' : Fin n → List RedisFenceRecord}
    (hgrow : Grows accepted accepted') {r : RedisFenceRecord} (h : Stored accepted r) :
    Stored accepted' r := by
  obtain ⟨members, hmaj, hacc⟩ := h
  exact ⟨members, hmaj, fun i hi => hgrow i r (hacc i hi)⟩

theorem CurrentOk.mono {accepted accepted' : Fin n → List RedisFenceRecord}
    (hgrow : Grows accepted accepted') {call : CurrentCall n} (h : CurrentOk accepted call) :
    CurrentOk accepted' call where
  replies := h.replies
  after r hr := by
    obtain ⟨members, hmaj, hacc, hnewer⟩ := h.after r hr
    exact ⟨members, hmaj, fun i hi => hgrow i r (hacc i hi), hnewer⟩
  result := h.result

omit [DecidableEq κ] in
/-- A member's `GET` reads a record at least as new as all the member has accepted. -/
theorem CurrentOk.exec {s : QuorumState n κ} (hs : QuorumInv s) {call : CurrentCall n}
    (hcall : CurrentOk s.accepted call) (hnone : call.result = none) (i : Fin n) :
    CurrentOk s.accepted
      { call with replies := Function.update call.replies i (some (s.members i)) } := by
  obtain ⟨held, hheld, hcovers⟩ := hs.members i
  refine ⟨?_, ?_, fun v hv => ?_⟩
  · intro j raw hraw
    change Function.update call.replies i _ j = some raw at hraw
    by_cases hj : j = i
    · subst hj
      rw [Function.update_self] at hraw
      exact ⟨held, Option.some.inj hraw ▸ hheld⟩
    · rw [Function.update_of_ne hj] at hraw
      exact hcall.replies j raw hraw
  · intro r hr
    obtain ⟨members, hmaj, hacc, hnewer⟩ := hcall.after r hr
    refine ⟨members, hmaj, hacc, fun j hj raw held' hraw hheld' => ?_⟩
    change Function.update call.replies i _ j = some raw at hraw
    by_cases hji : j = i
    · subst hji
      rw [Function.update_self] at hraw
      obtain rfl := Option.some.inj hraw
      obtain rfl := hheld.unique hheld'
      exact hcovers.rank_le (hacc j hj)
    · rw [Function.update_of_ne hji] at hraw
      exact hnewer j hj raw held' hraw hheld'
  · change call.result = _ at hv
    rw [hnone] at hv
    cases hv

/-- What `claim` of a record does to one member: its script takes the record over a lower epoch, or
    leaves the member as it is. -/
theorem exec_claim {raw : Option JsString} {accepted : List RedisFenceRecord}
    {held : Option RedisFenceRecord} (hheld : Holds raw held)
    (hcovers : Covers (fun r : RedisFenceRecord => r.epoch) (· ∈ accepted) held)
    {r : RedisFenceRecord} (hr : SafeRecord r) {epochArg text : JsString}
    (hargs : fenceClaimArgs c resolver r = .ok (epochArg, text)) :
    ((claimFence raw epochArg text).1 = .claimed ∧ Takes (·.epoch) held r ∧
        Holds (claimFence raw epochArg text).2 (some r) ∧
        Covers (fun r : RedisFenceRecord => r.epoch) (· ∈ r :: accepted) (some r)) ∨
      ((claimFence raw epochArg text).1 ≠ .claimed ∧ (claimFence raw epochArg text).2 = raw) := by
  simp only [fenceClaimArgs, bind_eq_ok, pure_eq_ok, Prod.mk.injEq] at hargs
  obtain ⟨_, -, rfl, rfl⟩ := hargs
  rcases claimFence_spec hheld hr with ⟨hclaimed, htakes, hraw⟩ | hkept
  · refine Or.inl ⟨hclaimed, htakes, ⟨hraw, ?_⟩, ?_⟩
    · rintro w ⟨⟩
      exact hr
    · have htake := hcovers.take htakes
      simpa only [List.mem_cons, or_comm] using htake
  · exact Or.inr hkept

/-- What holds of every call holds after one of them has changed, if it holds of the changed one. -/
theorem forall_update {α : Type} {calls : κ → Option α} {P : α → Prop}
    (h : ∀ k call, calls k = some call → P call) {k : κ} {call : α} (hcall : P call) :
    ∀ k' call', Function.update calls k (some call) k' = some call' → P call' := by
  intro k' call' hk'
  by_cases hk : k' = k
  · subst hk
    rw [Function.update_self] at hk'
    exact Option.some.inj hk' ▸ hcall
  · rw [Function.update_of_ne hk] at hk'
    exact h k' call' hk'

/-- One member executes the script of a claim. -/
theorem QuorumInv.exec {s : QuorumState n κ} (hs : QuorumInv s) {k : κ} {call : ClaimCall n}
    (hcall : s.claims k = some call) (i : Fin n) {epochArg text : JsString}
    (hargs : fenceClaimArgs c resolver call.record = .ok (epochArg, text)) :
    QuorumInv { s with
      members := Function.update s.members i (claimFence (s.members i) epochArg text).2
      accepted := Function.update s.accepted i
        (if (claimFence (s.members i) epochArg text).1 = .claimed
          then call.record :: s.accepted i else s.accepted i)
      claims := Function.update s.claims k (some { call with
        answered := if (claimFence (s.members i) epochArg text).1 = .claimed
          then insert i call.answered else call.answered }) } := by
  obtain ⟨held, hheld, hcovers⟩ := hs.members i
  rcases exec_claim hheld hcovers (hs.safe k call hcall) hargs with
    ⟨hclaimed, -, hholds, hcovers'⟩ | ⟨hother, hkept⟩
  · simp only [hclaimed, if_true]
    have hgrow : Grows s.accepted
        (Function.update s.accepted i (call.record :: s.accepted i)) := by
      intro j r hr
      by_cases hj : j = i
      · subst hj
        rw [Function.update_self]
        exact List.mem_cons_of_mem _ hr
      · rwa [Function.update_of_ne hj]
    refine ⟨fun j => ?_, forall_update hs.safe (hs.safe k call hcall), ?_,
      forall_update hs.returned (hs.returned k call hcall), fun r hr => (hs.won r hr).mono hgrow,
      fun k' call' hk' => (hs.currents k' call' hk').mono hgrow⟩
    · by_cases hj : j = i
      · subst hj
        simp only [Function.update_self]
        exact ⟨some call.record, hholds, hcovers'⟩
      · simp only [Function.update_of_ne hj]
        exact hs.members j
    · refine forall_update (fun k' call' hk' j hj => hgrow j _ (hs.answered k' call' hk' j hj)) ?_
      intro j hj
      change j ∈ insert i call.answered at hj
      rcases Finset.mem_insert.mp hj with rfl | hj
      · show call.record ∈ Function.update s.accepted j _ j
        rw [Function.update_self]
        exact List.mem_cons_self
      · exact hgrow j _ (hs.answered k call hcall j hj)
  · rw [hkept]
    simp only [hother, if_false, Function.update_eq_self]
    exact ⟨hs.members, forall_update hs.safe (hs.safe k call hcall),
      forall_update hs.answered (hs.answered k call hcall),
      forall_update hs.returned (hs.returned k call hcall), hs.won, hs.currents⟩

theorem QuorumInv.step {s t : QuorumState n κ} (hs : QuorumInv s)
    (h : QuorumStep c resolver s t) : QuorumInv t := by
  cases h with
  | startClaim k record hnone hsafe =>
      exact ⟨hs.members, forall_update hs.safe hsafe,
        forall_update hs.answered fun _ hi => absurd hi (Finset.notMem_empty _),
        forall_update hs.returned (by simp), hs.won, hs.currents⟩
  | execClaim k i hcall hargs => exact hs.exec hcall i hargs
  | @returnClaim k call settled hcall hnone hsub =>
      have hanswered := hs.answered k call hcall
      refine ⟨hs.members, forall_update hs.safe (hs.safe k call hcall),
        forall_update hs.answered hanswered, ?_, ?_, hs.currents⟩
      · refine forall_update (fun k' call' hk' hret => ?_) ?_
        · have hwon := hs.returned k' call' hk' hret
          show call'.record ∈ ite _ _ _
          split
          · exact List.mem_append_left _ hwon
          · exact hwon
        · intro hret
          have hquorum : fenceQuorum n ≤ settled.card := by simpa using hret
          show call.record ∈ ite _ _ _
          rw [if_pos hquorum]
          exact List.mem_append_right _ List.mem_cons_self
      · intro r hr
        change r ∈ ite _ _ _ at hr
        split at hr
        · next hquorum =>
            rcases List.mem_append.mp hr with hr | hr
            · exact hs.won r hr
            · obtain rfl := List.mem_singleton.mp hr
              refine ⟨settled, ?_, fun i hi => hanswered i (hsub hi)⟩
              unfold Majority
              rw [Fintype.card_fin]
              exact hquorum
        · exact hs.won r hr
  | startCurrent k hnone =>
      refine ⟨hs.members, hs.safe, hs.answered, hs.returned, hs.won,
        forall_update hs.currents ⟨by simp, fun r hr => ?_, by simp⟩⟩
      obtain ⟨members, hmaj, hacc⟩ := hs.won r hr
      exact ⟨members, hmaj, hacc, by simp⟩
  | execGet k i hcall hnone =>
      exact ⟨hs.members, hs.safe, hs.answered, hs.returned, hs.won,
        forall_update hs.currents ((hs.currents k _ hcall).exec hs hnone i)⟩
  | returnCurrent k settled error verified hcall hnone =>
      have hok := hs.currents k _ hcall
      refine ⟨hs.members, hs.safe, hs.answered, hs.returned, hs.won,
        forall_update hs.currents ⟨hok.replies, hok.after, fun v hv => ?_⟩⟩
      exact hok.read (Option.some.inj hv)

theorem quorumInv {s : QuorumState n κ}
    (h : Transition.Reachable (quorumSystem c resolver n κ) s) : QuorumInv s := by
  refine h.invariant ?_ fun _ _ _ hs hstep => hs.step hstep
  rintro s rfl
  exact ⟨fun i => ⟨none, ⟨rfl, by simp⟩, by simpa using Covers.empty _ none⟩, by simp, by simp,
    by simp, by simp, by simp⟩

/-! ## Safety -/

omit [DecidableEq κ] in
/-- A member that holds anything holds an epoch. -/
theorem QuorumInv.epoch {s : QuorumState n κ} (hs : QuorumInv s) {i : Fin n} {raw : JsString}
    (h : s.members i = some raw) : ∃ e : ℤ, decodedEpoch raw = some (.fin e) := by
  obtain ⟨held, ⟨hraw, hsafe⟩, -⟩ := hs.members i
  rw [h] at hraw
  cases held with
  | none => simp at hraw
  | some r =>
      obtain rfl := Option.some.inj hraw
      exact ⟨r.epoch, decodedEpoch_recordText (hsafe r rfl)⟩

/-- Members that hold epochs hold these or higher ones later. -/
def EpochsRise (before after : Fin n → Option JsString) : Prop :=
  ∀ i raw (e : ℤ), before i = some raw → decodedEpoch raw = some (.fin e) →
    ∃ raw', ∃ e' : ℤ, after i = some raw' ∧ decodedEpoch raw' = some (.fin e') ∧ e ≤ e'

theorem EpochsRise.refl (members : Fin n → Option JsString) : EpochsRise members members :=
  fun _ raw e hraw he => ⟨raw, e, hraw, he, Int.le_refl e⟩

theorem EpochsRise.trans {s t u : Fin n → Option JsString} (h : EpochsRise s t)
    (h' : EpochsRise t u) : EpochsRise s u := by
  intro i raw e hraw he
  obtain ⟨raw', e', hraw', he', hle⟩ := h i raw e hraw he
  obtain ⟨raw'', e'', hraw'', he'', hle'⟩ := h' i raw' e' hraw' he'
  exact ⟨raw'', e'', hraw'', he'', Int.le_trans hle hle'⟩

theorem epochsRise_step {s t : QuorumState n κ} (hs : QuorumInv s)
    (h : QuorumStep c resolver s t) : EpochsRise s.members t.members := by
  cases h with
  | @execClaim k i call epochArg text hcall hargs =>
      intro j raw e hraw he
      by_cases hj : j = i
      · subst hj
        simp only [Function.update_self]
        obtain ⟨held, hheld, hcovers⟩ := hs.members j
        have hr := hs.safe k call hcall
        rcases exec_claim hheld hcovers hr hargs with ⟨-, htakes, hholds, -⟩ | ⟨-, hkept⟩
        · refine ⟨recordText call.record, call.record.epoch, hholds.1, decodedEpoch_recordText hr,
            ?_⟩
          obtain ⟨hmember, hsafe⟩ := hheld
          rw [hraw] at hmember
          cases held with
          | none => simp at hmember
          | some w =>
              obtain rfl := Option.some.inj hmember
              rw [decodedEpoch_recordText (hsafe w rfl)] at he
              have hwe : w.epoch = e := by simpa using he
              rcases htakes w rfl with hlt | rfl
              · exact hwe ▸ Int.le_of_lt hlt
              · exact Int.le_of_eq hwe.symm
        · rw [hkept]
          exact ⟨raw, e, hraw, he, Int.le_refl e⟩
      · simp only [Function.update_of_ne hj]
        exact ⟨raw, e, hraw, he, Int.le_refl e⟩
  | _ => exact EpochsRise.refl _

theorem epochsRise {s t : QuorumState n κ}
    (hs : Transition.Reachable (quorumSystem c resolver n κ) s)
    (h : Transition.Run (quorumSystem c resolver n κ) s t) : EpochsRise s.members t.members :=
  h.monotone (R := fun s t => EpochsRise s.members t.members) (fun s => EpochsRise.refl s.members)
    (fun _ _ _ => EpochsRise.trans) (fun _ _ hs hstep => epochsRise_step (quorumInv hs) hstep) hs

/-- The safety of the quorum along a run from `s` to `t`. -/
structure QuorumSafe (s t : QuorumState n κ) : Prop where
  /-- What a member stores has an epoch. -/
  epoch : ∀ i raw, s.members i = some raw → ∃ e : ℤ, decodedEpoch raw = some (.fin e)
  rise : EpochsRise s.members t.members
  /-- Majorities accept at most one record of an epoch. -/
  agree : ∀ r r', Stored s.accepted r → Stored s.accepted r' → r.epoch = r'.epoch → r = r'
  /-- A claim returns true for a record that a majority has accepted. -/
  claimed : ∀ k call, s.claims k = some call → call.result = some true →
    call.record ∈ s.won ∧ Stored s.accepted call.record
  /-- `current()` returns a record no older than any whose claim had returned true before. -/
  current : ∀ k call v, s.currents k = some call → call.result = some (.ok v) →
    ∃ cur : RedisFenceRecord, v = cur.toValue ∧ ∀ r ∈ call.after, r.epoch ≤ cur.epoch

variable (c resolver)

theorem quorumSafe {s t : QuorumState n κ}
    (hs : Transition.Reachable (quorumSystem c resolver n κ) s)
    (ht : Transition.Run (quorumSystem c resolver n κ) s t) : QuorumSafe s t := by
  have hinv := quorumInv hs
  refine ⟨fun i raw hraw => hinv.epoch hraw, epochsRise hs ht, ?_, ?_, ?_⟩
  · rintro r r' ⟨members, hmaj, hacc⟩ ⟨members', hmaj', hacc'⟩ hepoch
    choose held _ hcovers using hinv.members
    exact agree_of_majorities hcovers hmaj hmaj' hacc hacc' hepoch
  · intro k call hcall hret
    have hwon := hinv.returned k call hcall hret
    exact ⟨hwon, hinv.won _ hwon⟩
  · intro k call v hcall hres
    exact (hinv.currents k call hcall).result v hres

namespace QuorumExample

/-- The one trusted key. -/
def keys : PublicKeyResolver lengthCrypto := fun keyId =>
  if keyId = Js.lit "node" then some (1 : ℕ) else none

def bareRecord : BareRedisFenceRecord :=
  { streamId := Js.lit "stream", epoch := 1, nodeId := Js.lit "a", authoritySystemId := Js.lit "7"
    nodeCredentialKeyId := Js.lit "node", commandId := Js.lit "claim", claimedAtMs := 0 }

@[irreducible]
def record : RedisFenceRecord :=
  result (signRedisFenceRecord lengthCrypto (Js.lit "node") (1 : ℕ) bareRecord) (by decide +kernel)

theorem record_safe : SafeRecord record := by
  unfold SafeRecord
  decide +kernel

theorem parseFence_eq :
    parseFence lengthCrypto keys (recordText record) = .ok record.toValue := by
  have hok : (parseFence lengthCrypto keys (recordText record)).isOk = true := by decide +kernel
  obtain ⟨v, heq⟩ : ∃ v, parseFence lengthCrypto keys (recordText record) = .ok v :=
    ⟨_, eq_ok_result _ hok⟩
  have hholds : Holds (some (recordText record)) (some record) :=
    ⟨rfl, fun r hr => Option.some.inj hr ▸ record_safe⟩
  obtain ⟨r, hr, rfl⟩ := fenceCurrent_spec lengthCrypto keys hholds (v := v)
    ((bind_eq_ok _ _ _).mpr ⟨v, heq, rfl⟩)
  rw [heq, Option.some.inj hr]

theorem fenceClaimArgs_eq : fenceClaimArgs lengthCrypto keys record =
    .ok (Js.numberText (.fin record.epoch), recordText record) :=
  (bind_eq_ok _ _ _).mpr ⟨_, parseFence_eq, rfl⟩

/-- Two of three members hold the record, and the third does not answer. -/
theorem rawCurrent_eq (error : HaError) : rawCurrent [.ok (some record.toValue),
    .ok (some record.toValue), .error error] = .ok record.toValue := by
  have hok : (canonicalize record.toValue).isOk = true := by decide +kernel
  obtain ⟨key, hkey⟩ : ∃ key, canonicalize record.toValue = .ok key := ⟨_, eq_ok_result _ hok⟩
  have hgroups : groupAnswers [.ok (some record.toValue), .ok (some record.toValue),
      .error error] [] = .ok [⟨key, record.toValue, 2⟩] := by
    simp only [groupAnswers, hkey, bind_eq_ok, Except.ok.injEq, exists_eq_left', addToGroup, if_true]
    rfl
  simp [rawCurrent, hgroups, fenceQuorum, pure_eq_ok]

abbrev Reaches (s : QuorumState 3 Unit) : Prop :=
  Transition.Reachable (quorumSystem lengthCrypto keys 3 Unit) s

/-- A claim that the members `answered` have executed. -/
def claiming (answered : Finset (Fin 3)) : QuorumState 3 Unit where
  members i := if i ∈ answered then some (recordText record) else none
  accepted i := if i ∈ answered then [record] else []
  claims _ := some ⟨record, answered, none⟩
  currents _ := none
  won := []

theorem update_unit {α : Type} (f : Unit → α) (a : α) : Function.update f () a = fun _ => a :=
  funext fun _ => Function.update_self _ _ _

theorem reaches_start : Reaches (claiming ∅) := by
  have h := (Transition.Reachable.init (S := quorumSystem lengthCrypto keys 3 Unit) rfl).next
    (.startClaim () record rfl record_safe)
  rwa [update_unit] at h

theorem Reaches.exec {answered : Finset (Fin 3)} (h : Reaches (claiming answered)) {i : Fin 3}
    (hi : i ∉ answered) : Reaches (claiming (insert i answered)) := by
  have h' := h.next (.execClaim () i rfl fenceClaimArgs_eq)
  have hraw : (claiming answered).members i = none := if_neg hi
  have hacc : (claiming answered).accepted i = [] := if_neg hi
  rw [hraw, hacc, update_unit] at h'
  have hmembers : (claiming (insert i answered)).members =
      Function.update (claiming answered).members i (some (recordText record)) := by
    funext j
    by_cases hj : j = i
    · simp [hj, claiming]
    · simp [hj, claiming]
  have haccepted : (claiming (insert i answered)).accepted =
      Function.update (claiming answered).accepted i [record] := by
    funext j
    by_cases hj : j = i
    · simp [hj, claiming]
    · simp [hj, claiming]
  have heq : claiming (insert i answered) = { claiming answered with
      members := (claiming (insert i answered)).members
      accepted := (claiming (insert i answered)).accepted
      claims := fun _ => some ⟨record, insert i answered, none⟩ } := rfl
  rw [heq, hmembers, haccepted]
  exact h'

/-- The claim has returned true, and a read has seen two members. -/
def reading (result : Option (Except HaError JsValue)) : QuorumState 3 Unit :=
  { claiming {1, 0} with
    claims := fun _ => some ⟨record, {1, 0}, some true⟩
    currents := fun _ => some ⟨[record], fun i =>
      if i = 2 then none else some (some (recordText record)), result⟩
    won := [record] }

theorem reaches_reading : Reaches (reading none) := by
  have h := (reaches_start.exec (i := 0) (by decide)).exec (i := 1) (by decide)
  have h₁ := h.next (.returnClaim () {1, 0} rfl rfl (by decide))
  rw [update_unit] at h₁
  have h₂ := h₁.next (.startCurrent () rfl)
  rw [update_unit] at h₂
  have h₃ := h₂.next (.execGet () 0 rfl rfl)
  rw [update_unit] at h₃
  have h₄ := h₃.next (.execGet () 1 rfl rfl)
  rw [update_unit] at h₄
  have hreplies : (fun i : Fin 3 => if i = 2 then none else some (some (recordText record))) =
      Function.update (Function.update (fun _ : Fin 3 => none) 0 (some (some (recordText record))))
        1 (some (some (recordText record))) := by
    funext i
    match i with
    | 0 => rfl
    | 1 => rfl
    | 2 => rfl
  unfold reading
  rw [hreplies]
  exact h₄

theorem reaches_read : Reaches (reading (some (.ok record.toValue))) := by
  have error : HaError := .contractValidation "Redis fence member deadline exceeded"
  have h := reaches_reading.next (.returnCurrent () {0, 1} error (fun _ => .ok ()) rfl rfl)
  rw [update_unit] at h
  have hread : fenceCurrent lengthCrypto keys (some (recordText record)) =
      .ok (some record.toValue) :=
    (bind_eq_ok _ _ _).mpr ⟨_, parseFence_eq, rfl⟩
  have hanswers : (List.finRange 3).map (settledAnswer lengthCrypto keys
      ⟨[record], fun i => if i = 2 then none else some (some (recordText record)), none⟩ {0, 1}
      error) =
      [.ok (some record.toValue), .ok (some record.toValue), .error error] := by
    simp [List.finRange_succ, settledAnswer, hread]
  have hcurrent : quorumCurrent (fun _ => .ok ()) ((List.finRange 3).map
      (settledAnswer lengthCrypto keys ⟨[record], fun i => if i = 2 then none else
        some (some (recordText record)), none⟩ {0, 1} error)) = .ok record.toValue := by
    rw [hanswers]
    exact (bind_eq_ok _ _ _).mpr ⟨_, rawCurrent_eq error, rfl⟩
  unfold reading
  rw [← hcurrent]
  exact h

end QuorumExample

/-- A run to which the theorem applies: a claim has returned true, and a read after it has returned
    its record. -/
theorem quorumSafe_reading : ∃ s : QuorumState 3 Unit, QuorumSafe s s ∧
    ∃ v cur, (∃ call, s.currents () = some call ∧ call.result = some (.ok v)) ∧
      v = RedisFenceRecord.toValue cur ∧ QuorumExample.record.epoch ≤ cur.epoch := by
  have hsafe := quorumSafe lengthCrypto QuorumExample.keys QuorumExample.reaches_read .refl
  obtain ⟨cur, hv, hle⟩ := hsafe.current () _ _ rfl rfl
  exact ⟨_, hsafe, _, cur, ⟨_, rfl, rfl⟩, hv, hle _ List.mem_cons_self⟩

end Ha
