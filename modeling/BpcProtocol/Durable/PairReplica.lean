import BpcProtocol.Durable.PairStore

set_option autoImplicit false

/-! # The replica of the pair authority

The mutations that the operations of the source append, applied one after another to empty tables,
lead to the tables of the source. -/

namespace Durable

open Ha Fallible Relational

/-! ## Statements on equal tables -/

namespace PairTables

variable {a a' b : PairTables}

theorem affectedOne_one (label : String) : affectedOne 1 label = .ok () :=
  ensure_of rfl _

/-- The row of a pair after an upsert. -/
theorem upsertPair_eq_ok {p : CanonicalStoredPair} (h : a.upsertPair p = .ok a') :
    ∃ row, pairParams p = .ok row ∧ pairSchema.check row = true ∧
      (∀ id, a'.pairOf id = if row.id == id then some row else a.pairOf id) ∧
      a'.pending = a.pending := by
  simp only [upsertPair, bind_eq_ok, query_eq_ok, exists_unit, pure_eq_ok] at h
  obtain ⟨row, hrow, ⟨pairs, n⟩, hpairs, -, rfl⟩ := h
  exact ⟨row, hrow, Table.check_of_upsert pairSchema_clash hpairs,
    Table.select_key_upsert pairSchema_clash hpairs, rfl⟩

theorem Same.upsertPair {p : CanonicalStoredPair} (hsame : Same a b)
    (h : a.upsertPair p = .ok a') : ∃ b', b.upsertPair p = .ok b' ∧ Same a' b' := by
  obtain ⟨row, hrow, hcheck, hpairs, hpending⟩ := upsertPair_eq_ok h
  obtain ⟨pairs, hupsert⟩ :=
    Table.upsert_isOk pairSchema_clash (t := b.pairs) hcheck
  have hb : b.upsertPair p = .ok { b with pairs } := by
    simp only [PairTables.upsertPair, bind_eq_ok, query_eq_ok, exists_unit, pure_eq_ok]
    exact ⟨row, hrow, (pairs, 1), hupsert, affectedOne_one _, rfl⟩
  obtain ⟨row', hrow', -, hpairs', hpending'⟩ := upsertPair_eq_ok hb
  rw [hrow] at hrow'
  cases hrow'
  refine ⟨_, hb, fun id => ?_, fun token => ?_⟩
  · rw [hpairs, hpairs', hsame.pairs]
  · exact (congrArg (fun t : Table pendingSchema => t.select fun r => r.token == token)
      hpending).trans (hsame.pending token)

/-- The row of a pair after an insertion. -/
theorem insertPair_eq_ok {p : CanonicalStoredPair} (h : a.insertPair p = .ok a') :
    ∃ row, pairParams p = .ok row ∧ pairSchema.check row = true ∧
      (a.pairOf row.id = none → ∀ id,
        a'.pairOf id = if row.id == id then some row else a.pairOf id) ∧
      a'.pending = a.pending := by
  simp only [insertPair, bind_eq_ok, query_eq_ok, pure_eq_ok] at h
  obtain ⟨row, hrow, pairs, hpairs, rfl⟩ := h
  exact ⟨row, hrow, Table.check_of_insert hpairs,
    fun hnone => Table.select_key_insert PairRow.id hpairs hnone, rfl⟩

theorem id_pairParams {p : CanonicalStoredPair} {row : PairRow} (h : pairParams p = .ok row) :
    row.id = p.id.1 := by
  simp only [pairParams, bind_eq_ok, pure_eq_ok] at h
  obtain ⟨-, -, rfl⟩ := h
  rfl

theorem Same.insertPair {p : CanonicalStoredPair} (hsame : Same a b)
    (hnone : a.pairOf p.id.1 = none) (h : a.insertPair p = .ok a') :
    ∃ b', b.insertPair p = .ok b' ∧ Same a' b' := by
  obtain ⟨row, hrow, hcheck, hpairs, hpending⟩ := insertPair_eq_ok h
  rw [← id_pairParams hrow] at hnone
  have hnone' : b.pairOf row.id = none := (hsame.pairs _).symm.trans hnone
  obtain ⟨pairs, hinsert⟩ :=
    Table.insert_isOk pairSchema_clash (t := b.pairs) hcheck hnone'
  have hb : b.insertPair p = .ok { b with pairs } := by
    simp only [PairTables.insertPair, bind_eq_ok, query_eq_ok, pure_eq_ok]
    exact ⟨row, hrow, pairs, hinsert, rfl⟩
  obtain ⟨row', hrow', -, hpairs', -⟩ := insertPair_eq_ok hb
  rw [hrow] at hrow'
  cases hrow'
  refine ⟨_, hb, fun id => ?_, fun token => ?_⟩
  · rw [hpairs hnone, hpairs' hnone', hsame.pairs]
  · exact (congrArg (fun t : Table pendingSchema => t.select fun r => r.token == token)
      hpending).trans (hsame.pending token)

theorem Same.upsertPending {token : JsString} {r : CanonicalPairRegistration} {requestedAt : SafeNat}
    (hsame : Same a b) (h : a.upsertPending token r requestedAt = .ok a') :
    ∃ b', b.upsertPending token r requestedAt = .ok b' ∧ Same a' b' := by
  simp only [PairTables.upsertPending, bind_eq_ok, query_eq_ok, exists_unit, pure_eq_ok] at h
  obtain ⟨⟨pending, n⟩, hpending, -, rfl⟩ := h
  have hcheck := Table.check_of_upsert pendingSchema_clash hpending
  obtain ⟨pending', hupsert⟩ :=
    Table.upsert_isOk pendingSchema_clash (t := b.pending) hcheck
  refine ⟨{ b with pending := pending' }, ?_, hsame.pairs, fun k => ?_⟩
  · simp only [PairTables.upsertPending, bind_eq_ok, query_eq_ok, exists_unit, pure_eq_ok]
    exact ⟨(pending', 1), hupsert, affectedOne_one _, rfl⟩
  · have hleft := Table.select_key_upsert pendingSchema_clash hpending k
    have hright := Table.select_key_upsert pendingSchema_clash hupsert k
    show pending.select _ = pending'.select _
    rw [hleft, hright]
    exact congrArg _ (hsame.pending k)

/-- No key has more than one row, so a deletion by key affects one row at most. -/
theorem deletePair_ok (a : PairTables) (id : JsString) :
    ∃ a', a.deletePair id = .ok a' ∧
      (∀ k, a'.pairOf k = if id == k then none else a.pairOf k) ∧ a'.pending = a.pending := by
  have hcount := @Table.count_delete _ pairSchema _ _ _ PairRow.id pairSchema_clash a.pairs id
    fun _ => true
  refine ⟨{ a with pairs := (a.pairs.delete fun r => r.id == id && true).1 }, ?_,
    fun k => @Table.select_key_delete _ pairSchema _ _ _ PairRow.id a.pairs id k _
      fun _ _ _ => rfl, rfl⟩
  simp only [deletePair, affectedZeroOrOne, bind_eq_ok, ensure_eq_ok, exists_unit, pure_eq_ok]
  rw [hcount]
  split
  · exact ⟨.inr rfl, trivial⟩
  · exact ⟨.inl rfl, trivial⟩

theorem Same.deletePair {id : JsString} (hsame : Same a b) (h : a.deletePair id = .ok a') :
    ∃ b', b.deletePair id = .ok b' ∧ Same a' b' := by
  obtain ⟨a'', ha, hpairs, hpending⟩ := deletePair_ok a id
  rw [ha] at h
  cases h
  obtain ⟨b', hb, hpairs', hpending'⟩ := deletePair_ok b id
  refine ⟨b', hb, fun k => ?_, fun token => ?_⟩
  · rw [hpairs, hpairs', hsame.pairs]
  · show a'.pending.select _ = b'.pending.select _
    rw [hpending, hpending']
    exact hsame.pending token

theorem deletePending_ok (a : PairTables) (token : JsString) :
    ∃ a', a.deletePending token = .ok a' ∧
      (∀ k, a'.pendingOf k = if token == k then none else a.pendingOf k) ∧ a'.pairs = a.pairs := by
  have hcount := @Table.count_delete _ pendingSchema _ _ _ PendingRow.token pendingSchema_clash
    a.pending token fun _ => true
  refine ⟨{ a with pending := (a.pending.delete fun r => r.token == token && true).1 }, ?_,
    fun k => @Table.select_key_delete _ pendingSchema _ _ _ PendingRow.token a.pending token k _
      fun _ _ _ => rfl, rfl⟩
  simp only [deletePending, affectedZeroOrOne, bind_eq_ok, ensure_eq_ok, exists_unit, pure_eq_ok]
  rw [hcount]
  split
  · exact ⟨.inr rfl, trivial⟩
  · exact ⟨.inl rfl, trivial⟩

theorem Same.deletePending {token : JsString} (hsame : Same a b)
    (h : a.deletePending token = .ok a') : ∃ b', b.deletePending token = .ok b' ∧ Same a' b' := by
  obtain ⟨a'', ha, hpending, hpairs⟩ := deletePending_ok a token
  rw [ha] at h
  cases h
  obtain ⟨b', hb, hpending', hpairs'⟩ := deletePending_ok b token
  refine ⟨b', hb, fun id => ?_, fun k => ?_⟩
  · show a'.pairs.select _ = b'.pairs.select _
    rw [hpairs, hpairs']
    exact hsame.pairs id
  · rw [hpending, hpending', hsame.pending]

/-- The deletion of the registration that is pending since a time. -/
theorem deleteApproved_ok {token : JsString} {requestedAt : SafeNat} {row : PendingRow}
    (hrow : a.pendingOf token = some row) (hat : row.requestedAt = (requestedAt.1 : ℤ))
    (label : String) :
    ∃ a', a.deleteApproved token requestedAt label = .ok a' ∧
      (∀ k, a'.pendingOf k = if token == k then none else a.pendingOf k) ∧ a'.pairs = a.pairs := by
  have hcount := @Table.count_delete _ pendingSchema _ _ _ PendingRow.token pendingSchema_clash
    a.pending token fun r => r.requestedAt == (requestedAt.1 : ℤ)
  have hselect : a.pending.select (fun r => r.token == token) = some row := hrow
  rw [hselect, Option.any_some, hat, beq_self_eq_true, if_pos rfl] at hcount
  refine ⟨{ a with pending := (a.pending.delete fun r => r.token == token &&
      r.requestedAt == (requestedAt.1 : ℤ)).1 }, ?_,
    fun k => @Table.select_key_delete _ pendingSchema _ _ _ PendingRow.token a.pending token k
      (fun r => r.requestedAt == (requestedAt.1 : ℤ)) ?_, rfl⟩
  · simp only [deleteApproved, affectedOne, bind_eq_ok, ensure_eq_ok, exists_unit, pure_eq_ok]
    exact ⟨hcount, trivial⟩
  · -- the row of the token is the only one
    intro x hx hkey
    have hsame : x = row := Table.eq_of_select_key pendingSchema_clash hselect hx hkey
    rw [hsame, hat, beq_self_eq_true]

theorem Same.deleteApproved {token : JsString} {requestedAt : SafeNat} {row : PendingRow}
    {label : String} (hsame : Same a b) (hrow : a.pendingOf token = some row)
    (hat : row.requestedAt = (requestedAt.1 : ℤ))
    (h : a.deleteApproved token requestedAt label = .ok a') (label' : String) :
    ∃ b', b.deleteApproved token requestedAt label' = .ok b' ∧ Same a' b' ∧ a'.pairs = a.pairs := by
  obtain ⟨a'', ha, hpending, hpairs⟩ := deleteApproved_ok hrow hat label
  rw [ha] at h
  cases h
  have hrow' : b.pendingOf token = some row := (hsame.pending token).symm.trans hrow
  obtain ⟨b', hb, hpending', hpairs'⟩ := deleteApproved_ok hrow' hat label'
  refine ⟨b', hb, ⟨fun id => ?_, fun k => ?_⟩, hpairs⟩
  · show a'.pairs.select _ = b'.pairs.select _
    rw [hpairs, hpairs']
    exact hsame.pairs id
  · rw [hpending, hpending', hsame.pending]

end PairTables

/-! ## Plans on the replica -/

namespace PgPairMutationApplier

variable (applier : PgPairMutationApplier)

/-- The records of rows, applied one after another. -/
def applyAll (tables : PairTables) (entries : List OutboxEntry) : Except HaError PairTables :=
  entries.foldlM (fun db entry => applier.applyInTx db entry.record) tables

/-- The records of rows, applied in the order of their sequences. -/
def replay (tables : PairTables) (entries : List OutboxEntry) : Except HaError PairTables :=
  applier.applyAll tables (orderBy (fun entry => entry.sequence) entries)

end PgPairMutationApplier

/-- The applier of a replica of the store: its keyring resolves the same keys, whichever of them is
    active there. -/
def PgTransactionalPairStore.replica (store : PgTransactionalPairStore) (activeKeyId : JsString) :
    PgPairMutationApplier where
  streamId := store.streamId
  codec := { store.codec with keyring := { store.codec.keyring with activeKeyId } }

/-- What a plan writes to the tables of the source, its mutation writes to those of a replica that
    has the same rows. -/
def Plan.Faithful {α : Type} (applier : PgPairMutationApplier) (tables : PairTables) :
    Plan α → Prop
  | .done _ => True
  | .write mutation dml _ => mutation.Accepted → ∀ replica written : PairTables,
      tables.Same replica → dml.run tables = .ok written →
        ∃ replica', applier.applyMutation replica mutation = .ok replica' ∧ written.Same replica'

namespace PgTransactionalPairStore

variable {store : PgTransactionalPairStore} (hinv : store.codec.aead.Inverts)
  (activeKeyId : JsString) {tables : PairTables}

/-- A mutation that is committed is normalized already. -/
theorem planCommit_eq_ok {m : BpcPairMutation} {dml : PairDml} {plan : Plan Unit}
    (h : planCommit m dml = .ok plan) : plan = .write m dml (.ok ()) := by
  simp only [planCommit, bind_eq_ok, ofHa_eq_ok, pure_eq_ok] at h
  obtain ⟨clean, hclean, rfl⟩ := h
  rw [(normalizeMutation_toJs.mp hclean).1]

theorem faithful_delete {pairId : JsString} {plan : Plan Unit}
    (h : delete pairId tables = .ok plan) : plan.Faithful (store.replica activeKeyId) tables := by
  simp only [delete, bind_eq_ok, ofHa_eq_ok] at h
  obtain ⟨id, -, hcommit⟩ := h
  rw [planCommit_eq_ok hcommit]
  intro haccepted replica written hsame hwritten
  exact hsame.deletePair hwritten

theorem faithful_deletePending {token : JsString} {plan : Plan Unit}
    (h : deletePending token tables = .ok plan) :
    plan.Faithful (store.replica activeKeyId) tables := by
  simp only [deletePending, bind_eq_ok, ofHa_eq_ok] at h
  obtain ⟨token, -, hcommit⟩ := h
  rw [planCommit_eq_ok hcommit]
  intro haccepted replica written hsame hwritten
  exact hsame.deletePending hwritten

/-- A plan that is made from the row of a pair, if it has one. -/
theorem faithful_elim {α : Type} {row : Option PairRow} {a : α} {plan : Plan α}
    {make : PairRow → Except PairStoreError (Plan α)}
    (h : row.elim (.ok (.done a)) make = .ok plan)
    (hmake : ∀ r, row = some r → make r = .ok plan →
      plan.Faithful (store.replica activeKeyId) tables) :
    plan.Faithful (store.replica activeKeyId) tables := by
  cases row with
  | none =>
      cases h
      trivial
  | some r => exact hmake r rfl h

/-- The registration that the source found pending, the replica finds pending. -/
theorem checkPending_of {replica : PairTables} {row : PendingRow}
    {expected : CanonicalPairRegistration} {token : Bounded 256} {requestedAt : SafeNat}
    (hsame : tables.Same replica) (hrow : tables.pendingOf token.1 = some row)
    (hmatches : pendingMatches row expected requestedAt = .ok true) :
    row.requestedAt = (requestedAt.1 : ℤ) ∧
      PgPairMutationApplier.checkPending replica token requestedAt expected = .ok () := by
  unfold pendingMatches at hmatches
  split at hmatches
  · cases hmatches
  · next hat =>
      simp only [bind_eq_ok] at hmatches
      obtain ⟨registration, hregistration, hcanonical⟩ := hmatches
      have hat : row.requestedAt = (requestedAt.1 : ℤ) := not_not.mp hat
      refine ⟨hat, ?_⟩
      simp only [PgPairMutationApplier.checkPending, bind_eq_ok, found_eq_ok, ensure_eq_ok,
        exists_unit]
      exact ⟨row, (hsame.pending _).symm.trans hrow, hat, registration, hregistration, true,
        hcanonical, rfl⟩

include hinv

theorem faithful_planSet {α : Type} {nonce : Bytes} {pair : CanonicalStoredPair}
    {result : Except PairStoreError α} {plan : Plan α}
    (h : store.planSet nonce pair result = .ok plan) :
    plan.Faithful (store.replica activeKeyId) tables := by
  simp only [planSet, bind_eq_ok, ofHa_eq_ok, pure_eq_ok] at h
  obtain ⟨payload, hsealed, rfl⟩ := h
  intro haccepted replica written hsame hwritten
  have hopen := (PairPayloadCodec.openPair_sealPair hinv hsealed haccepted).1
  obtain ⟨replica', hreplica', hsame'⟩ := hsame.upsertPair hwritten
  refine ⟨replica', ?_, hsame'⟩
  simp only [PgPairMutationApplier.applyMutation, bind_eq_ok]
  exact ⟨pair, hopen, hreplica'⟩

theorem faithful_set {nonce : Bytes} {value : JsValue} {plan : Plan Unit}
    (h : store.set nonce value tables = .ok plan) :
    plan.Faithful (store.replica activeKeyId) tables := by
  simp only [set, bind_eq_ok, ofHa_eq_ok] at h
  obtain ⟨pair, -, payload, hsealed, hcommit⟩ := h
  rw [planCommit_eq_ok hcommit]
  intro haccepted replica written hsame hwritten
  have hopen := (PairPayloadCodec.openPair_sealPair hinv hsealed haccepted).1
  obtain ⟨replica', hreplica', hsame'⟩ := hsame.upsertPair hwritten
  refine ⟨replica', ?_, hsame'⟩
  simp only [PgPairMutationApplier.applyMutation, bind_eq_ok]
  exact ⟨pair, hopen, hreplica'⟩

theorem faithful_setPending {nonce : Bytes} {token : JsString} {value : JsValue}
    {requestedAt : JsNumber} {plan : Plan Unit}
    (h : store.setPending nonce token value requestedAt tables = .ok plan) :
    plan.Faithful (store.replica activeKeyId) tables := by
  simp only [setPending, bind_eq_ok, ofHa_eq_ok] at h
  obtain ⟨token, -, requestedAt, -, registration, -, payload, hsealed, hcommit⟩ := h
  rw [planCommit_eq_ok hcommit]
  intro haccepted replica written hsame hwritten
  have hopen := PairPayloadCodec.openRegistration_sealRegistration hinv hsealed haccepted
  obtain ⟨replica', hreplica', hsame'⟩ := hsame.upsertPending hwritten
  refine ⟨replica', ?_, hsame'⟩
  simp only [PgPairMutationApplier.applyMutation, bind_eq_ok]
  exact ⟨registration, hopen, hreplica'⟩

theorem faithful_atomicMutate {nonce : Bytes} {pairId : JsString} {mutate : PairAtomicMutation}
    {plan : Plan (Option Pair.StoredPair)}
    (h : store.atomicMutate nonce pairId mutate tables = .ok plan) :
    plan.Faithful (store.replica activeKeyId) tables := by
  simp only [atomicMutate, bind_eq_ok, ofHa_eq_ok] at h
  obtain ⟨id, -, hplan⟩ := h
  refine faithful_elim activeKeyId hplan fun row _ hrow => ?_
  simp only [bind_eq_ok, ofHa_eq_ok, ofServer_eq_ok, planMutated] at hrow
  obtain ⟨current, -, candidate, -, hrow⟩ := hrow
  split at hrow
  · cases hrow
    trivial
  · simp only [bind_eq_ok, ofHa_eq_ok] at hrow
    obtain ⟨next, -, _, -, hset⟩ := hrow
    exact faithful_planSet hinv activeKeyId hset

theorem faithful_conditionalStatus {nonce : Bytes} {pairId : JsString}
    {predicate : Pair.StoredPair → Bool} {status : Pair.PairStatus} {plan : Plan Bool}
    (h : store.conditionalStatus nonce pairId predicate status tables = .ok plan) :
    plan.Faithful (store.replica activeKeyId) tables := by
  simp only [conditionalStatus, bind_eq_ok, ofHa_eq_ok] at h
  obtain ⟨id, -, hplan⟩ := h
  refine faithful_elim activeKeyId hplan fun row _ hrow => ?_
  simp only [bind_eq_ok, ofHa_eq_ok] at hrow
  obtain ⟨current, -, hrow⟩ := hrow
  split at hrow
  · cases hrow
    trivial
  · simp only [bind_eq_ok, ofHa_eq_ok] at hrow
    obtain ⟨next, -, hset⟩ := hrow
    exact faithful_planSet hinv activeKeyId hset

theorem faithful_planUse {nonce : Bytes} {current : Pair.StoredPair} {at_ : JsNumber}
    {captured : Pair.SuccessfulUsePolicy} {plan : Plan Pair.SuccessfulUseClaim}
    (h : store.planUse nonce current at_ captured = .ok plan) :
    plan.Faithful (store.replica activeKeyId) tables := by
  simp only [planUse, bind_eq_ok, ofServer_eq_ok] at h
  obtain ⟨agrees, -, h⟩ := h
  split at h
  · cases h
    trivial
  · simp only [bind_eq_ok, ofHa_eq_ok] at h
    obtain ⟨_, -, next, -, hset⟩ := h
    exact faithful_planSet hinv activeKeyId hset

theorem faithful_planExpired {nonce : Bytes} {current : Pair.StoredPair}
    {outcome : Pair.SuccessfulUseClaim} {plan : Plan Pair.SuccessfulUseClaim}
    (h : store.planExpired nonce current outcome = .ok plan) :
    plan.Faithful (store.replica activeKeyId) tables := by
  simp only [planExpired, bind_eq_ok, ofHa_eq_ok] at h
  obtain ⟨expired, -, hset⟩ := h
  exact faithful_planSet hinv activeKeyId hset

theorem faithful_claimSuccessfulUse {nonce : Bytes} {pairId : JsString} {at_ : JsNumber}
    {expected : Pair.SuccessfulUsePolicy} {plan : Plan Pair.SuccessfulUseClaim}
    (h : store.claimSuccessfulUse nonce pairId at_ expected tables = .ok plan) :
    plan.Faithful (store.replica activeKeyId) tables := by
  simp only [claimSuccessfulUse, bind_eq_ok, ofHa_eq_ok, ofServer_eq_ok] at h
  obtain ⟨id, -, _, -, key, -, hplan⟩ := h
  refine faithful_elim activeKeyId hplan fun row _ hrow => ?_
  simp only [bind_eq_ok, ofHa_eq_ok, planClaim] at hrow
  obtain ⟨current, -, hrow⟩ := hrow
  split at hrow
  · cases hrow
    trivial
  split at hrow
  · cases hrow
    trivial
  split at hrow
  · cases hrow
    trivial
  split at hrow
  · exact faithful_planExpired hinv activeKeyId hrow
  split at hrow
  · exact faithful_planExpired hinv activeKeyId hrow
  · exact faithful_planUse hinv activeKeyId hrow

theorem faithful_approvePending {pendingNonce pairNonce : Bytes} {token : JsString}
    {expected pairValue : JsValue} {requestedAt maxActivePairs : JsNumber} {plan : Plan Bool}
    (h : store.approvePending pendingNonce pairNonce token expected requestedAt pairValue
      maxActivePairs tables = .ok plan) : plan.Faithful (store.replica activeKeyId) tables := by
  simp only [approvePending, bind_eq_ok, ofHa_eq_ok] at h
  obtain ⟨token, -, capacity, -, registration, -, pair, -, _, happroval, requestedAt, -,
    pendingPayload, hpendingSealed, payload, hpairSealed, h⟩ := h
  cases hrow : tables.pendingOf token.1 with
  | none =>
      rw [hrow] at h
      cases h
      trivial
  | some row =>
      rw [hrow] at h
      simp only [Option.elim_some, bind_eq_ok, ofHa_eq_ok] at h
      obtain ⟨same, hmatches, h⟩ := h
      split at h
      · cases h
        trivial
      · next hsameRow =>
          obtain rfl : same = true := by simpa using hsameRow
          simp only [ofHa_eq_ok, planApproved, bind_eq_ok, ensure_eq_ok, exists_unit,
            pure_eq_ok] at h
          obtain ⟨-, hnone, rfl⟩ := h
          intro haccepted replica written hsame hwritten
          obtain ⟨hat, hcheck⟩ := checkPending_of hsame hrow hmatches
          have hopenPending :=
            PairPayloadCodec.openRegistration_sealRegistration hinv hpendingSealed haccepted.1
          have hopen := (PairPayloadCodec.openPair_sealPair hinv hpairSealed haccepted.2).1
          simp only [PairDml.run, bind_eq_ok] at hwritten
          obtain ⟨deleted, hdeleted, hinserted⟩ := hwritten
          obtain ⟨replicaDeleted, hreplicaDeleted, hsameDeleted, hpairs⟩ :=
            hsame.deleteApproved hrow hat hdeleted "replica pending approval delete"
          have hnoneDeleted : deleted.pairOf pair.id.1 = none := by
            rw [PairTables.pairOf, hpairs]
            exact hnone
          obtain ⟨replica', hreplica', hsame'⟩ := hsameDeleted.insertPair hnoneDeleted hinserted
          refine ⟨replica', ?_, hsame'⟩
          simp only [PgPairMutationApplier.applyMutation, PgPairMutationApplier.applyApprove,
            bind_eq_ok, ensure_eq_ok, exists_unit]
          exact ⟨registration, hopenPending, pair, hopen, rfl, happroval, hcheck,
            (hsame.pairs _).symm.trans hnone, replicaDeleted, hreplicaDeleted, hreplica'⟩

theorem faithful_rotatePair {oldNonce newNonce : Bytes} {expectedOldValue replacementValue : JsValue}
    {plan : Plan Bool}
    (h : store.rotatePair oldNonce newNonce expectedOldValue replacementValue tables = .ok plan) :
    plan.Faithful (store.replica activeKeyId) tables := by
  simp only [rotatePair, bind_eq_ok, ofHa_eq_ok, ensure_eq_ok, exists_unit] at h
  obtain ⟨expectedOld, -, replacement, -, hne, hpolicy, oldPayload, holdSealed, payload, hsealed,
    h⟩ := h
  refine faithful_elim activeKeyId h fun row hrow hplan => ?_
  simp only [bind_eq_ok, ofHa_eq_ok] at hplan
  obtain ⟨same, hmatches, hplan⟩ := hplan
  split at hplan
  · cases hplan
    trivial
  split at hplan
  · cases hplan
    trivial
  next hsameRow hguard =>
    obtain rfl : same = true := by simpa using hsameRow
    have hnone : tables.pairOf replacement.id.1 = none := by
      simpa using fun hsome => hguard (.inr hsome)
    cases hplan
    intro haccepted replica written hsame hwritten
    obtain ⟨-, holdAccepted, hnewAccepted⟩ := haccepted
    have hopenOld := (PairPayloadCodec.openPair_sealPair hinv holdSealed holdAccepted).1
    have hopen := (PairPayloadCodec.openPair_sealPair hinv hsealed hnewAccepted).1
    simp only [PairDml.run, bind_eq_ok] at hwritten
    obtain ⟨upserted, hupserted, hinserted⟩ := hwritten
    obtain ⟨replicaUpserted, hreplicaUpserted, hsameUpserted⟩ := hsame.upsertPair hupserted
    have hnoneUpserted : upserted.pairOf replacement.id.1 = none := by
      obtain ⟨oldRow, holdRow, -, hpairs, -⟩ := PairTables.upsertPair_eq_ok hupserted
      have hid := PairTables.id_pairParams holdRow
      rw [hpairs, hid, if_neg (by simpa using hne)]
      exact hnone
    obtain ⟨replica', hreplica', hsame'⟩ := hsameUpserted.insertPair hnoneUpserted hinserted
    have hcheck : PgPairMutationApplier.checkOld replica expectedOld.id expectedOld = .ok () := by
      simp only [pairMatches, bind_eq_ok] at hmatches
      obtain ⟨stored, hstored, current, hcurrent, hcanonical⟩ := hmatches
      simp only [PgPairMutationApplier.checkOld, bind_eq_ok, found_eq_ok, ensure_eq_ok]
      exact ⟨row, (hsame.pairs _).symm.trans hrow, stored, hstored, current, hcurrent, true,
        hcanonical, rfl⟩
    refine ⟨replica', ?_, hsame'⟩
    simp only [PgPairMutationApplier.applyMutation, PgPairMutationApplier.applyRotate,
      bind_eq_ok, ensure_eq_ok, exists_unit]
    exact ⟨expectedOld, hopenOld, replacement, hopen, ⟨rfl, rfl, hpolicy⟩, hcheck,
      (hsame.pairs _).symm.trans hnone, replicaUpserted, hreplicaUpserted, hreplica'⟩

end PgTransactionalPairStore

/-! ## Runs of the source -/

/-- An operation that may write, with its arguments and the nonces that it seals under. -/
inductive PairOperation where
  | set (nonce : Bytes) (value : JsValue)
  | delete (pairId : JsString)
  | setPending (nonce : Bytes) (token : JsString) (value : JsValue) (requestedAt : JsNumber)
  | deletePending (token : JsString)
  | atomicMutate (nonce : Bytes) (pairId : JsString)
      (mutate : PgTransactionalPairStore.PairAtomicMutation)
  | approvePending (pendingNonce pairNonce : Bytes) (token : JsString) (expected : JsValue)
      (requestedAt : JsNumber) (pairValue : JsValue) (maxActivePairs : JsNumber)
  | rotatePair (oldNonce newNonce : Bytes) (expectedOld replacement : JsValue)
  | claimSuccessfulUse (nonce : Bytes) (pairId : JsString) (at_ : JsNumber)
      (expected : Pair.SuccessfulUsePolicy)
  | expireIfElapsed (nonce : Bytes) (pairId : JsString) (now : JsNumber)
  | expireIfUsageExhausted (nonce : Bytes) (pairId : JsString)
  | lockIfFailureThreshold (nonce : Bytes) (pairId : JsString) (minimumFailures : JsNumber)

/-- The database after a transaction, as it was if the transaction threw. -/
def committed {α : Type} (db : SourceDb) (x : Except PairStoreError (α × SourceDb)) : SourceDb :=
  orElse (Prod.snd <$> x) db

namespace PgTransactionalPairStore

variable (store : PgTransactionalPairStore) (c : Ha.Crypto)

/-- The database after an operation. -/
def perform (db : SourceDb) : PairOperation → SourceDb
  | .set nonce value => committed db (store.withOutboxTx c db (store.set nonce value))
  | .delete pairId => committed db (store.withOutboxTx c db (delete pairId))
  | .setPending nonce token value requestedAt =>
      committed db (store.withOutboxTx c db (store.setPending nonce token value requestedAt))
  | .deletePending token => committed db (store.withOutboxTx c db (deletePending token))
  | .atomicMutate nonce pairId mutate =>
      committed db (store.withOutboxTx c db (store.atomicMutate nonce pairId mutate))
  | .approvePending pendingNonce pairNonce token expected requestedAt pairValue maxActivePairs =>
      committed db (store.withOutboxTx c db (store.approvePending pendingNonce pairNonce token
        expected requestedAt pairValue maxActivePairs))
  | .rotatePair oldNonce newNonce expectedOld replacement =>
      committed db (store.withOutboxTx c db
        (store.rotatePair oldNonce newNonce expectedOld replacement))
  | .claimSuccessfulUse nonce pairId at_ expected =>
      committed db (store.withOutboxTx c db (store.claimSuccessfulUse nonce pairId at_ expected))
  | .expireIfElapsed nonce pairId now =>
      committed db (store.withOutboxTx c db (store.expireIfElapsed nonce pairId now))
  | .expireIfUsageExhausted nonce pairId =>
      committed db (store.withOutboxTx c db (store.expireIfUsageExhausted nonce pairId))
  | .lockIfFailureThreshold nonce pairId minimumFailures =>
      committed db (store.withOutboxTx c db
        (store.lockIfFailureThreshold nonce pairId minimumFailures))

/-- The database after a sequence of operations. -/
def run (db : SourceDb) (ops : List PairOperation) : SourceDb :=
  ops.foldl (store.perform c) db

/-- An operation that appended a row and wrote the tables: a replica with the tables that the
    operation found has, once it applies the row, the tables that it left. -/
structure Emits (activeKeyId : JsString) (db : SourceDb) (entry : OutboxEntry) (db' : SourceDb) :
    Prop where
  appended : Appended c store.outboxOptions db.outbox entry.mutation entry db'.outbox
  applies : ∀ replica : PairTables, db.tables.Same replica →
    ∃ replica', (store.replica activeKeyId).applyInTx replica entry.record = .ok replica' ∧
      db'.tables.Same replica'

variable {store c}

/-- The form in which a mutation is stored. -/
theorem sanitized_eq_ok {m : BpcPairMutation} {stored : JsValue}
    (h : sanitized store.outboxOptions m.toJs = .ok stored) :
    m.Accepted ∧ stored = sortKeys m.toJs := by
  simp only [sanitized, bind_eq_ok, snapshotJson_eq_ok (distinctKeys_mutation m)] at h
  obtain ⟨_, ⟨-, rfl⟩, clean, hclean, hstored⟩ := h
  have hsanitize : sanitizeMutation (sortKeys m.toJs) = .ok clean := hclean
  simp only [sanitizeMutation, map_eq_pure_bind, bind_eq_ok, pure_eq_ok] at hsanitize
  obtain ⟨n, hn, rfl⟩ := hsanitize
  obtain ⟨rfl, haccepted⟩ := normalizeMutation_sortKeys.mp hn
  exact ⟨haccepted, ((snapshotJson_eq_ok (distinctKeys_mutation n)).mp hstored).2⟩

/-- A transaction whose plan the replica follows leaves the database as it was, or emits one row. -/
theorem committed_withOutboxTx {α : Type} {db : SourceDb} {activeKeyId : JsString}
    {body : PairTables → Except PairStoreError (Plan α)}
    (hfaithful : ∀ plan, body db.tables = .ok plan →
      plan.Faithful (store.replica activeKeyId) db.tables) :
    committed db (store.withOutboxTx c db body) = db ∨
      ∃ entry, store.Emits c activeKeyId db entry (committed db (store.withOutboxTx c db body)) := by
  cases htx : store.withOutboxTx c db body with
  | error e => exact .inl rfl
  | ok res =>
      obtain ⟨a, db'⟩ := res
      show db' = db ∨ ∃ entry, store.Emits c activeKeyId db entry db'
      simp only [withOutboxTx, bind_eq_ok] at htx
      obtain ⟨plan, hplan, hexecute⟩ := htx
      cases plan with
      | done b =>
          cases hexecute
          exact .inl rfl
      | write mutation dml result =>
          right
          simp only [execute, bind_eq_ok, ofHa_eq_ok, pure_eq_ok] at hexecute
          obtain ⟨⟨record, outbox⟩, happend, tables, hrun, _, -, _, -, heq⟩ := hexecute
          cases heq
          obtain ⟨stored, entry, hstored, -, rfl, happended⟩ := appendInTx_eq_ok c happend
          obtain ⟨haccepted, rfl⟩ := sanitized_eq_ok hstored
          refine ⟨entry, happended.mutation ▸ happended, fun replica hsame => ?_⟩
          obtain ⟨replica', hreplica', hsame'⟩ :=
            hfaithful _ hplan haccepted replica tables hsame hrun
          refine ⟨replica', ?_, hsame'⟩
          have hnormal : normalizeMutation entry.record.mutation = .ok mutation := by
            show normalizeMutation entry.mutation = _
            rw [happended.mutation]
            exact normalizeMutation_sortKeys.mpr ⟨rfl, haccepted⟩
          simp only [PgPairMutationApplier.applyInTx, bind_eq_ok, ensure_eq_ok, exists_unit]
          exact ⟨happended.stream, mutation, hnormal, hreplica'⟩

theorem perform_cases (hinv : store.codec.aead.Inverts) (activeKeyId : JsString) (db : SourceDb)
    (op : PairOperation) :
    store.perform c db op = db ∨
      ∃ entry, store.Emits c activeKeyId db entry (store.perform c db op) := by
  cases op with
  | set nonce value => exact committed_withOutboxTx fun plan h => faithful_set hinv activeKeyId h
  | delete pairId => exact committed_withOutboxTx fun plan h => faithful_delete activeKeyId h
  | setPending nonce token value requestedAt =>
      exact committed_withOutboxTx fun plan h => faithful_setPending hinv activeKeyId h
  | deletePending token =>
      exact committed_withOutboxTx fun plan h => faithful_deletePending activeKeyId h
  | atomicMutate nonce pairId mutate =>
      exact committed_withOutboxTx fun plan h => faithful_atomicMutate hinv activeKeyId h
  | approvePending pendingNonce pairNonce token expected requestedAt pairValue maxActivePairs =>
      exact committed_withOutboxTx fun plan h => faithful_approvePending hinv activeKeyId h
  | rotatePair oldNonce newNonce expectedOld replacement =>
      exact committed_withOutboxTx fun plan h => faithful_rotatePair hinv activeKeyId h
  | claimSuccessfulUse nonce pairId at_ expected =>
      exact committed_withOutboxTx fun plan h => faithful_claimSuccessfulUse hinv activeKeyId h
  | expireIfElapsed nonce pairId now =>
      refine committed_withOutboxTx fun plan h => ?_
      simp only [expireIfElapsed, bind_eq_ok] at h
      obtain ⟨_, -, h⟩ := h
      exact faithful_conditionalStatus hinv activeKeyId h
  | expireIfUsageExhausted nonce pairId =>
      exact committed_withOutboxTx fun plan h => faithful_conditionalStatus hinv activeKeyId h
  | lockIfFailureThreshold nonce pairId minimumFailures =>
      refine committed_withOutboxTx fun plan h => ?_
      simp only [lockIfFailureThreshold, bind_eq_ok] at h
      obtain ⟨_, -, h⟩ := h
      exact faithful_conditionalStatus hinv activeKeyId h

/-- The rows that a run appended, after the checkpoint that it began at and in sequence order. -/
structure Emitted (store : PgTransactionalPairStore) (db : SourceDb) (entries : List OutboxEntry)
    (db' : SourceDb) : Prop where
  rows : db'.outbox.rows.rows = db.outbox.rows.rows ++ entries
  after : ∀ checkpoint, db.outbox.checkpointOf store.streamId = some checkpoint →
    ∀ entry ∈ entries, checkpoint.sequence < entry.sequence
  ordered : entries.Pairwise fun a b => a.sequence < b.sequence

/-- **A run of the source**: the rows that it appends take a replica from the tables that the run
    found to the tables that it leaves. -/
theorem emitted_run (hinv : store.codec.aead.Inverts) (activeKeyId : JsString) {db : SourceDb}
    (ops : List PairOperation) {replica : PairTables} (hsame : db.tables.Same replica) :
    ∃ entries replica', Emitted store db entries (store.run c db ops) ∧
      (store.replica activeKeyId).applyAll replica entries = .ok replica' ∧
      (store.run c db ops).tables.Same replica' := by
  induction ops generalizing db replica with
  | nil =>
      refine ⟨[], replica, ⟨(List.append_nil _).symm, ?_, .nil⟩, rfl, hsame⟩
      intro checkpoint _ entry hentry
      exact absurd hentry List.not_mem_nil
  | cons op rest ih =>
      have hrun : store.run c db (op :: rest) = store.run c (store.perform c db op) rest := rfl
      rw [hrun]
      rcases perform_cases hinv activeKeyId db op with hsameDb | ⟨entry, hemits⟩
      · rw [hsameDb]
        exact ih hsame
      · obtain ⟨next, hnext, hsameNext⟩ := hemits.applies replica hsame
        obtain ⟨entries, replica', hemitted, hreplay, hsame'⟩ := ih hsameNext
        have hafter := hemitted.after _ hemits.appended.advanced
        refine ⟨entry :: entries, replica', ⟨?_, ?_, ?_⟩, ?_, hsame'⟩
        · rw [hemitted.rows, hemits.appended.rows, List.append_assoc]
          rfl
        · intro checkpoint hcheckpoint e he
          have hat := hemits.appended.checkpoint
          rw [outboxOptions, hcheckpoint, Option.some.injEq] at hat
          rcases List.mem_cons.mp he with rfl | he
          · simp [hat]
          · have := hafter e he
            simp only [hat] at this ⊢
            omega
        · exact List.pairwise_cons.mpr ⟨hafter, hemitted.ordered⟩
        · simp only [PgPairMutationApplier.applyAll, List.foldlM_cons, hnext, ok_bind]
          exact hreplay

/-- **The replica refines the source.** From empty pair tables, whatever operations the source runs,
    the mutations that they append, replayed in the order of their sequences from empty tables,
    never throw and end with the pairs and the pending registrations of the source. -/
theorem replica_refines_source (store : PgTransactionalPairStore) (c : Ha.Crypto)
    (hinv : store.codec.aead.Inverts) (activeKeyId : JsString) (db : SourceDb)
    (hempty : db.tables = PairTables.empty) (ops : List PairOperation) :
    ∃ entries replica, Emitted store db entries (store.run c db ops) ∧
      (store.replica activeKeyId).replay PairTables.empty entries = .ok replica ∧
      (store.run c db ops).tables.Same replica := by
  have hsame : db.tables.Same PairTables.empty := by
    rw [hempty]
    exact ⟨fun _ => rfl, fun _ => rfl⟩
  obtain ⟨entries, replica, hemitted, hreplay, hsame'⟩ :=
    emitted_run (c := c) hinv activeKeyId ops hsame
  refine ⟨entries, replica, hemitted, ?_, hsame'⟩
  rw [PgPairMutationApplier.replay,
    orderBy_of_pairwise (hemitted.ordered.imp fun h => Int.le_of_lt h)]
  exact hreplay

end PgTransactionalPairStore

/-! ## A concrete run

One sealing is recorded from AES-256-GCM itself; other texts are sealed as their code units. -/

/-- The two bytes of each code unit. -/
def unitBytes (text : JsString) : Bytes :=
  text.flatMap fun c => [(c.toNat / 256).toUInt8, (c.toNat % 256).toUInt8]

def unitsOf : Bytes → JsString
  | hi :: lo :: rest => (hi.toNat * 256 + lo.toNat).toUInt16 :: unitsOf rest
  | _ => []

theorem unitsOf_unitBytes (text : JsString) : unitsOf (unitBytes text) = text := by
  induction text with
  | nil => rfl
  | cons c rest ih =>
      have hc : c.toNat < 2 ^ 16 := c.toNat_lt
      have hunit : (((c.toNat / 256).toUInt8).toNat * 256 + ((c.toNat % 256).toUInt8).toNat).toUInt16 =
          c := by
        rw [← UInt16.toNat_inj]
        simp only [Nat.toUInt8_eq, UInt8.toNat_ofNat', Nat.toUInt16_eq, UInt16.toNat_ofNat']
        omega
      show (_ : UInt16) :: unitsOf (unitBytes rest) = _
      rw [hunit, ih]

/-- An encryption that was recorded, with its tag. -/
structure RecordedSeal where
  key : Bytes
  nonce : Bytes
  aad : Bytes
  text : JsString
  ciphertext : Bytes
  tag : Bytes
  tagged : tag ≠ []

/-- The recorded encryption, and code units without a tag elsewhere. -/
def RecordedSeal.aead (r : RecordedSeal) : Aead where
  encrypt key nonce aad text :=
    if key = r.key ∧ nonce = r.nonce ∧ aad = r.aad ∧ text = r.text then (r.ciphertext, r.tag)
    else (unitBytes text, [])
  decrypt key nonce aad ciphertext tag :=
    if key = r.key ∧ nonce = r.nonce ∧ aad = r.aad ∧ ciphertext = r.ciphertext ∧ tag = r.tag then
      some r.text
    else if tag = [] then some (unitsOf ciphertext)
    else none

theorem RecordedSeal.inverts (r : RecordedSeal) : r.aead.Inverts := by
  intro key nonce aad text _
  by_cases hrecorded : key = r.key ∧ nonce = r.nonce ∧ aad = r.aad ∧ text = r.text
  · obtain ⟨rfl, rfl, rfl, rfl⟩ := hrecorded
    simp [aead]
  · have htag : ¬[] = r.tag := fun h => r.tagged h.symm
    simp [aead, hrecorded, htag, unitsOf_unitBytes]

/-- A pair as approval makes it. -/
def samplePair : CanonicalStoredPair where
  name := ⟨Js.lit "ci", by decide⟩
  scope := .read
  mode := .production
  secretHash := ⟨Js.lit "DY7jChwUpkG30wNTOEfpLm" ++ Js.lit "b9oumg2Oe3XvvPaZJmc0I", by decide⟩
  pubJwk := ⟨⟨Js.lit "f83OJ3D2xF1Bg8vub9tLe1" ++ Js.lit "gHMzV76e8Tus9uPHvRVEU",
    Js.lit "x_FEzRu9m36HLN_tue659L" ++ Js.lit "NpXW6pCyStikYjKIWI5a0"⟩, by decide⟩
  kind := .legitimate
  expiresAt := none
  maxRequests := none
  canaryClass := none
  consistent := rfl
  id := ⟨Js.lit "bpc_ci", by decide⟩
  status := .active
  created := ⟨1, by decide⟩
  lastActive := none
  requests := ⟨0, by decide⟩
  failedSigs := ⟨0, by decide⟩
  cumulativeFailures := none
  firstFailureAt := none

/-- The sealing of the sample pair. -/
def sampleCiphertext : Bytes :=
  Js.fromBase64Url
    (Js.lit "XKfn5tuRtQTEQPEJysjFvr3cBpdnh5CzTZR2" ++ Js.lit "ivcdZVjpx4WzgQ1JeV2fh30tWof2Rnby8XX9" ++
    Js.lit "2icIDnXydDpY4g0M_E_qUoXVvcLzGsqF6Nk_" ++ Js.lit "hKRyziX-nw3NOeIq5HkLbB_2v-sz6mRH460q" ++
    Js.lit "C45uO4l-eBrX4qXKban9iT9wYsyiyDJZQpx2" ++ Js.lit "0moPuLRa32TnXvVMSYpx7m4_HZ7Q9o9Lo2Mv" ++
    Js.lit "2BwDuQz51y6wCX-gElz2g_f2F_96RPmI31on" ++ Js.lit "DH5q9w9_DVQCRjVcP6ycpNnKSqhPYkp6Y5J9" ++
    Js.lit "DTktiYEHXR0Lj1pI-oJ9XoRsqeeix78_BAHj" ++ Js.lit "7aMtaxv50tRVgEK7swTd1JuE8PvhtZmh9uZh" ++
    Js.lit "2UQ6SPK-lMzBTZ6xX50H2N3nDMqDaeXjnsRr" ++ Js.lit "P7dglln21S8mez77cedfK_3s14Z2OX7odlaZ" ++
    Js.lit "zhVYargdv50_GGSnomACKD4tE16FepRk21lO" ++ Js.lit "JjA")

def sampleAad : PairSetAad :=
  { streamId := Js.lit "pairs", kind := .pairSet, pairId := samplePair.id.1 }

def sampleSeal : RecordedSeal where
  key := List.replicate 32 7
  nonce := List.replicate 12 9
  aad := Js.utf8 (canonText (Pair.present
    (("alg", some (.string (Js.lit "A256GCM"))) :: ("keyId", some (.string (Js.lit "k1"))) ::
      sampleAad.members)))
  text := canonText samplePair.toJs
  ciphertext := sampleCiphertext
  tag := Js.fromBase64Url (Js.lit "Pwqpi5QvGBsbabJrbuBBKA")
  tagged := by decide

def sampleStore : PgTransactionalPairStore where
  streamId := Js.lit "pairs"
  fenceToken := 1
  maxPendingRows := 10
  backpressure := .failAuthoritativeMutation
  codec := ⟨sampleSeal.aead, ⟨Js.lit "k1", fun _ => some (List.replicate 32 7)⟩⟩

/-- A provisioned database without pairs. -/
def sampleDb : SourceDb where
  outbox :=
    { fence := ⟨[⟨Js.lit "pairs", 1⟩], by decide⟩
      sourceCheckpoint := ⟨[⟨Js.lit "pairs", Js.lit "e1", 0⟩], by decide⟩
      rows := Table.empty outboxRowSchema }
  tables := .empty
  governed := false

/-- The pair is set, found below the failure threshold, and deleted. -/
def sampleOperations : List PairOperation :=
  [.set (List.replicate 12 9) samplePair.toStored.toJs,
    .lockIfFailureThreshold (List.replicate 12 10) samplePair.id.1 (.fin 1),
    .delete samplePair.id.1]

theorem replica_refines_source_sample :
    (sampleStore.run Ha.lengthCrypto sampleDb sampleOperations).outbox.rows.rows.length = 2 ∧
      ∃ entries replica, PgTransactionalPairStore.Emitted sampleStore sampleDb entries
          (sampleStore.run Ha.lengthCrypto sampleDb sampleOperations) ∧
        (sampleStore.replica (Js.lit "k2")).replay .empty entries = .ok replica ∧
        (sampleStore.run Ha.lengthCrypto sampleDb sampleOperations).tables.Same replica :=
  ⟨by decide +kernel, PgTransactionalPairStore.replica_refines_source sampleStore Ha.lengthCrypto
    sampleSeal.inverts (Js.lit "k2") sampleDb rfl sampleOperations⟩

end Durable
