import BpcProtocol.Durable.OutboxHistory
import BpcProtocol.Durable.Promotion

set_option autoImplicit false

/-! # Snapshots and their import

`buildPairSnapshotBundle` signs the records of a source's epoch, and `importPairSnapshotBundle`
replays them into an empty receiver in one transaction. -/

namespace Durable

open Ha Fallible Relational

/-! ## The import -/

/-- The column `last_digest` of `ha_outbox_receiver_checkpoint`: not null, and empty or a digest. -/
def checkLastDigest : Option JsString → Except SqlError Unit
  | none => .error .constraintViolation
  | some digest => require (digest = [] ∨ hex64 digest = true) .constraintViolation

/-- The row that is kept of a record that was applied. -/
def importedRow (record : OutboxRecord) : AppliedRow :=
  ⟨record.streamId, record.sourceEpoch, record.sequence, record.opDigest⟩

variable (c : Crypto) (text : TableText)

/-- The arguments of `importPairSnapshotBundle`. -/
structure SnapshotImport where
  resolver : PublicKeyResolver c
  bundle : PairSnapshotBundle
  assertSanitized : JsValue → Except HaError Unit
  applyInTx : PairTables → OutboxRecord → Except HaError PairTables

namespace SnapshotImport

variable {c} (i : SnapshotImport c)

/-- The manifest of the bundle. -/
abbrev manifest : PairSnapshotManifest := i.bundle.manifest

/-- One pass of the loop over the records. -/
def importRecord (state : PairTables × Table appliedSchema) (record : OutboxRecord) :
    Except HaError (PairTables × Table appliedSchema) := do
  let tables ← i.applyInTx state.1 record
  let applied ← query (state.2.insert (importedRow record))
  pure (tables, applied)

/-- The error of a receiver that is not at genesis. -/
def genesisRequired : String := "snapshot import requires a genesis receiver checkpoint"

/-- The transaction of `importPairSnapshotBundle`. -/
def importInTx (db : ReceiverDb) : Except HaError (Unit × ReceiverDb) := do
  ensure (db.source.tables.pairs.rows = [] ∧ db.source.tables.pending.rows = [])
    "snapshot import requires an empty pair authority"
  let cp ← found (db.receiverOf i.manifest.streamId) genesisRequired
  ensure (cp.sourceEpoch = i.manifest.sourceEpoch) genesisRequired
  let sequence ← safeInt cp.sequence "receiverSequence"
  ensure (sequence = 0) genesisRequired
  let state ← i.bundle.records.foldlM i.importRecord (db.source.tables, db.applied)
  query (checkLastDigest (i.bundle.records.getLast?.map (·.opDigest)))
  let upd ← query (db.receiverCheckpoint.update (fun r => r.streamId == i.manifest.streamId)
    fun r => { r with sequence := i.manifest.finalSequence })
  ensure (upd.2 = 1) "snapshot checkpoint advance failed"
  ensure (stateDigest c text state.1 = i.manifest.stateDigest)
    "snapshot replay state digest mismatch"
  pure ((), { db with
    source := { db.source with tables := state.1 }
    receiverCheckpoint := upd.1
    applied := state.2 })

/-- A call of `importPairSnapshotBundle`: it is refused before its transaction, or its transaction
    has the outcome. -/
inductive Call (db : ReceiverDb) : Except HaError Unit → ReceiverDb → Prop
  | refused {e : HaError} :
      verifyBundle c i.resolver i.bundle i.assertSanitized = .error e → Call db (.error e) db
  | ran {r : Except HaError Unit} {db' : ReceiverDb} :
      verifyBundle c i.resolver i.bundle i.assertSanitized = .ok () →
      Transaction.Outcome (i.importInTx text) db r db' → Call db r db'

/-! ## What an import does -/

/-- What a receiver that has imported a bundle has done. -/
structure Imported (db db' : ReceiverDb) : Prop where
  pairs : db.source.tables.pairs.rows = []
  pending : db.source.tables.pending.rows = []
  genesis : db.receiverOf i.manifest.streamId =
    some ⟨i.manifest.streamId, i.manifest.sourceEpoch, 0⟩
  nonempty : i.bundle.records ≠ []
  replayed : i.bundle.records.foldlM i.applyInTx db.source.tables = .ok db'.source.tables
  history : db'.applied.rows = db.applied.rows ++ i.bundle.records.map importedRow
  checkpoint : db'.receiverOf i.manifest.streamId =
    some ⟨i.manifest.streamId, i.manifest.sourceEpoch, i.manifest.finalSequence⟩
  others : ∀ streamId, streamId ≠ i.manifest.streamId →
    db'.receiverOf streamId = db.receiverOf streamId
  state : stateDigest c text db'.source.tables = i.manifest.stateDigest
  outbox : db'.source.outbox = db.source.outbox
  receipts : db'.promotionReceipt = db.promotionReceipt

/-- The loop replays the records, and keeps a row of each. -/
theorem foldlM_importRecord {records : List OutboxRecord} {tables tables' : PairTables}
    {applied applied' : Table appliedSchema} :
    records.foldlM i.importRecord (tables, applied) = .ok (tables', applied') ↔
      records.foldlM i.applyInTx tables = .ok tables' ∧
        applied'.rows = applied.rows ++ records.map importedRow := by
  induction records generalizing tables applied with
  | nil =>
      simp only [List.foldlM_nil, pure_eq_ok, Prod.mk.injEq, List.map_nil, List.append_nil]
      refine and_congr_right fun _ => ⟨fun h => h ▸ rfl, fun h => Table.ext h.symm⟩
  | cons record rest ih =>
      simp only [List.foldlM_cons, importRecord, bind_eq_ok, query_eq_ok, pure_eq_ok,
        List.map_cons]
      constructor
      · rintro ⟨_, ⟨next, hnext, inserted, hinserted, rfl⟩, hrest⟩
        obtain ⟨hrun, hrows⟩ := ih.mp hrest
        refine ⟨⟨next, hnext, hrun⟩, ?_⟩
        rw [hrows, Table.insert_eq_ok.mp hinserted, List.append_assoc, List.singleton_append]
      · rintro ⟨⟨next, hnext, hrun⟩, hrows⟩
        -- the rows that are left contain those of every prefix, so no insertion fails
        have hok : appliedSchema.Ok (applied.rows ++ [importedRow record]) := by
          have hall := applied'.ok
          rw [hrows, ← List.singleton_append, ← List.append_assoc] at hall
          exact ⟨fun r hr => hall.1 r (List.mem_append_left _ hr),
            hall.2.sublist (List.sublist_append_left _ _)⟩
        refine ⟨(next, ⟨_, hok⟩), ⟨next, hnext, ⟨_, hok⟩, Table.insert_eq_ok.mpr rfl, rfl⟩, ?_⟩
        refine ih.mpr ⟨hrun, ?_⟩
        rw [hrows, List.append_assoc, List.singleton_append]

variable {text} {i}

theorem importInTx_eq_ok {db db' : ReceiverDb} (h : i.importInTx text db = .ok ((), db')) :
    i.Imported text db db' := by
  simp only [importInTx, safeInt, bind_eq_ok, ensure_eq_ok, exists_unit, found_eq_ok, pure_eq_ok,
    query_eq_ok] at h
  obtain ⟨⟨hpairs, hpending⟩, cp, hcp, hepoch, sequence, ⟨-, rfl⟩, hzero, state, hstate, hlast, upd,
    hupd, -, hdigest, heq⟩ := h
  cases heq
  obtain ⟨stream, epoch, sequence⟩ := cp
  obtain rfl : stream = i.manifest.streamId := by simpa using (Table.mem_of_select hcp).2
  obtain rfl : sequence = 0 := hzero
  obtain rfl : epoch = i.manifest.sourceEpoch := hepoch
  obtain ⟨tables, applied⟩ := state
  obtain ⟨hreplayed, hhistory⟩ := i.foldlM_importRecord.mp hstate
  refine ⟨hpairs, hpending, hcp, ?_, hreplayed, hhistory, ?_, fun streamId hother => ?_, hdigest,
    rfl, rfl⟩
  · intro hempty
    rw [hempty] at hlast
    cases hlast
  · have hselect := Table.select_update (q := fun r => r.streamId == i.manifest.streamId) hupd
      fun r => rfl
    rw [ReceiverDb.receiverOf] at hcp ⊢
    rw [hselect, hcp]
    simp
  · have hselect := Table.select_update (q := fun r => r.streamId == streamId) hupd fun r => rfl
    rw [ReceiverDb.receiverOf, hselect, ReceiverDb.receiverOf]
    cases hrow : db.receiverCheckpoint.select fun r => r.streamId == streamId with
    | none => rfl
    | some row =>
        have hstream : row.streamId = streamId := by simpa using (Table.mem_of_select hrow).2
        rw [Option.map_some, if_neg (by simpa [hstream] using hother)]

end SnapshotImport

/-- A receiver as it is provisioned: no pairs, nothing applied, and its checkpoint at genesis. -/
structure FreshReceiver (streamId sourceEpoch : JsString) (db : ReceiverDb) : Prop where
  pairs : db.source.tables.pairs.rows = []
  pending : db.source.tables.pending.rows = []
  checkpoint : db.receiverOf streamId = some ⟨streamId, sourceEpoch, 0⟩
  applied : ∀ r ∈ db.applied.rows, r.streamId = streamId → r.sourceEpoch ≠ sourceEpoch

namespace SnapshotImport

variable {c text} {i : SnapshotImport c}

/-- Records of one stream and epoch that are numbered apart can be kept behind the rows of others.
    -/
theorem applied_isOk {streamId sourceEpoch : JsString} {applied : Table appliedSchema}
    (hother : ∀ r ∈ applied.rows, r.streamId = streamId → r.sourceEpoch ≠ sourceEpoch)
    {records : List OutboxRecord}
    (hrecords : ∀ r ∈ records, r.streamId = streamId ∧ r.sourceEpoch = sourceEpoch ∧
      appliedSchema.check (importedRow r) = true)
    (happart : records.Pairwise fun a b => a.sequence < b.sequence) :
    appliedSchema.Ok (applied.rows ++ records.map importedRow) := by
  constructor
  · intro r hr
    rcases List.mem_append.mp hr with hr | hr
    · exact applied.check_of_mem hr
    · obtain ⟨record, hrecord, rfl⟩ := List.mem_map.mp hr
      exact (hrecords record hrecord).2.2
  · rw [List.pairwise_append, List.pairwise_map]
    refine ⟨applied.pairwise, happart.imp fun {a b} hlt => ?_, fun r hr s hs => ?_⟩
    · have hne : ¬a.sequence = b.sequence := by omega
      simp [appliedSchema, importedRow, hne]
    · obtain ⟨record, hrecord, rfl⟩ := List.mem_map.mp hs
      obtain ⟨hstream, hepoch, -⟩ := hrecords record hrecord
      by_cases hsame : r.streamId = streamId
      · have hne := hother r hr hsame
        simp [appliedSchema, importedRow, hstream, hepoch, hne]
      · simp [appliedSchema, importedRow, hstream, hsame]

/-- **An import that runs to its end**: a fresh receiver imports a bundle whose records replay to
    the tables that the manifest names. -/
theorem importInTx_of {db : ReceiverDb} {tables : PairTables}
    (hfresh : FreshReceiver i.manifest.streamId i.manifest.sourceEpoch db)
    (hsome : i.bundle.records ≠ [])
    (hrecords : ∀ r ∈ i.bundle.records, r.streamId = i.manifest.streamId ∧
      r.sourceEpoch = i.manifest.sourceEpoch ∧ appliedSchema.check (importedRow r) = true)
    (happart : i.bundle.records.Pairwise fun a b => a.sequence < b.sequence)
    (hsafe : safeFrom 0 i.manifest.finalSequence = true)
    (hreplayed : i.bundle.records.foldlM i.applyInTx db.source.tables = .ok tables)
    (hstate : stateDigest c text tables = i.manifest.stateDigest) :
    ∃ db', i.importInTx text db = .ok ((), db') := by
  have hclash : ∀ a b, receiverCheckpointSchema.clash a b = (a.streamId == b.streamId) :=
    fun _ _ => rfl
  obtain ⟨hmem, -⟩ := Table.mem_of_select hfresh.checkpoint
  have hcheck := db.receiverCheckpoint.check_of_mem hmem
  simp only [receiverCheckpointSchema, Bool.and_eq_true] at hcheck
  have hupdate : ∃ checkpoints, db.receiverCheckpoint.update
      (fun r => r.streamId == i.manifest.streamId)
      (fun r => { r with sequence := i.manifest.finalSequence }) = .ok (checkpoints, 1) :=
    Table.update_one (fun x => beq_self_eq_true x.streamId) hmem (beq_self_eq_true _)
      (fun x hx hkey => Table.eq_of_select_key hclash hfresh.checkpoint hx (by simpa using hkey))
      (by simpa only [receiverCheckpointSchema, Bool.and_eq_true] using ⟨hcheck.1, hsafe⟩)
      fun x => ⟨rfl, rfl⟩
  obtain ⟨checkpoints, hupdate⟩ := hupdate
  have hlast : checkLastDigest (i.bundle.records.getLast?.map (·.opDigest)) = .ok () := by
    have hget := (hrecords _ (List.getLast_mem hsome)).2.2
    simp only [appliedSchema, importedRow, Bool.and_eq_true] at hget
    rw [List.getLast?_eq_some_getLast hsome, Option.map_some, checkLastDigest]
    exact require_of (.inr hget.2) _
  have happlied := applied_isOk hfresh.applied hrecords happart
  have hzero : Js.isSafeInteger 0 = true ∧ (0 : ℤ) ≤ 0 ∧ (0 : ℤ) ≤ Js.maxSafeInteger := by decide
  refine ⟨{ db with
    source := { db.source with tables }
    receiverCheckpoint := checkpoints
    applied := ⟨_, happlied⟩ }, ?_⟩
  simp only [importInTx, safeInt, bind_eq_ok, ensure_eq_ok, exists_unit, found_eq_ok, pure_eq_ok,
    query_eq_ok]
  exact ⟨⟨hfresh.pairs, hfresh.pending⟩, _, hfresh.checkpoint, rfl, 0, ⟨hzero, rfl⟩, rfl,
    (tables, ⟨_, happlied⟩), i.foldlM_importRecord.mpr ⟨hreplayed, rfl⟩, hlast, _, hupdate, rfl,
    hstate, rfl⟩

/-- A call leaves the receiver as it was, or imports the whole bundle, which is verified. -/
theorem Call.unchanged_or_imported {db db' : ReceiverDb} {r : Except HaError Unit}
    (h : i.Call text db r db') :
    db' = db ∨ verifyBundle c i.resolver i.bundle i.assertSanitized = .ok () ∧
      i.Imported text db db' := by
  cases h with
  | refused => exact .inl rfl
  | ran hverified hout =>
      rcases hout.unchanged_or_ran with rfl | ⟨_, hran⟩
      · exact .inl rfl
      · exact .inr ⟨hverified, importInTx_eq_ok hran⟩

/-! ## Bundles that are verified -/

/-- What is checked of a bundle and of each of its records. -/
theorem verifyBundle_eq_ok {resolver : PublicKeyResolver c} {bundle : PairSnapshotBundle}
    {assertSanitized : JsValue → Except HaError Unit}
    (h : verifyBundle c resolver bundle assertSanitized = .ok ()) :
    (bundle.records.length : ℤ) = bundle.manifest.finalSequence ∧
      ∀ (index : ℕ) record, bundle.records[index]? = some record →
        record.streamId = bundle.manifest.streamId ∧
          record.sourceEpoch = bundle.manifest.sourceEpoch ∧ record.sequence = (index : ℤ) + 1 := by
  simp only [verifyBundle, bind_eq_ok, ensure_eq_ok, exists_unit, forM_eq_ok] at h
  obtain ⟨-, hlength, -, -, -, hrecords⟩ := h
  refine ⟨hlength, fun index record hrecord => ?_⟩
  have hchecked := hrecords _ (List.mk_mem_zipIdx_iff_getElem?.mpr hrecord)
  simp only [verifyBundleRecord, bind_eq_ok, ensure_eq_ok, exists_unit] at hchecked
  exact hchecked.2.1

/-- Records that are numbered by their place are in the order of their numbers. -/
theorem pairwise_of_numbered {records : List OutboxRecord}
    (h : ∀ (index : ℕ) record, records[index]? = some record → record.sequence = (index : ℤ) + 1) :
    records.Pairwise fun a b => a.sequence < b.sequence := by
  rw [List.pairwise_iff_getElem]
  intro a b ha hb hlt
  rw [h a _ (List.getElem?_eq_getElem ha), h b _ (List.getElem?_eq_getElem hb)]
  omega

/-- A receiver that has imported a bundle holds what a promotion with the bundle asks of it. -/
theorem Imported.holds {db db' : ReceiverDb} {p : Promotion c} (h : i.Imported text db db')
    (hverified : verifyBundle c i.resolver i.bundle i.assertSanitized = .ok ())
    (happlied : ∀ r ∈ db.applied.rows, r.streamId = i.manifest.streamId →
      r.sourceEpoch ≠ i.manifest.sourceEpoch)
    (hbundle : p.bundle = i.bundle) : p.ReceiverHolds text db' := by
  obtain ⟨hlength, hrecords⟩ := verifyBundle_eq_ok hverified
  have hsorted := pairwise_of_numbered fun index record hrecord =>
    (hrecords index record hrecord).2.2
  have hhistory : db'.appliedHistory i.manifest.streamId i.manifest.sourceEpoch
      i.manifest.finalSequence = i.bundle.records.map importedRow := by
    have hbefore : db.applied.rows.filter (fun r => r.streamId == i.manifest.streamId &&
        r.sourceEpoch == i.manifest.sourceEpoch && decide (r.sequence ≤ i.manifest.finalSequence)) =
        [] := by
      rw [List.filter_eq_nil_iff]
      intro r hr hkept
      simp only [Bool.and_eq_true, beq_iff_eq] at hkept
      exact happlied r hr hkept.1.1 hkept.1.2
    have hall : ∀ r ∈ i.bundle.records.map importedRow, (r.streamId == i.manifest.streamId &&
        r.sourceEpoch == i.manifest.sourceEpoch &&
          decide (r.sequence ≤ i.manifest.finalSequence)) = true := by
      intro r hr
      obtain ⟨record, hrecord, rfl⟩ := List.mem_map.mp hr
      obtain ⟨index, hindex⟩ := List.mem_iff_getElem?.mp hrecord
      obtain ⟨hstream, hepoch, hsequence⟩ := hrecords index record hindex
      have hlt := (List.getElem?_eq_some_iff.mp hindex).1
      have hle : record.sequence ≤ i.manifest.finalSequence := by
        rw [hsequence, ← hlength]
        omega
      simp only [Bool.and_eq_true, beq_iff_eq]
      exact ⟨⟨hstream, hepoch⟩, decide_eq_true hle⟩
    rw [ReceiverDb.appliedHistory, h.history, List.filter_append, hbefore, List.nil_append,
      List.filter_eq_self.mpr hall]
    refine orderBy_of_pairwise (List.pairwise_map.mpr (hsorted.imp fun hlt => ?_))
    exact Int.le_of_lt hlt
  constructor
  · rw [Promotion.manifest, hbundle]
    exact h.checkpoint
  · rw [Promotion.manifest, hbundle, hhistory, List.map_map]
    rfl
  · rw [Promotion.manifest, hbundle]
    exact h.state

/-- A receiver whose checkpoint has advanced imports nothing. -/
theorem Call.unchanged_of_advanced {db db' : ReceiverDb} {r : Except HaError Unit}
    {cp : ReceiverCheckpointRow} (h : i.Call text db r db')
    (hcp : db.receiverOf i.manifest.streamId = some cp) (hadvanced : cp.sequence ≠ 0) :
    db' = db := by
  rcases h.unchanged_or_imported with rfl | ⟨-, himported⟩
  · rfl
  · rw [himported.genesis] at hcp
    cases hcp
    exact absurd rfl hadvanced

/-- A call that returns has imported the bundle. -/
theorem Call.imported_of_ok {db db' : ReceiverDb} (h : i.Call text db (.ok ()) db') :
    verifyBundle c i.resolver i.bundle i.assertSanitized = .ok () ∧ i.Imported text db db' := by
  cases h with
  | ran hverified hout =>
      cases hout with
      | commit hran => exact ⟨hverified, importInTx_eq_ok hran⟩

end SnapshotImport

/-! ## Runs -/

/-- The steps on a receiver's database: a call of `importPairSnapshotBundle`, a call of
    `promoteReceiverToSource`, or a write of a pair store. -/
inductive AuthorityStep (db : ReceiverDb) : ReceiverDb → Prop
  | imports (i : SnapshotImport c) {r : Except HaError Unit} {db' : ReceiverDb} :
      i.Call text db r db' → AuthorityStep db db'
  | writes {db' : ReceiverDb} : PromotionStep c text db db' → AuthorityStep db db'

/-- The runs from any receiver. -/
def authoritySystem : Transition.System ReceiverDb where
  init _ := True
  next := AuthorityStep c text

variable {c text}

/-- A checkpoint that has advanced is kept. -/
theorem AuthorityStep.receiverOf {db db' : ReceiverDb} {streamId : JsString}
    {cp : ReceiverCheckpointRow} (h : AuthorityStep c text db db')
    (hcp : db.receiverOf streamId = some cp) (hadvanced : cp.sequence ≠ 0) :
    db'.receiverOf streamId = some cp := by
  cases h with
  | imports i hcall =>
      by_cases hstream : streamId = i.manifest.streamId
      · subst hstream
        rwa [hcall.unchanged_of_advanced hcp hadvanced]
      · rcases hcall.unchanged_or_imported with rfl | ⟨-, himported⟩
        · exact hcp
        · rw [himported.others streamId hstream, hcp]
  | writes hstep =>
      cases hstep with
      | promote p hcall =>
          rcases hcall.unchanged_or_promoted with rfl | ⟨_, hpromoted⟩
          · exact hcp
          · rw [ReceiverDb.receiverOf, hpromoted.rest.1]
            exact hcp
      | operate store op => exact hcp
      | governed hwrite => exact hcp

theorem receiverOf_of_run {db db' : ReceiverDb} {streamId : JsString} {cp : ReceiverCheckpointRow}
    (h : Transition.Run (authoritySystem c text) db db')
    (hcp : db.receiverOf streamId = some cp) (hadvanced : cp.sequence ≠ 0) :
    db'.receiverOf streamId = some cp := by
  induction h with
  | refl => exact hcp
  | tail _ hstep ih => exact AuthorityStep.receiverOf hstep ih hadvanced

end Durable
