import BpcProtocol.Durable.SnapshotImport

set_option autoImplicit false

/-! # The snapshot round trip

The bundle that a source signs at its head, imported into a fresh receiver, reproduces the
source. -/

namespace Durable

open Ha Fallible Relational

/-! ## What a snapshot reads -/

/-- The record of a row. -/
def recordOf (row : OutboxRow) : OutboxRecord :=
  { contractVersion := Js.lit "1", streamId := row.streamId, sourceEpoch := row.sourceEpoch,
    sequence := row.sequence, fenceToken := Js.decimal row.fenceToken, opDigest := row.opDigest,
    mutation := row.mutation }

/-- The records of a stream in one of its epochs. -/
def OutboxDb.recordsOf (db : OutboxDb) (streamId sourceEpoch : JsString) : List OutboxRecord :=
  (db.history streamId sourceEpoch).map (·.record)

/-- What the transaction of `buildPairSnapshotBundle` reads of a database. -/
def SourceDb.snapshotSource (c : Crypto) (text : TableText) (db : SourceDb)
    (streamId systemId : JsString) : SnapshotSource where
  checkpoint := (db.outbox.checkpointOf streamId).map fun cp => (cp.sourceEpoch, cp.sequence)
  rows := db.outbox.rows.rows.map (·.toOutboxRow)
  systemId
  stateDigest := stateDigest c text db.tables

/-- `bpcPairMutationSanitizer.assertSanitized(value)`. -/
def assertSanitizedMutation (value : JsValue) : Except HaError Unit := do
  let _ ← normalizeMutation value
  pure ()

/-- The text of tables depends on their rows alone: the query orders them by their keys. -/
def TableText.Ordered (text : TableText) : Prop :=
  ∀ a b : PairTables, a.Same b → text.pairs a = text.pairs b ∧ text.pending a = text.pending b

theorem stateDigest_same {c : Crypto} {text : TableText} (htext : text.Ordered) {a b : PairTables}
    (h : a.Same b) : stateDigest c text a = stateDigest c text b := by
  obtain ⟨hpairs, hpending⟩ := htext a b h
  rw [stateDigest, stateDigest, hpairs, hpending]

theorem recordsOf_eq (db : OutboxDb) (streamId sourceEpoch : JsString) :
    db.recordsOf streamId sourceEpoch =
      ((db.rows.rows.map (·.toOutboxRow)).filter fun r =>
        r.streamId == streamId && r.sourceEpoch == sourceEpoch).map recordOf := by
  rw [List.filter_map, List.map_map]
  rfl

/-! ## The runs of a source -/

variable (c : Crypto) (store : PgTransactionalPairStore) (activeKeyId : JsString)

/-- The steps on a source's database: an operation of a pair store of the stream that resolves the
    same keys, whatever its fence token, its limits and its active key; marks that a publisher sets
    on rows; an acquisition of the fence. -/
inductive SourceStep (db : SourceDb) : SourceDb → Prop
  | operate (writer : PgTransactionalPairStore) (op : PairOperation) :
      writer.replica activeKeyId = store.replica activeKeyId →
        SourceStep db (writer.perform c db op)
  | marked {rows : Table outboxRowSchema} :
      rows.rows.map (·.toOutboxRow) = db.outbox.rows.rows.map (·.toOutboxRow) →
        SourceStep db { db with outbox := { db.outbox with rows } }
  | fenced {token : ℕ} {fence : Table fenceSchema} :
      acquireFence store.streamId db.outbox.fence = .ok (token, fence) →
        SourceStep db { db with outbox := { db.outbox with fence } }

/-- The runs from any source. -/
def sourceSystem : Transition.System SourceDb where
  init _ := True
  next := SourceStep c store activeKeyId

/-- What a verifier and a receiver ask of a record of an epoch. -/
structure Recorded (streamId sourceEpoch : JsString) (r : OutboxRecord) : Prop where
  stream : r.streamId = streamId
  epoch : r.sourceEpoch = sourceEpoch
  conformant : assertHeaderConformant r = .ok ()
  sanitized : assertSanitizedMutation r.mutation = .ok ()
  digest : canonicalOpDigest c (recordDigestInput r) = .ok r.opDigest
  kept : appliedSchema.check (importedRow r) = true

/-- A source at the genesis of an epoch. -/
structure Genesis (streamId sourceEpoch : JsString) (db : SourceDb) : Prop where
  checkpoint : db.outbox.checkpointOf streamId = some ⟨streamId, sourceEpoch, 0⟩
  records : db.outbox.recordsOf streamId sourceEpoch = []

/-- What holds of a source whose epoch began with the pair tables `base`: its records are numbered
    from one up to its checkpoint, each passes the checks of a bundle, and replayed on `base` they
    lead to the tables of the source. -/
structure SourceSound (sourceEpoch : JsString) (base : PairTables) (db : SourceDb) : Prop where
  checkpoint : db.outbox.checkpointOf store.streamId =
    some ⟨store.streamId, sourceEpoch,
      (db.outbox.recordsOf store.streamId sourceEpoch).length⟩
  numbered : ∀ (index : ℕ) record,
    (db.outbox.recordsOf store.streamId sourceEpoch)[index]? = some record →
      record.sequence = (index : ℤ) + 1
  recorded : ∀ r ∈ db.outbox.recordsOf store.streamId sourceEpoch,
    Recorded c store.streamId sourceEpoch r
  replays : ∀ replica : PairTables, base.Same replica →
    ∃ replica', (db.outbox.recordsOf store.streamId sourceEpoch).foldlM
      (store.replica activeKeyId).applyInTx replica = .ok replica' ∧ db.tables.Same replica'

namespace SourceSound

variable {c store activeKeyId} {sourceEpoch : JsString} {base : PairTables} {db db' : SourceDb}

theorem of_genesis (h : Genesis store.streamId sourceEpoch db) :
    SourceSound c store activeKeyId sourceEpoch db.tables db := by
  constructor
  · rw [h.checkpoint, h.records]
    rfl
  · rw [h.records]
    intro index record hrecord
    cases hrecord
  · rw [h.records]
    intro r hr
    cases hr
  · rw [h.records]
    exact fun replica hsame => ⟨replica, rfl, hsame⟩

/-- What the invariant reads of a database. -/
theorem congr (h : SourceSound c store activeKeyId sourceEpoch base db)
    (hcheckpoint : db'.outbox.checkpointOf store.streamId = db.outbox.checkpointOf store.streamId)
    (hrecords : db'.outbox.recordsOf store.streamId sourceEpoch =
      db.outbox.recordsOf store.streamId sourceEpoch) (htables : db'.tables = db.tables) :
    SourceSound c store activeKeyId sourceEpoch base db' := by
  obtain ⟨hat, hnumbered, hrecorded, hreplays⟩ := h
  constructor
  · rw [hcheckpoint, hrecords, hat]
  · rwa [hrecords]
  · rwa [hrecords]
  · rwa [hrecords, htables]

/-- **A write keeps the invariant**: its record is the next one, and a replica that has the tables
    that the write found has, once it applies the record, the tables that the write left. -/
theorem emitted {writer : PgTransactionalPairStore} {entry : OutboxEntry}
    (hwriter : writer.replica activeKeyId = store.replica activeKeyId)
    (h : SourceSound c store activeKeyId sourceEpoch base db)
    (hemits : writer.Emits c activeKeyId db entry db') :
    SourceSound c store activeKeyId sourceEpoch base db' := by
  have hstream : writer.streamId = store.streamId :=
    congrArg PgPairMutationApplier.streamId hwriter
  obtain ⟨happended, happlies⟩ := hemits
  have hat := happended.checkpoint
  have hentryStream := happended.stream
  have hadvanced := happended.advanced
  simp only [PgTransactionalPairStore.outboxOptions, hstream] at hat hentryStream hadvanced
  rw [h.checkpoint] at hat
  obtain ⟨-, hepoch, hlength⟩ := SourceCheckpointRow.mk.inj (Option.some.inj hat)
  have hnext : entry.sequence =
      ((db.outbox.recordsOf store.streamId sourceEpoch).length : ℤ) + 1 := by omega
  have hrecords : db'.outbox.recordsOf store.streamId sourceEpoch =
      db.outbox.recordsOf store.streamId sourceEpoch ++ [entry.record] := by
    rw [OutboxDb.recordsOf, OutboxDb.history, happended.rows, List.filter_append,
      List.filter_singleton, hentryStream, ← hepoch]
    simp [OutboxDb.recordsOf, OutboxDb.history]
  constructor
  · rw [hadvanced, hrecords, ← hepoch, hnext]
    simp
  · rw [hrecords]
    intro index record hrecord
    by_cases hlt : index < (db.outbox.recordsOf store.streamId sourceEpoch).length
    · rw [List.getElem?_append_left hlt] at hrecord
      exact h.numbered index record hrecord
    · have hle := (List.getElem?_eq_some_iff.mp hrecord).1
      rw [List.length_append, List.length_singleton] at hle
      obtain rfl : index = (db.outbox.recordsOf store.streamId sourceEpoch).length := by omega
      rw [List.getElem?_append_right (le_refl _), Nat.sub_self, List.getElem?_cons_zero] at hrecord
      cases hrecord
      exact hnext
  · rw [hrecords]
    intro r hr
    rcases List.mem_append.mp hr with hr | hr
    · exact h.recorded r hr
    · rw [List.mem_singleton.mp hr]
      have hmem : entry ∈ db'.outbox.rows.rows := by
        rw [happended.rows]
        exact List.mem_append_right _ List.mem_cons_self
      have hcheck := db'.outbox.rows.check_of_mem hmem
      simp only [outboxRowSchema, Bool.and_eq_true] at hcheck
      obtain ⟨⟨⟨⟨⟨hstreamText, hepochText⟩, hsafe⟩, -⟩, hdigest⟩, -⟩ := hcheck
      obtain ⟨_, happly, -⟩ := happlies db.tables ⟨fun _ => rfl, fun _ => rfl⟩
      simp only [PgPairMutationApplier.applyInTx, bind_eq_ok, ensure_eq_ok, exists_unit] at happly
      obtain ⟨-, mutation, hmutation, -⟩ := happly
      refine ⟨hentryStream, hepoch.symm, happended.conformant, ?_, happended.digest, ?_⟩
      · simp only [assertSanitizedMutation, bind_eq_ok, pure_eq_ok]
        exact ⟨mutation, hmutation, trivial⟩
      · simp only [appliedSchema, Bool.and_eq_true]
        exact ⟨⟨⟨hstreamText, hepochText⟩, hsafe⟩, hdigest⟩
  · rw [hrecords]
    intro replica hbase
    obtain ⟨next, hnextReplica, hsame⟩ := h.replays replica hbase
    obtain ⟨replica', hreplica', hsame'⟩ := happlies next hsame
    refine ⟨replica', ?_, hsame'⟩
    rw [List.foldlM_append, hnextReplica, ok_bind, List.foldlM_cons, ← hwriter, hreplica']
    rfl

theorem step (hinv : store.codec.aead.Inverts)
    (h : SourceSound c store activeKeyId sourceEpoch base db)
    (hstep : SourceStep c store activeKeyId db db') :
    SourceSound c store activeKeyId sourceEpoch base db' := by
  cases hstep with
  | operate writer op hwriter =>
      have haead : writer.codec.aead = store.codec.aead :=
        congrArg (fun applier : PgPairMutationApplier => applier.codec.aead) hwriter
      rcases PgTransactionalPairStore.perform_cases (haead ▸ hinv)
        activeKeyId db op with hsame | ⟨entry, hemits⟩
      · rwa [hsame]
      · exact h.emitted hwriter hemits
  | marked hrows =>
      refine h.congr rfl ?_ rfl
      rw [recordsOf_eq, recordsOf_eq, hrows]
  | fenced hfence => exact h.congr rfl rfl rfl

/-- **The invariant of the source**, along every run from the genesis of its epoch. -/
theorem run (hinv : store.codec.aead.Inverts) {genesis : SourceDb}
    (hgenesis : Genesis store.streamId sourceEpoch genesis)
    (hrun : Transition.Run (sourceSystem c store activeKeyId) genesis db) :
    SourceSound c store activeKeyId sourceEpoch genesis.tables db := by
  induction hrun with
  | refl => exact of_genesis hgenesis
  | tail _ hstep ih => exact ih.step hinv hstep

end SourceSound

/-! ## The bundle of a source -/

/-- What a bundle has that was built at the head of a source. -/
structure BuiltFrom (c : Crypto) (text : TableText) (streamId sourceEpoch : JsString)
    (db : SourceDb) (bundle : PairSnapshotBundle) : Prop where
  stream : bundle.manifest.streamId = streamId
  epoch : bundle.manifest.sourceEpoch = sourceEpoch
  final : bundle.manifest.finalSequence = (bundle.records.length : ℤ)
  records : bundle.records = db.outbox.recordsOf streamId sourceEpoch
  state : bundle.manifest.stateDigest = stateDigest c text db.tables
  history : ∃ history, canonicalize (recordsValue bundle.records) = .ok history ∧
    bundle.manifest.historyDigest = c.sha256 (Js.utf8 history)

/-- A loop that gives what a function gives, gives the image of its list. -/
theorem mapM_eq_ok_map {α β ε : Type} {f : α → Except ε β} {l : List α} {bs : List β} (g : α → β)
    (hf : ∀ a ∈ l, ∀ b, f a = .ok b → b = g a) (h : l.mapM f = .ok bs) : bs = l.map g := by
  induction l generalizing bs with
  | nil =>
      rw [List.mapM_nil, pure_eq_ok] at h
      exact h.symm
  | cons a rest ih =>
      simp only [List.mapM_cons, bind_eq_ok, pure_eq_ok] at h
      obtain ⟨b, hb, bs', hbs', rfl⟩ := h
      rw [hf a List.mem_cons_self b hb, ih (fun x hx => hf x (List.mem_cons_of_mem _ hx)) hbs',
        List.map_cons]

section Bundle

variable {c store activeKeyId} {text : TableText} {sourceEpoch : JsString} {base : PairTables}
  {db : SourceDb} {systemId keyId : JsString} {key : c.PrivateKey} {through now : ℤ}
  {bundle : PairSnapshotBundle}

theorem SourceSound.pairwise (h : SourceSound c store activeKeyId sourceEpoch base db) :
    (db.outbox.recordsOf store.streamId sourceEpoch).Pairwise fun a b => a.sequence < b.sequence :=
  SnapshotImport.pairwise_of_numbered h.numbered

theorem SourceSound.sequence_le (h : SourceSound c store activeKeyId sourceEpoch base db)
    {r : OutboxRecord} (hr : r ∈ db.outbox.recordsOf store.streamId sourceEpoch) :
    r.sequence ≤ (db.outbox.recordsOf store.streamId sourceEpoch).length := by
  obtain ⟨index, hindex⟩ := List.mem_iff_getElem?.mp hr
  have hlt := (List.getElem?_eq_some_iff.mp hindex).1
  rw [h.numbered index r hindex]
  omega

/-- The rows that a snapshot selects are those of the records, in their order. -/
theorem SourceSound.selected (h : SourceSound c store activeKeyId sourceEpoch base db) :
    orderBy (·.sequence) ((db.outbox.rows.rows.map (·.toOutboxRow)).filter fun r =>
        r.streamId == store.streamId && r.sourceEpoch == sourceEpoch && decide (r.sequence ≤
          ((db.outbox.recordsOf store.streamId sourceEpoch).length : ℤ))) =
      (db.outbox.history store.streamId sourceEpoch).map (·.toOutboxRow) := by
  have hrows : (db.outbox.rows.rows.map (·.toOutboxRow)).filter (fun r =>
        r.streamId == store.streamId && r.sourceEpoch == sourceEpoch && decide (r.sequence ≤
          ((db.outbox.recordsOf store.streamId sourceEpoch).length : ℤ))) =
      (db.outbox.history store.streamId sourceEpoch).map (·.toOutboxRow) := by
    rw [List.filter_map, OutboxDb.history]
    congr 1
    refine List.filter_congr fun r hr => ?_
    simp only [Function.comp_apply]
    by_cases hkept : (r.streamId == store.streamId && r.sourceEpoch == sourceEpoch) = true
    · have hmem : r.record ∈ db.outbox.recordsOf store.streamId sourceEpoch :=
        List.mem_map_of_mem (List.mem_filter.mpr ⟨hr, hkept⟩)
      rw [hkept, Bool.true_and]
      exact decide_eq_true (h.sequence_le hmem)
    · rw [Bool.not_eq_true] at hkept
      rw [hkept, Bool.false_and]
  rw [hrows]
  refine orderBy_of_pairwise (List.pairwise_map.mpr ?_)
  have hsorted := h.pairwise
  rw [OutboxDb.recordsOf, List.pairwise_map] at hsorted
  exact hsorted.imp fun hlt => Int.le_of_lt hlt

theorem SourceSound.built (h : SourceSound c store activeKeyId sourceEpoch base db)
    (hbuild : buildPairSnapshotBundle c (db.snapshotSource c text store.streamId systemId)
      store.streamId through keyId key now = .ok bundle) :
    BuiltFrom c text store.streamId sourceEpoch db bundle := by
  simp only [buildPairSnapshotBundle, sourceCheckpoint, SourceDb.snapshotSource, h.checkpoint,
    Option.map_some, safeInt, bind_eq_ok, ensure_eq_ok, exists_unit, pure_eq_ok] at hbuild
  obtain ⟨-, _, rfl, sequence, ⟨-, rfl⟩, final, ⟨-, rfl⟩, hhead, records, hrecords, hlength,
    history, hhistory, issuedAt, ⟨-, rfl⟩, signature, -, rfl⟩ := hbuild
  rw [hhead, h.selected] at hrecords
  have hall : records = db.outbox.recordsOf store.streamId sourceEpoch := by
    have hrow : ∀ row ∈ (db.outbox.history store.streamId sourceEpoch).map (·.toOutboxRow),
        ∀ record, recordOfRow store.streamId row = .ok record → record = recordOf row := by
      intro row hrow record hrecord
      obtain ⟨entry, hentry, rfl⟩ := List.mem_map.mp hrow
      have hkept := (List.mem_filter.mp hentry).2
      simp only [Bool.and_eq_true, beq_iff_eq] at hkept
      simp only [recordOfRow, safeInt, bind_eq_ok, ensure_eq_ok, exists_unit, pure_eq_ok] at hrecord
      obtain ⟨_, ⟨-, rfl⟩, rfl⟩ := hrecord
      rw [recordOf, hkept.1]
    rw [mapM_eq_ok_map recordOf hrow hrecords, List.map_map]
    rfl
  exact ⟨rfl, rfl, hlength.1.symm, hall, rfl, history, hhistory, rfl⟩

/-- A bundle that was built at the head of a source passes every check of its records. -/
theorem SourceSound.verifyBundle_iff (h : SourceSound c store activeKeyId sourceEpoch base db)
    (hbuilt : BuiltFrom c text store.streamId sourceEpoch db bundle)
    (resolver : PublicKeyResolver c) :
    verifyBundle c resolver bundle assertSanitizedMutation = .ok () ↔
      verifyPairSnapshotManifest c resolver bundle.manifest = .ok () := by
  simp only [verifyBundle, bind_eq_ok, ensure_eq_ok, exists_unit, forM_eq_ok]
  constructor
  · exact fun hall => hall.1
  · intro hmanifest
    obtain ⟨history, hhistory, hdigest⟩ := hbuilt.history
    refine ⟨hmanifest, hbuilt.final.symm, history, hhistory, hdigest.symm, fun p hp => ?_⟩
    obtain ⟨record, index⟩ := p
    have hrecord := List.mk_mem_zipIdx_iff_getElem?.mp hp
    rw [hbuilt.records] at hrecord
    have hrecorded := h.recorded record (List.mem_of_getElem? hrecord)
    simp only [verifyBundleRecord, bind_eq_ok, ensure_eq_ok, exists_unit]
    exact ⟨hrecorded.conformant,
      ⟨hrecorded.stream.trans hbuilt.stream.symm, hrecorded.epoch.trans hbuilt.epoch.symm,
        h.numbered index record hrecord⟩,
      hrecorded.sanitized, record.opDigest, hrecorded.digest, rfl⟩

/-- Its manifest verifies under the key that signed it, unless the name of the epoch has a character
    that outbox records allow and manifests do not. -/
theorem verifyManifest_iff {source : SnapshotSource} {streamId : JsString}
    {resolver : PublicKeyResolver c}
    (hbuild : buildPairSnapshotBundle c source streamId through keyId key now = .ok bundle)
    (hdigests : hex64 bundle.manifest.stateDigest = true ∧
      hex64 bundle.manifest.historyDigest = true)
    (hsystem : digits bundle.manifest.sourceSystemId = true)
    (hkey : ∃ pub, resolver keyId = some pub ∧ ∀ message, b64u (c.edSign key message) = true ∧
      c.edVerify pub message (c.edSign key message) = true) :
    verifyPairSnapshotManifest c resolver bundle.manifest = .ok () ↔
      idRe bundle.manifest.sourceEpoch = true := by
  simp only [buildPairSnapshotBundle, bind_eq_ok, ensure_eq_ok, exists_unit, pure_eq_ok, id_eq_ok,
    safeInt_eq_ok, sign] at hbuild
  obtain ⟨hstream, _, -, _, -, final, ⟨hfinal, rfl⟩, -, records, -, -, history, -, issuedAt,
    ⟨hissued, rfl⟩, signature, ⟨hkeyId, rfl⟩, rfl⟩ := hbuild
  obtain ⟨pub, hpub, hverifies⟩ := hkey
  simp only [verifyPairSnapshotManifest, verify, bind_eq_ok, ensure_eq_ok, exists_unit, id_eq_ok,
    safeInt_eq_ok, publicKey_eq_ok]
  constructor
  · rintro ⟨-, hepoch, -⟩
    exact hepoch
  · intro hepoch
    exact ⟨hstream, hepoch, _, ⟨hfinal, rfl⟩, _, ⟨hissued, rfl⟩, ⟨hsystem, hdigests.1, hdigests.2⟩,
      (hverifies _).1, pub, ⟨hkeyId, hpub⟩, (hverifies _).2⟩

end Bundle

/-! ## The round trip -/

/-- The import of a bundle by a replica of the store. -/
def PgTransactionalPairStore.importOf {c : Crypto} (store : PgTransactionalPairStore)
    (activeKeyId : JsString) (resolver : PublicKeyResolver c) (bundle : PairSnapshotBundle) :
    SnapshotImport c where
  resolver
  bundle
  assertSanitized := assertSanitizedMutation
  applyInTx := (store.replica activeKeyId).applyInTx

/-- The receiver has the pairs and the pending registrations of the source, the digests of its
    records as its history, and its head as its checkpoint. -/
structure Reproduced (streamId sourceEpoch : JsString) (db : SourceDb)
    (receiver receiver' : ReceiverDb) : Prop where
  tables : db.tables.Same receiver'.source.tables
  history : receiver'.applied.rows =
    receiver.applied.rows ++ (db.outbox.recordsOf streamId sourceEpoch).map importedRow
  checkpoint : receiver'.receiverOf streamId =
    (db.outbox.checkpointOf streamId).map fun cp => ⟨cp.streamId, cp.sourceEpoch, cp.sequence⟩

section RoundTrip

variable {c store activeKeyId} {text : TableText} {sourceEpoch : JsString} {base : PairTables}
  {db : SourceDb} {bundle : PairSnapshotBundle} {resolver : PublicKeyResolver c}
  {receiver receiver' : ReceiverDb}

/-- Tables without rows are the empty tables. -/
theorem FreshReceiver.tables {streamId : JsString}
    (h : FreshReceiver streamId sourceEpoch receiver) :
    receiver.source.tables = PairTables.empty := by
  have hpairs := h.pairs
  have hpending := h.pending
  cases htables : receiver.source.tables with
  | mk pairs pending =>
      rw [htables] at hpairs hpending
      rw [PairTables.empty, PairTables.mk.injEq]
      exact ⟨Table.ext hpairs, Table.ext hpending⟩

/-- Whatever was imported reproduces the source: the records replay to its tables. -/
theorem reproduced_of_imported (hsound : SourceSound c store activeKeyId sourceEpoch base db)
    (hbuilt : BuiltFrom c text store.streamId sourceEpoch db bundle)
    (hbase : base.Same receiver.source.tables)
    (h : (store.importOf activeKeyId resolver bundle).Imported text receiver receiver') :
    Reproduced store.streamId sourceEpoch db receiver receiver' := by
  obtain ⟨replica, hreplay, hsame⟩ := hsound.replays _ hbase
  have hreplayed : bundle.records.foldlM (store.replica activeKeyId).applyInTx
    receiver.source.tables = .ok receiver'.source.tables := h.replayed
  have hcheckpoint : receiver'.receiverOf bundle.manifest.streamId = _ := h.checkpoint
  have hhistory : receiver'.applied.rows =
      receiver.applied.rows ++ bundle.records.map importedRow :=
    h.history
  rw [hbuilt.records, hreplay] at hreplayed
  cases hreplayed
  refine ⟨hsame, by rw [hhistory, hbuilt.records], ?_⟩
  rw [← hbuilt.stream, hcheckpoint, hbuilt.stream, hsound.checkpoint, ← hbuilt.records]
  show some _ = some _
  rw [← hbuilt.final, SnapshotImport.manifest, PgTransactionalPairStore.importOf, hbuilt.epoch,
    hbuilt.stream]

/-- A fresh receiver imports the bundle if the records that are replayed lead to the tables of the
    source there. -/
theorem import_isOk (htext : text.Ordered)
    (hsound : SourceSound c store activeKeyId sourceEpoch base db)
    (hbuilt : BuiltFrom c text store.streamId sourceEpoch db bundle)
    (hverified : verifyPairSnapshotManifest c resolver bundle.manifest = .ok ())
    (hfresh : FreshReceiver store.streamId sourceEpoch receiver)
    (hsome : db.outbox.recordsOf store.streamId sourceEpoch ≠ [])
    (hbase : base.Same receiver.source.tables) :
    ∃ receiver', (store.importOf activeKeyId resolver bundle).Call text receiver (.ok ())
      receiver' := by
  obtain ⟨replica, hreplay, hsame⟩ := hsound.replays _ hbase
  have hsafe : safeFrom 0 bundle.manifest.finalSequence = true := by
    obtain ⟨hmem, -⟩ := Table.mem_of_select hsound.checkpoint
    have hcheck := db.outbox.sourceCheckpoint.check_of_mem hmem
    simp only [sourceCheckpointSchema, Bool.and_eq_true] at hcheck
    rw [hbuilt.final, hbuilt.records]
    exact hcheck.2
  have hreplayed : (store.importOf activeKeyId resolver bundle).bundle.records.foldlM
      (store.importOf activeKeyId resolver bundle).applyInTx receiver.source.tables =
        .ok replica := by
    show bundle.records.foldlM _ _ = _
    rw [hbuilt.records]
    exact hreplay
  have hrun : ∃ receiver', (store.importOf activeKeyId resolver bundle).importInTx text receiver =
      .ok ((), receiver') := by
    refine SnapshotImport.importInTx_of ?_ ?_ ?_ ?_ hsafe hreplayed ?_
    · show FreshReceiver bundle.manifest.streamId bundle.manifest.sourceEpoch receiver
      rw [hbuilt.stream, hbuilt.epoch]
      exact hfresh
    · show bundle.records ≠ []
      rw [hbuilt.records]
      exact hsome
    · show ∀ r ∈ bundle.records, r.streamId = bundle.manifest.streamId ∧
        r.sourceEpoch = bundle.manifest.sourceEpoch ∧ _
      rw [hbuilt.records, hbuilt.stream, hbuilt.epoch]
      intro r hr
      have hrecorded := hsound.recorded r hr
      exact ⟨hrecorded.stream, hrecorded.epoch, hrecorded.kept⟩
    · show bundle.records.Pairwise _
      rw [hbuilt.records]
      exact hsound.pairwise
    · show _ = bundle.manifest.stateDigest
      rw [hbuilt.state]
      exact (stateDigest_same htext hsame).symm
  obtain ⟨receiver', hran⟩ := hrun
  exact ⟨receiver', .ran ((hsound.verifyBundle_iff hbuilt resolver).mpr hverified) (.commit hran)⟩

end RoundTrip

/-- Operations of one store are a run. -/
theorem run_operations {c : Crypto} {store : PgTransactionalPairStore} {activeKeyId : JsString}
    (db : SourceDb) (ops : List PairOperation) :
    Transition.Run (sourceSystem c store activeKeyId) db (store.run c db ops) := by
  induction ops generalizing db with
  | nil => exact .refl
  | cons op rest ih => exact .head (.operate store op rfl) (ih (store.perform c db op))

namespace SnapshotExample

open PromotionExample

def operations : List PairOperation :=
  [.delete samplePair.id.1, .deletePending (Js.lit "token")]

def source : SourceDb :=
  sampleStore.run lengthCrypto sampleDb operations

def build : Except HaError PairSnapshotBundle :=
  buildPairSnapshotBundle lengthCrypto
    (source.snapshotSource lengthCrypto tableText sampleStore.streamId (Js.lit "7"))
    sampleStore.streamId 2 (Js.lit "snapshot") (2 : ℕ) 0

/-- The bundle at the head of the source. -/
def bundle : PairSnapshotBundle :=
  orElse build ⟨manifest, []⟩

/-- A receiver that has just been provisioned. -/
def fresh : ReceiverDb where
  source :=
    { outbox :=
        { fence := ⟨[⟨Js.lit "pairs", 0⟩], by decide⟩
          sourceCheckpoint := .empty _
          rows := .empty _ }
      tables := PairTables.empty
      governed := false }
  receiverCheckpoint := ⟨[⟨Js.lit "pairs", Js.lit "e1", 0⟩], by decide⟩
  applied := .empty _
  promotionReceipt := .empty _

theorem freshReceiver : FreshReceiver sampleStore.streamId (Js.lit "e1") fresh where
  pairs := rfl
  pending := rfl
  checkpoint := rfl
  applied _ hr := absurd hr List.not_mem_nil

theorem build_computes :
    build.isOk = true ∧ bundle.records.length = 2 ∧
      (hex64 bundle.manifest.stateDigest = true ∧ hex64 bundle.manifest.historyDigest = true) ∧
      digits bundle.manifest.sourceSystemId = true ∧
      (source.outbox.recordsOf sampleStore.streamId (Js.lit "e1")).length = 2 := by
  decide +kernel

theorem built : build = .ok bundle := by
  obtain ⟨hok, -⟩ := build_computes
  rw [bundle]
  cases hbuild : build with
  | error e =>
      rw [hbuild] at hok
      cases hok
  | ok b => rfl

theorem two_signs : b64u (Js.decimal 2) = true ∧ (Js.decimal 2 == Js.decimal 2) = true := by
  decide

/-- What the key signs verifies under the public key of its id. -/
theorem key_signs : ∃ pub, sourceKeys (Js.lit "snapshot") = some pub ∧ ∀ message,
    b64u (lengthCrypto.edSign (2 : ℕ) message) = true ∧
      lengthCrypto.edVerify pub message (lengthCrypto.edSign (2 : ℕ) message) = true :=
  ⟨(2 : ℕ), rfl, fun _ => two_signs⟩

theorem recordsOf_ne_nil : source.outbox.recordsOf sampleStore.streamId (Js.lit "e1") ≠ [] := by
  obtain ⟨-, -, -, -, hrecords⟩ := build_computes
  intro hnone
  have hzero := congrArg List.length hnone
  exact absurd (hrecords.symm.trans hzero) (by decide)

/-- The receiver imports the bundle. -/
theorem imports : ∃ receiver', (sampleStore.importOf (Js.lit "k2") sourceKeys bundle).Call tableText
    fresh (.ok ()) receiver' := by
  obtain ⟨-, -, hdigests, hsystem, -⟩ := build_computes
  have hsound := @SourceSound.run lengthCrypto sampleStore (Js.lit "k2") (Js.lit "e1") source
    sampleSeal.inverts sampleDb ⟨rfl, rfl⟩ (run_operations sampleDb operations)
  have hbuilt := hsound.built built
  have hmanifest := verifyManifest_iff built hdigests hsystem key_signs
  rw [hbuilt.epoch] at hmanifest
  exact import_isOk (fun _ _ _ => ⟨rfl, rfl⟩) hsound hbuilt (hmanifest.mpr (by decide))
    freshReceiver recordsOf_ne_nil ⟨fun _ => rfl, fun _ => rfl⟩

end SnapshotExample

end Durable
