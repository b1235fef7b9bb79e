import BpcProtocol.Durable.Publisher

set_option autoImplicit false

/-! # The history of the outbox

What the transactions of a source keep of a stream: appends number its rows from one without a gap,
a fence only rises, and the publisher only marks rows. No row is ever changed or dropped. -/

namespace Durable

open Ha Fallible Relational

/-! ## Transactions of the source -/

/-- A statement has failed: PostgreSQL runs no other statement of the transaction. -/
def aborts : HaError → Bool
  | .sql _ => true
  | _ => false

variable (c : Crypto)

/-- What `appendInTx` allocates before its first write: the row it is going to insert. -/
def allocated (opts : OutboxOptions) (db : OutboxDb) (fenceToken : ℕ) (mutation : JsValue) :
    Except HaError OutboxEntry := do
  let checkpoint ← found (db.checkpointOf opts.streamId)
    "stream not provisioned (no source checkpoint row)"
  let cur ← safeSeq checkpoint.sequence "source.checkpoint.sequence"
  ensure (cur < Js.maxSafeInteger) "source sequence exhausted safe-integer range"
  let opDigest ← canonicalOpDigest c
    { streamId := opts.streamId, sourceEpoch := checkpoint.sourceEpoch, sequence := cur + 1,
      fenceToken := Js.decimal fenceToken, mutation }
  pure
    { streamId := opts.streamId, sourceEpoch := checkpoint.sourceEpoch, sequence := cur + 1,
      fenceToken, opDigest, mutation, acked := false, quarantined := false }

/-- The writes of `appendInTx`. -/
def writeAppend (opts : OutboxOptions) (db : OutboxDb) (entry : OutboxEntry) :
    Except HaError (OutboxRecord × OutboxDb) := do
  let rows ← query (db.rows.insert entry)
  let upd ← query (db.sourceCheckpoint.update (fun r => r.streamId == opts.streamId)
    fun r => { r with sequence := entry.sequence })
  affectedOne upd.2 "source checkpoint advance"
  assertHeaderConformant entry.record
  pure (entry.record, { db with sourceCheckpoint := upd.1, rows })

/-- A body of `withOutboxTx`: its appends in their order, each with whether the body goes on where it
    has thrown. It cannot go on where a statement has failed. -/
def appendEach (opts : OutboxOptions) :
    List (AppendInput × Bool) → OutboxDb → Except HaError (Unit × OutboxDb)
  | [], db => .ok ((), db)
  | (input, goesOn) :: rest, db =>
      match appendInTx c opts db input with
      | .ok (_, db') => appendEach opts rest db'
      | .error e => if goesOn && !aborts e then appendEach opts rest db else .error e

/-- The transaction of `PgPromotionFence.acquire(streamId)`. -/
def acquireFence (streamId : JsString) (fence : Table fenceSchema) :
    Except HaError (ℕ × Table fenceSchema) :=
  match fence.select fun r => r.streamId == streamId with
  | none => do
      let inserted ← query (fence.insert ⟨streamId, 1⟩)
      pure (1, inserted)
  | some row => do
      let upd ← query (fence.update (fun r => r.streamId == streamId)
        fun r => { r with fenceToken := r.fenceToken + 1 })
      affectedOne upd.2 "promotion fence acquire"
      pure (row.fenceToken + 1, upd.1)

section Append

variable {c} {opts : OutboxOptions} {db : OutboxDb}

theorem allocate_eq (fenceToken : ℕ) (mutation : JsValue) :
    allocate c opts db fenceToken mutation =
      allocated c opts db fenceToken mutation >>= writeAppend opts db := by
  simp only [allocate, allocated, writeAppend, bind_assoc, pure_bind]

/-- **An append that fails has written nothing, or its transaction is aborted**: behind the row that
    is inserted only a statement can fail. So a body that goes on finds the tables as they were. -/
theorem aborts_of_writeAppend {fenceToken : ℕ} {mutation : JsValue} {entry : OutboxEntry}
    {e : HaError} (hentry : allocated c opts db fenceToken mutation = .ok entry)
    (h : writeAppend opts db entry = .error e) : aborts e = true := by
  simp only [allocated, safeSeq, bind_eq_ok, ensure_eq_ok, exists_unit, found_eq_ok,
    pure_eq_ok] at hentry
  obtain ⟨cp, hcp, cur, ⟨hcur, rfl⟩, -, digest, hdigest, rfl⟩ := hentry
  have hsql : ∀ {α : Type} {x : Except SqlError α}, query x = .error e → aborts e = true := by
    intro α x hx
    cases x with
    | ok a => cases hx
    | error s =>
        cases hx
        rfl
  simp only [writeAppend] at h
  rcases (bind_eq_error _ _ _).mp h with hinsert | ⟨rows, hinsert, h⟩
  · exact hsql hinsert
  rcases (bind_eq_error _ _ _).mp h with hupdate | ⟨upd, hupdate, h⟩
  · exact hsql hupdate
  exfalso
  -- the checkpoint that was found is the one that is updated
  have hcount : upd.2 = 1 := by
    have hclash : ∀ a b, sourceCheckpointSchema.clash a b = (a.streamId == b.streamId) :=
      fun _ _ => rfl
    rw [(Table.update_eq_ok.mp ((query_eq_ok _ _).mp hupdate)).2,
      Table.countP_key hclash db.sourceCheckpoint opts.streamId]
    rw [OutboxDb.checkpointOf] at hcp
    rw [hcp]
    rfl
  -- the digest has checked the header, and the table the digest
  have hcheck := Table.check_of_insert ((query_eq_ok _ _).mp hinsert)
  simp only [outboxRowSchema, Bool.and_eq_true] at hcheck
  have hconformant : assertHeaderConformant (OutboxEntry.record
      { streamId := opts.streamId, sourceEpoch := cp.sourceEpoch, sequence := cp.sequence + 1,
        fenceToken, opDigest := digest, mutation, acked := false,
        quarantined := false }) = .ok () := by
    simp only [canonicalOpDigest, assertId, assertFenceToken, bind_eq_ok, ensure_eq_ok,
      exists_unit] at hdigest
    obtain ⟨hstream, hstreamText, hepoch, hepochText, hsequence, htoken, -⟩ := hdigest
    simp only [assertHeaderConformant, assertId, assertFenceToken, bind_eq_ok,
      ensure_eq_ok, exists_unit]
    exact ⟨rfl, hstream, hstreamText, hepoch, hepochText, hsequence, htoken, hcheck.1.2⟩
  rw [affectedOne, ensure_of hcount, hconformant] at h
  cases h

end Append

/-! ## Rows -/

/-- Some rows are appended, and others are marked. -/
structure Grows (rows rows' : List OutboxEntry) : Prop where
  kept : rows.map (·.toOutboxRow) <+: rows'.map (·.toOutboxRow)
  acked : ∀ r ∈ rows, ∃ r' ∈ rows', r'.toOutboxRow = r.toOutboxRow ∧ (r.acked = true → r'.acked = true)

namespace Grows

variable {rows rows' rows'' : List OutboxEntry}

theorem refl (rows : List OutboxEntry) : Grows rows rows where
  kept := List.prefix_rfl
  acked r hr := ⟨r, hr, rfl, fun h => h⟩

theorem trans (h : Grows rows rows') (h' : Grows rows' rows'') : Grows rows rows'' where
  kept := h.kept.trans h'.kept
  acked r hr := by
    obtain ⟨s, hs, hsame, hacked⟩ := h.acked r hr
    obtain ⟨t, ht, hsame', hacked'⟩ := h'.acked s hs
    exact ⟨t, ht, hsame'.trans hsame, fun hr => hacked' (hacked hr)⟩

theorem append (rows added : List OutboxEntry) : Grows rows (rows ++ added) where
  kept := by
    rw [List.map_append]
    exact List.prefix_append _ _
  acked r hr := ⟨r, List.mem_append_left _ hr, rfl, fun h => h⟩

theorem map {mark : OutboxEntry → OutboxEntry} (hmark : ∀ r, (mark r).toOutboxRow = r.toOutboxRow)
    (hacked : ∀ r, r.acked = true → (mark r).acked = true) (rows : List OutboxEntry) :
    Grows rows (rows.map mark) where
  kept := by
    have hsame : (rows.map mark).map (·.toOutboxRow) = rows.map (·.toOutboxRow) := by
      rw [List.map_map]
      exact List.map_congr_left fun r _ => hmark r
    rw [hsame]
  acked r hr := ⟨mark r, List.mem_map_of_mem hr, hmark r, hacked r⟩

end Grows

/-- What is acknowledged was acknowledged before. -/
def AckedBefore (rows rows' : List OutboxEntry) : Prop :=
  ∀ r' ∈ rows', r'.acked = true → ∃ r ∈ rows, r.toOutboxRow = r'.toOutboxRow ∧ r.acked = true

theorem AckedBefore.refl (rows : List OutboxEntry) : AckedBefore rows rows :=
  fun r hr hacked => ⟨r, hr, rfl, hacked⟩

theorem AckedBefore.trans {rows rows' rows'' : List OutboxEntry} (h : AckedBefore rows rows')
    (h' : AckedBefore rows' rows'') : AckedBefore rows rows'' := by
  intro t ht hacked
  obtain ⟨s, hs, hsame, hacked'⟩ := h' t ht hacked
  obtain ⟨r, hr, hsame', hacked''⟩ := h s hs hacked'
  exact ⟨r, hr, hsame'.trans hsame, hacked''⟩

theorem sequencesFrom_succ (n : ℕ) : sequencesFrom (n + 1) = sequencesFrom n ++ [(n : ℤ) + 1] := by
  simp [sequencesFrom, List.range_succ]

theorem getElem?_sequencesFrom {i n : ℕ} (hi : i < n) :
    (sequencesFrom n)[i]? = some ((i : ℤ) + 1) := by
  induction n with
  | zero => omega
  | succ n ih =>
      rw [sequencesFrom_succ]
      have hlength : (sequencesFrom n).length = n := by simp [sequencesFrom]
      by_cases hlt : i < n
      · rw [List.getElem?_append_left (by omega), ih hlt]
      · obtain rfl : i = n := by omega
        rw [List.getElem?_append_right (by omega), hlength, Nat.sub_self, List.getElem?_cons_zero]

/-! ## The invariant -/

variable (opts : OutboxOptions) (sourceEpoch : JsString)

/-- What holds of the rows of a stream in one of its epochs, `rows`, and its checkpoint. -/
structure OutboxSound (db : OutboxDb) : Prop where
  checkpoint : db.checkpointOf opts.streamId =
    some ⟨opts.streamId, sourceEpoch, (db.rowsOf opts.streamId).length⟩
  sequences : (db.rowsOf opts.streamId).map (·.sequence) =
    sequencesFrom (db.rowsOf opts.streamId).length
  epoch : ∀ r ∈ db.rowsOf opts.streamId, r.sourceEpoch = sourceEpoch
  digest : ∀ r ∈ db.rowsOf opts.streamId, canonicalOpDigest c r.digestInput = .ok r.opDigest
  mutation : ∀ r ∈ db.rowsOf opts.streamId, r.mutation.DistinctKeys
  acked : ∀ r ∈ db.rowsOf opts.streamId, ∀ r' ∈ db.rowsOf opts.streamId,
    r.sequence ≤ r'.sequence → r'.acked = true → r.acked = true
  apart : ∀ r ∈ db.rowsOf opts.streamId, r.acked = true → r.quarantined = false
  fences : (db.rowsOf opts.streamId).Pairwise fun r r' => r.fenceToken ≤ r'.fenceToken
  fence : ∀ r ∈ db.rowsOf opts.streamId, ∃ f, db.fenceOf opts.streamId = some f ∧
    r.fenceToken ≤ f.fenceToken
  pending : db.pendingCount opts.streamId ≤ opts.maxPendingRows

namespace OutboxSound

variable {c opts sourceEpoch} {db db' : OutboxDb}

/-- The rows are numbered by their place. -/
theorem sequence_getElem (h : OutboxSound c opts sourceEpoch db) {i : ℕ} {r : OutboxEntry}
    (hr : (db.rowsOf opts.streamId)[i]? = some r) : r.sequence = i + 1 := by
  have hi : i < (db.rowsOf opts.streamId).length := (List.getElem?_eq_some_iff.mp hr).1
  have hat : ((db.rowsOf opts.streamId).map (·.sequence))[i]? = some r.sequence := by
    rw [List.getElem?_map, hr]
    rfl
  rw [h.sequences, getElem?_sequencesFrom hi] at hat
  exact (Option.some.inj hat).symm

theorem sequence_mem (h : OutboxSound c opts sourceEpoch db) {r : OutboxEntry}
    (hr : r ∈ db.rowsOf opts.streamId) :
    1 ≤ r.sequence ∧ r.sequence ≤ (db.rowsOf opts.streamId).length := by
  obtain ⟨i, hi⟩ := List.mem_iff_getElem?.mp hr
  have hlt := (List.getElem?_eq_some_iff.mp hi).1
  have hseq := h.sequence_getElem hi
  omega

theorem exists_of_sequence (h : OutboxSound c opts sourceEpoch db) {n : ℤ} (hone : 1 ≤ n)
    (hn : n ≤ (db.rowsOf opts.streamId).length) :
    ∃ r ∈ db.rowsOf opts.streamId, r.sequence = n := by
  have hlt : n.toNat - 1 < (db.rowsOf opts.streamId).length := by omega
  have hat : (db.rowsOf opts.streamId)[n.toNat - 1]? = some ((db.rowsOf opts.streamId)[n.toNat - 1]) :=
    List.getElem?_eq_getElem hlt
  refine ⟨_, List.getElem_mem hlt, ?_⟩
  have hseq := h.sequence_getElem hat
  omega

/-- Rows of one number are one row. -/
theorem eq_of_sequence (h : OutboxSound c opts sourceEpoch db) {r r' : OutboxEntry}
    (hr : r ∈ db.rowsOf opts.streamId) (hr' : r' ∈ db.rowsOf opts.streamId)
    (heq : r.sequence = r'.sequence) : r = r' := by
  obtain ⟨i, hi⟩ := List.mem_iff_getElem?.mp hr
  obtain ⟨j, hj⟩ := List.mem_iff_getElem?.mp hr'
  have hij : i = j := by
    have hseq := h.sequence_getElem hi
    have hseq' := h.sequence_getElem hj
    omega
  rw [hij, hj] at hi
  exact (Option.some.inj hi).symm

/-- The rows that are acknowledged are the first ones. -/
theorem acked_upTo (h : OutboxSound c opts sourceEpoch db) :
    ∃ n : ℤ, ∀ r ∈ db.rowsOf opts.streamId, r.acked = true ↔ r.sequence ≤ n := by
  have hpast : ∀ n : ℕ, ∃ m : ℤ, ∀ r ∈ db.rowsOf opts.streamId, r.sequence ≤ n →
      (r.acked = true ↔ r.sequence ≤ m) := by
    intro n
    induction n with
    | zero =>
        refine ⟨0, fun r hr hle => ?_⟩
        have hone := (h.sequence_mem hr).1
        omega
    | succ n ih =>
        obtain ⟨m, hm⟩ := ih
        by_cases hnext : ∃ r ∈ db.rowsOf opts.streamId, r.sequence = n + 1 ∧ r.acked = true
        · obtain ⟨last, hlast, hseq, hacked⟩ := hnext
          refine ⟨n + 1, fun r hr hle => ⟨fun _ => by exact_mod_cast hle, fun _ => ?_⟩⟩
          exact h.acked r hr last hlast (by omega) hacked
        · refine ⟨min m n, fun r hr hle => ?_⟩
          by_cases hlt : r.sequence ≤ n
          · rw [hm r hr hlt]
            omega
          · have hlast : r.sequence = n + 1 := by omega
            constructor
            · intro hacked
              exact absurd ⟨r, hr, hlast, hacked⟩ hnext
            · intro hmin
              omega
  obtain ⟨m, hm⟩ := hpast (db.rowsOf opts.streamId).length
  exact ⟨m, fun r hr => hm r hr (h.sequence_mem hr).2⟩

/-! ### Appending -/

theorem rowsOf_append {entry : OutboxEntry} (hrows : db'.rows.rows = db.rows.rows ++ [entry])
    (hstream : entry.streamId = opts.streamId) :
    db'.rowsOf opts.streamId = db.rowsOf opts.streamId ++ [entry] := by
  rw [OutboxDb.rowsOf, hrows, List.filter_append, List.filter_singleton, hstream]
  simp [OutboxDb.rowsOf]

/-- **An append keeps the invariant**: the new row has the next number, the digest of its columns and
    the token of the fence. -/
theorem appended {mutation : JsValue} {entry : OutboxEntry} (h : OutboxSound c opts sourceEpoch db)
    (happended : Appended c opts db mutation entry db') (hmutation : mutation.DistinctKeys) :
    OutboxSound c opts sourceEpoch db' ∧
      Grows (db.rowsOf opts.streamId) (db'.rowsOf opts.streamId) ∧
      AckedBefore (db.rowsOf opts.streamId) (db'.rowsOf opts.streamId) := by
  have hrows := rowsOf_append happended.rows happended.stream
  have hcheckpoint := happended.checkpoint
  rw [h.checkpoint] at hcheckpoint
  obtain ⟨-, hepoch, hlength⟩ := SourceCheckpointRow.mk.inj (Option.some.inj hcheckpoint)
  have hnext : entry.sequence = (db.rowsOf opts.streamId).length + 1 := by omega
  have hfence : db'.fenceOf opts.streamId = db.fenceOf opts.streamId := by
    rw [OutboxDb.fenceOf, OutboxDb.fenceOf, happended.fences]
  refine ⟨?_, hrows ▸ Grows.append _ _, ?_⟩
  swap
  · rw [hrows]
    intro r hr hacked
    rcases List.mem_append.mp hr with hr | hr
    · exact ⟨r, hr, rfl, hacked⟩
    · rw [List.mem_singleton.mp hr, happended.waits.1] at hacked
      cases hacked
  constructor
  · rw [happended.advanced, hrows, ← hepoch, hnext]
    simp
  · rw [hrows, List.map_append, h.sequences, List.length_append, List.length_singleton,
      sequencesFrom_succ, List.map_singleton, hnext]
  · rw [hrows]
    intro r hr
    rcases List.mem_append.mp hr with hr | hr
    · exact h.epoch r hr
    · rw [List.mem_singleton.mp hr, hepoch]
  · rw [hrows]
    intro r hr
    rcases List.mem_append.mp hr with hr | hr
    · exact h.digest r hr
    · rw [List.mem_singleton.mp hr, happended.digest]
  · rw [hrows]
    intro r hr
    rcases List.mem_append.mp hr with hr | hr
    · exact h.mutation r hr
    · rwa [List.mem_singleton.mp hr, happended.mutation]
  · -- the new row is behind the others, and not acknowledged
    rw [hrows]
    intro r hr r' hr' hle hacked
    rcases List.mem_append.mp hr' with hr' | hr'
    · rcases List.mem_append.mp hr with hr | hr
      · exact h.acked r hr r' hr' hle hacked
      · have hbound := (h.sequence_mem hr').2
        rw [List.mem_singleton.mp hr, hnext] at hle
        omega
    · rw [List.mem_singleton.mp hr', happended.waits.1] at hacked
      cases hacked
  · rw [hrows]
    intro r hr hacked
    rcases List.mem_append.mp hr with hr | hr
    · exact h.apart r hr hacked
    · rw [List.mem_singleton.mp hr, happended.waits.2]
  · rw [hrows, List.pairwise_append]
    refine ⟨h.fences, List.pairwise_singleton _ _, fun r hr r' hr' => ?_⟩
    obtain ⟨f, hf, hle⟩ := h.fence r hr
    rw [happended.fence] at hf
    cases hf
    rwa [List.mem_singleton.mp hr']
  · rw [hrows, hfence]
    intro r hr
    rcases List.mem_append.mp hr with hr | hr
    · exact h.fence r hr
    · exact ⟨_, happended.fence, by rw [List.mem_singleton.mp hr]⟩
  · have hadmitted := happended.admitted
    rw [OutboxDb.pendingCount] at hadmitted ⊢
    rw [happended.rows, List.countP_append]
    have hone : [entry].countP (OutboxDb.isPending opts.streamId) ≤ 1 := List.countP_le_length
    omega

/-- What is stored comes from a text, and has no key twice. -/
theorem distinctKeys_of_sanitized {raw mutation : JsValue}
    (h : sanitized opts raw = .ok mutation) : mutation.DistinctKeys := by
  simp only [sanitized, bind_eq_ok] at h
  obtain ⟨-, -, clean, -, hclean⟩ := h
  exact (json_of_snapshotJson hclean).distinctKeys

theorem appendEach {inputs : List (AppendInput × Bool)} {u : Unit}
    (h : OutboxSound c opts sourceEpoch db)
    (hran : Durable.appendEach c opts inputs db = .ok (u, db')) :
    OutboxSound c opts sourceEpoch db' ∧
      Grows (db.rowsOf opts.streamId) (db'.rowsOf opts.streamId) ∧
      AckedBefore (db.rowsOf opts.streamId) (db'.rowsOf opts.streamId) := by
  induction inputs generalizing db with
  | nil =>
      cases hran
      exact ⟨h, .refl _, .refl _⟩
  | cons head rest ih =>
      obtain ⟨input, goesOn⟩ := head
      rw [Durable.appendEach] at hran
      split at hran
      · next record next happend =>
          obtain ⟨mutation, entry, hsanitized, -, -, happended⟩ := appendInTx_eq_ok c happend
          obtain ⟨hsound, hgrows, hbefore⟩ :=
            h.appended happended (distinctKeys_of_sanitized hsanitized)
          obtain ⟨hsound', hgrows', hbefore'⟩ := ih hsound hran
          exact ⟨hsound', hgrows.trans hgrows', hbefore.trans hbefore'⟩
      · split_ifs at hran
        exact ih h hran

/-! ### Marking -/

section Marking

variable {source source' : PublishedDb} {mark : OutboxEntry → OutboxEntry}

theorem rowsOf_marks (hmarks : Marks mark source source')
    (hmark : ∀ r, (mark r).toOutboxRow = r.toOutboxRow) (streamId : JsString) :
    source'.rowsOf streamId = (source.rowsOf streamId).map mark := by
  rw [OutboxDb.rowsOf, hmarks.rows, List.filter_map]
  refine congrArg (List.map _) (List.filter_congr fun r _ => ?_)
  rw [Function.comp_apply, hmark]

/-- A mark keeps the invariant if it goes up the rows in their order and no row that is acknowledged
    is quarantined. -/
theorem marked (h : OutboxSound c opts sourceEpoch source.toOutboxDb)
    (hmarks : Marks mark source source') (hmark : ∀ r, (mark r).toOutboxRow = r.toOutboxRow)
    (hkeeps : ∀ r, r.acked = true → (mark r).acked = true)
    (hacked : ∀ r ∈ source.rowsOf opts.streamId, ∀ r' ∈ source.rowsOf opts.streamId,
      r.sequence ≤ r'.sequence → (mark r').acked = true → (mark r).acked = true)
    (hapart : ∀ r ∈ source.rowsOf opts.streamId, (mark r).acked = true →
      (mark r).quarantined = false)
    (hwaits : ∀ r, OutboxDb.isPending opts.streamId (mark r) = true →
      OutboxDb.isPending opts.streamId r = true) :
    OutboxSound c opts sourceEpoch source'.toOutboxDb ∧
      Grows (source.rowsOf opts.streamId) (source'.rowsOf opts.streamId) := by
  have hrows := rowsOf_marks hmarks hmark opts.streamId
  have hof : ∀ {p : OutboxEntry → Prop}, (∀ r ∈ source.rowsOf opts.streamId, p (mark r)) →
      ∀ r ∈ source'.rowsOf opts.streamId, p r := by
    intro p hp r hr
    rw [hrows] at hr
    obtain ⟨x, hx, rfl⟩ := List.mem_map.mp hr
    exact hp x hx
  have hcheckpoint : source'.checkpointOf opts.streamId = source.checkpointOf opts.streamId := by
    rw [OutboxDb.checkpointOf, OutboxDb.checkpointOf, hmarks.sourceCheckpoint]
  have hfence : source'.fenceOf opts.streamId = source.fenceOf opts.streamId := by
    rw [OutboxDb.fenceOf, OutboxDb.fenceOf, hmarks.fence]
  refine ⟨?_, hrows ▸ Grows.map hmark hkeeps _⟩
  constructor
  · rw [hcheckpoint, h.checkpoint, hrows, List.length_map]
  · rw [hrows, List.length_map, ← h.sequences, List.map_map]
    exact List.map_congr_left fun r _ => congrArg OutboxRow.sequence (hmark r)
  · exact hof fun r hr => (congrArg OutboxRow.sourceEpoch (hmark r)).trans (h.epoch r hr)
  · refine hof fun r hr => ?_
    rw [OutboxEntry.digestInput, hmark]
    exact h.digest r hr
  · refine hof fun r hr => ?_
    rw [hmark]
    exact h.mutation r hr
  · refine hof fun r hr => hof fun r' hr' => ?_
    rw [hmark, hmark]
    exact hacked r hr r' hr'
  · exact hof hapart
  · rw [hrows, List.pairwise_map]
    exact h.fences.imp fun hle => by rwa [hmark, hmark]
  · rw [hfence]
    refine hof fun r hr => ?_
    rw [hmark]
    exact h.fence r hr
  · refine le_trans ?_ h.pending
    rw [OutboxDb.pendingCount, OutboxDb.pendingCount, hmarks.rows, List.countP_map]
    exact List.countP_mono_left fun r _ => hwaits r

variable {publisher : PublisherOptions} {record : OutboxRecord} {r : OutboxEntry}

theorem markAcked_row (r : OutboxEntry) : (markAcked publisher record r).toOutboxRow = r.toOutboxRow := by
  unfold markAcked
  split <;> rfl

theorem markQuarantined_row (r : OutboxEntry) :
    (markQuarantined publisher record r).toOutboxRow = r.toOutboxRow := by
  unfold markQuarantined
  split <;> rfl

/-- A row that is acknowledged was, or it is the row of the record and not quarantined. -/
theorem acked_markAcked (h : (markAcked publisher record r).acked = true) :
    r.acked = true ∨ r.sequence = record.sequence ∧ r.sourceEpoch = record.sourceEpoch ∧
      r.opDigest = record.opDigest ∧ r.quarantined = false := by
  unfold markAcked at h
  split at h
  · next hopen =>
      simp only [isOpen, Bool.and_eq_true, beq_iff_eq, Bool.not_eq_true'] at hopen
      exact .inr ⟨hopen.1.1.1.2, hopen.1.1.1.1.2, hopen.2, hopen.1.2⟩
  · exact .inl h

theorem markAcked_of_acked (h : r.acked = true) : markAcked publisher record r = r := by
  simp [markAcked, isOpen, h]

theorem markQuarantined_of_acked (h : r.acked = true) : markQuarantined publisher record r = r := by
  simp [markQuarantined, isOpen, h]

@[simp]
theorem markQuarantined_acked (r : OutboxEntry) :
    (markQuarantined publisher record r).acked = r.acked := by
  unfold markQuarantined
  split <;> rfl

@[simp]
theorem markAcked_quarantined (r : OutboxEntry) :
    (markAcked publisher record r).quarantined = r.quarantined := by
  unfold markAcked
  split <;> rfl

/-- **An acknowledgement keeps the invariant**, of a record before which every row is
    acknowledged. -/
theorem acknowledged (h : OutboxSound c opts sourceEpoch source.toOutboxDb)
    (hmarks : Marks (markAcked publisher record) source source')
    (hlower : ∀ r ∈ source.rowsOf opts.streamId, r.sequence < record.sequence → r.acked = true) :
    OutboxSound c opts sourceEpoch source'.toOutboxDb ∧
      Grows (source.rowsOf opts.streamId) (source'.rowsOf opts.streamId) := by
  refine h.marked hmarks markAcked_row (fun r hr => by rw [markAcked_of_acked hr, hr]) ?_ ?_ ?_
  · intro r hr r' hr' hle hacked
    rcases acked_markAcked hacked with hbefore | ⟨hrecord, -⟩
    · have hlow := h.acked r hr r' hr' hle hbefore
      rwa [markAcked_of_acked hlow]
    · by_cases hlt : r.sequence < record.sequence
      · have hlow := hlower r hr hlt
        rwa [markAcked_of_acked hlow]
      · obtain rfl := h.eq_of_sequence hr hr' (by omega)
        exact hacked
  · intro r hr hacked
    rw [markAcked_quarantined]
    rcases acked_markAcked hacked with hbefore | ⟨-, -, -, hnot⟩
    · exact h.apart r hr hbefore
    · exact hnot
  · intro r hpending
    unfold markAcked at hpending
    split at hpending
    · simp [OutboxDb.isPending] at hpending
    · exact hpending

/-- **A quarantine keeps the invariant.** -/
theorem quarantined (h : OutboxSound c opts sourceEpoch source.toOutboxDb)
    (hmarks : Marks (markQuarantined publisher record) source source') :
    OutboxSound c opts sourceEpoch source'.toOutboxDb ∧
      Grows (source.rowsOf opts.streamId) (source'.rowsOf opts.streamId) ∧
      AckedBefore (source.rowsOf opts.streamId) (source'.rowsOf opts.streamId) := by
  have hbefore : AckedBefore (source.rowsOf opts.streamId) (source'.rowsOf opts.streamId) := by
    rw [rowsOf_marks hmarks markQuarantined_row]
    intro r hr hacked
    obtain ⟨x, hx, rfl⟩ := List.mem_map.mp hr
    rw [markQuarantined_acked] at hacked
    exact ⟨x, hx, (markQuarantined_row x).symm, hacked⟩
  suffices hkept : OutboxSound c opts sourceEpoch source'.toOutboxDb ∧
      Grows (source.rowsOf opts.streamId) (source'.rowsOf opts.streamId) from
    ⟨hkept.1, hkept.2, hbefore⟩
  refine h.marked hmarks markQuarantined_row (fun r hr => by simpa using hr) ?_ ?_ ?_
  · intro r hr r' hr' hle hacked
    rw [markQuarantined_acked] at hacked ⊢
    exact h.acked r hr r' hr' hle hacked
  · intro r hr hacked
    rw [markQuarantined_acked] at hacked
    rw [markQuarantined_of_acked hacked]
    exact h.apart r hr hacked
  · intro r hpending
    unfold markQuarantined at hpending
    split at hpending
    · simp [OutboxDb.isPending] at hpending
    · exact hpending

end Marking

/-! ### Raising the fence -/

/-- **A fence that is acquired keeps the invariant**: its token only rises. -/
theorem raised {fence : Table fenceSchema} {token : ℕ} {streamId : JsString}
    (h : OutboxSound c opts sourceEpoch db)
    (hacquire : acquireFence streamId db.fence = .ok (token, fence)) :
    OutboxSound c opts sourceEpoch { db with fence } := by
  refine
    { checkpoint := h.checkpoint
      sequences := h.sequences
      epoch := h.epoch
      digest := h.digest
      mutation := h.mutation
      acked := h.acked
      apart := h.apart
      fences := h.fences
      fence := fun r hr => ?_
      pending := h.pending }
  obtain ⟨f, hf, hle⟩ := h.fence r hr
  rw [OutboxDb.fenceOf] at hf
  show ∃ f, (fence.select fun r => r.streamId == opts.streamId) = some f ∧ r.fenceToken ≤ f.fenceToken
  unfold acquireFence at hacquire
  split at hacquire
  · simp only [bind_eq_ok, query_eq_ok, pure_eq_ok] at hacquire
    obtain ⟨inserted, hinserted, heq⟩ := hacquire
    cases heq
    rw [Table.select_insert hinserted, hf]
    exact ⟨f, rfl, hle⟩
  · simp only [affectedOne, bind_eq_ok, query_eq_ok, exists_unit, pure_eq_ok] at hacquire
    obtain ⟨upd, hupd, -, heq⟩ := hacquire
    cases heq
    rw [Table.select_update (q := fun r => r.streamId == opts.streamId) hupd fun _ => rfl, hf]
    refine ⟨_, rfl, ?_⟩
    dsimp only
    split
    · exact Nat.le_succ_of_le hle
    · exact hle

end OutboxSound

end Durable
