import BpcProtocol.Audit.Chain
import BpcProtocol.Lib.Relational
import BpcProtocol.Lib.Transition
import Mathlib.Logic.Function.Basic

set_option autoImplicit false

/-! # The audit log in PostgreSQL

`PgAuditLog` over one table `bpc_audit`. A writer reads the head in one statement and appends in
another, so what it read may be stale by any number of appends: the constraint `UNIQUE (seq)` is
what keeps the log one chain. Any number of writers interleave statement by statement. -/

namespace Audit

open Relational

variable (sha256 : Bytes → JsString)

/-! ## The table -/

/-- A row of `bpc_audit`. -/
structure AuditRow where
  id : JsString
  seq : ℤ
  timestamp : ℤ
  action : JsString
  severity : JsString
  pairId : Option JsString
  error : Option JsString
  ip : Option JsString
  method : Option JsString
  path : Option JsString
  userAgent : Option JsString
  requestId : Option JsString
  detail : Option JsString
  prevHash : JsString
  chainHash : JsString
  deriving DecidableEq

/-- The range of a `BIGINT`. -/
def isBigint (n : ℤ) : Bool :=
  decide (-2 ^ 63 ≤ n) && decide (n < 2 ^ 63)

/-- `PRIMARY KEY (id)` and `UNIQUE (seq)`. -/
def auditSchema : Schema AuditRow where
  check r := isBigint r.seq && isBigint r.timestamp
  clash a b := a.id == b.id || a.seq == b.seq

abbrev AuditTable := Table auditSchema

/-- The row that the parameters of the insertion make. A text column holds the text it is given. -/
def rowOf (e : AuditEntry) : Option AuditRow := do
  let seq ← e.seq.1.toInt?
  let timestamp ← e.timestamp.1.toInt?
  let severity ← e.severity
  pure
    { id := e.id, seq, timestamp, action := e.action, severity, pairId := e.pairId,
      error := e.error, ip := e.ip, method := e.method, path := e.path,
      userAgent := e.userAgent, requestId := e.requestId, detail := e.detail,
      prevHash := e.prevHash, chainHash := e.chainHash }

/-- `mapRow(r)`. -/
def mapRow (r : AuditRow) : AuditEntry where
  id := r.id
  timestamp := .ofInt r.timestamp
  action := r.action
  severity := some r.severity
  pairId := r.pairId
  error := r.error
  ip := r.ip
  method := r.method
  path := r.path
  userAgent := r.userAgent
  requestId := r.requestId
  detail := r.detail
  seq := .ofInt r.seq
  prevHash := r.prevHash
  chainHash := r.chainHash

/-- `SELECT … FROM bpc_audit ORDER BY seq DESC LIMIT 1`. -/
def latestRow (t : AuditTable) : Option AuditRow :=
  (orderBy AuditRow.seq t.rows).getLast?

inductive PgError where
  | uniqueViolation
  | other (message : String)
  deriving DecidableEq

namespace PgAuditLog

/-- `head()`: the second query may find rows that the first did not, and its count is an `int`. -/
def head (first second : AuditTable) : Except PgError ChainHead :=
  if second.rows.length ≤ 2147483647 then
    let count := JsDouble.counted second.rows.length
    .ok ((latestRow first).elim { seq := .counted 0, chainHash := genesisHash, count } fun row =>
      { seq := .ofInt row.seq, chainHash := row.chainHash, count })
  else
    .error (.other "integer out of range")

def verifyChain (t : AuditTable) (expectedHead : Option ChainHead) : VerifyResult :=
  verifyEntries sha256 ((orderBy AuditRow.seq t.rows).map mapRow) expectedHead

end PgAuditLog

/-! ## Writing -/

def isUniqueViolation (err : PgError) : Bool :=
  err = .uniqueViolation

inductive AuditError where
  | pool (err : PgError)
  | contention
  deriving DecidableEq

/-- A call of `write` on a log with this retry budget. -/
structure WriteCall where
  entry : AuditInput
  stamp : Stamp
  maxRetries : JsNumber

/-- Where a call of `write` stands: it awaits the head, or the insertion, or has ended. -/
inductive Phase where
  | reading (attempt : ℕ)
  | inserting (attempt : ℕ) (params : AuditEntry)
  | returned
  | thrown (err : AuditError)

namespace WriteCall

/-- `for (…; attempt < this.maxRetries; …)`. -/
def loop (call : WriteCall) (attempt : ℕ) : Phase :=
  if (JsNumber.counted attempt).lt call.maxRetries then .reading attempt else .thrown .contention

/-- The entry that is appended behind the head that was read. -/
def full (call : WriteCall) (row : Option AuditRow) : AuditEntry :=
  let prevSeq := row.elim (JsDouble.counted 0) fun r => JsDouble.ofInt r.seq
  let prevHash := row.elim genesisHash AuditRow.chainHash
  (call.entry.base call.stamp prevSeq.incr prevHash).sealed sha256

/-- What follows the answer to the first query. -/
def onHead (call : WriteCall) (attempt : ℕ) : Except PgError (Option AuditRow) → Phase
  | .ok row => .inserting attempt (call.full sha256 row)
  | .error err => .thrown (.pool err)

/-- What follows the answer to the insertion. -/
def onInsert (call : WriteCall) (attempt : ℕ) : Except PgError Unit → Phase
  | .ok _ => .returned
  | .error err =>
      if isUniqueViolation err then call.loop (attempt + 1) else .thrown (.pool err)

end WriteCall

/-! ## Writers over one table -/

/-- The table, the calls so far, and the rows added, each with the call that added it. -/
structure Writers (ι : Type) where
  table : AuditTable
  calls : ι → Option (WriteCall × Phase)
  added : List (ι × AuditRow)

namespace Writers

variable {ι : Type} [DecidableEq ι]

def setCall (s : Writers ι) (i : ι) (call : WriteCall) (phase : Phase) : Writers ι :=
  { s with calls := Function.update s.calls i (some (call, phase)) }

@[simp]
theorem calls_setCall_self (s : Writers ι) (i : ι) (call : WriteCall) (phase : Phase) :
    (s.setCall i call phase).calls i = some (call, phase) :=
  Function.update_self i _ _

theorem calls_setCall_of_ne {s : Writers ι} {i j : ι} (h : j ≠ i) (call : WriteCall)
    (phase : Phase) : (s.setCall i call phase).calls j = s.calls j :=
  Function.update_of_ne h _ _

/-- One step: a call starts, or one of its statements runs or fails. What a query answers is true:
    an insertion that fails has added nothing, and a unique violation is one. -/
inductive Step : Writers ι → Writers ι → Prop
  | start {s : Writers ι} (i : ι) (call : WriteCall) :
      s.calls i = none → Step s (s.setCall i call (call.loop 0))
  | read {s : Writers ι} (i : ι) (call : WriteCall) (attempt : ℕ) :
      s.calls i = some (call, .reading attempt) →
      Step s (s.setCall i call (call.onHead sha256 attempt (.ok (latestRow s.table))))
  | readFails {s : Writers ι} (i : ι) (call : WriteCall) (attempt : ℕ) (err : PgError) :
      s.calls i = some (call, .reading attempt) →
      Step s (s.setCall i call (call.onHead sha256 attempt (.error err)))
  | insert {s : Writers ι} (i : ι) (call : WriteCall) (attempt : ℕ) (params : AuditEntry)
      (row : AuditRow) (table : AuditTable) :
      s.calls i = some (call, .inserting attempt params) → rowOf params = some row →
      s.table.insert row = .ok table →
      Step s
        { s.setCall i call (call.onInsert attempt (.ok ())) with
          table := table
          added := s.added ++ [(i, row)] }
  | conflict {s : Writers ι} (i : ι) (call : WriteCall) (attempt : ℕ) (params : AuditEntry)
      (row x : AuditRow) :
      s.calls i = some (call, .inserting attempt params) → rowOf params = some row →
      x ∈ s.table.rows → auditSchema.clash x row = true →
      Step s (s.setCall i call (call.onInsert attempt (.error .uniqueViolation)))
  | insertFails {s : Writers ι} (i : ι) (call : WriteCall) (attempt : ℕ) (params : AuditEntry)
      (message : String) :
      s.calls i = some (call, .inserting attempt params) →
      Step s (s.setCall i call (call.onInsert attempt (.error (.other message))))

/-- The writers of one log, which starts empty. -/
def system (ι : Type) [DecidableEq ι] : Transition.System (Writers ι) where
  init s := s.table = Table.empty auditSchema ∧ (∀ i, s.calls i = none) ∧ s.added = []
  next := Step sha256

/-- The rows that one call added. -/
def addedBy (s : Writers ι) (i : ι) : List AuditRow :=
  (s.added.filter fun a => a.1 = i).map Prod.snd

end Writers

/-! ## Rows and entries -/

variable {sha256}

/-- The parameters of an insertion always make a row. -/
theorem exists_rowOf (entry : AuditInput) (stamp : Stamp) (n : ℕ) (prevHash : JsString) :
    ∃ row, rowOf ((entry.base stamp (.counted n) prevHash).sealed sha256) = some row := by
  simp only [rowOf, BareAuditEntry.sealed, AuditInput.base, JsDouble.toInt?_counted,
    JsDouble.toInt?_ofInt stamp.timestamp_lt, Option.bind_eq_bind, Option.bind_some, Option.pure_def]
  exact ⟨_, rfl⟩

/-- A row of the table gives back the entry that it was made of. -/
theorem rowOf_base {entry : AuditInput} {stamp : Stamp} {n : ℕ} {prevHash : JsString}
    {row : AuditRow}
    (h : rowOf ((entry.base stamp (.counted n) prevHash).sealed sha256) = some row) :
    row.seq = min n (2 ^ 53) ∧ row.id = stamp.auditId ∧ row.timestamp = stamp.timestamp ∧
      mapRow row = (entry.base stamp (.counted n) prevHash).sealed sha256 := by
  simp only [rowOf, BareAuditEntry.sealed, AuditInput.base, JsDouble.toInt?_counted,
    JsDouble.toInt?_ofInt stamp.timestamp_lt, Option.bind_eq_bind, Option.bind_some, Option.pure_def,
    Option.some.injEq] at h
  subst h
  refine ⟨by push_cast; rfl, rfl, rfl, ?_⟩
  have hcounted : JsDouble.ofInt ((min n (2 ^ 53) : ℕ) : ℤ) = .counted n := by
    rw [JsDouble.ofInt_natCast (Nat.min_le_right n _)]
    refine Subtype.ext ?_
    show JsNumber.fin _ = JsNumber.fin _
    rw [Nat.min_assoc, Nat.min_self]
  unfold mapRow BareAuditEntry.sealed AuditInput.base
  rw [hcounted]

/-- The entries of the table, in the order of their insertion. -/
def entriesOf (t : AuditTable) : List AuditEntry :=
  t.rows.map mapRow

/-- The table holds one untouched chain, numbered exactly. -/
structure Contiguous (sha256 : Bytes → JsString) (t : AuditTable) : Prop where
  numbered : Chain.Numbered AuditRow.seq t.rows
  recorded : Recorded sha256 (entriesOf t)
  inRange : t.rows.length ≤ 2 ^ 53

theorem contiguous_empty : Contiguous sha256 (Table.empty auditSchema) where
  numbered := Chain.numbered_nil _
  recorded := recorded_nil sha256
  inRange := Nat.zero_le _

theorem Contiguous.orderBy {t : AuditTable} (h : Contiguous sha256 t) :
    orderBy AuditRow.seq t.rows = t.rows :=
  orderBy_of_pairwise h.numbered.pairwise_le

theorem tipHash_entriesOf (t : AuditTable) :
    tipHash (entriesOf t) = t.rows.getLast?.elim genesisHash AuditRow.chainHash := by
  unfold tipHash entriesOf
  rw [List.getLast?_map]
  cases t.rows.getLast? <;> rfl

/-- What a writer appends behind the head it has read. -/
theorem Contiguous.full {t : AuditTable} (h : Contiguous sha256 t) (call : WriteCall) :
    call.full sha256 (latestRow t) =
      (call.entry.base call.stamp (.counted (t.rows.length + 1)) (tipHash (entriesOf t))).sealed
        sha256 := by
  have hseq : (t.rows.getLast?.elim (JsDouble.counted 0) fun r => JsDouble.ofInt r.seq) =
      .counted t.rows.length := by
    cases hlast : t.rows.getLast? with
    | none => rw [List.getLast?_eq_none_iff.mp hlast]; rfl
    | some r =>
        show JsDouble.ofInt r.seq = _
        rw [h.numbered.getLast hlast, JsDouble.ofInt_natCast h.inRange]
  unfold WriteCall.full latestRow
  rw [h.orderBy]
  show ((call.entry.base call.stamp (t.rows.getLast?.elim (JsDouble.counted 0) fun r =>
    JsDouble.ofInt r.seq).incr _).sealed sha256) = _
  rw [hseq, JsDouble.incr_counted, tipHash_entriesOf]

/-! ## Appending -/

/-- What a writer appends that has read the head of the first `n` rows. -/
def staleFull (sha256 : Bytes → JsString) (call : WriteCall) (t : AuditTable) (n : ℕ) :
    AuditEntry :=
  (call.entry.base call.stamp (.counted (n + 1)) (tipHash ((entriesOf t).take n))).sealed sha256

/-- **A stale append collides**: an insertion succeeds only behind the head that its writer has
    read, and then the table is still one chain. -/
theorem Contiguous.insert {t t' : AuditTable} (h : Contiguous sha256 t) {call : WriteCall} {n : ℕ}
    (hn : n ≤ t.rows.length) {row : AuditRow}
    (hrow : rowOf (staleFull sha256 call t n) = some row) (hinsert : t.insert row = .ok t') :
    Contiguous sha256 t' ∧ mapRow row = staleFull sha256 call t n := by
  obtain ⟨hseq, -, -, hmap⟩ := rowOf_base hrow
  have hrows := Table.insert_eq_ok.mp hinsert
  have hdistinct : ∀ x ∈ t.rows, x.seq ≠ row.seq := by
    intro x hx heq
    have hpairwise := t'.pairwise
    rw [hrows, List.pairwise_append] at hpairwise
    have hclash := hpairwise.2.2 x hx row List.mem_cons_self
    have hfalse : (x.seq == row.seq) = false := (Bool.or_eq_false_iff.mp hclash).2
    exact (beq_eq_false_iff_ne.mp hfalse) heq
  -- every number up to the length of the table is taken
  have hfresh : t.rows.length < min (n + 1) (2 ^ 53) := by
    by_contra hle
    have hi : min (n + 1) (2 ^ 53) - 1 < t.rows.length := by omega
    refine hdistinct _ (List.getElem_mem hi) ?_
    rw [h.numbered _ hi, hseq]
    omega
  obtain rfl : n = t.rows.length := by omega
  have htake : (entriesOf t).take t.rows.length = entriesOf t :=
    List.take_of_length_le (by rw [entriesOf, List.length_map])
  have hentries : entriesOf t' = entriesOf t ++ [mapRow row] := by
    rw [entriesOf, hrows, List.map_append, List.map_singleton]
    rfl
  refine ⟨⟨?_, ?_, ?_⟩, hmap⟩
  · rw [hrows, Chain.numbered_append_singleton]
    exact ⟨h.numbered, by rw [hseq]; omega⟩
  · rw [hentries, hmap]
    refine h.recorded.concat ?_ ?_ rfl
    · show JsDouble.counted _ = _
      rw [entriesOf, List.length_map]
    · show tipHash _ = _
      rw [htake]
  · rw [hrows, List.length_append, List.length_singleton]
    omega

/-! ## Every run -/

namespace Writers

variable {ι : Type} [DecidableEq ι]

/-- What holds of the writers at every moment: the table is one chain, each pending insertion was
    made for some earlier length of it, and its rows are those that the returned calls added. -/
structure Inv (sha256 : Bytes → JsString) (s : Writers ι) : Prop where
  table : Contiguous sha256 s.table
  rows : s.table.rows = s.added.map Prod.snd
  pending : ∀ i call attempt params, s.calls i = some (call, .inserting attempt params) →
    ∃ n ≤ s.table.rows.length, params = staleFull sha256 call s.table n
  unfinished : ∀ i, (∀ call, s.calls i ≠ some (call, .returned)) → s.addedBy i = []
  returned : ∀ i call, s.calls i = some (call, .returned) →
    ∃ row seq prevHash, s.addedBy i = [row] ∧
      mapRow row = (call.entry.base call.stamp seq prevHash).sealed sha256

variable {s : Writers ι} {i : ι}

theorem inv_init (h : (system sha256 ι).init s) : Inv sha256 s := by
  obtain ⟨htable, hcalls, hadded⟩ := h
  constructor
  · rw [htable]
    exact contiguous_empty
  · rw [htable, hadded]
    rfl
  · intro i call attempt params hi
    rw [hcalls] at hi
    cases hi
  · intro i _
    rw [addedBy, hadded]
    rfl
  · intro i call hi
    rw [hcalls] at hi
    cases hi

/-- A step of a call that neither writes nor returns. -/
theorem Inv.setCall (h : Inv sha256 s) {call : WriteCall} {phase : Phase}
    (hbefore : ∀ call, s.calls i ≠ some (call, .returned)) (hafter : phase ≠ .returned)
    (hpending : ∀ attempt params, phase = .inserting attempt params →
      ∃ n ≤ s.table.rows.length, params = staleFull sha256 call s.table n) :
    Inv sha256 (s.setCall i call phase) where
  table := h.table
  rows := h.rows
  pending j call' attempt params hj := by
    by_cases hji : j = i
    · subst hji
      rw [calls_setCall_self, Option.some.injEq, Prod.mk.injEq] at hj
      obtain ⟨rfl, rfl⟩ := hj
      exact hpending attempt params rfl
    · rw [calls_setCall_of_ne hji] at hj
      exact h.pending j call' attempt params hj
  unfinished j hj := by
    by_cases hji : j = i
    · subst hji
      exact h.unfinished j hbefore
    · refine h.unfinished j fun call' hcall => hj call' ?_
      rwa [calls_setCall_of_ne hji]
  returned j call' hj := by
    by_cases hji : j = i
    · subst hji
      rw [calls_setCall_self, Option.some.injEq, Prod.mk.injEq] at hj
      exact absurd hj.2 hafter
    · rw [calls_setCall_of_ne hji] at hj
      exact h.returned j call' hj

theorem loop_ne_returned (call : WriteCall) (attempt : ℕ) : call.loop attempt ≠ .returned := by
  unfold WriteCall.loop
  split <;> exact nofun

theorem loop_ne_inserting (call : WriteCall) (attempt k : ℕ) (params : AuditEntry) :
    call.loop attempt ≠ .inserting k params := by
  unfold WriteCall.loop
  split <;> exact nofun

omit [DecidableEq ι] in
/-- A call that is still going has not returned. -/
theorem ne_returned {call : WriteCall} {phase : Phase} (hi : s.calls i = some (call, phase))
    (hphase : phase ≠ .returned) (call' : WriteCall) : s.calls i ≠ some (call', .returned) := by
  rw [hi]
  intro heq
  exact hphase (Prod.mk.inj (Option.some.inj heq)).2

/-- The step of a call that appends a row. -/
theorem Inv.insert (h : Inv sha256 s) {call : WriteCall} {attempt : ℕ} {params : AuditEntry}
    {row : AuditRow} {table : AuditTable}
    (hi : s.calls i = some (call, .inserting attempt params)) (hrow : rowOf params = some row)
    (hinsert : s.table.insert row = .ok table) :
    Inv sha256 { s.setCall i call .returned with table := table, added := s.added ++ [(i, row)] } := by
  obtain ⟨n, hn, rfl⟩ := h.pending i call attempt params hi
  obtain ⟨htable, hmap⟩ := h.table.insert hn hrow hinsert
  have hrows := Table.insert_eq_ok.mp hinsert
  have hown : ∀ j, ((s.added ++ [(i, row)]).filter fun a => a.1 = j).map Prod.snd =
      s.addedBy j ++ if i = j then [row] else [] := by
    intro j
    rw [List.filter_append, List.map_append, addedBy]
    by_cases hij : i = j <;> simp [hij]
  constructor
  · exact htable
  · show table.rows = (s.added ++ [(i, row)]).map Prod.snd
    rw [hrows, h.rows, List.map_append, List.map_singleton]
  · intro j call' attempt' params' hj
    by_cases hji : j = i
    · subst hji
      simp only [calls_setCall_self, Option.some.injEq, Prod.mk.injEq, reduceCtorEq,
        and_false] at hj
    · rw [calls_setCall_of_ne hji] at hj
      obtain ⟨m, hm, rfl⟩ := h.pending j call' attempt' params' hj
      show ∃ n ≤ table.rows.length, _ = staleFull sha256 call' table n
      -- the rows that the other call has read are still the first ones
      refine ⟨m, by rw [hrows, List.length_append]; omega, ?_⟩
      unfold staleFull entriesOf
      rw [hrows, List.map_append, List.take_append_of_le_length (by rwa [List.length_map])]
  · intro j hj
    have hji : j ≠ i := by
      rintro rfl
      exact hj call (calls_setCall_self s j call _)
    show ((s.added ++ [(i, row)]).filter _).map Prod.snd = []
    rw [hown, if_neg (Ne.symm hji), List.append_nil]
    refine h.unfinished j fun call' hcall => hj call' ?_
    rwa [calls_setCall_of_ne hji]
  · intro j call' hj
    show ∃ row' seq prevHash,
      ((s.added ++ [(i, row)]).filter _).map Prod.snd = [row'] ∧ _
    by_cases hji : j = i
    · subst hji
      obtain rfl : call = call' := by
        simpa only [calls_setCall_self, Option.some.injEq, Prod.mk.injEq, and_true] using hj
      refine ⟨row, _, _, ?_, hmap⟩
      rw [hown, if_pos rfl, h.unfinished j (ne_returned hi nofun), List.nil_append]
    · rw [calls_setCall_of_ne hji] at hj
      obtain ⟨row', seq, prevHash, hadded, hcarries⟩ := h.returned j call' hj
      refine ⟨row', seq, prevHash, ?_, hcarries⟩
      rw [hown, if_neg (Ne.symm hji), List.append_nil, hadded]

/-- Every step keeps the invariant. -/
theorem Inv.step {s' : Writers ι} (h : Inv sha256 s) (hstep : Step sha256 s s') : Inv sha256 s' := by
  cases hstep with
  | start i call hi =>
      refine h.setCall (fun call' => ?_) (loop_ne_returned call 0) fun attempt params heq => ?_
      · rw [hi]
        exact nofun
      · exact absurd heq (loop_ne_inserting call 0 attempt params)
  | read i call attempt hi =>
      show Inv sha256 (s.setCall i call (.inserting attempt (call.full sha256 (latestRow s.table))))
      refine h.setCall (ne_returned hi nofun) nofun fun attempt' params heq => ?_
      obtain ⟨rfl, rfl⟩ := Phase.inserting.inj heq
      refine ⟨s.table.rows.length, Nat.le_refl _, ?_⟩
      rw [h.table.full, staleFull, List.take_of_length_le]
      rw [entriesOf, List.length_map]
  | readFails i call attempt err hi =>
      show Inv sha256 (s.setCall i call (.thrown (.pool err)))
      exact h.setCall (ne_returned hi nofun) nofun fun _ _ heq => nomatch heq
  | insert i call attempt params row table hi hrow hinsert =>
      exact h.insert hi hrow hinsert
  | conflict i call attempt params row x hi hrow hx hclash =>
      show Inv sha256 (s.setCall i call (call.loop (attempt + 1)))
      refine h.setCall (ne_returned hi nofun) (loop_ne_returned call _) fun attempt' params' heq => ?_
      exact absurd heq (loop_ne_inserting call _ attempt' params')
  | insertFails i call attempt params message hi =>
      show Inv sha256 (s.setCall i call (.thrown (.pool (.other message))))
      exact h.setCall (ne_returned hi nofun) nofun fun _ _ heq => nomatch heq

theorem inv_reachable (h : Transition.Reachable (system sha256 ι) s) : Inv sha256 s :=
  h.invariant (fun _ => inv_init) fun _ _ _ => Inv.step

end Writers

theorem Contiguous.verifyChain {t : AuditTable} (h : Contiguous sha256 t) (head : Option ChainHead) :
    PgAuditLog.verifyChain sha256 t head = verifyEntries sha256 (entriesOf t) head := by
  rw [PgAuditLog.verifyChain, h.orderBy, entriesOf]

/-- **Any number of writers keep one chain**: in every state that their statements can reach, in any
    order, the table is numbered from one, linked from the genesis hash and accepted by the
    verifier; a call that has returned added one row, which carries its input, and a call that has
    thrown added none. -/
theorem Writers.one_chain {ι : Type} [DecidableEq ι] {s : Writers ι}
    (h : Transition.Reachable (system sha256 ι) s) :
    Chain.Numbered AuditRow.seq s.table.rows ∧
      Recorded sha256 (entriesOf s.table) ∧
      (PgAuditLog.verifyChain sha256 s.table none).valid = true ∧
      s.table.rows = s.added.map Prod.snd ∧
      (∀ i call, s.calls i = some (call, .returned) →
        ∃ row seq prevHash, s.addedBy i = [row] ∧
          mapRow row = (call.entry.base call.stamp seq prevHash).sealed sha256) ∧
      ∀ i call err, s.calls i = some (call, .thrown err) → s.addedBy i = [] := by
  have hinv := inv_reachable h
  refine ⟨hinv.table.numbered, hinv.table.recorded, ?_, hinv.rows, hinv.returned, ?_⟩
  · rw [hinv.table.verifyChain, verifyEntries_valid]
    exact ⟨hinv.table.recorded.verifyLinks_drop 0, fun _ h => nomatch h⟩
  · intro i call err hi
    exact hinv.unfinished i (ne_returned hi nofun)

/-- Every row of the table was made by a call. -/
theorem Writers.made {ι : Type} [DecidableEq ι] {s : Writers ι}
    (h : Transition.Reachable (system sha256 ι) s) {row : AuditRow} (hrow : row ∈ s.table.rows) :
    ∃ call : WriteCall, ∃ seq prevHash,
      mapRow row = (call.entry.base call.stamp seq prevHash).sealed sha256 := by
  have hinv := inv_reachable h
  rw [hinv.rows] at hrow
  obtain ⟨⟨i, row⟩, hadded, rfl⟩ := List.mem_map.mp hrow
  have hown : row ∈ s.addedBy i :=
    List.mem_map.mpr ⟨(i, row), List.mem_filter.mpr ⟨hadded, decide_eq_true rfl⟩, rfl⟩
  have hreturned : ∃ call, s.calls i = some (call, .returned) := by
    by_contra hnot
    rw [hinv.unfinished i fun call hi => hnot ⟨call, hi⟩] at hown
    cases hown
  obtain ⟨call, hi⟩ := hreturned
  obtain ⟨row', seq, prevHash, hrows, hmap⟩ := hinv.returned i call hi
  rw [hrows, List.mem_singleton] at hown
  exact ⟨call, seq, prevHash, hown ▸ hmap⟩

/-- Rows are never lost: those of an earlier moment are the first ones of a later. -/
theorem Writers.rows_prefix {ι : Type} [DecidableEq ι] {s t : Writers ι}
    (h : Transition.Run (system sha256 ι) s t) : s.table.rows <+: t.table.rows := by
  induction h with
  | refl => exact List.prefix_refl _
  | tail _ hstep ih =>
      refine ih.trans ?_
      cases hstep with
      | insert i call attempt params row table hi hrow hinsert =>
          exact ⟨[row], (Table.insert_eq_ok.mp hinsert).symm⟩
      | start => exact List.prefix_refl _
      | read => exact List.prefix_refl _
      | readFails => exact List.prefix_refl _
      | conflict => exact List.prefix_refl _
      | insertFails => exact List.prefix_refl _

/-- The head that the log answers is the head of its entries. -/
theorem Contiguous.head {t second : AuditTable} (h : Contiguous sha256 t) {anchor : ChainHead}
    (hhead : PgAuditLog.head t second = .ok anchor) :
    anchor.seq = .counted t.rows.length ∧ anchor.chainHash = tipHash (entriesOf t) := by
  unfold PgAuditLog.head latestRow at hhead
  split at hhead
  · rw [h.orderBy] at hhead
    rw [tipHash_entriesOf]
    cases hlast : t.rows.getLast? with
    | none =>
        rw [hlast] at hhead
        rw [List.getLast?_eq_none_iff.mp hlast, ← Except.ok.inj hhead]
        exact ⟨rfl, rfl⟩
    | some row =>
        rw [hlast] at hhead
        rw [← Except.ok.inj hhead]
        refine ⟨?_, rfl⟩
        show JsDouble.ofInt row.seq = _
        rw [h.numbered.getLast hlast, JsDouble.ofInt_natCast h.inRange]
  · cases hhead

/-- In one chain a row is determined by its entry. -/
theorem Contiguous.eq_of_mapRow {t : AuditTable} (h : Contiguous sha256 t) {a b : AuditRow}
    (ha : a ∈ t.rows) (hb : b ∈ t.rows) (hab : mapRow a = mapRow b) : a = b := by
  refine h.numbered.eq_of_num ha hb ?_
  obtain ⟨i, hi, rfl⟩ := List.getElem_of_mem ha
  obtain ⟨j, hj, rfl⟩ := List.getElem_of_mem hb
  have hseq : JsDouble.ofInt t.rows[i].seq = .ofInt t.rows[j].seq :=
    congrArg (fun e : AuditEntry => e.seq) hab
  have hbound := h.inRange
  rw [h.numbered i hi, h.numbered j hj] at hseq ⊢
  rw [← Nat.cast_succ, ← Nat.cast_succ, JsDouble.ofInt_natCast (by omega),
    JsDouble.ofInt_natCast (by omega), JsDouble.counted_inj (by omega) (by omega)] at hseq
  omega

/-- Rows that were some of the table's are an end of it if their entries are. -/
theorem Contiguous.suffix_iff {t : AuditTable} (h : Contiguous sha256 t) {kept : List AuditRow}
    (hsub : kept.Sublist t.rows) : kept.map mapRow <:+ entriesOf t ↔ kept <:+ t.rows := by
  constructor
  · rintro ⟨pre, hpre⟩
    have hlength := congrArg List.length hpre
    rw [List.length_append, List.length_map, entriesOf, List.length_map] at hlength
    refine ⟨t.rows.take pre.length, ?_⟩
    suffices hdrop : kept = t.rows.drop pre.length by rw [hdrop, List.take_append_drop]
    refine List.ext_getElem (by rw [List.length_drop]; omega) fun i hi hi' => ?_
    rw [List.getElem_drop]
    refine h.eq_of_mapRow (hsub.subset (List.getElem_mem hi)) (List.getElem_mem _) ?_
    have hget : (entriesOf t)[pre.length + i]? = some (mapRow kept[i]) := by
      rw [← hpre, List.getElem?_append_right (by omega), Nat.add_sub_cancel_left, List.getElem?_map,
        List.getElem?_eq_getElem hi]
      rfl
    rw [entriesOf, List.getElem?_map, List.getElem?_eq_getElem (by omega)] at hget
    exact (Option.some.inj hget).symm
  · exact fun hsuffix => hsuffix.map mapRow

/-! ## A race -/

/-- A writer whose head is still the head appends, if no row has its `id`. -/
theorem Contiguous.exists_insert {t : AuditTable} (h : Contiguous sha256 t)
    (hroom : t.rows.length < 2 ^ 53) {call : WriteCall}
    (hid : ∀ x ∈ t.rows, x.id ≠ call.stamp.auditId) :
    ∃ row t', rowOf (call.full sha256 (latestRow t)) = some row ∧ t.insert row = .ok t' := by
  rw [h.full call]
  obtain ⟨row, hrow⟩ := exists_rowOf call.entry call.stamp (t.rows.length + 1)
    (tipHash (entriesOf t))
  obtain ⟨hseq, hrowId, htime, -⟩ := rowOf_base hrow
  refine ⟨row, _, hrow, Table.write_of_ok ⟨fun x hx => ?_, ?_⟩⟩
  · rcases List.mem_append.mp hx with hx | hx
    · exact t.check_of_mem hx
    · have hstamp := call.stamp.timestamp_lt
      rw [List.mem_singleton.mp hx]
      show (isBigint row.seq && isBigint row.timestamp) = true
      rw [hseq, htime, isBigint, isBigint]
      simp only [Bool.and_eq_true, decide_eq_true_iff]
      omega
  · refine List.pairwise_append.mpr ⟨t.pairwise, List.pairwise_singleton _ _, fun x hx y hy => ?_⟩
    rw [List.mem_singleton.mp hy]
    obtain ⟨i, hi, rfl⟩ := List.getElem_of_mem hx
    -- the numbers in the table end right before the new one
    have hne : t.rows[i].seq ≠ row.seq := by
      rw [h.numbered i hi, hseq]
      omega
    have hne' : t.rows[i].id ≠ row.id := by
      rw [hrowId]
      exact hid _ (List.getElem_mem hi)
    show (t.rows[i].id == row.id || t.rows[i].seq == row.seq) = false
    rw [beq_eq_false_iff_ne.mpr hne, beq_eq_false_iff_ne.mpr hne']
    rfl

/-- Two calls of which the second inserts behind a head that is no longer the head. -/
theorem race_reachable : ∃ s : Writers Bool,
    Transition.Reachable (Writers.system recordedSha Bool) s ∧ s.table.rows.length = 1 ∧
      s.calls false = some (⟨firstInput, firstStamp, .fin 5⟩, .returned) ∧
      s.calls true = some (⟨secondInput, secondStamp, .fin 1⟩, .thrown .contention) := by
  let first : WriteCall := ⟨firstInput, firstStamp, .fin 5⟩
  let second : WriteCall := ⟨secondInput, secondStamp, .fin 1⟩
  let empty : Writers Bool := ⟨Table.empty auditSchema, fun _ => none, []⟩
  have hfirst : first.loop 0 = .reading 0 := if_pos (by decide +kernel)
  have hsecond : second.loop 0 = .reading 0 := if_pos (by decide +kernel)
  have hover : second.loop 1 = .thrown .contention := if_neg (by decide +kernel)
  -- both calls read the head of the empty table
  have h₁ : Writers.Step recordedSha empty (empty.setCall false first (.reading 0)) := by
    rw [← hfirst]
    exact .start false first rfl
  let s₁ := empty.setCall false first (.reading 0)
  have h₂ : Writers.Step recordedSha s₁ (s₁.setCall true second (.reading 0)) := by
    rw [← hsecond]
    exact .start true second rfl
  let s₂ := s₁.setCall true second (.reading 0)
  let s₃ := s₂.setCall false first
    (.inserting 0 (first.full recordedSha (latestRow (Table.empty auditSchema))))
  have h₃ : Writers.Step recordedSha s₂ s₃ := .read false first 0 rfl
  let s₄ := s₃.setCall true second
    (.inserting 0 (second.full recordedSha (latestRow (Table.empty auditSchema))))
  have h₄ : Writers.Step recordedSha s₃ s₄ := .read true second 0 rfl
  have hempty : Contiguous recordedSha (Table.empty auditSchema) := contiguous_empty
  -- the first of them appends
  obtain ⟨row, table, hrow, hinsert⟩ := @Contiguous.exists_insert _ _ hempty (by decide) first
    fun x hx => absurd hx List.not_mem_nil
  let s₅ : Writers Bool :=
    { s₄.setCall false first .returned with table := table, added := [(false, row)] }
  have h₅ : Writers.Step recordedSha s₄ s₅ := .insert false first 0 _ row table rfl hrow hinsert
  -- and the second finds its number taken
  have hfull := hempty.full second
  obtain ⟨row', hrow'⟩ := @exists_rowOf recordedSha second.entry second.stamp 1 genesisHash
  have hrows : table.rows = [row] := Table.insert_eq_ok.mp hinsert
  have hclash : auditSchema.clash row row' = true := by
    rw [hempty.full first] at hrow
    have hseq : row.seq = row'.seq := by
      rw [(rowOf_base hrow).1, (rowOf_base hrow').1]
      rfl
    show (row.id == row'.id || row.seq == row'.seq) = true
    rw [hseq, beq_self_eq_true, Bool.or_true]
  have h₆ : Writers.Step recordedSha s₅ (s₅.setCall true second (second.loop 1)) :=
    .conflict true second 0 _ row' row rfl (by rw [hfull]; exact hrow')
      (by rw [hrows]; exact List.mem_cons_self) hclash
  have hinit : Transition.Reachable (Writers.system recordedSha Bool) empty :=
    .init ⟨rfl, fun _ => rfl, rfl⟩
  have hreach := (((((hinit.next h₁).next h₂).next h₃).next h₄).next h₅).next h₆
  refine ⟨_, hreach, ?_, rfl, ?_⟩
  · exact congrArg List.length hrows
  · exact congrArg (fun p => some (second, p)) hover

/-- In the race the table holds one row, of the call that has returned. -/
theorem Writers.one_chain_race : ∃ s : Writers Bool,
    (PgAuditLog.verifyChain recordedSha s.table none).valid = true ∧ s.table.rows.length = 1 ∧
      s.addedBy true = [] := by
  obtain ⟨s, hreach, hlength, -, hsecond⟩ := race_reachable
  obtain ⟨-, -, hvalid, -, -, hthrown⟩ := one_chain hreach
  exact ⟨s, hvalid, hlength, hthrown true _ _ hsecond⟩

end Audit
