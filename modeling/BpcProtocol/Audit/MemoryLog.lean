import BpcProtocol.Audit.Chain

set_option autoImplicit false

/-! # The audit log in memory

`MemoryAuditLog`, and what any sequence of writes leaves of it. What was written is remembered
beside the log, since a bounded log drops its oldest entries. -/

namespace Audit

variable (sha256 : Bytes → JsString)

structure MemoryAuditLog where
  entries : List AuditEntry
  maxSize : JsNumber
  seqCounter : JsDouble
  headHash : JsString
  totalWritten : JsDouble

namespace MemoryAuditLog

/-- `new MemoryAuditLog(maxSize)`. -/
def new (maxSize : JsNumber) : MemoryAuditLog where
  entries := []
  maxSize := maxSize
  seqCounter := .counted 0
  headHash := genesisHash
  totalWritten := .counted 0

/-- The entry that `write` makes of its input. -/
def full (log : MemoryAuditLog) (entry : AuditInput) (stamp : Stamp) : AuditEntry :=
  (entry.base stamp log.seqCounter.incr log.headHash).sealed sha256

def write (log : MemoryAuditLog) (entry : AuditInput) (stamp : Stamp) : MemoryAuditLog :=
  let full := log.full sha256 entry stamp
  let entries := log.entries ++ [full]
  { log with
    entries := if log.maxSize.lt (.fin (entries.length : ℚ)) then entries.tail else entries
    seqCounter := log.seqCounter.incr
    headHash := full.chainHash
    totalWritten := log.totalWritten.incr }

def head (log : MemoryAuditLog) : ChainHead where
  seq := log.seqCounter
  chainHash := log.headHash
  count := log.totalWritten

def verifyChain (log : MemoryAuditLog) (expectedHead : Option ChainHead) : VerifyResult :=
  verifyEntries sha256 log.entries expectedHead

/-- A sequence of writes. -/
def writeAll (log : MemoryAuditLog) (writes : List (AuditInput × Stamp)) : MemoryAuditLog :=
  writes.foldl (fun log w => log.write sha256 w.1 w.2) log

/-- The entries that a sequence of writes makes, in order. -/
def written (log : MemoryAuditLog) : List (AuditInput × Stamp) → List AuditEntry
  | [] => []
  | w :: rest => log.full sha256 w.1 w.2 :: (log.write sha256 w.1 w.2).written rest

/-! ## What a sequence of writes leaves -/

/-- The log holds the end of what was written to it. -/
structure Holds (log : MemoryAuditLog) (history : List AuditEntry) : Prop where
  recorded : Recorded sha256 history
  seqCounter : log.seqCounter = .counted history.length
  headHash : log.headHash = tipHash history
  totalWritten : log.totalWritten = .counted history.length
  retained : log.entries <:+ history
  unbounded : log.maxSize = .posInf → log.entries = history

variable {sha256} {log : MemoryAuditLog} {history : List AuditEntry}

theorem holds_new (maxSize : JsNumber) : (new maxSize).Holds sha256 [] where
  recorded := recorded_nil sha256
  seqCounter := rfl
  headHash := rfl
  totalWritten := rfl
  retained := List.suffix_refl _
  unbounded _ := rfl

theorem Holds.write (h : log.Holds sha256 history) (entry : AuditInput) (stamp : Stamp) :
    (log.write sha256 entry stamp).Holds sha256 (history ++ [log.full sha256 entry stamp]) where
  recorded := by
    refine h.recorded.concat ?_ h.headHash rfl
    show log.seqCounter.incr = _
    rw [h.seqCounter, JsDouble.incr_counted]
  seqCounter := by
    show log.seqCounter.incr = _
    rw [h.seqCounter, JsDouble.incr_counted, List.length_append, List.length_singleton]
  headHash := by
    rw [tipHash, List.getLast?_concat]
    rfl
  totalWritten := by
    show log.totalWritten.incr = _
    rw [h.totalWritten, JsDouble.incr_counted, List.length_append, List.length_singleton]
  retained := by
    obtain ⟨pre, hpre⟩ := h.retained
    have hall : log.entries ++ [log.full sha256 entry stamp] <:+
        history ++ [log.full sha256 entry stamp] := ⟨pre, by rw [← hpre, List.append_assoc]⟩
    show (if _ then _ else _) <:+ _
    split
    · exact (List.tail_suffix _).trans hall
    · exact hall
  unbounded hmax := by
    have hnot : log.maxSize.lt (.fin ((log.entries ++ [log.full sha256 entry stamp]).length : ℚ)) =
        false := by
      rw [show log.maxSize = .posInf from hmax]
      rfl
    show (if _ then _ else _) = _
    rw [if_neg (by rw [hnot]; exact Bool.false_ne_true), h.unbounded hmax]

/-- **Any sequence of writes** leaves the end of what it wrote behind what was there. -/
theorem Holds.writeAll (h : log.Holds sha256 history) (writes : List (AuditInput × Stamp)) :
    (log.writeAll sha256 writes).Holds sha256 (history ++ log.written sha256 writes) := by
  induction writes generalizing log history with
  | nil =>
      rw [written, List.append_nil]
      exact h
  | cons w rest ih =>
      have hrest := ih (h.write w.1 w.2)
      rw [List.append_assoc] at hrest
      exact hrest

theorem maxSize_writeAll (log : MemoryAuditLog) (writes : List (AuditInput × Stamp)) :
    (log.writeAll sha256 writes).maxSize = log.maxSize := by
  induction writes generalizing log with
  | nil => rfl
  | cons w rest ih => exact ih (log.write sha256 w.1 w.2)

theorem length_written (log : MemoryAuditLog) (writes : List (AuditInput × Stamp)) :
    (log.written sha256 writes).length = writes.length := by
  induction writes generalizing log with
  | nil => rfl
  | cons w rest ih => rw [written, List.length_cons, List.length_cons, ih]

theorem written_append (log : MemoryAuditLog) (before after : List (AuditInput × Stamp)) :
    log.written sha256 (before ++ after) =
      log.written sha256 before ++ (log.writeAll sha256 before).written sha256 after := by
  induction before generalizing log with
  | nil => rfl
  | cons w rest ih =>
      rw [List.cons_append, written, written, ih, List.cons_append]
      rfl

theorem mem_written {log : MemoryAuditLog} {writes : List (AuditInput × Stamp)} {e : AuditEntry}
    (he : e ∈ log.written sha256 writes) :
    ∃ w ∈ writes, ∃ seq prevHash, e = (w.1.base w.2 seq prevHash).sealed sha256 := by
  induction writes generalizing log with
  | nil => cases he
  | cons w rest ih =>
      rw [written, List.mem_cons] at he
      rcases he with rfl | he
      · exact ⟨w, List.mem_cons_self, _, _, rfl⟩
      · obtain ⟨w', hw', hmade⟩ := ih he
        exact ⟨w', List.mem_cons_of_mem w hw', hmade⟩

/-- The head is the head of what was written. -/
theorem Holds.head_eq (h : log.Holds sha256 history) : log.head = headOf history := by
  rw [head, headOf, h.seqCounter, h.headHash, h.totalWritten]

theorem holds_writeAll_new (maxSize : JsNumber) (writes : List (AuditInput × Stamp)) :
    ((new maxSize).writeAll sha256 writes).Holds sha256
      ((new maxSize).written sha256 writes) := by
  have hnew : (new maxSize).Holds sha256 [] := holds_new maxSize
  have hall := hnew.writeAll writes
  rwa [List.nil_append] at hall

/-- The entries written before an earlier moment are the first of those written by now. -/
theorem take_written (maxSize : JsNumber) (before after : List (AuditInput × Stamp)) :
    ((new maxSize).written sha256 (before ++ after)).take before.length =
      (new maxSize).written sha256 before := by
  rw [written_append, ← @length_written sha256 (new maxSize) before, List.take_left]

/-! ## A log of two entries -/

def sampleWrites : List (AuditInput × Stamp) :=
  [(firstInput, firstStamp), (secondInput, secondStamp)]

theorem written_sampleWrites (maxSize : JsNumber) :
    (new maxSize).written recordedSha sampleWrites = [firstEntry, secondEntry] := by
  have hfirst : (new maxSize).full recordedSha firstInput firstStamp = firstEntry := by
    show (firstInput.base firstStamp (JsDouble.counted 0).incr genesisHash).sealed recordedSha = _
    rw [JsDouble.incr_counted]
    exact congrArg (AuditEntry.mk _) computeChainHash_firstEntry
  have hsecond : ((new maxSize).write recordedSha firstInput firstStamp).full recordedSha secondInput
      secondStamp = secondEntry := by
    show (secondInput.base secondStamp (JsDouble.counted 0).incr.incr
      ((new maxSize).full recordedSha firstInput firstStamp).chainHash).sealed recordedSha = _
    rw [JsDouble.incr_counted, JsDouble.incr_counted, hfirst]
    exact congrArg (AuditEntry.mk _) computeChainHash_secondEntry
  rw [sampleWrites, written, written, written, hfirst, hsecond]

end MemoryAuditLog

end Audit
