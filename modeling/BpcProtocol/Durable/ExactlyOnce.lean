import BpcProtocol.Durable.OutboxHistory
import BpcProtocol.Durable.ReceiverCheckpoint
import BpcProtocol.Lib.Transition

set_option autoImplicit false

/-! # Delivery, exactly once

A source that appends to its outbox, any number of publishers that drain it, a network that loses,
repeats, delays and reorders what they send, and a receiver that applies it. Whatever they do and in
whatever order, the receiver has applied the first rows of the source, each of them once. -/

namespace Durable

open Ha Fallible Relational Transition
open Transaction (Outcome)
open Transport (AckReceipt)

/-! ## The system -/

/-- The parties of one stream: the outbox, the publishers and the receiver. -/
structure Parties (σ : Type) where
  outbox : OutboxOptions
  publisher : ℕ → PublisherOptions
  receiver : ReceiverOptions σ
  publishes : ∀ i, (publisher i).streamId = outbox.streamId
  receives : receiver.streamId = outbox.streamId

/-- The tables of both sides, the drains that were started, the records that were sent and the
    receipts that the receiver has signed. -/
structure DeliveryState (σ : Type) where
  source : PublishedDb
  drains : ℕ → Option Drain
  sent : List OutboxRecord
  receiver : ReceiverSide σ
  signed : List AckReceipt

namespace DeliveryState

variable {σ : Type} (st : DeliveryState σ)

/-- The outbox after a transaction of the source. -/
def withOutbox (outbox : OutboxDb) : DeliveryState σ :=
  { st with source := { st.source with toOutboxDb := outbox } }

/-- A drain after a transaction of its own. -/
def withDrain (i : ℕ) (d : Drain) (source : PublishedDb) : DeliveryState σ :=
  { st with source, drains := Function.update st.drains i (some d) }

end DeliveryState

/-- The record that a drain has read and not done with. -/
def DrainPhase.record : DrainPhase → Option OutboxRecord
  | .delivering record => some record
  | .verifying record _ => some record
  | .acking record => some record
  | .quarantining record _ => some record
  | _ => none

/-- The records that a drain sends: the one it is going to deliver. -/
def DrainPhase.sends : DrainPhase → List OutboxRecord
  | .delivering record => [record]
  | _ => []

/-- What the receiver signs: a receipt that names the record, with the decision. -/
structure Signs (record : OutboxRecord) (decision : ReceiverDecision) (receipt : AckReceipt) :
    Prop where
  names : receipt.Names record
  decision : receipt.decision = decision.text

variable {σ : Type} (c : Crypto) (parties : Parties σ)

/-- One step. A drain that crashes takes no further step; a record that is sent is delivered any
    number of times, at any time; what a drain gets for an answer is up to the network, but only what
    the receiver has signed is verified. -/
inductive DeliveryStep : DeliveryState σ → DeliveryState σ → Prop
  /-- A transaction of `withOutboxTx`. -/
  | append {st : DeliveryState σ} (inputs : List (AppendInput × Bool)) {r : Except HaError Unit}
      {outbox : OutboxDb} :
      Outcome (appendEach c parties.outbox inputs) st.source.toOutboxDb r outbox →
      DeliveryStep st (st.withOutbox outbox)
  /-- `PgPromotionFence.acquire` at the source. -/
  | acquireSource {st : DeliveryState σ} (streamId : JsString) {r : Except HaError ℕ}
      {fence : Table fenceSchema} :
      Outcome (acquireFence streamId) st.source.fence r fence →
      DeliveryStep st (st.withOutbox { st.source.toOutboxDb with fence })
  /-- `PgPromotionFence.acquire` at the receiver. -/
  | acquireReceiver {st : DeliveryState σ} (streamId : JsString) {r : Except HaError ℕ}
      {fence : Table fenceSchema} :
      Outcome (acquireFence streamId) st.receiver.fence r fence →
      DeliveryStep st { st with receiver := { st.receiver with fence } }
  | start {st : DeliveryState σ} (i : ℕ) (leaseToken : JsString) : st.drains i = none →
      DeliveryStep st (st.withDrain i (.start leaseToken) st.source)
  | acquire {st : DeliveryState σ} {i : ℕ} {d : Drain} (now : ℤ) {r : Except HaError Bool}
      {source : PublishedDb} :
      st.drains i = some d → d.phase = .acquiring →
      Outcome (acquireLease (parties.publisher i) d.leaseToken now) st.source r source →
      DeliveryStep st (st.withDrain i (d.acquired r) source)
  /-- The row is read, and its record is sent. -/
  | read {st : DeliveryState σ} {i : ℕ} {d : Drain} {r : Except HaError (Option OutboxEntry)}
      {source : PublishedDb} :
      st.drains i = some d → d.phase = .reading →
      Outcome (nextDeliverable (parties.publisher i) d.leaseToken) st.source r source →
      DeliveryStep st
        { st.withDrain i (d.read c (parties.publisher i) r) source with
          sent := (d.read c (parties.publisher i) r).phase.sends ++ st.sent }
  /-- The receiver signs only what its transaction has committed. -/
  | deliver {st : DeliveryState σ} {record : OutboxRecord} {r : Except HaError ReceiverDecision}
      {receiver : ReceiverSide σ} (receipts : List AckReceipt) :
      record ∈ st.sent → Delivery c parties.receiver record st.receiver r receiver →
      (∀ receipt ∈ receipts, ∃ decision, r = .ok decision ∧ Signs record decision receipt) →
      DeliveryStep st { st with receiver, signed := receipts ++ st.signed }
  | answer {st : DeliveryState σ} {i : ℕ} {d : Drain} {record : OutboxRecord}
      (delivered : Delivered) :
      st.drains i = some d → d.phase = .delivering record →
      DeliveryStep st (st.withDrain i (d.delivered record delivered) st.source)
  | verify {st : DeliveryState σ} {i : ℕ} {d : Drain} {record : OutboxRecord}
      {receipt : AckReceipt} (accepted : Bool) :
      st.drains i = some d → d.phase = .verifying record receipt →
      (accepted = true → receipt ∈ st.signed) →
      DeliveryStep st
        (st.withDrain i (d.verified (parties.publisher i) record receipt accepted) st.source)
  | acknowledge {st : DeliveryState σ} {i : ℕ} {d : Drain} {record : OutboxRecord}
      {r : Except HaError Unit} {source : PublishedDb} :
      st.drains i = some d → d.phase = .acking record →
      Outcome (Durable.acknowledge (parties.publisher i) d.leaseToken record) st.source r source →
      DeliveryStep st (st.withDrain i (d.acknowledged r) source)
  | quarantine {st : DeliveryState σ} {i : ℕ} {d : Drain} {record : OutboxRecord}
      {decision : JsString} {r : Except HaError Unit} {source : PublishedDb} :
      st.drains i = some d → d.phase = .quarantining record decision →
      Outcome (quarantineRecord (parties.publisher i) d.leaseToken record decision) st.source r
        source →
      DeliveryStep st (st.withDrain i (d.parked r) source)
  | release {st : DeliveryState σ} {i : ℕ} {d : Drain} {outcome : Except DrainError Unit}
      {r : Except HaError Unit} {source : PublishedDb} :
      st.drains i = some d → d.phase = .releasing outcome →
      Outcome (releaseLease (parties.publisher i) d.leaseToken) st.source r source →
      DeliveryStep st (st.withDrain i (d.released outcome r) source)

/-- Both sides are provisioned with one epoch, and nothing has happened yet. -/
structure Provisioned (sourceEpoch : JsString) (data : σ) (st : DeliveryState σ) : Prop where
  rows : st.source.rowsOf parties.outbox.streamId = []
  source : st.source.checkpointOf parties.outbox.streamId =
    some ⟨parties.outbox.streamId, sourceEpoch, 0⟩
  applied : st.receiver.historyOf parties.outbox.streamId = []
  receiver : st.receiver.checkpointOf parties.outbox.streamId =
    some ⟨parties.outbox.streamId, sourceEpoch, 0⟩
  data : st.receiver.data = data
  drains : ∀ i, st.drains i = none
  sent : st.sent = []
  signed : st.signed = []

/-- The system of one stream. -/
def deliverySystem (sourceEpoch : JsString) (data : σ) : System (DeliveryState σ) where
  init := Provisioned parties sourceEpoch data
  next := DeliveryStep c parties

/-! ## The invariant -/

/-- What the receiver keeps of a row that it has applied. -/
def appliedRow (r : OutboxRow) : AppliedRow :=
  ⟨r.streamId, r.sourceEpoch, r.sequence, r.opDigest⟩

/-- A record that a drain may have read: of a row before which every row is acknowledged. -/
def Offered (rows : List OutboxEntry) (record : OutboxRecord) : Prop :=
  ∃ r ∈ rows, record = published r.toOutboxRow ∧ IJson r.mutation ∧
    ∀ lower ∈ rows, lower.sequence < r.sequence → lower.acked = true

/-- The receiver has applied a record with this header. -/
def Owns (receiver : ReceiverSide σ) (record : OutboxRecord) : Prop :=
  ⟨record.streamId, record.sourceEpoch, record.sequence, record.opDigest⟩ ∈ receiver.applied.rows

/-- What holds of a drain: its record was offered, and one that it acknowledges is applied. -/
structure DrainSound (rows : List OutboxEntry) (receiver : ReceiverSide σ) (d : Drain) : Prop where
  offered : ∀ record, d.phase.record = some record → Offered rows record
  owned : ∀ record, d.phase = .acking record → Owns receiver record

/-- The receiver has applied `done`, the first of the rows. -/
structure ReceiverSound (sourceEpoch : JsString) (data : σ) (rows : List OutboxRow)
    (receiver : ReceiverSide σ) (done : List OutboxRow) : Prop where
  inOrder : done <+: rows
  history : receiver.historyOf parties.outbox.streamId = done.map appliedRow
  checkpoint : receiver.checkpointOf parties.outbox.streamId =
    some ⟨parties.outbox.streamId, sourceEpoch, done.length⟩
  data : done.foldlM (fun data row => parties.receiver.applyInTx data (published row)) data =
    .ok receiver.data

/-- What holds of both sides and of what is on its way between them. -/
structure DeliverySound (sourceEpoch : JsString) (data : σ) (st : DeliveryState σ) : Prop where
  source : OutboxSound c parties.outbox sourceEpoch st.source.toOutboxDb
  receiver : ∃ done, ReceiverSound parties sourceEpoch data
    ((st.source.rowsOf parties.outbox.streamId).map (·.toOutboxRow)) st.receiver done
  sent : ∀ record ∈ st.sent, Offered (st.source.rowsOf parties.outbox.streamId) record
  drains : ∀ i d, st.drains i = some d →
    DrainSound (st.source.rowsOf parties.outbox.streamId) st.receiver d
  signed : ∀ receipt ∈ st.signed, ∃ record, receipt.Names record ∧
    ∀ decision ∈ ReceiverDecision.ackDecisions, receipt.decision = decision.text →
      Owns st.receiver record
  acked : ∀ r ∈ st.source.rowsOf parties.outbox.streamId, r.acked = true →
    Owns st.receiver (published r.toOutboxRow)

/-! ### What a change of the source keeps -/

section Source

variable {c parties} {sourceEpoch : JsString} {data : σ} {st : DeliveryState σ}

theorem Offered.grows {opts : OutboxOptions} {db db' : OutboxDb} {record : OutboxRecord}
    (h : Offered (db.rowsOf opts.streamId) record) (hsound : OutboxSound c opts sourceEpoch db)
    (hsound' : OutboxSound c opts sourceEpoch db')
    (hgrows : Grows (db.rowsOf opts.streamId) (db'.rowsOf opts.streamId)) :
    Offered (db'.rowsOf opts.streamId) record := by
  obtain ⟨r, hr, rfl, hijson, hlower⟩ := h
  obtain ⟨r', hr', hsame, -⟩ := hgrows.acked r hr
  refine ⟨r', hr', by rw [hsame], by rwa [hsame], fun lower hin hlt => ?_⟩
  -- a lower row is among the rows that were there
  rw [hsame] at hlt
  have hbound := (hsound.sequence_mem hr).2
  obtain ⟨old, hold, hseq⟩ :=
    hsound.exists_of_sequence (hsound'.sequence_mem hin).1 (by omega)
  obtain ⟨kept, hkept, hsameOld, hacked⟩ := hgrows.acked old hold
  have hequal : kept = lower := hsound'.eq_of_sequence hkept hin (by rw [hsameOld, hseq])
  rw [← hequal]
  exact hacked (hlower old hold (by omega))

/-- The source may change in any way that keeps its rows and acknowledges what the receiver has. -/
theorem DeliverySound.withSource (h : DeliverySound c parties sourceEpoch data st)
    {source : PublishedDb} (hsound : OutboxSound c parties.outbox sourceEpoch source.toOutboxDb)
    (hgrows : Grows (st.source.rowsOf parties.outbox.streamId)
      (source.rowsOf parties.outbox.streamId))
    (hacked : ∀ r ∈ source.rowsOf parties.outbox.streamId, r.acked = true →
      Owns st.receiver (published r.toOutboxRow)) :
    DeliverySound c parties sourceEpoch data { st with source } where
  source := hsound
  receiver := by
    obtain ⟨done, hdone⟩ := h.receiver
    exact ⟨done,
      { inOrder := hdone.inOrder.trans hgrows.kept
        history := hdone.history
        checkpoint := hdone.checkpoint
        data := hdone.data }⟩
  sent record hrecord := (h.sent record hrecord).grows h.source hsound hgrows
  drains i d hd :=
    { offered := fun record hrecord =>
        ((h.drains i d hd).offered record hrecord).grows h.source hsound hgrows
      owned := (h.drains i d hd).owned }
  signed := h.signed
  acked := hacked

/-- What is acknowledged as before is applied as before. -/
theorem DeliverySound.acked_of_before (h : DeliverySound c parties sourceEpoch data st)
    {rows : List OutboxEntry}
    (hbefore : AckedBefore (st.source.rowsOf parties.outbox.streamId) rows) :
    ∀ r ∈ rows, r.acked = true → Owns st.receiver (published r.toOutboxRow) := by
  intro r hr hacked
  obtain ⟨old, hold, hsame, hackedOld⟩ := hbefore r hr hacked
  rw [← hsame]
  exact h.acked old hold hackedOld

/-- A drain may go on to anything that is sound. -/
theorem DeliverySound.withDrain (h : DeliverySound c parties sourceEpoch data st) (i : ℕ)
    {d : Drain} (hd : DrainSound (st.source.rowsOf parties.outbox.streamId) st.receiver d) :
    DeliverySound c parties sourceEpoch data (st.withDrain i d st.source) :=
  { h with
    drains := fun j d' hj => by
      have hupdate : Function.update st.drains i (some d) j = some d' := hj
      by_cases hij : j = i
      · subst hij
        rw [Function.update_self] at hupdate
        cases hupdate
        exact hd
      · rw [Function.update_of_ne hij] at hupdate
        exact h.drains j d' hupdate }

end Source

/-! ### What a drain goes on to -/

section Drains

variable (opts : PublisherOptions) {rows : List OutboxEntry} {receiver : ReceiverSide σ} {d : Drain}
  {record : OutboxRecord}

theorem drainSound_of_none (h : d.phase.record = none) : DrainSound rows receiver d where
  offered record hrecord := by
    rw [h] at hrecord
    cases hrecord
  owned record hacking := by
    rw [hacking] at h
    cases h

/-- A drain that holds a record and does not acknowledge it. -/
theorem drainSound_of_offered (hphase : d.phase.record = some record)
    (hnot : ∀ record, d.phase ≠ .acking record) (h : Offered rows record) :
    DrainSound rows receiver d where
  offered record' hrecord := by
    rw [hphase] at hrecord
    cases hrecord
    exact h
  owned record' hacking := absurd hacking (hnot record')

theorem record_acquired (d : Drain) (r : Except HaError Bool) : (d.acquired r).phase.record = none := by
  rcases r with e | held
  · rfl
  · cases held <;> rfl

theorem record_released (d : Drain) (outcome : Except DrainError Unit) (r : Except HaError Unit) :
    (d.released outcome r).phase.record = none := by
  cases r <;> rfl

theorem record_acknowledged (d : Drain) (r : Except HaError Unit) :
    (d.acknowledged r).phase.record = none := by
  cases r <;> rfl

theorem record_parked (d : Drain) (r : Except HaError Unit) : (d.parked r).phase.record = none := by
  cases r <;> rfl

/-- A drain that has read a row delivers its record, or it is done. -/
theorem phase_read (d : Drain) (r : Except HaError (Option OutboxEntry)) :
    (d.read c opts r).phase.record = none ∧ (d.read c opts r).phase.sends = [] ∨
      ∃ row record, r = .ok (some row) ∧ deliverable c opts row = .ok record ∧
        (d.read c opts r).phase = .delivering record := by
  rcases r with e | _ | row
  · exact .inl ⟨rfl, rfl⟩
  · exact .inl ⟨rfl, rfl⟩
  · cases hrecord : deliverable c opts row with
    | error e =>
        refine .inl ?_
        unfold Drain.read
        simp only [hrecord]
        exact ⟨rfl, rfl⟩
    | ok record =>
        refine .inr ⟨row, record, rfl, hrecord, ?_⟩
        unfold Drain.read
        simp only [hrecord]

theorem phase_delivered (d : Drain) (record : OutboxRecord) (delivered : Delivered) :
    (d.delivered record delivered).phase.record = none ∨
      (d.delivered record delivered).phase.record = some record ∧
        ∀ record', (d.delivered record delivered).phase ≠ .acking record' := by
  cases delivered with
  | receipt receipt =>
      cases hreceipt : snapshotAckReceipt receipt with
      | error e =>
          refine .inl ?_
          unfold Drain.delivered
          simp only [hreceipt]
          rfl
      | ok receipt' =>
          refine .inr ?_
          unfold Drain.delivered
          simp only [hreceipt]
          exact ⟨rfl, fun _ h => by cases h⟩
  | terminal => exact .inr ⟨rfl, fun _ h => by cases h⟩
  | failed => exact .inl rfl

/-- **A drain acknowledges a record only under a receipt that was accepted**, names the record and
    says that the receiver has it. -/
theorem phase_verified (d : Drain) (record : OutboxRecord) (receipt : AckReceipt) (accepted : Bool) :
    (d.verified opts record receipt accepted).phase.record = none ∨
      (∃ decision, (d.verified opts record receipt accepted).phase = .quarantining record decision) ∨
        (d.verified opts record receipt accepted).phase = .acking record ∧ accepted = true ∧
          Drain.names opts record receipt ∧
          ∃ decision ∈ ReceiverDecision.ackDecisions, receipt.decision = decision.text := by
  unfold Drain.verified
  split_ifs with haccepted hnames
  · exact .inl rfl
  · cases hdecision : ReceiverDecision.ofText receipt.decision with
    | none => exact .inl rfl
    | some decision =>
        show (d.decided record decision).phase.record = none ∨
          (∃ text, (d.decided record decision).phase = .quarantining record text) ∨
            (d.decided record decision).phase = .acking record ∧ _
        unfold Drain.decided
        split_ifs with hack htransient
        · exact .inr (.inr ⟨rfl, by simpa using haccepted, hnames, decision, hack,
            (ReceiverDecision.ofText_eq_some hdecision).symm⟩)
        · exact .inl rfl
        · exact .inr (.inl ⟨decision.text, rfl⟩)
  · exact .inl rfl

end Drains

/-! ### What a delivery does -/

section Receiver

variable {c parties} {sourceEpoch : JsString} {data : σ} {record : OutboxRecord}
  {receiver receiver' : ReceiverSide σ}

/-- The rows of a prefix and the next one are a prefix. -/
theorem prefix_concat {α : Type} {done rows : List α} {a : α} (h : done <+: rows)
    (ha : rows[done.length]? = some a) : done ++ [a] <+: rows := by
  obtain ⟨rest, rfl⟩ := h
  rw [List.getElem?_append_right (Nat.le_refl _), Nat.sub_self] at ha
  cases rest with
  | nil => cases ha
  | cons b rest =>
      cases ha
      exact ⟨rest, by simp⟩

/-- **A delivery keeps the receiver sound**: it applies the record that is next, or nothing; and what
    it acknowledges it has applied. -/
theorem ReceiverSound.delivered {db : OutboxDb} {done : List OutboxRow}
    {r : Except HaError ReceiverDecision}
    (hsource : OutboxSound c parties.outbox sourceEpoch db)
    (h : ReceiverSound parties sourceEpoch data
      ((db.rowsOf parties.outbox.streamId).map (·.toOutboxRow)) receiver done)
    (hoffered : Offered (db.rowsOf parties.outbox.streamId) record)
    (hdelivery : Delivery c parties.receiver record receiver r receiver') :
    (∃ done', ReceiverSound parties sourceEpoch data
      ((db.rowsOf parties.outbox.streamId).map (·.toOutboxRow)) receiver' done') ∧
      receiver.applied.rows <+: receiver'.applied.rows ∧
      ∀ decision ∈ ReceiverDecision.ackDecisions, r = .ok decision → Owns receiver' record := by
  obtain ⟨row, hrow, rfl, hijson, -⟩ := hoffered
  have hkeys := hsource.mutation row hrow
  have hnone : ∀ e : HaError, (∃ done', ReceiverSound parties sourceEpoch data
      ((db.rowsOf parties.outbox.streamId).map (·.toOutboxRow)) receiver done') ∧
      receiver.applied.rows <+: receiver.applied.rows ∧
      ∀ decision ∈ ReceiverDecision.ackDecisions, (Except.error e : Except HaError _) = .ok decision →
        Owns receiver (published row.toOutboxRow) :=
    fun e => ⟨⟨done, h⟩, List.prefix_rfl, fun _ _ heq => by cases heq⟩
  have hran : ∀ {captured : OutboxRecord} {decision : ReceiverDecision},
      snapshotRecord (published row.toOutboxRow) = .ok captured →
      verifyAndApplyInTx c parties.receiver captured receiver = .ok (decision, receiver') →
      (∃ done', ReceiverSound parties sourceEpoch data
        ((db.rowsOf parties.outbox.streamId).map (·.toOutboxRow)) receiver' done') ∧
        receiver.applied.rows <+: receiver'.applied.rows ∧
        (decision ∈ ReceiverDecision.ackDecisions → Owns receiver' (published row.toOutboxRow)) := by
    intro captured decision hcaptured hbody
    rw [snapshotRecord_published hkeys hijson hcaptured] at hbody
    obtain ⟨captured', hcaptured', hstream, hcases⟩ := verifyAndApplyInTx_eq_ok c parties.receiver hbody
    rw [snapshotRecord_published hkeys hijson hcaptured'] at hcases hstream
    rw [parties.receives] at hstream
    rcases hcases with ⟨rfl, happlied⟩ | ⟨rfl, hnot, hduplicate⟩
    · -- the row is the one behind those that are applied
      have hcheckpoint := happlied.checkpoint
      rw [hstream, h.checkpoint] at hcheckpoint
      obtain ⟨-, hepoch, hlength⟩ := ReceiverCheckpointRow.mk.inj (Option.some.inj hcheckpoint)
      have hnext : ((db.rowsOf parties.outbox.streamId).map (·.toOutboxRow))[done.length]? =
          some row.toOutboxRow := by
        obtain ⟨i, hi⟩ := List.mem_iff_getElem?.mp hrow
        have hseq := hsource.sequence_getElem hi
        have hlen : (done.length : ℤ) = row.sequence - 1 := hlength
        obtain rfl : done.length = i := by omega
        rw [List.getElem?_map, hi]
        rfl
      refine ⟨⟨done ++ [row.toOutboxRow],
        { inOrder := prefix_concat h.inOrder hnext
          history := ?_
          checkpoint := ?_
          data := ?_ }⟩, ?_, fun _ => ?_⟩
      · rw [ReceiverSide.historyOf, happlied.applied, List.filter_append, List.filter_singleton, hstream,
          beq_self_eq_true, cond_true, ← ReceiverSide.historyOf, h.history, List.map_append]
        rw [← hstream]
        rfl
      · have hadvanced := happlied.advanced
        rw [hstream] at hadvanced
        rw [hadvanced, hepoch, List.length_append, List.length_singleton]
        have hlen : (done.length : ℤ) = row.sequence - 1 := hlength
        have hseq : (published row.toOutboxRow).sequence = ((done.length + 1 : ℕ) : ℤ) := by
          show row.sequence = _
          omega
        rw [hseq]
      · rw [List.foldlM_append, h.data]
        show (parties.receiver.applyInTx receiver.data (published row.toOutboxRow) >>= pure) = _
        rw [happlied.data]
        rfl
      · rw [happlied.applied]
        exact List.prefix_append _ _
      · rw [Owns, happlied.applied]
        exact List.mem_append_right _ List.mem_cons_self
    · refine ⟨⟨done, h⟩, List.prefix_rfl, fun hack => ?_⟩
      have hdecision : decision = .duplicateOk := by
        simp only [ReceiverDecision.ackDecisions, List.mem_cons, List.not_mem_nil, or_false] at hack
        exact hack.resolve_left hnot
      exact hduplicate hdecision
  cases hdelivery with
  | refused _ => exact hnone _
  | ran hcaptured houtcome =>
      cases houtcome with
      | commit hbody =>
          obtain ⟨hsound, hprefix, howns⟩ := hran hcaptured hbody
          exact ⟨hsound, hprefix, fun decision hack heq => by cases heq; exact howns hack⟩
      | rollback e => exact hnone e
      | lostAck e hbody =>
          obtain ⟨hsound, hprefix, -⟩ := hran hcaptured hbody
          exact ⟨hsound, hprefix, fun _ _ heq => by cases heq⟩

end Receiver

/-! ## Every run -/

section Runs

variable {c parties} {sourceEpoch : JsString} {data : σ} {st st' : DeliveryState σ}

theorem DeliverySound.provisioned (h : Provisioned parties sourceEpoch data st) :
    DeliverySound c parties sourceEpoch data st := by
  have hnone : ∀ {p : OutboxEntry → Prop}, ∀ r ∈ st.source.rowsOf parties.outbox.streamId, p r := by
    intro p r hr
    rw [h.rows] at hr
    cases hr
  have hpending : st.source.pendingCount parties.outbox.streamId = 0 := by
    rw [OutboxDb.pendingCount, List.countP_eq_zero]
    intro r hr hpending
    simp only [OutboxDb.isPending, Bool.and_eq_true] at hpending
    have hmem : r ∈ st.source.rowsOf parties.outbox.streamId :=
      List.mem_filter.mpr ⟨hr, hpending.1.1⟩
    rw [h.rows] at hmem
    cases hmem
  refine
    { source :=
        { checkpoint := by rw [h.source, h.rows]; rfl
          sequences := by rw [h.rows]; rfl
          epoch := hnone
          digest := hnone
          mutation := hnone
          acked := hnone
          apart := hnone
          fences := by rw [h.rows]; exact .nil
          fence := hnone
          pending := by rw [hpending]; exact Nat.zero_le _ }
      receiver := ⟨[],
        { inOrder := List.nil_prefix
          history := h.applied
          checkpoint := h.receiver
          data := by rw [h.data]; rfl }⟩
      sent := by rw [h.sent]; exact fun _ hr => by cases hr
      drains := fun i d hd => by
        rw [h.drains i] at hd
        cases hd
      signed := by rw [h.signed]; exact fun _ hr => by cases hr
      acked := hnone }

/-- A transaction that changes nothing of the outbox. -/
theorem DeliverySound.sameOutbox (h : DeliverySound c parties sourceEpoch data st)
    {source : PublishedDb} (hsame : source.toOutboxDb = st.source.toOutboxDb) :
    DeliverySound c parties sourceEpoch data { st with source } :=
  h.withSource (hsame ▸ h.source) (hsame ▸ Grows.refl _) (hsame ▸ h.acked)

/-- The drain that a step of the publisher is about, and what it holds. -/
theorem DeliverySound.held (h : DeliverySound c parties sourceEpoch data st) {i : ℕ} {d : Drain}
    {record : OutboxRecord} (hd : st.drains i = some d) (hrecord : d.phase.record = some record) :
    Offered (st.source.rowsOf parties.outbox.streamId) record :=
  (h.drains i d hd).offered record hrecord

/-- What is sent was offered. -/
theorem DeliverySound.send (h : DeliverySound c parties sourceEpoch data st)
    {records : List OutboxRecord}
    (hrecords : ∀ record ∈ records, Offered (st.source.rowsOf parties.outbox.streamId) record) :
    DeliverySound c parties sourceEpoch data { st with sent := records ++ st.sent } :=
  { h with
    sent := fun record hrecord => by
      rcases List.mem_append.mp hrecord with hnew | hold
      · exact hrecords record hnew
      · exact h.sent record hold }

/-- A read leaves the source, and what is delivered behind it was offered. -/
theorem DeliverySound.read (h : DeliverySound c parties sourceEpoch data st) {i : ℕ} {d : Drain}
    {r : Except HaError (Option OutboxEntry)} {source : PublishedDb}
    (houtcome : Outcome (nextDeliverable (parties.publisher i) d.leaseToken) st.source r source) :
    source = st.source ∧
      DrainSound (st.source.rowsOf parties.outbox.streamId) st.receiver
        (d.read c (parties.publisher i) r) ∧
      ∀ record ∈ (d.read c (parties.publisher i) r).phase.sends,
        Offered (st.source.rowsOf parties.outbox.streamId) record := by
  have hsource : source = st.source := by
    rcases houtcome.unchanged_or_ran with rfl | ⟨row, hbody⟩
    · rfl
    · exact (nextDeliverable_eq_ok hbody).1
  refine ⟨hsource, ?_⟩
  rcases phase_read c (parties.publisher i) d r with
    ⟨hnone, hsends⟩ | ⟨row, record, rfl, hrecord, hphase⟩
  · refine ⟨drainSound_of_none hnone, fun record hrecord => ?_⟩
    rw [hsends] at hrecord
    cases hrecord
  · cases houtcome with
    | commit hbody =>
        obtain ⟨-, hrow⟩ := nextDeliverable_eq_ok hbody
        obtain ⟨hmem, -, -, hlower⟩ := hrow row rfl
        rw [parties.publishes] at hmem hlower
        have hstream : row.streamId = (parties.publisher i).streamId := by
          rw [parties.publishes]
          simpa using (List.mem_filter.mp hmem).2
        obtain ⟨rfl, hijson⟩ :=
          deliverable_eq_ok c (h.source.mutation row hmem) hstream hrecord
        have hoffered : Offered (st.source.rowsOf parties.outbox.streamId)
            (published row.toOutboxRow) := ⟨row, hmem, rfl, hijson, hlower⟩
        refine ⟨drainSound_of_offered (by rw [hphase]; rfl) (fun _ hacking => ?_) hoffered,
          fun record hrecord => ?_⟩
        · rw [hphase] at hacking
          cases hacking
        · rw [hphase, DrainPhase.sends, List.mem_singleton] at hrecord
          rwa [hrecord]

/-- What the receiver had it still has. -/
theorem Owns.grows {receiver receiver' : ReceiverSide σ} {record : OutboxRecord}
    (h : Owns receiver record) (hgrows : receiver.applied.rows <+: receiver'.applied.rows) :
    Owns receiver' record :=
  hgrows.subset h

/-- **A delivery keeps both sides sound.** -/
theorem DeliverySound.deliver (h : DeliverySound c parties sourceEpoch data st)
    {record : OutboxRecord} {r : Except HaError ReceiverDecision} {receiver : ReceiverSide σ}
    {receipts : List AckReceipt} (hsent : record ∈ st.sent)
    (hdelivery : Delivery c parties.receiver record st.receiver r receiver)
    (hreceipts : ∀ receipt ∈ receipts, ∃ decision, r = .ok decision ∧
      Signs record decision receipt) :
    DeliverySound c parties sourceEpoch data
      { st with receiver, signed := receipts ++ st.signed } := by
  obtain ⟨done, hdone⟩ := h.receiver
  obtain ⟨hreceiver, hgrows, howns⟩ := hdone.delivered h.source (h.sent record hsent) hdelivery
  exact
    { source := h.source
      receiver := hreceiver
      sent := h.sent
      drains := fun i d hd =>
        { offered := (h.drains i d hd).offered
          owned := fun record hacking => ((h.drains i d hd).owned record hacking).grows hgrows }
      signed := fun receipt hreceipt => by
        rcases List.mem_append.mp hreceipt with hnew | hold
        · obtain ⟨decision, hr, hsigns⟩ := hreceipts receipt hnew
          refine ⟨record, hsigns.names, fun decision' hack hsame => ?_⟩
          have hdecision : decision' = decision :=
            ReceiverDecision.text_injective (hsame.symm.trans hsigns.decision)
          exact howns decision (hdecision ▸ hack) hr
        · obtain ⟨record', hnames, howned⟩ := h.signed receipt hold
          exact ⟨record', hnames, fun decision hack hsame =>
            (howned decision hack hsame).grows hgrows⟩
      acked := fun r hr hacked => (h.acked r hr hacked).grows hgrows }

/-- **A verified receipt lets a drain acknowledge only what the receiver has.** -/
theorem DeliverySound.verified (h : DeliverySound c parties sourceEpoch data st) {i : ℕ} {d : Drain}
    {record : OutboxRecord} {receipt : AckReceipt} {accepted : Bool}
    (hoffered : Offered (st.source.rowsOf parties.outbox.streamId) record)
    (hsigned : accepted = true → receipt ∈ st.signed) :
    DrainSound (st.source.rowsOf parties.outbox.streamId) st.receiver
      (d.verified (parties.publisher i) record receipt accepted) := by
  rcases phase_verified (parties.publisher i) d record receipt accepted with
    hnone | ⟨text, hphase⟩ | ⟨hphase, haccepted, hnames, decision, hack, hdecision⟩
  · exact drainSound_of_none hnone
  · refine drainSound_of_offered (by rw [hphase]; rfl) (fun _ hacking => ?_) hoffered
    rw [hphase] at hacking
    cases hacking
  · constructor
    · intro record' hrecord
      rw [hphase] at hrecord
      cases hrecord
      exact hoffered
    · intro record' hacking
      rw [hphase] at hacking
      cases hacking
      obtain ⟨signedRecord, hsame, howned⟩ := h.signed receipt (hsigned haccepted)
      have howns := howned decision hack hdecision
      -- the receipt names both records, so they have one header
      obtain ⟨hstream, hepoch, hsequence, hdigest⟩ := hnames
      have hseq : signedRecord.sequence = record.sequence := by
        have heq := hsame.sequence.symm.trans hsequence
        exact_mod_cast JsNumber.fin.inj heq
      obtain ⟨row, hrow, rfl, -⟩ := hoffered
      have hrowStream : row.streamId = parties.outbox.streamId := by
        simpa using (List.mem_filter.mp hrow).2
      rw [Owns, ← hsame.streamId, hstream, parties.publishes, ← hsame.sourceEpoch, hepoch, hseq,
        ← hsame.opDigest, hdigest, ← hrowStream] at howns
      exact howns

/-- **An acknowledgement keeps both sides sound.** -/
theorem DeliverySound.acknowledge (h : DeliverySound c parties sourceEpoch data st) {i : ℕ}
    {record : OutboxRecord} {source : PublishedDb}
    (hoffered : Offered (st.source.rowsOf parties.outbox.streamId) record)
    (howns : Owns st.receiver record)
    (hmarks : Marks (markAcked (parties.publisher i) record) st.source source) :
    DeliverySound c parties sourceEpoch data { st with source } ∧
      Grows (st.source.rowsOf parties.outbox.streamId)
        (source.rowsOf parties.outbox.streamId) := by
  obtain ⟨row, hrow, rfl, -, hlower⟩ := hoffered
  obtain ⟨hsound, hgrows⟩ := h.source.acknowledged hmarks hlower
  refine ⟨h.withSource hsound hgrows fun r hr hacked => ?_, hgrows⟩
  rw [OutboxSound.rowsOf_marks hmarks OutboxSound.markAcked_row] at hr
  obtain ⟨old, hold, rfl⟩ := List.mem_map.mp hr
  rw [OutboxSound.markAcked_row]
  rcases OutboxSound.acked_markAcked hacked with hbefore | ⟨hsequence, -⟩
  · exact h.acked old hold hbefore
  · obtain rfl := h.source.eq_of_sequence hold hrow hsequence
    exact howns

/-- **Every step keeps both sides sound**, and the rows of the source. -/
theorem DeliverySound.step (h : DeliverySound c parties sourceEpoch data st)
    (hstep : DeliveryStep c parties st st') :
    DeliverySound c parties sourceEpoch data st' ∧
      Grows (st.source.rowsOf parties.outbox.streamId)
        (st'.source.rowsOf parties.outbox.streamId) := by
  cases hstep with
  | append inputs houtcome =>
      rcases houtcome.unchanged_or_ran with rfl | ⟨u, hbody⟩
      · exact ⟨h, .refl _⟩
      · obtain ⟨hsound, hgrows, hbefore⟩ := h.source.appendEach hbody
        exact ⟨h.withSource hsound hgrows (h.acked_of_before hbefore), hgrows⟩
  | acquireSource streamId houtcome =>
      rcases houtcome.unchanged_or_ran with rfl | ⟨token, hbody⟩
      · exact ⟨h, .refl _⟩
      · exact ⟨h.withSource (h.source.raised hbody) (.refl _) h.acked, .refl _⟩
  | acquireReceiver streamId houtcome =>
      -- the fence of the receiver is no matter of the invariant
      obtain ⟨done, hdone⟩ := h.receiver
      refine ⟨?_, .refl _⟩
      exact
        { source := h.source
          receiver := ⟨done, ⟨hdone.inOrder, hdone.history, hdone.checkpoint, hdone.data⟩⟩
          sent := h.sent
          drains := fun i d hd => ⟨(h.drains i d hd).offered, (h.drains i d hd).owned⟩
          signed := h.signed
          acked := h.acked }
  | start i leaseToken hnone =>
      exact ⟨h.withDrain i (drainSound_of_none rfl), .refl _⟩
  | @acquire i d now r source hd hphase houtcome =>
      have hsame : source.toOutboxDb = st.source.toOutboxDb := by
        rcases houtcome.unchanged_or_ran with rfl | ⟨held, hbody⟩
        · rfl
        · exact outbox_of_acquireLease hbody
      refine ⟨(h.sameOutbox hsame).withDrain i (drainSound_of_none (record_acquired d r)), ?_⟩
      exact hsame ▸ Grows.refl _
  | @read i d r source hd hphase houtcome =>
      obtain ⟨rfl, hdrain, hsends⟩ := h.read houtcome
      exact ⟨(h.withDrain i hdrain).send hsends, .refl _⟩
  | deliver receipts hsent hdelivery hreceipts =>
      exact ⟨h.deliver hsent hdelivery hreceipts, .refl _⟩
  | @answer i d record delivered hd hphase =>
      have hoffered := h.held hd (by rw [hphase]; rfl)
      rcases phase_delivered d record delivered with hnone | ⟨hrecord, hnot⟩
      · exact ⟨h.withDrain i (drainSound_of_none hnone), .refl _⟩
      · exact ⟨h.withDrain i (drainSound_of_offered hrecord hnot hoffered), .refl _⟩
  | @verify i d record receipt accepted hd hphase hsigned =>
      exact ⟨h.withDrain i (h.verified (h.held hd (by rw [hphase]; rfl)) hsigned), .refl _⟩
  | @acknowledge i d record r source hd hphase houtcome =>
      have hdrain : DrainSound (source.rowsOf parties.outbox.streamId) st.receiver
          (d.acknowledged r) := drainSound_of_none (record_acknowledged d r)
      rcases houtcome.unchanged_or_ran with rfl | ⟨u, hbody⟩
      · exact ⟨h.withDrain i hdrain, .refl _⟩
      · have hoffered := h.held hd (by rw [hphase]; rfl)
        have howns := (h.drains i d hd).owned record hphase
        obtain ⟨hsound, hgrows⟩ := h.acknowledge hoffered howns (acknowledge_eq_ok hbody)
        exact ⟨hsound.withDrain i hdrain, hgrows⟩
  | @quarantine i d record decision r source hd hphase houtcome =>
      have hdrain : DrainSound (source.rowsOf parties.outbox.streamId) st.receiver (d.parked r) :=
        drainSound_of_none (record_parked d r)
      rcases houtcome.unchanged_or_ran with rfl | ⟨u, hbody⟩
      · exact ⟨h.withDrain i hdrain, .refl _⟩
      · obtain ⟨hsound, hgrows, hbefore⟩ := h.source.quarantined (quarantineRecord_eq_ok hbody)
        exact ⟨(h.withSource hsound hgrows (h.acked_of_before hbefore)).withDrain i hdrain, hgrows⟩
  | @release i d outcome r source hd hphase houtcome =>
      have hsame : source.toOutboxDb = st.source.toOutboxDb := by
        rcases houtcome.unchanged_or_ran with rfl | ⟨u, hbody⟩
        · rfl
        · exact outbox_of_releaseLease hbody
      refine ⟨(h.sameOutbox hsame).withDrain i (drainSound_of_none (record_released d outcome r)), ?_⟩
      exact hsame ▸ Grows.refl _

/-- **Both sides are sound in every reachable state.** -/
theorem DeliverySound.of_reachable (h : Reachable (deliverySystem c parties sourceEpoch data) st) :
    DeliverySound c parties sourceEpoch data st :=
  h.invariant (fun _ => .provisioned) fun _ _ _ hsound hstep => (hsound.step hstep).1

/-- **Exactly once, in order.** In every reachable state the receiver has applied the first rows of
    the source, each once and in their order: its history has their digests, its checkpoint is the
    number of them, and its data is what applying them one by one leaves. What the source counts as
    acknowledged is applied, and is the first rows up to some number; and nothing behind a row that
    is quarantined was ever sent. -/
theorem delivered_once (h : Reachable (deliverySystem c parties sourceEpoch data) st) :
    (∃ done, done <+: (st.source.rowsOf parties.outbox.streamId).map (·.toOutboxRow) ∧
      st.receiver.historyOf parties.outbox.streamId = done.map appliedRow ∧
      st.receiver.checkpointOf parties.outbox.streamId =
        some ⟨parties.outbox.streamId, sourceEpoch, done.length⟩ ∧
      done.foldlM (fun data row => parties.receiver.applyInTx data (published row)) data =
        .ok st.receiver.data ∧
      ∀ r ∈ st.source.rowsOf parties.outbox.streamId, r.acked = true → r.toOutboxRow ∈ done) ∧
    (∃ n : ℤ, ∀ r ∈ st.source.rowsOf parties.outbox.streamId, r.acked = true ↔ r.sequence ≤ n) ∧
    ∀ r ∈ st.source.rowsOf parties.outbox.streamId, r.quarantined = true →
      ∀ record ∈ st.sent, record.sequence ≤ r.sequence := by
  have hsound := DeliverySound.of_reachable h
  refine ⟨?_, hsound.source.acked_upTo, ?_⟩
  · obtain ⟨done, hdone⟩ := hsound.receiver
    refine ⟨done, hdone.inOrder, hdone.history, hdone.checkpoint, hdone.data, fun r hr hacked => ?_⟩
    have howns := hsound.acked r hr hacked
    have hstream : r.streamId = parties.outbox.streamId := by
      simpa using (List.mem_filter.mp hr).2
    have hhistory : appliedRow r.toOutboxRow ∈ st.receiver.historyOf parties.outbox.streamId :=
      List.mem_filter.mpr ⟨howns, by simpa [appliedRow] using hstream⟩
    rw [hdone.history] at hhistory
    obtain ⟨row, hrow, hsame⟩ := List.mem_map.mp hhistory
    obtain ⟨entry, hentry, rfl⟩ := List.mem_map.mp (hdone.inOrder.subset hrow)
    obtain rfl := hsound.source.eq_of_sequence hentry hr (congrArg AppliedRow.sequence hsame)
    exact hrow
  · intro r hr hquarantined record hrecord
    obtain ⟨row, hrow, rfl, -, hlower⟩ := hsound.sent record hrecord
    by_contra hlt
    have hacked := hlower r hr (not_le.mp hlt)
    rw [hsound.source.apart r hr hacked] at hquarantined
    cases hquarantined

/-- **The history of the outbox.** In every reachable state the rows of the stream are numbered from
    one without a gap up to the checkpoint, each has the digest of its columns, their fence tokens go
    up to that of the fence, and no more wait than the outbox admits. No later state has lost a row,
    changed one or taken an acknowledgement back. -/
theorem outbox_history (h : Reachable (deliverySystem c parties sourceEpoch data) st)
    (hrun : Run (deliverySystem c parties sourceEpoch data) st st') :
    (st.source.checkpointOf parties.outbox.streamId = some ⟨parties.outbox.streamId, sourceEpoch,
        (st.source.rowsOf parties.outbox.streamId).length⟩ ∧
      (st.source.rowsOf parties.outbox.streamId).map (·.sequence) =
        sequencesFrom (st.source.rowsOf parties.outbox.streamId).length ∧
      (∀ r ∈ st.source.rowsOf parties.outbox.streamId, r.sourceEpoch = sourceEpoch ∧
        canonicalOpDigest c r.digestInput = .ok r.opDigest) ∧
      (st.source.rowsOf parties.outbox.streamId).Pairwise
        (fun r r' => r.fenceToken ≤ r'.fenceToken) ∧
      (∀ r ∈ st.source.rowsOf parties.outbox.streamId, ∃ f,
        st.source.fenceOf parties.outbox.streamId = some f ∧ r.fenceToken ≤ f.fenceToken) ∧
      st.source.pendingCount parties.outbox.streamId ≤ parties.outbox.maxPendingRows) ∧
    (st.source.rowsOf parties.outbox.streamId).map (·.toOutboxRow) <+:
      (st'.source.rowsOf parties.outbox.streamId).map (·.toOutboxRow) ∧
    ∀ r ∈ st.source.rowsOf parties.outbox.streamId, r.acked = true →
      ∃ r' ∈ st'.source.rowsOf parties.outbox.streamId,
        r'.toOutboxRow = r.toOutboxRow ∧ r'.acked = true := by
  have hsound := (DeliverySound.of_reachable h).source
  have hgrows : Grows (st.source.rowsOf parties.outbox.streamId)
      (st'.source.rowsOf parties.outbox.streamId) :=
    hrun.monotone (R := fun s t => Grows (s.source.rowsOf parties.outbox.streamId)
      (t.source.rowsOf parties.outbox.streamId)) (fun _ => .refl _) (fun _ _ _ => Grows.trans)
      (fun _ _ hs hstep => ((DeliverySound.of_reachable hs).step hstep).2) h
  refine ⟨⟨hsound.checkpoint, hsound.sequences, fun r hr => ⟨hsound.epoch r hr, hsound.digest r hr⟩,
    hsound.fences, hsound.fence, hsound.pending⟩, hgrows.kept, fun r hr hacked => ?_⟩
  obtain ⟨r', hr', hsame, hkeeps⟩ := hgrows.acked r hr
  exact ⟨r', hr', hsame, hkeeps hacked⟩

end Runs

/-! ## A concrete run

One row is appended, read by a drain, delivered and acknowledged. -/

namespace DeliveryExample

open Transaction (settle settle_outcome)

def stream : JsString := Js.lit "stream"

/-- The data of the receiver are the numbers of the records that were applied. -/
def sides : Parties (List ℤ) where
  outbox :=
    { streamId := stream, maxPendingRows := 2, backpressure := .quarantine, sanitize := .ok }
  publisher _ := { streamId := stream, leaseMs := 1000, assertSanitized := fun _ => .ok () }
  receiver :=
    { streamId := stream, assertSanitized := fun _ => .ok ()
      applyInTx := fun data record => .ok (data ++ [record.sequence]) }
  publishes _ := rfl
  receives := rfl

def source : PublishedDb where
  fence := ⟨[⟨stream, 0⟩], by decide⟩
  sourceCheckpoint := ⟨[⟨stream, Js.lit "first", 0⟩], by decide⟩
  rows := .empty _
  lease := .empty _
  quarantine := .empty _

def receiver : ReceiverSide (List ℤ) where
  fence := ⟨[⟨stream, 0⟩], by decide⟩
  receiverCheckpoint := ⟨[⟨stream, Js.lit "first", 0⟩], by decide⟩
  applied := .empty _
  data := []

def initial : DeliveryState (List ℤ) := ⟨source, fun _ => none, [], receiver, []⟩

def inputs : List (AppendInput × Bool) :=
  [(⟨stream, .object [(Js.lit "op", .string (Js.lit "set"))], 0⟩, false)]

/-- The source and the drain behind each of their steps. -/
def appended : OutboxDb :=
  (settle (appendEach lengthCrypto sides.outbox inputs source.toOutboxDb) source.toOutboxDb).2

def waiting : PublishedDb := { source with toOutboxDb := appended }

def leased : Except HaError Bool × PublishedDb :=
  settle (acquireLease (sides.publisher 0) (Js.lit "lease") 0 waiting) waiting

def holder : Drain := (Drain.start (Js.lit "lease")).acquired leased.1

def lowest : Except HaError (Option OutboxEntry) × PublishedDb :=
  settle (nextDeliverable (sides.publisher 0) holder.leaseToken leased.2) leased.2

def sender : Drain := holder.read lengthCrypto (sides.publisher 0) lowest.1

/-- The record that is sent. -/
def record : OutboxRecord := sender.phase.record.getD (published ⟨[], [], 0, 0, [], .null⟩)

/-- The record as the receiver reads it back. -/
def captured : OutboxRecord := orElse (snapshotRecord record) record

def decided : Except HaError ReceiverDecision × ReceiverSide (List ℤ) :=
  settle (verifyAndApplyInTx lengthCrypto sides.receiver captured receiver) receiver

/-- A receipt that the record is applied. -/
def receiptOf (record : OutboxRecord) : AckReceipt :=
  { streamId := record.streamId, sourceEpoch := record.sourceEpoch,
    sequence := .fin record.sequence, opDigest := record.opDigest,
    decision := ReceiverDecision.applied.text, receiverId := Js.lit "receiver",
    keyId := Js.lit "key", issuedAt := Js.lit "now", signature := Js.lit "signature" }

theorem signs_receiptOf (record : OutboxRecord) : Signs record .applied (receiptOf record) :=
  ⟨⟨rfl, rfl, rfl, rfl⟩, rfl⟩

def receipt : AckReceipt := receiptOf record

def verifier : Drain := sender.delivered record (.receipt receipt)

def acker : Drain := verifier.verified (sides.publisher 0) record receipt true

def acked : Except HaError Unit × PublishedDb :=
  settle (acknowledge (sides.publisher 0) acker.leaseToken record lowest.2) lowest.2

/-- The states of the run. -/
def started : DeliveryState (List ℤ) :=
  (initial.withOutbox appended).withDrain 0 (.start (Js.lit "lease")) waiting

def held : DeliveryState (List ℤ) := started.withDrain 0 holder leased.2

def sent : DeliveryState (List ℤ) :=
  { held.withDrain 0 sender lowest.2 with sent := sender.phase.sends ++ held.sent }

def delivered : DeliveryState (List ℤ) :=
  { sent with receiver := decided.2, signed := [receipt] ++ sent.signed }

def answered : DeliveryState (List ℤ) := delivered.withDrain 0 verifier delivered.source

def verified : DeliveryState (List ℤ) := answered.withDrain 0 acker answered.source

def final : DeliveryState (List ℤ) :=
  verified.withDrain 0 (acker.acknowledged acked.1) acked.2

/-- The number of a phase in the order of a drain. -/
def place : DrainPhase → ℕ
  | .acquiring => 0
  | .reading => 1
  | .delivering _ => 2
  | .verifying _ _ => 3
  | .acking _ => 4
  | .quarantining _ _ => 5
  | .releasing _ => 6
  | .ended _ => 7

theorem run_computes :
    place holder.phase = 1 ∧ place sender.phase = 2 ∧ (snapshotAckReceipt receipt).isOk = true ∧
      place acker.phase = 4 ∧ (snapshotRecord record).isOk = true ∧
      decided.1 = .ok .applied ∧ final.receiver.data = [1] ∧
      (final.source.rowsOf stream).map (·.acked) = [true] := by
  decide +kernel

theorem holder_phase : holder.phase = .reading := by
  have h := run_computes.1
  cases hphase : holder.phase <;> rw [hphase] at h <;> first | rfl | cases h

theorem sender_phase : sender.phase = .delivering record := by
  have h := run_computes.2.1
  rw [record]
  cases hphase : sender.phase <;> rw [hphase] at h <;> first | rfl | cases h

theorem verifier_phase : verifier.phase = .verifying record receipt := by
  have h := eq_ok_result _ run_computes.2.2.1
  rw [snapshotAckReceipt_eq_ok h] at h
  unfold verifier Drain.delivered
  simp only [h]

theorem acker_phase : acker.phase = .acking record := by
  have h := run_computes.2.2.2.1
  rcases phase_verified (sides.publisher 0) verifier record receipt true with
    hnone | ⟨decision, hphase⟩ | ⟨hphase, -⟩
  · rw [← acker] at hnone
    cases hacker : acker.phase with
    | acking record' =>
        rw [hacker] at hnone
        cases hnone
    | _ =>
        rw [hacker] at h
        cases h
  · rw [← acker] at hphase
    rw [hphase] at h
    cases h
  · exact hphase

theorem record_captured : snapshotRecord record = .ok captured := by
  have h := run_computes.2.2.2.2.1
  rw [captured]
  cases hsnapshot : snapshotRecord record with
  | error e =>
      rw [hsnapshot] at h
      cases h
  | ok r => rfl

theorem final_reachable :
    Reachable (deliverySystem lengthCrypto sides (Js.lit "first") []) final := by
  have hinitial : Reachable (deliverySystem lengthCrypto sides (Js.lit "first") []) initial :=
    .init ⟨rfl, by decide +kernel, rfl, by decide +kernel, rfl, fun _ => rfl, rfl, rfl⟩
  have hstarted : Reachable (deliverySystem lengthCrypto sides (Js.lit "first") []) started :=
    (hinitial.next (.append inputs (settle_outcome _ _))).next (.start 0 (Js.lit "lease") rfl)
  have hheld : Reachable (deliverySystem lengthCrypto sides (Js.lit "first") []) held :=
    hstarted.next (.acquire 0 rfl rfl (settle_outcome _ _))
  have hsent : Reachable (deliverySystem lengthCrypto sides (Js.lit "first") []) sent :=
    hheld.next (.read rfl holder_phase (settle_outcome _ _))
  have hrecord : record ∈ sent.sent := by
    show record ∈ sender.phase.sends ++ held.sent
    rw [sender_phase]
    exact List.mem_cons_self
  have hdelivered : Reachable (deliverySystem lengthCrypto sides (Js.lit "first") []) delivered := by
    have hdelivery : Delivery lengthCrypto sides.receiver record sent.receiver decided.1 decided.2 :=
      .ran record_captured (settle_outcome _ _)
    refine hsent.next (.deliver [receipt] hrecord hdelivery fun signed hsigned => ?_)
    rw [List.mem_singleton.mp hsigned]
    exact ⟨.applied, run_computes.2.2.2.2.2.1, signs_receiptOf record⟩
  have hanswered : Reachable (deliverySystem lengthCrypto sides (Js.lit "first") []) answered :=
    hdelivered.next (.answer (.receipt receipt) rfl sender_phase)
  have hsigned : receipt ∈ answered.signed := List.mem_append_left _ (List.mem_singleton_self _)
  have hverified : Reachable (deliverySystem lengthCrypto sides (Js.lit "first") []) verified :=
    hanswered.next (.verify true rfl verifier_phase fun _ => hsigned)
  exact hverified.next (.acknowledge rfl acker_phase (settle_outcome _ _))

end DeliveryExample

open DeliveryExample in
/-- The one row of the run is applied once, and acknowledged. -/
theorem delivered_once_sample :
    final.receiver.data = [1] ∧ (final.source.rowsOf stream).map (·.acked) = [true] ∧
      ∃ done, done <+: (final.source.rowsOf stream).map (·.toOutboxRow) ∧
        final.receiver.historyOf stream = done.map appliedRow ∧
        ∀ r ∈ final.source.rowsOf stream, r.acked = true → r.toOutboxRow ∈ done := by
  obtain ⟨⟨done, hprefix, hhistory, -, -, hacked⟩, -⟩ := delivered_once final_reachable
  exact ⟨run_computes.2.2.2.2.2.2.1, run_computes.2.2.2.2.2.2.2, done, hprefix, hhistory, hacked⟩

open DeliveryExample in
/-- The row that was appended is the first of the rows of the end. -/
theorem outbox_history_sample :
    (final.source.rowsOf stream).map (·.sequence) =
        sequencesFrom (final.source.rowsOf stream).length ∧
      final.source.pendingCount stream ≤ 2 := by
  obtain ⟨⟨-, hsequences, -, -, -, hpending⟩, -⟩ := outbox_history final_reachable .refl
  exact ⟨hsequences, hpending⟩

end Durable
