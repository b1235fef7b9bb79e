import BpcProtocol.Ha.Canonical
import BpcProtocol.Js.Arithmetic
import BpcProtocol.Lib.Async

set_option autoImplicit false

/-! # The rollback checkpoint

`RollbackCheckpointGuard` compares the sequence that Redis mirrors with an independent witness.
`check` only reads the witness; `reserve` advances it by one with a compare-and-set, after which the
caller has yet to mirror the reserved sequence into Redis. -/

namespace Checkpoint

open Fallible Async

/-! ## States -/

/-- `CheckpointState`: the witness of a namespace, or what Redis mirrors of it. -/
structure CheckpointState where
  epoch : JsString
  sequence : JsNumber
  deriving DecidableEq

abbrev RedisSequenceView := CheckpointState

inductive RollbackVerdict where
  | ok
  | rollback
  | redisAhead
  | epochMismatch
  | witnessMissing
  deriving DecidableEq

/-- What the guard throws, or the witness. -/
inductive CheckpointError where
  | rollbackDetected (redisSequence witnessSequence : JsNumber)
  | redisAhead (redisSequence witnessSequence : JsNumber)
  | witnessMissing (ns : JsString)
  | checkpointUnavailable
  | checkpointInconsistent (redisEpoch witnessEpoch : JsString)
  | checkpointConflict
  | malformedCas (expected got : CheckpointState)
  | sequenceExhausted (sequence : JsNumber)
  | notAuthorized
  | continuityValidation (message : String)
  | typeError
  | error (message : String)
  deriving DecidableEq

/-- `MAX_SEQUENCE`. -/
def maxSequence : JsNumber := .fin (9007199254740990 : ℤ)

/-- `assertId(v, label)`. -/
def assertId (v : JsString) (label : String) : Except CheckpointError Unit :=
  require (Ha.idPattern v = true)
    (.continuityValidation (label ++ " must match /^[A-Za-z0-9][A-Za-z0-9:._/-]\x7b0,127\x7d$/"))

/-- `assertSeq(n, label)`. -/
def assertSeq (n : JsNumber) (label : String) : Except CheckpointError Unit :=
  require (n.isSafeInteger = true ∧ n.lt (.fin 0) = false)
    (.continuityValidation (label ++ " must be a non-negative safe integer"))

/-- `assertState(s, label)`. -/
def assertState (s : CheckpointState) (label : String) : Except CheckpointError Unit := do
  assertId s.epoch (label ++ ".epoch")
  assertSeq s.sequence (label ++ ".sequence")

/-! ## Operations -/

/-- What a call of the guard awaits: the authorizer or the witness. -/
inductive CheckpointOp where
  | authorizeProvision (ns genesisEpoch : JsString)
  | read (ns : JsString)
  | compareAndAdvance (ns : JsString) (expected : Option CheckpointState) (next : CheckpointState)
  | createGenesis (ns : JsString) (genesis : CheckpointState)

abbrev CheckpointOp.Answer : CheckpointOp → Type
  | authorizeProvision _ _ => Except CheckpointError Bool
  | read _ => Except CheckpointError (Option CheckpointState)
  | compareAndAdvance _ _ _ => Except CheckpointError CheckpointState
  | createGenesis _ _ => Except CheckpointError CheckpointState

abbrev CheckpointProg (α : Type) := Prog CheckpointOp CheckpointOp.Answer CheckpointError α

/-- `catch (err) { throw new CheckpointUnavailableError(err) }`. -/
def orUnavailable {α : Type} : Except CheckpointError α → Except CheckpointError α
  | .ok a => .ok a
  | .error _ => .error .checkpointUnavailable

/-- The same, but for a conflict. -/
def conflictOrUnavailable {α : Type} : Except CheckpointError α → Except CheckpointError α
  | .ok a => .ok a
  | .error err =>
      .error (if err = .checkpointConflict then err else .checkpointUnavailable)

/-! ## The guard -/

/-- `RollbackCheckpointGuard`, of which the constructor has checked the namespace. -/
structure RollbackCheckpointGuard where
  ns : JsString
  ns_ok : assertId ns "namespace" = .ok ()

namespace RollbackCheckpointGuard

variable (g : RollbackCheckpointGuard)

/-- `provision(genesisEpoch)`. -/
def provision (genesisEpoch : JsString) : CheckpointProg CheckpointState := do
  Prog.lift (assertId genesisEpoch "genesisEpoch")
  let answer ← Prog.perform (.authorizeProvision g.ns genesisEpoch)
  let allowed ← Prog.lift (orUnavailable answer)
  Prog.lift (require (allowed = true) .notAuthorized)
  let created ← Prog.perform (.createGenesis g.ns ⟨genesisEpoch, .fin 0⟩)
  Prog.lift (conflictOrUnavailable created)

/-- What `check` makes of the witness that it has read. -/
def verdict (redis : RedisSequenceView) : Option CheckpointState →
    Except CheckpointError RollbackVerdict
  | none => .ok .witnessMissing
  | some current => do
      assertState current "witness"
      pure (if current.epoch ≠ redis.epoch then .epochMismatch
        else if redis.sequence.lt current.sequence = true then .rollback
        else if current.sequence.lt redis.sequence = true then .redisAhead
        else .ok)

/-- `check(redis)`. -/
def check (redis : RedisSequenceView) : CheckpointProg RollbackVerdict := do
  Prog.lift (assertId redis.epoch "redis.epoch")
  Prog.lift (assertSeq redis.sequence "redis.sequence")
  let answer ← Prog.perform (.read g.ns)
  let current ← Prog.lift (orUnavailable answer)
  Prog.lift (verdict redis current)

/-- `(await this.witness.read(this.ns))!`. -/
def readWitness : CheckpointProg CheckpointState := do
  let answer ← Prog.perform (.read g.ns)
  let w ← Prog.lift answer
  Prog.lift (w.elim (.error .typeError) .ok)

/-- `switch (verdict)`. -/
def refuse (redis : RedisSequenceView) : RollbackVerdict → CheckpointProg Unit
  | .witnessMissing => .fail (.witnessMissing g.ns)
  | .epochMismatch => do
      let answer ← Prog.perform (.read g.ns)
      let w ← Prog.lift answer
      .fail (.checkpointInconsistent redis.epoch
        (w.elim (Js.lit "(none)") CheckpointState.epoch))
  | .rollback => do
      let w ← g.readWitness
      .fail (.rollbackDetected redis.sequence w.sequence)
  | .redisAhead => do
      let w ← g.readWitness
      .fail (.redisAhead redis.sequence w.sequence)
  | .ok => pure ()

/-- The state that a reservation asks for. -/
def next (redis : RedisSequenceView) : CheckpointState :=
  ⟨redis.epoch, redis.sequence.incr⟩

/-- The sequence that is returned, if the witness has returned exactly the state asked for. -/
def accept (redis : RedisSequenceView) (result : CheckpointState) :
    Except CheckpointError JsNumber := do
  require (result.epoch = (next redis).epoch ∧ result.sequence.eq (next redis).sequence = true)
    (.malformedCas (next redis) result)
  pure result.sequence

/-- What `reserve` does once the witness was found to agree. -/
def advanceWitness (redis : RedisSequenceView) : CheckpointProg JsNumber := do
  Prog.lift (require (redis.sequence.ge maxSequence = false) (.sequenceExhausted redis.sequence))
  let answer ← Prog.perform (.compareAndAdvance g.ns (some redis) (next redis))
  let result ← Prog.lift (conflictOrUnavailable answer)
  Prog.lift (accept redis result)

/-- `reserve(redis)`. -/
def reserve (redis : RedisSequenceView) : CheckpointProg JsNumber := do
  let verdict ← g.check redis
  g.refuse redis verdict
  g.advanceWitness redis

end RollbackCheckpointGuard

/-! ## Sequences -/

/-- `n + k`, exactly. -/
def plus : JsNumber → ℕ → JsNumber
  | .fin q, k => .fin (q + k)
  | n, _ => n

namespace CheckpointState

/-- The state `k` reservations later. -/
def advance (s : CheckpointState) (k : ℕ) : CheckpointState :=
  { s with sequence := plus s.sequence k }

/-- What `assertState` accepts. -/
def Valid (s : CheckpointState) : Prop :=
  Ha.idPattern s.epoch = true ∧ ∃ n : ℕ, s.sequence = .fin n ∧ n ≤ 9007199254740991

/-- What a sequence is reserved behind: a valid state below the ceiling. -/
def Reservable (s : CheckpointState) : Prop :=
  Ha.idPattern s.epoch = true ∧ ∃ n : ℕ, s.sequence = .fin n ∧ n < 9007199254740990

/-- `t` is `s` some reservations later. -/
def Upto (s t : CheckpointState) : Prop :=
  ∃ k, t = s.advance k

variable {s t u : CheckpointState}

theorem advance_of_eq {n : ℕ} (h : s.sequence = .fin n) (k : ℕ) :
    s.advance k = ⟨s.epoch, .fin ((n + k : ℕ) : ℚ)⟩ := by
  unfold advance
  rw [h]
  push_cast
  rfl

theorem advance_zero (s : CheckpointState) : s.advance 0 = s := by
  obtain ⟨epoch, sequence⟩ := s
  cases sequence with
  | fin q => simp [advance, plus]
  | nan => rfl
  | posInf => rfl
  | negInf => rfl

theorem advance_advance (s : CheckpointState) (j k : ℕ) :
    (s.advance j).advance k = s.advance (j + k) := by
  obtain ⟨epoch, sequence⟩ := s
  cases sequence with
  | fin q => simp [advance, plus, add_assoc]
  | nan => rfl
  | posInf => rfl
  | negInf => rfl

theorem Upto.refl (s : CheckpointState) : Upto s s :=
  ⟨0, (advance_zero s).symm⟩

theorem Upto.advance (h : Upto s t) (k : ℕ) : Upto s (t.advance k) := by
  obtain ⟨j, rfl⟩ := h
  exact ⟨j + k, advance_advance s j k⟩

theorem Upto.epoch_eq (h : Upto s t) : t.epoch = s.epoch := by
  obtain ⟨k, rfl⟩ := h
  rfl

theorem Reservable.valid (h : s.Reservable) : s.Valid := by
  obtain ⟨hepoch, n, hn, hlt⟩ := h
  exact ⟨hepoch, n, hn, by omega⟩

theorem Reservable.valid_advance (h : s.Reservable) : (s.advance 1).Valid := by
  obtain ⟨hepoch, n, hn, hlt⟩ := h
  exact ⟨hepoch, n + 1, congrArg CheckpointState.sequence (advance_of_eq hn 1), by omega⟩

/-- The sequence of a state is behind that of every later one. -/
theorem lt_advance (h : s.Valid) (k : ℕ) : s.sequence.lt (s.advance (k + 1)).sequence = true := by
  obtain ⟨-, n, hn, -⟩ := h
  rw [advance_of_eq hn, hn]
  exact decide_eq_true (by exact_mod_cast Nat.lt_add_of_pos_right k.succ_pos)

end CheckpointState

open CheckpointState

theorem assertSeq_eq_ok {n : JsNumber} {label : String} {u : Unit} :
    assertSeq n label = .ok u ↔ ∃ k : ℕ, n = .fin k ∧ k ≤ 9007199254740991 := by
  unfold assertSeq
  rw [require_eq_ok, JsNumber.isSafeNat_iff]

theorem assertState_eq_ok {s : CheckpointState} {label : String} {u : Unit} :
    assertState s label = .ok u ↔ s.Valid := by
  simp only [assertState, assertId, bind_eq_ok, require_eq_ok, exists_unit, assertSeq_eq_ok, Valid]

/-! ## What the guard answers -/

namespace RollbackCheckpointGuard

variable {g : RollbackCheckpointGuard} {redis : RedisSequenceView}

/-- `check` of a valid view awaits the witness and compares. -/
theorem check_of_valid (h : redis.Valid) :
    g.check redis =
      .await (.read g.ns) fun answer => Prog.lift (orUnavailable answer >>= verdict redis) := by
  have hepoch : assertId redis.epoch "redis.epoch" = .ok () := require_of h.1 _
  have hseq : assertSeq redis.sequence "redis.sequence" = .ok () := assertSeq_eq_ok.mpr h.2
  unfold check
  rw [hepoch, hseq]
  refine congrArg (Prog.await _) (funext fun answer => ?_)
  cases answer <;> rfl

/-- `check` of any other view throws at once. -/
theorem check_of_not_valid (h : ¬redis.Valid) : ∃ e, g.check redis = .fail e := by
  unfold check
  cases hepoch : assertId redis.epoch "redis.epoch" with
  | error e => exact ⟨e, rfl⟩
  | ok u =>
      cases hseq : assertSeq redis.sequence "redis.sequence" with
      | error e => exact ⟨e, rfl⟩
      | ok v =>
          unfold assertId at hepoch
          exact absurd ⟨(require_eq_ok _ _ _).mp hepoch, assertSeq_eq_ok.mp hseq⟩ h

/-- `check` answers `ok` only if the witness is the view that was presented. -/
theorem verdict_eq_ok {current : Option CheckpointState} (h : redis.Valid) :
    verdict redis current = .ok .ok ↔ current = some redis := by
  obtain ⟨epoch, sequence⟩ := redis
  obtain ⟨hepoch, n, rfl, hn⟩ := h
  constructor
  · intro hok
    cases current with
    | none => cases hok
    | some current =>
        obtain ⟨_, hvalid, hcmp⟩ := (bind_eq_ok _ _ _).mp hok
        obtain ⟨-, m, hm, -⟩ := assertState_eq_ok.mp hvalid
        obtain ⟨epoch', sequence'⟩ := current
        obtain rfl : sequence' = .fin m := hm
        have hbranch := (pure_eq_ok _ _).mp hcmp
        split at hbranch
        · cases hbranch
        · next heq =>
            split at hbranch
            · cases hbranch
            · next hbehind =>
                split at hbranch
                · cases hbranch
                · next hahead =>
                    have h1 : ¬((n : ℚ) < m) := fun hlt => hbehind (decide_eq_true hlt)
                    have h2 : ¬((m : ℚ) < n) := fun hlt => hahead (decide_eq_true hlt)
                    have hmn : m = n := by exact_mod_cast le_antisymm (not_lt.mp h1) (not_lt.mp h2)
                    obtain rfl : epoch' = epoch := not_not.mp heq
                    rw [hmn]
  · rintro rfl
    refine (bind_eq_ok _ _ _).mpr ⟨(), assertState_eq_ok.mpr ⟨hepoch, n, rfl, hn⟩, ?_⟩
    have hirrefl : JsNumber.lt (.fin (n : ℚ)) (.fin (n : ℚ)) = false := decide_eq_false (lt_irrefl _)
    simp [hirrefl]

/-- `check` reports a rollback of every view that the witness has left behind. -/
theorem verdict_of_behind {current : CheckpointState} (hvalid : current.Valid)
    (hepoch : current.epoch = redis.epoch) (hlt : redis.sequence.lt current.sequence = true) :
    verdict redis (some current) = .ok .rollback := by
  refine (bind_eq_ok _ _ _).mpr ⟨(), assertState_eq_ok.mpr hvalid, ?_⟩
  rw [if_neg (not_not.mpr hepoch), if_pos hlt]
  rfl

/-- What `check` can have done: nothing yet, or it has read the witness and has ended. -/
theorem trace_check (h : redis.Valid) {es : List (Made CheckpointOp CheckpointOp.Answer)}
    {q : CheckpointProg RollbackVerdict} (htrace : Trace (g.check redis) es q) :
    es = [] ∧ q = g.check redis ∨
      ∃ answer, es = [⟨.read g.ns, answer⟩] ∧
        q = Prog.lift (orUnavailable answer >>= verdict redis) := by
  rw [check_of_valid h] at htrace ⊢
  cases htrace with
  | nil => exact Or.inl ⟨rfl, rfl⟩
  | cons answer htrace =>
      refine Or.inr ⟨answer, ?_⟩
      change Trace (Prog.lift (orUnavailable answer >>= verdict redis)) _ _ at htrace
      cases hx : orUnavailable answer >>= verdict redis with
      | ok v =>
          rw [hx] at htrace
          obtain ⟨rfl, rfl⟩ := trace_ret.mp htrace
          exact ⟨rfl, rfl⟩
      | error e =>
          rw [hx] at htrace
          obtain ⟨rfl, rfl⟩ := trace_fail.mp htrace
          exact ⟨rfl, rfl⟩

/-- What `reserve` asks for is the state one reservation later. -/
theorem next_eq_advance (h : redis.Reservable) : next redis = redis.advance 1 := by
  obtain ⟨-, n, hn, hlt⟩ := h
  rw [advance_of_eq hn, next, hn, JsNumber.incr_natCast (by omega)]

theorem reservable_of_valid (h : redis.Valid) (hmax : redis.sequence.ge maxSequence = false) :
    redis.Reservable := by
  obtain ⟨hepoch, n, hn, -⟩ := h
  rw [hn, maxSequence, JsNumber.ge_fin] at hmax
  have hlt : (n : ℚ) < ((9007199254740990 : ℤ) : ℚ) := not_le.mp (of_decide_eq_false hmax)
  exact ⟨hepoch, n, hn, by exact_mod_cast hlt⟩

/-- Every verdict but `ok` makes `reserve` throw. -/
theorem refuse_throws {v : RollbackVerdict} (h : v ≠ .ok) : (g.refuse redis v).Throws := by
  cases v with
  | ok => exact absurd rfl h
  | witnessMissing => exact trivial
  | epochMismatch =>
      intro answer
      cases answer <;> exact trivial
  | rollback =>
      intro answer
      cases answer with
      | error e => exact trivial
      | ok w => cases w <;> exact trivial
  | redisAhead =>
      intro answer
      cases answer with
      | error e => exact trivial
      | ok w => cases w <;> exact trivial

/-- Only the state asked for is accepted. -/
theorem accept_eq_ok (h : redis.Reservable) {result : CheckpointState} {n : JsNumber} :
    accept redis result = .ok n ↔ result = redis.advance 1 ∧ n = (redis.advance 1).sequence := by
  obtain ⟨epoch, sequence⟩ := result
  obtain ⟨-, m, hm, -⟩ := id h
  unfold accept
  rw [bind_eq_ok, exists_unit, require_eq_ok, pure_eq_ok, next_eq_advance h, advance_of_eq hm,
    CheckpointState.mk.injEq]
  constructor
  · rintro ⟨⟨hepoch, hseq⟩, hn⟩
    have hsame : sequence = .fin ((m + 1 : ℕ) : ℚ) := by
      cases sequence with
      | fin q => exact of_decide_eq_true hseq
      | nan => cases hseq
      | posInf => cases hseq
      | negInf => cases hseq
    exact ⟨⟨hepoch, hsame⟩, hn.symm.trans hsame⟩
  · rintro ⟨⟨rfl, rfl⟩, rfl⟩
    exact ⟨⟨rfl, decide_eq_true rfl⟩, rfl⟩

theorem advanceWitness_of_reservable (h : redis.Reservable) :
    g.advanceWitness redis =
      .await (.compareAndAdvance g.ns (some redis) (redis.advance 1)) fun answer =>
        Prog.lift (conflictOrUnavailable answer >>= accept redis) := by
  obtain ⟨-, n, hn, hlt⟩ := id h
  have hmax : redis.sequence.ge maxSequence = false := by
    rw [hn, maxSequence, JsNumber.ge_fin]
    refine decide_eq_false (not_le.mpr ?_)
    exact_mod_cast hlt
  unfold advanceWitness
  rw [require_of hmax, next_eq_advance h]
  refine congrArg (Prog.await _) (funext fun answer => ?_)
  cases answer <;> rfl

/-- Without room below the ceiling nothing is sent. -/
theorem advanceWitness_of_not_reservable (hvalid : redis.Valid) (h : ¬redis.Reservable) :
    g.advanceWitness redis = .fail (.sequenceExhausted redis.sequence) := by
  unfold advanceWitness
  rw [require_of_not fun hmax => h (reservable_of_valid hvalid hmax)]
  rfl

theorem lift_eq_ret {α : Type} {x : Except CheckpointError α} {a : α} :
    (Prog.lift x : CheckpointProg α) = .ret a ↔ x = .ok a := by
  cases x with
  | ok b => simp [Prog.lift]
  | error e => simp [Prog.lift]

/-- What a guard that returns a sequence has done: it has read the witness, and has found there the
    view that was presented, and its compare-and-set on that view has succeeded. -/
theorem trace_reserve {es : List (Made CheckpointOp CheckpointOp.Answer)} {n : JsNumber}
    (htrace : Trace (g.reserve redis) es (.ret n)) :
    redis.Reservable ∧ n = (redis.advance 1).sequence ∧
      es = [⟨.read g.ns, .ok (some redis)⟩,
        ⟨.compareAndAdvance g.ns (some redis) (redis.advance 1), .ok (redis.advance 1)⟩] := by
  have hvalid : redis.Valid := by
    by_contra hnot
    obtain ⟨e, he⟩ := @check_of_not_valid g redis hnot
    unfold reserve at htrace
    rw [he] at htrace
    cases (trace_fail.mp htrace).2
  obtain ⟨es₁, rest, v, rfl, hcheck, hrest⟩ := Trace.of_bind htrace
  obtain ⟨es₂, es₃, u, rfl, hrefuse, hadvance⟩ := Trace.of_bind hrest
  obtain rfl : v = .ok := by
    by_contra hne
    exact (refuse_throws hne).not_trace hrefuse
  obtain ⟨rfl, -⟩ := trace_ret.mp hrefuse
  -- the verdict was `ok`, so the witness was the view
  have hread : es₁ = [⟨.read g.ns, .ok (some redis)⟩] := by
    rcases trace_check hvalid hcheck with ⟨-, hq⟩ | ⟨answer, rfl, hq⟩
    · rw [check_of_valid hvalid] at hq
      cases hq
    · obtain ⟨current, hanswer, hverdict⟩ := (bind_eq_ok _ _ _).mp (lift_eq_ret.mp hq.symm)
      cases answer with
      | error e => cases hanswer
      | ok current' =>
          cases hanswer
          rw [(verdict_eq_ok hvalid).mp hverdict]
  have hres : redis.Reservable := by
    by_contra hnot
    rw [advanceWitness_of_not_reservable hvalid hnot] at hadvance
    cases (trace_fail.mp hadvance).2
  rw [advanceWitness_of_reservable hres] at hadvance
  obtain ⟨answer, es₄, rfl, hend⟩ := trace_await_ret.mp hadvance
  obtain ⟨rfl, hok⟩ := trace_lift_ret.mp hend
  obtain ⟨result, hanswer, haccept⟩ := (bind_eq_ok _ _ _).mp hok
  obtain ⟨rfl, rfl⟩ := (accept_eq_ok hres).mp haccept
  refine ⟨hres, rfl, ?_⟩
  cases answer with
  | error e => cases hanswer
  | ok result =>
      cases hanswer
      rw [hread]
      rfl

/-- A reservation that nothing comes between reads the witness, advances it, and returns. -/
theorem reserve_of_reservable (h : redis.Reservable) :
    ∃ k₁ k₂, g.reserve redis = .await (.read g.ns) k₁ ∧
      k₁ (.ok (some redis)) =
        .await (.compareAndAdvance g.ns (some redis) (redis.advance 1)) k₂ ∧
      k₂ (.ok (redis.advance 1)) = .ret (redis.advance 1).sequence := by
  have hverdict : orUnavailable (.ok (some redis)) >>= verdict redis = .ok .ok :=
    (verdict_eq_ok h.valid).mpr rfl
  have haccept : conflictOrUnavailable (.ok (redis.advance 1)) >>= accept redis =
      .ok (redis.advance 1).sequence :=
    (accept_eq_ok h).mpr ⟨rfl, rfl⟩
  unfold reserve
  rw [check_of_valid h.valid]
  refine ⟨_, fun answer => Prog.lift (conflictOrUnavailable answer >>= accept redis), rfl, ?_, ?_⟩
  · show Prog.bind _ (Prog.lift (orUnavailable (.ok (some redis)) >>= verdict redis)) = _
    rw [hverdict]
    exact advanceWitness_of_reservable h
  · show Prog.lift (conflictOrUnavailable (.ok (redis.advance 1)) >>= accept redis) = _
    rw [haccept]
    rfl

end RollbackCheckpointGuard

/-- What is sent to the witness for a caller who presents the view `redis`. -/
def CheckpointOp.SentFor (redis : RedisSequenceView) : CheckpointOp → Prop
  | .compareAndAdvance _ expected next =>
      redis.Reservable ∧ expected = some redis ∧ next = redis.advance 1
  | _ => True

namespace RollbackCheckpointGuard

variable {g : RollbackCheckpointGuard} {redis : RedisSequenceView}

theorem uses_check (redis' : RedisSequenceView) :
    (g.check redis').Uses (CheckpointOp.SentFor redis) := by
  by_cases hvalid : redis'.Valid
  · rw [check_of_valid hvalid]
    exact ⟨trivial, fun answer => Prog.uses_lift⟩
  · obtain ⟨e, he⟩ := @check_of_not_valid g redis' hvalid
    rw [he]
    trivial

theorem uses_refuse (v : RollbackVerdict) :
    (g.refuse redis v).Uses (CheckpointOp.SentFor redis) := by
  have hread : g.readWitness.Uses (CheckpointOp.SentFor redis) :=
    ⟨trivial, fun answer => Prog.uses_lift.bind fun w => Prog.uses_lift⟩
  cases v with
  | ok => trivial
  | witnessMissing => trivial
  | epochMismatch =>
      exact ⟨trivial, fun answer => Prog.uses_lift.bind fun w => trivial⟩
  | rollback => exact hread.bind fun w => trivial
  | redisAhead => exact hread.bind fun w => trivial

theorem uses_reserve : (g.reserve redis).Uses (CheckpointOp.SentFor redis) := by
  by_cases hvalid : redis.Valid
  · refine (uses_check redis).bind fun v => (uses_refuse v).bind fun _ => ?_
    by_cases hres : redis.Reservable
    · rw [advanceWitness_of_reservable hres]
      exact ⟨⟨hres, rfl, rfl⟩, fun answer => Prog.uses_lift⟩
    · rw [advanceWitness_of_not_reservable hvalid hres]
      trivial
  · obtain ⟨e, he⟩ := @check_of_not_valid g redis hvalid
    unfold reserve
    rw [he]
    trivial

theorem uses_provision (genesisEpoch : JsString) :
    (g.provision genesisEpoch).Uses (CheckpointOp.SentFor redis) := by
  unfold provision
  refine Prog.uses_lift.bind fun _ => ⟨trivial, fun answer => ?_⟩
  refine Prog.uses_lift.bind fun allowed => ?_
  exact Prog.uses_lift.bind fun _ => ⟨trivial, fun created => Prog.uses_lift⟩

end RollbackCheckpointGuard

end Checkpoint
