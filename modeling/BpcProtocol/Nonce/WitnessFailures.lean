import BpcProtocol.Lib.History
import BpcProtocol.Nonce.Checkpoint
import BpcProtocol.Pair.Middleware

set_option autoImplicit false

/-! # A witness that fails

The guard against a witness that throws, or answers anything, at any call. What it reads to decide is
checked, and what that read throws is wrapped; the second read, for the error of a refusal, is
neither. -/

namespace Checkpoint

open Fallible Async
open Js (lit)
open Pair (truthy stringOf)

/-! ## What the guard throws -/

/-- What a caller of the guard is thrown, with what the witness has answered. -/
inductive GuardError where
  | rollbackDetected (redisSequence : JsNumber) (witnessSequence : JsValue)
  | redisAhead (redisSequence : JsNumber) (witnessSequence : JsValue)
  | witnessMissing (ns : JsString)
  | checkpointUnavailable
  | checkpointInconsistent (redisEpoch : JsString) (witnessEpoch : JsValue)
  | checkpointConflict
  | malformedCas (expected : CheckpointState) (got : JsValue)
  | sequenceExhausted (sequence : JsNumber)
  | notAuthorized
  | continuityValidation (message : String)
  | typeError
  | error (message : String)

/-- The errors of the module. -/
def GuardError.typed : GuardError → Bool
  | .typeError => false
  | .error _ => false
  | _ => true

/-- `{ epoch, sequence }`. -/
def CheckpointState.toJs (s : CheckpointState) : JsValue :=
  .object [(lit "epoch", .string s.epoch), (lit "sequence", .number s.sequence)]

/-- An error of the guard over a witness that answers states. -/
def CheckpointError.toGuard : CheckpointError → GuardError
  | .rollbackDetected redisSequence witnessSequence =>
      .rollbackDetected redisSequence (.number witnessSequence)
  | .redisAhead redisSequence witnessSequence => .redisAhead redisSequence (.number witnessSequence)
  | .witnessMissing ns => .witnessMissing ns
  | .checkpointUnavailable => .checkpointUnavailable
  | .checkpointInconsistent redisEpoch witnessEpoch =>
      .checkpointInconsistent redisEpoch (.string witnessEpoch)
  | .checkpointConflict => .checkpointConflict
  | .malformedCas expected got => .malformedCas expected got.toJs
  | .sequenceExhausted sequence => .sequenceExhausted sequence
  | .notAuthorized => .notAuthorized
  | .continuityValidation message => .continuityValidation message
  | .typeError => .typeError
  | .error message => .error message

/-- What throws an error of the typed guard. -/
def toGuard {α : Type} (x : Except CheckpointError α) : Except GuardError α :=
  x.mapError CheckpointError.toGuard

/-! ## What the witness answers -/

/-- The witness throws, or answers any value. -/
abbrev CheckpointOp.AnyAnswer : CheckpointOp → Type
  | authorizeProvision _ _ => Except GuardError Bool
  | read _ | compareAndAdvance _ _ _ | createGenesis _ _ => Except GuardError JsValue

abbrev WitnessProg (α : Type) := Prog CheckpointOp CheckpointOp.AnyAnswer GuardError α

abbrev WitnessMade := Made CheckpointOp CheckpointOp.AnyAnswer

def numberOf : JsValue → Option JsNumber
  | .number n => some n
  | _ => none

/-- The state that a value is read as. What is no string or no number becomes one that fails the
    same check with the same message. -/
def stateOf (s : JsValue) : CheckpointState :=
  ⟨(stringOf (s.get (lit "epoch"))).getD [], (numberOf (s.get (lit "sequence"))).getD .nan⟩

/-- `s && typeof s === 'object'`. -/
def isObject : JsValue → Bool
  | .array _ | .object _ => true
  | _ => false

/-- `catch (err) { throw new CheckpointUnavailableError(err) }`. -/
def orOutage : Except GuardError JsValue → Except GuardError JsValue
  | .ok v => .ok v
  | .error _ => .error .checkpointUnavailable

/-- The same, but for a conflict. -/
def conflictOrOutage : Except GuardError JsValue → Except GuardError JsValue
  | .ok v => .ok v
  | .error .checkpointConflict => .error .checkpointConflict
  | .error _ => .error .checkpointUnavailable

/-! ## The guard -/

namespace AnyWitness

variable (g : RollbackCheckpointGuard)

/-- What `check` makes of what it has read. -/
def verdict (redis : RedisSequenceView) : JsValue → Except GuardError RollbackVerdict
  | .null => .ok .witnessMissing
  | current => do
      require (isObject current = true) (.continuityValidation "witness must be a state object")
      toGuard (RollbackCheckpointGuard.verdict redis (some (stateOf current)))

/-- `check(redis)`. -/
def check (redis : RedisSequenceView) : WitnessProg RollbackVerdict := do
  Prog.lift (toGuard (assertId redis.epoch "redis.epoch"))
  Prog.lift (toGuard (assertSeq redis.sequence "redis.sequence"))
  let answer ← Prog.perform (.read g.ns)
  let current ← Prog.lift (orOutage answer)
  Prog.lift (verdict redis current)

/-- `w.sequence`. -/
def sequenceOf : JsValue → Except GuardError JsValue
  | .null | .undefined => .error .typeError
  | w => .ok (w.get (lit "sequence"))

/-- `new E(…, v)`, of an error whose message holds `v`. -/
def withText (v : JsValue) (e : GuardError) : GuardError :=
  if Js.hasText v = true then e else .typeError

/-- `switch (verdict)`. -/
def refuse (redis : RedisSequenceView) : RollbackVerdict → WitnessProg Unit
  | .witnessMissing => .fail (.witnessMissing g.ns)
  | .epochMismatch => do
      let answer ← Prog.perform (.read g.ns)
      let w ← Prog.lift answer
      let epoch := if truthy w = true then w.get (lit "epoch") else .string (lit "(none)")
      .fail (withText epoch (.checkpointInconsistent redis.epoch epoch))
  | .rollback => do
      let answer ← Prog.perform (.read g.ns)
      let w ← Prog.lift answer
      let sequence ← Prog.lift (sequenceOf w)
      .fail (withText sequence (.rollbackDetected redis.sequence sequence))
  | .redisAhead => do
      let answer ← Prog.perform (.read g.ns)
      let w ← Prog.lift answer
      let sequence ← Prog.lift (sequenceOf w)
      .fail (withText sequence (.redisAhead redis.sequence sequence))
  | .ok => pure ()

/-- The result is exactly the state that was asked for. -/
def isState (s : CheckpointState) (result : JsValue) : Bool :=
  truthy result && decide (stringOf (result.get (lit "epoch")) = some s.epoch) &&
    (numberOf (result.get (lit "sequence"))).any fun n => n.eq s.sequence

/-- The sequence that is returned, if the witness has returned exactly the state asked for. -/
def accept (next : CheckpointState) (result : JsValue) : Except GuardError JsNumber := do
  require (isState next result = true) (.malformedCas next result)
  pure (stateOf result).sequence

/-- What `reserve` does once the witness was found to agree. -/
def advanceWitness (redis : RedisSequenceView) : WitnessProg JsNumber := do
  Prog.lift (require (redis.sequence.ge maxSequence = false) (.sequenceExhausted redis.sequence))
  let next := RollbackCheckpointGuard.next redis
  let answer ← Prog.perform (.compareAndAdvance g.ns (some redis) next)
  let result ← Prog.lift (conflictOrOutage answer)
  Prog.lift (accept next result)

/-- `reserve(redis)`. -/
def reserve (redis : RedisSequenceView) : WitnessProg JsNumber := do
  let verdict ← check g redis
  refuse g redis verdict
  advanceWitness g redis

/-! ## Checks -/

section Checks

variable {α β : Type} {redis : RedisSequenceView}

/-- What it throws is a failed check. -/
def Validates (x : Except GuardError α) : Prop :=
  ∀ e, x = .error e → ∃ message, e = .continuityValidation message

theorem validates_require {p : Prop} [Decidable p] {message : String} :
    Validates (require p (.continuityValidation message)) := by
  intro e he
  by_cases hp : p
  · rw [require_of hp] at he
    cases he
  · rw [require_of_not hp] at he
    cases he
    exact ⟨message, rfl⟩

theorem Validates.bind {x : Except GuardError α} {f : α → Except GuardError β} (hx : Validates x)
    (hf : ∀ a, Validates (f a)) : Validates (x >>= f) := by
  intro e he
  rcases (bind_eq_error _ _ _).mp he with hx' | ⟨a, -, ha⟩
  · exact hx e hx'
  · exact hf a e ha

theorem toGuard_require {p : Prop} [Decidable p] {e : CheckpointError} :
    toGuard (require p e) = require p e.toGuard := by
  by_cases hp : p
  · rw [require_of hp, require_of hp]
    rfl
  · rw [require_of_not hp, require_of_not hp]
    rfl

theorem toGuard_bind (x : Except CheckpointError α) (f : α → Except CheckpointError β) :
    toGuard (x >>= f) = toGuard x >>= fun a => toGuard (f a) := by
  cases x <;> rfl

theorem toGuard_eq_ok {x : Except CheckpointError α} {a : α} : toGuard x = .ok a ↔ x = .ok a := by
  cases x with
  | ok b => simp [toGuard, Except.mapError]
  | error e => simp [toGuard, Except.mapError]

theorem validates_assertId (v : JsString) (label : String) :
    Validates (toGuard (assertId v label)) := by
  rw [assertId, toGuard_require]
  exact validates_require

theorem validates_assertSeq (n : JsNumber) (label : String) :
    Validates (toGuard (assertSeq n label)) := by
  rw [assertSeq, toGuard_require]
  exact validates_require

theorem validates_verdict (current : JsValue) : Validates (verdict redis current) := by
  have hstate : Validates (toGuard (RollbackCheckpointGuard.verdict redis (some (stateOf current)))) := by
    simp only [RollbackCheckpointGuard.verdict, assertState, toGuard_bind]
    refine ((validates_assertId _ _).bind fun _ => validates_assertSeq _ _).bind fun _ => ?_
    intro e he
    cases he
  cases current with
  | null => intro e he; cases he
  | _ => exact validates_require.bind fun _ => hstate

/-- What a verdict tells of what was read. -/
def Tells (redis : RedisSequenceView) (current : JsValue) : RollbackVerdict → Prop
  | .witnessMissing => current = .null
  | .epochMismatch => (stateOf current).Valid ∧ (stateOf current).epoch ≠ redis.epoch
  | .rollback => (stateOf current).Valid ∧ (stateOf current).epoch = redis.epoch ∧
      redis.sequence.lt (stateOf current).sequence = true
  | .redisAhead => (stateOf current).Valid ∧ (stateOf current).epoch = redis.epoch ∧
      (stateOf current).sequence.lt redis.sequence = true
  | .ok => stateOf current = redis

theorem tells_of_verdict (hvalid : redis.Valid) {current : JsValue} {v : RollbackVerdict}
    (h : verdict redis current = .ok v) : Tells redis current v := by
  have hstate : RollbackCheckpointGuard.verdict redis (some (stateOf current)) = .ok v ∨
      current = .null ∧ v = .witnessMissing := by
    have hcheck : ∀ w : JsValue, (require (isObject w = true)
        (GuardError.continuityValidation "witness must be a state object") >>= fun _ =>
          toGuard (RollbackCheckpointGuard.verdict redis (some (stateOf w)))) = .ok v →
        RollbackCheckpointGuard.verdict redis (some (stateOf w)) = .ok v := by
      intro w hw
      obtain ⟨-, -, hw⟩ := (bind_eq_ok _ _ _).mp hw
      exact toGuard_eq_ok.mp hw
    cases current with
    | null =>
        cases h
        exact .inr ⟨rfl, rfl⟩
    | _ => exact .inl (hcheck _ h)
  rcases hstate with hstate | ⟨rfl, rfl⟩
  · obtain ⟨u, hu, hv⟩ := (bind_eq_ok _ _ _).mp hstate
    have hcurrent := assertState_eq_ok.mp hu
    have hbranch := (pure_eq_ok _ _).mp hv
    split at hbranch
    · next hepoch =>
        subst hbranch
        exact ⟨hcurrent, hepoch⟩
    · next hepoch =>
        split at hbranch
        · next hlt =>
            subst hbranch
            exact ⟨hcurrent, not_not.mp hepoch, hlt⟩
        · next =>
            split at hbranch
            · next hlt =>
                subst hbranch
                exact ⟨hcurrent, not_not.mp hepoch, hlt⟩
            · subst hbranch
              exact Option.some.inj ((RollbackCheckpointGuard.verdict_eq_ok hvalid).mp hstate)
  · rfl

end Checks

/-! ## A witness that answers states -/

section Typed

variable {α β : Type} {g : RollbackCheckpointGuard} {redis : RedisSequenceView}

theorem stateOf_toJs (s : CheckpointState) : stateOf s.toJs = s :=
  rfl

theorem verdict_toJs (s : CheckpointState) :
    verdict redis s.toJs = toGuard (RollbackCheckpointGuard.verdict redis (some s)) :=
  rfl

/-- What a witness that answers states answers. -/
def toAny : (o : CheckpointOp) → o.Answer → o.AnyAnswer
  | .authorizeProvision _ _, x => toGuard x
  | .read _, x => toGuard (x.map fun s => s.elim .null CheckpointState.toJs)
  | .compareAndAdvance _ _ _, x => toGuard (x.map CheckpointState.toJs)
  | .createGenesis _ _, x => toGuard (x.map CheckpointState.toJs)

/-- Of a witness that answers states the two programs do the same. -/
def Mirrors : CheckpointProg α → WitnessProg α → Prop
  | .ret a, q => q = .ret a
  | .fail e, q => q = .fail e.toGuard
  | .await o k, q => ∃ k', q = .await o k' ∧ ∀ answer, Mirrors (k answer) (k' (toAny o answer))

theorem Mirrors.bind {p : CheckpointProg α} {q : WitnessProg α} {f : α → CheckpointProg β}
    {f' : α → WitnessProg β} (h : Mirrors p q) (hf : ∀ a, Mirrors (f a) (f' a)) :
    Mirrors (p >>= f) (q >>= f') := by
  induction p generalizing q with
  | ret a =>
      cases h
      exact hf a
  | fail e =>
      cases h
      rfl
  | await o k ih =>
      obtain ⟨k', rfl, hk⟩ := h
      exact ⟨_, rfl, fun answer => ih answer (hk answer)⟩

theorem mirrors_lift {x : Except CheckpointError α} {y : Except GuardError α} (h : y = toGuard x) :
    Mirrors (Prog.lift x) (Prog.lift y) := by
  subst h
  cases x <;> rfl

theorem mirrors_check : Mirrors (g.check redis) (check g redis) := by
  refine (mirrors_lift rfl).bind fun _ => (mirrors_lift rfl).bind fun _ => ⟨_, rfl, fun answer => ?_⟩
  cases answer with
  | error e => rfl
  | ok s =>
      cases s with
      | none => rfl
      | some s => exact mirrors_lift (verdict_toJs s)

theorem mirrors_refuse (v : RollbackVerdict) : Mirrors (g.refuse redis v) (refuse g redis v) := by
  cases v with
  | ok => rfl
  | witnessMissing => rfl
  | _ =>
      refine ⟨_, rfl, fun answer => ?_⟩
      cases answer with
      | error e => rfl
      | ok s => cases s <;> rfl

theorem accept_toJs (s : CheckpointState) :
    accept (RollbackCheckpointGuard.next redis) s.toJs =
      toGuard (RollbackCheckpointGuard.accept redis s) := by
  have hstate : isState (RollbackCheckpointGuard.next redis) s.toJs = true ↔
      s.epoch = (RollbackCheckpointGuard.next redis).epoch ∧
        s.sequence.eq (RollbackCheckpointGuard.next redis).sequence = true := by
    have hepoch : stringOf (s.toJs.get (lit "epoch")) = some s.epoch := rfl
    have hsequence : numberOf (s.toJs.get (lit "sequence")) = some s.sequence := rfl
    have htruthy : truthy s.toJs = true := rfl
    simp [isState, hepoch, hsequence, htruthy]
  unfold accept RollbackCheckpointGuard.accept
  by_cases h : isState (RollbackCheckpointGuard.next redis) s.toJs = true
  · rw [require_of h, require_of (hstate.mp h)]
    rfl
  · rw [require_of_not h, require_of_not fun h' => h (hstate.mpr h')]
    rfl

theorem mirrors_advanceWitness : Mirrors (g.advanceWitness redis) (advanceWitness g redis) := by
  refine (mirrors_lift toGuard_require.symm).bind fun _ => ⟨_, rfl, fun answer => ?_⟩
  cases answer with
  | error e => cases e <;> rfl
  | ok s => exact mirrors_lift (accept_toJs s)

/-- The guard of this module is the one over states, where the witness answers states. -/
theorem mirrors_reserve : Mirrors (g.reserve redis) (reserve g redis) :=
  mirrors_check.bind fun v => (mirrors_refuse v).bind fun _ => mirrors_advanceWitness

end Typed

/-! ## Runs -/

section Runs

variable {α : Type} {g : RollbackCheckpointGuard} {redis : RedisSequenceView} {es : List WitnessMade}

/-- A call in which the witness was out: it has thrown, other than to refuse an advance. -/
def Out : WitnessMade → Prop
  | ⟨.read _, .error _⟩ => True
  | ⟨.compareAndAdvance _ _ _, .error e⟩ => e ≠ .checkpointConflict
  | _ => False

/-- A run that has ended with `x` returns what is verified, or throws an error of the module, and an
    outage is thrown as one. -/
structure FailsClosed (verified : List WitnessMade → α → Prop) (es : List WitnessMade)
    (x : Except GuardError α) : Prop where
  returns : ∀ a, x = .ok a → verified es a
  throws : ∀ e, x = .error e → e.typed = true
  outage : ∀ m ∈ es, Out m → x = .error .checkpointUnavailable

/-- A verdict is what the witness was read to be. -/
def VerifiedVerdict (g : RollbackCheckpointGuard) (redis : RedisSequenceView)
    (es : List WitnessMade) (v : RollbackVerdict) : Prop :=
  ∃ current, es = [⟨.read g.ns, .ok current⟩] ∧ Tells redis current v

/-- A reserved sequence is that of the state behind the one read, which the witness has advanced to. -/
def VerifiedSequence (g : RollbackCheckpointGuard) (redis : RedisSequenceView)
    (es : List WitnessMade) (n : JsNumber) : Prop :=
  ∃ current result, es = [⟨.read g.ns, .ok current⟩,
      ⟨.compareAndAdvance g.ns (some redis) (redis.advance 1), .ok result⟩] ∧
    stateOf current = redis ∧ stateOf result = redis.advance 1 ∧ n = (redis.advance 1).sequence

theorem check_of_valid (h : redis.Valid) : check g redis =
    .await (.read g.ns) fun answer => Prog.lift (orOutage answer >>= verdict redis) := by
  have hepoch : assertId redis.epoch "redis.epoch" = .ok () := require_of h.1 _
  have hseq : assertSeq redis.sequence "redis.sequence" = .ok () := assertSeq_eq_ok.mpr h.2
  unfold check
  rw [hepoch, hseq]
  refine congrArg (Prog.await _) (funext fun answer => ?_)
  cases answer <;> rfl

theorem check_of_not_valid (h : ¬redis.Valid) :
    ∃ message, check g redis = .fail (.continuityValidation message) := by
  unfold check
  cases hepoch : toGuard (assertId redis.epoch "redis.epoch") with
  | error e =>
      obtain ⟨message, rfl⟩ := validates_assertId _ _ e hepoch
      exact ⟨message, rfl⟩
  | ok u =>
      cases hseq : toGuard (assertSeq redis.sequence "redis.sequence") with
      | error e =>
          obtain ⟨message, rfl⟩ := validates_assertSeq _ _ e hseq
          exact ⟨message, rfl⟩
      | ok v =>
          rw [toGuard_eq_ok, assertId, require_eq_ok] at hepoch
          exact absurd ⟨hepoch, assertSeq_eq_ok.mp (toGuard_eq_ok.mp hseq)⟩ h

/-- What `check` has come to when it has ended. -/
theorem ended_check {x : Except GuardError RollbackVerdict}
    (h : Trace (check g redis) es (Prog.lift x)) :
    (es = [] ∧ ∃ message, x = .error (.continuityValidation message)) ∨
      redis.Valid ∧ ∃ answer, es = [⟨.read g.ns, answer⟩] ∧ x = (orOutage answer >>= verdict redis) := by
  by_cases hvalid : redis.Valid
  · rw [check_of_valid hvalid] at h
    obtain ⟨answer, es', rfl, hrest⟩ := trace_await_lift.mp h
    obtain ⟨rfl, rfl⟩ := trace_lift.mp hrest
    exact .inr ⟨hvalid, answer, rfl, rfl⟩
  · obtain ⟨message, hfail⟩ := check_of_not_valid (g := g) hvalid
    rw [hfail] at h
    obtain ⟨rfl, rfl⟩ := trace_fail_lift.mp h
    exact .inl ⟨rfl, message, rfl⟩

theorem failsClosed_of_error {verified : List WitnessMade → α → Prop} {x : Except GuardError α}
    {e : GuardError} (hx : x = .error e) (htyped : e.typed = true)
    (hout : ∀ m ∈ es, Out m → e = .checkpointUnavailable) : FailsClosed verified es x := by
  subst hx
  refine ⟨fun a ha => ?_, fun e' he => ?_, fun m hm hout' => ?_⟩
  · cases ha
  · cases he
    exact htyped
  · rw [hout m hm hout']

theorem typed_of_validates {x : Except GuardError α} (h : Validates x) {e : GuardError}
    (he : x = .error e) : e.typed = true := by
  obtain ⟨message, rfl⟩ := h e he
  rfl

/-- `check` fails closed, whatever the witness does. -/
theorem check_failsClosed {x : Except GuardError RollbackVerdict}
    (h : Trace (check g redis) es (Prog.lift x)) : FailsClosed (VerifiedVerdict g redis) es x := by
  obtain ⟨rfl, message, rfl⟩ | ⟨hvalid, answer, rfl, rfl⟩ := ended_check h
  · exact failsClosed_of_error rfl rfl (by simp)
  · cases answer with
    | error e => exact failsClosed_of_error rfl rfl fun _ _ _ => rfl
    | ok current =>
        refine ⟨fun v hv => ⟨current, rfl, tells_of_verdict hvalid hv⟩, fun e he => ?_, ?_⟩
        · exact typed_of_validates (validates_verdict current) he
        · intro m hm hout
          rw [List.mem_singleton.mp hm] at hout
          exact hout.elim

/-! ## The second read -/

/-- What a refusal throws, by what the second read has come to. -/
def refusal (redis : RedisSequenceView) : RollbackVerdict → Except GuardError JsValue → GuardError
  | .epochMismatch, .ok w =>
      let epoch := if truthy w = true then w.get (lit "epoch") else .string (lit "(none)")
      withText epoch (.checkpointInconsistent redis.epoch epoch)
  | .rollback, .ok w =>
      match sequenceOf w with
      | .ok sequence => withText sequence (.rollbackDetected redis.sequence sequence)
      | .error e => e
  | .redisAhead, .ok w =>
      match sequenceOf w with
      | .ok sequence => withText sequence (.redisAhead redis.sequence sequence)
      | .error e => e
  | _, .error e => e
  | _, .ok _ => .typeError

/-- The verdicts for whose errors the witness is read again. -/
def rereads : RollbackVerdict → Bool
  | .epochMismatch | .rollback | .redisAhead => true
  | .ok | .witnessMissing => false

theorem refuse_of_rereads {v : RollbackVerdict} (h : rereads v = true)
    (f : Unit → WitnessProg α) : (refuse g redis v >>= f) =
      .await (.read g.ns) fun answer => .fail (refusal redis v answer) := by
  cases v with
  | ok => cases h
  | witnessMissing => cases h
  | epochMismatch =>
      refine congrArg (Prog.await _) (funext fun answer => ?_)
      cases answer <;> rfl
  | rollback =>
      refine congrArg (Prog.await _) (funext fun answer => ?_)
      cases answer with
      | error e => rfl
      | ok w =>
          cases hw : sequenceOf w with
          | error e => simp [refusal, hw, Prog.lift, Prog.bind, Bind.bind]
          | ok sequence => simp [refusal, hw, Prog.lift, Prog.bind, Bind.bind]
  | redisAhead =>
      refine congrArg (Prog.await _) (funext fun answer => ?_)
      cases answer with
      | error e => rfl
      | ok w =>
          cases hw : sequenceOf w with
          | error e => simp [refusal, hw, Prog.lift, Prog.bind, Bind.bind]
          | ok sequence => simp [refusal, hw, Prog.lift, Prog.bind, Bind.bind]

/-- The second read holds: it throws no more than that the checkpoint is unavailable, and what it
    answers can be written into the error. -/
def Holds : RollbackVerdict → Except GuardError JsValue → Prop
  | _, .error e => e = .checkpointUnavailable
  | .epochMismatch, .ok w => truthy w = true → Js.hasText (w.get (lit "epoch")) = true
  | _, .ok w => ∃ sequence, sequenceOf w = .ok sequence ∧ Js.hasText sequence = true

theorem withText_typed {v : JsValue} {e : GuardError} (h : e.typed = true) :
    (withText v e).typed = true ↔ Js.hasText v = true := by
  unfold withText
  split
  · next hv => simp [h, hv]
  · next hv => simp [GuardError.typed, hv]

theorem sequenceOf_error {w : JsValue} {e : GuardError} (h : sequenceOf w = .error e) :
    e.typed = false := by
  cases w <;> cases h <;> rfl

theorem holds_iff (redis : RedisSequenceView) {v : RollbackVerdict} (h : rereads v = true)
    (answer : Except GuardError JsValue) :
    Holds v answer ↔ (refusal redis v answer).typed = true ∧
      ((∃ e, answer = .error e) → refusal redis v answer = .checkpointUnavailable) := by
  cases answer with
  | error e =>
      have hrefusal : refusal redis v (.error e) = e := by cases v <;> rfl
      have hholds : Holds v (.error e) ↔ e = .checkpointUnavailable := by cases v <;> exact Iff.rfl
      rw [hrefusal, hholds]
      constructor
      · rintro rfl
        exact ⟨rfl, fun _ => rfl⟩
      · exact fun h => h.2 ⟨e, rfl⟩
  | ok w =>
      have hanswered : ¬∃ e, (Except.ok w : Except GuardError JsValue) = .error e := by simp
      have hsequence : ∀ error : JsValue → GuardError, (∀ s, (error s).typed = true) →
          ((∃ s, sequenceOf w = .ok s ∧ Js.hasText s = true) ↔ (match sequenceOf w with
            | .ok s => withText s (error s)
            | .error e => e).typed = true) := by
        intro error htyped
        cases hw : sequenceOf w with
        | error e => simp [sequenceOf_error hw]
        | ok s => simp [withText_typed (htyped s)]
      simp only [hanswered, false_implies, and_true]
      cases v with
      | ok => cases h
      | witnessMissing => cases h
      | epochMismatch =>
          refine Iff.trans ?_ (withText_typed rfl).symm
          by_cases hw : truthy w = true
          · simp [Holds, hw]
          · simp [Holds, hw, Js.hasText]
      | rollback => exact hsequence _ fun _ => rfl
      | redisAhead => exact hsequence _ fun _ => rfl

/-- Where the witness has been read twice, the second read held. -/
def SecondReadHolds (g : RollbackCheckpointGuard) (redis : RedisSequenceView)
    (es : List WitnessMade) : Prop :=
  ∀ first second v, es = [⟨.read g.ns, first⟩, ⟨.read g.ns, second⟩] →
    (orOutage first >>= verdict redis) = .ok v → Holds v second

theorem secondReadHolds_of_ne (h : ∀ first second,
    es ≠ [⟨.read g.ns, first⟩, ⟨.read g.ns, second⟩]) : SecondReadHolds g redis es :=
  fun first second _ hes => absurd hes (h first second)

/-- A run that throws after a second read. -/
theorem refused_iff {v : RollbackVerdict} {current : JsValue} {second : Except GuardError JsValue}
    {verified : List WitnessMade → α → Prop} (hrereads : rereads v = true)
    (hverdict : verdict redis current = .ok v) :
    FailsClosed verified [⟨.read g.ns, .ok current⟩, ⟨.read g.ns, second⟩]
        (.error (refusal redis v second)) ↔
      SecondReadHolds g redis [⟨.read g.ns, .ok current⟩, ⟨.read g.ns, second⟩] := by
  have hholds : SecondReadHolds g redis [⟨.read g.ns, .ok current⟩, ⟨.read g.ns, second⟩] ↔
      Holds v second := by
    constructor
    · exact fun h => h _ _ v rfl hverdict
    · intro h first second' v' hes hv'
      simp only [List.cons.injEq, Sigma.mk.injEq, heq_eq_eq, true_and, and_true] at hes
      obtain ⟨rfl, rfl⟩ := hes
      obtain rfl := Except.ok.inj (hverdict.symm.trans hv')
      exact h
  rw [hholds, holds_iff redis hrereads second]
  constructor
  · intro h
    refine ⟨h.throws _ rfl, ?_⟩
    rintro ⟨e, rfl⟩
    exact Except.error.inj (h.outage ⟨.read g.ns, .error e⟩ (by simp) trivial)
  · rintro ⟨htyped, hout⟩
    refine failsClosed_of_error rfl htyped fun m hm hout' => hout ?_
    rcases List.mem_cons.mp hm with rfl | hm
    · exact hout'.elim
    · rw [List.mem_singleton.mp hm] at hout'
      cases second with
      | error e => exact ⟨e, rfl⟩
      | ok w => exact hout'.elim

/-! ## Reservations -/

theorem advanceWitness_of_reservable (h : redis.Reservable) :
    advanceWitness g redis =
      .await (.compareAndAdvance g.ns (some redis) (redis.advance 1)) fun answer =>
        Prog.lift (conflictOrOutage answer >>= accept (redis.advance 1)) := by
  obtain ⟨-, n, hn, hlt⟩ := id h
  have hmax : redis.sequence.ge maxSequence = false := by
    rw [hn, maxSequence, JsNumber.ge_fin]
    refine decide_eq_false (not_le.mpr ?_)
    exact_mod_cast hlt
  unfold advanceWitness
  rw [require_of hmax, RollbackCheckpointGuard.next_eq_advance h]
  refine congrArg (Prog.await _) (funext fun answer => ?_)
  show Prog.bind _ (Prog.lift (conflictOrOutage answer)) = _
  cases conflictOrOutage answer <;> rfl

theorem advanceWitness_of_not_reservable (hvalid : redis.Valid) (h : ¬redis.Reservable) :
    advanceWitness g redis = .fail (.sequenceExhausted redis.sequence) := by
  unfold advanceWitness
  rw [require_of_not fun hmax => h (RollbackCheckpointGuard.reservable_of_valid hvalid hmax)]
  rfl

/-- What is accepted is read as the state asked for. -/
theorem stateOf_of_accept (h : redis.Reservable) {result : JsValue} {n : JsNumber}
    (haccept : accept (redis.advance 1) result = .ok n) :
    stateOf result = redis.advance 1 ∧ n = (redis.advance 1).sequence := by
  obtain ⟨-, m, hm, -⟩ := id h
  have hadvance := CheckpointState.advance_of_eq hm 1
  obtain ⟨_, hstate, hn⟩ := (bind_eq_ok _ _ _).mp haccept
  rw [require_eq_ok, isState, Bool.and_eq_true, Bool.and_eq_true, decide_eq_true_eq] at hstate
  obtain ⟨⟨-, hepoch⟩, hsequence⟩ := hstate
  rw [hadvance] at hsequence hepoch ⊢
  have hnumber : numberOf (result.get (lit "sequence")) = some (.fin ((m + 1 : ℕ) : ℚ)) := by
    cases hk : numberOf (result.get (lit "sequence")) with
    | none =>
        rw [hk] at hsequence
        cases hsequence
    | some k =>
        rw [hk] at hsequence
        cases k with
        | fin q => exact congrArg some (of_decide_eq_true hsequence)
        | nan => cases hsequence
        | posInf => cases hsequence
        | negInf => cases hsequence
  have hstate : stateOf result = ⟨redis.epoch, .fin ((m + 1 : ℕ) : ℚ)⟩ := by
    rw [stateOf, hepoch, hnumber]
    rfl
  refine ⟨hstate, ?_⟩
  rw [hstate] at hn
  exact ((pure_eq_ok _ _).mp hn).symm

theorem accept_error {s : CheckpointState} {result : JsValue} {e : GuardError}
    (h : accept s result = .error e) : e = .malformedCas s result := by
  unfold accept at h
  by_cases hstate : isState s result = true
  · rw [require_of hstate] at h
    cases h
  · rw [require_of_not hstate] at h
    cases h
    rfl

/-- A reservation that has found the witness to agree fails closed. -/
theorem advance_failsClosed (hvalid : redis.Valid) {current : JsValue}
    (hcurrent : stateOf current = redis) {x : Except GuardError JsNumber}
    (h : Trace (advanceWitness g redis) es (Prog.lift x)) :
    FailsClosed (VerifiedSequence g redis) (⟨.read g.ns, .ok current⟩ :: es) x ∧
      SecondReadHolds g redis (⟨.read g.ns, .ok current⟩ :: es) := by
  by_cases hres : redis.Reservable
  · rw [advanceWitness_of_reservable hres] at h
    obtain ⟨answer, es', rfl, hrest⟩ := trace_await_lift.mp h
    obtain ⟨rfl, rfl⟩ := trace_lift.mp hrest
    refine ⟨?_, secondReadHolds_of_ne fun first second hes => ?_⟩
    · cases answer with
      | error e =>
          have hwrapped : (conflictOrOutage (.error e) >>= accept (redis.advance 1)) =
              .error .checkpointConflict ∧ e = .checkpointConflict ∨
              (conflictOrOutage (.error e) >>= accept (redis.advance 1)) =
                .error .checkpointUnavailable := by
            cases e with
            | checkpointConflict => exact .inl ⟨rfl, rfl⟩
            | _ => exact .inr rfl
          rcases hwrapped with ⟨hx, rfl⟩ | hx
          · refine failsClosed_of_error hx rfl fun m hm hout => ?_
            simp only [List.mem_cons, List.not_mem_nil, or_false] at hm
            rcases hm with rfl | rfl
            · exact hout.elim
            · exact absurd rfl hout
          · exact failsClosed_of_error hx rfl fun _ _ _ => rfl
      | ok result =>
          refine ⟨fun n hn => ?_, fun e he => ?_, fun m hm hout => ?_⟩
          · obtain ⟨hstate, rfl⟩ := stateOf_of_accept hres hn
            exact ⟨current, result, rfl, hcurrent, hstate, rfl⟩
          · have hmalformed : e = .malformedCas (redis.advance 1) result := by
              rcases (bind_eq_error _ _ _).mp he with hcaught | ⟨w, hw, haccept⟩
              · cases hcaught
              · cases hw
                exact accept_error haccept
            rw [hmalformed]
            rfl
          · simp only [List.mem_cons, List.not_mem_nil, or_false] at hm
            rcases hm with rfl | rfl <;> exact hout.elim
    · simp at hes
  · rw [advanceWitness_of_not_reservable hvalid hres] at h
    obtain ⟨rfl, rfl⟩ := trace_fail_lift.mp h
    refine ⟨failsClosed_of_error rfl rfl fun m hm hout => ?_,
      secondReadHolds_of_ne fun first second hes => ?_⟩
    · rw [List.mem_singleton.mp hm] at hout
      exact hout.elim
    · cases hes

/-- A run that throws, with no more than one read. -/
theorem failsClosed_iff_of_one {verified : List WitnessMade → α → Prop} {x : Except GuardError α}
    {e : GuardError} (hx : x = .error e) (htyped : e.typed = true)
    (hout : ∀ m ∈ es, Out m → e = .checkpointUnavailable) (hlen : es.length ≤ 1) :
    FailsClosed verified es x ↔ SecondReadHolds g redis es := by
  refine iff_of_true (failsClosed_of_error hx htyped hout) (secondReadHolds_of_ne ?_)
  rintro first second rfl
  simp at hlen

/-- A run of `reserve` that has ended fails closed exactly if the second read, where there was one,
    held. -/
theorem reserve_failsClosed_iff {x : Except GuardError JsNumber}
    (h : Trace (reserve g redis) es (Prog.lift x)) :
    FailsClosed (VerifiedSequence g redis) es x ↔ SecondReadHolds g redis es := by
  unfold reserve at h
  by_cases hvalid : redis.Valid
  · rw [check_of_valid hvalid] at h
    obtain ⟨answer, es', rfl, hrest⟩ := trace_await_lift.mp h
    replace hrest : Trace (Prog.lift (orOutage answer >>= verdict redis) >>= fun v =>
      refuse g redis v >>= fun _ => advanceWitness g redis) es' (Prog.lift x) := hrest
    cases answer with
    | error e =>
        obtain ⟨rfl, rfl⟩ := trace_fail_lift.mp hrest
        exact failsClosed_iff_of_one rfl rfl (fun _ _ _ => rfl) (by simp)
    | ok current =>
        have hread : ∀ m ∈ ([⟨.read g.ns, .ok current⟩] : List WitnessMade), ¬Out m := by
          intro m hm hout
          rw [List.mem_singleton.mp hm] at hout
          exact hout.elim
        change Trace (Prog.lift (verdict redis current) >>= fun v =>
          refuse g redis v >>= fun _ => advanceWitness g redis) es' (Prog.lift x) at hrest
        cases hverdict : verdict redis current with
        | error e =>
            rw [hverdict] at hrest
            obtain ⟨rfl, rfl⟩ := trace_fail_lift.mp hrest
            exact failsClosed_iff_of_one rfl (typed_of_validates (validates_verdict current) hverdict)
              (fun m hm hout => absurd hout (hread m hm)) (by simp)
        | ok v =>
            rw [hverdict] at hrest
            change Trace (refuse g redis v >>= fun _ => advanceWitness g redis) es'
              (Prog.lift x) at hrest
            cases hrereads : rereads v with
            | true =>
                rw [refuse_of_rereads hrereads] at hrest
                obtain ⟨second, es'', rfl, hend⟩ := trace_await_lift.mp hrest
                obtain ⟨rfl, rfl⟩ := trace_fail_lift.mp hend
                exact refused_iff hrereads hverdict
            | false =>
                cases v with
                | witnessMissing =>
                    obtain ⟨rfl, rfl⟩ := trace_fail_lift.mp hrest
                    exact failsClosed_iff_of_one rfl rfl
                      (fun m hm hout => absurd hout (hread m hm)) (by simp)
                | ok =>
                    have hcurrent : stateOf current = redis := tells_of_verdict hvalid hverdict
                    obtain ⟨hclosed, hsecond⟩ := advance_failsClosed hvalid hcurrent hrest
                    exact iff_of_true hclosed hsecond
                | _ => cases hrereads
  · obtain ⟨message, hfail⟩ := check_of_not_valid (g := g) hvalid
    rw [hfail] at h
    obtain ⟨rfl, rfl⟩ := trace_fail_lift.mp h
    exact failsClosed_iff_of_one rfl rfl (by simp) (by simp)

variable (g redis) in
/-- **The guard fails closed, but for its second read**: every run of `check` returns a verdict of what
    was read or throws an error of the module, and an outage as an unavailable checkpoint; a run of
    `reserve` does so exactly if its second read, where it made one, was no other outage and answered
    what can be written into the error. -/
theorem guard_failsClosed :
    (∀ es x, Trace (check g redis) es (Prog.lift x) → FailsClosed (VerifiedVerdict g redis) es x) ∧
      ∀ es x, Trace (reserve g redis) es (Prog.lift x) →
        (FailsClosed (VerifiedSequence g redis) es x ↔ SecondReadHolds g redis es) :=
  ⟨fun _ _ => check_failsClosed, fun _ _ => reserve_failsClosed_iff⟩

end Runs

/-! ## An outage between two reads -/

section Sample

def primaryGuard : RollbackCheckpointGuard :=
  ⟨lit "bpc/primary", rfl⟩

def sampleView (n : ℕ) : RedisSequenceView :=
  ⟨lit "epoch-1", .fin n⟩

/-- The witness is found two reservations ahead; the second read comes to `second`. -/
def behindRun (second : Except GuardError JsValue) : List WitnessMade :=
  [⟨.read primaryGuard.ns, .ok (sampleView 6).toJs⟩, ⟨.read primaryGuard.ns, second⟩]

theorem trace_behindRun (second : Except GuardError JsValue) :
    Trace (reserve primaryGuard (sampleView 4)) (behindRun second)
      (Prog.lift (.error (refusal (sampleView 4) .rollback second))) := by
  have hvalid : (sampleView 4).Valid := ⟨by decide +kernel, 4, rfl, by decide⟩
  have hahead : (sampleView 6).Valid := ⟨by decide +kernel, 6, rfl, by decide⟩
  have hverdict : verdict (sampleView 4) (sampleView 6).toJs = .ok .rollback := by
    have htyped : RollbackCheckpointGuard.verdict (sampleView 4) (some (sampleView 6)) = .ok .rollback :=
      RollbackCheckpointGuard.verdict_of_behind hahead rfl (by decide +kernel)
    rw [verdict_toJs, htyped]
    rfl
  rw [reserve, check_of_valid hvalid]
  refine .cons _ ?_
  change Trace (Prog.lift (verdict (sampleView 4) (sampleView 6).toJs) >>= fun v =>
    refuse primaryGuard (sampleView 4) v >>= fun _ => advanceWitness primaryGuard (sampleView 4)) _ _
  rw [hverdict]
  change Trace (refuse primaryGuard (sampleView 4) .rollback >>= fun _ =>
    advanceWitness primaryGuard (sampleView 4)) _ _
  rw [refuse_of_rereads rfl]
  exact .cons _ (.nil _)

theorem guard_failsClosed_sample :
    FailsClosed (VerifiedSequence primaryGuard (sampleView 4)) (behindRun (.ok (sampleView 6).toJs))
        (.error (refusal (sampleView 4) .rollback (.ok (sampleView 6).toJs))) ↔
      SecondReadHolds primaryGuard (sampleView 4) (behindRun (.ok (sampleView 6).toJs)) :=
  (guard_failsClosed primaryGuard (sampleView 4)).2 _ _ (trace_behindRun _)

/-- The witness goes out between the two reads, and what it throws is thrown as it is. -/
theorem second_outage_raw :
    ¬∀ (g : RollbackCheckpointGuard) (redis : RedisSequenceView) (es : List WitnessMade)
      (x : Except GuardError JsNumber), Trace (reserve g redis) es (Prog.lift x) →
        FailsClosed (VerifiedSequence g redis) es x := by
  intro hclaim
  have hclosed := hclaim _ _ _ _ (trace_behindRun (.error (.error "connection refused")))
  have htyped := hclosed.throws _ rfl
  cases htyped

end Sample

end AnyWitness

end Checkpoint
