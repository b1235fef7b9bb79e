import BpcProtocol.Js.Number
import BpcProtocol.Lib.Fallible
import BpcProtocol.Lib.Tracking
import BpcProtocol.Postgres.Statement

set_option autoImplicit false

/-! # The transaction adapter

`NodePostgresTransactor.transaction` runs a callback in a transaction of its own, on a connection
that it acquires for each attempt. Its program awaits the pool, the server and the callback; every
one of them may answer, fail, or be overtaken by an abort. -/

namespace Postgres

open Async

/-! ## What is thrown -/

/-- The classes of errors that are told apart. -/
inductive ErrorKind where
  | other
  | contractValidation
  | postCommitRelease
  | ambiguousCommit
  | connectionDisposal
  deriving DecidableEq

/-- A value thrown by the pool, the driver, the callback or the caller's signal: its class, its
    `code` where that is a text, and its message. -/
structure Thrown where
  kind : ErrorKind
  code : Option JsString
  message : String
  deriving DecidableEq

/-- An error before the commit: one passed on as it is, or a `ContractValidationError`. -/
inductive WorkError where
  | rethrown (e : Thrown)
  | contractValidation (message : String)
  deriving DecidableEq

/-- What `transaction` throws. A cause is the error that was being handled, and with it what
    disposing of the connection threw. -/
inductive TxError where
  | work (error : WorkError)
  | postCommitRelease (message : String) (cause : Option WorkError)
  | ambiguousCommit (error : TxError) (disposalError : Option Thrown)
  | connectionDisposal (error : TxError) (disposalError : Thrown)

/-- `error instanceof …`. -/
def TxError.kind : TxError → ErrorKind
  | work (.rethrown e) => e.kind
  | work (.contractValidation _) => .contractValidation
  | postCommitRelease _ _ => .postCommitRelease
  | ambiguousCommit _ _ => .ambiguousCommit
  | connectionDisposal _ _ => .connectionDisposal

/-- `error?.code`, where that is a text. -/
def TxError.code : TxError → Option JsString
  | work (.rethrown e) => e.code
  | _ => none

/-- `error.message`. -/
def TxError.message : TxError → String
  | work (.rethrown e) => e.message
  | work (.contractValidation message) => message
  | postCommitRelease message _ => message
  | ambiguousCommit _ _ =>
      "PostgreSQL COMMIT was dispatched but its outcome could not be confirmed; " ++
        "reconcile by idempotency key before retry"
  | connectionDisposal _ _ =>
      "PostgreSQL transaction failed and the connection could not be disposed"

/-- `RETRYABLE`. -/
def retryable : List JsString :=
  [Js.lit "40001", Js.lit "40P01"]

/-- Why the controller's signal is aborted. -/
inductive AbortReason where
  | deadline (transactionTimeoutMs : ℕ)
  | caller (e : Thrown)
  /-- The caller's reason is not an `Error`. -/
  | callerOther
  deriving DecidableEq

/-- `abortError(signal)`. -/
def AbortReason.error : AbortReason → WorkError
  | deadline ms =>
      .contractValidation ("PostgreSQL transaction deadline exceeded (" ++ toString ms ++ "ms)")
  | caller e => .rethrown e
  | callerOther => .contractValidation "PostgreSQL transaction aborted"

/-! ## Options -/

/-- A whole number within bounds. -/
abbrev Bounded (min max : ℕ) := { n : ℕ // min ≤ n ∧ n ≤ max }

/-- `MAX_TIMER_MS`. -/
abbrev maxTimerMs : ℕ := 2147483647

/-- `boundedInteger(value, label, min, max)`. -/
def boundedInteger (value : JsNumber) (label : String) (min max : ℕ) :
    Except WorkError (Bounded min max) :=
  let refused := WorkError.contractValidation (label ++ " must be a safe integer in [" ++
    toString min ++ ", " ++ toString max ++ "]")
  value.toInt?.elim (.error refused) fun i =>
    if h : (min : ℤ) ≤ i ∧ i ≤ max then .ok ⟨i.toNat, by omega⟩ else .error refused

/-- `NodePostgresTransactorOptions`. -/
structure NodePostgresTransactorOptions where
  statementTimeoutMs : Option JsNumber
  transactionTimeoutMs : Option JsNumber
  acquireTimeoutMs : Option JsNumber
  rollbackTimeoutMs : Option JsNumber
  maxSerializationRetries : Option JsNumber
  retryBaseDelayMs : Option JsNumber

/-- `NodePostgresTransactor`. -/
structure NodePostgresTransactor where
  statementTimeoutMs : Bounded 1 maxTimerMs
  transactionTimeoutMs : Bounded 1 maxTimerMs
  acquireTimeoutMs : Bounded 1 maxTimerMs
  rollbackTimeoutMs : Bounded 1 maxTimerMs
  maxSerializationRetries : Bounded 0 100
  retryBaseDelayMs : Bounded 1 1000

/-- The constructor of `NodePostgresTransactor`. -/
def NodePostgresTransactor.new (opts : NodePostgresTransactorOptions) :
    Except WorkError NodePostgresTransactor := do
  let statementTimeoutMs ←
    boundedInteger (opts.statementTimeoutMs.getD (.fin 30000)) "statementTimeoutMs" 1 maxTimerMs
  let transactionTimeoutMs ←
    boundedInteger (opts.transactionTimeoutMs.getD (.fin 35000)) "transactionTimeoutMs" 1 maxTimerMs
  let acquireTimeoutMs ←
    boundedInteger (opts.acquireTimeoutMs.getD (.fin 5000)) "acquireTimeoutMs" 1 maxTimerMs
  let rollbackTimeoutMs ←
    boundedInteger (opts.rollbackTimeoutMs.getD (.fin 1000)) "rollbackTimeoutMs" 1 maxTimerMs
  let maxSerializationRetries ←
    boundedInteger (opts.maxSerializationRetries.getD (.fin 0)) "maxSerializationRetries" 0 100
  let retryBaseDelayMs ←
    boundedInteger (opts.retryBaseDelayMs.getD (.fin 10)) "retryBaseDelayMs" 1 1000
  pure { statementTimeoutMs, transactionTimeoutMs, acquireTimeoutMs, rollbackTimeoutMs,
         maxSerializationRetries, retryBaseDelayMs }

/-! ## Operations -/

/-- `InitialExclusiveLock`. -/
structure InitialExclusiveLock where
  schema : JsString
  table : JsString

/-- What is sent to the server. -/
inductive Statement where
  /-- `BEGIN ISOLATION LEVEL SERIALIZABLE`. -/
  | begin
  /-- `SET LOCAL statement_timeout = …`. -/
  | setLocalTimeout (ms : ℕ)
  /-- `LOCK TABLE … IN ACCESS EXCLUSIVE MODE`. -/
  | lockTables (relations : List InitialExclusiveLock)
  /-- `SELECT set_config('statement_timeout', $1, true) AS statement_timeout`. -/
  | setConfigTimeout (ms : ℕ)
  /-- `SELECT … AS statement_timeout_ms`. -/
  | currentTimeout
  /-- `SELECT txid_current()::text AS txid`. -/
  | txidCurrent
  /-- A statement of the callback. -/
  | executor (sql : JsString) (params : List JsValue)
  | commit
  | discardAll

/-- `NodePostgresResult`. -/
structure NodePostgresResult where
  rows : List JsValue
  rowCount : Option JsNumber
  command : Option JsString

/-- `result.rows[0]?.name`. -/
def NodePostgresResult.first (result : NodePostgresResult) (name : String) : JsValue :=
  result.rows.head?.elim .undefined fun row => row.get (Js.lit name)

/-- `result.command === tag`. -/
def NodePostgresResult.Tagged (result : NodePostgresResult) (tag : String) : Prop :=
  result.command = some (Js.lit tag)

instance (result : NodePostgresResult) (tag : String) : Decidable (result.Tagged tag) :=
  inferInstanceAs (Decidable (result.command = some (Js.lit tag)))

/-- `command ?? 'missing'`. -/
def NodePostgresResult.commandText (result : NodePostgresResult) : String :=
  result.command.elim "missing" Js.message

/-- How an await under the signal ends: with a value, with what was thrown, or with the abort. -/
inductive Settled (α : Type) where
  | value (a : α)
  | error (e : Thrown)
  | aborted (reason : AbortReason)

/-- `releaseState`. -/
inductive ReleaseState where
  | opened
  | released
  | destroyed
  | failed
  deriving DecidableEq

/-- What a transaction awaits, reads and does; the number is that of the attempt. -/
inductive Op where
  /-- `controller.signal`. -/
  | signal
  /-- `acquire(signal)`. -/
  | acquire (attempt : ℕ)
  /-- `signal.addEventListener('abort', onAbort)`, and back. -/
  | listen (attempt : ℕ)
  | unlisten (attempt : ℕ)
  /-- `query(sql, params)`. -/
  | query (attempt : ℕ) (statement : Statement)
  /-- Whatever else the callback awaits. -/
  | outside
  /-- `boundedRollback(client, ms)`. -/
  | boundedRollback (attempt : ℕ) (ms : ℕ)
  /-- `terminalRelease(destroy)`. -/
  | terminalRelease (attempt : ℕ) (destroy : Bool)
  | releaseState (attempt : ℕ)
  | disposalError (attempt : ℕ)
  /-- `sleep(ms, signal)`. -/
  | sleep (ms : ℕ)

/-- Their answers. `W` is what comes from outside. -/
abbrev Ans (W : Type) : Op → Type
  | .signal => Option AbortReason
  | .acquire _ => Except WorkError Unit
  | .listen _ | .unlisten _ | .boundedRollback _ _ | .terminalRelease _ _ => Unit
  | .query _ _ => Settled NodePostgresResult
  | .outside => Settled W
  | .releaseState _ => ReleaseState
  | .disposalError _ => Option Thrown
  | .sleep _ => Settled Unit

/-! ## The callback -/

/-- What a callback awaits: a query of the executor it is given, or something else. -/
inductive CallbackOp where
  | query (sql : JsString) (params : List JsValue)
  | outside

/-- What `exec.query` returns. -/
structure ExecResult where
  rows : List JsValue
  rowCount : JsNumber

abbrev CallbackAns (W : Type) : CallbackOp → Type
  | .query _ _ => Except Thrown ExecResult
  | .outside => Except Thrown W

/-- A callback that awaits its queries. -/
abbrev Callback (W α : Type) := Prog CallbackOp (CallbackAns W) Thrown α

section Program

variable {W α : Type}

abbrev Tx (W ε α : Type) := Prog Op (Ans W) ε α

/-- What becomes of the end of an await. -/
def Settled.andThen {β ε : Type} (f : β → Tx W ε α) (onError : Thrown → Tx W ε α)
    (onAbort : AbortReason → Tx W ε α) : Settled β → Tx W ε α
  | value b => f b
  | error e => onError e
  | aborted reason => onAbort reason

/-- `query(sql, params)`. -/
def query (attempt : ℕ) (statement : Statement) : Tx W WorkError NodePostgresResult :=
  .await (.query attempt statement) fun x =>
    x.andThen .ret (fun e => .fail (.rethrown e)) fun reason => .fail reason.error

/-- What an executor answers with: a statement that the guard refuses is not sent. -/
def guarded (sql : JsString) (refused : Thrown → Tx W WorkError α) (send : Tx W WorkError α) :
    Tx W WorkError α :=
  match assertExecutorStatement sql with
  | .ok _ => send
  | .error message => refused ⟨.contractValidation, none, message⟩

/-- `acquire(signal)`. -/
def acquire (attempt : ℕ) : Tx W WorkError Unit :=
  .await (.acquire attempt) Prog.lift

/-- `terminalRelease(destroy)`. -/
def terminalRelease {ε : Type} (attempt : ℕ) (destroy : Bool) : Tx W ε Unit :=
  .await (.terminalRelease attempt destroy) .ret

def readReleaseState {ε : Type} (attempt : ℕ) : Tx W ε ReleaseState :=
  .await (.releaseState attempt) .ret

def readDisposalError {ε : Type} (attempt : ℕ) : Tx W ε (Option Thrown) :=
  .await (.disposalError attempt) .ret

/-- `if (releaseState === 'open') destroy()`. -/
def destroyIfOpen {ε : Type} (attempt : ℕ) : Tx W ε Unit := do
  let state ← readReleaseState attempt
  if state = .opened then terminalRelease attempt true else pure ()

/-- `sleep(ms, signal)`. -/
def sleep (ms : ℕ) : Tx W WorkError Unit :=
  .await (.sleep ms) fun x =>
    x.andThen .ret (fun e => .fail (.rethrown e)) fun reason => .fail reason.error

/-- The callback at work: an abort wins over one that is still awaiting. -/
def runCallback (attempt : ℕ) : Callback W α → Tx W WorkError α
  | .ret a => .ret a
  | .fail e => .fail (.rethrown e)
  | .await (.query sql params) k =>
      guarded sql (fun e => runCallback attempt (k (.error e)))
        (.await (.query attempt (.executor sql params)) fun x =>
          x.andThen
            (fun result => runCallback attempt (k (.ok ⟨result.rows, result.rowCount.getD (.fin 0)⟩)))
            (fun e => runCallback attempt (k (.error e))) fun reason => .fail reason.error)
  | .await .outside k =>
      .await .outside fun x =>
        x.andThen (fun w => runCallback attempt (k (.ok w)))
          (fun e => runCallback attempt (k (.error e))) fun reason => .fail reason.error

/-- `controller.signal`. -/
def readSignal {ε : Type} : Tx W ε (Option AbortReason) :=
  .await .signal .ret

/-- `if (signal.aborted) throw abortError(signal)`. -/
def throwIfAborted : Tx W WorkError Unit := do
  let aborted ← readSignal
  aborted.elim (.ret ()) fun reason => .fail reason.error

/-- `abortRace(fn(exec), signal)`. -/
def abortRace (attempt : ℕ) (fn : Callback W α) : Tx W WorkError α := do
  throwIfAborted
  runCallback attempt fn

/-! ## One attempt -/

/-- `throw new ContractValidationError(message)` unless `p`. -/
def confirm (p : Prop) [Decidable p] (message : String) : Tx W WorkError Unit :=
  Prog.lift (Fallible.require p (.contractValidation message))

def timeoutNotConfirmed : String :=
  "PostgreSQL statement_timeout setup was not confirmed"

/-- `typeof v === 'string'`, with the text. -/
def asText : JsValue → Option JsString
  | .string s => some s
  | _ => none

section Attempt

variable (db : NodePostgresTransactor) (attempt : ℕ)

/-- The statement timeout is set, with the locks or by itself. -/
def setTimeout (initialLocks : Option (List InitialExclusiveLock)) : Tx W WorkError Unit :=
  initialLocks.elim
    (do
      let timeout ← query attempt (.setConfigTimeout db.statementTimeoutMs.1)
      confirm (timeout.Tagged "SELECT" ∧ (asText (timeout.first "statement_timeout")).isSome = true)
        timeoutNotConfirmed)
    fun relations => do
      let timeoutSet ← query attempt (.setLocalTimeout db.statementTimeoutMs.1)
      confirm (timeoutSet.Tagged "SET") timeoutNotConfirmed
      let locked ← query attempt (.lockTables relations)
      confirm (locked.Tagged "LOCK") "PostgreSQL initial authority lock was not confirmed"

/-- From `BEGIN` to the continuity sentinel, `boundaryTxid`. -/
def openTransaction (initialLocks : Option (List InitialExclusiveLock)) :
    Tx W WorkError JsString := do
  let begun ← query attempt .begin
  confirm (begun.Tagged "BEGIN")
    ("PostgreSQL BEGIN was not confirmed (command=" ++ begun.commandText ++ ")")
  setTimeout db attempt initialLocks
  let timeoutCheck ← query attempt .currentTimeout
  confirm (timeoutCheck.Tagged "SELECT" ∧ asText (timeoutCheck.first "statement_timeout_ms") =
    some (Js.natDigits db.statementTimeoutMs.1)) timeoutNotConfirmed
  let boundary ← query attempt .txidCurrent
  let boundaryTxid := asText (boundary.first "txid")
  confirm (boundary.Tagged "SELECT" ∧ boundaryTxid.isSome = true)
    "PostgreSQL transaction continuity sentinel was not established"
  pure (boundaryTxid.getD [])

/-- The error that the `catch` of `runOnce` sees, with the flags as they are then. -/
structure Failure where
  error : TxError
  committed : Bool
  commitDispatched : Bool
  commitDefinitivelyAborted : Bool

/-- Before `COMMIT`. -/
def Failure.before (error : WorkError) : Failure :=
  ⟨.work error, false, false, false⟩

/-- With `COMMIT` on its way. -/
def Failure.dispatched (error : WorkError) (definitivelyAborted : Bool) : Failure :=
  ⟨.work error, false, true, definitivelyAborted⟩

/-- After `COMMIT`. -/
def Failure.after (message : String) (cause : Option WorkError) : Failure :=
  ⟨.postCommitRelease message cause, true, true, false⟩

/-- `releaseNormally()`. -/
def releaseNormally : Tx W Failure Unit := do
  terminalRelease attempt false
  let state ← readReleaseState attempt
  if state = .failed then
    let disposalError ← readDisposalError attempt
    .fail (.after "PostgreSQL committed but returning the connection to the pool failed"
      (disposalError.map .rethrown))
  else pure ()

/-- What follows a confirmed `COMMIT`. -/
def afterCommit (result : α) : Tx W Failure α := do
  let discarded ← (query attempt .discardAll).rescue fun error => do
    terminalRelease attempt true
    .fail (.after "PostgreSQL committed but session reset failed" (some error))
  if discarded.Tagged "DISCARD" then
    releaseNormally attempt
    pure result
  else
    terminalRelease attempt true
    .fail (.after "PostgreSQL committed but session reset was not confirmed" none)

/-- The `try` of `runOnce`. -/
def work (initialLocks : Option (List InitialExclusiveLock)) (fn : Callback W α) :
    Tx W Failure α := do
  let boundaryTxid ← (openTransaction db attempt initialLocks).rescue fun e => .fail (.before e)
  let result ← (abortRace attempt fn).rescue fun e => .fail (.before e)
  let continuity ← (query attempt .txidCurrent).rescue fun e => .fail (.before e)
  if continuity.Tagged "SELECT" ∧ asText (continuity.first "txid") = some boundaryTxid then
    let commit ← (query attempt .commit).rescue fun e => .fail (.dispatched e false)
    if commit.Tagged "COMMIT" then afterCommit attempt result
    else
      .fail (.dispatched (.contractValidation ("PostgreSQL COMMIT was not confirmed (command=" ++
        commit.commandText ++ ")")) (decide (commit.Tagged "ROLLBACK")))
  else
    .fail (.dispatched (.contractValidation
      "PostgreSQL transaction continuity was lost before adapter COMMIT") false)

/-- `if (releaseState === 'open') await boundedRollback(client, this.rollbackTimeoutMs)`. -/
def rollbackIfOpen : Tx W TxError Unit := do
  let state ← readReleaseState attempt
  if state = .opened then .await (.boundedRollback attempt db.rollbackTimeoutMs.1) .ret else pure ()

/-- The `catch` of `runOnce`. -/
def handleFailure (failure : Failure) : Tx W TxError α := do
  (if failure.committed = false ∧ failure.commitDispatched = false then rollbackIfOpen db attempt
    else pure ())
  destroyIfOpen attempt
  let disposalError ← readDisposalError attempt
  if failure.commitDispatched = true ∧ failure.committed = false ∧
      failure.commitDefinitivelyAborted = false then
    .fail (.ambiguousCommit failure.error disposalError)
  else if failure.committed = false then
    disposalError.elim (.fail failure.error) fun disposalError =>
      .fail (.connectionDisposal failure.error disposalError)
  else .fail failure.error

/-- The `finally` of `runOnce`. -/
def cleanUp : Tx W TxError Unit := do
  Prog.perform (Op.unlisten attempt)
  destroyIfOpen attempt

/-- `runOnce(fn, signal, initialLocks)`. -/
def runOnce (initialLocks : Option (List InitialExclusiveLock)) (fn : Callback W α) :
    Tx W TxError α := do
  (acquire attempt).rescue fun e => .fail (.work e)
  Prog.perform (Op.listen attempt)
  Prog.andFinally (cleanUp attempt)
    ((work db attempt initialLocks fn).rescue (handleFailure db attempt))

end Attempt

/-! ## Attempts -/

section Attempts

variable (db : NodePostgresTransactor) (initialLocks : Option (List InitialExclusiveLock))
variable (fn : Callback W α)

/-- The `catch` of the loop, with what the next turn does where there may be one. -/
def retry (attempt : ℕ) (again : Option (Tx W TxError α)) (error : TxError) : Tx W TxError α :=
  if error.code.any retryable.contains then
    again.elim (.fail error) fun again => do
      let aborted ← readSignal
      if aborted.isSome then .fail error
      else
        (sleep (min (db.retryBaseDelayMs.1 * 2 ^ attempt) 1000)).rescue fun e => .fail (.work e)
        again
  else .fail error

/-- A turn of the loop. -/
def turn (attempt : ℕ) (again : Option (Tx W TxError α)) : Tx W TxError α := do
  throwIfAborted.rescue fun e => .fail (.work e)
  (runOnce db attempt initialLocks fn).rescue (retry db attempt again)

/-- The loop, with this many retries left. -/
def turns : ℕ → Tx W TxError α
  | 0 => turn db initialLocks fn db.maxSerializationRetries.1 none
  | left + 1 =>
      turn db initialLocks fn (db.maxSerializationRetries.1 - (left + 1)) (some (turns left))

/-- `runTransaction(fn, opts, initialLocks)`. -/
def runTransaction : Tx W TxError α :=
  turns db initialLocks fn db.maxSerializationRetries.1

/-- `transaction(fn, opts)`. -/
def transaction : Tx W TxError α :=
  runTransaction db none fn

end Attempts

/-! ## What the parts ask for -/

section Uses

variable {P : Op → Prop} {n : ℕ}

theorem uses_query {statement : Statement} (h : P (.query n statement)) :
    (query n statement : Tx W WorkError NodePostgresResult).Uses P := by
  refine ⟨h, fun x => ?_⟩
  cases x with
  | value result => trivial
  | error e => trivial
  | aborted reason => trivial

theorem uses_confirm {p : Prop} [Decidable p] {message : String} :
    (confirm p message : Tx W WorkError Unit).Uses P :=
  Prog.uses_lift

theorem uses_setTimeout (db : NodePostgresTransactor)
    (initialLocks : Option (List InitialExclusiveLock))
    (h : ∀ statement, statement ≠ .commit → P (.query n statement)) :
    (setTimeout db n initialLocks : Tx W WorkError Unit).Uses P := by
  cases initialLocks with
  | none => exact (uses_query (h _ (by simp))).bind fun _ => uses_confirm
  | some relations =>
      refine (uses_query (h _ (by simp))).bind fun _ => uses_confirm.bind fun _ => ?_
      exact (uses_query (h _ (by simp))).bind fun _ => uses_confirm

theorem uses_openTransaction (db : NodePostgresTransactor)
    (initialLocks : Option (List InitialExclusiveLock))
    (h : ∀ statement, statement ≠ .commit → P (.query n statement)) :
    (openTransaction db n initialLocks : Tx W WorkError JsString).Uses P := by
  refine (uses_query (h _ (by simp))).bind fun _ => uses_confirm.bind fun _ => ?_
  refine (uses_setTimeout db initialLocks h).bind fun _ => ?_
  refine (uses_query (h _ (by simp))).bind fun _ => uses_confirm.bind fun _ => ?_
  exact (uses_query (h _ (by simp))).bind fun _ => uses_confirm.bind fun _ => trivial

/-- A callback's statements are its own; it has no `COMMIT` to send. -/
theorem uses_runCallback (fn : Callback W α)
    (h : ∀ statement, statement ≠ .commit → P (.query n statement)) (houtside : P .outside) :
    (runCallback n fn).Uses P := by
  induction fn with
  | ret a => trivial
  | fail e => trivial
  | await o k ih =>
      cases o with
      | outside =>
          refine ⟨houtside, fun x => ?_⟩
          cases x with
          | value w => exact ih (.ok w)
          | error e => exact ih (.error e)
          | aborted reason => trivial
      | query sql params =>
          rw [runCallback, guarded]
          split
          · refine ⟨h _ (by simp), fun x => ?_⟩
            cases x with
            | value result => exact ih (.ok _)
            | error e => exact ih (.error e)
            | aborted reason => trivial
          · exact ih (.error _)

theorem uses_throwIfAborted (h : P .signal) : (throwIfAborted : Tx W WorkError Unit).Uses P := by
  refine ⟨h, fun aborted => ?_⟩
  cases aborted with
  | none => trivial
  | some reason => trivial

theorem uses_abortRace (fn : Callback W α)
    (h : ∀ statement, statement ≠ .commit → P (.query n statement)) (houtside : P .outside)
    (hsignal : P .signal) : (abortRace n fn).Uses P :=
  (uses_throwIfAborted hsignal).bind fun _ => uses_runCallback fn h houtside

end Uses

end Program

end Postgres
