import BpcProtocol.Postgres.Transactor

set_option autoImplicit false

/-! # The pool, the server and the signal

What a transaction meets: connections that come late or fail to be disposed of, statements whose
reply is lost, an abort at any moment. An abort may also fall between two synchronous steps, which
gives more runs than the adapter has. Of the server nothing is assumed but that the tag of a reply
to `COMMIT` tells the truth, and that nothing else commits. -/

namespace Postgres

open Async

/-! ## State -/

/-- Where `pool.connect()` stands: its connection may still come when nobody waits any more. -/
inductive Acquisition where
  | unasked
  | late
  | refused
  | given
  deriving DecidableEq

/-- The connection of an attempt, and the calls of `client.release`. -/
structure Client where
  acquisition : Acquisition
  releaseState : ReleaseState
  disposalError : Option Thrown
  releases : List Bool

/-- The transaction of an attempt, on the server. -/
inductive TxStatus where
  | idle
  | running
  /-- `COMMIT` has come, and is not decided. -/
  | committing
  | committed
  | rolledBack
  deriving DecidableEq

structure World where
  aborted : Option AbortReason
  listening : Option ℕ
  clients : ℕ → Client
  status : ℕ → TxStatus

def World.setClient (s : World) (attempt : ℕ) (client : Client) : World :=
  { s with clients := Function.update s.clients attempt client }

def World.setStatus (s : World) (attempt : ℕ) (status : TxStatus) : World :=
  { s with status := Function.update s.status attempt status }

@[simp]
theorem World.setClient_status (s : World) (attempt : ℕ) (client : Client) :
    (s.setClient attempt client).status = s.status :=
  rfl

@[simp]
theorem World.setStatus_status (s : World) (attempt : ℕ) (status : TxStatus) :
    (s.setStatus attempt status).status = Function.update s.status attempt status :=
  rfl

/-! ## What the world does -/

/-- `client.release(destroy)`, once: it may throw. -/
inductive Client.Released (destroy : Bool) : Client → Client → Prop
  | over {c : Client} : c.releaseState ≠ .opened → Released destroy c c
  | done {c : Client} : c.releaseState = .opened →
      Released destroy c
        { c with
          releaseState := if destroy then .destroyed else .released
          releases := c.releases ++ [destroy] }
  | threw {c : Client} (e : Option Thrown) : c.releaseState = .opened →
      Released destroy c
        { c with releaseState := .failed, disposalError := e, releases := c.releases ++ [destroy] }

/-- The signal is aborted, and whoever listens destroys its connection. -/
inductive World.Abort (reason : AbortReason) : World → World → Prop
  | unheard {s : World} : s.listening = none → Abort reason s { s with aborted := some reason }
  | heard {s : World} (attempt : ℕ) (client : Client) : s.listening = some attempt →
      Client.Released true (s.clients attempt) client →
      Abort reason s ({ s with aborted := some reason }.setClient attempt client)

/-- What a statement that was sent can do to its transaction. It may not have arrived, and a
    failure ends the transaction. -/
inductive Serves : Statement → TxStatus → TxStatus → Prop
  | nothing (statement : Statement) (status : TxStatus) : Serves statement status status
  | failed (statement : Statement) : Serves statement .running .rolledBack
  | begin : Serves .begin .idle .running
  | committing : Serves .commit .running .committing
  | committed : Serves .commit .running .committed

/-- The tag of a reply to `COMMIT` says what has become of the transaction. -/
def Honest (statement : Statement) (status : TxStatus) (result : NodePostgresResult) : Prop :=
  statement = .commit → (result.Tagged "COMMIT" → status = .committed) ∧
    (result.Tagged "ROLLBACK" → status = .rolledBack)

/-- The operations of a transaction. -/
inductive Exec (W : Type) : World → (o : Op) → Ans W o → World → Prop
  | signal {s : World} : Exec W s .signal s.aborted s
  | acquired {s : World} (n : ℕ) :
      Exec W s (.acquire n) (.ok ()) (s.setClient n ⟨.given, .opened, none, []⟩)
  | acquireFailed {s : World} (n : ℕ) (e : Thrown) :
      Exec W s (.acquire n) (.error (.rethrown e)) (s.setClient n ⟨.refused, .opened, none, []⟩)
  | acquireTimedOut {s : World} (n : ℕ) :
      Exec W s (.acquire n)
        (.error (.contractValidation "PostgreSQL connection acquisition timed out"))
        (s.setClient n ⟨.late, .opened, none, []⟩)
  | acquireAborted {s t : World} (n : ℕ) (reason : AbortReason) : s.aborted = none →
      World.Abort reason (s.setClient n ⟨.late, .opened, none, []⟩) t →
      Exec W s (.acquire n) (.error reason.error) t
  | listen {s : World} (n : ℕ) : Exec W s (.listen n) () { s with listening := some n }
  | unlisten {s : World} (n : ℕ) : Exec W s (.unlisten n) () { s with listening := none }
  | notSent {s : World} (n : ℕ) (statement : Statement) (reason : AbortReason) :
      s.aborted = some reason → Exec W s (.query n statement) (.aborted reason) s
  | replied {s : World} (n : ℕ) (statement : Statement) (status : TxStatus)
      (result : NodePostgresResult) : s.aborted = none → Serves statement (s.status n) status →
      Honest statement status result →
      Exec W s (.query n statement) (.value result) (s.setStatus n status)
  | errored {s : World} (n : ℕ) (statement : Statement) (status : TxStatus) (e : Thrown) :
      s.aborted = none → Serves statement (s.status n) status →
      Exec W s (.query n statement) (.error e) (s.setStatus n status)
  | cut {s t : World} (n : ℕ) (statement : Statement) (status : TxStatus) (reason : AbortReason) :
      s.aborted = none → Serves statement (s.status n) status →
      World.Abort reason (s.setStatus n status) t →
      Exec W s (.query n statement) (.aborted reason) t
  | outside {s : World} (w : W) : s.aborted = none → Exec W s .outside (.value w) s
  | outsideFailed {s : World} (e : Thrown) : s.aborted = none → Exec W s .outside (.error e) s
  | outsideAborted {s : World} (reason : AbortReason) : s.aborted = some reason →
      Exec W s .outside (.aborted reason) s
  | boundedRollback {s : World} (n ms : ℕ) (status : TxStatus) :
      status = s.status n ∨ s.status n = .running ∧ status = .rolledBack →
      Exec W s (.boundedRollback n ms) () (s.setStatus n status)
  | terminalRelease {s : World} (n : ℕ) (destroy : Bool) (client : Client) :
      Client.Released destroy (s.clients n) client →
      Exec W s (.terminalRelease n destroy) () (s.setClient n client)
  | releaseState {s : World} (n : ℕ) :
      Exec W s (.releaseState n) (s.clients n).releaseState s
  | disposalError {s : World} (n : ℕ) :
      Exec W s (.disposalError n) (s.clients n).disposalError s
  | slept {s : World} (ms : ℕ) : s.aborted = none → Exec W s (.sleep ms) (.value ()) s
  | sleepAborted {s : World} (ms : ℕ) (reason : AbortReason) : s.aborted = some reason →
      Exec W s (.sleep ms) (.aborted reason) s

/-- What happens by itself. -/
inductive Happens : World → World → Prop
  | abort {s t : World} (reason : AbortReason) : s.aborted = none → World.Abort reason s t →
      Happens s t
  | decide {s : World} (n : ℕ) (status : TxStatus) : s.status n = .committing →
      status = .committed ∨ status = .rolledBack → Happens s (s.setStatus n status)
  | lose {s : World} (n : ℕ) : s.status n = .running → Happens s (s.setStatus n .rolledBack)
  /-- `late.release(true)`. -/
  | lateClient {s : World} (n : ℕ) : (s.clients n).acquisition = .late →
      Happens s (s.setClient n
        { s.clients n with
          acquisition := .given
          releases := (s.clients n).releases ++ [true] })
  | lateFailure {s : World} (n : ℕ) : (s.clients n).acquisition = .late →
      Happens s (s.setClient n { s.clients n with acquisition := .refused })

/-- Before the transaction; the caller's signal may be aborted already. -/
def World.Fresh (s : World) : Prop :=
  s.listening = none ∧ (∀ n, s.status n = .idle) ∧
    ∀ n, s.clients n = ⟨.unasked, .opened, none, []⟩

/-- A call of `runTransaction`. -/
def transactionService {W α : Type} (db : NodePostgresTransactor)
    (initialLocks : Option (List InitialExclusiveLock)) (fn : Callback W α) :
    Service Unit Op (Ans W) TxError α World where
  body _ := runTransaction db initialLocks fn
  admits _ := True
  init := World.Fresh
  exec := Exec W
  env := Happens

/-- What a call in progress, or one that has ended, has come to. -/
abbrev Running (W α : Type) := Config Unit Unit Op (Ans W) TxError α World

abbrev transactionSystem {W α : Type} (db : NodePostgresTransactor)
    (initialLocks : Option (List InitialExclusiveLock)) (fn : Callback W α) :
    Transition.System (Running W α) :=
  (transactionService db initialLocks fn).system Unit

end Postgres
