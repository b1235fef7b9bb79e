import BpcProtocol.Js.Arithmetic
import BpcProtocol.Lib.OrderedMap
import BpcProtocol.Lib.Tracking

set_option autoImplicit false

/-! # The failover transport

`FailoverTransport` of the client: reads go to the primary, or to the replicas in order, writes to the
primary only, and probes tell which endpoint is healthy. What the code does between two awaits is one
operation; between two operations any other call of the transport may act, and the clock may be read
anew. -/

namespace Failover

open Async

/-! ## Endpoints -/

/-- The endpoints of a transport: `this.primary`, and `this.replicas[i]`. -/
inductive Endpoint where
  | primary
  | replica (i : ℕ)
  deriving DecidableEq, Repr

/-- `FailoverConfig`. -/
structure FailoverConfig where
  primary : JsString
  replicas : Option (List JsString) := none
  healthPath : Option JsString := none
  missThreshold : Option JsNumber := none
  windowMs : Option JsNumber := none

namespace FailoverConfig

variable (cfg : FailoverConfig)

/-- `cfg.replicas ?? []`. -/
def replicaUrls : List JsString :=
  cfg.replicas.getD []

/-- `cfg.healthPath ?? DEFAULTS.healthPath`. -/
def probePath : JsString :=
  cfg.healthPath.getD (Js.lit "/health")

/-- `cfg.missThreshold ?? DEFAULTS.missThreshold`. -/
def threshold : JsNumber :=
  cfg.missThreshold.getD (.fin 3)

/-- `cfg.windowMs ?? DEFAULTS.windowMs`. -/
def window : JsNumber :=
  cfg.windowMs.getD (.fin 15000)

end FailoverConfig

/-- `EndpointState`. -/
structure EndpointState where
  url : JsString
  healthy : Bool
  streak : JsNumber
  streakStartedAt : Option JsNumber

/-- An endpoint at the start. -/
def EndpointState.fresh (url : JsString) : EndpointState :=
  ⟨url, true, .fin 0, none⟩

/-- `recordSuccess(ep)`. -/
def recordSuccess (ep : EndpointState) : EndpointState :=
  { ep with streak := .fin 0, streakStartedAt := none, healthy := true }

/-- The streak of an endpoint after one more miss. -/
def nextStreak (cfg : FailoverConfig) (ep : EndpointState) (now : JsNumber) : JsNumber × JsNumber :=
  match ep.streakStartedAt with
  | none => (.fin 1, now)
  | some start =>
      if cfg.window.lt (now.sub start) then (.fin 1, now) else (ep.streak.incr, start)

/-- `recordMiss(ep)`. -/
def recordMiss (cfg : FailoverConfig) (ep : EndpointState) (now : JsNumber) : EndpointState :=
  let next := nextStreak cfg ep now
  { ep with
    streak := next.1
    streakStartedAt := some next.2
    healthy := ep.healthy && !next.1.ge cfg.threshold }

/-! ## Requests -/

/-- `init`, as far as the transport reads it or passes it on. -/
structure RequestInit where
  method : Option JsString := none
  body : Option JsString := none

/-- `Response`. -/
structure Response where
  status : ℕ

/-- `res.ok`. -/
def Response.ok (res : Response) : Bool :=
  decide (200 ≤ res.status ∧ res.status ≤ 299)

/-- What is sent to an endpoint: the path behind its URL, the method, and the body. -/
structure Message where
  path : JsString
  method : JsString
  body : Option JsString
  deriving DecidableEq

/-- `{ ...init, method: init.method ?? method }`. -/
def RequestInit.message (init : RequestInit) (path : JsString) (method : String) : Message :=
  ⟨path, init.method.getD (Js.lit method), init.body⟩

/-- Errors of the transport: its own, and what `fetch` rejects with. -/
inductive TransportError where
  | primaryUnavailable
  | fetchFailed (message : JsString)
  | allEndpointsFailed
  deriving DecidableEq, Repr

/-- What a request resolves with. -/
abbrev Outcome := Except TransportError Response

/-- The request has been answered with a 2xx status. -/
def Outcome.isSuccess : Outcome → Bool
  | .ok res => res.ok
  | .error _ => false

/-- What the transport concludes from the outcome of a request. -/
inductive Purpose where
  | request
  | lastResort
  | probe
  deriving DecidableEq, Repr

/-- The endpoint once the outcome of a request to it is recorded. -/
def record (cfg : FailoverConfig) (purpose : Purpose) (outcome : Outcome) (ep : EndpointState)
    (now : JsNumber) : EndpointState :=
  match purpose, outcome with
  | .request, .ok _ => recordSuccess ep
  | .request, .error _ => recordMiss cfg ep now
  | .lastResort, .ok _ => recordSuccess ep
  | .lastResort, .error _ => ep
  | .probe, outcome => if outcome.isSuccess then recordSuccess ep else recordMiss cfg ep now

/-! ## Operations -/

/-- What the transport does between two awaits, or awaits: a request to an endpoint, if it is healthy
    or in any case, the outcome of one, or the first outcome of several, and what it reads. -/
inductive TransportOp where
  | sendIfHealthy (ep : Endpoint) (message : Message)
  | send (ep : Endpoint) (message : Message)
  | settle (ep : Endpoint) (purpose : Purpose)
  | settleOne (first : Endpoint) (others : List Endpoint)
  | healthy (ep : Endpoint)
  | healthMap

abbrev TransportOp.Answer : TransportOp → Type
  | sendIfHealthy _ _ => Bool
  | send _ _ => Unit
  | settle _ _ => Outcome
  | settleOne _ _ => Endpoint × Outcome
  | healthy _ => Bool
  | healthMap => OrderedMap JsString Bool

abbrev TransportProg (α : Type) := Prog TransportOp TransportOp.Answer TransportError α

def perform (o : TransportOp) : TransportProg o.Answer :=
  Prog.perform o

/-- The response, or what the `catch` goes on with. -/
def orElse (outcome : Outcome) (handler : TransportError → TransportProg Response) :
    TransportProg Response :=
  match outcome with
  | .ok res => pure res
  | .error e => handler e

/-! ## Methods -/

section Methods

variable (cfg : FailoverConfig)

/-- `[this.primary, ...this.replicas]`. -/
def chain : List Endpoint :=
  .primary :: (List.range cfg.replicaUrls.length).map .replica

/-- The last resort of `read`: the endpoints of the chain, healthy or not. -/
def readAny (message : Message) : List Endpoint → Option TransportError → TransportProg Response
  | [], lastErr => .fail (lastErr.getD .allEndpointsFailed)
  | ep :: rest, _ => do
      perform (.send ep message)
      let outcome : Outcome ← perform (.settle ep .lastResort)
      orElse outcome fun e => readAny message rest (some e)

/-- `read` from an endpoint of the chain on. -/
def readHealthy (message : Message) : List Endpoint → Option TransportError → TransportProg Response
  | [], lastErr => readAny message (chain cfg) lastErr
  | ep :: rest, lastErr => do
      let sent : Bool ← perform (.sendIfHealthy ep message)
      if sent then do
        let outcome : Outcome ← perform (.settle ep .request)
        orElse outcome fun e => readHealthy message rest (some e)
      else readHealthy message rest lastErr

/-- `read(path, init)`. -/
def read (path : JsString) (init : RequestInit) : TransportProg Response :=
  readHealthy cfg (init.message path "GET") (chain cfg) none

/-- `write(path, init)`. -/
def write (path : JsString) (init : RequestInit) : TransportProg Response := do
  let sent : Bool ← perform (.sendIfHealthy .primary (init.message path "POST"))
  if sent then do
    let outcome : Outcome ← perform (.settle .primary .request)
    Prog.lift outcome
  else .fail .primaryUnavailable

/-- What a probe sends. -/
def probeMessage : Message :=
  ⟨cfg.probePath, Js.lit "GET", none⟩

/-- `probe(ep)`. -/
def probe (ep : Endpoint) : TransportProg Bool := do
  perform (.send ep (probeMessage cfg))
  let outcome : Outcome ← perform (.settle ep .probe)
  if outcome.isSuccess then pure true else perform (.healthy ep)

/-- `probePrimary()`. -/
def probePrimary : TransportProg Bool :=
  probe cfg .primary

/-- The probes of `probeAll` as far as they run at once. -/
def sendProbes : List Endpoint → TransportProg Unit
  | [] => pure ()
  | ep :: rest => do
      perform (.send ep (probeMessage cfg))
      sendProbes rest

/-- The outcomes of the probes, in any order. -/
def settleProbes : ℕ → List Endpoint → TransportProg Unit
  | n + 1, ep :: rest => do
      let settled : Endpoint × Outcome ← perform (.settleOne ep rest)
      settleProbes n ((ep :: rest).erase settled.1)
  | _, _ => pure ()

/-- `probeAll()`. -/
def probeAll : TransportProg (OrderedMap JsString Bool) := do
  sendProbes cfg (chain cfg)
  settleProbes (chain cfg).length (chain cfg)
  perform .healthMap

end Methods

/-! ## The transport -/

/-- The endpoints of a transport, and the clock. -/
structure TransportState where
  primary : EndpointState
  replicas : List EndpointState
  now : ℤ

namespace TransportState

/-- The state of an endpoint. -/
def endpoint (s : TransportState) : Endpoint → Option EndpointState
  | .primary => some s.primary
  | .replica i => s.replicas[i]?

/-- A change of one endpoint. -/
def modify (s : TransportState) (f : EndpointState → EndpointState) : Endpoint → TransportState
  | .primary => { s with primary := f s.primary }
  | .replica i => { s with replicas := s.replicas.modify i f }

/-- `Object.fromEntries(all.map((ep) => [ep.url, ep.healthy]))`. -/
def healthMap (s : TransportState) : OrderedMap JsString Bool :=
  (s.primary :: s.replicas).foldl (fun m ep => m.set ep.url ep.healthy) .empty

end TransportState

/-- The calls of a transport. -/
inductive TransportRequest where
  | read (path : JsString) (init : RequestInit)
  | write (path : JsString) (init : RequestInit)
  | probePrimary
  | probeAll

inductive TransportResult where
  | response (res : Response)
  | flag (b : Bool)
  | health (m : OrderedMap JsString Bool)

section Service

variable (cfg : FailoverConfig)

/-- The program of each call. -/
def TransportRequest.program : TransportRequest → TransportProg TransportResult
  | read path init => .response <$> Failover.read cfg path init
  | write path init => .response <$> Failover.write path init
  | probePrimary => .flag <$> Failover.probePrimary cfg
  | probeAll => .health <$> Failover.probeAll cfg

/-- What an operation does. A request may have any outcome. -/
inductive TransportExec : TransportState → (o : TransportOp) → o.Answer → TransportState → Prop
  | sendIfHealthy (s : TransportState) (ep : Endpoint) (message : Message) :
      TransportExec s (.sendIfHealthy ep message) ((s.endpoint ep).any EndpointState.healthy) s
  | send (s : TransportState) (ep : Endpoint) (message : Message) :
      TransportExec s (.send ep message) () s
  | settle (s : TransportState) (ep : Endpoint) (purpose : Purpose) (outcome : Outcome) :
      TransportExec s (.settle ep purpose) outcome
        (s.modify (record cfg purpose outcome · (.fin (s.now : ℤ))) ep)
  | settleOne (s : TransportState) (first : Endpoint) (others : List Endpoint) (ep : Endpoint)
      (outcome : Outcome) :
      ep ∈ first :: others →
      TransportExec s (.settleOne first others) (ep, outcome)
        (s.modify (record cfg .probe outcome · (.fin (s.now : ℤ))) ep)
  | healthy (s : TransportState) (ep : Endpoint) :
      TransportExec s (.healthy ep) ((s.endpoint ep).any EndpointState.healthy) s
  | healthMap (s : TransportState) : TransportExec s .healthMap s.healthMap s

/-- A transport as it is constructed, and any number of calls of it. The clock may be set at any
    time. -/
def transportService :
    Service TransportRequest TransportOp TransportOp.Answer TransportError TransportResult
      TransportState where
  body := TransportRequest.program cfg
  admits _ := True
  init s := s.primary = .fresh cfg.primary ∧ s.replicas = cfg.replicaUrls.map .fresh
  exec := TransportExec cfg
  env s s' := ∃ now, s' = { s with now }

end Service

abbrev TransportConfig (ι : Type) :=
  Config ι TransportRequest TransportOp TransportOp.Answer TransportError TransportResult
    TransportState

end Failover
