import BpcProtocol.Transport.Failover

set_option autoImplicit false

/-! # Writes and the primary's recovery

A primary that is marked unhealthy is to take no write before it has answered a request with a 2xx
status, and a replica is to take none at all. Of the four methods only the probes look at the status
of an answer: a read that falls back on its last resort, or any request still in flight, restores the
primary by whatever answer it gets. -/

namespace Failover

open Async

/-! ## What a log says of the primary -/

/-- The operation took the outcome of a request to the primary, made for this purpose. -/
inductive FromPrimary : Made TransportOp TransportOp.Answer → Purpose → Outcome → Prop
  | settle (purpose : Purpose) (outcome : Outcome) :
      FromPrimary ⟨.settle .primary purpose, outcome⟩ purpose outcome
  | settleOne (first : Endpoint) (others : List Endpoint) (outcome : Outcome) :
      FromPrimary ⟨.settleOne first others, (.primary, outcome)⟩ .probe outcome

/-- The operation sent a request to the endpoint. -/
inductive SentTo : Made TransportOp TransportOp.Answer → Endpoint → Prop
  | sendIfHealthy (ep : Endpoint) (message : Message) : SentTo ⟨.sendIfHealthy ep message, true⟩ ep
  | send (ep : Endpoint) (message : Message) : SentTo ⟨.send ep message, ()⟩ ep

section Log

variable {ι : Type} (cfg : FailoverConfig)

abbrev LogEntry (ι : Type) := Entry ι TransportOp TransportOp.Answer TransportState

/-- The entry marks the primary unhealthy. -/
def Marks (e : LogEntry ι) : Prop :=
  ∃ purpose outcome, FromPrimary e.made purpose outcome ∧ e.state.primary.healthy = true ∧
    (record cfg purpose outcome e.state.primary (.fin (e.state.now : ℤ))).healthy = false

/-- A request to the primary has been answered with a 2xx status. -/
def Recovers (e : LogEntry ι) : Prop :=
  ∃ purpose outcome, FromPrimary e.made purpose outcome ∧ outcome.isSuccess = true

/-- While the primary is marked unhealthy, its answer to anything but a probe has a 2xx status. -/
def Truthful (e : LogEntry ι) : Prop :=
  ∀ purpose res, FromPrimary e.made purpose (.ok res) → e.state.primary.healthy = false →
    purpose ≠ .probe → res.ok = true

/-- The call is one of `write`. -/
def IsWrite (t : TransportConfig ι) (i : ι) : Prop :=
  ∃ path init rest, t.calls i = some ⟨.write path init, rest⟩

/-- No write reaches a replica, and a write that is issued once the primary has been marked unhealthy,
    and before it answers a request with a 2xx status, ends with `PrimaryUnavailableError`, and
    nothing of it has been sent. -/
structure WritesSafe (t : TransportConfig ι) : Prop where
  primaryOnly : ∀ e ∈ t.log, IsWrite t e.call → ∀ ep, SentTo e.made ep → ep = .primary
  refused : ∀ l₁ mark l₂ e l₃, t.log = l₁ ++ mark :: (l₂ ++ e :: l₃) → Marks cfg mark →
    (∀ e' ∈ l₂, ¬Recovers e') → IsWrite t e.call → (∀ e' ∈ l₁ ++ mark :: l₂, e'.call ≠ e.call) →
      (∃ r, t.calls e.call = some ⟨r, .fail .primaryUnavailable⟩) ∧
        ∀ e' ∈ t.log, e'.call = e.call → ∀ ep, ¬SentTo e'.made ep

end Log

/-! ## The primary stays down -/

section Down

variable {cfg : FailoverConfig}

theorem recordMiss_down {ep : EndpointState} {now : JsNumber} (h : ep.healthy = false) :
    (recordMiss cfg ep now).healthy = false := by
  simp [recordMiss, h]

/-- What is recorded of an endpoint that is down leaves it down, unless it is an answer that the
    purpose takes for a sign of life. -/
theorem record_down {purpose : Purpose} {outcome : Outcome} {ep : EndpointState} {now : JsNumber}
    (h : ep.healthy = false) (hbad : outcome.isSuccess = false)
    (htruthful : ∀ res, outcome = .ok res → purpose = .probe) :
    (record cfg purpose outcome ep now).healthy = false := by
  cases outcome with
  | ok res =>
      obtain rfl := htruthful res rfl
      simp only [record, hbad]
      exact recordMiss_down h
  | error e =>
      cases purpose with
      | request => exact recordMiss_down h
      | lastResort => exact h
      | probe => exact recordMiss_down h

variable {ι : Type}

/-- An operation changes the primary by what it has taken of a request to the primary, if it has. -/
theorem exec_primary {s t : TransportState} {o : TransportOp} {x : o.Answer}
    (hexec : TransportExec cfg s o x t) :
    t.primary = s.primary ∨ ∃ purpose outcome, FromPrimary ⟨o, x⟩ purpose outcome ∧
      t.primary = record cfg purpose outcome s.primary (.fin (s.now : ℤ)) := by
  cases hexec with
  | sendIfHealthy ep message => exact Or.inl rfl
  | send ep message => exact Or.inl rfl
  | healthy ep => exact Or.inl rfl
  | healthMap => exact Or.inl rfl
  | settle ep purpose outcome =>
      cases ep with
      | primary => exact Or.inr ⟨purpose, _, .settle purpose _, rfl⟩
      | replica i => exact Or.inl rfl
  | settleOne first others ep outcome hmem =>
      cases ep with
      | primary => exact Or.inr ⟨.probe, outcome, .settleOne first others outcome, rfl⟩
      | replica i => exact Or.inl rfl

/-- An operation after which the primary is up again has recovered it. -/
theorem exec_down {i : ι} {s t : TransportState} {o : TransportOp} {x : o.Answer}
    (hexec : TransportExec cfg s o x t) (h : s.primary.healthy = false)
    (htruthful : Truthful ⟨i, ⟨o, x⟩, s⟩) (hnot : ¬Recovers ⟨i, ⟨o, x⟩, s⟩) :
    t.primary.healthy = false := by
  rcases exec_primary hexec with hsame | ⟨purpose, outcome, hfrom, hrecord⟩
  · rw [hsame, h]
  · have hbad : outcome.isSuccess = false := by
      by_contra hgood
      exact hnot ⟨purpose, outcome, hfrom, by simpa using hgood⟩
    rw [hrecord]
    refine record_down h hbad fun res hres => ?_
    subst hres
    by_contra hprobe
    have hok : res.ok = true := htruthful purpose res hfrom h hprobe
    rw [show Outcome.isSuccess (.ok res) = res.ok from rfl, hok] at hbad
    cases hbad

/-- The entry that marks the primary leaves it down. -/
theorem Marks.down {i : ι} {s t : TransportState} {o : TransportOp} {x : o.Answer}
    (hmark : Marks cfg ⟨i, ⟨o, x⟩, s⟩) (hexec : TransportExec cfg s o x t) :
    t.primary.healthy = false := by
  obtain ⟨purpose, outcome, hfrom, -, hdown⟩ := hmark
  cases hfrom with
  | settle => cases hexec with | settle => exact hdown
  | settleOne first others => cases hexec with | settleOne => exact hdown

variable [DecidableEq ι]

/-- From the entry that marks the primary to one that recovers it, the primary is down. -/
structure Down (cfg : FailoverConfig) (t : TransportConfig ι) : Prop where
  now : ∀ l₁ mark l₂, t.log = l₁ ++ mark :: l₂ → Marks cfg mark → (∀ e ∈ l₂, ¬Recovers e) →
    t.shared.primary.healthy = false
  before : ∀ l₁ mark l₂ e l₃, t.log = l₁ ++ mark :: (l₂ ++ e :: l₃) → Marks cfg mark →
    (∀ e' ∈ l₂, ¬Recovers e') → e.state.primary.healthy = false

theorem down_of_truthful {t : TransportConfig ι}
    (h : Transition.Reachable ((transportService cfg).system ι) t)
    (htruthful : ∀ e ∈ t.log, Truthful e) : Down cfg t := by
  refine Transition.Reachable.invariant
    (I := fun t => (∀ e ∈ t.log, Truthful e) → Down cfg t) ?_ ?_ h htruthful
  · rintro t ⟨-, -, hlog⟩ -
    constructor <;> intros <;> simp_all
  · rintro t t' - ih hstep htruthful
    cases hstep with
    | start i r hadm hi => exact ⟨(ih htruthful).now, (ih htruthful).before⟩
    | env s hs =>
        obtain ⟨now, rfl⟩ := hs
        exact ⟨(ih htruthful).now, (ih htruthful).before⟩
    | exec i r o k x s hi hexec =>
        have hdown := ih fun e he => htruthful e (List.mem_append_left _ he)
        have htrue := htruthful ⟨i, ⟨o, x⟩, t.shared⟩ (by simp)
        constructor
        -- the newest entry is the one that marks the primary, or it is down before the entry
        · intro l₁ mark l₂ hlog hmark hnone
          change t.log ++ [_] = _ at hlog
          rcases List.eq_nil_or_concat l₂ with rfl | ⟨l₂, last, rfl⟩
          · obtain ⟨-, hlast⟩ := List.append_inj' hlog rfl
            obtain rfl := (List.cons.inj hlast).1
            exact hmark.down hexec
          · rw [List.concat_eq_append, ← List.cons_append, ← List.append_assoc] at hlog
            obtain ⟨hbegins, hlast⟩ := List.append_inj' hlog rfl
            obtain rfl := (List.cons.inj hlast).1
            refine exec_down hexec ?_ htrue (hnone _ (by simp))
            exact hdown.now l₁ mark l₂ hbegins hmark fun e he => hnone e (by simp [he])
        · intro l₁ mark l₂ e l₃ hlog hmark hnone
          change t.log ++ [_] = _ at hlog
          rcases List.eq_nil_or_concat l₃ with rfl | ⟨l₃, last, rfl⟩
          · rw [← List.cons_append, ← List.append_assoc] at hlog
            obtain ⟨hbegins, hlast⟩ := List.append_inj' hlog rfl
            obtain rfl := (List.cons.inj hlast).1
            exact hdown.now l₁ mark l₂ hbegins hmark hnone
          · rw [List.concat_eq_append, ← List.cons_append, ← List.append_assoc, ← List.cons_append,
              ← List.append_assoc] at hlog
            obtain ⟨hlog, -⟩ := List.append_inj' hlog rfl
            exact hdown.before l₁ mark l₂ e l₃ (by simpa using hlog) hmark hnone

end Down

/-! ## A write -/

section Write

variable {cfg : FailoverConfig} {path : JsString} {init : RequestInit}

/-- A write sends to the primary only. -/
theorem trace_write_primary {es : List (Made TransportOp TransportOp.Answer)}
    {q : TransportProg TransportResult}
    (h : Trace (TransportRequest.program cfg (.write path init)) es q) {made : Made _ _}
    (hmade : made ∈ es) {ep : Endpoint} (hsent : SentTo made ep) : ep = .primary := by
  let toPrimary : TransportOp → Prop := fun o =>
    ∀ ep message, o = .sendIfHealthy ep message ∨ o = .send ep message → ep = .primary
  have huses : (TransportRequest.program cfg (.write path init)).Uses toPrimary := by
    refine Prog.Uses.map ⟨?_, fun sent => ?_⟩
    · intro ep message hop
      simp_all
    · cases sent with
      | false => trivial
      | true =>
          refine ⟨fun ep message hop => ?_, fun outcome => Prog.uses_lift⟩
          simp at hop
  have hop := (h.uses huses).1 made hmade
  cases hsent with
  | sendIfHealthy ep message => exact hop ep message (Or.inl rfl)
  | send ep message => exact hop ep message (Or.inr rfl)

/-- A write that finds the primary unhealthy has thrown, and sent nothing. -/
theorem trace_write_refused {e : Made TransportOp TransportOp.Answer}
    {es : List (Made TransportOp TransportOp.Answer)} {q : TransportProg TransportResult}
    (h : Trace (TransportRequest.program cfg (.write path init)) (e :: es) q) {s t : TransportState}
    (hexec : TransportExec cfg s e.1 e.2 t) (hdown : s.primary.healthy = false) :
    q = .fail .primaryUnavailable ∧ ∀ made ∈ e :: es, ∀ ep, ¬SentTo made ep := by
  cases h with
  | cons x h =>
      have hx : x = false := by
        cases hexec
        simpa [TransportState.endpoint] using hdown
      subst hx
      obtain ⟨rfl, rfl⟩ := trace_fail.mp h
      refine ⟨rfl, fun made hmade ep hsent => ?_⟩
      obtain rfl : made = _ := by simpa using hmade
      cases hsent

end Write

/-! ## Writes of a run -/

section Run

variable {ι : Type} [DecidableEq ι] {cfg : FailoverConfig} {t : TransportConfig ι}

/-- The first entry of a call is the first operation of its own trace. -/
theorem ownTrace_first {i : ι} {log l l' : List (LogEntry ι)} {e : LogEntry ι}
    (hlog : log = l ++ e :: l') (hfirst : ∀ e' ∈ l, e'.call ≠ e.call) (hi : e.call = i) :
    ownTrace i log = e.made :: ownTrace i l' := by
  have hnone : l.filter (fun e' => e'.call = i) = [] := by
    simpa [List.filter_eq_nil_iff, ← hi] using hfirst
  simp [hlog, ownTrace, hnone, hi]

end Run

/-! ## A primary that is restored by an error page -/

section Sample

/-- A single miss marks an endpoint, and there are no replicas. -/
def sampleTransport : FailoverConfig where
  primary := Js.lit "https://a"
  missThreshold := some (.fin 1)

/-- A primary that no request reaches, until a last resort is answered with this status. -/
def sampleOutcome (status : ℕ) : Purpose → Outcome
  | .lastResort => .ok ⟨status⟩
  | _ => .error (.fetchFailed (Js.lit "fetch failed"))

/-- What each operation does when the requests end so. -/
def sampleRun (status : ℕ) (s : TransportState) : (o : TransportOp) → o.Answer × TransportState
  | .sendIfHealthy ep _ => ((s.endpoint ep).any EndpointState.healthy, s)
  | .send _ _ => ((), s)
  | .settle ep purpose =>
      (sampleOutcome status purpose, s.modify
        (record sampleTransport purpose (sampleOutcome status purpose) · (.fin (s.now : ℤ))) ep)
  | .settleOne first _ =>
      ((first, sampleOutcome status .probe), s.modify
        (record sampleTransport .probe (sampleOutcome status .probe) · (.fin (s.now : ℤ))) first)
  | .healthy ep => ((s.endpoint ep).any EndpointState.healthy, s)
  | .healthMap => (s.healthMap, s)

theorem sampleRun_exec (status : ℕ) (s : TransportState) (o : TransportOp) :
    TransportExec sampleTransport s o (sampleRun status s o).1 (sampleRun status s o).2 := by
  cases o with
  | sendIfHealthy ep message => exact .sendIfHealthy s ep message
  | send ep message => exact .send s ep message
  | settle ep purpose => exact .settle s ep purpose _
  | settleOne first others => exact .settleOne s first others first _ List.mem_cons_self
  | healthy ep => exact .healthy s ep
  | healthMap => exact .healthMap s

/-- A write that fails, a read that is answered as a last resort, and another write. -/
def sampleCalls : List TransportRequest :=
  [.write (Js.lit "/x") {}, .read (Js.lit "/x") {}, .write (Js.lit "/x") {}]

def sampleStart : TransportConfig ℕ where
  shared := ⟨.fresh sampleTransport.primary, [], 0⟩
  calls := fun _ => none
  log := []

/-- The three calls, one after another. -/
def served (status : ℕ) : TransportConfig ℕ :=
  (transportService sampleTransport).serveAll (sampleRun status) sampleStart 0 sampleCalls

theorem served_reachable (status : ℕ) :
    Transition.Reachable ((transportService sampleTransport).system ℕ) (served status) := by
  have hstart : Transition.Reachable ((transportService sampleTransport).system ℕ) sampleStart :=
    .init ⟨⟨rfl, rfl⟩, fun _ => rfl, rfl⟩
  exact (Service.run_serveAll (sampleRun_exec status) (fun _ _ => rfl) fun _ _ => trivial).reachable
    hstart

/-- The answer of the last resort has a 2xx status. -/
theorem served_truthful : ∀ e ∈ (served 200).log, Truthful e := by
  have hlog : (served 200).log = [_, _, _, _, _, _, _] := rfl
  intro e he purpose res hfrom hdown hprobe
  rw [hlog] at he
  simp only [List.mem_cons, List.not_mem_nil, or_false] at he
  rcases he with rfl | rfl | rfl | rfl | rfl | rfl | rfl <;> cases hfrom
  rfl

end Sample

end Failover
