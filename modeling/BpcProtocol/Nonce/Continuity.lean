import BpcProtocol.Nonce.GovernedStore

set_option autoImplicit false

/-! # Nonce continuity

However the calls and reconcile loops of any number of verifiers interleave, and whenever Redis
loses its state, a nonce that has been reported fresh is not reported fresh again before its
retention is over: a loss takes the configuration with it, and whoever is first to notice
quarantines the namespace for at least as long. -/

namespace Nonce

open Fallible Async

/-! ## The system -/

/-- An execution of `CONSUME` that reported fresh, and the keys as it found them. -/
structure FreshReport where
  args : ConsumeArgs
  at_ : ℤ
  redis : GovernedRedis

/-- Redis and its clock, the verifiers' gates, and the fresh reports so far. -/
structure GovernedState (ν : Type) where
  redis : GovernedRedis
  now : ℤ
  gates : ν → SharedContinuityGate
  reports : List FreshReport

namespace GovernedState

variable {ν : Type}

def execReconcile (s : GovernedState ν) (a : ReconcileArgs) : GovernedState ν :=
  { s with redis := (reconcileScript a s.now s.redis).2 }

def execConsume (s : GovernedState ν) (a : ConsumeArgs) : GovernedState ν :=
  { s with
    redis := (consumeScript a s.now s.redis).2
    reports := if (consumeScript a s.now s.redis).1.status = .fresh
      then s.reports ++ [⟨a, s.now, s.redis⟩] else s.reports }

end GovernedState

variable {ν : Type} [DecidableEq ν]

/-- What an operation does. A script that is answered with an error has not been executed, or will
    be later. -/
inductive GovernedExec : GovernedState ν → (o : GovernedOp ν) → o.Answer → GovernedState ν → Prop
  | assertNoEvictionPolicy (s : GovernedState ν) (x : Except NonceError Unit) :
      GovernedExec s .assertNoEvictionPolicy x s
  | makeEpoch (s : GovernedState ν) (epoch : JsString) : GovernedExec s .makeEpoch epoch s
  | dateNow (s : GovernedState ν) (nowMs : ℤ) : GovernedExec s .dateNow nowMs s
  | reconcile (s : GovernedState ν) (a : ReconcileArgs) :
      GovernedExec s (.reconcile a) (.ok (reconcileScript a s.now s.redis).1) (s.execReconcile a)
  | reconcileFails (s : GovernedState ν) (a : ReconcileArgs) (e : NonceError) :
      GovernedExec s (.reconcile a) (.error e) s
  | consume (s : GovernedState ν) (a : ConsumeArgs) :
      GovernedExec s (.consume a) (.ok (consumeScript a s.now s.redis).1) (s.execConsume a)
  | consumeFails (s : GovernedState ν) (a : ConsumeArgs) (e : NonceError) :
      GovernedExec s (.consume a) (.error e) s
  | gateNew (s : GovernedState ν) (v : ν) :
      GovernedExec s (.gateNew v) ()
        { s with gates := Function.update s.gates v SharedContinuityGate.new }
  | gateContinuityEpoch (s : GovernedState ν) (v : ν) :
      GovernedExec s (.gateContinuityEpoch v) (s.gates v).continuityEpoch s
  | gateExpectedEpoch (s : GovernedState ν) (v : ν) (nowMs : ℤ) :
      GovernedExec s (.gateExpectedEpoch v) ((s.gates v).expectedEpoch nowMs) s
  | gateApply (s : GovernedState ν) (v : ν) (nowMs : ℤ) (epoch : JsString) (ttlMs : ℤ)
      (reason : QuarantineReason) :
      GovernedExec s (.gateApply v epoch ttlMs reason)
        (do let _ ← (s.gates v).apply nowMs epoch ttlMs reason)
        { s with
          gates := Function.update s.gates v
            (orElse ((s.gates v).apply nowMs epoch ttlMs reason) (s.gates v)) }
  | gateFailClosed (s : GovernedState ν) (v : ν) :
      GovernedExec s (.gateFailClosed v) ()
        { s with gates := Function.update s.gates v (s.gates v).failClosed }
  | gateClose (s : GovernedState ν) (v : ν) :
      GovernedExec s (.gateClose v) ()
        { s with gates := Function.update s.gates v (s.gates v).close }

/-- The scripts that verifiers of one configuration send. -/
def GovernedOp.Configured (cfg : GovernedConfig) : GovernedOp ν → Prop
  | .reconcile a => a.quarantineMs = cfg.quarantineMs ∧ a.config = cfg.continuityConfig
  | .consume a =>
      a.quarantineMs = cfg.quarantineMs ∧ a.ttlMs = cfg.retentionMs ∧
        a.config = cfg.continuityConfig
  | _ => True

/-- The keys without some that have expired. -/
structure Expires (now : ℤ) (r r' : GovernedRedis) : Prop where
  continuity : r'.continuity = r.continuity
  config : r'.config = r.config
  quarantine : r'.quarantine = r.quarantine ∨
    r'.quarantine = none ∧ ∀ q ∈ r.quarantine, q.2 ≤ now
  nonces : ∀ nonce, r'.nonces nonce = r.nonces nonce ∨
    r'.nonces nonce = none ∧ ∀ deadline ∈ r.nonces nonce, deadline ≤ now

/-- What happens to Redis without any call waiting for it: time passes, keys expire, a script is
    executed whose caller no longer waits, or all keys are lost. -/
inductive GovernedEnv (cfg : GovernedConfig) : GovernedState ν → GovernedState ν → Prop
  | tick (s : GovernedState ν) (later : ℤ) :
      s.now ≤ later → GovernedEnv cfg s { s with now := later }
  | expire (s : GovernedState ν) (redis : GovernedRedis) :
      Expires s.now s.redis redis → GovernedEnv cfg s { s with redis }
  | lateReconcile (s : GovernedState ν) (a : ReconcileArgs) :
      GovernedOp.Configured (ν := ν) cfg (.reconcile a) → GovernedEnv cfg s (s.execReconcile a)
  | lateConsume (s : GovernedState ν) (a : ConsumeArgs) :
      GovernedOp.Configured (ν := ν) cfg (.consume a) → GovernedEnv cfg s (s.execConsume a)
  | lose (s : GovernedState ν) : GovernedEnv cfg s { s with redis := .empty }

/-- What is called on a verifier: its creation, its nonce store, its reconcile loop, its end. -/
inductive GovernedRequest (ν : Type) where
  | create (v : ν)
  | checkAndConsume (v : ν) (nonce : JsString)
  | reconcile (v : ν)
  | stop (v : ν)

inductive GovernedResult where
  | done
  | consumed (replay : Bool)
  deriving DecidableEq

variable (cfg : GovernedConfig)

/-- The program of each request. -/
def GovernedRequest.program : GovernedRequest ν → GovernedProg ν GovernedResult
  | .create v => do
      createGovernedRedisBackedNonceStore cfg v
      pure .done
  | .checkAndConsume v nonce => do
      let replay ← serverCheckAndConsume cfg v nonce
      pure (.consumed replay)
  | .reconcile v => do
      Nonce.reconcile cfg v
      pure .done
  | .stop v => do
      perform (.gateClose v)
      pure .done

/-- Verifiers of one configuration, from a Redis without keys. -/
def governedService : Service (GovernedRequest ν) (GovernedOp ν) GovernedOp.Answer NonceError
    GovernedResult (GovernedState ν) where
  body := GovernedRequest.program cfg
  admits _ := True
  init s := s.redis = .empty ∧ s.reports = []
  exec := GovernedExec
  env := GovernedEnv cfg

/-! ## The invariant -/

/-- The marker carried the expected epoch, the stored configuration was that of the verifiers, and
    no quarantine was in force. -/
structure FreshReport.Checked (rep : FreshReport) : Prop where
  epoch : rep.redis.continuity = some rep.args.expectedEpoch
  config : rep.redis.config = some cfg.continuityConfig
  quarantine : rep.redis.liveQuarantine rep.at_ = none

/-- Two reports of one nonce, the second after the retention of the first. -/
def FreshReport.Apart (first second : FreshReport) : Prop :=
  first.args.nonce = second.args.nonce → first.at_ + cfg.retentionMs ≤ second.at_

structure ReportsInv (s : GovernedState ν) : Prop where
  past : ∀ rep ∈ s.reports, rep.at_ ≤ s.now
  remembered : ∀ rep ∈ s.reports,
    Remembered cfg.retentionMs s.now s.redis rep.args.nonce rep.at_
  checked : ∀ rep ∈ s.reports, rep.Checked cfg
  apart : s.reports.Pairwise (FreshReport.Apart cfg)

variable {cfg}

omit [DecidableEq ν] in
theorem ReportsInv.guarded {s : GovernedState ν} (h : ReportsInv cfg s) {redis : GovernedRedis}
    (hguarded : Guarded cfg.quarantineMs s.now s.redis redis) :
    ReportsInv cfg { s with redis } :=
  ⟨h.past, fun rep hrep => (h.remembered rep hrep).guarded cfg.retention_le (h.past rep hrep)
    hguarded, h.checked, h.apart⟩

omit [DecidableEq ν] in
theorem ReportsInv.execReconcile {s : GovernedState ν} (h : ReportsInv cfg s) {a : ReconcileArgs}
    (ha : GovernedOp.Configured (ν := ν) cfg (.reconcile a)) :
    ReportsInv cfg (s.execReconcile a) :=
  h.guarded (ha.1 ▸ reconcileScript_guarded a s.now s.redis)

omit [DecidableEq ν] in
/-- A fresh report comes after the retention of every earlier one of its nonce, and from then on its
    nonce is remembered. -/
theorem ReportsInv.execConsume {s : GovernedState ν} (h : ReportsInv cfg s) {a : ConsumeArgs}
    (ha : GovernedOp.Configured (ν := ν) cfg (.consume a)) : ReportsInv cfg (s.execConsume a) := by
  obtain ⟨hquarantine, httl, hconfig⟩ := ha
  unfold GovernedState.execConsume
  rcases consumeScript_spec a s.now s.redis with ⟨hfresh, hspec⟩ | ⟨hother, hguarded⟩
  · rw [if_pos hfresh]
    refine ⟨fun rep hrep => ?_, fun rep hrep => ?_, fun rep hrep => ?_, ?_⟩
    · rcases List.mem_append.mp hrep with hrep | hrep
      · exact h.past rep hrep
      · rw [List.mem_singleton.mp hrep]
    · rcases List.mem_append.mp hrep with hrep | hrep
      · exact (h.remembered rep hrep).consume (h.past rep hrep) httl hspec
      · rw [List.mem_singleton.mp hrep, hspec.next]
        refine Or.inr (Or.inl ⟨s.now + a.ttlMs, Function.update_self _ _ _, ?_⟩)
        exact Int.le_of_eq (by rw [httl])
    · rcases List.mem_append.mp hrep with hrep | hrep
      · exact h.checked rep hrep
      · rw [List.mem_singleton.mp hrep]
        exact ⟨hspec.epoch, hconfig ▸ hspec.config, hspec.quarantine⟩
    · refine List.pairwise_append.mpr ⟨h.apart, List.pairwise_singleton _ _, ?_⟩
      intro rep hrep rep' hrep' hnonce
      rw [List.mem_singleton.mp hrep'] at hnonce ⊢
      exact Remembered.elapsed (hnonce ▸ h.remembered rep hrep) hspec
  · rw [if_neg hother]
    exact h.guarded (hquarantine ▸ hguarded)

theorem Remembered.tick {retentionMs now later t : ℤ} {r : GovernedRedis} {nonce : JsString}
    (h : Remembered retentionMs now r nonce t) (hle : now ≤ later) :
    Remembered retentionMs later r nonce t := by
  rcases h with hdone | hrest
  · exact Or.inl (by omega)
  · exact Or.inr hrest

theorem Remembered.expire {retentionMs now t : ℤ} {r r' : GovernedRedis} {nonce : JsString}
    (h : Remembered retentionMs now r nonce t) (hexp : Expires now r r') :
    Remembered retentionMs now r' nonce t := by
  rcases h with hdone | ⟨deadline, hkey, hle⟩ | ⟨epoch, deadline, hq, hle⟩ | hc
  · exact Or.inl hdone
  · rcases hexp.nonces nonce with hsame | ⟨-, hpast⟩
    · exact Or.inr (Or.inl ⟨deadline, hsame.trans hkey, hle⟩)
    · exact Or.inl (Int.le_trans hle (hpast deadline hkey))
  · rcases hexp.quarantine with hsame | ⟨-, hpast⟩
    · exact Or.inr (Or.inr (Or.inl ⟨epoch, deadline, hsame.trans hq, hle⟩))
    · exact Or.inl (Int.le_trans hle (hpast _ hq))
  · exact Or.inr (Or.inr (Or.inr (hexp.config.trans hc)))

omit [DecidableEq ν] in
theorem ReportsInv.env {s t : GovernedState ν} (h : ReportsInv cfg s) (hstep : GovernedEnv cfg s t) :
    ReportsInv cfg t := by
  cases hstep with
  | tick later hle =>
      exact ⟨fun rep hrep => Int.le_trans (h.past rep hrep) hle,
        fun rep hrep => (h.remembered rep hrep).tick hle, h.checked, h.apart⟩
  | expire redis hexp =>
      exact ⟨h.past, fun rep hrep => (h.remembered rep hrep).expire hexp, h.checked, h.apart⟩
  | lateReconcile a ha => exact h.execReconcile ha
  | lateConsume a ha => exact h.execConsume ha
  | lose => exact ⟨h.past, fun _ _ => Or.inr (Or.inr (Or.inr rfl)), h.checked, h.apart⟩

theorem ReportsInv.exec {s t : GovernedState ν} (h : ReportsInv cfg s) {o : GovernedOp ν}
    {x : o.Answer} (ho : o.Configured cfg) (hstep : GovernedExec s o x t) : ReportsInv cfg t := by
  cases hstep with
  | reconcile a => exact h.execReconcile ho
  | consume a => exact h.execConsume ho
  | _ => exact ⟨h.past, h.remembered, h.checked, h.apart⟩

/-! ## What the verifiers send -/

variable (cfg)

omit [DecidableEq ν] in
theorem uses_attempt {α : Type} {p : GovernedProg ν (Except NonceError α)}
    (h : p.Uses (GovernedOp.Configured cfg)) :
    (attempt p).Uses (GovernedOp.Configured cfg) :=
  h.bind fun _ => Prog.uses_lift

omit [DecidableEq ν] in
theorem uses_perform {o : GovernedOp ν} (h : o.Configured cfg) :
    (perform o).Uses (GovernedOp.Configured cfg) :=
  ⟨h, fun _ => trivial⟩

omit [DecidableEq ν] in
theorem uses_makeEpoch : (makeEpoch : GovernedProg ν JsString).Uses (GovernedOp.Configured cfg) :=
  ⟨trivial, fun _ => Prog.uses_lift⟩

omit [DecidableEq ν] in
theorem uses_enterQuarantine (v : ν) (reply : ScriptReply) (reason : QuarantineReason) :
    (enterQuarantine v reply reason).Uses (GovernedOp.Configured cfg) := by
  refine Prog.uses_lift.bind fun _ => Prog.uses_lift.bind fun _ => ?_
  exact (uses_attempt cfg (uses_perform cfg (o := .gateApply v _ _ _) trivial)).bind fun _ =>
    ⟨trivial, fun _ => trivial⟩

omit [DecidableEq ν] in
theorem uses_onConsumeReply (v : ν) (expectedEpoch : JsString) (reply : ScriptReply) :
    (onConsumeReply v expectedEpoch reply).Uses (GovernedOp.Configured cfg) := by
  unfold onConsumeReply
  split <;> first | exact uses_enterQuarantine cfg v _ _ |
    exact Prog.uses_lift.bind fun _ => trivial | trivial

omit [DecidableEq ν] in
theorem uses_serverCheckAndConsume (v : ν) (nonce : JsString) :
    (serverCheckAndConsume cfg v nonce).Uses (GovernedOp.Configured cfg) := by
  have hconsume : ∀ expectedEpoch newEpoch,
      (consumeNonce cfg v nonce expectedEpoch newEpoch).Uses (GovernedOp.Configured cfg) := by
    intro expectedEpoch newEpoch
    refine (uses_attempt cfg (uses_perform cfg (o := .consume _) ⟨rfl, rfl, rfl⟩)).bind
      fun reply => ?_
    exact uses_onConsumeReply cfg v expectedEpoch reply
  have hcheck : (checkAndConsume cfg v nonce).Uses (GovernedOp.Configured cfg) := by
    refine Prog.uses_lift.bind fun _ => ?_
    refine (uses_attempt cfg (uses_perform cfg (o := .gateExpectedEpoch v) trivial)).bind
      fun expectedEpoch => ?_
    refine (uses_makeEpoch cfg).bind fun newEpoch => ?_
    refine (hconsume expectedEpoch newEpoch).tryCatch fun e => ?_
    cases e with
    | authorizationQuarantine => trivial
    | _ => exact ⟨trivial, fun _ => trivial⟩
  refine hcheck.tryCatch fun e => ?_
  cases e <;> trivial

omit [DecidableEq ν] in
theorem uses_evalReconcile (newEpoch expectedEpoch : JsString) :
    (evalReconcile cfg newEpoch expectedEpoch : GovernedProg ν ScriptReply).Uses
      (GovernedOp.Configured cfg) :=
  uses_attempt cfg (uses_perform cfg (o := .reconcile _) ⟨rfl, rfl⟩)

omit [DecidableEq ν] in
theorem uses_reconcile (v : ν) :
    (Nonce.reconcile cfg v).Uses (GovernedOp.Configured cfg) := by
  have hbody : (reconcileBody cfg v).Uses (GovernedOp.Configured cfg) := by
    refine (uses_attempt cfg (uses_perform cfg (o := .assertNoEvictionPolicy) trivial)).bind
      fun _ => ?_
    refine (uses_attempt cfg (uses_perform cfg (o := .gateContinuityEpoch v) trivial)).bind
      fun expectedEpoch => ?_
    refine (uses_makeEpoch cfg).bind fun newEpoch => ?_
    refine (uses_evalReconcile cfg newEpoch expectedEpoch).bind fun reply => ?_
    refine Prog.uses_lift.bind fun epoch => Prog.uses_lift.bind fun _ => ?_
    exact uses_attempt cfg (uses_perform cfg (o := .gateApply v _ _ _) trivial)
  exact hbody.tryCatch fun e => ⟨trivial, fun _ => trivial⟩

omit [DecidableEq ν] in
theorem uses_create (v : ν) :
    (createGovernedRedisBackedNonceStore cfg v).Uses (GovernedOp.Configured cfg) := by
  refine (uses_makeEpoch cfg).bind fun initialEpoch => ?_
  refine ⟨trivial, fun _ => ?_⟩
  refine (uses_attempt cfg (uses_perform cfg (o := .assertNoEvictionPolicy) trivial)).bind
    fun _ => ?_
  refine (uses_evalReconcile cfg initialEpoch cfg.expectedEpoch).bind fun reply => ?_
  refine Prog.uses_lift.bind fun epoch => Prog.uses_lift.bind fun _ => ?_
  exact uses_attempt cfg (uses_perform cfg (o := .gateApply v _ _ _) trivial)

omit [DecidableEq ν] in
/-- Every script a verifier sends carries its configuration. -/
theorem uses_program (r : GovernedRequest ν) :
    (r.program cfg).Uses (GovernedOp.Configured cfg) := by
  cases r with
  | create v => exact (uses_create cfg v).bind fun _ => trivial
  | checkAndConsume v nonce => exact (uses_serverCheckAndConsume cfg v nonce).bind fun _ => trivial
  | reconcile v => exact (uses_reconcile cfg v).bind fun _ => trivial
  | stop v => exact ⟨trivial, fun _ => trivial⟩

/-! ## What the verifiers report -/

omit [DecidableEq ν] in
theorem throws_onConsumeError (v : ν) (e : NonceError) : (onConsumeError v e).Throws := by
  cases e with
  | authorizationQuarantine => trivial
  | _ => exact fun _ => trivial

omit [DecidableEq ν] in
theorem throws_enterQuarantine (v : ν) (reply : ScriptReply) (reason : QuarantineReason) :
    (enterQuarantine v reply reason).Throws :=
  .bind fun _ => .bind fun _ => .bind fun _ => .bind fun _ => trivial

omit [DecidableEq ν] in
/-- Only the reply `FRESH` makes `checkAndConsume` answer `false`. -/
theorem fresh_of_onConsumeReply {v : ν} {expectedEpoch : JsString} {reply : ScriptReply}
    {es : List (Made (GovernedOp ν) GovernedOp.Answer)}
    (h : Trace (onConsumeReply v expectedEpoch reply) es (.ret false)) :
    reply.status = .fresh := by
  unfold onConsumeReply at h
  split at h
  · assumption
  · obtain ⟨_, _, _, -, -, h⟩ := h.of_bind
    cases (trace_ret.mp h).2
  all_goals first
    | exact ((throws_enterQuarantine v _ _).not_trace h).elim
    | cases (trace_fail.mp h).2

omit [DecidableEq ν] in
/-- A call that answers `false` has had a fresh reply for its nonce. -/
theorem fresh_of_serverCheckAndConsume {v : ν} {nonce : JsString}
    {es : List (Made (GovernedOp ν) GovernedOp.Answer)}
    (h : Trace (serverCheckAndConsume cfg v nonce) es (.ret false)) :
    ∃ (a : ConsumeArgs) (reply : ScriptReply), a.nonce = nonce ∧ reply.status = .fresh ∧
      (⟨.consume a, .ok reply⟩ : Made (GovernedOp ν) GovernedOp.Answer) ∈ es := by
  rcases h.of_tryCatch with h | ⟨_, _, e, -, -, h⟩
  · obtain ⟨_, es, _, rfl, -, h⟩ := h.of_bind
    obtain ⟨_, es, expectedEpoch, rfl, -, h⟩ := h.of_bind
    obtain ⟨_, es, newEpoch, rfl, -, h⟩ := h.of_bind
    rcases h.of_tryCatch with h | ⟨_, _, e, -, -, h⟩
    · obtain ⟨es₁, es₂, reply, rfl, hsent, hreply⟩ := h.of_bind
      obtain ⟨x, es', rfl, hx⟩ := trace_await_ret.mp hsent
      obtain ⟨rfl, rfl⟩ := trace_lift_ret.mp hx
      exact ⟨{ nonce, expectedEpoch, newEpoch, quarantineMs := cfg.quarantineMs
               ttlMs := cfg.retentionMs, config := cfg.continuityConfig },
        reply, rfl, fresh_of_onConsumeReply hreply, by simp⟩
    · exact ((throws_onConsumeError v e).not_trace h).elim
  · cases e <;> cases (trace_fail.mp h).2

variable {ι : Type} [DecidableEq ι]

/-- A run of any number of calls of any number of verifiers. -/
abbrev GovernedRun (ι ν : Type) :=
  Config ι (GovernedRequest ν) (GovernedOp ν) GovernedOp.Answer NonceError GovernedResult
    (GovernedState ν)

/-- The fresh replies in the log are among the reports. -/
def LogReported (run : GovernedRun ι ν) : Prop :=
  ∀ e ∈ run.log, ∀ a reply,
    e.made = (⟨.consume a, .ok reply⟩ : Made (GovernedOp ν) GovernedOp.Answer) →
    reply.status = .fresh → ∃ rep ∈ run.shared.reports, rep.args = a

/-- Reports are kept. -/
def Kept (s t : GovernedState ν) : Prop := ∀ rep ∈ s.reports, rep ∈ t.reports

omit [DecidableEq ν] in
theorem kept_execConsume (s : GovernedState ν) (a : ConsumeArgs) : Kept s (s.execConsume a) := by
  intro rep hrep
  unfold GovernedState.execConsume
  split
  · exact List.mem_append_left _ hrep
  · exact hrep

theorem kept_exec {s t : GovernedState ν} {o : GovernedOp ν} {x : o.Answer}
    (h : GovernedExec s o x t) : Kept s t := by
  cases h with
  | consume a => exact kept_execConsume s a
  | _ => exact fun _ hrep => hrep

omit [DecidableEq ν] in
theorem kept_env {s t : GovernedState ν} (h : GovernedEnv cfg s t) : Kept s t := by
  cases h with
  | lateConsume a => exact kept_execConsume s a
  | _ => exact fun _ hrep => hrep

omit [DecidableEq ι] [DecidableEq ν] in
theorem LogReported.kept {run : GovernedRun ι ν} (h : LogReported run) {t : GovernedState ν}
    (hkept : Kept run.shared t) : LogReported { run with shared := t } := by
  intro e he a reply hmade hfresh
  obtain ⟨rep, hrep, hargs⟩ := h e he a reply hmade hfresh
  exact ⟨rep, hkept rep hrep, hargs⟩

theorem logReported {run : GovernedRun ι ν}
    (h : Transition.Reachable ((governedService cfg).system ι) run) : LogReported run := by
  refine h.invariant ?_ ?_
  · rintro run ⟨-, -, hlog⟩ e he
    rw [hlog] at he
    cases he
  · rintro run run' - ih hstep
    cases hstep with
    | start i r hadmits hnone => exact ih
    | env s henv => exact ih.kept (kept_env cfg henv)
    | exec i r o k x s hcall hexec =>
        intro e he a reply hmade hfresh
        rcases List.mem_append.mp he with he | he
        · exact ih.kept (kept_exec hexec) e he a reply hmade hfresh
        · rw [List.mem_singleton.mp he] at hmade
          obtain ⟨rfl, hx⟩ := Sigma.mk.inj_iff.mp hmade
          obtain rfl := eq_of_heq hx
          cases hexec with
          | consume =>
              refine ⟨⟨a, run.shared.now, run.shared.redis⟩, ?_, rfl⟩
              show _ ∈ ite _ _ _
              rw [if_pos hfresh]
              exact List.mem_append_right _ List.mem_cons_self

/-! ## Continuity -/

/-- The reports of one nonce lie its retention apart, each was checked in the execution that made
    it, and a call answers that a nonce is fresh only after such a report. -/
structure NonceContinuity (run : GovernedRun ι ν) : Prop where
  apart : run.shared.reports.Pairwise (FreshReport.Apart cfg)
  checked : ∀ rep ∈ run.shared.reports, rep.Checked cfg
  reported : ∀ i v nonce,
    run.calls i = some ⟨.checkAndConsume v nonce, .ret (.consumed false)⟩ →
    ∃ rep ∈ run.shared.reports, rep.args.nonce = nonce

/-- **No fresh nonce twice within its retention**, in any run of any verifiers of one
    configuration. -/
theorem nonceContinuity {run : GovernedRun ι ν}
    (h : Transition.Reachable ((governedService cfg).system ι) run) : NonceContinuity cfg run := by
  have hinv : ReportsInv cfg run.shared := by
    refine Service.invariant (fun r _ => uses_program cfg r) ?_ ?_ ?_ h
    · rintro s ⟨-, hreports⟩
      refine ⟨?_, ?_, ?_, ?_⟩ <;> simp [hreports]
    · exact fun s o x t ho hs hexec => hs.exec ho hexec
    · exact fun s t hs henv => hs.env henv
  refine ⟨hinv.apart, hinv.checked, fun i v nonce hcall => ?_⟩
  obtain ⟨-, htrace⟩ := (Service.trace_of_reachable h i).1 _ _ hcall
  obtain ⟨es₁, es₂, replay, hes, hserver, hret⟩ := htrace.of_bind
  obtain ⟨-, hfalse⟩ := trace_ret.mp hret
  have hreplay : replay = false := by simpa using hfalse.symm
  obtain ⟨a, reply, hnonce, hfresh, hmem⟩ := fresh_of_serverCheckAndConsume cfg (hreplay ▸ hserver)
  have hown : (⟨.consume a, .ok reply⟩ : Made (GovernedOp ν) GovernedOp.Answer) ∈
      ownTrace i run.log := by
    rw [hes]
    exact List.mem_append_left _ hmem
  obtain ⟨e, he, hmade⟩ := List.mem_map.mp hown
  obtain ⟨rep, hrep, hargs⟩ := logReported cfg h e (List.mem_filter.mp he).1 a reply hmade hfresh
  exact ⟨rep, hrep, hargs ▸ hnonce⟩

namespace ContinuityExample

/-- A retention of two milliseconds and a quarantine no longer. -/
def config : GovernedConfig where
  retentionMs := 2
  quarantineMs := 2
  expectedEpoch := []
  retention_pos := by decide
  retention_le := by decide

def bootstrap : ReconcileArgs :=
  { newEpoch := Js.lit "e", quarantineMs := 2, expectedEpoch := []
    config := config.continuityConfig }

def consume : ConsumeArgs :=
  { nonce := Js.lit "n", expectedEpoch := Js.lit "e", newEpoch := Js.lit "f", quarantineMs := 2
    ttlMs := 2, config := config.continuityConfig }

def start : GovernedState Unit := ⟨.empty, 0, fun _ => .new, []⟩

/-- The nonce is consumed once the quarantine is over, and again after its retention. -/
def twice : GovernedState Unit :=
  GovernedState.execConsume { GovernedState.execConsume { start.execReconcile bootstrap with now := 3 }
    consume with now := 6 } consume

abbrev run (s : GovernedState Unit) : GovernedRun Unit Unit := ⟨s, fun _ => none, []⟩

theorem reaches_twice :
    Transition.Reachable ((governedService config).system Unit) (run twice) := by
  have h₀ : Transition.Reachable ((governedService config).system Unit) (run start) :=
    .init ⟨⟨rfl, rfl⟩, fun _ => rfl, rfl⟩
  have h₁ := h₀.next (.env _ (.lateReconcile _ bootstrap ⟨rfl, rfl⟩))
  have h₂ := h₁.next (.env _ (.tick _ 3 (by decide)))
  have h₃ := h₂.next (.env _ (.lateConsume _ consume ⟨rfl, rfl, rfl⟩))
  have h₄ := h₃.next (.env _ (.tick _ 6 (by decide)))
  exact h₄.next (.env _ (.lateConsume _ consume ⟨rfl, rfl, rfl⟩))

end ContinuityExample

/-- A run to which the theorem applies: two fresh reports of one nonce, at 3 and at 6. -/
theorem nonceContinuity_twice :
    NonceContinuity ContinuityExample.config (ContinuityExample.run ContinuityExample.twice) ∧
      ContinuityExample.twice.reports.map FreshReport.at_ = [3, 6] :=
  ⟨nonceContinuity ContinuityExample.config ContinuityExample.reaches_twice, by decide +kernel⟩

end Nonce
