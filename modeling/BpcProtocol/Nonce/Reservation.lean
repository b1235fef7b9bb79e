import BpcProtocol.Nonce.Checkpoint

set_option autoImplicit false

/-! # Reserved sequences

Any number of callers reserve sequences from one witness, which fails or answers at any time, and
mirror them into Redis or crash before they do, while Redis may be restored to anything that it has
held. No sequence is reserved twice, and from a reservation on, until Redis has caught up, every
check of what Redis holds is a rollback. -/

namespace Checkpoint

open Fallible Async CheckpointState

/-! ## The witness and its callers -/

/-- The witness, the compare-and-sets that have succeeded, those that were answered with an error
    and may yet be executed, and what Redis holds and has held. -/
structure WitnessState where
  row : Option CheckpointState
  advances : List CheckpointState
  inFlight : List (Option CheckpointState × CheckpointState)
  redis : RedisSequenceView
  history : List RedisSequenceView

/-- A compare-and-set has succeeded. -/
def WitnessState.advanced (s : WitnessState) (next : CheckpointState) : WitnessState :=
  { s with row := some next, advances := s.advances ++ [next] }

/-- What Redis holds from now on. -/
def WitnessState.hold (s : WitnessState) (view : RedisSequenceView) : WitnessState :=
  { s with redis := view, history := s.history ++ [view] }

/-- What an operation does. The witness answers truly or with an error: a conflict only if the row
    was not the expected one, and the row it has set only if it has set it. -/
inductive CheckpointExec :
    WitnessState → (o : CheckpointOp) → o.Answer → WitnessState → Prop
  | authorizeProvision (s : WitnessState) (ns genesisEpoch : JsString)
      (x : Except CheckpointError Bool) :
      CheckpointExec s (.authorizeProvision ns genesisEpoch) x s
  | read (s : WitnessState) (ns : JsString) : CheckpointExec s (.read ns) (.ok s.row) s
  | readFails (s : WitnessState) (ns : JsString) (err : CheckpointError) :
      CheckpointExec s (.read ns) (.error err) s
  | advance (s : WitnessState) (ns : JsString) (expected : Option CheckpointState)
      (next : CheckpointState) :
      s.row = expected →
      CheckpointExec s (.compareAndAdvance ns expected next) (.ok next) (s.advanced next)
  | conflict (s : WitnessState) (ns : JsString) (expected : Option CheckpointState)
      (next : CheckpointState) :
      s.row ≠ expected →
      CheckpointExec s (.compareAndAdvance ns expected next) (.error .checkpointConflict) s
  | advanceFails (s : WitnessState) (ns : JsString) (expected : Option CheckpointState)
      (next : CheckpointState) (err : CheckpointError) :
      err ≠ .checkpointConflict →
      CheckpointExec s (.compareAndAdvance ns expected next) (.error err)
        { s with inFlight := (expected, next) :: s.inFlight }
  | genesis (s : WitnessState) (ns : JsString) (genesis : CheckpointState) :
      s.row = none →
      CheckpointExec s (.createGenesis ns genesis) (.ok genesis) { s with row := some genesis }
  | genesisFails (s : WitnessState) (ns : JsString) (genesis : CheckpointState)
      (err : CheckpointError) :
      CheckpointExec s (.createGenesis ns genesis) (.error err) s

/-- What happens without any call waiting for it: a compare-and-set is executed whose caller no
    longer waits, a genesis row is created, a reserved state is mirrored into Redis, or Redis is
    restored to what it has held. -/
inductive CheckpointEnv : WitnessState → WitnessState → Prop
  | lateAdvance (s : WitnessState) (expected : Option CheckpointState) (next : CheckpointState) :
      (expected, next) ∈ s.inFlight → s.row = expected → CheckpointEnv s (s.advanced next)
  | lateGenesis (s : WitnessState) (genesis : CheckpointState) :
      s.row = none → CheckpointEnv s { s with row := some genesis }
  | mirror (s : WitnessState) (reserved : CheckpointState) :
      reserved ∈ s.advances → CheckpointEnv s (s.hold reserved)
  | restore (s : WitnessState) (view : RedisSequenceView) :
      view ∈ s.history → CheckpointEnv s (s.hold view)

inductive CheckpointRequest where
  | provision (genesisEpoch : JsString)
  | check (redis : RedisSequenceView)
  | reserve (redis : RedisSequenceView)

inductive CheckpointResult where
  | provisioned (genesis : CheckpointState)
  | verdict (v : RollbackVerdict)
  | reserved (sequence : JsNumber)

variable (g : RollbackCheckpointGuard)

/-- The program of each request. -/
def CheckpointRequest.program : CheckpointRequest → CheckpointProg CheckpointResult
  | provision genesisEpoch => .provisioned <$> g.provision genesisEpoch
  | check redis => .verdict <$> g.check redis
  | reserve redis => .reserved <$> g.reserve redis

/-- The callers of one witness, from any row and any view of it in Redis. -/
def checkpointService : Service CheckpointRequest CheckpointOp CheckpointOp.Answer CheckpointError
    CheckpointResult WitnessState where
  body := CheckpointRequest.program g
  admits _ := True
  init s := s.advances = [] ∧ s.inFlight = [] ∧ s.history = [s.redis]
  exec := CheckpointExec
  env := CheckpointEnv

abbrev CheckpointConfig (ι : Type) :=
  Config ι CheckpointRequest CheckpointOp CheckpointOp.Answer CheckpointError CheckpointResult
    WitnessState

variable (ι : Type) [DecidableEq ι]

abbrev checkpointSystem : Transition.System (CheckpointConfig ι) :=
  (checkpointService g).system ι

/-- The view of Redis that a request presents. -/
def CheckpointRequest.presents (view : RedisSequenceView) : CheckpointRequest → Prop
  | .provision _ => True
  | .check redis => redis = view
  | .reserve redis => redis = view

/-- A call that starts presents what Redis holds. -/
def PresentsRedis {ι : Type} (cfg cfg' : CheckpointConfig ι) : Prop :=
  ∀ i call, cfg.calls i = none → cfg'.calls i = some call → call.req.presents cfg.shared.redis

/-- The runs in which callers present what they read in Redis. -/
abbrev mirroredSystem : Transition.System (CheckpointConfig ι) :=
  (checkpointSystem g ι).restrict PresentsRedis

/-! ## What one step does to the witness -/

variable {g} {ι}

/-- The operations that the calls of the service make. -/
def Sent (o : CheckpointOp) : Prop :=
  ∃ view, o.SentFor view

theorem uses_of_presents {r : CheckpointRequest} {view : RedisSequenceView} (h : r.presents view) :
    (r.program g).Uses (CheckpointOp.SentFor view) := by
  cases r with
  | provision genesisEpoch => exact (RollbackCheckpointGuard.uses_provision genesisEpoch).map
  | check redis => exact (RollbackCheckpointGuard.uses_check redis).map
  | reserve redis =>
      obtain rfl : redis = view := h
      exact RollbackCheckpointGuard.uses_reserve.map

theorem uses_sent (r : CheckpointRequest) : (r.program g).Uses Sent := by
  have hpresents : ∃ view, r.presents view := by
    cases r with
    | provision genesisEpoch => exact ⟨⟨[], .nan⟩, trivial⟩
    | check redis => exact ⟨redis, rfl⟩
    | reserve redis => exact ⟨redis, rfl⟩
  obtain ⟨view, hview⟩ := hpresents
  exact (uses_of_presents hview).mono fun o ho => ⟨view, ho⟩

/-- A step leaves the witness alone, creates its row, or advances it by one. -/
inductive Moves (s t : WitnessState) : Prop
  | keep : t.row = s.row → t.advances = s.advances → Moves s t
  | genesis : s.row = none → t.advances = s.advances → Moves s t
  | advance (v : CheckpointState) :
      v.Reservable → s.row = some v → t.row = some (v.advance 1) →
      t.advances = s.advances ++ [v.advance 1] → Moves s t

/-- What holds of the witness at every moment. -/
structure WitnessInv (s : WitnessState) : Prop where
  flight : ∀ p ∈ s.inFlight, ∃ v : CheckpointState, v.Reservable ∧ p = (some v, v.advance 1)
  valid : s.advances ≠ [] → ∃ row, s.row = some row ∧ row.Valid

theorem exec_moves {s t : WitnessState} {o : CheckpointOp} {x : o.Answer} (ho : Sent o)
    (h : CheckpointExec s o x t) : Moves s t := by
  obtain ⟨view, ho⟩ := ho
  cases h with
  | authorizeProvision ns genesisEpoch => exact .keep rfl rfl
  | read ns => exact .keep rfl rfl
  | readFails ns err => exact .keep rfl rfl
  | conflict ns expected next hne => exact .keep rfl rfl
  | advanceFails ns expected next err hne => exact .keep rfl rfl
  | genesisFails ns genesis err => exact .keep rfl rfl
  | genesis ns genesis hrow => exact .genesis hrow rfl
  | advance ns expected next hrow =>
      obtain ⟨hres, rfl, rfl⟩ := ho
      exact .advance view hres hrow rfl rfl

theorem env_moves {s t : WitnessState} (hs : WitnessInv s) (h : CheckpointEnv s t) :
    Moves s t := by
  cases h with
  | lateGenesis genesis hrow => exact .genesis hrow rfl
  | mirror reserved hmem => exact .keep rfl rfl
  | restore view hmem => exact .keep rfl rfl
  | lateAdvance expected next hmem hrow =>
      obtain ⟨v, hres, hp⟩ := hs.flight _ hmem
      cases hp
      exact .advance v hres hrow rfl rfl

theorem Moves.valid {s t : WitnessState} (h : Moves s t)
    (hs : s.advances ≠ [] → ∃ row, s.row = some row ∧ row.Valid) :
    t.advances ≠ [] → ∃ row, t.row = some row ∧ row.Valid := by
  intro ht
  cases h with
  | keep hrow hadvances =>
      rw [hrow]
      exact hs (hadvances ▸ ht)
  | genesis hrow hadvances =>
      obtain ⟨row, hsome, -⟩ := hs (hadvances ▸ ht)
      rw [hrow] at hsome
      cases hsome
  | advance v hres hrow hrow' hadvances => exact ⟨_, hrow', hres.valid_advance⟩

theorem WitnessInv.exec {s t : WitnessState} {o : CheckpointOp} {x : o.Answer} (hs : WitnessInv s)
    (ho : Sent o) (h : CheckpointExec s o x t) : WitnessInv t := by
  refine ⟨?_, (exec_moves ho h).valid hs.valid⟩
  obtain ⟨view, ho⟩ := ho
  cases h with
  | advanceFails ns expected next err hne =>
      intro p hp
      rcases List.mem_cons.mp hp with rfl | hp
      · obtain ⟨hres, rfl, rfl⟩ := ho
        exact ⟨view, hres, rfl⟩
      · exact hs.flight p hp
  | _ => exact hs.flight

theorem WitnessInv.env {s t : WitnessState} (hs : WitnessInv s) (h : CheckpointEnv s t) :
    WitnessInv t := by
  refine ⟨?_, (env_moves hs h).valid hs.valid⟩
  cases h <;> exact hs.flight

theorem witnessInv_of_reachable {cfg : CheckpointConfig ι}
    (h : Transition.Reachable (checkpointSystem g ι) cfg) : WitnessInv cfg.shared := by
  refine Service.invariant (fun r _ => uses_sent r) ?_ ?_ ?_ h
  · rintro s ⟨hadvances, hflight, -⟩
    refine ⟨fun p hp => ?_, fun hne => absurd hadvances hne⟩
    rw [hflight] at hp
    cases hp
  · exact fun s o x t ho hs hx => hs.exec ho hx
  · exact fun s t hs hstep => hs.env hstep

/-! ## The witness over a run -/

/-- As many reservations later as compare-and-sets have succeeded since. -/
def Later (s t : WitnessState) : Prop :=
  ∃ k, t.advances.length = s.advances.length + k ∧
    ∀ row, s.row = some row → t.row = some (row.advance k)

theorem Later.refl (s : WitnessState) : Later s s :=
  ⟨0, rfl, fun row hrow => by rw [hrow, advance_zero]⟩

theorem Later.trans {s t u : WitnessState} (h : Later s t) (h' : Later t u) : Later s u := by
  obtain ⟨j, hj, hrow⟩ := h
  obtain ⟨k, hk, hrow'⟩ := h'
  refine ⟨j + k, by omega, fun row hs => ?_⟩
  rw [hrow' _ (hrow row hs), advance_advance]

theorem Later.advances_ne_nil {s t : WitnessState} (h : Later s t) (hs : s.advances ≠ []) :
    t.advances ≠ [] := by
  obtain ⟨k, hk, -⟩ := h
  intro hnone
  have hpos := List.length_pos_iff.mpr hs
  rw [hnone, List.length_nil] at hk
  omega

theorem Moves.later {s t : WitnessState} (h : Moves s t) : Later s t := by
  cases h with
  | keep hrow hadvances =>
      refine ⟨0, by rw [hadvances]; rfl, fun row hs => ?_⟩
      rw [hrow, hs, advance_zero]
  | genesis hrow hadvances =>
      refine ⟨0, by rw [hadvances]; rfl, fun row hs => ?_⟩
      rw [hrow] at hs
      cases hs
  | advance v hres hrow hrow' hadvances =>
      refine ⟨1, by rw [hadvances, List.length_append]; rfl, fun row hs => ?_⟩
      rw [hrow] at hs
      cases hs
      exact hrow'

theorem later_of_run {cfg cfg' : CheckpointConfig ι}
    (h : Transition.Reachable (checkpointSystem g ι) cfg)
    (hrun : Transition.Run (checkpointSystem g ι) cfg cfg') :
    Later cfg.shared cfg'.shared ∧
      ∃ es, cfg'.log = cfg.log ++ es ∧ ∀ e ∈ es, Later cfg.shared e.state :=
  Service.run_monotone (fun r _ => uses_sent r) (fun _ => witnessInv_of_reachable) Later.refl
    (fun _ _ _ => Later.trans) (fun _ _ _ _ ho _ hx => (exec_moves ho hx).later)
    (fun _ _ hs hstep => (env_moves hs hstep).later) h hrun

/-! ## Reservations -/

/-- A call that has returned a sequence has a compare-and-set in the log that succeeded on the view
    it presented, which was the witness at that moment. -/
theorem exists_advance {cfg : CheckpointConfig ι}
    (h : Transition.Reachable (checkpointSystem g ι) cfg) {i : ι} {redis : RedisSequenceView}
    {n : JsNumber} (hi : cfg.calls i = some ⟨.reserve redis, .ret (.reserved n)⟩) :
    redis.Reservable ∧ n = (redis.advance 1).sequence ∧ ∃ e ∈ cfg.log, e.call = i ∧
      e.made = ⟨.compareAndAdvance g.ns (some redis) (redis.advance 1), .ok (redis.advance 1)⟩ ∧
      e.state.row = some redis := by
  obtain ⟨-, htrace⟩ := (Service.trace_of_reachable h i).1 _ _ hi
  obtain ⟨m, hm, htrace'⟩ := trace_of_map (p := g.reserve redis) htrace
  obtain rfl : n = m := by simpa using hm
  obtain ⟨hres, hn, hown⟩ := RollbackCheckpointGuard.trace_reserve htrace'
  have hmem : (⟨.compareAndAdvance g.ns (some redis) (redis.advance 1), .ok (redis.advance 1)⟩ :
      Made CheckpointOp CheckpointOp.Answer) ∈ ownTrace i cfg.log := by
    rw [hown]
    exact List.mem_cons_of_mem _ List.mem_cons_self
  obtain ⟨e, he, hcall, hmade⟩ := exists_entry hmem
  refine ⟨hres, hn, e, he, hcall, hmade, ?_⟩
  obtain ⟨t, hexec⟩ := Service.exec_of_reachable h e he
  rw [hmade] at hexec
  cases hexec with
  | advance _ _ _ hrow => exact hrow

/-- Of two reservations in the log, the later one has the higher sequence. -/
theorem sequence_lt_of_later {s t u : WitnessState} {ns : JsString} {v w : RedisSequenceView}
    (hv : v.Reservable)
    (hexec : CheckpointExec s (.compareAndAdvance ns (some v) (v.advance 1)) (.ok (v.advance 1)) t)
    (hlater : Later t u) (hw : u.row = some w) :
    (v.advance 1).sequence.lt (w.advance 1).sequence = true := by
  obtain ⟨k, -, hrow⟩ := hlater
  have ht : t.row = some (v.advance 1) := by
    cases hexec with
    | advance _ _ _ _ => rfl
  obtain rfl : w = (v.advance 1).advance k := by
    have := hrow _ ht
    rw [hw] at this
    exact Option.some.inj this
  rw [advance_advance (v.advance 1) k 1]
  exact lt_advance hv.valid_advance k

theorem reserved_ne {cfg : CheckpointConfig ι}
    (h : Transition.Reachable (checkpointSystem g ι) cfg) {i j : ι} (hij : i ≠ j)
    {v w : RedisSequenceView} {m n : JsNumber}
    (hi : cfg.calls i = some ⟨.reserve v, .ret (.reserved m)⟩)
    (hj : cfg.calls j = some ⟨.reserve w, .ret (.reserved n)⟩) : m ≠ n := by
  obtain ⟨hv, rfl, e, he, rfl, hmade, hrow⟩ := exists_advance h hi
  obtain ⟨hw, rfl, e', he', rfl, hmade', hrow'⟩ := exists_advance h hj
  have hirrefl : ∀ u : RedisSequenceView, u.Reservable →
      (u.advance 1).sequence.lt (u.advance 1).sequence = false := by
    intro u hu
    obtain ⟨-, q, hq, -⟩ := hu.valid_advance
    rw [hq]
    exact decide_eq_false (lt_irrefl _)
  have hne : e ≠ e' := fun heq => hij (by rw [heq])
  -- whichever of the two came first has the lower sequence
  rcases Service.log_ordered (fun r _ => uses_sent r) (fun _ => witnessInv_of_reachable) Later.refl
    (fun _ _ _ => Later.trans) (fun _ _ _ _ ho _ hx => (exec_moves ho hx).later)
    (fun _ _ hs hstep => (env_moves hs hstep).later) h he he' hne with
    ⟨t, hexec, hlater⟩ | ⟨t, hexec, hlater⟩
  · rw [hmade] at hexec
    have hlt := sequence_lt_of_later hv hexec hlater hrow'
    intro heq
    rw [heq, hirrefl w hw] at hlt
    cases hlt
  · rw [hmade'] at hexec
    have hlt := sequence_lt_of_later hw hexec hlater hrow
    intro heq
    rw [← heq, hirrefl v hv] at hlt
    cases hlt

/-! ## What Redis holds -/

/-- A state that the witness has been in, or has been reserved. -/
def Passed (row v : CheckpointState) : Prop :=
  v.Valid ∧ v.Upto row

/-- What holds in the runs in which callers present what they read in Redis: before the first
    reservation Redis has held one view only, and from then on nothing but what the witness has
    passed. -/
structure RedisInv (s : WitnessState) : Prop where
  current : s.redis ∈ s.history
  unreserved : s.advances = [] → ∀ v ∈ s.history, v = s.redis
  flight : ∀ p ∈ s.inFlight, ∃ v ∈ s.history, p.1 = some v
  reserved : s.advances ≠ [] → ∃ row, s.row = some row ∧
    (∀ v ∈ s.history, Passed row v) ∧ ∀ v ∈ s.advances, Passed row v

theorem Passed.advance {row v : CheckpointState} (h : Passed row v) (k : ℕ) :
    Passed (row.advance k) v :=
  ⟨h.1, h.2.advance k⟩

/-- A reservation is made on something that Redis has held. -/
theorem RedisInv.passed {s : WitnessState} (h : RedisInv s) {v : CheckpointState}
    (hv : v ∈ s.history) (hres : v.Reservable) (hrow : s.row = some v) :
    ∀ w ∈ s.history ++ s.advances, Passed v w := by
  intro w hw
  by_cases hnone : s.advances = []
  · have hw' : w ∈ s.history := by simpa [hnone] using hw
    rw [h.unreserved hnone w hw', ← h.unreserved hnone v hv]
    exact ⟨hres.valid, Upto.refl v⟩
  · obtain ⟨row, hsome, hhistory, hadvances⟩ := h.reserved hnone
    obtain rfl : v = row := Option.some.inj (hrow.symm.trans hsome)
    rcases List.mem_append.mp hw with hw | hw
    · exact hhistory w hw
    · exact hadvances w hw

theorem RedisInv.advanced {s : WitnessState} (h : RedisInv s) {v : CheckpointState}
    (hv : v ∈ s.history) (hres : v.Reservable) (hrow : s.row = some v) :
    RedisInv (s.advanced (v.advance 1)) where
  current := h.current
  unreserved hnone := absurd hnone (by simp [WitnessState.advanced])
  flight := h.flight
  reserved := by
    intro _
    have hpassed := h.passed hv hres hrow
    refine ⟨v.advance 1, rfl, fun w hw => ?_, fun w hw => ?_⟩
    · exact (hpassed w (List.mem_append_left _ hw)).advance 1
    · rcases List.mem_append.mp hw with hw | hw
      · exact (hpassed w (List.mem_append_right _ hw)).advance 1
      · rw [List.mem_singleton.mp hw]
        exact ⟨hres.valid_advance, Upto.refl _⟩

theorem RedisInv.hold {s : WitnessState} (h : RedisInv s) {view : RedisSequenceView}
    (hview : view ∈ s.history ∨ view ∈ s.advances) : RedisInv (s.hold view) where
  current := List.mem_append_right _ List.mem_cons_self
  unreserved hnone := by
    have hone : ∀ v ∈ s.history, v = s.redis := h.unreserved hnone
    have hold : view = s.redis := by
      rcases hview with hview | hview
      · exact hone view hview
      · rw [show s.advances = [] from hnone] at hview
        cases hview
    intro v hv
    rcases List.mem_append.mp hv with hv | hv
    · rw [hone v hv]
      exact hold.symm
    · exact List.mem_singleton.mp hv
  flight p hp := by
    obtain ⟨v, hv, heq⟩ := h.flight p hp
    exact ⟨v, List.mem_append_left _ hv, heq⟩
  reserved hne := by
    obtain ⟨row, hrow, hhistory, hadvances⟩ := h.reserved hne
    refine ⟨row, hrow, fun v hv => ?_, hadvances⟩
    rcases List.mem_append.mp hv with hv | hv
    · exact hhistory v hv
    · rw [List.mem_singleton.mp hv]
      exact hview.elim (hhistory view) (hadvances view)

theorem RedisInv.exec {s t : WitnessState} {o : CheckpointOp} {x : o.Answer} (h : RedisInv s)
    {v : RedisSequenceView} (hv : v ∈ s.history) (ho : o.SentFor v)
    (hexec : CheckpointExec s o x t) : RedisInv t ∧ t.history = s.history := by
  cases hexec with
  | advance ns expected next hrow =>
      obtain ⟨hres, rfl, rfl⟩ := ho
      exact ⟨h.advanced hv hres hrow, rfl⟩
  | advanceFails ns expected next err hne =>
      refine ⟨⟨h.current, h.unreserved, fun p hp => ?_, h.reserved⟩, rfl⟩
      rcases List.mem_cons.mp hp with rfl | hp
      · obtain ⟨-, rfl, -⟩ := ho
        exact ⟨v, hv, rfl⟩
      · exact h.flight p hp
  | genesis ns genesis hrow =>
      refine ⟨⟨h.current, h.unreserved, h.flight, fun hne => ?_⟩, rfl⟩
      obtain ⟨row, hsome, -⟩ := h.reserved hne
      rw [hrow] at hsome
      cases hsome
  | _ => exact ⟨h, rfl⟩

theorem RedisInv.env {s t : WitnessState} (hs : WitnessInv s) (h : RedisInv s)
    (hstep : CheckpointEnv s t) : RedisInv t ∧ ∀ v ∈ s.history, v ∈ t.history := by
  cases hstep with
  | lateAdvance expected next hmem hrow =>
      obtain ⟨w, hres, hp⟩ := hs.flight _ hmem
      obtain ⟨v, hv, hp'⟩ := h.flight _ hmem
      cases hp
      obtain rfl : w = v := Option.some.inj hp'
      exact ⟨h.advanced hv hres hrow, fun v hv => hv⟩
  | lateGenesis genesis hrow =>
      refine ⟨⟨h.current, h.unreserved, h.flight, fun hne => ?_⟩, fun v hv => hv⟩
      obtain ⟨row, hsome, -⟩ := h.reserved hne
      rw [hrow] at hsome
      cases hsome
  | mirror reserved hmem => exact ⟨h.hold (Or.inr hmem), fun v hv => List.mem_append_left _ hv⟩
  | restore view hmem => exact ⟨h.hold (Or.inl hmem), fun v hv => List.mem_append_left _ hv⟩

/-- A call presents a view that Redis has held, and sends what it sends for that view. -/
def Presented (s : WitnessState)
    (call : Call CheckpointRequest CheckpointOp CheckpointOp.Answer CheckpointError
      CheckpointResult) : Prop :=
  ∃ view ∈ s.history, call.req.presents view ∧ call.rest.Uses (CheckpointOp.SentFor view)

theorem redisInv_of_reachable {cfg : CheckpointConfig ι}
    (h : Transition.Reachable (mirroredSystem g ι) cfg) :
    RedisInv cfg.shared ∧ ∀ i call, cfg.calls i = some call → Presented cfg.shared call := by
  induction h with
  | init h0 =>
      obtain ⟨⟨hadvances, hflight, hhistory⟩, hcalls, -⟩ := h0
      refine ⟨⟨?_, ?_, ?_, fun hne => absurd hadvances hne⟩, ?_⟩
      · rw [hhistory]
        exact List.mem_cons_self
      · intro _ v hv
        rw [hhistory] at hv
        exact List.mem_singleton.mp hv
      · intro p hp
        rw [hflight] at hp
        cases hp
      · intro i call hi
        rw [hcalls] at hi
        cases hi
  | @next cfg cfg' hreach hstep ih =>
      obtain ⟨hinv, hcalls⟩ := ih
      obtain ⟨hstep, hpresents⟩ := hstep
      cases hstep with
      | start j r hadm hj =>
          refine ⟨hinv, fun i call hi => ?_⟩
          by_cases hij : i = j
          · subst hij
            have hpresent := hpresents i call hj hi
            obtain rfl : _ = call := by simpa using hi
            exact ⟨_, hinv.current, hpresent, uses_of_presents hpresent⟩
          · exact hcalls i call (by simpa [Function.update_of_ne hij] using hi)
      | exec j r o k x t hj hx =>
          obtain ⟨v, hv, hpresent, huses⟩ := hcalls j _ hj
          obtain ⟨hinv', hhistory⟩ := hinv.exec hv huses.1 hx
          refine ⟨hinv', fun i call hi => ?_⟩
          by_cases hij : i = j
          · subst hij
            obtain rfl : _ = call := by simpa using hi
            exact ⟨v, by rw [hhistory]; exact hv, hpresent, huses.2 x⟩
          · obtain ⟨w, hw, hrest⟩ := hcalls i call (by simpa [Function.update_of_ne hij] using hi)
            exact ⟨w, by rw [hhistory]; exact hw, hrest⟩
      | env t hs =>
          have hwitness := witnessInv_of_reachable hreach.of_restrict
          obtain ⟨hinv', hhistory⟩ := RedisInv.env hwitness hinv hs
          refine ⟨hinv', fun i call hi => ?_⟩
          obtain ⟨w, hw, hrest⟩ := hcalls i call hi
          exact ⟨w, hhistory w hw, hrest⟩

/-! ## Checks after a reservation -/

/-- What Redis has held it has held, in order. -/
theorem history_prefix {c cfg : CheckpointConfig ι}
    (h : Transition.Reachable (checkpointSystem g ι) c)
    (hrun : Transition.Run (checkpointSystem g ι) c cfg) :
    c.shared.history <+: cfg.shared.history := by
  refine (Service.run_monotone (fun r _ => uses_sent r) (fun _ => witnessInv_of_reachable)
    (R := fun s t => s.history <+: t.history) (fun _ => List.prefix_rfl)
    (fun _ _ _ => List.IsPrefix.trans) ?_ ?_ h hrun).1
  · intro s o x t _ _ hx
    cases hx <;> exact List.prefix_rfl
  · intro s t _ hs
    cases hs with
    | mirror => exact List.prefix_append _ _
    | restore => exact List.prefix_append _ _
    | lateAdvance => exact List.prefix_rfl
    | lateGenesis => exact List.prefix_rfl

/-- A reservation is made on what the witness was, which Redis has held. -/
theorem reservation_cases {c c' : CheckpointConfig ι}
    (h : Transition.Reachable (mirroredSystem g ι) c) (hstep : (mirroredSystem g ι).next c c')
    {next : CheckpointState} (hres : c'.shared.advances = c.shared.advances ++ [next]) :
    ∃ v ∈ c.shared.history, v.Reservable ∧ c.shared.row = some v ∧ next = v.advance 1 ∧
      c'.shared = c.shared.advanced next := by
  obtain ⟨hinv, hcalls⟩ := redisInv_of_reachable h
  have hgrow : c'.shared.advances ≠ c.shared.advances := by
    rw [hres]
    exact fun heq => by simpa using congrArg List.length heq
  obtain ⟨hstep, -⟩ := hstep
  cases hstep with
  | start j r hadm hj => exact absurd rfl hgrow
  | exec j r o k x t hj hx =>
      obtain ⟨v, hv, -, huses⟩ := hcalls j _ hj
      cases hx with
      | advance ns expected next' hrow =>
          obtain ⟨hreservable, rfl, rfl⟩ := huses.1
          obtain rfl : v.advance 1 = next := by simpa [WitnessState.advanced] using hres
          exact ⟨v, hv, hreservable, hrow, rfl, rfl⟩
      | _ => exact absurd rfl hgrow
  | env t hs =>
      cases hs with
      | lateAdvance expected next' hmem hrow =>
          obtain ⟨w, hreservable, hp⟩ := (witnessInv_of_reachable h.of_restrict).flight _ hmem
          obtain ⟨v, hv, hp'⟩ := hinv.flight _ hmem
          cases hp
          obtain rfl : w = v := Option.some.inj hp'
          obtain rfl : w.advance 1 = next := by simpa [WitnessState.advanced] using hres
          exact ⟨w, hv, hreservable, hrow, rfl, rfl⟩
      | _ => exact absurd rfl hgrow

theorem lt_advance_of_lt {v next : CheckpointState} (hnext : next.Valid)
    (h : v.sequence.lt next.sequence = true) (hv : v.Valid) (k : ℕ) :
    v.sequence.lt (next.advance k).sequence = true := by
  obtain ⟨-, m, hm, -⟩ := hv
  obtain ⟨-, n, hn, -⟩ := hnext
  rw [hm, hn] at h
  rw [advance_of_eq hn, hm]
  have hlt : (m : ℚ) < n := of_decide_eq_true h
  refine decide_eq_true ?_
  push_cast
  exact lt_of_lt_of_le hlt (le_add_of_nonneg_right (Nat.cast_nonneg k))

/-- What a call that starts after a reservation reads is the witness, some reservations later. -/
theorem witness_since {c cfg : CheckpointConfig ι}
    (h : Transition.Reachable (checkpointSystem g ι) c)
    (hrun : Transition.Run (checkpointSystem g ι) c cfg) {row : CheckpointState}
    (hrow : c.shared.row = some row) (hadvances : c.shared.advances ≠ []) {i : ι}
    (hi : c.calls i = none) {e : Entry ι CheckpointOp CheckpointOp.Answer WitnessState}
    (he : e ∈ cfg.log) (hcall : e.call = i) :
    ∃ k, e.state.row = some (row.advance k) ∧ (row.advance k).Valid := by
  obtain ⟨-, es, hlog, hes⟩ := later_of_run h hrun
  have hnew : e ∈ es := by
    rw [hlog] at he
    rcases List.mem_append.mp he with he | he
    · have hmem := mem_ownTrace he hcall
      rw [(Service.trace_of_reachable h i).2 hi] at hmem
      cases hmem
    · exact he
  obtain ⟨k, -, hread⟩ := hes e hnew
  obtain ⟨-, hinv⟩ := Service.log_monotone (R := fun _ _ => True) (fun _ => witnessInv_of_reachable)
    (fun _ _ _ _ _ => trivial) (fun _ _ _ _ _ _ => trivial) (fun _ _ _ _ => trivial)
    (Transition.Run.reachable hrun h)
  obtain ⟨row', hrow', hvalid⟩ := (hinv e he).2.valid ((hes e hnew).advances_ne_nil hadvances)
  obtain rfl : row' = row.advance k := Option.some.inj (hrow'.symm.trans (hread row hrow))
  exact ⟨k, hrow', hvalid⟩

/-- Until Redis has been written what was reserved, whatever it holds or has held is behind. -/
theorem held_behind {c c' cfg : CheckpointConfig ι}
    (h : Transition.Reachable (mirroredSystem g ι) c) (hstep : (mirroredSystem g ι).next c c')
    {v : CheckpointState} (hv : v ∈ c.shared.history) (hres : v.Reservable)
    (hrow : c.shared.row = some v) (hshared : c'.shared = c.shared.advanced (v.advance 1))
    (hrun : Transition.Run (mirroredSystem g ι) c' cfg)
    (hbehind : ∀ w ∈ cfg.shared.history.drop c.shared.history.length,
      w.sequence.lt (v.advance 1).sequence = true) :
    ∀ w ∈ cfg.shared.history,
      w.Valid ∧ w.epoch = v.epoch ∧ w.sequence.lt (v.advance 1).sequence = true := by
  intro w hw
  have hreach := (h.next hstep).of_restrict
  have hreach' := Transition.Run.reachable hrun (h.next hstep)
  obtain ⟨hlater, -⟩ := later_of_run hreach hrun.of_restrict
  have hadvances : c'.shared.advances ≠ [] := by
    rw [hshared]
    simp [WitnessState.advanced]
  obtain ⟨row, hsome, hpassed, -⟩ :=
    (redisInv_of_reachable hreach').1.reserved (hlater.advances_ne_nil hadvances)
  obtain ⟨k, -, hcurrent⟩ := hlater
  obtain rfl : row = (v.advance 1).advance k :=
    Option.some.inj (hsome.symm.trans (hcurrent _ (by rw [hshared]; rfl)))
  obtain ⟨hvalid, hupto⟩ := hpassed w hw
  refine ⟨hvalid, hupto.epoch_eq.symm, ?_⟩
  obtain ⟨l, hl⟩ := history_prefix hreach hrun.of_restrict
  have hsplit : cfg.shared.history = c.shared.history ++ l := by
    rw [← hl, hshared]
    rfl
  rw [hsplit] at hw hbehind
  rcases List.mem_append.mp hw with hold | hnew
  · -- what Redis held at the reservation was at most what was advanced
    obtain ⟨-, j, hj⟩ := (redisInv_of_reachable h).1.passed hv hres hrow w
      (List.mem_append_left _ hold)
    rw [hj, advance_advance]
    exact lt_advance hvalid j
  · rw [List.drop_left] at hbehind
    exact hbehind w hnew

/-- What a call to `check` has come to. -/
inductive Reports (g : RollbackCheckpointGuard) (cfg : CheckpointConfig ι) (i : ι)
    (view : RedisSequenceView) (verdict : RollbackVerdict) : Prop
  | waits : cfg.calls i = some ⟨.check view, (CheckpointRequest.check view).program g⟩ →
      Reports g cfg i view verdict
  | reports : cfg.calls i = some ⟨.check view, .ret (.verdict verdict)⟩ →
      Reports g cfg i view verdict
  | unavailable (err : CheckpointError) :
      cfg.calls i = some ⟨.check view, .fail .checkpointUnavailable⟩ →
      ownTrace i cfg.log = [⟨.read g.ns, .error err⟩] → Reports g cfg i view verdict

theorem check_program {view : RedisSequenceView} (h : view.Valid) :
    (CheckpointRequest.check view).program g = .await (.read g.ns) fun answer =>
      CheckpointResult.verdict <$>
        Prog.lift (orUnavailable answer >>= RollbackCheckpointGuard.verdict view) := by
  show CheckpointResult.verdict <$> g.check view = _
  rw [RollbackCheckpointGuard.check_of_valid h]
  rfl

/-- A check has come to the verdict on whatever it can have read. -/
theorem reports_of_verdict {cfg : CheckpointConfig ι}
    (h : Transition.Reachable (checkpointSystem g ι) cfg) {i : ι} {view : RedisSequenceView}
    {rest : CheckpointProg CheckpointResult} (hi : cfg.calls i = some ⟨.check view, rest⟩)
    (hview : view.Valid) {verdict : RollbackVerdict}
    (hread : ∀ e ∈ cfg.log, e.call = i →
      RollbackCheckpointGuard.verdict view e.state.row = .ok verdict) :
    Reports g cfg i view verdict := by
  obtain ⟨-, htrace⟩ := (Service.trace_of_reachable h i).1 _ _ hi
  change Trace ((CheckpointRequest.check view).program g) _ _ at htrace
  rw [check_program hview] at htrace
  generalize hown : ownTrace i cfg.log = own at htrace
  cases htrace with
  | nil => exact .waits (by rw [hi, check_program hview])
  | @cons _ _ _ es answer htrace =>
      obtain ⟨e, he, hcall, hmade⟩ : ∃ e ∈ cfg.log, e.call = i ∧ e.made = ⟨.read g.ns, answer⟩ :=
        exists_entry (by rw [hown]; exact List.mem_cons_self)
      obtain ⟨t, hexec⟩ := Service.exec_of_reachable h e he
      rw [hmade] at hexec
      cases hexec with
      | readFails _ err =>
          obtain ⟨rfl, rfl⟩ := trace_fail.mp htrace
          exact .unavailable err hi hown
      | read =>
          have hok : orUnavailable (.ok e.state.row) >>= RollbackCheckpointGuard.verdict view =
              .ok verdict := hread e he hcall
          change Trace (CheckpointResult.verdict <$> Prog.lift (orUnavailable (.ok e.state.row) >>=
            RollbackCheckpointGuard.verdict view)) _ _ at htrace
          rw [hok] at htrace
          obtain ⟨-, rfl⟩ := trace_ret.mp htrace
          exact .reports hi

/-- After a reservation, and until Redis has been written what was reserved, a check of what Redis
    holds is a rollback. -/
theorem check_after_reservation {c c' cfg : CheckpointConfig ι}
    (h : Transition.Reachable (mirroredSystem g ι) c) (hstep : (mirroredSystem g ι).next c c')
    {next : CheckpointState} (hres : c'.shared.advances = c.shared.advances ++ [next])
    (hrun : Transition.Run (mirroredSystem g ι) c' cfg)
    (hbehind : ∀ v ∈ cfg.shared.history.drop c.shared.history.length,
      v.sequence.lt next.sequence = true)
    {i : ι} {view : RedisSequenceView} {rest : CheckpointProg CheckpointResult}
    (hi : c'.calls i = none) (hi' : cfg.calls i = some ⟨.check view, rest⟩) :
    Reports g cfg i view .rollback := by
  obtain ⟨v, hv, hreservable, hrow, rfl, hshared⟩ := reservation_cases h hstep hres
  have hreach := Transition.Run.reachable hrun (h.next hstep)
  obtain ⟨held, hheld, hpresents, -⟩ := (redisInv_of_reachable hreach).2 i _ hi'
  obtain rfl : view = held := hpresents
  obtain ⟨hvalid, hepoch, hlt⟩ := held_behind h hstep hv hreservable hrow hshared hrun hbehind
    view hheld
  refine reports_of_verdict hreach.of_restrict hi' hvalid fun e he hcall => ?_
  have hadvances : c'.shared.advances ≠ [] := by rw [hres]; simp
  have hrow' : c'.shared.row = some (v.advance 1) := by
    rw [hshared]
    rfl
  obtain ⟨k, hread, hwitness⟩ := witness_since (h.next hstep).of_restrict hrun.of_restrict hrow'
    hadvances hi he hcall
  rw [hread]
  exact RollbackCheckpointGuard.verdict_of_behind hwitness hepoch.symm
    (lt_advance_of_lt hreservable.valid_advance hlt hvalid k)

theorem next_start {c : CheckpointConfig ι} {i : ι} {r : CheckpointRequest} (hi : c.calls i = none)
    (hr : r.presents c.shared.redis) :
    (mirroredSystem g ι).next c
      { c with calls := Function.update c.calls i (some ⟨r, r.program g⟩) } := by
  refine ⟨.start i r trivial hi, fun j call hj hj' => ?_⟩
  by_cases hji : j = i
  · subst hji
    obtain rfl : _ = call := by simpa using hj'
    exact hr
  · have hsame := (Function.update_of_ne hji _ c.calls).symm.trans hj'
    rw [hj] at hsame
    cases hsame

theorem next_exec {c : CheckpointConfig ι} {i : ι} {r : CheckpointRequest} {o : CheckpointOp}
    {k : o.Answer → CheckpointProg CheckpointResult} {x : o.Answer} {s : WitnessState}
    (hi : c.calls i = some ⟨r, .await o k⟩) (hx : CheckpointExec c.shared o x s) :
    (mirroredSystem g ι).next c
      { shared := s
        calls := Function.update c.calls i (some ⟨r, k x⟩)
        log := c.log ++ [⟨i, ⟨o, x⟩, c.shared⟩] } := by
  refine ⟨.exec i r o k x s hi hx, fun j call hj hj' => ?_⟩
  by_cases hji : j = i
  · rw [hji, hi] at hj
    cases hj
  · have hsame := (Function.update_of_ne hji _ c.calls).symm.trans hj'
    rw [hj] at hsame
    cases hsame

/-- A reservation on what Redis and the witness agree on succeeds if nothing comes between. -/
theorem reserve_run {c : CheckpointConfig ι} {i : ι} (hi : c.calls i = none)
    (hrow : c.shared.row = some c.shared.redis) (hres : c.shared.redis.Reservable) :
    ∃ c₁ c₂, Transition.Run (mirroredSystem g ι) c c₁ ∧ (mirroredSystem g ι).next c₁ c₂ ∧
      c₁.shared = c.shared ∧ c₂.shared = c.shared.advanced (c.shared.redis.advance 1) ∧
      c₂.calls = Function.update c.calls i (some ⟨.reserve c.shared.redis,
        .ret (.reserved (c.shared.redis.advance 1).sequence)⟩) := by
  obtain ⟨k₁, k₂, hprogram, hread, hadvance⟩ :=
    @RollbackCheckpointGuard.reserve_of_reservable g c.shared.redis hres
  have hprogram' : (CheckpointRequest.reserve c.shared.redis).program g =
      .await (.read g.ns) fun answer => CheckpointResult.reserved <$> k₁ answer := by
    show CheckpointResult.reserved <$> g.reserve _ = _
    rw [hprogram]
    rfl
  have hread' : CheckpointResult.reserved <$> k₁ (.ok (some c.shared.redis)) =
      .await (.compareAndAdvance g.ns (some c.shared.redis) (c.shared.redis.advance 1))
        fun answer => CheckpointResult.reserved <$> k₂ answer := by
    rw [hread]
    rfl
  have hadvance' : CheckpointResult.reserved <$> k₂ (.ok (c.shared.redis.advance 1)) =
      .ret (.reserved (c.shared.redis.advance 1).sequence) := by
    rw [hadvance]
    rfl
  have hstart : (mirroredSystem g ι).next c _ :=
    next_start (r := .reserve c.shared.redis) hi rfl
  rw [hprogram'] at hstart
  have hexec : CheckpointExec c.shared (.read g.ns) (.ok (some c.shared.redis)) c.shared := by
    rw [← hrow]
    exact .read c.shared g.ns
  have hfirst : (mirroredSystem g ι).next { c with calls := Function.update c.calls i _ } _ :=
    next_exec (r := .reserve c.shared.redis) (k := fun answer => CheckpointResult.reserved <$> k₁ answer)
      (Function.update_self i _ _) hexec
  rw [hread', Function.update_idem] at hfirst
  have hsecond : (mirroredSystem g ι).next
      { shared := c.shared
        calls := Function.update c.calls i _
        log := c.log ++ [⟨i, ⟨.read g.ns, .ok (some c.shared.redis)⟩, c.shared⟩] } _ :=
    next_exec (r := .reserve c.shared.redis) (k := fun answer => CheckpointResult.reserved <$> k₂ answer)
      (Function.update_self i _ _) (.advance c.shared g.ns _ (c.shared.redis.advance 1) hrow)
  rw [hadvance', Function.update_idem] at hsecond
  exact ⟨_, _, (Relation.ReflTransGen.single hstart).tail hfirst, hsecond, rfl, rfl, rfl⟩

/-- The guard of a namespace `bpc`. -/
def sampleGuard : RollbackCheckpointGuard where
  ns := Js.lit "bpc"
  ns_ok := by decide +kernel

/-- The witness stands at 4, and so does Redis. -/
def sampleView : RedisSequenceView :=
  ⟨Js.lit "e1", .fin (4 : ℕ)⟩

def sampleConfig : CheckpointConfig Bool where
  shared := ⟨some sampleView, [], [], sampleView, [sampleView]⟩
  calls := fun _ => none
  log := []

end Checkpoint
