import BpcProtocol.Lib.Transition
import BpcProtocol.Nonce.Governed

set_option autoImplicit false

/-! # The Redis continuity guard

The low-level guard keeps its quarantine in its own memory: it reads the shared marker, claims a
new epoch where there is none, and compares the epoch it finds with the one it trusts. Any number of
guards of one namespace reconcile in any order, each one reconcile after another; a restarted guard
is another guard. -/

namespace Nonce

open Fallible

/-! ## One guard -/

/-- `RedisContinuityOptions`, as far as they are read here. -/
structure ContinuityOptions where
  retentionMs : ℤ
  safetyAllowanceMs : ℤ
  retention_pos : 0 < retentionMs
  allowance_nonneg : 0 ≤ safetyAllowanceMs

/-- `this.quarantineMs`. -/
def ContinuityOptions.quarantineMs (options : ContinuityOptions) : ℤ :=
  options.retentionMs + options.safetyAllowanceMs

/-- The memory of a `RedisContinuityGuard`. -/
structure ContinuityGuard where
  trustedEpoch : Option JsString
  initialized : Bool
  quarantinedUntilMs : JsNumber
  quarantineReason : QuarantineReason

namespace ContinuityGuard

def new : ContinuityGuard := ⟨none, false, .posInf, .continuityStoreUnavailable⟩

variable (options : ContinuityOptions) (g : ContinuityGuard)

/-- `enterQuarantine(reason, nowMs)`. -/
def enterQuarantine (reason : QuarantineReason) (nowMs : ℤ) : ContinuityGuard :=
  { g with
    quarantinedUntilMs :=
      if g.quarantinedUntilMs.lt (.fin (nowMs + options.quarantineMs : ℤ))
        then .fin (nowMs + options.quarantineMs : ℤ) else g.quarantinedUntilMs
    quarantineReason := reason }

/-- `this.initialized = true`, and the quarantine of a guard that was not ends. -/
def initialize_ : ContinuityGuard :=
  { g with
    initialized := true
    quarantinedUntilMs := if g.quarantinedUntilMs.isFinite then g.quarantinedUntilMs else .fin 0 }

/-- The end of a `reconcile()` that could not read or claim the marker. -/
def storeUnavailable (nowMs : ℤ) : ContinuityGuard :=
  g.initialize_.enterQuarantine options .continuityStoreUnavailable nowMs

/-- The end of a `reconcile()` that has found the marker missing and claimed an epoch. -/
def markerLost (nowMs : ℤ) : ContinuityGuard :=
  { g with trustedEpoch := none }.initialize_.enterQuarantine options .continuityMarkerLost nowMs

/-- The end of a `reconcile()` that has found a marker: the first one is adopted, and a changed one
    is quarantined. -/
def onMarker (nowMs : ℤ) (current : JsString) : ContinuityGuard :=
  match g.trustedEpoch with
  | none => { g with trustedEpoch := some current }.initialize_
  | some trusted =>
      if current ≠ trusted then
        { g with trustedEpoch := some current }.initialize_.enterQuarantine options
          .continuityEpochChanged nowMs
      else g

/-- `assertAcceptable(nowMs)`. -/
def assertAcceptable (nowMs : ℤ) : Except NonceError Unit :=
  require (g.initialized = true ∧ JsNumber.lt (.fin nowMs) g.quarantinedUntilMs = false)
    (.authorizationQuarantine g.quarantineReason g.quarantinedUntilMs)

end ContinuityGuard

/-! ## Guards of one namespace -/

/-- What a guard's `reconcile()` has read, with the clock reading it started with. -/
inductive ReconcileCall where
  | idle
  | getting (nowMs : ℤ)
  | got (nowMs : ℤ) (current : Option JsString)
  | setting (nowMs : ℤ) (epoch : JsString)
  deriving DecidableEq

variable {ν : Type}

/-- A `reconcile()` of `guard`, started at `startedMs`, has found the marker missing at `at_`: what
    every guard remembered and was doing then, how many reconciles each had completed, and the
    epochs that the marker had carried. -/
structure MarkerLoss (ν : Type) where
  guard : ν
  startedMs : ℤ
  at_ : ℤ
  guards : ν → ContinuityGuard
  calls : ν → ReconcileCall
  completed : ν → ℕ
  stored : List JsString

/-- The marker, the time, the guards and their calls; the `SET`s that Redis has not executed yet;
    and for the record the epochs made, those stored, and the losses found. -/
structure GuardState (ν : Type) where
  marker : Option JsString
  now : ℤ
  guards : ν → ContinuityGuard
  calls : ν → ReconcileCall
  completed : ν → ℕ
  sent : List JsString
  made : List JsString
  stored : List JsString
  losses : List (MarkerLoss ν)

variable [DecidableEq ν]

/-- A guard's `reconcile()` returns. -/
def GuardState.complete (s : GuardState ν) (v : ν) (g : ContinuityGuard) : GuardState ν :=
  { s with
    guards := Function.update s.guards v g
    calls := Function.update s.calls v .idle
    completed := Function.update s.completed v (s.completed v + 1) }

def GuardState.call (s : GuardState ν) (v : ν) (call : ReconcileCall) : GuardState ν :=
  { s with calls := Function.update s.calls v call }

/-- The guard's `GET` is executed. -/
def GuardState.get (s : GuardState ν) (v : ν) (nowMs : ℤ) : GuardState ν :=
  { s.call v (.got nowMs s.marker) with
    losses := if s.marker = none
      then s.losses ++ [⟨v, nowMs, s.now, s.guards, s.calls, s.completed, s.stored⟩]
      else s.losses }

/-- A `SET … NX` is executed. -/
def GuardState.set (s : GuardState ν) (epoch : JsString) : GuardState ν :=
  { s with
    marker := some (s.marker.getD epoch)
    sent := s.sent.erase epoch
    stored := if s.marker = none then epoch :: s.stored else s.stored }

/-- One step: time passes, Redis loses the marker, or a guard's `reconcile()` takes its next step.
    `newEpoch()` never makes an epoch twice. -/
inductive GuardStep (options : ContinuityOptions) : GuardState ν → GuardState ν → Prop
  | tick {s : GuardState ν} (later : ℤ) :
      s.now ≤ later → GuardStep options s { s with now := later }
  | lose {s : GuardState ν} : GuardStep options s { s with marker := none }
  | start {s : GuardState ν} (v : ν) :
      s.calls v = .idle → GuardStep options s (s.call v (.getting s.now))
  | get {s : GuardState ν} (v : ν) {nowMs : ℤ} :
      s.calls v = .getting nowMs → GuardStep options s (s.get v nowMs)
  | getFails {s : GuardState ν} (v : ν) {nowMs : ℤ} :
      s.calls v = .getting nowMs →
      GuardStep options s (s.complete v ((s.guards v).storeUnavailable options nowMs))
  | found {s : GuardState ν} (v : ν) {nowMs : ℤ} {current : JsString} :
      s.calls v = .got nowMs (some current) →
      GuardStep options s (s.complete v ((s.guards v).onMarker options nowMs current))
  | claim {s : GuardState ν} (v : ν) {nowMs : ℤ} (epoch : JsString) :
      s.calls v = .got nowMs none → epoch ∉ s.made →
      GuardStep options s
        { s.call v (.setting nowMs epoch) with
          sent := epoch :: s.sent
          made := epoch :: s.made }
  | set {s : GuardState ν} (epoch : JsString) :
      epoch ∈ s.sent → GuardStep options s (s.set epoch)
  | claimed {s : GuardState ν} (v : ν) {nowMs : ℤ} {epoch : JsString} :
      s.calls v = .setting nowMs epoch → epoch ∉ s.sent →
      GuardStep options s (s.complete v ((s.guards v).markerLost options nowMs))
  | setFails {s : GuardState ν} (v : ν) {nowMs : ℤ} {epoch : JsString} :
      s.calls v = .setting nowMs epoch →
      GuardStep options s (s.complete v ((s.guards v).storeUnavailable options nowMs))

/-- New guards, and any marker or none. -/
def guardSystem (options : ContinuityOptions) (ν : Type) [DecidableEq ν] :
    Transition.System (GuardState ν) where
  init s := ∃ now marker, s =
    { marker, now, guards := fun _ => .new, calls := fun _ => .idle, completed := fun _ => 0,
      sent := [], made := marker.toList, stored := marker.toList, losses := [] }
  next := GuardStep options

/-! ## What one guard's quarantine does -/

namespace ContinuityGuard

variable {options : ContinuityOptions} {g : ContinuityGuard}

/-- A guard whose quarantine has an end: infinity or a time. -/
def HasEnd (g : ContinuityGuard) : Prop :=
  g.quarantinedUntilMs = .posInf ∨ ∃ u : ℤ, g.quarantinedUntilMs = .fin u

/-- A guard that is quarantined until `m` or later. -/
def QuarantinedUntil (g : ContinuityGuard) (m : ℤ) : Prop :=
  ∃ u : ℤ, g.quarantinedUntilMs = .fin u ∧ m ≤ u

theorem QuarantinedUntil.throws {m : ℤ} (h : g.QuarantinedUntil m) {nowMs : ℤ} (hnow : nowMs < m) :
    g.assertAcceptable nowMs =
      .error (.authorizationQuarantine g.quarantineReason g.quarantinedUntilMs) := by
  obtain ⟨u, hu, hle⟩ := h
  refine require_of_not ?_ _
  rintro ⟨-, hlt⟩
  rw [hu, JsNumber.lt_int, decide_eq_false_iff_not] at hlt
  omega

/-- An initialized guard's quarantine ends at a time. -/
theorem initialize_spec (h : g.HasEnd) : ∃ u : ℤ, g.initialize_.quarantinedUntilMs = .fin u := by
  rcases h with hinf | ⟨u, hu⟩
  · exact ⟨0, by simp [initialize_, hinf, JsNumber.isFinite]⟩
  · exact ⟨u, by simp [initialize_, hu, JsNumber.isFinite]⟩

theorem QuarantinedUntil.initialize {m : ℤ} (h : g.QuarantinedUntil m) :
    g.initialize_.QuarantinedUntil m := by
  obtain ⟨u, hu, hle⟩ := h
  exact ⟨u, by simp [initialize_, hu, JsNumber.isFinite], hle⟩

/-- Entering a quarantine never shortens one. -/
theorem enterQuarantine_spec {u : ℤ} (h : g.quarantinedUntilMs = .fin u) (reason : QuarantineReason)
    (nowMs : ℤ) :
    ∃ u' : ℤ, (g.enterQuarantine options reason nowMs).quarantinedUntilMs = .fin u' ∧
      nowMs + options.quarantineMs ≤ u' ∧ u ≤ u' := by
  simp only [enterQuarantine, h, JsNumber.lt_int, decide_eq_true_eq]
  split
  · exact ⟨_, rfl, Int.le_refl _, by omega⟩
  · exact ⟨u, rfl, by omega, Int.le_refl u⟩

/-- A `reconcile()` that ends with a quarantine: the guard is quarantined from the clock reading it
    started with, and as long as it was before. -/
structure Quarantines (options : ContinuityOptions) (g g' : ContinuityGuard) (nowMs : ℤ) : Prop where
  entered : g'.QuarantinedUntil (nowMs + options.quarantineMs)
  kept : ∀ m, g.QuarantinedUntil m → g'.QuarantinedUntil m

theorem quarantines_of_initialize (g₀ : ContinuityGuard) (h : g.HasEnd)
    (hsame : g₀.quarantinedUntilMs = g.quarantinedUntilMs) (reason : QuarantineReason)
    (nowMs : ℤ) :
    Quarantines options g (g₀.initialize_.enterQuarantine options reason nowMs) nowMs := by
  obtain ⟨u, hu⟩ := initialize_spec (g := g₀) (by rwa [HasEnd, hsame])
  obtain ⟨u', hu', hentered, hle⟩ := @enterQuarantine_spec options _ _ hu reason nowMs
  refine ⟨⟨u', hu', hentered⟩, ?_⟩
  rintro m ⟨w, hw, hm⟩
  have hwu : u = w := by
    simpa [initialize_, hsame.trans hw, JsNumber.isFinite] using hu.symm
  exact ⟨u', hu', by omega⟩

theorem storeUnavailable_quarantines (h : g.HasEnd) (nowMs : ℤ) :
    Quarantines options g (g.storeUnavailable options nowMs) nowMs :=
  quarantines_of_initialize g h rfl _ _

theorem markerLost_quarantines (h : g.HasEnd) (nowMs : ℤ) :
    Quarantines options g (g.markerLost options nowMs) nowMs :=
  quarantines_of_initialize { g with trustedEpoch := none } h rfl _ _

theorem onMarker_quarantines (h : g.HasEnd) {trusted current : JsString}
    (htrusted : g.trustedEpoch = some trusted) (hne : current ≠ trusted) (nowMs : ℤ) :
    Quarantines options g (g.onMarker options nowMs current) nowMs := by
  simp only [onMarker, htrusted, if_pos hne]
  exact quarantines_of_initialize { g with trustedEpoch := some current } h rfl _ _

/-- Reading a marker never shortens a quarantine, and the guard then trusts that marker. -/
theorem onMarker_spec (h : g.HasEnd) (nowMs : ℤ) (current : JsString) :
    (g.onMarker options nowMs current).HasEnd ∧
      (g.onMarker options nowMs current).trustedEpoch = some current ∧
      ∀ m, g.QuarantinedUntil m → (g.onMarker options nowMs current).QuarantinedUntil m := by
  cases htrusted : g.trustedEpoch with
  | none =>
      simp only [onMarker, htrusted]
      refine ⟨Or.inr (initialize_spec (g := { g with trustedEpoch := some current }) h), rfl, ?_⟩
      rintro m ⟨u, hu, hle⟩
      exact QuarantinedUntil.initialize (g := { g with trustedEpoch := some current }) ⟨u, hu, hle⟩
  | some trusted =>
      by_cases hne : current = trusted
      · simp only [onMarker, htrusted, hne, ne_eq, not_true_eq_false, if_false]
        exact ⟨h, trivial, fun m hm => hm⟩
      · have hq := @onMarker_quarantines options _ h _ _ htrusted hne nowMs
        obtain ⟨u, hu, -⟩ := hq.entered
        refine ⟨Or.inr ⟨u, hu⟩, ?_, hq.kept⟩
        simp [onMarker, htrusted, if_pos hne, enterQuarantine, initialize_]

theorem Quarantines.hasEnd {g' : ContinuityGuard} {nowMs : ℤ}
    (h : Quarantines options g g' nowMs) : g'.HasEnd := by
  obtain ⟨u, hu, -⟩ := h.entered
  exact Or.inr ⟨u, hu⟩

end ContinuityGuard

/-! ## What a loss is followed by -/

/-- The clock reading a call started with. -/
def ReconcileCall.startedMs : ReconcileCall → Option ℤ
  | idle => none
  | getting nowMs => some nowMs
  | got nowMs _ => some nowMs
  | setting nowMs _ => some nowMs

/-- A call that started after a loss, and has read no marker stored before it. -/
def MarkerLoss.Since (loss : MarkerLoss ν) (call : ReconcileCall) : Prop :=
  (∀ nowMs, call.startedMs = some nowMs → loss.at_ ≤ nowMs) ∧
    ∀ nowMs m, call = .got nowMs (some m) → m ∉ loss.stored

variable (options : ContinuityOptions)

/-- A guard after a loss. The one that found it is quarantined once it has returned. One that
    trusted an epoch and was not reconciling then is so once it has reconciled. -/
structure MarkerLoss.GuardOk (loss : MarkerLoss ν) (v : ν) (completed : ℕ) (call : ReconcileCall)
    (g : ContinuityGuard) : Prop where
  finder : v = loss.guard →
    completed = loss.completed v ∧
        (call = .got loss.startedMs none ∨ ∃ epoch, call = .setting loss.startedMs epoch) ∨
      g.QuarantinedUntil (loss.startedMs + options.quarantineMs)
  other : loss.calls v = .idle → (loss.guards v).trustedEpoch ≠ none →
    completed = loss.completed v ∧ g = loss.guards v ∧ loss.Since call ∨
      g.QuarantinedUntil (loss.at_ + options.quarantineMs)

structure LossInv (loss : MarkerLoss ν) (s : GuardState ν) : Prop where
  past : loss.at_ ≤ s.now
  stored : ∀ m ∈ loss.stored, m ∈ s.stored
  fresh : ∀ m, s.marker = some m → m ∉ loss.stored
  trusted : ∀ v m, (loss.guards v).trustedEpoch = some m → m ∈ loss.stored
  guards : ∀ v, loss.GuardOk options v (s.completed v) (s.calls v) (s.guards v)

structure GuardInv (s : GuardState ν) : Prop where
  hasEnd : ∀ v, (s.guards v).HasEnd
  marker : ∀ m, s.marker = some m → m ∈ s.stored
  stored : ∀ m ∈ s.stored, m ∈ s.made
  sent : ∀ m ∈ s.sent, m ∈ s.made ∧ m ∉ s.stored
  once : s.sent.Nodup
  trusted : ∀ v m, (s.guards v).trustedEpoch = some m → m ∈ s.stored
  got : ∀ v nowMs m, s.calls v = .got nowMs (some m) → m ∈ s.stored
  losses : ∀ loss ∈ s.losses, LossInv options loss s

variable {options}

theorem ContinuityGuard.QuarantinedUntil.mono {g : ContinuityGuard} {m m' : ℤ}
    (h : g.QuarantinedUntil m) (hle : m' ≤ m) : g.QuarantinedUntil m' := by
  obtain ⟨u, hu, hm⟩ := h
  exact ⟨u, hu, Int.le_trans hle hm⟩

omit [DecidableEq ν] in
/-- A call that returns with a quarantine. -/
theorem MarkerLoss.GuardOk.quarantines {loss : MarkerLoss ν} {v : ν} {completed : ℕ}
    {call : ReconcileCall} {g g' : ContinuityGuard} {nowMs : ℤ}
    (h : loss.GuardOk options v completed call g) (hcall : call.startedMs = some nowMs)
    (hq : ContinuityGuard.Quarantines options g g' nowMs) :
    loss.GuardOk options v (completed + 1) .idle g' where
  finder hv := by
    rcases h.finder hv with ⟨-, rfl | ⟨epoch, rfl⟩⟩ | hquarantined
    · exact Or.inr (Option.some.inj hcall ▸ hq.entered)
    · exact Or.inr (Option.some.inj hcall ▸ hq.entered)
    · exact Or.inr (hq.kept _ hquarantined)
  other hidle htrusted := by
    rcases h.other hidle htrusted with ⟨-, -, hsince⟩ | hquarantined
    · have hle := hsince.1 nowMs hcall
      exact Or.inr (hq.entered.mono (by omega))
    · exact Or.inr (hq.kept _ hquarantined)

omit [DecidableEq ν] in
/-- A call that returns with the marker it has read: an epoch the guard trusted before the loss is
    not that marker. -/
theorem MarkerLoss.GuardOk.found {loss : MarkerLoss ν} {v : ν} {completed : ℕ}
    {g : ContinuityGuard} {nowMs : ℤ} {current : JsString}
    (htrusted : ∀ m, (loss.guards v).trustedEpoch = some m → m ∈ loss.stored)
    (h : loss.GuardOk options v completed (.got nowMs (some current)) g) (hend : g.HasEnd) :
    loss.GuardOk options v (completed + 1) .idle (g.onMarker options nowMs current) where
  finder hv := by
    rcases h.finder hv with ⟨-, hgot | ⟨epoch, hset⟩⟩ | hquarantined
    · simp at hgot
    · simp at hset
    · exact Or.inr ((ContinuityGuard.onMarker_spec hend nowMs current).2.2 _ hquarantined)
  other hidle hsome := by
    rcases h.other hidle hsome with ⟨-, rfl, hsince⟩ | hquarantined
    · obtain ⟨trusted, ht⟩ := Option.ne_none_iff_exists'.mp hsome
      have hne : current ≠ trusted := by
        rintro rfl
        exact hsince.2 nowMs current rfl (htrusted current ht)
      have hq := @ContinuityGuard.onMarker_quarantines options _ hend _ _ ht hne nowMs
      have hle := hsince.1 nowMs rfl
      exact Or.inr (hq.entered.mono (by omega))
    · exact Or.inr ((ContinuityGuard.onMarker_spec hend nowMs current).2.2 _ hquarantined)

omit [DecidableEq ν] in
/-- A call that goes on. -/
theorem MarkerLoss.GuardOk.call {loss : MarkerLoss ν} {v : ν} {completed : ℕ}
    {call call' : ReconcileCall} {g : ContinuityGuard} (h : loss.GuardOk options v completed call g)
    (hfinder : ∀ nowMs, call = .got nowMs none ∨ (∃ epoch, call = .setting nowMs epoch) →
      call' = .got nowMs none ∨ ∃ epoch, call' = .setting nowMs epoch)
    (hsince : loss.Since call → loss.Since call') : loss.GuardOk options v completed call' g where
  finder hv := (h.finder hv).imp_left fun ⟨hc, hcall⟩ => ⟨hc, hfinder _ hcall⟩
  other hidle htrusted :=
    (h.other hidle htrusted).imp_left fun ⟨hc, hg, hs⟩ => ⟨hc, hg, hsince hs⟩

/-- A reconcile of `v` returns and leaves its guard as `g`. -/
theorem GuardInv.complete {s : GuardState ν} (hs : GuardInv options s) {v : ν} {g : ContinuityGuard}
    (hend : g.HasEnd) (htrusted : ∀ m, g.trustedEpoch = some m → m ∈ s.stored)
    (hok : ∀ loss ∈ s.losses, loss.GuardOk options v (s.completed v + 1) .idle g) :
    GuardInv options (s.complete v g) := by
  unfold GuardState.complete
  refine ⟨fun v' => ?_, hs.marker, hs.stored, hs.sent, hs.once, fun v' m hm => ?_,
    fun v' nowMs m hm => ?_, fun loss hloss => ?_⟩
  · by_cases hv : v' = v
    · simpa [hv] using hend
    · simpa [hv] using hs.hasEnd v'
  · by_cases hv : v' = v
    · exact htrusted m (by simpa [hv] using hm)
    · exact hs.trusted v' m (by simpa [hv] using hm)
  · by_cases hv : v' = v
    · simp [hv] at hm
    · exact hs.got v' nowMs m (by simpa [hv] using hm)
  · obtain ⟨hpast, hstored, hfresh, htrust, hguards⟩ := hs.losses loss hloss
    refine ⟨hpast, hstored, hfresh, htrust, fun v' => ?_⟩
    by_cases hv : v' = v
    · simpa [hv] using hok loss hloss
    · simpa [hv] using hguards v'

/-- A reconcile of `v` goes on. -/
theorem GuardInv.call {s : GuardState ν} (hs : GuardInv options s) {v : ν} {call : ReconcileCall}
    (hgot : ∀ nowMs m, call = .got nowMs (some m) → m ∈ s.stored)
    (hok : ∀ loss ∈ s.losses, loss.GuardOk options v (s.completed v) call (s.guards v)) :
    GuardInv options (s.call v call) := by
  unfold GuardState.call
  refine ⟨hs.hasEnd, hs.marker, hs.stored, hs.sent, hs.once, hs.trusted,
    fun v' nowMs m hm => ?_, fun loss hloss => ?_⟩
  · by_cases hv : v' = v
    · exact hgot nowMs m (by simpa [hv] using hm)
    · exact hs.got v' nowMs m (by simpa [hv] using hm)
  · obtain ⟨hpast, hstored, hfresh, htrust, hguards⟩ := hs.losses loss hloss
    refine ⟨hpast, hstored, hfresh, htrust, fun v' => ?_⟩
    by_cases hv : v' = v
    · simpa [hv] using hok loss hloss
    · simpa [hv] using hguards v'

/-- A loss is found: the guard that found it goes on, and every other guard is as it was. -/
theorem lossInv_of_get {s : GuardState ν} (hs : GuardInv options s) {v : ν} {nowMs : ℤ}
    (hcall : s.calls v = .getting nowMs) (hnone : s.marker = none) :
    LossInv options ⟨v, nowMs, s.now, s.guards, s.calls, s.completed, s.stored⟩ (s.get v nowMs) := by
  refine ⟨Int.le_refl _, fun m hm => hm, ?_, hs.trusted, fun v' => ⟨?_, ?_⟩⟩
  · intro m hm
    rw [show (s.get v nowMs).marker = s.marker from rfl, hnone] at hm
    cases hm
  · rintro rfl
    refine Or.inl ⟨rfl, Or.inl ?_⟩
    show Function.update s.calls v' _ v' = _
    rw [Function.update_self, hnone]
  · intro hidle htrusted
    have hv : v' ≠ v := by
      rintro rfl
      change s.calls v' = .idle at hidle
      rw [hcall] at hidle
      cases hidle
    refine Or.inl ⟨rfl, rfl, ?_⟩
    have hsame : (s.get v nowMs).calls v' = .idle := by
      show Function.update s.calls v _ v' = _
      rw [Function.update_of_ne hv]
      exact hidle
    rw [hsame]
    exact ⟨by simp [ReconcileCall.startedMs], by simp⟩

theorem GuardInv.get {s : GuardState ν} (hs : GuardInv options s) {v : ν} {nowMs : ℤ}
    (hcall : s.calls v = .getting nowMs) : GuardInv options (s.get v nowMs) := by
  have hstep : GuardInv options (s.call v (.got nowMs s.marker)) := by
    refine hs.call (fun n m hm => ?_) fun loss hloss => ?_
    · obtain ⟨-, hmarker⟩ := (ReconcileCall.got.injEq _ _ _ _).mp hm
      exact hs.marker m hmarker
    · have hloss := hs.losses loss hloss
      have hok := hloss.guards v
      rw [hcall] at hok
      refine hok.call (by simp) fun hsince => ⟨hsince.1, fun n m hm => ?_⟩
      obtain ⟨-, hmarker⟩ := (ReconcileCall.got.injEq _ _ _ _).mp hm
      exact hloss.fresh m hmarker
  refine ⟨hstep.hasEnd, hstep.marker, hstep.stored, hstep.sent, hstep.once, hstep.trusted,
    hstep.got, fun loss hloss => ?_⟩
  change loss ∈ ite _ _ _ at hloss
  split at hloss
  · next hnone =>
      rcases List.mem_append.mp hloss with hloss | hloss
      · obtain ⟨hpast, hstored, hfresh, htrust, hguards⟩ := hstep.losses loss hloss
        exact ⟨hpast, hstored, hfresh, htrust, hguards⟩
      · rw [List.mem_singleton.mp hloss]
        exact lossInv_of_get hs hcall hnone
  · obtain ⟨hpast, hstored, hfresh, htrust, hguards⟩ := hstep.losses loss hloss
    exact ⟨hpast, hstored, hfresh, htrust, hguards⟩

omit [DecidableEq ν] in
/-- An epoch that is stored now has never been stored before. -/
theorem GuardInv.set {s : GuardState ν} (hs : GuardInv options s) {epoch : JsString}
    (hsent : epoch ∈ s.sent) : GuardInv options (s.set epoch) := by
  obtain ⟨hmade, hnew⟩ := hs.sent epoch hsent
  have hgrow : ∀ m ∈ s.stored, m ∈ (s.set epoch).stored := by
    intro m hm
    show m ∈ ite _ _ _
    split
    · exact List.mem_cons_of_mem _ hm
    · exact hm
  have hstored : ∀ m ∈ (s.set epoch).stored, m ∈ s.stored ∨ m = epoch := by
    intro m hm
    change m ∈ ite _ _ _ at hm
    split at hm
    · exact (List.mem_cons.mp hm).symm
    · exact Or.inl hm
  have hmarker : ∀ m, (s.set epoch).marker = some m →
      s.marker = some m ∨ s.marker = none ∧ m = epoch := by
    intro m hm
    change some _ = some m at hm
    cases hold : s.marker with
    | none => exact Or.inr ⟨rfl, by simpa [hold] using hm.symm⟩
    | some m' => exact Or.inl (by simpa [hold] using hm)
  refine ⟨hs.hasEnd, fun m hm => ?_, fun m hm => ?_, fun m hm => ?_, hs.once.erase _,
    fun v m hm => hgrow m (hs.trusted v m hm), fun v n m hm => hgrow m (hs.got v n m hm),
    fun loss hloss => ?_⟩
  · rcases hmarker m hm with hold | ⟨hnone, rfl⟩
    · exact hgrow m (hs.marker m hold)
    · show m ∈ ite _ _ _
      rw [if_pos hnone]
      exact List.mem_cons_self
  · rcases hstored m hm with hm | rfl
    · exact hs.stored m hm
    · exact hmade
  · obtain ⟨hne, hm⟩ := (List.Nodup.mem_erase_iff hs.once).mp hm
    refine ⟨(hs.sent m hm).1, fun hbad => ?_⟩
    rcases hstored m hbad with hbad | rfl
    · exact (hs.sent m hm).2 hbad
    · exact hne rfl
  · obtain ⟨hpast, hsub, hfresh, htrust, hguards⟩ := hs.losses loss hloss
    refine ⟨hpast, fun m hm => hgrow m (hsub m hm), fun m hm hbad => ?_, htrust, hguards⟩
    rcases hmarker m hm with hold | ⟨-, rfl⟩
    · exact hfresh m hold hbad
    · exact hnew (hsub m hbad)

theorem GuardInv.step {s t : GuardState ν} (hs : GuardInv options s)
    (h : GuardStep options s t) : GuardInv options t := by
  -- a reconcile of `v` that returns with a quarantine and trusts no new epoch
  have hquarantines : ∀ (v : ν) (nowMs : ℤ) (g : ContinuityGuard),
      (s.calls v).startedMs = some nowMs →
      ContinuityGuard.Quarantines options (s.guards v) g nowMs →
      (∀ m, g.trustedEpoch = some m → (s.guards v).trustedEpoch = some m) →
      GuardInv options (s.complete v g) := by
    intro v nowMs g hcall hq htrusted
    exact hs.complete hq.hasEnd (fun m hm => hs.trusted v m (htrusted m hm))
      fun loss hloss => ((hs.losses loss hloss).guards v).quarantines hcall hq
  cases h with
  | tick later hle =>
      refine ⟨hs.hasEnd, hs.marker, hs.stored, hs.sent, hs.once, hs.trusted, hs.got,
        fun loss hloss => ?_⟩
      obtain ⟨hpast, hsub, hfresh, htrust, hguards⟩ := hs.losses loss hloss
      exact ⟨Int.le_trans hpast hle, hsub, hfresh, htrust, hguards⟩
  | lose =>
      refine ⟨hs.hasEnd, by simp, hs.stored, hs.sent, hs.once, hs.trusted, hs.got,
        fun loss hloss => ?_⟩
      obtain ⟨hpast, hsub, hfresh, htrust, hguards⟩ := hs.losses loss hloss
      exact ⟨hpast, hsub, by simp, htrust, hguards⟩
  | start v hidle =>
      refine hs.call (by simp) fun loss hloss => ?_
      have hloss := hs.losses loss hloss
      have hok := hloss.guards v
      rw [hidle] at hok
      refine hok.call (by simp) fun _ => ⟨fun nowMs hnow => ?_, by simp⟩
      obtain rfl := Option.some.inj hnow
      exact hloss.past
  | get v hcall => exact hs.get hcall
  | getFails v hcall =>
      exact hquarantines v _ _ (by rw [hcall]; rfl)
        (ContinuityGuard.storeUnavailable_quarantines (hs.hasEnd v) _) fun m hm => hm
  | @found v nowMs current hcall =>
      obtain ⟨hend, htrusted, -⟩ :=
        @ContinuityGuard.onMarker_spec options _ (hs.hasEnd v) nowMs current
      refine hs.complete hend (fun m hm => ?_) fun loss hloss => ?_
      · rw [htrusted] at hm
        exact hs.got v nowMs m (Option.some.inj hm ▸ hcall)
      · have hloss := hs.losses loss hloss
        exact MarkerLoss.GuardOk.found (fun m => hloss.trusted v m) (hcall ▸ hloss.guards v)
          (hs.hasEnd v)
  | @claim v nowMs epoch hcall hnew =>
      have hstep : GuardInv options (s.call v (.setting nowMs epoch)) := by
        refine hs.call (by simp) fun loss hloss => ?_
        have hok := (hs.losses loss hloss).guards v
        rw [hcall] at hok
        refine hok.call (fun n hn => Or.inr ⟨epoch, ?_⟩) fun hsince => ⟨hsince.1, by simp⟩
        rcases hn with hn | ⟨e, he⟩
        · rw [((ReconcileCall.got.injEq _ _ _ _).mp hn).1]
        · cases he
      refine ⟨hstep.hasEnd, hstep.marker, fun m hm => List.mem_cons_of_mem _ (hs.stored m hm), ?_,
        List.nodup_cons.mpr ⟨fun hm => hnew (hs.sent epoch hm).1, hs.once⟩, hstep.trusted,
        hstep.got, fun loss hloss => ?_⟩
      · intro m hm
        rcases List.mem_cons.mp hm with rfl | hm
        · exact ⟨List.mem_cons_self, fun hbad => hnew (hs.stored m hbad)⟩
        · exact ⟨List.mem_cons_of_mem _ (hs.sent m hm).1, (hs.sent m hm).2⟩
      · obtain ⟨hpast, hsub, hfresh, htrust, hguards⟩ := hstep.losses loss hloss
        exact ⟨hpast, hsub, hfresh, htrust, hguards⟩
  | set epoch hsent => exact hs.set hsent
  | claimed v hcall hdone =>
      exact hquarantines v _ _ (by rw [hcall]; rfl)
        (ContinuityGuard.markerLost_quarantines (hs.hasEnd v) _) (by
          simp [ContinuityGuard.markerLost, ContinuityGuard.enterQuarantine,
            ContinuityGuard.initialize_])
  | setFails v hcall =>
      exact hquarantines v _ _ (by rw [hcall]; rfl)
        (ContinuityGuard.storeUnavailable_quarantines (hs.hasEnd v) _) fun m hm => hm

theorem guardInv {s : GuardState ν} (h : Transition.Reachable (guardSystem options ν) s) :
    GuardInv options s := by
  refine h.invariant ?_ fun _ _ _ hs hstep => hs.step hstep
  rintro s ⟨now, marker, rfl⟩
  refine ⟨fun _ => Or.inl rfl, ?_, ?_, ?_, ?_, ?_, ?_, ?_⟩ <;>
    simp [ContinuityGuard.new]

/-! ## After a loss -/

/-- The guard refuses every authorization before `m`. -/
def ContinuityGuard.ThrowsUntil (g : ContinuityGuard) (m : ℤ) : Prop :=
  ∀ nowMs, nowMs < m → ∃ e, g.assertAcceptable nowMs = .error e

theorem ContinuityGuard.QuarantinedUntil.throwsUntil {g : ContinuityGuard} {m : ℤ}
    (h : g.QuarantinedUntil m) : g.ThrowsUntil m :=
  fun _ hnow => ⟨_, h.throws hnow⟩

variable (options)

/-- What follows once a reconcile has found the marker missing. -/
structure MarkerLoss.Followed (loss : MarkerLoss ν) (s : GuardState ν) : Prop where
  /-- A guard that trusted an epoch and was not reconciling is closed once it has reconciled. -/
  trusting : ∀ v, loss.calls v = .idle → (loss.guards v).trustedEpoch ≠ none →
    loss.completed v < s.completed v →
    (s.guards v).ThrowsUntil (loss.at_ + options.quarantineMs)
  /-- The guard that found the loss is closed once that reconcile has returned. -/
  finder : loss.completed loss.guard < s.completed loss.guard →
    (s.guards loss.guard).ThrowsUntil (loss.startedMs + options.quarantineMs)

theorem followed_of_loss {s : GuardState ν}
    (h : Transition.Reachable (guardSystem options ν) s) {loss : MarkerLoss ν}
    (hloss : loss ∈ s.losses) : loss.Followed options s := by
  have hok := ((guardInv h).losses loss hloss).guards
  refine ⟨fun v hidle htrusted hlt => ?_, fun hlt => ?_⟩
  · rcases (hok v).other hidle htrusted with ⟨heq, -, -⟩ | hquarantined
    · omega
    · exact hquarantined.throwsUntil
  · rcases (hok loss.guard).finder rfl with ⟨heq, -⟩ | hquarantined
    · omega
    · exact hquarantined.throwsUntil

/-! ## A concrete run

One guard finds the marker missing at time 0 and claims an epoch; another, new one reconciles at
time 1. -/

namespace GuardExample

def dwell : ContinuityOptions where
  retentionMs := 1
  safetyAllowanceMs := 1
  retention_pos := by decide
  allowance_nonneg := by decide

def epoch : JsString := Js.lit "e"

abbrev Reaches (s : GuardState Bool) : Prop :=
  Transition.Reachable (guardSystem dwell Bool) s

def start : GuardState Bool :=
  { marker := none, now := 0, guards := fun _ => .new, calls := fun _ => .idle,
    completed := fun _ => 0, sent := [], made := [], stored := [], losses := [] }

/-- The first guard has found the marker missing, claimed an epoch and returned. -/
def claimed : GuardState Bool :=
  let s := (start.call false (.getting 0)).get false 0
  let s := { s.call false (.setting 0 epoch) with sent := [epoch], made := [epoch] }
  let s := s.set epoch
  s.complete false ((s.guards false).markerLost dwell 0)

theorem reaches_claimed : Reaches claimed := by
  have h₀ : Reaches start := .init ⟨0, none, rfl⟩
  have h₁ := h₀.next (.start false rfl)
  have h₂ := h₁.next (.get false rfl)
  have h₃ := h₂.next (.claim false epoch rfl (by decide +kernel))
  have h₄ := h₃.next (.set epoch (by decide +kernel))
  exact h₄.next (.claimed false rfl (by decide +kernel))

/-- The new guard has reconciled after it. -/
def adopted : GuardState Bool :=
  let s := { claimed with now := 1 }
  let s := (s.call true (.getting 1)).get true 1
  s.complete true ((s.guards true).onMarker dwell 1 epoch)

theorem reaches_adopted : Reaches adopted := by
  have h₁ := reaches_claimed.next (.tick 1 (by decide +kernel))
  have h₂ := h₁.next (.start true rfl)
  have h₃ := h₂.next (.get true rfl)
  exact h₃.next (.found true rfl)

end GuardExample

/-- A run to which the theorem applies: the guard that found the loss is closed until 2. -/
theorem followed_of_loss_claimed :
    ∃ loss ∈ GuardExample.claimed.losses,
      loss.Followed GuardExample.dwell GuardExample.claimed ∧
        loss.completed loss.guard < GuardExample.claimed.completed loss.guard := by
  refine ⟨_, List.mem_cons_self, followed_of_loss GuardExample.dwell GuardExample.reaches_claimed
    List.mem_cons_self, ?_⟩
  decide +kernel

/-- A new guard that reconciles after the loss accepts authorizations at once: not every guard whose
    latest reconcile started after the loss is closed. -/
theorem adopted_accepts :
    ¬∀ s, Transition.Reachable (guardSystem GuardExample.dwell Bool) s →
      ∀ loss ∈ s.losses, ∀ v, loss.calls v = .idle → loss.completed v < s.completed v →
        (s.guards v).ThrowsUntil (loss.at_ + GuardExample.dwell.quarantineMs) := by
  intro hall
  obtain ⟨e, he⟩ := hall GuardExample.adopted GuardExample.reaches_adopted _ List.mem_cons_self true
    (by decide +kernel) (by decide +kernel) 1 (by decide +kernel)
  have hok : ((GuardExample.adopted.guards true).assertAcceptable 1).isOk = true := by
    decide +kernel
  rw [he] at hok
  cases hok

end Nonce
