import BpcProtocol.Postgres.Server

set_option autoImplicit false

/-! # The outcome of a transaction

Every `COMMIT` that a transaction asks for is recorded with how the await of it ended. By following
the program of the adapter, there is at most one, and what is thrown or returned agrees with the
record; by following the server, the record agrees with what it has committed. -/

namespace Postgres

open Async Transition

variable {W α β ε : Type}

/-! ## The record -/

/-- The `COMMIT`s asked for, each with its attempt and how it ended. -/
abbrev Commits := List (ℕ × Settled NodePostgresResult)

def commitOf : (o : Op) → Ans W o → Commits
  | .query n .commit, x => [(n, x)]
  | _, _ => []

def track (g : Commits) (o : Op) (x : Ans W o) : Commits :=
  g ++ commitOf o x

/-- Anything but `COMMIT`. -/
def Quiet (o : Op) : Prop :=
  ∀ n, o ≠ .query n .commit

theorem track_quiet (g : Commits) (o : Op) (x : Ans W o) (h : Quiet o) : track g o x = g := by
  have hnone : commitOf o x = [] := by
    cases o with
    | query n statement =>
        cases statement with
        | commit => exact absurd rfl (h n)
        | _ => rfl
    | _ => rfl
  rw [track, hnone, List.append_nil]

/-- There is one `COMMIT`, and its reply confirms it. -/
def Confirmed (g : Commits) : Prop :=
  ∃ n result, g = [(n, .value result)] ∧ result.Tagged "COMMIT"

/-- Whatever `COMMIT` there is, its reply is that of a rollback. -/
def Unharmed (g : Commits) : Prop :=
  ∀ c ∈ g, ∃ result, c.2 = .value result ∧ result.Tagged "ROLLBACK"

/-- At most one. -/
def Single (g : Commits) : Prop :=
  g.length ≤ 1

/-- What an error says of the record. -/
def Truthful (g : Commits) : TxError → Prop
  | .postCommitRelease _ _ => Confirmed g
  | .ambiguousCommit _ _ => True
  | .work _ | .connectionDisposal _ _ => Unharmed g

/-- The same of an error that the loop sees: one with a code is from before any `COMMIT`. -/
def Catchable (g : Commits) (e : TxError) : Prop :=
  Truthful g e ∧ (e.code.isSome = true → g = [])

theorem unharmed_nil : Unharmed [] :=
  fun _ h => nomatch h

/-! ## Programs without `COMMIT` -/

/-- What does not ask for `COMMIT` leaves the record as it was. -/
theorem keeps_of_quiet {post : Commits → α → Prop} {throws : Commits → ε → Prop} {p : Tx W ε α}
    {g : Commits} (h : p.Uses Quiet) (hI : Single g) (hpost : ∀ a, post g a)
    (hthrows : ∀ e, throws g e) : p.Keeps track Single post throws g :=
  Prog.Keeps.of_uses track_quiet h hI hpost hthrows

theorem quiet_statement (n : ℕ) (statement : Statement) (h : statement ≠ .commit) :
    Quiet (.query n statement) :=
  fun _ heq => h (Op.query.inj heq).2

theorem quiet_query {n : ℕ} {statement : Statement} (h : statement ≠ .commit) :
    (query n statement : Tx W WorkError NodePostgresResult).Uses Quiet :=
  uses_query (quiet_statement n statement h)

theorem quiet_openTransaction (db : NodePostgresTransactor) (n : ℕ)
    (initialLocks : Option (List InitialExclusiveLock)) :
    (openTransaction db n initialLocks : Tx W WorkError JsString).Uses Quiet :=
  uses_openTransaction db initialLocks (quiet_statement n)

theorem quiet_throwIfAborted : (throwIfAborted : Tx W WorkError Unit).Uses Quiet :=
  uses_throwIfAborted fun _ heq => by cases heq

theorem quiet_abortRace (n : ℕ) (fn : Callback W α) : (abortRace n fn).Uses Quiet :=
  uses_abortRace fn (quiet_statement n) (fun _ heq => by cases heq) fun _ heq => by cases heq

/-! ## An attempt -/

/-- What `catch` sees agrees with the record. -/
inductive FailureOk (g : Commits) : Failure → Prop
  | before (e : WorkError) : g = [] → FailureOk g (.before e)
  | unknown (e : WorkError) : FailureOk g (.dispatched e false)
  | aborted (message : String) : Unharmed g →
      FailureOk g (.dispatched (.contractValidation message) true)
  | after (message : String) (cause : Option WorkError) : Confirmed g →
      FailureOk g (.after message cause)

section Attempt

variable (db : NodePostgresTransactor) (n : ℕ) {g : Commits}

theorem keeps_before {post : Commits → α → Prop} {p : Tx W WorkError α} (h : p.Uses Quiet)
    (hpost : ∀ a, post [] a) :
    (p.rescue fun e => .fail (.before e)).Keeps track Single post FailureOk [] :=
  Prog.Keeps.rescue (keeps_of_quiet h (Nat.zero_le _) hpost fun e => .before e rfl)

theorem keeps_terminalRelease {post : Commits → Unit → Prop} {throws : Commits → ε → Prop}
    (destroy : Bool) (hI : Single g) (hpost : post g ()) :
    (terminalRelease n destroy : Tx W ε Unit).Keeps track Single post throws g := by
  intro x
  rw [track_quiet g _ x (fun _ heq => nomatch heq)]
  exact ⟨hI, hpost⟩

theorem keeps_releaseState {post : Commits → ReleaseState → Prop} {throws : Commits → ε → Prop}
    (hI : Single g) (hpost : ∀ state, post g state) :
    (readReleaseState n : Tx W ε ReleaseState).Keeps track Single post throws g := by
  intro x
  rw [track_quiet g _ x (fun _ heq => nomatch heq)]
  exact ⟨hI, hpost x⟩

theorem keeps_disposalError {post : Commits → Option Thrown → Prop} {throws : Commits → ε → Prop}
    (hI : Single g) (hpost : ∀ e, post g e) :
    (readDisposalError n : Tx W ε (Option Thrown)).Keeps track Single post throws g := by
  intro x
  rw [track_quiet g _ x (fun _ heq => nomatch heq)]
  exact ⟨hI, hpost x⟩

theorem keeps_destroyIfOpen {post : Commits → Unit → Prop} {throws : Commits → ε → Prop}
    (hI : Single g) (hpost : post g ()) :
    (destroyIfOpen n : Tx W ε Unit).Keeps track Single post throws g := by
  refine Prog.Keeps.bind (keeps_releaseState n hI fun state => ?_)
  split
  · exact keeps_terminalRelease n true hI hpost
  · exact hpost

/-- After a confirmed `COMMIT` nothing but a `PostCommitReleaseError` is thrown. -/
theorem keeps_afterCommit (hI : Single g) (hg : Confirmed g) (result : α) :
    (afterCommit n result : Tx W Failure α).Keeps track Single (fun g _ => Confirmed g) FailureOk
      g := by
  refine Prog.Keeps.bind (Prog.Keeps.rescue (keeps_of_quiet (quiet_query (by simp)) hI ?_ ?_))
  · intro discarded
    split
    · refine Prog.Keeps.bind (Prog.Keeps.bind (keeps_terminalRelease n false hI ?_))
      refine Prog.Keeps.bind (keeps_releaseState n hI fun state => ?_)
      split
      · exact Prog.Keeps.bind (keeps_disposalError n hI fun e => .after _ _ hg)
      · exact hg
    · exact Prog.Keeps.bind (keeps_terminalRelease n true hI (.after _ _ hg))
  · intro e
    exact Prog.Keeps.bind (keeps_terminalRelease n true hI (.after _ _ hg))

/-- The `try`: the one `COMMIT` is recorded before anything is concluded from it. -/
theorem keeps_work (initialLocks : Option (List InitialExclusiveLock)) (fn : Callback W α) :
    (work db n initialLocks fn).Keeps track Single (fun g _ => Confirmed g) FailureOk [] := by
  refine Prog.Keeps.bind (keeps_before (quiet_openTransaction db n initialLocks) fun txid => ?_)
  refine Prog.Keeps.bind (keeps_before (quiet_abortRace n fn) fun result => ?_)
  refine Prog.Keeps.bind (keeps_before (quiet_query (by simp)) fun continuity => ?_)
  split
  · refine Prog.Keeps.bind (Prog.Keeps.rescue fun x => ⟨Nat.le_refl 1, ?_⟩)
    have hI : Single [(n, x)] := Nat.le_refl 1
    cases x with
    | error e => exact FailureOk.unknown _
    | aborted reason => exact FailureOk.unknown _
    | value commit =>
        show (if commit.Tagged "COMMIT" then _ else _ : Tx W Failure α).Keeps _ _ _ _ _
        split
        · next htag => exact keeps_afterCommit n hI ⟨n, commit, rfl, htag⟩ result
        · by_cases hrolled : commit.Tagged "ROLLBACK"
          · rw [decide_eq_true hrolled]
            refine FailureOk.aborted _ fun c hc => ?_
            rw [List.mem_singleton.mp hc]
            exact ⟨commit, rfl, hrolled⟩
          · rw [decide_eq_false hrolled]
            exact FailureOk.unknown _
  · exact FailureOk.unknown _

/-- The `catch`: what is thrown on agrees with the record. -/
theorem keeps_handleFailure {failure : Failure} (hI : Single g) (h : FailureOk g failure) :
    (handleFailure db n failure : Tx W TxError α).Keeps track Single (fun g _ => Confirmed g)
      Catchable g := by
  have hrollback : (if failure.committed = false ∧ failure.commitDispatched = false then
      rollbackIfOpen db n else pure () : Tx W TxError Unit).Keeps track Single (fun g' _ => g' = g)
      Catchable g := by
    split
    · refine Prog.Keeps.bind (keeps_releaseState n hI fun state => ?_)
      split
      · intro x
        rw [track_quiet g _ x (fun _ heq => nomatch heq)]
        exact ⟨hI, rfl⟩
      · rfl
    · rfl
  refine Prog.Keeps.bind (hrollback.mono (fun g' _ hg' => ?_) fun _ _ he => he)
  subst hg'
  refine Prog.Keeps.bind (keeps_destroyIfOpen n hI ?_)
  refine Prog.Keeps.bind (keeps_disposalError n hI fun disposalError => ?_)
  cases h with
  | before e hg =>
      subst hg
      cases disposalError with
      | none => exact ⟨unharmed_nil, fun _ => rfl⟩
      | some disposalError => exact ⟨unharmed_nil, fun _ => rfl⟩
  | unknown e => exact ⟨trivial, fun hcode => nomatch hcode⟩
  | aborted message hg =>
      cases disposalError with
      | none => exact ⟨hg, fun hcode => nomatch hcode⟩
      | some disposalError => exact ⟨hg, fun hcode => nomatch hcode⟩
  | after message cause hg => exact ⟨hg, fun hcode => nomatch hcode⟩

theorem keeps_cleanUp {post : Commits → Unit → Prop} {throws : Commits → TxError → Prop}
    (hI : Single g) (hpost : post g ()) :
    (cleanUp n : Tx W TxError Unit).Keeps track Single post throws g := by
  refine Prog.Keeps.bind fun x => ?_
  rw [track_quiet g _ x (fun _ heq => nomatch heq)]
  exact ⟨hI, keeps_destroyIfOpen n hI hpost⟩

theorem keeps_runOnce (initialLocks : Option (List InitialExclusiveLock)) (fn : Callback W α) :
    (runOnce db n initialLocks fn).Keeps track Single (fun g _ => Confirmed g) Catchable [] := by
  have hempty : Single [] := Nat.zero_le _
  refine Prog.Keeps.bind (Prog.Keeps.rescue (keeps_of_quiet ?_ hempty ?_ ?_))
  · exact ⟨(fun _ heq => nomatch heq), fun _ => Prog.uses_lift⟩
  · intro _
    refine Prog.Keeps.bind fun x => ⟨hempty, Prog.Keeps.andFinally ?_⟩
    have hcaught : ((work db n initialLocks fn).rescue (handleFailure db n)).Keeps track Single
        (fun g _ => Confirmed g) Catchable [] := by
      refine Prog.Keeps.rescue (((keeps_work db n initialLocks fn).with_invariant hempty).mono ?_ ?_)
      · exact fun g a h => h.2
      · exact fun g e h => keeps_handleFailure db n h.1 h.2
    refine (hcaught.with_invariant hempty).mono ?_ ?_
    · exact fun g a h => keeps_cleanUp n h.1 h.2
    · exact fun g e h => keeps_cleanUp n h.1 h.2
  · exact fun e => ⟨unharmed_nil, fun _ => rfl⟩

end Attempt

/-! ## The loop -/

section Attempts

variable (db : NodePostgresTransactor) (initialLocks : Option (List InitialExclusiveLock))
variable (fn : Callback W α)

/-- There is another attempt only after one without `COMMIT`. -/
theorem keeps_retry (attempt : ℕ) {again : Option (Tx W TxError α)}
    (hagain : ∀ p ∈ again, p.Keeps track Single (fun g _ => Confirmed g) Catchable [])
    {g : Commits} {error : TxError} (hI : Single g) (h : Catchable g error) :
    (retry db attempt again error).Keeps track Single (fun g _ => Confirmed g) Catchable g := by
  rw [retry]
  split
  · next hcode =>
      obtain ⟨code, hcode, -⟩ := (Option.any_eq_true _ _).mp hcode
      obtain rfl := h.2 (by rw [hcode]; rfl)
      cases again with
      | none => exact h
      | some again =>
          refine Prog.Keeps.bind fun aborted => ⟨hI, ?_⟩
          show (if Option.isSome aborted then _ else _ : Tx W TxError α).Keeps _ _ _ _ _
          split
          · exact h
          · refine Prog.Keeps.bind (Prog.Keeps.rescue fun x => ⟨hI, ?_⟩)
            cases x with
            | value u => exact hagain again rfl
            | error e => exact ⟨unharmed_nil, fun _ => rfl⟩
            | aborted reason => exact ⟨unharmed_nil, fun _ => rfl⟩
  · exact h

theorem keeps_turn (attempt : ℕ) {again : Option (Tx W TxError α)}
    (hagain : ∀ p ∈ again, p.Keeps track Single (fun g _ => Confirmed g) Catchable []) :
    (turn db initialLocks fn attempt again).Keeps track Single (fun g _ => Confirmed g) Catchable
      [] := by
  have hempty : Single [] := Nat.zero_le _
  refine Prog.Keeps.bind (Prog.Keeps.rescue (keeps_of_quiet quiet_throwIfAborted hempty ?_ ?_))
  · intro _
    refine Prog.Keeps.rescue
      (((keeps_runOnce db attempt initialLocks fn).with_invariant hempty).mono ?_ ?_)
    · exact fun g a h => h.2
    · exact fun g e h => keeps_retry db attempt hagain h.1 h.2
  · exact fun e => ⟨unharmed_nil, fun _ => rfl⟩

theorem keeps_turns (left : ℕ) :
    (turns db initialLocks fn left).Keeps track Single (fun g _ => Confirmed g) Catchable [] := by
  induction left with
  | zero => exact keeps_turn db initialLocks fn _ fun p hp => nomatch hp
  | succ left ih =>
      refine keeps_turn db initialLocks fn _ fun p hp => ?_
      obtain rfl := Option.some.inj hp
      exact ih

end Attempts

/-! ## The server -/

/-- What is decided stays so. -/
structure TxStatus.Kept (a b : TxStatus) : Prop where
  committed : a = .committed → b = .committed
  rolledBack : a = .rolledBack → b = .rolledBack

/-- `COMMIT` has come. -/
def TxStatus.Dispatched (a : TxStatus) : Prop :=
  a = .committing ∨ a = .committed

theorem TxStatus.Kept.refl (a : TxStatus) : TxStatus.Kept a a :=
  ⟨id, id⟩

theorem Serves.kept {statement : Statement} {a b : TxStatus} (h : Serves statement a b) :
    TxStatus.Kept a b := by
  cases h with
  | nothing => exact .refl a
  | failed => exact ⟨fun h => (nomatch h), fun h => (nomatch h)⟩
  | begin => exact ⟨fun h => (nomatch h), fun h => (nomatch h)⟩
  | committing => exact ⟨fun h => (nomatch h), fun h => (nomatch h)⟩
  | committed => exact ⟨fun h => (nomatch h), fun h => (nomatch h)⟩

theorem Serves.dispatched {statement : Statement} {a b : TxStatus} (h : Serves statement a b)
    (hb : b.Dispatched) : a.Dispatched ∨ statement = .commit := by
  cases h with
  | nothing => exact Or.inl hb
  | failed => rcases hb with hb | hb <;> cases hb
  | begin => rcases hb with hb | hb <;> cases hb
  | committing => exact Or.inr rfl
  | committed => exact Or.inr rfl

theorem World.Abort.status {reason : AbortReason} {s t : World} (h : World.Abort reason s t) :
    t.status = s.status := by
  cases h with
  | unheard => rfl
  | heard => rfl

/-- One status is set, in a way that keeps what is decided. -/
theorem kept_setStatus {s : World} {m : ℕ} {status : TxStatus}
    (h : TxStatus.Kept (s.status m) status) (n : ℕ) :
    TxStatus.Kept (s.status n) ((s.setStatus m status).status n) := by
  by_cases hn : n = m
  · subst hn
    rw [World.setStatus_status, Function.update_self]
    exact h
  · rw [World.setStatus_status, Function.update_of_ne hn]
    exact .refl _

theorem dispatched_setStatus {s : World} {m n : ℕ} {status : TxStatus} {p : Prop}
    (h : status.Dispatched → (s.status m).Dispatched ∨ p)
    (hn : ((s.setStatus m status).status n).Dispatched) : (s.status n).Dispatched ∨ n = m ∧ p := by
  by_cases hnm : n = m
  · subst hnm
    rw [World.setStatus_status, Function.update_self] at hn
    exact (h hn).imp_right fun hp => ⟨rfl, hp⟩
  · rw [World.setStatus_status, Function.update_of_ne hnm] at hn
    exact Or.inl hn

theorem Happens.kept {s t : World} (h : Happens s t) (n : ℕ) :
    TxStatus.Kept (s.status n) (t.status n) ∧
      ((t.status n).Dispatched → (s.status n).Dispatched) := by
  cases h with
  | abort reason hnone habort =>
      rw [habort.status]
      exact ⟨.refl _, id⟩
  | decide m status hm hstatus =>
      refine ⟨kept_setStatus ⟨fun h => ?_, fun h => ?_⟩ n, fun hn => ?_⟩
      · rw [hm] at h
        cases h
      · rw [hm] at h
        cases h
      · rcases dispatched_setStatus (p := False) (fun _ => Or.inl (Or.inl hm)) hn with h | h
        · exact h
        · exact h.2.elim
  | lose m hm =>
      refine ⟨kept_setStatus ⟨fun h => ?_, fun h => ?_⟩ n, fun hn => ?_⟩
      · rw [hm] at h
        cases h
      · rfl
      · have hnot : TxStatus.rolledBack.Dispatched → (s.status m).Dispatched ∨ False := by
          rintro (h | h) <;> cases h
        rcases dispatched_setStatus hnot hn with h | h
        · exact h
        · exact h.2.elim
  | lateClient m hm => exact ⟨.refl _, id⟩
  | lateFailure m hm => exact ⟨.refl _, id⟩

/-- What a statement can do, however the await of it ends. -/
theorem Serves.setStatus {s : World} {m : ℕ} {statement : Statement} {status : TxStatus}
    (h : Serves statement (s.status m) status) (n : ℕ) :
    TxStatus.Kept (s.status n) ((s.setStatus m status).status n) ∧
      (((s.setStatus m status).status n).Dispatched →
        (s.status n).Dispatched ∨ Op.query m statement = .query n .commit) := by
  refine ⟨kept_setStatus h.kept n, fun hn => ?_⟩
  rcases dispatched_setStatus h.dispatched hn with hb | ⟨rfl, rfl⟩
  · exact Or.inl hb
  · exact Or.inr rfl

theorem Exec.kept {s t : World} {o : Op} {x : Ans W o} (h : Exec W s o x t) (n : ℕ) :
    TxStatus.Kept (s.status n) (t.status n) ∧
      ((t.status n).Dispatched → (s.status n).Dispatched ∨ o = .query n .commit) := by
  have hsame : ∀ t : World, t.status = s.status → TxStatus.Kept (s.status n) (t.status n) ∧
      ((t.status n).Dispatched → (s.status n).Dispatched ∨ o = .query n .commit) := by
    intro t ht
    rw [ht]
    exact ⟨.refl _, Or.inl⟩
  cases h with
  | replied m statement status result hnone hserves hhonest => exact hserves.setStatus n
  | errored m statement status e hnone hserves => exact hserves.setStatus n
  | cut m statement status reason hnone hserves habort =>
      rw [habort.status]
      exact hserves.setStatus n
  | acquireAborted m reason hnone habort => exact hsame t habort.status
  | boundedRollback m ms status hstatus =>
      refine ⟨kept_setStatus ?_ n, fun hn => ?_⟩
      · rcases hstatus with rfl | ⟨hm, rfl⟩
        · exact .refl _
        · rw [hm]
          exact (Serves.failed .begin).kept
      · have hserved : status.Dispatched → (s.status m).Dispatched ∨ False := by
          rcases hstatus with rfl | ⟨-, rfl⟩
          · exact Or.inl
          · rintro (h | h) <;> cases h
        rcases dispatched_setStatus hserved hn with h | ⟨-, hfalse⟩
        · exact Or.inl h
        · exact hfalse.elim
  | _ => exact hsame _ rfl

/-- The reply to `COMMIT` tells the truth. -/
theorem Exec.honest {s t : World} {n : ℕ} {result : NodePostgresResult}
    (h : Exec W s (.query n .commit) (.value result) t) :
    (result.Tagged "COMMIT" → t.status n = .committed) ∧
      (result.Tagged "ROLLBACK" → t.status n = .rolledBack) := by
  cases h with
  | replied _ _ status _ hnone hserves hhonest =>
      rw [World.setStatus_status, Function.update_self]
      exact hhonest rfl

/-! ## The record and the server -/

section Runs

variable {db : NodePostgresTransactor} {initialLocks : Option (List InitialExclusiveLock)}
variable {fn : Callback W α}

/-- The record of a run. -/
def commits (cfg : Running W α) : Commits :=
  (ownTrace () cfg.log).foldl (fun g e => track g e.1 e.2) []

/-- The server agrees with the record. -/
structure Recorded (cfg : Running W α) : Prop where
  dispatched : ∀ n, (cfg.shared.status n).Dispatched → ∃ x, (n, x) ∈ commits cfg
  confirmed : ∀ n result, (n, .value result) ∈ commits cfg → result.Tagged "COMMIT" →
    cfg.shared.status n = .committed
  refused : ∀ n result, (n, .value result) ∈ commits cfg → result.Tagged "ROLLBACK" →
    cfg.shared.status n = .rolledBack

theorem mem_commitOf {o : Op} {x : Ans W o} {n : ℕ} {y : Settled NodePostgresResult}
    (h : (n, y) ∈ commitOf o x) :
    (⟨o, x⟩ : Made Op (Ans W)) = ⟨.query n .commit, y⟩ := by
  cases o with
  | query m statement =>
      cases statement with
      | commit =>
          obtain ⟨rfl, rfl⟩ := Prod.mk.inj (List.mem_singleton.mp h)
          rfl
      | _ => cases h
  | _ => cases h

theorem recorded_of_reachable {cfg : Running W α}
    (h : Reachable (transactionSystem db initialLocks fn) cfg) : Recorded cfg := by
  refine Reachable.invariant (I := Recorded) ?_ ?_ h
  · rintro cfg ⟨⟨-, hidle, -⟩, -, hlog⟩
    have hnone : commits cfg = [] := by
      rw [commits, hlog]
      rfl
    constructor
    · intro n hn
      rw [hidle] at hn
      rcases hn with hn | hn <;> cases hn
    · intro n result hmem
      rw [hnone] at hmem
      cases hmem
    · intro n result hmem
      rw [hnone] at hmem
      cases hmem
  · rintro cfg cfg' - hrec hstep
    cases hstep with
    | start i r hadm hi => exact ⟨hrec.dispatched, hrec.confirmed, hrec.refused⟩
    | env t henv =>
        have hkept := henv.kept
        constructor
        · exact fun n hn => hrec.dispatched n ((hkept n).2 hn)
        · exact fun n result hmem htag =>
            (hkept n).1.committed (hrec.confirmed n result hmem htag)
        · exact fun n result hmem htag =>
            (hkept n).1.rolledBack (hrec.refused n result hmem htag)
    | exec i r o k x t hi hexec =>
        have hkept := Exec.kept hexec
        have hcommits : commits (α := α)
            ⟨t, Function.update cfg.calls i (some ⟨r, k x⟩), cfg.log ++ [⟨i, ⟨o, x⟩, cfg.shared⟩]⟩ =
              commits cfg ++ commitOf o x := by
          simp only [commits, ownTrace_append, ownTrace_singleton, List.foldl_append]
          rfl
        constructor
        · intro n hn
          rw [hcommits]
          rcases (hkept n).2 hn with hbefore | rfl
          · obtain ⟨y, hy⟩ := hrec.dispatched n hbefore
            exact ⟨y, List.mem_append_left _ hy⟩
          · exact ⟨x, List.mem_append_right _ (List.mem_singleton.mpr rfl)⟩
        · intro n result hmem htag
          rw [hcommits] at hmem
          rcases List.mem_append.mp hmem with hmem | hmem
          · exact (hkept n).1.committed (hrec.confirmed n result hmem htag)
          · cases mem_commitOf hmem
            exact (Exec.honest hexec).1 htag
        · intro n result hmem htag
          rw [hcommits] at hmem
          rcases List.mem_append.mp hmem with hmem | hmem
          · exact (hkept n).1.rolledBack (hrec.refused n result hmem htag)
          · cases mem_commitOf hmem
            exact (Exec.honest hexec).2 htag

/-- What the program has recorded when it has come this far. -/
theorem kept_of_reachable {cfg : Running W α}
    (h : Reachable (transactionSystem db initialLocks fn) cfg) {q : Tx W TxError α}
    (hq : cfg.calls () = some ⟨(), q⟩) :
    Single (commits cfg) ∧
      q.Keeps track Single (fun g _ => Confirmed g) Catchable (commits cfg) := by
  have hbody : ((transactionService db initialLocks fn).body ()).Keeps track Single
      (fun g _ => Confirmed g) Catchable [] := keeps_turns db initialLocks fn _
  have hempty : Single [] := Nat.zero_le _
  exact Service.keeps_of_reachable hbody hempty h hq

/-- No `COMMIT` was taken, nor can be. -/
def NotCommitted (cfg : Running W α) : Prop :=
  ∀ n, ¬(cfg.shared.status n).Dispatched

/-- The transaction of some attempt is committed. -/
def Committed (cfg : Running W α) : Prop :=
  ∃ n, cfg.shared.status n = .committed

/-- A `COMMIT` whose reply is neither that of a commit nor that of a rollback. -/
def Undecided (cfg : Running W α) : Prop :=
  ∃ n x, (n, x) ∈ commits cfg ∧ ∀ result, x = .value result →
    ¬result.Tagged "COMMIT" ∧ ¬result.Tagged "ROLLBACK"

/-- What an error says. -/
def SaysTruth (cfg : Running W α) : TxError → Prop
  | .postCommitRelease _ _ => Committed cfg
  | .ambiguousCommit _ _ => True
  | .work _ | .connectionDisposal _ _ => NotCommitted cfg ∧ ¬Undecided cfg

theorem Recorded.committed {cfg : Running W α} (h : Recorded cfg) (hg : Confirmed (commits cfg)) :
    Committed cfg := by
  obtain ⟨n, result, hg, htag⟩ := hg
  exact ⟨n, h.confirmed n result (by rw [hg]; exact List.mem_singleton.mpr rfl) htag⟩

theorem Recorded.notCommitted {cfg : Running W α} (h : Recorded cfg)
    (hg : Unharmed (commits cfg)) : NotCommitted cfg ∧ ¬Undecided cfg := by
  constructor
  · intro n hn
    obtain ⟨x, hx⟩ := h.dispatched n hn
    obtain ⟨result, rfl, htag⟩ := hg _ hx
    have hrolled := h.refused n result hx htag
    rw [hrolled] at hn
    rcases hn with hn | hn <;> cases hn
  · rintro ⟨n, x, hx, hundecided⟩
    obtain ⟨result, rfl, htag⟩ := hg _ hx
    exact (hundecided result rfl).2 htag

/-- **The outcome of a transaction.** At most one attempt commits. `transaction` returns only after
    a confirmed commit. A `PostCommitReleaseError` of its own says that the transaction committed;
    a `ConnectionDisposalError` of its own, and any error that it makes or passes on, say that
    nothing did and nothing will; whatever is left undecided is an `AmbiguousCommitError`. -/
theorem outcome_truthful {cfg : Running W α}
    (h : Reachable (transactionSystem db initialLocks fn) cfg) :
    (∀ m n, cfg.shared.status m = .committed → cfg.shared.status n = .committed → m = n) ∧
      (∀ a, cfg.calls () = some ⟨(), .ret a⟩ → Confirmed (commits cfg) ∧ Committed cfg) ∧
      ∀ e, cfg.calls () = some ⟨(), .fail e⟩ → SaysTruth cfg e := by
  have hrec := recorded_of_reachable h
  refine ⟨fun m n hm hn => ?_, fun a ha => ?_, fun e he => ?_⟩
  · obtain ⟨x, hx⟩ := hrec.dispatched m (Or.inr hm)
    obtain ⟨y, hy⟩ := hrec.dispatched n (Or.inr hn)
    cases hcall : cfg.calls () with
    | none =>
        have hlog := (Service.trace_of_reachable h ()).2 hcall
        rw [commits, hlog] at hx
        cases hx
    | some call =>
        obtain ⟨⟨⟩, q⟩ := call
        have hone : (commits cfg).length ≤ 1 := (kept_of_reachable h hcall).1
        obtain ⟨c, hc⟩ : ∃ c, commits cfg = [c] := by
          refine List.length_eq_one_iff.mp (le_antisymm hone ?_)
          exact List.length_pos_of_mem hx
        rw [hc] at hx hy
        exact (Prod.mk.inj ((List.mem_singleton.mp hx).trans (List.mem_singleton.mp hy).symm)).1
  · have hg : Confirmed (commits cfg) := (kept_of_reachable h ha).2
    exact ⟨hg, hrec.committed hg⟩
  · have htruthful : Catchable (commits cfg) e := (kept_of_reachable h he).2
    cases e with
    | postCommitRelease message cause => exact hrec.committed htruthful.1
    | ambiguousCommit error disposalError => trivial
    | work error => exact hrec.notCommitted htruthful.1
    | connectionDisposal error disposalError => exact hrec.notCommitted htruthful.1

end Runs

/-! ## Callbacks that throw -/

section Throwing

variable (db : NodePostgresTransactor) (initialLocks : Option (List InitialExclusiveLock))
variable {fn : Callback W α} (n : ℕ)

theorem throws_runCallback (hfn : fn.Throws) : (runCallback n fn).Throws := by
  induction fn with
  | ret a => exact hfn
  | fail e => trivial
  | await o k ih =>
      cases o with
      | outside =>
          intro x
          cases x with
          | value w => exact ih _ (hfn _)
          | error e => exact ih _ (hfn _)
          | aborted reason => trivial
      | query sql params =>
          rw [runCallback, guarded]
          split
          · intro x
            cases x with
            | value result => exact ih _ (hfn _)
            | error e => exact ih _ (hfn _)
            | aborted reason => trivial
          · exact ih _ (hfn _)

theorem throws_abortRace (hfn : fn.Throws) : (abortRace n fn).Throws := by
  intro aborted
  cases aborted with
  | none => exact throws_runCallback n hfn
  | some reason => trivial

/-- An attempt whose callback throws does not come to `COMMIT`. -/
theorem quiet_work (hfn : fn.Throws) : (work db n initialLocks fn).Uses Quiet := by
  refine Prog.Uses.bind (Prog.Uses.rescue (quiet_openTransaction db n initialLocks) fun _ => ?_)
    fun txid => Prog.Uses.bind_of_throws (Prog.Uses.rescue (quiet_abortRace n fn) fun _ => ?_)
      (Prog.Throws.rescue (throws_abortRace n hfn) fun _ => ?_)
  all_goals trivial

theorem quiet_destroyIfOpen : (destroyIfOpen n : Tx W ε Unit).Uses Quiet := by
  refine ⟨fun _ heq => (by cases heq), fun state => ?_⟩
  exact Prog.uses_ite ⟨fun _ heq => (by cases heq), fun _ => trivial⟩ trivial

theorem quiet_handleFailure (failure : Failure) :
    (handleFailure db n failure : Tx W TxError α).Uses Quiet := by
  have hrollback : (rollbackIfOpen db n : Tx W TxError Unit).Uses Quiet := by
    refine ⟨fun _ heq => (by cases heq), fun state => ?_⟩
    exact Prog.uses_ite ⟨fun _ heq => (by cases heq), fun _ => trivial⟩ trivial
  refine Prog.Uses.bind (Prog.uses_ite hrollback ?_) fun _ =>
    Prog.Uses.bind (quiet_destroyIfOpen n) fun _ => ?_
  · trivial
  refine ⟨fun _ heq => (by cases heq), fun disposalError => ?_⟩
  exact Prog.uses_ite trivial (Prog.uses_ite (Prog.uses_elim _ trivial fun _ => trivial) trivial)

theorem quiet_runOnce (hfn : fn.Throws) : (runOnce db n initialLocks fn).Uses Quiet := by
  have hacquire : (acquire n : Tx W WorkError Unit).Uses Quiet :=
    ⟨fun _ heq => (by cases heq), fun _ => Prog.uses_lift⟩
  refine Prog.Uses.bind (Prog.Uses.rescue hacquire fun _ => ?_) fun _ => ?_
  · trivial
  refine ⟨fun _ heq => (by cases heq), fun _ => Prog.Uses.andFinally ?_ ?_⟩
  · exact Prog.Uses.rescue (quiet_work db initialLocks n hfn) (quiet_handleFailure db n)
  · exact ⟨fun _ heq => (by cases heq), fun _ => quiet_destroyIfOpen n⟩

theorem quiet_turn (hfn : fn.Throws) {again : Option (Tx W TxError α)}
    (hagain : ∀ p ∈ again, p.Uses Quiet) : (turn db initialLocks fn n again).Uses Quiet := by
  refine Prog.Uses.bind (Prog.Uses.rescue quiet_throwIfAborted fun _ => ?_) fun _ => ?_
  · trivial
  refine Prog.Uses.rescue (quiet_runOnce db initialLocks n hfn) fun error => Prog.uses_ite ?_ ?_
  on_goal 2 => trivial
  cases again with
  | none => trivial
  | some again =>
      refine ⟨fun _ heq => (by cases heq), fun aborted => Prog.uses_ite trivial ?_⟩
      have hsleep : (sleep (min (db.retryBaseDelayMs.1 * 2 ^ n) 1000) : Tx W WorkError Unit).Uses
          Quiet := by
        refine ⟨fun _ heq => (by cases heq), fun x => ?_⟩
        cases x <;> trivial
      refine Prog.Uses.bind (Prog.Uses.rescue hsleep fun _ => ?_) fun _ => hagain again rfl
      trivial

theorem quiet_turns (hfn : fn.Throws) (left : ℕ) :
    (turns db initialLocks fn left).Uses Quiet := by
  induction left with
  | zero => exact quiet_turn db initialLocks _ hfn fun p hp => by cases hp
  | succ left ih =>
      refine quiet_turn db initialLocks _ hfn fun p hp => ?_
      obtain rfl := Option.some.inj hp
      exact ih

end Throwing

/-! ## Runs against a server that answers -/

def tagged (tag : String) (rows : List JsValue) : NodePostgresResult :=
  ⟨rows, some (.fin 1), some (Js.lit tag)⟩

/-- The replies of a server on which everything goes well. -/
def sampleReply : Statement → TxStatus → NodePostgresResult
  | .begin, _ => tagged "BEGIN" []
  | .setLocalTimeout _, _ => tagged "SET" []
  | .lockTables _, _ => tagged "LOCK" []
  | .setConfigTimeout _, _ =>
      tagged "SELECT" [.object [(Js.lit "statement_timeout", .string (Js.lit "30s"))]]
  | .currentTimeout, _ =>
      tagged "SELECT" [.object [(Js.lit "statement_timeout_ms", .string (Js.lit "30000"))]]
  | .txidCurrent, _ => tagged "SELECT" [.object [(Js.lit "txid", .string (Js.lit "7"))]]
  | .executor _ _, _ => tagged "SELECT" []
  | .commit, .committed => tagged "COMMIT" []
  | .commit, _ => ⟨[], none, none⟩
  | .discardAll, _ => tagged "DISCARD" []

def sampleStatus : Statement → TxStatus → TxStatus
  | .begin, .idle => .running
  | .commit, .running => .committed
  | _, status => status

def sampleReleased (destroy : Bool) (c : Client) : Client :=
  if c.releaseState = .opened then
    { c with
      releaseState := if destroy then .destroyed else .released
      releases := c.releases ++ [destroy] }
  else c

/-- Every operation, on a world that is never in the way. -/
def sampleRun (s : World) : (o : Op) → Ans Unit o × World
  | .signal => (s.aborted, s)
  | .acquire n => (.ok (), s.setClient n ⟨.given, .opened, none, []⟩)
  | .listen n => ((), { s with listening := some n })
  | .unlisten _ => ((), { s with listening := none })
  | .query n statement =>
      s.aborted.elim
        (.value (sampleReply statement (sampleStatus statement (s.status n))),
          s.setStatus n (sampleStatus statement (s.status n)))
        fun reason => (.aborted reason, s)
  | .outside => (s.aborted.elim (.value ()) .aborted, s)
  | .boundedRollback n _ =>
      ((), s.setStatus n (if s.status n = .running then .rolledBack else s.status n))
  | .terminalRelease n destroy => ((), s.setClient n (sampleReleased destroy (s.clients n)))
  | .releaseState n => ((s.clients n).releaseState, s)
  | .disposalError n => ((s.clients n).disposalError, s)
  | .sleep _ => (s.aborted.elim (.value ()) .aborted, s)

theorem serves_sample (statement : Statement) (status : TxStatus) :
    Serves statement status (sampleStatus statement status) := by
  cases statement with
  | begin =>
      cases status with
      | idle => exact .begin
      | _ => exact .nothing _ _
  | commit =>
      cases status with
      | running => exact .committed
      | _ => exact .nothing _ _
  | _ => exact .nothing _ _

theorem honest_sample (statement : Statement) (status : TxStatus) :
    Honest statement status (sampleReply statement status) := by
  rintro rfl
  cases status with
  | committed => exact ⟨fun _ => rfl, fun h => absurd h (by decide)⟩
  | _ => exact ⟨fun h => (nomatch h), fun h => (nomatch h)⟩

theorem exec_sample (s : World) (o : Op) : Exec Unit s o (sampleRun s o).1 (sampleRun s o).2 := by
  cases o with
  | signal => exact .signal
  | acquire n => exact .acquired n
  | listen n => exact .listen n
  | unlisten n => exact .unlisten n
  | query n statement =>
      cases habort : s.aborted with
      | none =>
          simp only [sampleRun, habort, Option.elim]
          exact .replied n statement _ _ habort (serves_sample _ _) (honest_sample _ _)
      | some reason =>
          simp only [sampleRun, habort, Option.elim]
          exact .notSent n statement reason habort
  | outside =>
      cases habort : s.aborted with
      | none =>
          simp only [sampleRun, habort, Option.elim]
          exact .outside () habort
      | some reason =>
          simp only [sampleRun, habort, Option.elim]
          exact .outsideAborted reason habort
  | boundedRollback n ms =>
      refine .boundedRollback n ms _ ?_
      split
      · next hrunning => exact Or.inr ⟨hrunning, rfl⟩
      · exact Or.inl rfl
  | terminalRelease n destroy =>
      refine .terminalRelease n destroy _ ?_
      unfold sampleReleased
      split
      · next hopen => exact .done hopen
      · next hopen => exact .over hopen
  | releaseState n => exact .releaseState n
  | disposalError n => exact .disposalError n
  | sleep ms =>
      cases habort : s.aborted with
      | none =>
          simp only [sampleRun, habort, Option.elim]
          exact .slept ms habort
      | some reason =>
          simp only [sampleRun, habort, Option.elim]
          exact .sleepAborted ms reason habort

def sampleWorld : World :=
  ⟨none, none, fun _ => ⟨.unasked, .opened, none, []⟩, fun _ => .idle⟩

def sampleTransactor : NodePostgresTransactor :=
  ⟨⟨30000, by decide⟩, ⟨35000, by decide⟩, ⟨5000, by decide⟩, ⟨1000, by decide⟩, ⟨0, by decide⟩,
    ⟨10, by decide⟩⟩

/-- The end of a transaction with this callback. -/
def sampleEnd (fn : Callback Unit ℕ) : Running Unit ℕ :=
  (transactionService sampleTransactor none fn).serve sampleRun
    ⟨sampleWorld, fun _ => none, []⟩ () ()

theorem reaches_sampleEnd (fn : Callback Unit ℕ) :
    Reachable (transactionSystem sampleTransactor none fn) (sampleEnd fn) := by
  have hfresh : sampleWorld.Fresh := ⟨rfl, fun _ => rfl, fun _ => rfl⟩
  have hinit : Reachable (transactionSystem sampleTransactor none fn)
      ⟨sampleWorld, fun _ => none, []⟩ := .init ⟨hfresh, fun _ => rfl, rfl⟩
  exact (Service.run_serve exec_sample trivial rfl).reachable hinit

/-- A callback with one query. -/
def sampleCallback : Callback Unit ℕ :=
  .await (.query (Js.lit "SELECT 1") []) fun _ => .ret 7

/-- A callback in which another transaction was committed, and could not be cleaned up after. -/
def nestedCallback : Callback Unit ℕ :=
  .fail ⟨.postCommitRelease, none, "PostgreSQL committed but session reset failed"⟩

/-- What a callback throws is passed on, also where it is a `PostCommitReleaseError`. -/
theorem release_error_passed_on :
    ¬∀ (db : NodePostgresTransactor) (fn : Callback Unit ℕ) (cfg : Running Unit ℕ),
      Reachable (transactionSystem db none fn) cfg →
        ∀ e, cfg.calls () = some ⟨(), .fail e⟩ → e.kind = .postCommitRelease → Committed cfg := by
  intro hclaim
  have hreach := reaches_sampleEnd nestedCallback
  obtain ⟨n, hn⟩ := hclaim sampleTransactor nestedCallback _ hreach
    (.work (.rethrown ⟨.postCommitRelease, none,
      "PostgreSQL committed but session reset failed"⟩)) rfl rfl
  have hnone : Unharmed (commits (sampleEnd nestedCallback)) := unharmed_nil
  exact ((recorded_of_reachable hreach).notCommitted hnone).1 n (Or.inr hn)

theorem outcome_truthful_sample : Committed (sampleEnd sampleCallback) :=
  ((outcome_truthful (reaches_sampleEnd sampleCallback)).2.1 7 rfl).2

end Postgres
