import BpcProtocol.Postgres.Custody

set_option autoImplicit false

/-! # Each connection is released once

The connection of every attempt, in every state that a transaction and the pool can reach together:
how often it was released, and whether as one to destroy. -/

namespace Postgres

open Async Transition

variable {W α : Type}

/-! ## One connection -/

/-- The connection of an attempt agrees with what was done. -/
structure Kept (made : List (Made Op (Ans W))) (n : ℕ) (c : Client) : Prop where
  unasked : ¬Asked made n → c = ⟨.unasked, .opened, none, []⟩ ∧ ¬Closed made n
  /-- Given in time: held until it is released, once. -/
  acquired : Acquired made n → c.acquisition = .given ∧
    (c.releaseState = .opened ∧ c.releases = [] ∧ ¬Closed made n ∨
      c.releaseState ≠ .opened ∧
        ∃ destroy, c.releases = [destroy] ∧ (destroy = false → CommittedAndReset made n))
  /-- Given too late, or not at all. -/
  lost : Asked made n → ¬Acquired made n →
    c.acquisition = .given ∧ c.releases = [true] ∨ c.acquisition ≠ .given ∧ c.releases = []

section Kept

variable {made : List (Made Op (Ans W))} {n : ℕ} {c c' : Client}

theorem Kept.unclosed (h : Kept made n c) (hacquired : Acquired made n)
    (hopen : c.releaseState = .opened) : c.releases = [] ∧ ¬Closed made n := by
  rcases (h.acquired hacquired).2 with ⟨-, hheld⟩ | ⟨hstate, -⟩
  · exact hheld
  · exact absurd hopen hstate

theorem Client.Released.acquisition {destroy : Bool} (h : Client.Released destroy c c') :
    c'.acquisition = c.acquisition := by
  cases h <;> rfl

/-- After `terminalRelease` the connection is not open. -/
theorem Client.Released.not_opened {destroy : Bool} (h : Client.Released destroy c c') :
    c'.releaseState ≠ .opened := by
  rcases h with hstate | hopen | ⟨e, hopen⟩
  · exact hstate
  · cases destroy <;> simp
  · simp

/-- `terminalRelease(destroy)`, by the attempt or by the abort. -/
theorem Kept.released {destroy : Bool} (h : Kept made n c) (hacquired : Acquired made n)
    (hreset : destroy = false → CommittedAndReset made n)
    (hreleased : Client.Released destroy c c') : Kept made n c' where
  unasked := fun hasked => absurd ⟨_, hacquired⟩ hasked
  acquired := fun _ => by
    refine ⟨hreleased.acquisition.trans (h.acquired hacquired).1, Or.inr ⟨hreleased.not_opened, ?_⟩⟩
    rcases hreleased with hstate | hopen | ⟨e, hopen⟩
    · rcases (h.acquired hacquired).2 with ⟨hopen, -⟩ | ⟨-, hone⟩
      · exact absurd hopen hstate
      · exact hone
    · exact ⟨destroy, by rw [(h.unclosed hacquired hopen).1]; rfl, hreset⟩
    · exact ⟨destroy, by rw [(h.unclosed hacquired hopen).1]; rfl, hreset⟩
  lost := fun _ hnot => absurd hacquired hnot

/-- Another operation; if it closes the connection, that is not open. -/
theorem Kept.snoc (h : Kept made n c) {o : Op} {x : Ans W o} (ho : ∀ m, o ≠ .acquire m)
    (hclosed : Closed (made ++ [⟨o, x⟩]) n → Closed made n ∨ c.releaseState ≠ .opened) :
    Kept (made ++ [⟨o, x⟩]) n c := by
  have hgrows : Grows made (made ++ [⟨o, x⟩]) := (Grows.refl made).snoc x ho
  constructor
  · intro hasked
    obtain ⟨rfl, hnot⟩ := h.unasked fun hbefore => hasked (hgrows.asked.mpr hbefore)
    refine ⟨rfl, fun hnow => ?_⟩
    rcases hclosed hnow with hbefore | hstate
    · exact hnot hbefore
    · exact hstate rfl
  · intro hacquired
    obtain ⟨hgiven, hheld⟩ := h.acquired (hgrows.acquired.mp hacquired)
    refine ⟨hgiven, ?_⟩
    rcases hheld with ⟨hopen, hnone, hnot⟩ | ⟨hstate, destroy, hone, hreset⟩
    · refine Or.inl ⟨hopen, hnone, fun hnow => ?_⟩
      rcases hclosed hnow with hbefore | hstate
      · exact hnot hbefore
      · exact hstate hopen
    · exact Or.inr ⟨hstate, destroy, hone, fun hfalse => hgrows.committedAndReset (hreset hfalse)⟩
  · exact fun hasked hnot => h.lost (hgrows.asked.mp hasked) fun hbefore =>
      hnot (hgrows.acquired.mpr hbefore)

/-- Operations that close nothing. -/
def Idle (n : ℕ) (o : Op) : Prop :=
  (∀ destroy, o ≠ .terminalRelease n destroy) ∧ o ≠ .releaseState n

theorem Idle.closed {o : Op} {x : Ans W o} (h : Idle n o) (hclosed : Closed (made ++ [⟨o, x⟩]) n) :
    Closed made n := by
  rcases hclosed with ⟨destroy, hmem⟩ | ⟨state, hstate, hmem⟩
  · rcases List.mem_append.mp hmem with hmem | hmem
    · exact Or.inl ⟨destroy, hmem⟩
    · exact absurd (congrArg Sigma.fst (List.mem_singleton.mp hmem)).symm (h.1 destroy)
  · rcases List.mem_append.mp hmem with hmem | hmem
    · exact Or.inr ⟨state, hstate, hmem⟩
    · exact absurd (congrArg Sigma.fst (List.mem_singleton.mp hmem)).symm h.2

theorem Kept.idle (h : Kept made n c) {o : Op} {x : Ans W o} (ho : ∀ m, o ≠ .acquire m)
    (hidle : Idle n o) : Kept (made ++ [⟨o, x⟩]) n c :=
  h.snoc ho fun hclosed => Or.inl (hidle.closed hclosed)

/-- The request of another attempt. -/
theorem Kept.acquire_of_ne {m : ℕ} {x : Except WorkError Unit} (h : Kept made n c) (hne : n ≠ m) :
    Kept (made ++ [⟨.acquire m, x⟩]) n c := by
  have hasked : Asked (made ++ [⟨.acquire m, x⟩]) n ↔ Asked made n :=
    asked_acquire.trans (or_iff_left hne)
  have hacquired : Acquired (made ++ [⟨.acquire m, x⟩]) n ↔ Acquired made n :=
    acquired_acquire.trans (or_iff_left fun hsame => hne hsame.1)
  have hidle : Idle n (.acquire m) := ⟨by simp, by simp⟩
  constructor
  · intro hnot
    obtain ⟨hclient, hopen⟩ := h.unasked fun hbefore => hnot (hasked.mpr hbefore)
    exact ⟨hclient, fun hnow => hopen (hidle.closed hnow)⟩
  · intro hheld
    obtain ⟨hgiven, hheld⟩ := h.acquired (hacquired.mp hheld)
    refine ⟨hgiven, hheld.imp ?_ ?_⟩
    · exact fun ⟨hopen, hnone, hnot⟩ => ⟨hopen, hnone, fun hnow => hnot (hidle.closed hnow)⟩
    · rintro ⟨hstate, destroy, hone, hreset⟩
      refine ⟨hstate, destroy, hone, fun hfalse => ?_⟩
      obtain ⟨⟨r, htag, hmem⟩, r', htag', hmem'⟩ := hreset hfalse
      exact ⟨⟨r, htag, List.mem_append_left _ hmem⟩, r', htag', List.mem_append_left _ hmem'⟩
  · exact fun hnow hnot => h.lost (hasked.mp hnow) fun hbefore => hnot (hacquired.mpr hbefore)

/-- The attempt is given a connection. -/
theorem kept_given {u : Unit} (hclosed : ¬Closed made n) :
    Kept (made ++ [⟨.acquire n, .ok u⟩]) n ⟨.given, .opened, none, []⟩ where
  unasked := fun hnot => absurd (asked_acquire.mpr (Or.inr rfl)) hnot
  acquired := fun _ => ⟨rfl, Or.inl ⟨rfl, rfl, fun hnow =>
    hclosed (Idle.closed ⟨by simp, by simp⟩ hnow)⟩⟩
  lost := fun _ hnot => absurd (acquired_acquire.mpr (Or.inr ⟨rfl, rfl⟩)) hnot

/-- The attempt is given none, at least not in time. -/
theorem kept_lost {e : WorkError} (hbefore : ¬Asked made n) (hgiven : c.acquisition ≠ .given)
    (hnone : c.releases = []) : Kept (made ++ [⟨.acquire n, .error e⟩]) n c where
  unasked := fun hnot => absurd (asked_acquire.mpr (Or.inr rfl)) hnot
  acquired := fun hheld => by
    rcases acquired_acquire.mp hheld with hheld | ⟨-, hok⟩
    · exact absurd ⟨_, hheld⟩ hbefore
    · cases hok
  lost := fun _ _ => Or.inr ⟨hgiven, hnone⟩

end Kept

/-! ## All connections -/

/-- Every connection agrees with what was done, and only an attempt with a connection listens. -/
structure Custody (made : List (Made Op (Ans W))) (s : World) : Prop where
  kept : ∀ n, Kept made n (s.clients n)
  listening : ∀ n, s.listening = some n → Acquired made n

section Custody

variable {made : List (Made Op (Ans W))} {s t : World}

theorem custody_setClient (h : Custody made s) {n : ℕ} {c : Client} (hc : Kept made n c) :
    Custody made (s.setClient n c) where
  kept := fun m => by
    show Kept made m (Function.update s.clients n c m)
    by_cases hm : m = n
    · subst hm
      rw [Function.update_self]
      exact hc
    · rw [Function.update_of_ne hm]
      exact h.kept m
  listening := h.listening

/-- An abort releases the connection of whoever listens. -/
theorem Custody.abort {reason : AbortReason} (h : Custody made s)
    (habort : World.Abort reason s t) : Custody made t := by
  cases habort with
  | unheard hnone => exact ⟨h.kept, h.listening⟩
  | heard n client hn hreleased =>
      have haborted : Custody made { s with aborted := some reason } := ⟨h.kept, h.listening⟩
      exact custody_setClient haborted
        ((h.kept n).released (h.listening n hn) (fun hfalse => by cases hfalse) hreleased)

theorem Custody.happens (h : Custody made s) (hhappens : Happens s t) : Custody made t := by
  cases hhappens with
  | abort reason hnone habort => exact h.abort habort
  | decide n status hcommitting hdecided => exact ⟨h.kept, h.listening⟩
  | lose n hrunning => exact ⟨h.kept, h.listening⟩
  | lateClient n hlate =>
      refine custody_setClient h ⟨fun hnot => ?_, fun hheld => ?_, fun hasked hnot => ?_⟩
      · rw [((h.kept n).unasked hnot).1] at hlate
        cases hlate
      · rw [((h.kept n).acquired hheld).1] at hlate
        cases hlate
      · rcases (h.kept n).lost hasked hnot with ⟨hgiven, -⟩ | ⟨-, hnone⟩
        · rw [hgiven] at hlate
          cases hlate
        · exact Or.inl ⟨rfl, by rw [hnone]; rfl⟩
  | lateFailure n hlate =>
      refine custody_setClient h ⟨fun hnot => ?_, fun hheld => ?_, fun hasked hnot => ?_⟩
      · rw [((h.kept n).unasked hnot).1] at hlate
        cases hlate
      · rw [((h.kept n).acquired hheld).1] at hlate
        cases hlate
      · rcases (h.kept n).lost hasked hnot with ⟨hgiven, -⟩ | ⟨-, hnone⟩
        · rw [hgiven] at hlate
          cases hlate
        · exact Or.inr ⟨by simp, hnone⟩

/-- An operation that closes nothing and leaves the connections as they are. -/
theorem Custody.idle (h : Custody made s) {o : Op} {x : Ans W o} (ho : ∀ m, o ≠ .acquire m)
    (hidle : ∀ n, Idle n o) (hclients : t.clients = s.clients)
    (hlistening : ∀ n, t.listening = some n → Acquired made n) :
    Custody (made ++ [⟨o, x⟩]) t where
  kept := fun n => by
    rw [hclients]
    exact (h.kept n).idle ho (hidle n)
  listening := fun n hn => List.mem_append_left _ (hlistening n hn)

/-- Another attempt has asked for a connection. -/
theorem Custody.acquire (h : Custody made s) {n : ℕ} {x : Except WorkError Unit} {c : Client}
    (hc : Kept (made ++ [⟨.acquire n, x⟩]) n c) :
    Custody (made ++ [⟨.acquire n, x⟩]) (s.setClient n c) where
  kept := fun m => by
    show Kept _ m (Function.update s.clients n c m)
    by_cases hm : m = n
    · subst hm
      rw [Function.update_self]
      exact hc
    · rw [Function.update_of_ne hm]
      exact (h.kept m).acquire_of_ne hm
  listening := fun m hm => List.mem_append_left _ (h.listening m hm)

/-- **Every operation that is allowed keeps the connections in custody.** -/
theorem Custody.exec (h : Custody made s) {o : Op} {x : Ans W o} (hallowed : Allowed made o)
    (hexec : Exec W s o x t) : Custody (made ++ [⟨o, x⟩]) t := by
  cases hexec with
  | signal => exact h.idle (by simp) (fun _ => ⟨by simp, by simp⟩) rfl h.listening
  | acquired n => exact h.acquire (kept_given ((h.kept n).unasked hallowed.1).2)
  | acquireFailed n e => exact h.acquire (kept_lost hallowed.1 (by simp) rfl)
  | acquireTimedOut n => exact h.acquire (kept_lost hallowed.1 (by simp) rfl)
  | acquireAborted n reason hnone habort =>
      exact (h.acquire (kept_lost hallowed.1 (by simp) rfl)).abort habort
  | listen n =>
      refine h.idle (by simp) (fun _ => ⟨by simp, by simp⟩) rfl fun m hm => ?_
      cases hm
      exact hallowed
  | unlisten n =>
      exact h.idle (by simp) (fun _ => ⟨by simp, by simp⟩) rfl fun m hm => by cases hm
  | notSent n statement reason haborted =>
      exact h.idle (by simp) (fun _ => ⟨by simp, by simp⟩) rfl h.listening
  | replied n statement status result hnone hserves hhonest =>
      exact h.idle (by simp) (fun _ => ⟨by simp, by simp⟩) rfl h.listening
  | errored n statement status e hnone hserves =>
      exact h.idle (by simp) (fun _ => ⟨by simp, by simp⟩) rfl h.listening
  | cut n statement status reason hnone hserves habort =>
      have hsent : Custody (made ++ [⟨.query n statement, .aborted reason⟩])
          (s.setStatus n status) :=
        h.idle (by simp) (fun _ => ⟨by simp, by simp⟩) rfl h.listening
      exact hsent.abort habort
  | outside w hnone => exact h.idle (by simp) (fun _ => ⟨by simp, by simp⟩) rfl h.listening
  | outsideFailed e hnone => exact h.idle (by simp) (fun _ => ⟨by simp, by simp⟩) rfl h.listening
  | outsideAborted reason haborted =>
      exact h.idle (by simp) (fun _ => ⟨by simp, by simp⟩) rfl h.listening
  | boundedRollback n ms status hstatus =>
      exact h.idle (by simp) (fun _ => ⟨by simp, by simp⟩) rfl h.listening
  | terminalRelease n destroy client hreleased =>
      have hclient := (h.kept n).released hallowed.1 hallowed.2 hreleased
      have hclients : ∀ m, (s.setClient n client).clients m =
          if m = n then client else s.clients m := fun m =>
        Function.update_apply s.clients n client m
      refine ⟨fun m => ?_, fun m hm => List.mem_append_left _ (h.listening m hm)⟩
      rw [hclients]
      split
      · next hm =>
          subst hm
          exact hclient.snoc (by simp) fun _ => Or.inr hreleased.not_opened
      · next hm =>
          exact (h.kept m).idle (by simp)
            ⟨fun d heq => hm (Op.terminalRelease.inj heq).1.symm, by simp⟩
  | releaseState n =>
      refine ⟨fun m => (h.kept m).snoc (by simp) ?_,
        fun m hm => List.mem_append_left _ (h.listening m hm)⟩
      rintro (⟨destroy, hmem⟩ | ⟨state, hstate, hmem⟩)
      · rcases List.mem_append.mp hmem with hmem | hmem
        · exact Or.inl (Or.inl ⟨destroy, hmem⟩)
        · exact absurd (congrArg Sigma.fst (List.mem_singleton.mp hmem)) (by simp)
      · rcases List.mem_append.mp hmem with hmem | hmem
        · exact Or.inl (Or.inr ⟨state, hstate, hmem⟩)
        · cases List.mem_singleton.mp hmem
          exact Or.inr hstate
  | disposalError n => exact h.idle (by simp) (fun _ => ⟨by simp, by simp⟩) rfl h.listening
  | slept ms hnone => exact h.idle (by simp) (fun _ => ⟨by simp, by simp⟩) rfl h.listening
  | sleepAborted ms reason haborted =>
      exact h.idle (by simp) (fun _ => ⟨by simp, by simp⟩) rfl h.listening

end Custody

/-! ## Runs -/

section Runs

variable {db : NodePostgresTransactor} {initialLocks : Option (List InitialExclusiveLock)}
variable {fn : Callback W α}

/-- What the call has done. -/
abbrev history (cfg : Running W α) : List (Made Op (Ans W)) :=
  ownTrace () cfg.log

theorem obeys_of_reachable {cfg : Running W α}
    (h : Reachable (transactionSystem db initialLocks fn) cfg) {q : Tx W TxError α}
    (hq : cfg.calls () = some ⟨(), q⟩) :
    q.Obeys Allowed (fun made _ => AllClosed made) (fun made _ => AllClosed made) (history cfg) :=
  Service.obeys_of_reachable (S := transactionService db initialLocks fn)
    (obeys_runTransaction db initialLocks fn) h hq

theorem custody_of_reachable {cfg : Running W α}
    (h : Reachable (transactionSystem db initialLocks fn) cfg) :
    Custody (history cfg) cfg.shared := by
  refine Reachable.invariant (I := fun cfg : Running W α => Custody (history cfg) cfg.shared) ?_ ?_ h
  · rintro cfg ⟨⟨hlistening, -, hclients⟩, -, hlog⟩
    have hnone : history cfg = [] := by
      rw [history, hlog]
      rfl
    rw [hnone]
    refine ⟨fun n => ?_, fun n hn => ?_⟩
    · rw [hclients]
      refine ⟨fun _ => ⟨rfl, ?_⟩, fun hacquired => ?_, fun ⟨x, hx⟩ => ?_⟩
      · rintro (⟨destroy, hmem⟩ | ⟨state, -, hmem⟩)
        · cases hmem
        · cases hmem
      · cases hacquired
      · cases hx
    · rw [hlistening] at hn
      cases hn
  · rintro cfg cfg' hreach hcustody hstep
    cases hstep with
    | start i r hadm hi => exact hcustody
    | env t henv => exact hcustody.happens henv
    | exec i r o k x t hi hexec =>
        have hallowed : Allowed (history cfg) o := (obeys_of_reachable hreach hi).1
        have hnext := hcustody.exec hallowed hexec
        show Custody (ownTrace () (cfg.log ++ [⟨i, ⟨o, x⟩, cfg.shared⟩])) t
        rw [ownTrace_append, ownTrace_singleton, if_pos rfl]
        exact hnext

/-- Between two attempts: the transaction is over, or about to ask for another connection. -/
def AtRest (cfg : Running W α) : Prop :=
  (∃ a, cfg.calls () = some ⟨(), .ret a⟩) ∨ (∃ e, cfg.calls () = some ⟨(), .fail e⟩) ∨
    ∃ n k, cfg.calls () = some ⟨(), .await (.acquire n) k⟩

theorem allClosed_of_atRest {cfg : Running W α}
    (h : Reachable (transactionSystem db initialLocks fn) cfg) (hrest : AtRest cfg) :
    AllClosed (history cfg) := by
  rcases hrest with ⟨a, ha⟩ | ⟨e, he⟩ | ⟨n, k, hk⟩
  · exact obeys_of_reachable h ha
  · exact obeys_of_reachable h he
  · exact (obeys_of_reachable h hk).1.2

/-- **Connections are released exactly once.** At every moment a connection was released at most
    once, and only where the pool has delivered it. Between two attempts and at the end each
    delivered connection was released, one that came too late at once. None is handed back as good
    unless its attempt has committed and has reset the session. -/
theorem released_once {cfg : Running W α}
    (h : Reachable (transactionSystem db initialLocks fn) cfg) (n : ℕ) :
    (cfg.shared.clients n).releases.length ≤ 1 ∧
      ((cfg.shared.clients n).acquisition ≠ .given → (cfg.shared.clients n).releases = []) ∧
      ((cfg.shared.clients n).acquisition = .given → AtRest cfg ∨ ¬Acquired (history cfg) n →
        (cfg.shared.clients n).releases.length = 1) ∧
      ∀ destroy ∈ (cfg.shared.clients n).releases,
        ¬CommittedAndReset (history cfg) n → destroy = true := by
  have hkept := (custody_of_reachable h).kept n
  have hrest := allClosed_of_atRest h
  generalize cfg.shared.clients n = c at hkept ⊢
  by_cases hasked : Asked (history cfg) n
  · by_cases hacquired : Acquired (history cfg) n
    · obtain ⟨hgiven, hheld⟩ := hkept.acquired hacquired
      rcases hheld with ⟨-, hnone, hopen⟩ | ⟨-, destroy, hone, hreset⟩
      · rw [hnone]
        refine ⟨Nat.zero_le 1, fun hnot => absurd hgiven hnot, fun _ hover => ?_, by simp⟩
        rcases hover with hover | hnot
        · exact absurd (hrest hover n hacquired) hopen
        · exact absurd hacquired hnot
      · rw [hone]
        refine ⟨Nat.le_refl 1, fun hnot => absurd hgiven hnot, fun _ _ => rfl, ?_⟩
        intro released hreleased hnot
        obtain rfl := List.mem_singleton.mp hreleased
        exact Bool.eq_true_of_not_eq_false fun hfalse => hnot (hreset hfalse)
    · rcases hkept.lost hasked hacquired with ⟨hgiven, hone⟩ | ⟨hgiven, hnone⟩
      · rw [hone]
        exact ⟨Nat.le_refl 1, fun hnot => absurd hgiven hnot, fun _ _ => rfl,
          fun destroy hmem _ => List.mem_singleton.mp hmem⟩
      · rw [hnone]
        exact ⟨Nat.zero_le 1, fun _ => rfl, fun hnow => absurd hnow hgiven, by simp⟩
  · obtain ⟨rfl, -⟩ := hkept.unasked hasked
    exact ⟨Nat.zero_le 1, fun _ => rfl, fun hnow => (by cases hnow), by simp⟩

end Runs

theorem released_once_sample :
    ((sampleEnd sampleCallback).shared.clients 0).releases.length = 1 :=
  (released_once (reaches_sampleEnd sampleCallback) 0).2.2.1 rfl (Or.inl (Or.inl ⟨7, rfl⟩))

end Postgres
