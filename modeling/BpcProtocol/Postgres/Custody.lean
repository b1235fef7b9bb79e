import BpcProtocol.Postgres.Outcome

set_option autoImplicit false

/-! # Connections are released once

What an attempt may do with its connection follows from what has been done before: it is handed back
to the pool as good only after a confirmed `COMMIT` and a confirmed `DISCARD ALL`, and no other
connection is asked for, nor is the transaction over, while one is still held. The connections
themselves agree with what was done: each that the pool has delivered is released once. -/

namespace Postgres

open Async Transition

variable {W α β ε : Type}

/-! ## What has been done -/

section History

variable (made : List (Made Op (Ans W))) (n : ℕ)

/-- The attempt has asked for a connection. -/
def Asked : Prop :=
  ∃ x, (⟨.acquire n, x⟩ : Made Op (Ans W)) ∈ made

/-- The attempt was given one in time. -/
def Acquired : Prop :=
  (⟨.acquire n, .ok ()⟩ : Made Op (Ans W)) ∈ made

/-- The attempt has released its connection, or has seen that it is released. -/
def Closed : Prop :=
  (∃ destroy, (⟨.terminalRelease n destroy, ()⟩ : Made Op (Ans W)) ∈ made) ∨
    ∃ state, state ≠ ReleaseState.opened ∧ (⟨.releaseState n, state⟩ : Made Op (Ans W)) ∈ made

/-- The reply to a statement of the attempt had this tag. -/
def Replied (statement : Statement) (tag : String) : Prop :=
  ∃ result : NodePostgresResult, result.Tagged tag ∧
    (⟨.query n statement, .value result⟩ : Made Op (Ans W)) ∈ made

/-- The attempt has committed and has reset its session. -/
def CommittedAndReset : Prop :=
  Replied made n .commit "COMMIT" ∧ Replied made n .discardAll "DISCARD"

end History

/-- What may be done after `made`. -/
def Allowed (made : List (Made Op (Ans W))) : Op → Prop
  | .acquire n => ¬Asked made n ∧ ∀ m, Acquired made m → Closed made m
  | .listen n => Acquired made n
  | .terminalRelease n destroy => Acquired made n ∧ (destroy = false → CommittedAndReset made n)
  | _ => True

/-- What is always allowed. -/
def Free : Op → Prop
  | .acquire _ | .listen _ | .terminalRelease _ _ => False
  | _ => True

theorem allowed_of_free (made : List (Made Op (Ans W))) (o : Op) (h : Free o) : Allowed made o := by
  cases o with
  | acquire n => exact h.elim
  | listen n => exact h.elim
  | terminalRelease n destroy => exact h.elim
  | _ => trivial

/-- More has been done, and no connection was asked for. -/
def Grows (made made' : List (Made Op (Ans W))) : Prop :=
  ∃ es, made' = made ++ es ∧ ∀ e ∈ es, ∀ n, e.1 ≠ .acquire n

section Grows

variable {made made' made'' : List (Made Op (Ans W))} {n : ℕ}

theorem Grows.refl (made : List (Made Op (Ans W))) : Grows made made :=
  ⟨[], (List.append_nil made).symm, fun e he => by cases he⟩

theorem Grows.snoc (h : Grows made made') {o : Op} (x : Ans W o) (ho : ∀ n, o ≠ .acquire n) :
    Grows made (made' ++ [⟨o, x⟩]) := by
  obtain ⟨es, rfl, hes⟩ := h
  refine ⟨es ++ [⟨o, x⟩], List.append_assoc _ _ _, fun e he => ?_⟩
  rcases List.mem_append.mp he with he | he
  · exact hes e he
  · rw [List.mem_singleton.mp he]
    exact ho

theorem Grows.trans (h : Grows made made') (h' : Grows made' made'') : Grows made made'' := by
  obtain ⟨es, rfl, hes⟩ := h
  obtain ⟨es', rfl, hes'⟩ := h'
  refine ⟨es ++ es', List.append_assoc _ _ _, fun e he => ?_⟩
  rcases List.mem_append.mp he with he | he
  · exact hes e he
  · exact hes' e he

theorem Grows.append (h : Grows made made') {es : List (Made Op (Ans W))}
    (hes : ∀ e ∈ es, Free e.1) : Grows made (made' ++ es) := by
  obtain ⟨es', rfl, hes'⟩ := h
  refine ⟨es' ++ es, List.append_assoc _ _ _, fun e he n heq => ?_⟩
  rcases List.mem_append.mp he with he | he
  · exact hes' e he n heq
  · have hfree := hes e he
    rw [heq] at hfree
    exact hfree

theorem Grows.mem (h : Grows made made') {e : Made Op (Ans W)} (he : e ∈ made) : e ∈ made' := by
  obtain ⟨es, rfl, -⟩ := h
  exact List.mem_append_left es he

theorem Grows.asked (h : Grows made made') : Asked made' n ↔ Asked made n := by
  obtain ⟨es, rfl, hes⟩ := h
  refine ⟨fun ⟨x, hx⟩ => ?_, fun ⟨x, hx⟩ => ⟨x, List.mem_append_left es hx⟩⟩
  rcases List.mem_append.mp hx with hx | hx
  · exact ⟨x, hx⟩
  · exact absurd rfl (hes _ hx n)

theorem Grows.acquired (h : Grows made made') : Acquired made' n ↔ Acquired made n := by
  obtain ⟨es, rfl, hes⟩ := h
  refine ⟨fun hx => ?_, fun hx => List.mem_append_left es hx⟩
  rcases List.mem_append.mp hx with hx | hx
  · exact hx
  · exact absurd rfl (hes _ hx n)

theorem Grows.closed (h : Grows made made') (hclosed : Closed made n) : Closed made' n := by
  rcases hclosed with ⟨destroy, hmem⟩ | ⟨state, hstate, hmem⟩
  · exact Or.inl ⟨destroy, h.mem hmem⟩
  · exact Or.inr ⟨state, hstate, h.mem hmem⟩

theorem Grows.replied (h : Grows made made') {statement : Statement} {tag : String}
    (hreplied : Replied made n statement tag) : Replied made' n statement tag := by
  obtain ⟨result, htag, hmem⟩ := hreplied
  exact ⟨result, htag, h.mem hmem⟩

theorem Grows.committedAndReset (h : Grows made made') (hreset : CommittedAndReset made n) :
    CommittedAndReset made' n :=
  ⟨h.replied hreset.1, h.replied hreset.2⟩

end Grows

/-! ## What the program does -/

section Attempt

variable {start made : List (Made Op (Ans W))} {n : ℕ}

/-- A part that does only what is always allowed. -/
theorem obeys_free {p : Tx W ε α} (h : p.Uses Free) (hgrows : Grows start made) :
    p.Obeys Allowed (fun made _ => Grows start made) (fun made _ => Grows start made) made :=
  Prog.Obeys.of_uses allowed_of_free h (fun _ hes _ => hgrows.append hes)
    fun _ hes _ => hgrows.append hes

theorem free_statement (n : ℕ) (statement : Statement) (_ : statement ≠ .commit) :
    Free (.query n statement) :=
  trivial

/-- The connection is released, and nothing else is done. -/
theorem obeys_terminalRelease {post : List (Made Op (Ans W)) → Unit → Prop}
    {throws : List (Made Op (Ans W)) → ε → Prop} {destroy : Bool}
    (hacquired : Acquired made n) (hreset : destroy = false → CommittedAndReset made n)
    (hgrows : Grows start made)
    (hpost : ∀ made, Grows start made → Closed made n → post made ()) :
    (terminalRelease n destroy : Tx W ε Unit).Obeys Allowed post throws made := by
  refine ⟨⟨hacquired, hreset⟩, fun x => hpost _ (hgrows.snoc x (by simp)) (Or.inl ⟨destroy, ?_⟩)⟩
  exact List.mem_append_right _ (List.mem_singleton.mpr rfl)

/-- `if (releaseState === 'open') destroy()`: the connection is released behind it. -/
theorem obeys_destroyIfOpen {throws : List (Made Op (Ans W)) → ε → Prop}
    (hacquired : Acquired made n) (hgrows : Grows start made) :
    (destroyIfOpen n : Tx W ε Unit).Obeys Allowed (fun made _ => Grows start made ∧ Closed made n)
      throws made := by
  refine Prog.Obeys.bind ⟨trivial, fun state => ?_⟩
  have hnext : Grows made (made ++ [⟨.releaseState n, state⟩]) :=
    (Grows.refl made).snoc (o := .releaseState n) state (by simp)
  have hgrows' : Grows start (made ++ [⟨.releaseState n, state⟩]) :=
    hgrows.snoc (o := .releaseState n) state (by simp)
  show (if state = .opened then _ else _ : Tx W ε Unit).Obeys _ _ _ _
  split
  · exact obeys_terminalRelease (hnext.acquired.mpr hacquired) (by simp) hgrows'
      fun made hmade hclosed => ⟨hmade, hclosed⟩
  · next hstate =>
      exact ⟨hgrows', Or.inr ⟨state, hstate, List.mem_append_right _ (List.mem_singleton.mpr rfl)⟩⟩

/-- Behind a confirmed `COMMIT`, the connection is handed back after a confirmed `DISCARD ALL`. -/
theorem obeys_afterCommit (hacquired : Acquired made n) (hcommit : Replied made n .commit "COMMIT")
    (hgrows : Grows start made) (result : α) :
    (afterCommit n result : Tx W Failure α).Obeys Allowed (fun made _ => Grows start made)
      (fun made _ => Grows start made) made := by
  refine Prog.Obeys.bind (Prog.Obeys.rescue ⟨trivial, fun x => ?_⟩)
  have hnext : Grows made (made ++ [⟨.query n .discardAll, x⟩]) :=
    (Grows.refl made).snoc (o := .query n .discardAll) x (by simp)
  have hgrows' : Grows start (made ++ [⟨.query n .discardAll, x⟩]) :=
    hgrows.snoc (o := .query n .discardAll) x (by simp)
  have hacquired' := hnext.acquired.mpr hacquired
  cases x with
  | error e =>
      exact Prog.Obeys.bind (obeys_terminalRelease hacquired' (by simp) hgrows'
        fun made hmade _ => hmade)
  | aborted reason =>
      exact Prog.Obeys.bind (obeys_terminalRelease hacquired' (by simp) hgrows'
        fun made hmade _ => hmade)
  | value discarded =>
      show (if discarded.Tagged "DISCARD" then _ else _ : Tx W Failure α).Obeys _ _ _ _
      split
      · next htag =>
          have hreset : CommittedAndReset (made ++ [⟨.query n .discardAll, .value discarded⟩]) n :=
            ⟨hnext.replied hcommit,
              discarded, htag, List.mem_append_right _ (List.mem_singleton.mpr rfl)⟩
          refine Prog.Obeys.bind (Prog.Obeys.bind (obeys_terminalRelease hacquired'
            (fun _ => hreset) hgrows' fun made hmade _ => ?_))
          refine Prog.Obeys.bind ⟨trivial, fun state => ?_⟩
          have hseen := hmade.snoc (o := .releaseState n) state (by simp)
          show (if state = .failed then _ else _ : Tx W Failure Unit).Obeys _ _ _ _
          split
          · exact Prog.Obeys.bind ⟨trivial, fun e =>
              hseen.snoc (o := .disposalError n) e (by simp)⟩
          · exact hseen
      · exact Prog.Obeys.bind (obeys_terminalRelease hacquired' (by simp) hgrows'
          fun made hmade _ => hmade)

theorem obeys_before {p : Tx W WorkError β} {post : List (Made Op (Ans W)) → β → Prop}
    (h : p.Uses Free) (hgrows : Grows start made)
    (hpost : ∀ made, Grows start made → ∀ b, post made b) :
    (p.rescue fun e => .fail (.before e)).Obeys Allowed post
      (fun made (_ : Failure) => Grows start made) made :=
  Prog.Obeys.rescue ((obeys_free h hgrows).mono (fun made b hmade => hpost made hmade b)
    fun _ _ hmade => hmade)

/-- The `try`. -/
theorem obeys_work (db : NodePostgresTransactor) (initialLocks : Option (List InitialExclusiveLock))
    (fn : Callback W α) (hacquired : Acquired start n) :
    (work db n initialLocks fn).Obeys Allowed (fun made _ => Grows start made)
      (fun made _ => Grows start made) start := by
  have hopen : (openTransaction db n initialLocks : Tx W WorkError JsString).Uses Free :=
    uses_openTransaction db initialLocks (free_statement n)
  have hrace : (abortRace n fn).Uses Free := uses_abortRace fn (free_statement n) trivial trivial
  refine Prog.Obeys.bind (obeys_before hopen (.refl start) fun made hmade txid => ?_)
  refine Prog.Obeys.bind (obeys_before hrace hmade fun made hmade result => ?_)
  refine Prog.Obeys.bind (obeys_before (uses_query (free_statement n .txidCurrent (by simp))) hmade
    fun made hmade continuity => ?_)
  split
  · refine Prog.Obeys.bind (Prog.Obeys.rescue ⟨trivial, fun x => ?_⟩)
    have hgrows : Grows start (made ++ [⟨.query n .commit, x⟩]) :=
      hmade.snoc (o := .query n .commit) x (by simp)
    cases x with
    | error e => exact hgrows
    | aborted reason => exact hgrows
    | value commit =>
        show (if commit.Tagged "COMMIT" then _ else _ : Tx W Failure α).Obeys _ _ _ _
        split
        · next htag =>
            exact obeys_afterCommit (hgrows.acquired.mpr hacquired)
              ⟨commit, htag, List.mem_append_right _ (List.mem_singleton.mpr rfl)⟩ hgrows result
        · exact hgrows
  · exact hmade

/-- The `catch`. -/
theorem obeys_handleFailure (db : NodePostgresTransactor) (failure : Failure)
    (hacquired : Acquired start n) (hgrows : Grows start made) :
    (handleFailure db n failure : Tx W TxError α).Obeys Allowed (fun made _ => Grows start made)
      (fun made _ => Grows start made) made := by
  have hrollback : (if failure.committed = false ∧ failure.commitDispatched = false then
      rollbackIfOpen db n else pure () : Tx W TxError Unit).Uses Free := by
    split
    · refine ⟨trivial, fun state => ?_⟩
      show (if state = .opened then _ else _ : Tx W TxError Unit).Uses Free
      split
      · exact ⟨trivial, fun _ => trivial⟩
      · trivial
    · trivial
  refine Prog.Obeys.bind ((obeys_free hrollback hgrows).mono (fun made _ hmade => ?_)
    fun _ _ hmade => hmade)
  refine Prog.Obeys.bind ((obeys_destroyIfOpen (hmade.acquired.mpr hacquired) hmade).mono
    (fun made _ hmade => ?_) fun _ _ hmade => hmade)
  refine Prog.Obeys.bind ⟨trivial, fun disposalError => ?_⟩
  have hend := hmade.1.snoc (o := .disposalError n) disposalError (by simp)
  show (if failure.commitDispatched = true ∧ _ then _ else _ : Tx W TxError α).Obeys _ _ _ _
  split
  · exact hend
  · split
    · cases disposalError with
      | none => exact hend
      | some e => exact hend
    · exact hend

/-- The `finally`: behind it the connection is released. -/
theorem obeys_cleanUp {throws : List (Made Op (Ans W)) → TxError → Prop}
    (hacquired : Acquired start n) (hgrows : Grows start made) :
    (cleanUp n : Tx W TxError Unit).Obeys Allowed (fun made _ => Grows start made ∧ Closed made n)
      throws made := by
  refine Prog.Obeys.bind ⟨trivial, fun x => ?_⟩
  have hnext := hgrows.snoc (o := .unlisten n) x (by simp)
  exact obeys_destroyIfOpen (hnext.acquired.mpr hacquired) hnext

/-- No connection is held, and the attempts from `n` on have asked for none. -/
structure Ready (made : List (Made Op (Ans W))) (n : ℕ) : Prop where
  closed : ∀ m, Acquired made m → Closed made m
  unasked : ∀ m, n ≤ m → ¬Asked made m

theorem Ready.of_grows (h : Ready made n) {made' : List (Made Op (Ans W))} (hgrows : Grows made made') :
    Ready made' n where
  closed := fun m hm => hgrows.closed (h.closed m (hgrows.acquired.mp hm))
  unasked := fun m hm hasked => h.unasked m hm (hgrows.asked.mp hasked)

/-- What the request for a connection changes. -/
theorem asked_acquire {x : Except WorkError Unit} {m : ℕ} :
    Asked (made ++ [⟨.acquire n, x⟩]) m ↔ Asked made m ∨ m = n := by
  constructor
  · rintro ⟨y, hy⟩
    rcases List.mem_append.mp hy with hy | hy
    · exact Or.inl ⟨y, hy⟩
    · cases List.mem_singleton.mp hy
      exact Or.inr rfl
  · rintro (⟨y, hy⟩ | rfl)
    · exact ⟨y, List.mem_append_left _ hy⟩
    · exact ⟨x, List.mem_append_right _ (List.mem_singleton.mpr rfl)⟩

theorem acquired_acquire {x : Except WorkError Unit} {m : ℕ} :
    Acquired (made ++ [⟨.acquire n, x⟩]) m ↔ Acquired made m ∨ m = n ∧ x = .ok () := by
  constructor
  · intro hmem
    rcases List.mem_append.mp hmem with hmem | hmem
    · exact Or.inl hmem
    · cases List.mem_singleton.mp hmem
      exact Or.inr ⟨rfl, rfl⟩
  · rintro (hmem | ⟨rfl, rfl⟩)
    · exact List.mem_append_left _ hmem
    · exact List.mem_append_right _ (List.mem_singleton.mpr rfl)

theorem closed_append {es : List (Made Op (Ans W))} (h : Closed made n) : Closed (made ++ es) n := by
  rcases h with ⟨destroy, hmem⟩ | ⟨state, hstate, hmem⟩
  · exact Or.inl ⟨destroy, List.mem_append_left es hmem⟩
  · exact Or.inr ⟨state, hstate, List.mem_append_left es hmem⟩

/-- **An attempt releases its connection before it is over.** -/
theorem obeys_runOnce (db : NodePostgresTransactor)
    (initialLocks : Option (List InitialExclusiveLock)) (fn : Callback W α) (h : Ready made n) :
    (runOnce db n initialLocks fn).Obeys Allowed (fun made _ => Ready made (n + 1))
      (fun made _ => Ready made (n + 1)) made := by
  refine Prog.Obeys.bind (Prog.Obeys.rescue ⟨⟨h.unasked n (Nat.le_refl n), h.closed⟩, fun x => ?_⟩)
  cases x with
  | error e =>
      refine ⟨fun m hm => ?_, fun m hm hasked => ?_⟩
      · rcases acquired_acquire.mp hm with hm | ⟨-, hok⟩
        · exact closed_append (h.closed m hm)
        · cases hok
      · rcases asked_acquire.mp hasked with hasked | rfl
        · exact h.unasked m (by omega) hasked
        · omega
  | ok u =>
      -- whatever follows, the others are as they were and this one is released
      have hacquired : Acquired (made ++ [⟨.acquire n, .ok u⟩]) n :=
        acquired_acquire.mpr (Or.inr ⟨rfl, rfl⟩)
      have hready : ∀ made', Grows (made ++ [⟨.acquire n, .ok u⟩]) made' ∧ Closed made' n →
          Ready made' (n + 1) := by
        rintro made' ⟨hgrows, hclosed⟩
        refine ⟨fun m hm => ?_, fun m hm hasked => ?_⟩
        · rcases acquired_acquire.mp (hgrows.acquired.mp hm) with hm | ⟨rfl, -⟩
          · exact hgrows.closed (closed_append (h.closed m hm))
          · exact hclosed
        · rcases asked_acquire.mp (hgrows.asked.mp hasked) with hasked | rfl
          · exact h.unasked m (by omega) hasked
          · omega
      refine Prog.Obeys.bind ⟨hacquired, fun x => Prog.Obeys.andFinally ?_⟩
      have hlistens : Grows (made ++ [⟨.acquire n, .ok u⟩])
          (made ++ [⟨.acquire n, .ok u⟩] ++ [⟨.listen n, x⟩]) :=
        (Grows.refl _).snoc (o := .listen n) x (by simp)
      have hheld := hlistens.acquired.mpr hacquired
      refine Prog.Obeys.mono (Prog.Obeys.rescue ((obeys_work db initialLocks fn hheld).mono
        (fun made' _ hmade' => hmade')
        fun made' failure hmade' => obeys_handleFailure db failure hheld hmade')) ?_ ?_
      · exact fun made' _ hmade' => (obeys_cleanUp hheld hmade').mono
          (fun made'' _ hmade'' => hready made'' ⟨hlistens.trans hmade''.1, hmade''.2⟩)
          fun _ _ hend => hend
      · exact fun made' _ hmade' => (obeys_cleanUp hheld hmade').mono
          (fun made'' _ hmade'' => hready made'' ⟨hlistens.trans hmade''.1, hmade''.2⟩)
          fun _ _ hend => hend

end Attempt

/-! ## The loop -/

section Attempts

variable (db : NodePostgresTransactor) (initialLocks : Option (List InitialExclusiveLock))
variable (fn : Callback W α) {made : List (Made Op (Ans W))}

/-- No connection is held. -/
def AllClosed (made : List (Made Op (Ans W))) : Prop :=
  ∀ m, Acquired made m → Closed made m

theorem obeys_retry (attempt : ℕ) {again : Option (Tx W TxError α)}
    (hagain : ∀ p ∈ again, ∀ made, Ready made (attempt + 1) →
      p.Obeys Allowed (fun made _ => AllClosed made) (fun made _ => AllClosed made) made)
    {error : TxError} (h : Ready made (attempt + 1)) :
    (retry db attempt again error).Obeys Allowed (fun made _ => AllClosed made)
      (fun made _ => AllClosed made) made := by
  rw [retry]
  split
  · cases again with
    | none => exact h.closed
    | some again =>
        refine Prog.Obeys.bind ⟨trivial, fun aborted => ?_⟩
        have hread := h.of_grows ((Grows.refl made).snoc (o := .signal) aborted (by simp))
        show (if Option.isSome aborted then _ else _ : Tx W TxError α).Obeys _ _ _ _
        split
        · exact hread.closed
        · refine Prog.Obeys.bind (Prog.Obeys.rescue ⟨trivial, fun x => ?_⟩)
          have hslept := hread.of_grows ((Grows.refl _).snoc (o := .sleep _) x (by simp))
          cases x with
          | value u => exact hagain again rfl _ hslept
          | error e => exact hslept.closed
          | aborted reason => exact hslept.closed
  · exact h.closed

theorem obeys_turn {attempt : ℕ} {again : Option (Tx W TxError α)}
    (hagain : ∀ p ∈ again, ∀ made, Ready made (attempt + 1) →
      p.Obeys Allowed (fun made _ => AllClosed made) (fun made _ => AllClosed made) made)
    (h : Ready made attempt) :
    (turn db initialLocks fn attempt again).Obeys Allowed (fun made _ => AllClosed made)
      (fun made _ => AllClosed made) made := by
  have hthrow : (throwIfAborted : Tx W WorkError Unit).Uses Free := uses_throwIfAborted trivial
  refine Prog.Obeys.bind (Prog.Obeys.rescue ((obeys_free hthrow (.refl made)).mono
    (fun made' _ hmade' => ?_) fun made' _ hmade' => (h.of_grows hmade').closed))
  refine Prog.Obeys.rescue ((obeys_runOnce db initialLocks fn (h.of_grows hmade')).mono ?_ ?_)
  · exact fun made'' _ hready => hready.closed
  · exact fun made'' error hready => obeys_retry db attempt hagain hready

/-- The attempts are numbered from the number of retries already made. -/
theorem obeys_turns {left : ℕ} (hleft : left ≤ db.maxSerializationRetries.1)
    (h : Ready made (db.maxSerializationRetries.1 - left)) :
    (turns db initialLocks fn left).Obeys Allowed (fun made _ => AllClosed made)
      (fun made _ => AllClosed made) made := by
  induction left generalizing made with
  | zero => exact obeys_turn db initialLocks fn (fun p hp => by cases hp) h
  | succ left ih =>
      refine obeys_turn db initialLocks fn (fun p hp made' hready => ?_) h
      obtain rfl := Option.some.inj hp
      refine ih (by omega) ?_
      have hnumber : db.maxSerializationRetries.1 - (left + 1) + 1 =
          db.maxSerializationRetries.1 - left := by omega
      rwa [hnumber] at hready

theorem obeys_runTransaction :
    (runTransaction db initialLocks fn).Obeys Allowed (fun made _ => AllClosed made)
      (fun made _ => AllClosed made) [] := by
  refine obeys_turns db initialLocks fn (Nat.le_refl _) ⟨fun m hm => ?_, fun m _ hasked => ?_⟩
  · cases hm
  · obtain ⟨x, hx⟩ := hasked
    cases hx

end Attempts

end Postgres
