import BpcProtocol.Lib.History

set_option autoImplicit false

/-! # Runs by a schedule

Calls that take turns, every operation answered by a function of the shared state: the run that a
list of turns stands for, which can be computed. -/

namespace Async

variable {ι Req Op σ ε α : Type} {Ans : Op → Type} [DecidableEq ι]

/-- What a program has returned. -/
def Prog.returned : Prog Op Ans ε α → Option α
  | ret a => some a
  | _ => none

theorem Prog.returned_eq_some {p : Prog Op Ans ε α} {a : α} : p.returned = some a ↔ p = .ret a := by
  cases p <;> simp [Prog.returned]

/-- A call starts. -/
def Service.start (S : Service Req Op Ans ε α σ) (cfg : Config ι Req Op Ans ε α σ) (i : ι)
    (r : Req) : Config ι Req Op Ans ε α σ :=
  { cfg with calls := Function.update cfg.calls i (some ⟨r, S.body r⟩) }

theorem Service.start_self (S : Service Req Op Ans ε α σ) (cfg : Config ι Req Op Ans ε α σ) (i : ι)
    (r : Req) : (S.start cfg i r).calls i = some ⟨r, S.body r⟩ :=
  Function.update_self _ _ _

theorem Service.start_of_ne (S : Service Req Op Ans ε α σ) (cfg : Config ι Req Op Ans ε α σ)
    {i j : ι} (r : Req) (h : j ≠ i) : (S.start cfg i r).calls j = cfg.calls j :=
  Function.update_of_ne h _ _

/-- A call makes its next operation, if it has one. -/
def Config.turn (run : σ → (o : Op) → Ans o × σ) (cfg : Config ι Req Op Ans ε α σ) (i : ι) :
    Config ι Req Op Ans ε α σ :=
  match cfg.calls i with
  | some ⟨r, .await o k⟩ =>
      { shared := (run cfg.shared o).2
        calls := Function.update cfg.calls i (some ⟨r, k (run cfg.shared o).1⟩)
        log := cfg.log ++ [⟨i, ⟨o, (run cfg.shared o).1⟩, cfg.shared⟩] }
  | _ => cfg

variable {S : Service Req Op Ans ε α σ} {run : σ → (o : Op) → Ans o × σ}
  {cfg : Config ι Req Op Ans ε α σ}

theorem Service.run_start {i : ι} {r : Req} (hadm : S.admits r) (hi : cfg.calls i = none) :
    Transition.Run (S.system ι) cfg (S.start cfg i r) :=
  Relation.ReflTransGen.single (Service.Step.start i r hadm hi)

theorem Service.run_turn (hrun : ∀ s o, S.exec s o (run s o).1 (run s o).2) (i : ι) :
    Transition.Run (S.system ι) cfg (cfg.turn run i) := by
  unfold Config.turn
  split
  · next r o k hi => exact Service.run_next hi (hrun cfg.shared o)
  · exact .refl

/-- **Turns make a run.** -/
theorem Service.run_turns (hrun : ∀ s o, S.exec s o (run s o).1 (run s o).2) (turns : List ι) :
    Transition.Run (S.system ι) cfg (turns.foldl (Config.turn run) cfg) := by
  induction turns generalizing cfg with
  | nil => exact .refl
  | cons i rest ih => exact (Service.run_turn hrun i).trans ih

theorem Config.request_of_turn {i j : ι} {r : Req} (hi : (cfg.calls i).map Call.req = some r) :
    ((cfg.turn run j).calls i).map Call.req = some r := by
  unfold Config.turn
  split
  · next r' o k hj =>
      by_cases hij : i = j
      · subst hij
        rw [hj] at hi
        simpa using hi
      · simpa [hij] using hi
  · exact hi

/-- A call keeps its request, whoever takes turns. -/
theorem Config.request_of_turns {i : ι} {r : Req} (turns : List ι)
    (hi : (cfg.calls i).map Call.req = some r) :
    ((turns.foldl (Config.turn run) cfg).calls i).map Call.req = some r := by
  induction turns generalizing cfg with
  | nil => exact hi
  | cons j rest ih => exact ih (Config.request_of_turn hi)

omit [DecidableEq ι] in
/-- A call that has returned, told by its request and its result. -/
theorem Config.call_of_returned {i : ι} {r : Req} {a : α}
    (hreq : (cfg.calls i).map Call.req = some r)
    (hret : (cfg.calls i).bind (fun call => call.rest.returned) = some a) :
    cfg.calls i = some ⟨r, .ret a⟩ := by
  cases hi : cfg.calls i with
  | none =>
      rw [hi] at hreq
      cases hreq
  | some call =>
      rw [hi] at hreq hret
      obtain ⟨r', p⟩ := call
      obtain rfl : r' = r := Option.some.inj hreq
      obtain rfl : p = .ret a := Prog.returned_eq_some.mp hret
      rfl

end Async
