import BpcProtocol.Lib.History
import BpcProtocol.Principal.Streams

set_option autoImplicit false

/-! # Active sessions

Sessions are bound and closed on streams, and `activeSessionIds` of a principal lists their
identifiers without the streams. As long as no identifier is in use on two streams at once the list
tells which sessions are open; where one is, closing the one session ends the other as well. -/

namespace Principal

open Fallible Pair Async Transition
open Js (lit)

/-! ## Sessions on streams -/

section Events

variable {σ κ : Type} [DecidableEq σ] [DecidableEq κ]

/-- A session is bound on a stream or closed on it, or its closing is refused. -/
inductive SessionEvent (σ κ : Type) where
  | bound (s : σ) (x : κ)
  | closed (s : σ) (x : κ)
  | refused (x : κ)

/-- The session `x` on the stream `s` is bound, and has not been closed there since. -/
def opened (s : σ) (x : κ) (es : List (SessionEvent σ κ)) : Bool :=
  es.foldl
    (fun held e => match e with
      | .bound t y => held || decide (t = s ∧ y = x)
      | .closed t y => held && !decide (t = s ∧ y = x)
      | .refused _ => held) false

/-- The identifier `x` is on a list that does not tell the streams apart. -/
def listed (x : κ) (es : List (SessionEvent σ κ)) : Bool :=
  es.foldl
    (fun held e => match e with
      | .bound _ y => held || decide (y = x)
      | .closed _ y | .refused y => held && !decide (y = x)) false

/-- Every session that has been bound is on the list exactly if it is open. -/
def PerStream (es : List (SessionEvent σ κ)) : Prop :=
  ∀ s x, .bound s x ∈ es → (listed x es = true ↔ opened s x es = true)

/-- What happens next does not touch a session of the same identifier on another stream. -/
def Clear (es : List (SessionEvent σ κ)) : SessionEvent σ κ → Prop
  | .bound s x => ∀ t, t ≠ s → .bound t x ∈ es → opened t x es = true
  | .closed s x => ∀ t, t ≠ s → opened t x es = false
  | .refused x => ∀ t, opened t x es = false

theorem opened_concat (s : σ) (x : κ) (es : List (SessionEvent σ κ)) (e : SessionEvent σ κ) :
    opened s x (es ++ [e]) = match e with
      | .bound t y => opened s x es || decide (t = s ∧ y = x)
      | .closed t y => opened s x es && !decide (t = s ∧ y = x)
      | .refused _ => opened s x es := by
  rw [opened, List.foldl_concat]
  rfl

omit [DecidableEq σ] in
theorem listed_concat (x : κ) (es : List (SessionEvent σ κ)) (e : SessionEvent σ κ) :
    listed x (es ++ [e]) = match e with
      | .bound _ y => listed x es || decide (y = x)
      | .closed _ y | .refused y => listed x es && !decide (y = x) := by
  rw [listed, List.foldl_concat]
  rfl

theorem bound_of_opened {s : σ} {x : κ} {es : List (SessionEvent σ κ)} (h : opened s x es = true) :
    .bound s x ∈ es := by
  induction es using List.reverseRecOn with
  | nil => cases h
  | append_singleton es e ih =>
      rw [opened_concat] at h
      cases e with
      | bound t y =>
          simp only [Bool.or_eq_true, decide_eq_true_eq] at h
          rcases h with h | ⟨rfl, rfl⟩
          · exact List.mem_append_left _ (ih h)
          · exact List.mem_append_right _ List.mem_cons_self
      | closed t y =>
          simp only [Bool.and_eq_true] at h
          exact List.mem_append_left _ (ih h.1)
      | refused y => exact List.mem_append_left _ (ih h)

/-- A session that is bound and never closed on its stream is open. -/
theorem opened_of_bound {s : σ} {x : κ} {es : List (SessionEvent σ κ)} (h : .bound s x ∈ es)
    (hclosed : .closed s x ∉ es) : opened s x es = true := by
  induction es using List.reverseRecOn with
  | nil => cases h
  | append_singleton es e ih =>
      have hbefore : .closed s x ∉ es := fun hmem => hclosed (List.mem_append_left _ hmem)
      rw [opened_concat]
      rcases List.mem_append.mp h with hold | hlast
      · have hopen := ih hold hbefore
        cases e with
        | bound t y => simp [hopen]
        | closed t y =>
            have hne : ¬(t = s ∧ y = x) := by
              rintro ⟨rfl, rfl⟩
              exact hclosed (List.mem_append_right _ List.mem_cons_self)
            simp [hopen, hne]
        | refused y => exact hopen
      · cases List.mem_singleton.mp hlast
        simp

/-- The list stays right exactly if what happens is clear of other streams. -/
theorem perStream_concat_iff {es : List (SessionEvent σ κ)} (h : PerStream es)
    (e : SessionEvent σ κ) : PerStream (es ++ [e]) ↔ Clear es e := by
  cases e with
  | bound s x =>
      constructor
      · intro hnew t hts hbound
        have hiff := hnew t x (List.mem_append_left _ hbound)
        rw [listed_concat, opened_concat] at hiff
        simpa [hts.symm] using hiff
      · intro hclear t y hmem
        rw [listed_concat, opened_concat]
        by_cases hyx : y = x
        · subst hyx
          by_cases hts : t = s
          · simp [hts]
          · have hbound : .bound t y ∈ es := by simpa [hts] using hmem
            simp [hclear t hts hbound]
        · have hbound : .bound t y ∈ es := by simpa [hyx] using hmem
          simpa [Ne.symm hyx] using h t y hbound
  | closed s x =>
      constructor
      · intro hnew t hts
        by_contra hopen
        rw [Bool.not_eq_false] at hopen
        have hiff := hnew t x (List.mem_append_left _ (bound_of_opened hopen))
        rw [listed_concat, opened_concat] at hiff
        simp [hopen, hts.symm] at hiff
      · intro hclear t y hmem
        have hbound : .bound t y ∈ es := by simpa using hmem
        rw [listed_concat, opened_concat]
        by_cases hyx : y = x
        · subst hyx
          by_cases hts : t = s
          · simp [hts]
          · simp [hclear t hts]
        · simpa [Ne.symm hyx] using h t y hbound
  | refused x =>
      constructor
      · intro hnew t
        by_contra hopen
        rw [Bool.not_eq_false] at hopen
        have hiff := hnew t x (List.mem_append_left _ (bound_of_opened hopen))
        rw [listed_concat, opened_concat] at hiff
        simp [hopen] at hiff
      · intro hclear t y hmem
        have hbound : .bound t y ∈ es := by simpa using hmem
        rw [listed_concat, opened_concat]
        by_cases hyx : y = x
        · subst hyx
          simp [hclear t]
        · simpa [Ne.symm hyx] using h t y hbound

/-- Over a history of which `f` tells the events: the list is right at every time exactly if all that
    happens is clear of other streams. -/
theorem perStream_prefixes_iff {α : Type} (f : α → Option (SessionEvent σ κ)) (log : List α) :
    (∀ log₁ log₂, log = log₁ ++ log₂ → PerStream (log₁.filterMap f)) ↔
      ∀ log₁ a log₂ e, log = log₁ ++ a :: log₂ → f a = some e → Clear (log₁.filterMap f) e := by
  constructor
  · intro h log₁ a log₂ e hlog he
    have hbefore := h log₁ (a :: log₂) hlog
    have hafter := h (log₁ ++ [a]) log₂ (by rw [hlog, List.append_assoc]; rfl)
    have hsingle : [a].filterMap f = [e] := List.filterMap_cons_some he
    rw [List.filterMap_append, hsingle] at hafter
    exact (perStream_concat_iff hbefore e).mp hafter
  · intro h log₁
    -- a prefix is right if what is before its last entry is, and that entry is clear
    induction log₁ using List.reverseRecOn with
    | nil => intro _ _ s x hx; cases hx
    | append_singleton log₁ a ih =>
        intro log₂ hlog
        rw [List.append_assoc] at hlog
        have hbefore := ih (a :: log₂) hlog
        rw [List.filterMap_append]
        cases he : f a with
        | none =>
            have hnone : [a].filterMap f = [] := List.filterMap_cons_none he
            rw [hnone, List.append_nil]
            exact hbefore
        | some e =>
            have hsingle : [a].filterMap f = [e] := List.filterMap_cons_some he
            rw [hsingle]
            exact (perStream_concat_iff hbefore e).mpr (h log₁ a log₂ e hlog he)

end Events

/-! ## The list of a principal -/

section Ledgers

variable {PrivateKey PublicKey : Type} {c : Wire.WebCrypto PrivateKey PublicKey} {l l' : Ledger}
  {p q : JsString}

/-- `activeSessionIds` of a principal; none if it is not there. -/
def activeIds (l : Ledger) (p : JsString) : List JsString :=
  (l.principals p).elim [] PrincipalRecord.activeSessionIds

variable (c) in
/-- What an operation does to the sessions of a principal. -/
def sessionEvent (p : JsString) : Made LedgerOp LedgerAns → Option (SessionEvent JsString JsString)
  | ⟨.finishBind input q _, .ok _⟩ =>
      if q = p then
        some (.bound (makeStreamId c p input.provider input.agent) input.providerSessionId)
      else none
  | ⟨.close q s x, .ok _⟩ => if q = p then some (.closed s x) else none
  | ⟨.close q _ x, .error _⟩ => if q = p then some (.refused x) else none
  | _ => none

theorem activeIds_setPrincipal (l : Ledger) (q : JsString) (r : PrincipalRecord) :
    activeIds (l.setPrincipal q r) p = if q = p then r.activeSessionIds else activeIds l p := by
  unfold activeIds
  split
  · next h => rw [h, Ledger.setPrincipal_self]; rfl
  · next h => rw [Ledger.setPrincipal_of_ne _ _ (Ne.symm h)]

theorem activeIds_of_seen (h : l'.seen PrincipalRecord.activeSessionIds p =
    l.seen PrincipalRecord.activeSessionIds p) : activeIds l' p = activeIds l p := by
  have hseen : ∀ m : Ledger, activeIds m p = (m.seen PrincipalRecord.activeSessionIds p).getD [] := by
    intro m
    rw [activeIds, Ledger.seen]
    cases m.principals p <;> rfl
  rw [hseen, hseen, h]

theorem activeIds_upsertStream (s provider agent session : JsString) :
    activeIds (upsertStream q s provider agent session l) p = activeIds l p :=
  activeIds_of_seen (seen_upsertStream (fun _ _ => rfl) _ _ _ _)

theorem activeIds_appendStreamEvent (hkeyed : Keyed l) (times : Times) (q s : JsString)
    (eventType : PrincipalEventType) (payload : Fields) :
    activeIds (appendStreamEvent c times q s eventType payload l).2 p = activeIds l p :=
  activeIds_of_seen (seen_appendStreamEvent (fun _ _ _ _ => rfl) hkeyed _ _ _ _ _)

/-- A session leaves the list, whether the closing returns or throws. -/
theorem mem_activeIds_closeSession (hkeyed : Keyed l) (times : Times) (q s x y : JsString) :
    y ∈ activeIds (closeSession c times q s x l).2 p ↔ y ∈ activeIds l p ∧ ¬(q = p ∧ y = x) := by
  unfold closeSession
  cases hr : mustPrincipal l q with
  | error e =>
      have hnone := mustPrincipal_error hr
      show y ∈ activeIds l p ↔ _
      constructor
      · intro h
        refine ⟨h, ?_⟩
        rintro ⟨rfl, rfl⟩
        rw [activeIds, hnone] at h
        cases h
      · exact fun h => h.1
  | ok r =>
      rw [mustPrincipal_ok] at hr
      rw [orThrow_ok]
      have hkept : RecordsKept l (l.setPrincipal q
          { r with activeSessionIds := r.activeSessionIds.filter (· ≠ x) }) :=
        recordsKept_setPrincipal hr rfl rfl
      rw [activeIds_appendStreamEvent (hkept.keyed hkeyed), activeIds_setPrincipal]
      split
      · next h =>
          subst h
          rw [activeIds, hr]
          simp
      · next h => simp [h]

theorem mem_pushNew {ids : List JsString} {x y : JsString} : y ∈ pushNew ids x ↔ y ∈ ids ∨ y = x := by
  unfold pushNew
  split
  · next h =>
      constructor
      · exact .inl
      · rintro (hy | rfl)
        · exact hy
        · exact h
  · simp

/-- A session joins the list of its principal. -/
theorem mem_activeIds_joinStream {input : BindSessionInput} {authorizationContext : Fields}
    {r : PrincipalRecord} (hr : l.principals q = some r) (y : JsString) :
    y ∈ activeIds (joinStream c input q authorizationContext l) p ↔
      y ∈ activeIds l p ∨ q = p ∧ y = input.providerSessionId := by
  obtain ⟨streamIds, hopened⟩ := upsertStream_record hr (makeStreamId c q input.provider input.agent)
    input.provider input.agent input.providerSessionId
  rw [joinStream, Ledger.updatePrincipal, hopened, Option.elim, activeIds_setPrincipal]
  split
  · next h =>
      subst h
      rw [activeIds, hr]
      have hpushed : y ∈ pushNew r.activeSessionIds input.providerSessionId ↔ _ := mem_pushNew
      exact hpushed.trans (by simp)
  · next h => simp [h, activeIds_upsertStream]

theorem activeIds_finishBind (hkeyed : Keyed l) (times : Times) (input : BindSessionInput)
    (authorizationContext : Fields) :
    activeIds (finishBind c times input q authorizationContext l).2 p =
      activeIds (joinStream c input q authorizationContext l) p :=
  activeIds_of_seen (seen_finishBind (fun _ _ _ _ => rfl) hkeyed times input q authorizationContext p)

/-- A binding that is returned has put its session on the list. -/
theorem mem_activeIds_finishBind (hkeyed : Keyed l) {times : Times} {input : BindSessionInput}
    {authorizationContext : Fields} {b : SessionBinding}
    (h : finishBind c times input q authorizationContext l = (.ok b, l')) (y : JsString) :
    y ∈ activeIds l' p ↔ y ∈ activeIds l p ∨ q = p ∧ y = input.providerSessionId := by
  obtain ⟨-, r, -, hr, -⟩ := finishBind_record hkeyed h
  have hlist := activeIds_finishBind (c := c) (p := p) (q := q) hkeyed times input authorizationContext
  rw [h] at hlist
  rw [hlist]
  exact mem_activeIds_joinStream hr y

/-- A binding throws only for a principal that is not there. -/
theorem activeIds_finishBind_error (hkeyed : Keyed l) {times : Times} {input : BindSessionInput}
    {authorizationContext : Fields} {e : ServerError}
    (hdata : isData (sanitizeCaptureValue input.runtime) = true)
    (h : (finishBind c times input q authorizationContext l).1 = .error e) :
    activeIds (finishBind c times input q authorizationContext l).2 p = activeIds l p := by
  cases hr : l.principals q with
  | some r =>
      obtain ⟨b, l', hfinish⟩ := exists_finishBind (c := c) times input authorizationContext hr
        fun r stream => nextEvent_of_data times.event stream .sessionBound (bindOptions c input)
          (bindPayload_data r hdata)
      rw [hfinish] at h
      cases h
  | none =>
      have hopened : (upsertStream q (makeStreamId c q input.provider input.agent) input.provider
          input.agent input.providerSessionId l).principals q = none := by
        rw [upsertStream]
        cases l.streams (makeStreamId c q input.provider input.agent) with
        | some existing => exact hr
        | none =>
            rw [Option.elim, Ledger.updatePrincipal, hr]
            exact hr
      rw [activeIds_finishBind hkeyed, joinStream, Ledger.updatePrincipal, hopened]
      exact activeIds_upsertStream _ _ _ _

variable (c) in
/-- The sessions of a principal, as the log of a run tells. -/
def sessionEvents {ι : Type} (p : JsString) (log : List (Entry ι LedgerOp LedgerAns Ledger)) :
    List (SessionEvent JsString JsString) :=
  log.filterMap fun e => sessionEvent c p e.made

/-- The list is what the log says. -/
def ListedAs {ι : Type} (c : Wire.WebCrypto PrivateKey PublicKey) (p : JsString)
    (log : List (Entry ι LedgerOp LedgerAns Ledger)) (l : Ledger) : Prop :=
  ∀ y, y ∈ activeIds l p ↔ listed y (sessionEvents c p log) = true

/-- What a step does to the list of a principal, as its event says. -/
theorem exec_active {o : LedgerOp} {x : LedgerAns o} {calls : LedgerCall → Prop} (hkeyed : Keyed l)
    (ho : Admitted c calls o) (hx : Exec c l o x l') (y : JsString) :
    y ∈ activeIds l' p ↔ match sessionEvent c p ⟨o, x⟩ with
      | some (.bound _ z) => y ∈ activeIds l p ∨ z = y
      | some (.closed _ z) | some (.refused z) => y ∈ activeIds l p ∧ ¬z = y
      | none => y ∈ activeIds l p := by
  cases hx with
  | yield => exact Iff.rfl
  | clock now => exact Iff.rfl
  | resolve query x => exact Iff.rfl
  | consumeNonce challengeNonce =>
      have hsame : activeIds (consumeNonce c challengeNonce l).2 p = activeIds l p := by
        rw [activeIds, consumeNonce_principals, activeIds]
      rw [hsame]
      exact Iff.rfl
  | upsertPrincipal now publicKeyJwk keyFingerprint authorizationContext =>
      have hsame : activeIds
          (upsertPrincipal c now publicKeyJwk keyFingerprint authorizationContext l) p =
          activeIds l p := by
        rw [upsertPrincipal]
        cases hr : l.principals (principalIdFromFingerprint c keyFingerprint) with
        | some r => rfl
        | none =>
            unfold activeIds
            by_cases hp : p = principalIdFromFingerprint c keyFingerprint
            · subst hp
              simp [hr]
            · simp [hp]
      rw [hsame]
      exact Iff.rfl
  | finishBind times input q authorizationContext =>
      cases hanswer : (finishBind c times input q authorizationContext l).1 with
      | error e =>
          rw [activeIds_finishBind_error hkeyed ho.2 hanswer]
          exact Iff.rfl
      | ok b =>
          have hfinish : finishBind c times input q authorizationContext l =
              (.ok b, (finishBind c times input q authorizationContext l).2) := Prod.ext hanswer rfl
          rw [mem_activeIds_finishBind hkeyed hfinish, sessionEvent]
          by_cases hq : q = p
          · simp [hq, eq_comm]
          · simp [hq]
  | append times q s eventType payload =>
      rw [activeIds_appendStreamEvent hkeyed]
      exact Iff.rfl
  | close times q s session =>
      rw [mem_activeIds_closeSession hkeyed]
      cases (closeSession c times q s session l).1 with
      | error e =>
          rw [sessionEvent]
          by_cases hq : q = p
          · simp [hq, eq_comm]
          · simp [hq]
      | ok u =>
          rw [sessionEvent]
          by_cases hq : q = p
          · simp [hq, eq_comm]
          · simp [hq]
  | startRotation q publicKeyJwk =>
      have hsame : activeIds (startRotation q publicKeyJwk l).2 p = activeIds l p := by
        rw [startRotation]
        cases hr : mustPrincipal l q with
        | error e => rfl
        | ok r => exact activeIds_of_seen (seen_of_kept (mustPrincipal_ok.mp hr) rfl)
      rw [hsame]
      exact Iff.rfl
  | finishRotation times q keyFingerprint keyVersion =>
      have hsame : activeIds (finishRotation c times q keyFingerprint keyVersion l).2 p =
          activeIds l p := by
        rw [finishRotation]
        cases hr : mustPrincipal l q with
        | error e => rfl
        | ok r =>
            rw [orThrow_ok]
            refine activeIds_of_seen
              (seen_appendCheckpoint_of_kept (fun _ _ _ _ => rfl) hkeyed (mustPrincipal_ok.mp hr) ?_ ?_ _)
            · rfl
            · rfl
      rw [hsame]
      exact Iff.rfl

end Ledgers

/-! ## Runs -/

section Runs

variable {PrivateKey PublicKey : Type} {c : Wire.WebCrypto PrivateKey PublicKey}
  {calls : LedgerCall → Prop} {ι : Type} [DecidableEq ι] {cfg : LedgerConfig ι}

omit [DecidableEq ι] in
theorem listedAs_concat {log : List (Entry ι LedgerOp LedgerAns Ledger)} {l l' : Ledger}
    {e : Entry ι LedgerOp LedgerAns Ledger} {p : JsString} (h : ListedAs c p log l) (hkeyed : Keyed l)
    (ho : Admitted c calls e.made.1) (hx : Exec c l e.made.1 e.made.2 l') :
    ListedAs c p (log ++ [e]) l' := by
  intro y
  have hconcat : sessionEvents c p (log ++ [e]) =
      sessionEvents c p log ++ [e].filterMap fun e => sessionEvent c p e.made :=
    List.filterMap_append
  rw [exec_active hkeyed ho hx y, h y, hconcat]
  cases hevent : sessionEvent c p e.made with
  | none =>
      have hlast : [e].filterMap (fun e => sessionEvent c p e.made) = [] := by simp [hevent]
      rw [hlast, List.append_nil]
  | some event =>
      have hlast : [e].filterMap (fun e => sessionEvent c p e.made) = [event] := by simp [hevent]
      rw [hlast, listed_concat]
      cases event with
      | bound s z => simp
      | closed s z => simp
      | refused z => simp

/-- At every time of a run the list is what the log says until then. -/
theorem listedAs_of_reachable (h : Reachable (ledgerSystem c calls ι) cfg) (p : JsString) :
    ListedAs c p cfg.log cfg.shared ∧
      ∀ log₁ e log₂, cfg.log = log₁ ++ e :: log₂ → ListedAs c p log₁ e.state := by
  refine Reachable.invariant (I := fun cfg : LedgerConfig ι => ListedAs c p cfg.log cfg.shared ∧
    ∀ log₁ e log₂, cfg.log = log₁ ++ e :: log₂ → ListedAs c p log₁ e.state) ?_ ?_ h
  · rintro cfg ⟨hinit, -, hlog⟩
    rw [show cfg.shared = Ledger.empty from hinit, hlog]
    refine ⟨fun y => ?_, ?_⟩
    · constructor
      · intro hy
        cases hy
      · intro hy
        cases hy
    · intro log₁ e log₂ hnil
      cases (List.append_eq_nil_iff.mp hnil.symm).2
  · rintro cfg cfg' hreach ⟨hshared, hstates⟩ hstep
    cases hstep with
    | start i r hadm hi => exact ⟨hshared, hstates⟩
    | env s hs => exact hs.elim
    | exec i r o k x s hi hx =>
        have ho := (Service.uses_of_reachable uses_body hreach i _ hi).1
        refine ⟨listedAs_concat hshared (keyed_of_reachable hreach) ho hx, ?_⟩
        intro log₁ e log₂ hlog
        rcases List.eq_nil_or_concat log₂ with rfl | ⟨log₂, e', rfl⟩
        · obtain ⟨rfl, he⟩ := List.append_inj' hlog rfl
          cases he
          exact hshared
        · have hinit : cfg.log = log₁ ++ e :: log₂ := by
            have hsplit : cfg.log ++ [⟨i, ⟨o, x⟩, cfg.shared⟩] = (log₁ ++ e :: log₂) ++ [e'] := by
              simpa using hlog
            exact (List.append_inj' hsplit rfl).1
          exact hstates log₁ e log₂ hinit

/-- The sessions of a principal that have been bound are listed exactly while they are open. -/
def SessionsRight {ι : Type} (c : Wire.WebCrypto PrivateKey PublicKey) (p : JsString)
    (log : List (Entry ι LedgerOp LedgerAns Ledger)) (l : Ledger) : Prop :=
  ∀ s x, .bound s x ∈ sessionEvents c p log →
    (x ∈ activeIds l p ↔ opened s x (sessionEvents c p log) = true)

omit [DecidableEq ι] in
theorem sessionsRight_iff {log : List (Entry ι LedgerOp LedgerAns Ledger)} {l : Ledger} {p : JsString}
    (h : ListedAs c p log l) : SessionsRight c p log l ↔ PerStream (sessionEvents c p log) := by
  refine forall₃_congr fun s x _ => ?_
  rw [h x]

/-- **A principal's sessions are listed as they are open**, at every time of a run, exactly if
    whatever happens to a session leaves no other stream's session of the same identifier behind: a
    binding no closed one, a closing no open one, and a closing that is refused none at all. -/
theorem sessions_independent_iff (h : Reachable (ledgerSystem c calls ι) cfg) (p : JsString) :
    (SessionsRight c p cfg.log cfg.shared ∧
      ∀ log₁ e log₂, cfg.log = log₁ ++ e :: log₂ → SessionsRight c p log₁ e.state) ↔
      ∀ log₁ e log₂ event, cfg.log = log₁ ++ e :: log₂ → sessionEvent c p e.made = some event →
        Clear (sessionEvents c p log₁) event := by
  obtain ⟨hshared, hstates⟩ := listedAs_of_reachable h p
  have hprefixes := perStream_prefixes_iff (fun e => sessionEvent c p e.made) cfg.log
  refine Iff.trans ?_ hprefixes
  rw [sessionsRight_iff hshared]
  constructor
  · rintro ⟨hnow, hbefore⟩ log₁ log₂ hlog
    cases log₂ with
    | nil =>
        rw [List.append_nil] at hlog
        subst hlog
        exact hnow
    | cons e log₂ => exact (sessionsRight_iff (hstates log₁ e log₂ hlog)).mp (hbefore log₁ e log₂ hlog)
  · intro hall
    refine ⟨hall cfg.log [] (List.append_nil _).symm, ?_⟩
    intro log₁ e log₂ hlog
    exact (sessionsRight_iff (hstates log₁ e log₂ hlog)).mpr (hall log₁ (e :: log₂) hlog)

end Runs

/-! ## One identifier on two streams -/

section Sample

def sharedKey : JsonWebKey :=
  sampleJwk (lit "bGsYJS8ljhwmQArkOxbyvT3v__GLL9TONwv8bc8Unwg")
    (lit "qBCVqO31rl2_0SxLkWeF5vO93b70Ar_Nuj-eB5T2lgU")

def openaiProof : JsString :=
  lit "5Esz15dPXHqSWGiV_5uScZUeueEe5t0YbYG71_kYUB2" ++
    lit "GCyf0Z58Co4mS2kuf9rLrku0HAAdu7P9MDVU96mab9Q"

def anthropicProof : JsString :=
  lit "ef0iBTA3sOKzTG_Gu_ml_bGCxqiRZsUBP2f-AgWrUVq" ++
    lit "QFDHpCN7yeOqer6stFNyrifBWBXCgBztnZUHVQSAmaQ"

/-- What has been signed: the digest of the message, and the signature. -/
def sharedSigned : List (JsString × JsString) :=
  [(lit "ac59353e8675c4a342f764359ddbcc9f" ++ lit "215703c76fa10b8d3bc6451f2961699b", openaiProof),
    (lit "5ab0121ea9449c5ef0d084416ee74680" ++ lit "e28336a80b452f3f69dc7edfaedd03a7",
      anthropicProof)]

/-- SHA-256, and a verifier that knows these signatures of the key. -/
def sharedCrypto : Wire.WebCrypto Empty JsonWebKey :=
  { sampleCrypto with
    verify := fun publicKey signature message => sharedSigned.any fun signed =>
      stringOf (sharedKey.get "x") == stringOf (publicKey.get "x") &&
        Wire.b64urlDecode signed.2 == some signature &&
          (Sha256.digest message).flatMap Ha.hexByte == signed.1 }

/-- Two providers that call their sessions the same. -/
def sharedInput (provider : String) (n : ℕ) (signature : JsString) : BindSessionInput :=
  { sampleInput sharedKey n signature none with
    provider := lit provider
    providerSessionId := lit "session-1" }

def openaiInput : BindSessionInput :=
  sharedInput "openai" 1 openaiProof

def anthropicInput : BindSessionInput :=
  sharedInput "anthropic" 2 anthropicProof

def sharedFingerprint : JsString :=
  lit "gbUoMzVXpV0MG9wGOzFz"

theorem openaiInput_proved : Proved sharedCrypto sampleNow openaiInput sharedFingerprint where
  checked := by decide +kernel
  key := by decide +kernel
  proof := by decide +kernel

theorem anthropicInput_proved : Proved sharedCrypto sampleNow anthropicInput sharedFingerprint where
  checked := by decide +kernel
  key := by decide +kernel
  proof := by decide +kernel

def sharedPrincipal : JsString :=
  principalIdFromFingerprint sharedCrypto sharedFingerprint

/-- The stream of a session of that principal. -/
def sharedStream (input : BindSessionInput) : JsString :=
  makeStreamId sharedCrypto sharedPrincipal input.provider input.agent

/-- The sessions are bound, and the first one is closed. -/
def sharedCalls (call : LedgerCall) : Prop :=
  call = .bindSession openaiInput ∨ call = .bindSession anthropicInput ∨
    call = .closeSession sharedPrincipal (sharedStream openaiInput) (lit "session-1")

def sharedServed (cfg : LedgerConfig ℕ) (i : ℕ) (call : LedgerCall) : LedgerConfig ℕ :=
  (ledgerService sharedCrypto sharedCalls).serve (ledgerRun sharedCrypto sampleNow grantAll) cfg i call

def bothBound : LedgerConfig ℕ :=
  sharedServed (sharedServed idle 0 (.bindSession openaiInput)) 1 (.bindSession anthropicInput)

def oneClosed : LedgerConfig ℕ :=
  sharedServed bothBound 2
    (.closeSession sharedPrincipal (sharedStream openaiInput) (lit "session-1"))

theorem reachable_bothBound : Reachable (ledgerSystem sharedCrypto sharedCalls ℕ) bothBound := by
  have hidle : Reachable (ledgerSystem sharedCrypto sharedCalls ℕ) idle := .init ⟨rfl, fun _ => rfl, rfl⟩
  have hfirst := Run.reachable (Service.run_serve (i := 0)
    (exec_ledgerRun sharedCrypto sampleNow grantAll) (.inl rfl : sharedCalls _) rfl) hidle
  exact Run.reachable (Service.run_serve (exec_ledgerRun sharedCrypto sampleNow grantAll)
    (.inr (.inl rfl) : sharedCalls _) rfl) hfirst

theorem reachable_oneClosed : Reachable (ledgerSystem sharedCrypto sharedCalls ℕ) oneClosed :=
  Run.reachable (Service.run_serve (exec_ledgerRun sharedCrypto sampleNow grantAll)
    (.inr (.inr rfl) : sharedCalls _) rfl) reachable_bothBound

theorem sharedServed_bind (cfg : LedgerConfig ℕ) (i : ℕ) {input : BindSessionInput}
    (hproved : Proved sharedCrypto sampleNow input sharedFingerprint)
    (hcontext : input.authorizationContext = none)
    (hfresh : cfg.shared.consumedProofNonces
      (sha256hex sharedCrypto input.proof.challengeNonce) = false) : ∃ b l',
      finishBind sharedCrypto ⟨sampleNow, sampleNow, sampleNow⟩ input sharedPrincipal []
        (registered sharedCrypto sampleNow input sharedFingerprint [] cfg.shared) = (.ok b, l') ∧
      (sharedServed cfg i (.bindSession input)).calls i =
        some ⟨.bindSession input, .ret (.binding b)⟩ ∧
      (sharedServed cfg i (.bindSession input)).shared = l' := by
  have hresolve : grantAll (resolution input (principalIdFromFingerprint sharedCrypto
      sharedFingerprint) sharedFingerprint) = .ok [] := by
    rw [resolution, hcontext]
    rfl
  exact serve_bindSession hproved hfresh hresolve

/-- The second session has been bound. -/
theorem bothBound_calls : ∃ b,
    bothBound.calls 1 = some ⟨.bindSession anthropicInput, .ret (.binding b)⟩ := by
  obtain ⟨b, l', hfinish, -, rfl⟩ := sharedServed_bind idle 0 openaiInput_proved rfl rfl
  have hne : sha256hex sharedCrypto anthropicInput.proof.challengeNonce ≠
      sha256hex sharedCrypto openaiInput.proof.challengeNonce := by decide +kernel
  have hfresh := consumed_of_finishBind hfinish hne
  obtain ⟨b', -, -, hcall, -⟩ := sharedServed_bind _ 1 anthropicInput_proved rfl hfresh
  exact ⟨b', hcall⟩

/-- Only `closeSession` closes. -/
theorem closes_body {PrivateKey PublicKey : Type} (c : Wire.WebCrypto PrivateKey PublicKey)
    (call : LedgerCall) :
    (call.body c).Uses fun o => ∀ q s x, o = .close q s x → call = .closeSession q s x := by
  cases call with
  | bindSession input =>
      refine Prog.Uses.map ?_
      simp only [bindSession, Prog.perform_bind, Prog.await_bind]
      refine Prog.uses_lift_bind fun _ _ => ⟨(by rintro _ _ _ ⟨⟩), fun _ => ?_⟩
      refine Prog.uses_lift_bind fun _ _ => ⟨(by rintro _ _ _ ⟨⟩), fun _ =>
        ⟨(by rintro _ _ _ ⟨⟩), fun _ => ?_⟩⟩
      refine Prog.uses_lift_bind fun _ _ => ⟨(by rintro _ _ _ ⟨⟩), fun _ => ?_⟩
      refine Prog.uses_lift_bind fun _ _ => ⟨(by rintro _ _ _ ⟨⟩), fun _ => ?_⟩
      refine Prog.uses_lift_bind fun _ _ => ⟨(by rintro _ _ _ ⟨⟩), fun _ =>
        ⟨(by rintro _ _ _ ⟨⟩), fun _ => ?_⟩⟩
      exact Prog.uses_lift
  | appendStreamEvent p s eventType payload =>
      exact ⟨(by rintro _ _ _ ⟨⟩), fun _ => Prog.Uses.map Prog.uses_lift⟩
  | closeSession p s session =>
      refine ⟨?_, fun _ => Prog.Uses.map Prog.uses_lift⟩
      intro q t x h
      cases h
      rfl
  | rotatePrincipalKey p publicKeyJwk keyVersion =>
      refine Prog.Uses.map ⟨(by rintro _ _ _ ⟨⟩), fun _ => ?_⟩
      refine Prog.uses_lift_bind fun _ _ => Prog.uses_lift_bind fun _ _ =>
        ⟨(by rintro _ _ _ ⟨⟩), fun _ => ?_⟩
      exact Prog.uses_lift

/-- A closing is that of the first session. -/
theorem closed_stream {s x : JsString} (h : .closed s x ∈
    sessionEvents sharedCrypto sharedPrincipal oneClosed.log) : s = sharedStream openaiInput := by
  obtain ⟨e, he, hevent⟩ := List.mem_filterMap.mp h
  have hcloses := Service.uses_of_mem_log
    (P := fun o => ∀ q s x, o = .close q s x → sharedCalls (.closeSession q s x))
    (fun call hcall => (closes_body sharedCrypto call).mono fun o ho q s x hoq => ho q s x hoq ▸ hcall)
    reachable_oneClosed he
  obtain ⟨i, ⟨o, answer⟩, l⟩ := e
  cases o with
  | close q t y =>
      have ht : t = s := by
        cases answer with
        | ok u =>
            simp only [sessionEvent] at hevent
            split at hevent <;> cases hevent
            rfl
        | error e =>
            simp only [sessionEvent] at hevent
            split at hevent <;> cases hevent
      subst ht
      rcases hcloses q t y rfl with hcall | hcall | hcall
      · cases hcall
      · cases hcall
      · cases hcall
        rfl
  | finishBind input q authorizationContext =>
      cases answer with
      | ok b =>
          simp only [sessionEvent] at hevent
          split at hevent <;> cases hevent
      | error e => cases hevent
  | _ => cases hevent

/-- The second session is open at the end. -/
theorem anthropic_open : .bound (sharedStream anthropicInput) (lit "session-1") ∈
      sessionEvents sharedCrypto sharedPrincipal oneClosed.log ∧
    opened (sharedStream anthropicInput) (lit "session-1")
      (sessionEvents sharedCrypto sharedPrincipal oneClosed.log) = true := by
  have hbound : .bound (sharedStream anthropicInput) (lit "session-1") ∈
      sessionEvents sharedCrypto sharedPrincipal oneClosed.log := by
    obtain ⟨b, hcall⟩ := bothBound_calls
    have hlast : oneClosed.calls 1 = some ⟨.bindSession anthropicInput, .ret (.binding b)⟩ := hcall
    obtain ⟨_, keyFingerprint, _, authorizationContext, hkey, _, _, e, he, _, hmade, _⟩ :=
      exists_binding reachable_oneClosed hlast
    obtain rfl := Except.ok.inj (hkey.symm.trans anthropicInput_proved.key)
    refine List.mem_filterMap.mpr ⟨e, he, ?_⟩
    have hprincipal : principalIdFromFingerprint sharedCrypto sharedFingerprint = sharedPrincipal := by
      rw [sharedPrincipal]
    have hsession : anthropicInput.providerSessionId = lit "session-1" := by
      rw [anthropicInput, sharedInput]
    simp only [hmade, sessionEvent, hprincipal, if_true, hsession, sharedStream]
  have hne : sharedStream anthropicInput ≠ sharedStream openaiInput := by decide +kernel
  exact ⟨hbound, opened_of_bound hbound fun hclosed => hne (closed_stream hclosed)⟩

/-- A call of `closeSession` leaves what the method leaves. -/
theorem shared_serve_closeSession (cfg : LedgerConfig ℕ) (i : ℕ) (p s x : JsString) :
    (sharedServed cfg i (.closeSession p s x)).shared =
      (closeSession sharedCrypto ⟨sampleNow, sampleNow, sampleNow⟩ p s x cfg.shared).2 := by
  rw [sharedServed, Service.serve]
  simp only [ledgerService, LedgerCall.body, Prog.drive, ledgerRun]
  cases (closeSession sharedCrypto ⟨sampleNow, sampleNow, sampleNow⟩ p s x cfg.shared).1 with
  | error e => rfl
  | ok u => rfl

/-- The first session is closed, and the list has lost the identifier of both. -/
theorem session_unlisted : lit "session-1" ∉ activeIds oneClosed.shared sharedPrincipal := by
  rw [oneClosed, shared_serve_closeSession,
    mem_activeIds_closeSession (keyed_of_reachable reachable_bothBound)]
  simp

/-- In that run not everything that happens is clear of the other stream. -/
theorem closing_not_clear : Reachable (ledgerSystem sharedCrypto sharedCalls ℕ) oneClosed ∧
    ¬∀ log₁ e log₂ event, oneClosed.log = log₁ ++ e :: log₂ →
      sessionEvent sharedCrypto sharedPrincipal e.made = some event →
        Clear (sessionEvents sharedCrypto sharedPrincipal log₁) event := by
  refine ⟨reachable_oneClosed, fun hclear => ?_⟩
  have hright := ((sessions_independent_iff reachable_oneClosed sharedPrincipal).mpr hclear).1
  obtain ⟨hbound, hopen⟩ := anthropic_open
  exact session_unlisted ((hright _ _ hbound).mpr hopen)

/-- Of two sessions of one name the one that is still bound is not listed. -/
theorem session_ended_elsewhere :
    ¬∀ (calls : LedgerCall → Prop) (cfg : LedgerConfig ℕ),
      Reachable (ledgerSystem sharedCrypto calls ℕ) cfg → ∀ p,
        SessionsRight sharedCrypto p cfg.log cfg.shared := by
  intro hclaim
  have hright := hclaim sharedCalls oneClosed reachable_oneClosed sharedPrincipal
  obtain ⟨hbound, hopen⟩ := anthropic_open
  exact session_unlisted ((hright _ _ hbound).mpr hopen)

end Sample

end Principal
