import BpcProtocol.Pair.Lifecycle
import Mathlib.Data.List.Pairwise

set_option autoImplicit false

/-! # Rotation and lineage

A rotation reads the old pair, verifies a signature over it, and swaps two records by compare and
set. Every pair is rotated at most once, so that the descendants of a pair are a chain; whoever has
been rotated is out of use, and at most the last of the chain is active. -/

namespace Pair

open Fallible Async

/-! ## What one call has done -/

section Traces

variable {cfg : RotationConfig} {req : RotationRequest}

/-- A swap of two records that was carried out. -/
abbrev swap (expectedOld replacement : StoredPair) : Made ServerOp ServerOp.Answer :=
  ⟨.store (.rotatePair expectedOld replacement), true⟩

/-- No swap has been carried out. -/
def SwapFree (es : List (Made ServerOp ServerOp.Answer)) : Prop :=
  ∀ expectedOld replacement, swap expectedOld replacement ∉ es

theorem swapFree_of_reads {es : List (Made ServerOp ServerOp.Answer)}
    (h : ∀ e ∈ es, e.1.Reads) : SwapFree es :=
  fun _ _ hmem => h _ hmem

theorem SwapFree.append {es es' : List (Made ServerOp ServerOp.Answer)} (h : SwapFree es)
    (h' : SwapFree es') : SwapFree (es ++ es') := by
  intro expectedOld replacement hmem
  rcases List.mem_append.mp hmem with hmem | hmem
  · exact h _ _ hmem
  · exact h' _ _ hmem

theorem rotationFails_ok {error : String} {es : List (Made ServerOp ServerOp.Answer)}
    {res : RotationResult} (h : Trace (rotationFails cfg req error) es (.ret res)) :
    res.ok = false := by
  obtain ⟨es₁, es₂, u, rfl, -, h₂⟩ := Trace.of_bind h
  obtain ⟨-, heq⟩ := trace_ret.mp h₂
  cases heq
  rfl

theorem rejectIf_exits (c : Prop) [Decidable c] (error : String) :
    Stage.ExitsWith (fun res => res.ok = false) (rejectIf cfg req c error) :=
  Stage.exitsWith_exitIf fun _ _ h => rotationFails_ok h

theorem needed_exits {α : Type} (v : Option α) (error : String) :
    Stage.ExitsWith (fun res => res.ok = false) (needed cfg req v error) := by
  cases v with
  | none => exact Stage.exitsWith_exit fun _ _ h => rotationFails_ok h
  | some a => exact Stage.exitsWith_pure a

/-- Whatever ends a rotation early ends it without success. -/
theorem beforeCommit_exits :
    Stage.ExitsWith (fun res => res.ok = false) (validateRotation cfg req) ∧
      Stage.ExitsWith (fun res => res.ok = false) (lookupOldPair cfg req) ∧
      (∀ oldPair, Stage.ExitsWith (fun res => res.ok = false)
        (verifyRotationPayload cfg req oldPair)) ∧
      ∀ payload, Stage.ExitsWith (fun res => res.ok = false)
        (bindRotationPayload cfg req payload) := by
  refine ⟨?_, ?_, fun oldPair => ?_, fun payload => ?_⟩
  · refine (rejectIf_exits _ _).bind fun _ => (rejectIf_exits _ _).bind fun _ => ?_
    refine (rejectIf_exits _ _).bind fun _ => (rejectIf_exits _ _).bind fun _ => ?_
    exact (rejectIf_exits _ _).bind fun _ => (Stage.exitsWith_await _).bind fun _ =>
      rejectIf_exits _ _
  · refine (Stage.exitsWith_await _).bind fun found => (needed_exits found _).bind fun oldPair => ?_
    exact (rejectIf_exits _ _).bind fun _ => Stage.exitsWith_pure oldPair
  · refine (needed_exits _ _).bind fun payload => (Stage.exitsWith_await _).bind fun valid => ?_
    refine (rejectIf_exits _ _).bind fun _ => (Stage.exitsWith_await _).bind fun _ => ?_
    exact Stage.exitsWith_pure payload
  · refine (rejectIf_exits _ _).bind fun _ => (rejectIf_exits _ _).bind fun _ => ?_
    refine (rejectIf_exits _ _).bind fun _ => (needed_exits _ _).bind fun json => ?_
    exact (needed_exits _ _).bind fun jwk => (rejectIf_exits _ _).bind fun _ => rejectIf_exits _ _

theorem lookupOldPair_passes {es : List (Made ServerOp ServerOp.Answer)} {oldPair : StoredPair}
    (h : Stage.Passes (lookupOldPair cfg req) es oldPair) :
    es = [⟨.store (.get req.oldPairId), some oldPair⟩] := by
  obtain ⟨es₁, es₂, found, rfl, h₁, h₂⟩ := h.of_bind
  obtain rfl := h₁.of_perform
  obtain ⟨es₃, es₄, p, rfl, h₃, h₄⟩ := h₂.of_bind
  obtain ⟨es₅, es₆, u, rfl, h₅, h₆⟩ := h₄.of_bind
  obtain ⟨rfl, -⟩ := Stage.Passes.of_exitIf h₅
  obtain ⟨rfl, rfl⟩ := Stage.passes_pure.mp h₆
  cases found with
  | none => exact absurd h₃ Stage.not_passes_exit
  | some q =>
      obtain ⟨rfl, rfl⟩ := Stage.passes_pure.mp h₃
      rfl

/-- What `commitRotation` does: one attempt at the swap. -/
theorem commitRotation_trace {es : List (Made ServerOp ServerOp.Answer)} {oldPair : StoredPair}
    {x : Except RotationResult JsString}
    (h : Trace (ExceptT.run (commitRotation cfg req oldPair)) es (.ret x)) :
    ∃ newPairId created rotated es', es =
        [⟨.external (.generateId "pair"), newPairId⟩, ⟨.dateNow, created⟩,
          ⟨.store (.rotatePair oldPair (rotatedPair oldPair req newPairId created)), rotated⟩] ++
        es' ∧ (∀ e ∈ es', e.1.Reads) ∧
      (rotated = true ∧ x = .ok newPairId ∨
        rotated = false ∧ ∃ res : RotationResult, x = .error res ∧ res.ok = false) := by
  obtain ⟨newPairId, es₁, rfl, h₁⟩ := Stage.trace_perform_bind h
  obtain ⟨created, es₂, rfl, h₂⟩ := Stage.trace_perform_bind h₁
  obtain ⟨rotated, es₃, rfl, h₃⟩ := Stage.trace_perform_bind h₂
  have huses : (ExceptT.run (do
      rejectIf cfg req (rotated = false) "rotation_conflict"
      pure newPairId : RotationStage JsString)).Uses ServerOp.Reads :=
    Stage.uses_bind (uses_of_silently (rejectIf_uses cfg req _ _)) fun _ => Stage.uses_pure newPairId
  refine ⟨newPairId, created, rotated, es₃, rfl, (Trace.uses h₃ huses).1, ?_⟩
  cases x with
  | ok id =>
      obtain ⟨es₄, es₅, u, rfl, h₄, h₅⟩ := Stage.Passes.of_bind h₃
      obtain ⟨-, hrotated⟩ := Stage.Passes.of_exitIf h₄
      obtain ⟨-, rfl⟩ := Stage.passes_pure.mp h₅
      exact Or.inl ⟨by simpa using hrotated, rfl⟩
  | error res =>
      rcases Stage.Exits.of_bind h₃ with h₄ | ⟨es₄, es₅, u, rfl, -, h₅⟩
      · obtain ⟨hrotated, h₆⟩ := Stage.Exits.of_exitIf h₄
        exact Or.inr ⟨hrotated, res, rfl, rotationFails_ok h₆⟩
      · exact absurd h₅ Stage.not_exits_pure

/-- A commit that returns early has found a conflict. -/
theorem commitRotation_exits {es : List (Made ServerOp ServerOp.Answer)} {oldPair : StoredPair}
    {res : RotationResult} (h : Stage.Exits (commitRotation cfg req oldPair) es res) :
    res.ok = false ∧ SwapFree es := by
  obtain ⟨newPairId, created, rotated, es', rfl, hreads, hrotated⟩ := commitRotation_trace h
  rcases hrotated with ⟨-, heq⟩ | ⟨rfl, res', heq, hres⟩
  · cases heq
  · cases heq
    refine ⟨hres, SwapFree.append (fun expectedOld replacement hmem => ?_)
      (swapFree_of_reads hreads)⟩
    simp [swap] at hmem

/-- What a rotation has done that has returned: without success it has carried out no swap, with
    success it has read the old pair and swapped it later. -/
theorem handleRotation_trace {es : List (Made ServerOp ServerOp.Answer)} {res : RotationResult}
    (h : Trace (handleRotation cfg req) es (.ret res)) :
    (res.ok = false ∧ SwapFree es) ∨
      ∃ es₁ es₂ es₃ oldPair newPairId created,
        es = es₁ ++ ⟨.store (.get req.oldPairId), some oldPair⟩ ::
          (es₂ ++ swap oldPair (rotatedPair oldPair req newPairId created) :: es₃) ∧
        res.ok = true ∧ res.newPairId = some newPairId := by
  obtain ⟨hvalidate, hlookup, hverify, hbind⟩ := @beforeCommit_exits cfg req
  rcases Stage.trace_toProg h with hpass | hexit
  · obtain ⟨es₁, es', u, rfl, -, h₁⟩ := hpass.of_bind
    obtain ⟨es₂, es', oldPair, rfl, hold, h₂⟩ := h₁.of_bind
    obtain rfl := lookupOldPair_passes hold
    obtain ⟨es₃, es', payload, rfl, -, h₃⟩ := h₂.of_bind
    obtain ⟨es₄, es', u', rfl, -, h₄⟩ := h₃.of_bind
    obtain ⟨es₅, es₆, newPairId, rfl, hcommit, h₅⟩ := h₄.of_bind
    obtain ⟨es₇, es₈, u'', rfl, -, h₆⟩ := h₅.of_bind
    obtain ⟨-, rfl⟩ := Stage.passes_pure.mp h₆
    obtain ⟨newPairId', created, rotated, es₉, rfl, -, hrotated⟩ := commitRotation_trace hcommit
    rcases hrotated with ⟨rfl, heq⟩ | ⟨-, res, heq, -⟩
    · cases heq
      refine Or.inr ⟨es₁, es₃ ++ es₄ ++
        [⟨.external (.generateId "pair"), newPairId⟩, ⟨.dateNow, created⟩], es₉ ++ (es₇ ++ es₈),
        oldPair, newPairId, created, ?_, rfl, rfl⟩
      simp [swap]
    · cases heq
  · left
    rcases hexit.of_bind with hexit | ⟨es₁, es', u, rfl, h₁, hexit⟩
    · exact ⟨hvalidate _ _ hexit, swapFree_of_reads (hexit.uses (uses_of_silently (validateRotation_uses cfg req)))⟩
    have hfree₁ := swapFree_of_reads (h₁.uses (uses_of_silently (validateRotation_uses cfg req)))
    rcases hexit.of_bind with hexit | ⟨es₂, es', oldPair, rfl, h₂, hexit⟩
    · exact ⟨hlookup _ _ hexit,
        hfree₁.append (swapFree_of_reads (hexit.uses (uses_of_silently (lookupOldPair_uses cfg req))))⟩
    have hfree₂ := swapFree_of_reads (h₂.uses (uses_of_silently (lookupOldPair_uses cfg req)))
    rcases hexit.of_bind with hexit | ⟨es₃, es', payload, rfl, h₃, hexit⟩
    · exact ⟨hverify oldPair _ _ hexit, hfree₁.append (hfree₂.append
        (swapFree_of_reads (hexit.uses (uses_of_silently (verifyRotationPayload_uses cfg req oldPair)))))⟩
    have hfree₃ := swapFree_of_reads (h₃.uses (uses_of_silently (verifyRotationPayload_uses cfg req oldPair)))
    rcases hexit.of_bind with hexit | ⟨es₄, es', u', rfl, h₄, hexit⟩
    · exact ⟨hbind payload _ _ hexit, hfree₁.append (hfree₂.append (hfree₃.append
        (swapFree_of_reads (hexit.uses (uses_of_silently (bindRotationPayload_uses cfg req payload))))))⟩
    have hfree₄ := swapFree_of_reads (h₄.uses (uses_of_silently (bindRotationPayload_uses cfg req payload)))
    rcases hexit.of_bind with hexit | ⟨es₅, es₆, newPairId, rfl, -, hexit⟩
    · obtain ⟨hres, hfree₅⟩ := commitRotation_exits hexit
      exact ⟨hres, hfree₁.append (hfree₂.append (hfree₃.append (hfree₄.append hfree₅)))⟩
    -- the audit behind the commit throws or goes on
    rcases hexit.of_bind with hexit | ⟨es₇, es₈, u'', rfl, -, hexit⟩
    · exact absurd hexit Stage.not_exits_await
    · exact absurd hexit Stage.not_exits_pure

end Traces

/-! ## One swap -/

/-- A swap carried out has found the old pair in use, and the new one in the state and under the
    policy it must have. -/
theorem PairEffect.of_swap {s s' : MemoryPairStore} {expectedOld replacement : StoredPair}
    (h : PairEffect s (.rotatePair expectedOld replacement) true s') :
    ∃ current, s.pairs.get expectedOld.id = some current ∧ current.status = .active ∧
      RotationPolicyHolds current replacement ∧ s.pairs.get replacement.id = none ∧
      s' = (s.setPair current.id (current.withStatus .rotated)).setPair replacement.id
        replacement := by
  cases h with
  | keep hx hpairs => exact absurd rfl hx
  | retire hx hget hactive hstatus => exact absurd rfl hx
  | rotate hget hactive hinitial hpolicy hnew => exact ⟨_, hget, hactive, hpolicy, hnew, rfl⟩

/-- A swap not carried out leaves the store as it is. -/
theorem MemoryPairStore.rotatePair_of_false {s : MemoryPairStore}
    {expectedOld replacement : StoredPair}
    (h : (s.rotatePair expectedOld replacement).1 = false) :
    (s.rotatePair expectedOld replacement).2 = s := by
  unfold rotatePair at h ⊢
  split at h
  · rfl
  · split at h
    · cases h
    · next hrotates => rw [if_neg hrotates]

/-- The store after an operation. -/
def ServerOp.after (s : MemoryPairStore) : ServerOp → MemoryPairStore
  | .store o => (s.run o).2
  | _ => s

theorem ServerExec.store_eq {crypto : Crypto} {s s' : ServerState} {o : ServerOp} {x : o.Answer}
    (h : ServerExec crypto s o x s') : s'.store = o.after s.store := by
  cases h with
  | _ => rfl

theorem ServerExec.answer_eq {crypto : Crypto} {s s' : ServerState} {o : StoreOp} {x : o.Answer}
    (h : ServerExec crypto s (.store o) x s') : x = (s.store.run o).1 := by
  cases h
  rfl

/-- What is logged as a swap has had the effect of one. -/
theorem ServerExec.of_swap {crypto : Crypto} {s s' : ServerState}
    {expectedOld replacement : StoredPair}
    (h : ServerExec crypto s (.store (.rotatePair expectedOld replacement)) true s') :
    PairEffect s.store (.rotatePair expectedOld replacement) true s'.store := by
  have heffect := s.store.run_effect (.rotatePair expectedOld replacement)
  rw [← h.answer_eq] at heffect
  rw [h.store_eq]
  exact heffect

/-- An operation of a rotation that is not a swap carried out leaves the store as it is. -/
theorem ServerExec.of_swapFree {crypto : Crypto} {s s' : ServerState} {o : ServerOp} {x : o.Answer}
    (h : ServerExec crypto s o x s') (ho : o.OfRotation)
    (hfree : ∀ expectedOld replacement, (⟨o, x⟩ : Made ServerOp ServerOp.Answer) ≠
      swap expectedOld replacement) : s'.store = s.store := by
  cases h with
  | store so =>
      cases so with
      | get pairId => rfl
      | rotatePair expectedOld replacement =>
          refine MemoryPairStore.rotatePair_of_false (Bool.eq_false_iff.mpr fun htrue => ?_)
          exact hfree expectedOld replacement (congrArg _ htrue)
      | _ => exact ho.elim
  | _ => rfl

/-! ## Lineage -/

section Lineage

variable {registry : RegistryConfig} {crypto : Crypto} {ι : Type} [DecidableEq ι]
  {cfg : ServerConfig ι}

abbrev ServerEntry (ι : Type) := Entry ι ServerOp ServerOp.Answer ServerState

/-- The entry is a rotation of the pair `a` into the pair `b`. -/
def Swaps (e : ServerEntry ι) (a b : JsString) : Prop :=
  ∃ expectedOld replacement, e.made = swap expectedOld replacement ∧ expectedOld.id = a ∧
    replacement.id = b

/-- The pair `a` has been rotated into the pair `b`. -/
def RotatedInto (log : List (ServerEntry ι)) (a b : JsString) : Prop :=
  ∃ e ∈ log, Swaps e a b

/-- The pair `b` is the pair `a` or has come from it by rotations. -/
def Descends (log : List (ServerEntry ι)) : JsString → JsString → Prop :=
  Relation.ReflTransGen (RotatedInto log)

/-- Whoever has been rotated is out of use, and no one is rotated twice. -/
structure LineageInv (cfg : ServerConfig ι) : Prop where
  ended : ∀ a b, RotatedInto cfg.log a b →
    ∃ p, cfg.shared.store.pairs.get a = some p ∧ p.status.Ended
  once : cfg.log.Pairwise fun e e' => ∀ a b b', Swaps e a b → ¬Swaps e' a b'

/-- A pair out of use stays there over one step. -/
theorem StoreLe.ended {s s' : MemoryPairStore} (h : StoreLe s s') {k : JsString}
    (hk : ∃ p, s.pairs.get k = some p ∧ p.status.Ended) :
    ∃ p, s'.pairs.get k = some p ∧ p.status.Ended := by
  obtain ⟨p, hp, hended⟩ := hk
  obtain ⟨p', hp', hlife⟩ := h k p hp
  exact ⟨p', hp', hlife.ended hended⟩

omit [DecidableEq ι] in
/-- A rotation finds the pair in use and leaves it out of use. -/
theorem Swaps.ended {i : ι} {o : ServerOp} {x : o.Answer} {s s' : ServerState} {a b : JsString}
    (h : Swaps ⟨i, ⟨o, x⟩, s⟩ a b) (hinv : StoreInv s.store) (hexec : ServerExec crypto s o x s') :
    (∃ p, s.store.pairs.get a = some p ∧ p.status = .active) ∧
      ∃ p, s'.store.pairs.get a = some p ∧ p.status.Ended := by
  obtain ⟨expectedOld, replacement, hmade, rfl, rfl⟩ := h
  cases hmade
  obtain ⟨current, hget, hactive, -, hnew, hs'⟩ := hexec.of_swap.of_swap
  have hid : current.id = expectedOld.id := hinv.keyed _ current hget
  refine ⟨⟨current, hget, hactive⟩, current.withStatus .rotated, ?_, trivial⟩
  have hne : expectedOld.id ≠ replacement.id := by
    intro heq
    rw [← heq, hget] at hnew
    cases hnew
  rw [hs', hid]
  exact (OrderedMap.get_set_of_ne _ hne _).trans (OrderedMap.get_set_self _ _ _)

theorem lineageInv_of_reachable
    (h : Transition.Reachable ((serverService registry crypto).system ι) cfg) :
    LineageInv cfg := by
  refine Transition.Reachable.invariant (I := LineageInv) ?_ ?_ h
  · rintro cfg ⟨-, -, hlog⟩
    constructor
    · rintro a b ⟨e, he, -⟩
      rw [hlog] at he
      cases he
    · rw [hlog]
      exact .nil
  · intro cfg cfg' hreach hinv hstep
    have hstore := storeInv_of_reachable hreach
    have hle := storeLe_of_step hreach hstep
    cases hstep with
    | start i r hadm hi => exact ⟨hinv.ended, hinv.once⟩
    | env s hs => exact ⟨fun a b hab => hle.ended (hinv.ended a b hab), hinv.once⟩
    | exec i r o k x s hi hexec =>
        constructor
        · rintro a b ⟨e, he, hswaps⟩
          rcases List.mem_append.mp he with he | he
          · exact hle.ended (hinv.ended a b ⟨e, he, hswaps⟩)
          · rw [List.mem_singleton.mp he] at hswaps
            exact (hswaps.ended hstore hexec).2
        · refine List.pairwise_append.mpr ⟨hinv.once, List.pairwise_singleton _ _, ?_⟩
          intro e he e' he' a b b' hswaps hswaps'
          rw [List.mem_singleton.mp he'] at hswaps'
          -- the pair would have to be in use after its first rotation
          obtain ⟨p, hp, hended⟩ := hinv.ended a b ⟨e, he, hswaps⟩
          obtain ⟨⟨q, hq, hactive⟩, -⟩ := hswaps'.ended hstore hexec
          rw [hp] at hq
          cases hq
          rw [hactive] at hended
          exact hended

omit [DecidableEq ι] in
/-- A pair is rotated once, into one pair. -/
theorem LineageInv.unique (hinv : LineageInv cfg) {e e' : ServerEntry ι} (he : e ∈ cfg.log)
    (he' : e' ∈ cfg.log) {a b b' : JsString} (h : Swaps e a b) (h' : Swaps e' a b') : e = e' := by
  by_contra hne
  have hsymm : Std.Symm fun e e' : ServerEntry ι => ∀ a b b', Swaps e a b → ¬Swaps e' a b' :=
    ⟨fun e e' hee' a b b' hb hb' => hee' a b' b hb' hb⟩
  exact hinv.once.forall he he' hne a b b' h h'

omit [DecidableEq ι] in
/-- Two descendants of one pair that are both in use are the same. -/
theorem LineageInv.active_unique (hinv : LineageInv cfg) {a b c : JsString} {p q : StoredPair}
    (hb : Descends cfg.log a b) (hc : Descends cfg.log a c)
    (hp : cfg.shared.store.pairs.get b = some p) (hq : cfg.shared.store.pairs.get c = some q)
    (hactive : p.status = .active) (hactive' : q.status = .active) : b = c := by
  have hunique : Relator.RightUnique (RotatedInto cfg.log) := by
    rintro x y z ⟨e, he, hswaps⟩ ⟨e', he', hswaps'⟩
    obtain rfl := hinv.unique he he' hswaps hswaps'
    obtain ⟨expectedOld, replacement, hmade, -, rfl⟩ := hswaps
    obtain ⟨expectedOld', replacement', hmade', -, rfl⟩ := hswaps'
    rw [hmade] at hmade'
    cases hmade'
    rfl
  -- whoever is active has not been rotated, and descends to itself alone
  have hlast : ∀ {x y : JsString} {r : StoredPair}, Descends cfg.log x y →
      cfg.shared.store.pairs.get x = some r → r.status = .active → x = y := by
    intro x y r hxy hr hstatus
    rcases hxy.cases_head with heq | ⟨z, hxz, -⟩
    · exact heq
    · obtain ⟨r', hr', hended⟩ := hinv.ended x z hxz
      rw [hr] at hr'
      cases hr'
      rw [hstatus] at hended
      exact hended.elim
  rcases Relation.ReflTransGen.total_of_right_unique hunique hb hc with hbc | hcb
  · exact hlast hbc hp hactive
  · exact (hlast hcb hq hactive').symm

/-- The call `i` is a rotation of the pair `pairId` that has returned `res`. -/
def RotationReturned (cfg : ServerConfig ι) (i : ι) (pairId : JsString) (res : RotationResult) :
    Prop :=
  ∃ rotationCfg req, cfg.calls i = some ⟨.handleRotation rotationCfg req, .ret (.rotation res)⟩ ∧
    req.oldPairId = pairId

/-- What a replacement takes over from the old pair. -/
structure Inherits (oldPair replacement : StoredPair) : Prop where
  name : replacement.name = oldPair.name
  scope : replacement.scope = oldPair.scope
  mode : replacement.mode = oldPair.mode
  secretHash : replacement.secretHash = oldPair.secretHash
  expiresAt : replacement.expiresAt = oldPair.expiresAt
  maxRequests : replacement.maxRequests = oldPair.maxRequests
  kind : replacement.kind = oldPair.kind
  canaryClass : replacement.canaryClass = oldPair.canaryClass

/-- What a rotation that has returned did, by its result. -/
theorem RotationReturned.trace
    (hreach : Transition.Reachable ((serverService registry crypto).system ι) cfg) {i : ι}
    {pairId : JsString} {res : RotationResult} (h : RotationReturned cfg i pairId res) :
    (res.ok = false ∧ SwapFree (ownTrace i cfg.log)) ∧
        (∀ e ∈ ownTrace i cfg.log, e.1.OfRotation) ∨
      ∃ es₁ es₂ es₃ oldPair req newPairId created,
        ownTrace i cfg.log = es₁ ++ ⟨.store (.get pairId), some oldPair⟩ ::
          (es₂ ++ swap oldPair (rotatedPair oldPair req newPairId created) :: es₃) ∧
        res.ok = true ∧ res.newPairId = some newPairId := by
  obtain ⟨rotationCfg, req, hi, rfl⟩ := h
  obtain ⟨-, htrace⟩ := (Service.trace_of_reachable hreach i).1 _ _ hi
  obtain ⟨es₁, es₂, res', heq, hrotation, hres⟩ := Trace.of_bind htrace
  obtain ⟨rfl, hres⟩ := trace_ret.mp hres
  cases hres
  rw [heq, List.append_nil]
  rcases handleRotation_trace hrotation with hfailed | ⟨es₁', es₂, es₃, oldPair, id, created, hok⟩
  · exact Or.inl ⟨hfailed, (Trace.uses hrotation (uses_of_silently (handleRotation_uses rotationCfg req))).1⟩
  · exact Or.inr ⟨es₁', es₂, es₃, oldPair, req, id, created, hok⟩

/-- A rotation that has succeeded made one swap, and the new pair took over what the old one had
    at that moment. -/
theorem RotationReturned.inherits
    (hreach : Transition.Reachable ((serverService registry crypto).system ι) cfg) {i : ι}
    {pairId : JsString} {res : RotationResult} (h : RotationReturned cfg i pairId res)
    (hok : res.ok = true) :
    ∃ e ∈ cfg.log, e.call = i ∧ ∃ newPairId current replacement,
      res.newPairId = some newPairId ∧ Swaps e pairId newPairId ∧
      e.state.store.pairs.get pairId = some current ∧
      (e.made.1.after e.state.store).pairs.get newPairId = some replacement ∧
      Inherits current replacement := by
  rcases h.trace hreach with ⟨⟨hfailed, -⟩, -⟩ | ⟨es₁, es₂, es₃, oldPair, req, id, created, hown, -, hid⟩
  · rw [hok] at hfailed
    cases hfailed
  obtain ⟨e, e', hsub, -, hmade, hcall', hmade'⟩ := exists_entries hown
  have he : e ∈ cfg.log := hsub.subset (by simp)
  have he' : e' ∈ cfg.log := hsub.subset (by simp)
  -- the store has only moved on between the two operations
  have hmono := Service.log_monotone (I := fun s => StoreInv s.store)
    (R := fun s t => StoreLe s.store t.store) (fun _ h => storeInv_of_reachable h)
    (fun _ _ _ => StoreLe.trans) (fun _ _ _ _ hinv hexec => (ServerExec.lifecycle hexec hinv).2)
    (fun s t _ ⟨now, ht⟩ => by rw [ht]; exact .refl _) hreach
  have hle : StoreLe e.state.store e'.state.store := hmono.1.forall_sublist hsub
  have hinv := (hmono.2 e he).2
  obtain ⟨t, hexec⟩ := Service.exec_of_reachable hreach e he
  obtain ⟨t', hexec'⟩ := Service.exec_of_reachable hreach e' he'
  rw [hmade] at hexec
  rw [hmade'] at hexec'
  have hold : e.state.store.pairs.get pairId = some oldPair := (hexec.answer_eq).symm
  obtain rfl := hinv.keyed _ _ hold
  obtain ⟨current, hcurrent, -, hpolicy, -, ht'⟩ := hexec'.of_swap.of_swap
  obtain ⟨current', hcurrent', hlife⟩ := hle _ _ hold
  rw [hcurrent] at hcurrent'
  cases hcurrent'
  refine ⟨e', he', hcall', id, current, rotatedPair oldPair req id created, hid,
    ⟨_, _, hmade', rfl, rfl⟩, hcurrent, ?_, ?_⟩
  · rw [hmade']
    have hafter := hexec'.store_eq
    rw [← hafter, ht']
    exact OrderedMap.get_set_self _ _ _
  · exact
      { name := hpolicy.name
        scope := hpolicy.scope
        mode := hpolicy.mode
        secretHash := hpolicy.secretHash
        expiresAt := hpolicy.expiresAt
        maxRequests := hpolicy.maxRequests
        kind := hlife.kind.symm
        canaryClass := hpolicy.canaryClass }

/-- A rotation that has failed changed no pair. -/
theorem RotationReturned.unchanged
    (hreach : Transition.Reachable ((serverService registry crypto).system ι) cfg) {i : ι}
    {pairId : JsString} {res : RotationResult} (h : RotationReturned cfg i pairId res)
    (hfailed : res.ok = false) {e : ServerEntry ι} (he : e ∈ cfg.log) (hcall : e.call = i) :
    (e.made.1.after e.state.store).pairs = e.state.store.pairs := by
  rcases h.trace hreach with ⟨⟨-, hfree⟩, huses⟩ | ⟨_, _, _, _, _, _, _, -, hok, -⟩
  · have hmem := mem_ownTrace he hcall
    obtain ⟨t, hexec⟩ := Service.exec_of_reachable hreach e he
    rw [← hexec.store_eq, hexec.of_swapFree (huses _ hmem) fun a b heq => hfree a b (heq ▸ hmem)]
  · rw [hfailed] at hok
    cases hok

end Lineage

/-- A request to rotate the first pair, signed. -/
def sampleRotation : RotationRequest where
  oldPairId := Js.lit "pair_0"
  newPubJwk := ⟨.object
    [(Js.lit "kty", .string (Js.lit "OKP")), (Js.lit "crv", .string (Js.lit "Ed25519")),
      (Js.lit "x", .string (Js.lit "x"))], rfl⟩
  signature := Js.lit "signature"
  signedData :=
    Js.lit "eyJwdXJwb3NlIjoicm90YXRpb24iLCJvbGRf" ++ Js.lit "cGFpcl9pZCI6InBhaXJfMCIsInRpbWVzdGFt" ++
      Js.lit "cCI6MCwibmV3X3B1Yl9qd2tfanNvbiI6Intc" ++ Js.lit "Imt0eVwiOlwiT0tQXCIsXCJjcnZcIjpcIkVk" ++
      Js.lit "MjU1MTlcIixcInhcIjpcInhcIn0ifQ"
  timestamp := .fin 0

/-- A pair, rotated twice: the second time in vain. -/
def rotatedRun : ServerConfig ℕ :=
  (ServerConfig.start 0).serve ⟨.fin 9, .fin 9⟩ .agreeing 0
    [.registerDirect (sampleRegistration "sample" none),
      .handleRotation ⟨.fin 30000, false⟩ sampleRotation,
      .handleRotation ⟨.fin 30000, false⟩ sampleRotation]

/-- The result of a rotation that has returned, with the pair it was about. -/
def returnedRotation
    (call : Call ServerRequest ServerOp ServerOp.Answer ServerError ServerResult) :
    Option (JsString × RotationResult) :=
  match call.req, call.rest with
  | .handleRotation _ req, .ret (.rotation res) => some (req.oldPairId, res)
  | _, _ => none

theorem rotationReturned_of_eq {cfg : ServerConfig ℕ} {i : ℕ} {pairId : JsString}
    {res : RotationResult} (h : (cfg.calls i).bind returnedRotation = some (pairId, res)) :
    RotationReturned cfg i pairId res := by
  obtain ⟨⟨req, rest⟩, hi, hcall⟩ := Option.bind_eq_some_iff.mp h
  unfold returnedRotation at hcall
  split at hcall
  · next hreq hrest =>
      subst hreq hrest
      cases hcall
      exact ⟨_, _, hi, rfl⟩
  · cases hcall

end Pair
