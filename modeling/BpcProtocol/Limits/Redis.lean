import BpcProtocol.Limits.Memory
import BpcProtocol.Lib.Transition

set_option autoImplicit false

/-! # The rate limiter in Redis

`RedisRateLimiter` keeps the calls of a window in a sorted set. A check is four commands, and other
checks of the key may act between any two of them; the set itself expires some time after the last
check that has armed it. Within a window no more checks are allowed than the limit as long as no check
counts a set that has lost a call of its window, or adds to a set that has grown too large since. -/

namespace Limits

/-! ## The sorted set -/

/-- A key that holds a sorted set: members with their scores, and when the key expires. -/
structure SortedSet where
  members : List (JsString × ℤ)
  expiresAt : Option ℤ

namespace SortedSet

def empty : SortedSet := ⟨[], none⟩

variable (z : SortedSet)

/-- What a command finds at `clock`. -/
def at_ (clock : ℤ) : SortedSet :=
  if z.expiresAt.any (fun e => decide (e < clock)) then empty else z

/-- A set without members does not exist. -/
def normal : SortedSet :=
  if z.members.isEmpty then empty else z

/-- `ZREMRANGEBYSCORE key -inf max`. -/
def zremrangebyscore (max : ℤ) : SortedSet :=
  normal { z with members := z.members.filter fun m => decide (max < m.2) }

/-- `ZADD key score member`. -/
def zadd (score : ℤ) (member : JsString) : SortedSet :=
  if z.members.any (fun m => m.1 == member) then
    { z with members := z.members.map fun m => if m.1 == member then (member, score) else m }
  else { z with members := z.members ++ [(member, score)] }

/-- `EXPIRE key seconds`. -/
def expire (clock seconds : ℤ) : SortedSet :=
  if z.members.isEmpty then z
  else if seconds ≤ 0 then empty
  else { z with expiresAt := some (clock + seconds * 1000) }

end SortedSet

/-! ## Checks -/

/-- How far a check has come: it has read the clock, removed what has expired, counted, added itself,
    or returned. -/
inductive Phase where
  | started (now : ℤ)
  | cleaned (now : ℤ)
  | counted (now : ℤ) (count : ℕ)
  | added (now : ℤ) (count : ℕ)
  | returned (now : ℤ) (result : RateLimitResult)
  deriving DecidableEq

/-- A command that changed or counted the set, with the check that sent it. -/
inductive Command (ι : Type) where
  | zremrangebyscore (i : ι) (max : ℤ)
  | zcard (i : ι) (count : ℕ)
  | zadd (i : ι) (score : ℤ) (member : JsString)
  | expire (i : ι) (seconds : ℤ)

/-- The clock, the set under `fullKey`, the checks, the identifiers that `randomUUID` has made, and
    the commands so far. -/
structure RateState (ι : Type) where
  clock : ℤ
  set : SortedSet
  calls : ι → Option Phase
  issued : List JsString
  log : List (Command ι)

/-- What can happen: time passes, a check starts, or it sends its next command. -/
inductive RateEvent (ι : Type) where
  | tick (clock : ℤ)
  | start (i : ι)
  | clean (i : ι) (now : ℤ)
  | count (i : ι) (now : ℤ)
  | add (i : ι) (now : ℤ) (count : ℕ) (uuid : JsString)
  | arm (i : ι) (now : ℤ) (count : ℕ)

/-- `RedisRateLimiter`: its limit and its window in whole milliseconds. -/
structure RedisRateLimiter where
  limit : ℕ
  windowMs : ℤ

namespace RedisRateLimiter

variable {ι : Type} [DecidableEq ι] (r : RedisRateLimiter)

/-- `${now}-${randomUUID()}`. -/
def member (now : ℤ) (uuid : JsString) : JsString :=
  Js.decimal now ++ Js.lit "-" ++ uuid

/-- `Math.ceil(this.windowMs / 1000) + 1`. -/
def seconds : ℤ :=
  -(-r.windowMs / 1000) + 1

/-- Where a check goes on with what it has counted. -/
def afterCount (now : ℤ) (count : ℕ) : Phase :=
  if r.limit ≤ count then .returned now ⟨false, 0, now + r.windowMs⟩ else .counted now count

def Enabled (s : RateState ι) : RateEvent ι → Prop
  | .tick clock => s.clock ≤ clock
  | .start i => s.calls i = none
  | .clean i now => s.calls i = some (.started now)
  | .count i now => s.calls i = some (.cleaned now)
  | .add i now count uuid =>
      s.calls i = some (.counted now count) ∧ uuid.length = 36 ∧ uuid ∉ s.issued
  | .arm i now count => s.calls i = some (.added now count)

/-- The check `i` is now in `phase`. -/
def proceed (s : RateState ι) (i : ι) (phase : Phase) : ι → Option Phase :=
  Function.update s.calls i (some phase)

/-- `check(key)`, command by command. -/
def next (s : RateState ι) : RateEvent ι → RateState ι
  | .tick clock => { s with clock }
  | .start i => { s with calls := proceed s i (.started s.clock) }
  | .clean i now =>
      { s with
        set := (s.set.at_ s.clock).zremrangebyscore (now - r.windowMs)
        calls := proceed s i (.cleaned now)
        log := s.log ++ [.zremrangebyscore i (now - r.windowMs)] }
  | .count i now =>
      { s with
        set := s.set.at_ s.clock
        calls := proceed s i (r.afterCount now (s.set.at_ s.clock).members.length)
        log := s.log ++ [.zcard i (s.set.at_ s.clock).members.length] }
  | .add i now count uuid =>
      { s with
        set := (s.set.at_ s.clock).zadd now (member now uuid)
        calls := proceed s i (.added now count)
        issued := uuid :: s.issued
        log := s.log ++ [.zadd i now (member now uuid)] }
  | .arm i now count =>
      { s with
        set := (s.set.at_ s.clock).expire s.clock r.seconds
        calls := proceed s i (.returned now ⟨true, r.limit - count - 1, now + r.windowMs⟩)
        log := s.log ++ [.expire i r.seconds] }

/-! ## The history -/

/-- The call, the score and the member of a `ZADD`. -/
def addition : Command ι → Option (ι × ℤ × JsString)
  | .zadd i score member => some (i, score, member)
  | _ => none

/-- Everything that was added. -/
def additions (log : List (Command ι)) : List (ι × ℤ × JsString) :=
  log.filterMap addition

/-- Whether a command is the count of the check `i`. -/
def countsFor (i : ι) : Command ι → Bool
  | .zcard j _ => decide (j = i)
  | _ => false

/-- Less than a window lies between `now` and a score. -/
def near (now score : ℤ) : Bool :=
  decide (now - r.windowMs < score) && decide (score < now + r.windowMs)

/-- How much has been added near `now` since the check `i` has counted. -/
def addedSince (i : ι) (now : ℤ) (log : List (Command ι)) : ℕ :=
  (additions (log.reverse.takeWhile fun c => !countsFor i c)).countP fun a => r.near now a.2.1

/-- The set holds every addition near `now`. -/
def HoldsWindow (s : RateState ι) (now : ℤ) : Prop :=
  ∀ a ∈ additions s.log, r.near now a.2.1 = true → (a.2.2, a.2.1) ∈ (s.set.at_ s.clock).members

/-- A check counts a set that holds every addition near it, and with what has been added near it
    since, its count is below the limit when it adds itself. -/
def Undisturbed (s : RateState ι) : RateEvent ι → Prop
  | .count _ now => r.HoldsWindow s now
  | .add i now count _ => count + r.addedSince i now s.log < r.limit
  | _ => True

/-- The runs whose events all satisfy `cond`. -/
def system (cond : RateState ι → RateEvent ι → Prop) : Transition.System (RateState ι) where
  init s := s.set = .empty ∧ (∀ i, s.calls i = none) ∧ s.issued = [] ∧ s.log = []
  next s t := ∃ e, Enabled s e ∧ cond s e ∧ t = r.next s e

variable {r} {s : RateState ι} {i j : ι} {now : ℤ} {c : Command ι} {log : List (Command ι)}

omit [DecidableEq ι] in
theorem additions_concat : additions (log ++ [c]) = additions log ++ (addition c).toList := by
  cases h : addition c <;> simp [additions, h]

theorem addedSince_count (count : ℕ) : r.addedSince i now (log ++ [.zcard i count]) = 0 := by
  simp [addedSince, countsFor, additions]

/-- A command other than the count of the check adds what it adds. -/
theorem addedSince_concat (h : countsFor i c = false) :
    r.addedSince i now (log ++ [c]) =
      r.addedSince i now log + (addition c).toList.countP fun a => r.near now a.2.1 := by
  have hreverse : (log ++ [c]).reverse = c :: log.reverse := by simp
  rw [addedSince, hreverse, List.takeWhile_cons_of_pos (by simp [h]), addedSince]
  cases hadd : addition c with
  | none => simp [additions, hadd]
  | some a => simp [additions, hadd, List.countP_cons]

/-- A command that adds nothing, and is not the count of the check. -/
theorem addedSince_of_not_addition (h : countsFor i c = false) (hadd : addition c = none) :
    r.addedSince i now (log ++ [c]) = r.addedSince i now log := by
  rw [addedSince_concat h, hadd]
  rfl

theorem proceed_eq_some {phase phase' : Phase} (h : proceed s i phase j = some phase') :
    j = i ∧ phase' = phase ∨ j ≠ i ∧ s.calls j = some phase' := by
  by_cases hj : j = i
  · subst hj
    rw [proceed, Function.update_self, Option.some.injEq] at h
    exact .inl ⟨rfl, h.symm⟩
  · rw [proceed, Function.update_of_ne hj] at h
    exact .inr ⟨hj, h⟩

/-- Two members of different identifiers differ. -/
theorem member_injective {now now' : ℤ} {uuid uuid' : JsString} (hlength : uuid.length = uuid'.length)
    (h : member now uuid = member now' uuid') : uuid = uuid' :=
  List.append_inj_right' h hlength

/-! ## What a run keeps -/

/-- Every addition has an identifier of its own, and every check that is past its addition has one. -/
structure Recorded (s : RateState ι) : Prop where
  issued : ∀ a ∈ additions s.log, ∃ uuid ∈ s.issued, uuid.length = 36 ∧
    a.2.2 = member a.2.1 uuid
  nodup : ((additions s.log).map fun a => a.2.2).Nodup
  added : ∀ i now count, s.calls i = some (.added now count) →
    ∃ m, (i, now, m) ∈ additions s.log
  allowed : ∀ i now result, s.calls i = some (.returned now result) → result.allowed = true →
    ∃ m, (i, now, m) ∈ additions s.log

omit [DecidableEq ι] in
/-- An event that adds nothing keeps the record, if the checks it moves on are recorded. -/
theorem Recorded.of_same {t : RateState ι} (h : Recorded s) (hissued : t.issued = s.issued)
    (hlog : additions t.log = additions s.log)
    (hadded : ∀ i now count, t.calls i = some (.added now count) →
      s.calls i = some (.added now count))
    (hallowed : ∀ i now result, t.calls i = some (.returned now result) → result.allowed = true →
      s.calls i = some (.returned now result) ∨ ∃ count, s.calls i = some (.added now count)) :
    Recorded t where
  issued a ha := by
    rw [hlog] at ha
    rw [hissued]
    exact h.issued a ha
  nodup := by
    rw [hlog]
    exact h.nodup
  added i now count hi := by
    rw [hlog]
    exact h.added i now count (hadded i now count hi)
  allowed i now result hi hresult := by
    rw [hlog]
    rcases hallowed i now result hi hresult with hi | ⟨count, hi⟩
    · exact h.allowed i now result hi hresult
    · exact h.added i now count hi

theorem Recorded.next (h : Recorded s) {e : RateEvent ι} (he : Enabled s e) :
    Recorded (r.next s e) := by
  cases e with
  | tick clock => exact h.of_same rfl rfl (fun _ _ _ hi => hi) fun _ _ _ hi _ => .inl hi
  | start i =>
      refine h.of_same rfl rfl (fun j now count hj => ?_) fun j now result hj _ => ?_
      · rcases proceed_eq_some hj with ⟨-, heq⟩ | ⟨-, hj⟩
        · cases heq
        · exact hj
      · rcases proceed_eq_some hj with ⟨-, heq⟩ | ⟨-, hj⟩
        · cases heq
        · exact .inl hj
  | clean i now =>
      refine h.of_same rfl (additions_concat.trans (List.append_nil _)) (fun j now count hj => ?_)
        fun j now result hj _ => ?_
      · rcases proceed_eq_some hj with ⟨-, heq⟩ | ⟨-, hj⟩
        · cases heq
        · exact hj
      · rcases proceed_eq_some hj with ⟨-, heq⟩ | ⟨-, hj⟩
        · cases heq
        · exact .inl hj
  | count i now =>
      refine h.of_same rfl (additions_concat.trans (List.append_nil _)) (fun j now count hj => ?_)
        fun j now result hj hresult => ?_
      · rcases proceed_eq_some hj with ⟨-, heq⟩ | ⟨-, hj⟩
        · unfold afterCount at heq
          split at heq <;> cases heq
        · exact hj
      · rcases proceed_eq_some hj with ⟨-, heq⟩ | ⟨-, hj⟩
        · unfold afterCount at heq
          split at heq
          · cases heq
            cases hresult
          · cases heq
        · exact .inl hj
  | arm i now count =>
      refine h.of_same rfl (additions_concat.trans (List.append_nil _)) (fun j now count hj => ?_)
        fun j now result hj _ => ?_
      · rcases proceed_eq_some hj with ⟨-, heq⟩ | ⟨-, hj⟩
        · cases heq
        · exact hj
      · rcases proceed_eq_some hj with ⟨rfl, heq⟩ | ⟨-, hj⟩
        · cases heq
          exact .inr ⟨count, he⟩
        · exact .inl hj
  | add i now count uuid =>
      obtain ⟨hi, hlength, hfresh⟩ := he
      have hadd : additions (r.next s (.add i now count uuid)).log =
          additions s.log ++ [(i, now, member now uuid)] := additions_concat
      have hnew : member now uuid ∉ (additions s.log).map fun a => a.2.2 := by
        intro hmem
        obtain ⟨a, ha, heq⟩ := List.mem_map.mp hmem
        obtain ⟨uuid', hissued, hlength', hmember⟩ := h.issued a ha
        rw [hmember] at heq
        rw [member_injective (hlength'.trans hlength.symm) heq] at hissued
        exact hfresh hissued
      refine ⟨fun a ha => ?_, ?_, fun j now' count' hj => ?_, fun j now' result hj hresult => ?_⟩
      · rw [hadd, List.mem_append, List.mem_singleton] at ha
        rcases ha with ha | rfl
        · obtain ⟨uuid', hissued, hrest⟩ := h.issued a ha
          exact ⟨uuid', List.mem_cons_of_mem _ hissued, hrest⟩
        · exact ⟨uuid, List.mem_cons_self, hlength, rfl⟩
      · rw [hadd, List.map_append, List.nodup_append]
        refine ⟨h.nodup, List.nodup_singleton _, ?_⟩
        intro m hm m' hm' heq
        rw [List.map_singleton, List.mem_singleton] at hm'
        rw [heq, hm'] at hm
        exact hnew hm
      · rw [hadd]
        rcases proceed_eq_some hj with ⟨rfl, heq⟩ | ⟨-, hj⟩
        · cases heq
          exact ⟨_, List.mem_append_right _ List.mem_cons_self⟩
        · obtain ⟨m, hm⟩ := h.added j now' count' hj
          exact ⟨m, List.mem_append_left _ hm⟩
      · rw [hadd]
        rcases proceed_eq_some hj with ⟨rfl, heq⟩ | ⟨-, hj⟩
        · cases heq
        · obtain ⟨m, hm⟩ := h.allowed j now' result hj hresult
          exact ⟨m, List.mem_append_left _ hm⟩

theorem recorded_init {cond : RateState ι → RateEvent ι → Prop} (h : (r.system cond).init s) :
    Recorded s := by
  obtain ⟨-, hcalls, -, hlog⟩ := h
  refine ⟨?_, ?_, ?_, ?_⟩
  · rw [hlog]
    exact fun a ha => nomatch ha
  · rw [hlog]
    exact List.nodup_nil
  · intro i now count hi
    rw [hcalls] at hi
    cases hi
  · intro i now result hi
    rw [hcalls] at hi
    cases hi

/-! ## The bound -/

/-- The additions of the window from `start` on. -/
def within (r : RedisRateLimiter) (start : ℤ) (log : List (Command ι)) : List (ι × ℤ × JsString) :=
  (additions log).filter fun a => decide (start ≤ a.2.1 ∧ a.2.1 < start + r.windowMs)

/-- The window holds no more than the limit, and a check in it that has counted, together with what
    was added since, knows of all its additions. -/
structure Bounded (r : RedisRateLimiter) (start : ℤ) (s : RateState ι) : Prop where
  bound : (within r start s.log).length ≤ r.limit
  counted : ∀ i now count, s.calls i = some (.counted now count) → start ≤ now →
    now < start + r.windowMs → (within r start s.log).length ≤ count + r.addedSince i now s.log

variable {start : ℤ}

omit [DecidableEq ι] in
theorem within_concat :
    within r start (log ++ [c]) = within r start log ++
      (addition c).toList.filter fun a => decide (start ≤ a.2.1 ∧ a.2.1 < start + r.windowMs) := by
  rw [within, additions_concat, List.filter_append]
  rfl

omit [DecidableEq ι] in
theorem within_of_not_addition (h : addition c = none) :
    within r start (log ++ [c]) = within r start log := by
  rw [within_concat, h]
  exact List.append_nil _

/-- All of a window is near to any moment of it. -/
theorem near_of_within {score : ℤ} (hstart : start ≤ now) (hend : now < start + r.windowMs)
    (h : start ≤ score ∧ score < start + r.windowMs) : r.near now score = true := by
  rw [near, Bool.and_eq_true, decide_eq_true_eq, decide_eq_true_eq]
  omega

omit [DecidableEq ι] in
/-- A check that counts a set which holds what is near it counts every addition of a window that it
    is in. -/
theorem within_le_card (h : Recorded s) (hholds : r.HoldsWindow s now) (hstart : start ≤ now)
    (hnow : now < start + r.windowMs) :
    (within r start s.log).length ≤ (s.set.at_ s.clock).members.length := by
  have hnodup : ((within r start s.log).map fun a => (a.2.2, a.2.1)).Nodup := by
    have hsub : ((within r start s.log).map fun a => a.2.2).Nodup :=
      h.nodup.sublist (List.filter_sublist.map _)
    refine List.Nodup.of_map Prod.fst ?_
    rwa [List.map_map]
  have hsubset : ((within r start s.log).map fun a => (a.2.2, a.2.1)) ⊆
      (s.set.at_ s.clock).members := by
    intro m hm
    obtain ⟨a, ha, rfl⟩ := List.mem_map.mp hm
    obtain ⟨hmem, hin⟩ := List.mem_filter.mp ha
    exact hholds a hmem (near_of_within hstart hnow (of_decide_eq_true hin))
  have hlength := List.Nodup.length_le_of_subset hnodup hsubset
  rwa [List.length_map] at hlength

/-- An event that moves no check to its count, and adds nothing, keeps the bound. -/
theorem Bounded.of_same {t : RateState ι} (h : Bounded r start s)
    (hlog : (within r start t.log).length = (within r start s.log).length)
    (hcalls : ∀ i now count, t.calls i = some (.counted now count) →
      s.calls i = some (.counted now count) ∧
        r.addedSince i now t.log = r.addedSince i now s.log) :
    Bounded r start t where
  bound := by
    rw [hlog]
    exact h.bound
  counted i now count hi hstart hend := by
    obtain ⟨hi, hsince⟩ := hcalls i now count hi
    rw [hlog, hsince]
    exact h.counted i now count hi hstart hend

theorem Bounded.next (h : Bounded r start s) (hrecorded : Recorded s) {e : RateEvent ι}
    (he : Enabled s e) (hcond : r.Undisturbed s e) : Bounded r start (r.next s e) := by
  cases e with
  | tick clock => exact h.of_same rfl fun _ _ _ hi => ⟨hi, rfl⟩
  | start i =>
      refine h.of_same rfl fun j now count hj => ?_
      rcases proceed_eq_some hj with ⟨-, heq⟩ | ⟨-, hj⟩
      · cases heq
      · exact ⟨hj, rfl⟩
  | clean i now =>
      refine h.of_same (congrArg List.length (within_of_not_addition rfl)) fun j now' count hj => ?_
      rcases proceed_eq_some hj with ⟨-, heq⟩ | ⟨-, hj⟩
      · cases heq
      · exact ⟨hj, addedSince_of_not_addition rfl rfl⟩
  | arm i now count =>
      refine h.of_same (congrArg List.length (within_of_not_addition rfl)) fun j now' count' hj => ?_
      rcases proceed_eq_some hj with ⟨-, heq⟩ | ⟨-, hj⟩
      · cases heq
      · exact ⟨hj, addedSince_of_not_addition rfl rfl⟩
  | count i now =>
      have hlog : within r start (r.next s (.count i now)).log = within r start s.log :=
        within_of_not_addition rfl
      refine ⟨by rw [hlog]; exact h.bound, fun j now' count hj hstart hend => ?_⟩
      rw [hlog]
      rcases proceed_eq_some hj with ⟨rfl, heq⟩ | ⟨hne, hj⟩
      · -- this check has just counted
        have hsince : r.addedSince j now (r.next s (.count j now)).log = 0 := addedSince_count _
        unfold afterCount at heq
        split at heq
        · cases heq
        · cases heq
          rw [hsince]
          exact within_le_card hrecorded hcond hstart hend
      · have hsince : r.addedSince j now' (r.next s (.count i now)).log =
            r.addedSince j now' s.log :=
          addedSince_of_not_addition (decide_eq_false (Ne.symm hne)) rfl
        rw [hsince]
        exact h.counted j now' count hj hstart hend
  | add i now count uuid =>
      obtain ⟨hi, -, -⟩ := he
      have hroom : count + r.addedSince i now s.log < r.limit := hcond
      have hlog : within r start (r.next s (.add i now count uuid)).log =
          within r start s.log ++ [(i, now, member now uuid)].filter fun a =>
            decide (start ≤ a.2.1 ∧ a.2.1 < start + r.windowMs) := within_concat
      refine ⟨?_, fun j now' count' hj hstart hend => ?_⟩
      · rw [hlog]
        by_cases hin : start ≤ now ∧ now < start + r.windowMs
        · have hknown := h.counted i now count hi hin.1 hin.2
          have hone := List.length_filter_le
            (fun a : ι × ℤ × JsString => decide (start ≤ a.2.1 ∧ a.2.1 < start + r.windowMs))
            [(i, now, member now uuid)]
          rw [List.length_singleton] at hone
          rw [List.length_append]
          omega
        · rw [List.filter_cons_of_neg (by simpa using hin), List.filter_nil, List.append_nil]
          exact h.bound
      · rcases proceed_eq_some hj with ⟨-, heq⟩ | ⟨-, hj⟩
        · cases heq
        · have hsince : r.addedSince j now' (r.next s (.add i now count uuid)).log =
              r.addedSince j now' s.log +
                [(i, now, member now uuid)].countP fun a => r.near now' a.2.1 :=
            addedSince_concat rfl
          have hknown := h.counted j now' count' hj hstart hend
          have hone : ([(i, now, member now uuid)].filter fun a : ι × ℤ × JsString =>
              decide (start ≤ a.2.1 ∧ a.2.1 < start + r.windowMs)).length ≤
                [(i, now, member now uuid)].countP fun a => r.near now' a.2.1 := by
            rw [← List.countP_eq_length_filter]
            refine List.countP_mono_left fun a _ hin => ?_
            exact near_of_within hstart hend (of_decide_eq_true hin)
          rw [hlog, hsince, List.length_append]
          omega

theorem bounded_of_reachable (start : ℤ)
    (h : Transition.Reachable (r.system r.Undisturbed) s) : Recorded s ∧ Bounded r start s := by
  refine Transition.Reachable.invariant (I := fun s => Recorded s ∧ Bounded r start s) ?_ ?_ h
  · intro s hinit
    refine ⟨recorded_init hinit, ?_⟩
    obtain ⟨-, hcalls, -, hlog⟩ := hinit
    refine ⟨?_, fun i now count hi => ?_⟩
    · rw [hlog]
      exact Nat.zero_le _
    · rw [hcalls] at hi
      cases hi
  · rintro s t - ⟨hrecorded, hbounded⟩ ⟨e, he, hcond, rfl⟩
    exact ⟨hrecorded.next he, hbounded.next hrecorded he hcond⟩

/-- Events that can happen one after another, each of which satisfies `cond`. -/
def Legal (r : RedisRateLimiter) (cond : RateState ι → RateEvent ι → Prop) :
    RateState ι → List (RateEvent ι) → Prop
  | _, [] => True
  | s, e :: rest => Enabled s e ∧ cond s e ∧ Legal r cond (r.next s e) rest

theorem reachable_of_legal {cond : RateState ι → RateEvent ι → Prop} {events : List (RateEvent ι)}
    (h : Transition.Reachable (r.system cond) s) (hlegal : r.Legal cond s events) :
    Transition.Reachable (r.system cond) (events.foldl r.next s) := by
  induction events generalizing s with
  | nil => exact h
  | cons e rest ih => exact ih (h.next ⟨e, hlegal.1, hlegal.2.1, rfl⟩) hlegal.2.2

/-- Nothing has happened yet. -/
def fresh : RateState ℕ := ⟨0, .empty, fun _ => none, [], []⟩

/-- The commands of a check. -/
def checkEvents (i : ℕ) (letter : UInt16) : List (RateEvent ℕ) :=
  [.start i, .clean i 0, .count i 0, .add i 0 0 (List.replicate 36 letter), .arm i 0 0]

/-- Two checks that both count before either adds. -/
def crossing : List (RateEvent ℕ) :=
  [.start 0, .start 1, .clean 0 0, .clean 1 0, .count 0 0, .count 1 0,
    .add 0 0 0 (List.replicate 36 97), .add 1 0 0 (List.replicate 36 98), .arm 0 0 0, .arm 1 0 0]

end RedisRateLimiter

end Limits
