import BpcProtocol.Js.Double
import BpcProtocol.Principal.AgentCache

set_option autoImplicit false

/-! # Runs of the agent cache

Any number of writes and reads at once. A protector answers what it likes, but opens only what was
sealed, and never seals two plaintexts to one ciphertext. Other programs of the user may use it too.
A store in memory holds what was put last; a store that is not trusted holds anything. -/

namespace AgentCache

open Fallible Async
open Js (lit)

/-! ## The service -/

/-- The store, and what the protector of the user has sealed. -/
structure CacheState where
  entries : OrderedMap JsString JsValue
  protections : List (Bytes × Bytes)

/-- The protector may answer a plaintext with the ciphertext. -/
def CacheState.Seals (s : CacheState) (plaintext ciphertext : Bytes) : Prop :=
  ciphertext ≠ [] ∧ ∀ p, (p, ciphertext) ∈ s.protections → p = plaintext

def CacheState.sealed (s : CacheState) (plaintext ciphertext : Bytes) : CacheState :=
  { s with protections := s.protections ++ [(plaintext, ciphertext)] }

/-- What an operation may answer, and what it leaves. -/
def CacheOp.Exec (s : CacheState) : (o : CacheOp) → o.Answer → CacheState → Prop
  | .now, t, s' => (∃ ms : ℤ, Js.isSafeInteger ms = true ∧ t = .fin ms) ∧ s' = s
  | .protect p, x, s' =>
      (∃ e, x = .error e) ∧ s' = s ∨ ∃ c, x = .ok c ∧ s.Seals p c ∧ s' = s.sealed p c
  | .unprotect c, x, s' => (∀ p, x = .ok p → (p, c) ∈ s.protections) ∧ s' = s
  | .put cacheKey cache, x, s' =>
      (∃ e, MemoryAgentCredentialCacheStore.put s.entries cacheKey cache = .error e ∧
        x = .error (.cache e) ∧ s' = s) ∨
      ∃ entries, MemoryAgentCredentialCacheStore.put s.entries cacheKey cache = .ok entries ∧
        x = .ok () ∧ s' = { s with entries }
  | .get cacheKey, x, s' =>
      x = (MemoryAgentCredentialCacheStore.get s.entries cacheKey).mapError .cache ∧ s' = s

inductive CacheCall where
  | write (cacheKey : JsString) (input : CreateAgentCredentialCacheEntryInput)
  | read (cacheKey : JsString) (expected : AgentCredentialCacheExpectedState)

inductive CacheAnswer where
  | sealed (cache : JsValue)
  | entry (e : AgentCredentialCacheEntry)

def CacheCall.body (scope : JsString) : CacheCall → CacheProg CacheAnswer
  | .write cacheKey input => CacheAnswer.sealed <$> AgentCache.write scope cacheKey input
  | .read cacheKey expected => CacheAnswer.entry <$> AgentCache.read scope cacheKey expected

/-- The values of an input are ones that the language can hold. -/
def CacheCall.Genuine : CacheCall → Prop
  | .write _ input => Js.Genuine input.expiresAt ∧
      (∀ n, input.nowMs = some n → Js.Genuine (.number n)) ∧
      ∀ m, input.credentialMaterial = some m → Js.Genuine m
  | .read _ _ => True

/-- The cache of a protector with a scope, over a store that `tampers` or one in memory. What other
    programs have sealed are no entries. -/
def cacheService (scope : JsString) (tampers : Prop) :
    Service CacheCall CacheOp CacheOp.Answer Thrown CacheAnswer CacheState where
  body := CacheCall.body scope
  admits := CacheCall.Genuine
  init s := s = ⟨.empty, []⟩
  exec := CacheOp.Exec
  env s s' :=
    (∃ p c, (parseCacheEntry (Js.fromUtf8 p)).isOk = false ∧ s.Seals p c ∧ s' = s.sealed p c) ∨
      tampers ∧ ∃ entries, s' = { s with entries }

abbrev CacheConfig (ι : Type) :=
  Config ι CacheCall CacheOp CacheOp.Answer Thrown CacheAnswer CacheState

abbrev CacheLogged (ι : Type) := Entry ι CacheOp CacheOp.Answer CacheState

/-! ## What one call does -/

abbrev CacheMade := Made CacheOp CacheOp.Answer

abbrev CacheHistory := List CacheMade

/-- The time is the one that was given, or that the clock has answered. -/
def Dated (h : CacheHistory) (nowMs : Option JsNumber) (now : JsNumber) : Prop :=
  nowMs = some now ∨ nowMs = none ∧ (⟨.now, now⟩ : CacheMade) ∈ h

/-- The entry was created of the input. -/
def Created (h : CacheHistory) (input : CreateAgentCredentialCacheEntryInput)
    (entry : AgentCredentialCacheEntry) : Prop :=
  ∃ now, Dated h input.nowMs now ∧ createAgentCredentialCacheEntry input now = .ok entry

/-- The envelope holds what the protector has made of the entry. -/
def SealedAs (scope : JsString) (input : CreateAgentCredentialCacheEntryInput) (h : CacheHistory)
    (cache : JsValue) : Prop :=
  ∃ entry c, scope = lit "CurrentUser" ∧ Created h input entry ∧
    (⟨.protect (Js.utf8 entry.serialized), .ok c⟩ : CacheMade) ∈ h ∧
    cache = sealedCache entry.sealedAt c

theorem Dated.mono {h h' : CacheHistory} {nowMs : Option JsNumber} {now : JsNumber}
    (hdated : Dated h nowMs now) (hle : h <+: h') : Dated h' nowMs now :=
  hdated.imp_right fun hclock => ⟨hclock.1, hle.subset hclock.2⟩

theorem Created.mono {h h' : CacheHistory} {input : CreateAgentCredentialCacheEntryInput}
    {entry : AgentCredentialCacheEntry} (hcreated : Created h input entry) (hle : h <+: h') :
    Created h' input entry := by
  obtain ⟨now, hdated, hcreate⟩ := hcreated
  exact ⟨now, hdated.mono hle, hcreate⟩

/-- What a call may do: a write seals the entry of its input, and puts what was sealed under its
    key; a read does neither. -/
def Permits (scope : JsString) : CacheCall → CacheHistory → CacheOp → Prop
  | .write _ input, h, .protect p =>
      scope = lit "CurrentUser" ∧ ∃ entry, Created h input entry ∧ p = Js.utf8 entry.serialized
  | .write cacheKey input, h, .put key cache => key = cacheKey ∧ SealedAs scope input h cache
  | .read _ _, _, .protect _ => False
  | .read _ _, _, .put _ _ => False
  | _, _, _ => True

section Calls

variable {scope : JsString} {h : CacheHistory}

theorem follows_check {α : Type} {May : CacheHistory → CacheOp → Prop}
    {Q : CacheHistory → α → Prop} {x : Except CacheError α} (hx : ∀ a, x = .ok a → Q h a) :
    (check x).Follows May Q h := by
  refine Prog.follows_lift fun a ha => hx a ?_
  cases x with
  | error e => cases ha
  | ok b => exact congrArg Except.ok (Except.ok.inj ha)

theorem follows_nowOr {May : CacheHistory → CacheOp → Prop} (hmay : May h .now)
    (nowMs : Option JsNumber) : (nowOr nowMs).Follows May (fun h n => Dated h nowMs n) h := by
  cases nowMs with
  | some n => exact .inl rfl
  | none => exact ⟨hmay, fun t => .inr ⟨rfl, List.mem_append_right _ List.mem_cons_self⟩⟩

/-- An operation whose answer may be an error. -/
theorem follows_await {α : Type} {May : CacheHistory → CacheOp → Prop} {o : CacheOp}
    {Q : CacheHistory → α → Prop} {f : o.Answer → Except Thrown α} (hmay : May h o)
    (hQ : ∀ x a, f x = .ok a → Q (h ++ [⟨o, x⟩]) a) :
    (Prog.await o fun x => Prog.lift (f x) : CacheProg α).Follows May Q h :=
  ⟨hmay, fun x => Prog.follows_lift fun a ha => hQ x a ha⟩

/-- The entry of the input is sealed, and the answer is its envelope. -/
theorem follows_seal (cacheKey : JsString) (input : CreateAgentCredentialCacheEntryInput) :
    (sealAgentCredentialCacheEntry scope input).Follows (Permits scope (.write cacheKey input))
      (SealedAs scope input) h := by
  unfold sealAgentCredentialCacheEntry
  refine (follows_check (Q := fun _ _ => scope = lit "CurrentUser") fun _ hscope => ?_).bind
    fun h' _ _ hscope => ?_
  · rwa [requireScope, require_eq_ok] at hscope
  refine (follows_nowOr trivial input.nowMs).bind fun h' now _ hdated => ?_
  refine (follows_check (Q := fun h' entry => Created h' input entry)
    fun entry hentry => ⟨now, hdated, hentry⟩).bind fun h' entry _ hcreated => ?_
  refine (follows_await (Q := fun h' c => Created h' input entry ∧
    (⟨.protect (Js.utf8 entry.serialized), .ok c⟩ : CacheMade) ∈ h')
    ⟨hscope, entry, hcreated, rfl⟩ fun x c hx => ?_).bind fun h' c _ hc => ?_
  · obtain rfl : x = .ok c := hx
    exact ⟨hcreated.mono (List.prefix_append _ _), List.mem_append_right _ List.mem_cons_self⟩
  · exact ⟨entry, c, hscope, hc.1, hc.2, rfl⟩

theorem follows_open {May : CacheHistory → CacheOp → Prop} (hnow : ∀ h, May h .now)
    (hunprotect : ∀ h c, May h (.unprotect c)) (cache : JsValue)
    (expected : AgentCredentialCacheExpectedState) :
    (openAgentCredentialCacheEntry scope cache expected).Follows May (fun _ _ => True) h := by
  unfold openAgentCredentialCacheEntry
  refine (follows_check (Q := fun _ _ => True) fun _ _ => trivial).bind fun h' _ _ _ => ?_
  refine (follows_check (Q := fun _ _ => True) fun _ _ => trivial).bind fun h' _ _ _ => ?_
  refine (follows_await (Q := fun _ _ => True) (hunprotect h' _) fun _ _ _ => trivial).bind
    fun h' plaintext _ _ => ?_
  refine (follows_check (Q := fun _ _ => True) fun _ _ => trivial).bind fun h' entry _ _ => ?_
  refine (follows_nowOr (hnow h') expected.nowMs).bind fun h' now _ _ => ?_
  exact (follows_check (Q := fun _ _ => True) fun _ _ => trivial).bind fun _ _ _ _ => trivial

theorem follows_body (call : CacheCall) :
    (call.body scope).Follows (Permits scope call) (fun _ _ => True) [] := by
  cases call with
  | write cacheKey input =>
      refine Prog.Follows.map (Q := fun _ _ => True) ?_ _
      unfold AgentCache.write
      refine (follows_seal cacheKey input).bind fun h' cache _ hsealed => ?_
      exact (follows_await (Q := fun _ _ => True) ⟨rfl, hsealed⟩ fun _ _ _ => trivial).bind
        fun _ _ _ _ => trivial
  | read cacheKey expected =>
      refine Prog.Follows.map (Q := fun _ _ => True) ?_ _
      unfold AgentCache.read
      refine (follows_await (Q := fun _ _ => True) trivial fun _ _ _ => trivial).bind
        fun h' cache _ _ => ?_
      refine (follows_check (Q := fun _ _ => True) fun _ _ => trivial).bind fun h' _ _ _ => ?_
      exact follows_open (fun _ => trivial) (fun _ _ => trivial) cache expected

end Calls

/-! ## What the protector has sealed -/

section Runs

variable {scope : JsString} {tampers : Prop} {ι : Type} [DecidableEq ι]
  {cfg : CacheConfig ι}

abbrev sealing (p c : Bytes) : CacheMade :=
  ⟨.protect p, .ok c⟩

abbrev unsealing (c p : Bytes) : CacheMade :=
  ⟨.unprotect c, .ok p⟩

/-- The protector has sealed what it was asked to and what is no entry, and opens nothing else. -/
structure Sound (protections : List (Bytes × Bytes)) (h : CacheHistory) : Prop where
  functional : ∀ p p' c, (p, c) ∈ protections → (p', c) ∈ protections → p = p'
  logged : ∀ p c, sealing p c ∈ h → (p, c) ∈ protections ∧ c ≠ []
  origin : ∀ p c, (p, c) ∈ protections →
    sealing p c ∈ h ∨ (parseCacheEntry (Js.fromUtf8 p)).isOk = false
  opened : ∀ p c, unsealing c p ∈ h → (p, c) ∈ protections

/-- One more protection, of what was asked for or of what is no entry. -/
theorem Sound.sealed {s : CacheState} {h h' : CacheHistory} {p c : Bytes}
    (hsound : Sound s.protections h) (hseals : s.Seals p c) (hle : h <+: h')
    (hnew : ∀ made ∈ h', made ∈ h ∨ made = sealing p c)
    (horigin : sealing p c ∈ h' ∨ (parseCacheEntry (Js.fromUtf8 p)).isOk = false) :
    Sound (s.sealed p c).protections h' := by
  have hmem : ∀ q d, (q, d) ∈ (s.sealed p c).protections ↔
      (q, d) ∈ s.protections ∨ q = p ∧ d = c := by
    simp [CacheState.sealed]
  refine ⟨fun q q' d hq hq' => ?_, fun q d hq => ?_, fun q d hq => ?_, fun q d hq => ?_⟩
  · rcases (hmem q d).mp hq with hin | ⟨rfl, rfl⟩
    · rcases (hmem q' d).mp hq' with hin' | ⟨rfl, rfl⟩
      · exact hsound.functional q q' d hin hin'
      · exact hseals.2 q hin
    · rcases (hmem q' d).mp hq' with hin' | ⟨rfl, -⟩
      · exact (hseals.2 q' hin').symm
      · rfl
  · rcases hnew _ hq with hold | heq
    · obtain ⟨hin, hne⟩ := hsound.logged q d hold
      exact ⟨(hmem q d).mpr (.inl hin), hne⟩
    · cases heq
      exact ⟨(hmem _ _).mpr (.inr ⟨rfl, rfl⟩), hseals.1⟩
  · rcases (hmem q d).mp hq with hin | ⟨rfl, rfl⟩
    · exact (hsound.origin q d hin).imp_left fun hold => hle.subset hold
    · exact horigin
  · rcases hnew _ hq with hold | heq
    · exact (hmem q d).mpr (.inl (hsound.opened q d hold))
    · cases heq

/-- An operation that seals nothing leaves the protections, and opens only what is among them. -/
theorem CacheOp.Exec.cases {s s' : CacheState} {o : CacheOp} {x : o.Answer}
    (h : CacheOp.Exec s o x s') :
    (∃ p c, (⟨o, x⟩ : CacheMade) = sealing p c ∧ s.Seals p c ∧ s' = s.sealed p c) ∨
      s'.protections = s.protections ∧ (∀ p c, (⟨o, x⟩ : CacheMade) ≠ sealing p c) ∧
        ∀ p c, (⟨o, x⟩ : CacheMade) = unsealing c p → (p, c) ∈ s.protections := by
  cases o with
  | now => exact .inr ⟨h.2 ▸ rfl, by simp, by simp⟩
  | get cacheKey => exact .inr ⟨h.2 ▸ rfl, by simp, by simp⟩
  | put cacheKey cache =>
      refine .inr ⟨?_, by simp, by simp⟩
      rcases h with ⟨_, -, -, rfl⟩ | ⟨_, -, -, rfl⟩ <;> rfl
  | unprotect c =>
      refine .inr ⟨h.2 ▸ rfl, by simp, fun p d heq => ?_⟩
      cases heq
      exact h.1 p rfl
  | protect p =>
      rcases h with ⟨⟨e, rfl⟩, rfl⟩ | ⟨c, rfl, hseals, rfl⟩
      · exact .inr ⟨rfl, by simp, by simp⟩
      · exact .inl ⟨p, c, rfl, hseals, rfl⟩

theorem sound_of_reachable
    (hreach : Transition.Reachable ((cacheService scope tampers).system ι) cfg) :
    Sound cfg.shared.protections (cfg.log.map Entry.made) := by
  refine Transition.Reachable.invariant
    (I := fun cfg => Sound cfg.shared.protections (cfg.log.map Entry.made)) ?_ ?_ hreach
  · rintro cfg ⟨hinit, -, hlog⟩
    have hnone : cfg.shared.protections = [] := by
      rw [show cfg.shared = ⟨.empty, []⟩ from hinit]
    constructor <;> simp [hnone, hlog]
  · rintro cfg cfg' - hsound hstep
    cases hstep with
    | start => exact hsound
    | env s' henv =>
        rcases henv with ⟨p, c, hforeign, hseals, rfl⟩ | ⟨-, entries, rfl⟩
        · exact hsound.sealed hseals List.prefix_rfl (fun _ hin => .inl hin) (.inr hforeign)
        · exact hsound
    | exec i r o k x s' hi hexec =>
        rw [List.map_append]
        rcases CacheOp.Exec.cases hexec with ⟨p, c, hmade, hseals, rfl⟩ | ⟨hsame, hno, hopen⟩
        · refine hsound.sealed hseals (List.prefix_append _ _) (fun made hin => ?_) (.inl ?_)
          · rw [← hmade]
            simpa using hin
          · simp [hmade]
        · rw [hsame]
          refine ⟨hsound.functional, fun p c hin => ?_, fun p c hin => ?_, fun p c hin => ?_⟩
          · rcases List.mem_append.mp hin with hin | hin
            · exact hsound.logged p c hin
            · exact absurd (List.mem_singleton.mp hin).symm (hno p c)
          · exact (hsound.origin p c hin).imp_left (List.mem_append_left _)
          · rcases List.mem_append.mp hin with hin | hin
            · exact hsound.opened p c hin
            · exact hopen p c (List.mem_singleton.mp hin).symm

/-! ## Who has sealed what -/

/-- An operation of the log is one that its call was permitted. -/
theorem permitted_of_mem_log
    (hreach : Transition.Reachable ((cacheService scope tampers).system ι) cfg)
    {log₁ log₂ : List (CacheLogged ι)} {e : CacheLogged ι} (hlog : cfg.log = log₁ ++ e :: log₂) :
    ∃ call q, cfg.calls e.call = some ⟨call, q⟩ ∧ call.Genuine ∧
      Permits scope call (ownTrace e.call log₁) e.made.1 := by
  have hmem : e ∈ cfg.log := by
    rw [hlog]
    exact List.mem_append_right _ List.mem_cons_self
  have hown := mem_ownTrace hmem rfl
  obtain ⟨hcall, hnone⟩ := Service.trace_of_reachable hreach e.call
  cases hc : cfg.calls e.call with
  | none =>
      rw [hnone hc] at hown
      cases hown
  | some call =>
      exact ⟨call.req, call.rest, rfl, (hcall call.req call.rest hc).1,
        Service.permitted_of_reachable hreach hc (follows_body call.req) hlog rfl⟩

/-- What the clock answers is an integer. -/
theorem genuine_of_dated
    (hreach : Transition.Reachable ((cacheService scope tampers).system ι) cfg) {i : ι}
    {h : CacheHistory} (hle : h <+: ownTrace i cfg.log) {nowMs : Option JsNumber}
    (hgenuine : ∀ n, nowMs = some n → Js.Genuine (.number n)) {now : JsNumber}
    (hdated : Dated h nowMs now) : Js.Genuine (.number now) := by
  rcases hdated with hgiven | ⟨-, hclock⟩
  · exact hgenuine now hgiven
  · obtain ⟨e, he, -, hmade⟩ := exists_entry (hle.subset hclock)
    obtain ⟨t, hexec⟩ := Service.exec_of_reachable hreach e he
    rw [hmade] at hexec
    obtain ⟨⟨ms, hsafe, rfl⟩, -⟩ := hexec
    refine .number fun q hq => ?_
    cases hq
    refine Js.isDouble_intCast ?_
    rw [Js.isSafeInteger, Bool.and_eq_true, decide_eq_true_eq, decide_eq_true_eq,
      Js.maxSafeInteger] at hsafe
    omega

/-- The payload of an entry that a call has created comes back as JSON keeps it. -/
theorem parse_of_created
    (hreach : Transition.Reachable ((cacheService scope tampers).system ι) cfg) {i : ι}
    {h : CacheHistory} (hle : h <+: ownTrace i cfg.log) {cacheKey : JsString}
    {input : CreateAgentCredentialCacheEntryInput}
    (hgenuine : (CacheCall.write cacheKey input).Genuine) {entry : AgentCredentialCacheEntry}
    (hcreated : Created h input entry) :
    entry.Valid ∧
      parseCacheEntry (Js.fromUtf8 (Js.utf8 entry.serialized)) = entry.kept := by
  obtain ⟨now, hdated, hcreate⟩ := hcreated
  obtain ⟨hexpires, hnow, hmaterial⟩ := hgenuine
  obtain ⟨hvalid, hexpiresAt, hsealedAt, hmaterialOf⟩ :=
    createAgentCredentialCacheEntry_eq_ok hcreate
  have hclock := genuine_of_dated hreach hle hnow hdated
  have hentry : Js.Genuine (.object entry.fields) := by
    refine .object (nodup_fieldNames entry) fun f hf => ?_
    simp only [AgentCredentialCacheEntry.fields, List.mem_cons, List.not_mem_nil, or_false] at hf
    rcases hf with rfl | rfl | rfl | rfl | rfl | rfl | rfl | rfl
    · rw [hvalid.version]
      exact .string _
    · exact .string _
    · exact .string _
    · exact .string _
    · exact .string _
    · exact hexpiresAt ▸ hexpires
    · exact hsealedAt ▸ hclock
    · exact hmaterial _ hmaterialOf
  exact ⟨hvalid, parseCacheEntry_fromUtf8 hvalid hentry⟩

/-! ## How a read ends -/

/-- What an entry that was opened gives, at one of the times that the read may take. -/
def Compared (h : CacheHistory) (entry : AgentCredentialCacheEntry)
    (expected : AgentCredentialCacheExpectedState) (x : Except Thrown CacheAnswer) : Prop :=
  ∃ now, Dated h expected.nowMs now ∧
    x = ((validateEntryAgainstCurrentState entry expected now).map
      fun _ => CacheAnswer.entry entry).mapError .cache

/-- A check that is made first is passed, or ends the call. -/
theorem trace_check {α β : Type} {y : Except CacheError α} {g : β → CacheAnswer}
    {f : α → CacheProg β} {es : CacheHistory} {x : Except Thrown CacheAnswer}
    (h : Trace (g <$> (check y >>= f)) es (Prog.lift x)) :
    (∃ e, y = .error e ∧ x = .error (.cache e)) ∨
      ∃ a, y = .ok a ∧ Trace (g <$> f a) es (Prog.lift x) := by
  cases y with
  | error e => exact .inl ⟨e, rfl, (trace_fail_lift.mp h).2⟩
  | ok a => exact .inr ⟨a, rfl, h⟩

theorem trace_nowOr {β : Type} {nowMs : Option JsNumber} {g : β → CacheAnswer}
    {f : JsNumber → CacheProg β} {es : CacheHistory} {x : Except Thrown CacheAnswer}
    (h : Trace (g <$> (nowOr nowMs >>= f)) es (Prog.lift x)) :
    ∃ now es', Dated es nowMs now ∧ Trace (g <$> f now) es' (Prog.lift x) := by
  cases nowMs with
  | some n => exact ⟨n, es, .inl rfl, h⟩
  | none =>
      obtain ⟨now, es', rfl, hrest⟩ := trace_await_lift.mp h
      exact ⟨now, es', .inr ⟨rfl, List.mem_cons_self⟩, hrest⟩

/-- An operation that is awaited first has answered, and may have ended the call. -/
theorem trace_await {α β : Type} {o : CacheOp} {k : o.Answer → Except Thrown α}
    {g : β → CacheAnswer} {f : α → CacheProg β} {es : CacheHistory} {x : Except Thrown CacheAnswer}
    (h : Trace (g <$> ((Prog.await o fun y => Prog.lift (k y)) >>= f)) es (Prog.lift x)) :
    ∃ y es', es = ⟨o, y⟩ :: es' ∧ ((∃ e, k y = .error e ∧ x = .error e) ∨
      ∃ a, k y = .ok a ∧ Trace (g <$> f a) es' (Prog.lift x)) := by
  obtain ⟨y, es', rfl, hrest⟩ := trace_await_lift.mp h
  refine ⟨y, es', rfl, ?_⟩
  change Trace (g <$> (Prog.lift (k y) >>= f)) es' (Prog.lift x) at hrest
  cases hy : k y with
  | error e =>
      rw [hy] at hrest
      exact .inl ⟨e, rfl, (trace_fail_lift.mp hrest).2⟩
  | ok a =>
      rw [hy] at hrest
      exact .inr ⟨a, rfl, hrest⟩

/-- How an entry is opened, once its envelope is valid. -/
theorem trace_open {cache : JsValue} {expected : AgentCredentialCacheExpectedState}
    {es : CacheHistory} {x : Except Thrown CacheAnswer}
    (h : Trace (CacheAnswer.entry <$> openAgentCredentialCacheEntry scope cache expected) es
      (Prog.lift x)) :
    (∃ e, validateSealedEnvelope cache = .error e ∧ x = .error (.cache e)) ∨
      (∃ e, requireScope scope = .error e ∧ x = .error (.cache e)) ∨
      ∃ y, (⟨.unprotect (ciphertextOf cache), y⟩ : CacheMade) ∈ es ∧
        ((∃ e, y = .error e ∧ x = .error (unsealError e)) ∨ ∃ p, y = .ok p ∧
          ((∃ e, parseCacheEntry (Js.fromUtf8 p) = .error e ∧ x = .error (.cache e)) ∨
            ∃ entry, parseCacheEntry (Js.fromUtf8 p) = .ok entry ∧
              Compared es entry expected x)) := by
  unfold openAgentCredentialCacheEntry at h
  rcases trace_check h with hinvalid | ⟨_, -, h⟩
  · exact .inl hinvalid
  rcases trace_check h with hwidened | ⟨_, -, h⟩
  · exact .inr (.inl hwidened)
  obtain ⟨y, es', rfl, hrest⟩ := trace_await h
  refine .inr (.inr ⟨y, List.mem_cons_self, ?_⟩)
  cases y with
  | error e =>
      rcases hrest with ⟨e', he', hx⟩ | ⟨_, hok, -⟩
      · cases he'
        exact .inl ⟨e, rfl, hx⟩
      · cases hok
  | ok p =>
      rcases hrest with ⟨e', he', -⟩ | ⟨_, hok, hrest⟩
      · cases he'
      cases hok
      refine .inr ⟨p, rfl, ?_⟩
      rcases trace_check hrest with ⟨e, hparse, hx⟩ | ⟨entry, hparse, hrest⟩
      · exact .inl ⟨e, hparse, hx⟩
      obtain ⟨now, es'', hdated, hrest⟩ := trace_nowOr hrest
      refine .inr ⟨entry, hparse, now, ?_, ?_⟩
      · exact hdated.imp_right fun hclock => ⟨hclock.1, List.mem_cons_of_mem _ hclock.2⟩
      · rcases trace_check hrest with ⟨e, hcheck, hx⟩ | ⟨_, hcheck, hrest⟩
        · rw [hcheck, hx]
          rfl
        · rw [hcheck]
          change Trace (Prog.lift (.ok (CacheAnswer.entry entry))) es'' (Prog.lift x) at hrest
          exact (trace_lift.mp hrest).2

/-- How a read begins: with what the store holds under its key. -/
theorem trace_read {cacheKey : JsString} {expected : AgentCredentialCacheExpectedState}
    {es : CacheHistory} {x : Except Thrown CacheAnswer}
    (h : Trace ((CacheCall.read cacheKey expected).body scope) es (Prog.lift x)) :
    ∃ y es', es = ⟨.get cacheKey, y⟩ :: es' ∧ ((∃ e, y = .error e ∧ x = .error e) ∨
      ∃ cache, y = .ok cache ∧ ((Pair.truthy cache = false ∧
        x = .error (.cache (.unavailable "agent credential cache entry unavailable"))) ∨
          Pair.truthy cache = true ∧ Trace (CacheAnswer.entry <$>
            openAgentCredentialCacheEntry scope cache expected) es' (Prog.lift x))) := by
  obtain ⟨y, es', rfl, hrest⟩ := trace_await h
  refine ⟨y, es', rfl, ?_⟩
  rcases hrest with herror | ⟨cache, hcache, hrest⟩
  · exact .inl herror
  refine .inr ⟨cache, hcache, ?_⟩
  rcases trace_check hrest with ⟨e, hmissing, hx⟩ | ⟨_, htruthy, hrest⟩
  · by_cases htruthy : Pair.truthy cache = true
    · rw [require_of htruthy] at hmissing
      cases hmissing
    · rw [require_of_not htruthy] at hmissing
      cases hmissing
      exact .inl ⟨Bool.eq_false_of_not_eq_true htruthy, hx⟩
  · exact .inr ⟨(require_eq_ok _ _ _).mp htruthy, hrest⟩

/-! ## What the store holds -/

omit [DecidableEq ι] in
theorem MemoryAgentCredentialCacheStore.get_eq (entries : OrderedMap JsString JsValue)
    (cacheKey : JsString) : MemoryAgentCredentialCacheStore.get entries cacheKey =
      if isBlank cacheKey then
        .error (.unavailable "agent credential cache key is required")
      else .ok ((entries.get cacheKey).getD .undefined) := by
  rw [MemoryAgentCredentialCacheStore.get, assertCacheKey, require]
  cases isBlank cacheKey <;> rfl

/-- The envelope that an operation has put under the key. -/
def putOf (cacheKey : JsString) (e : CacheLogged ι) : Option JsValue :=
  match e.made with
  | ⟨.put key cache, .ok _⟩ => if key = cacheKey then some cache else none
  | _ => none

/-- The envelope that was put under the key last. -/
def lastPut (cacheKey : JsString) (log : List (CacheLogged ι)) : Option JsValue :=
  log.reverse.findSome? (putOf cacheKey)

omit [DecidableEq ι] in
theorem lastPut_concat (cacheKey : JsString) (log : List (CacheLogged ι)) (e : CacheLogged ι) :
    lastPut cacheKey (log ++ [e]) = (putOf cacheKey e).or (lastPut cacheKey log) := by
  rw [lastPut, List.reverse_append, List.reverse_singleton, List.singleton_append,
    List.findSome?_cons]
  cases putOf cacheKey e <;> rfl

/-- A store that is not tampered with holds what was put last. -/
theorem entries_of_reachable
    (hreach : Transition.Reachable ((cacheService scope False).system ι) cfg)
    (cacheKey : JsString) : cfg.shared.entries.get cacheKey = lastPut cacheKey cfg.log := by
  refine Transition.Reachable.invariant
    (I := fun cfg => cfg.shared.entries.get cacheKey = lastPut cacheKey cfg.log) ?_ ?_ hreach
  · rintro cfg ⟨hinit, -, hlog⟩
    rw [show cfg.shared = ⟨.empty, []⟩ from hinit, hlog]
    rfl
  · rintro cfg cfg' - ih hstep
    cases hstep with
    | start => exact ih
    | env s' henv =>
        rcases henv with ⟨p, c, -, -, rfl⟩ | ⟨hfalse, -⟩
        · exact ih
        · exact hfalse.elim
    | exec i r o k x s' hi hexec =>
        rw [lastPut_concat, ← ih]
        cases o with
        | now => rw [hexec.2]; rfl
        | get => rw [hexec.2]; rfl
        | unprotect => rw [hexec.2]; rfl
        | protect =>
            rcases hexec with ⟨-, rfl⟩ | ⟨c, -, -, rfl⟩ <;> rfl
        | put key cache =>
            rcases hexec with ⟨e, -, rfl, rfl⟩ | ⟨entries, hput, rfl, rfl⟩
            · rfl
            · have hentries : entries = cfg.shared.entries.set key cache := by
                simp only [MemoryAgentCredentialCacheStore.put, assertCacheKey, bind_eq_ok,
                  require_eq_ok, exists_unit, pure_eq_ok] at hput
                obtain ⟨_, ⟨-, rfl⟩, rfl⟩ := hput
                rfl
              show entries.get cacheKey = _
              rw [hentries, OrderedMap.get_set, putOf]
              by_cases hkey : key = cacheKey
              · subst hkey
                simp
              · simp [hkey, Ne.symm hkey]

omit [DecidableEq ι] in
theorem eq_of_putOf {cacheKey : JsString} {cache : JsValue}
    {e : CacheLogged ι} (h : putOf cacheKey e = some cache) :
    e.made.1 = .put cacheKey cache := by
  unfold putOf at h
  split at h
  · next key stored u hmade =>
      split_ifs at h with hkey
      obtain rfl := Option.some.inj h
      rw [hmade, hkey]
  · cases h

/-- The last envelope under the key was put by a write of the key, with the entry in it. -/
structure StoredLast (cfg : CacheConfig ι) (cacheKey : JsString) (log : List (CacheLogged ι))
    (entry : AgentCredentialCacheEntry) : Prop where
  intro ::
  exists_write : ∃ input q before e after, cfg.calls e.call = some ⟨.write cacheKey input, q⟩ ∧
    log = before ++ e :: after ∧ (∃ cache, e.made.1 = .put cacheKey cache) ∧
    (∀ e' ∈ after, putOf cacheKey e' = none) ∧ Created (ownTrace e.call before) input entry

/-- How a read may end that finds the entry: the protector fails, JSON has kept nothing of the
    material, or the entry is compared with what is expected. -/
def Opened (h : CacheHistory) (entry : AgentCredentialCacheEntry)
    (expected : AgentCredentialCacheExpectedState) (x : Except Thrown CacheAnswer) : Prop :=
  (∃ c e, (⟨.unprotect c, .error e⟩ : CacheMade) ∈ h ∧ x = .error (unsealError e)) ∨
    (∃ e, entry.kept = .error e ∧ x = .error (.cache e)) ∨
    ∃ kept, entry.kept = .ok kept ∧ Compared h kept expected x

/-- An envelope that a write has put is opened to its entry. -/
theorem opened_of_sealed
    (hreach : Transition.Reachable ((cacheService scope tampers).system ι) cfg)
    {i j : ι} {before : CacheHistory} (hle : before <+: ownTrace j cfg.log) {cacheKey : JsString}
    {input : CreateAgentCredentialCacheEntryInput}
    (hgenuine : (CacheCall.write cacheKey input).Genuine) {entry : AgentCredentialCacheEntry}
    (hcreated : Created before input entry) {c : Bytes}
    (hprotect : sealing (Js.utf8 entry.serialized) c ∈ before)
    (hscope : scope = lit "CurrentUser") {expected : AgentCredentialCacheExpectedState}
    {es : CacheHistory} (hes : ∀ made ∈ es, made ∈ ownTrace i cfg.log)
    {x : Except Thrown CacheAnswer}
    (h : Trace (CacheAnswer.entry <$> openAgentCredentialCacheEntry scope
      (sealedCache entry.sealedAt c) expected) es (Prog.lift x)) :
    Opened (ownTrace i cfg.log) entry expected x := by
  have hsound := sound_of_reachable hreach
  obtain ⟨hvalid, hparse⟩ := parse_of_created hreach hle hgenuine hcreated
  obtain ⟨e, he, -, hmade⟩ := exists_entry (hle.subset hprotect)
  obtain ⟨hsealed, hne⟩ := hsound.logged _ _ (List.mem_map.mpr ⟨e, he, hmade⟩)
  rcases trace_open h with ⟨e', hinvalid, -⟩ | ⟨e', hwidened, -⟩ | ⟨y, hy, hend⟩
  · rw [validateSealedEnvelope_sealedCache hvalid.sealedAt hne] at hinvalid
    cases hinvalid
  · rw [requireScope, require_of hscope] at hwidened
    cases hwidened
  · rw [ciphertextOf_sealedCache] at hy
    rcases hend with ⟨e', rfl, hx⟩ | ⟨p, rfl, hend⟩
    · exact .inl ⟨c, e', hes _ hy, hx⟩
    · -- what was unsealed is what was sealed
      obtain ⟨e', he', -, hmade'⟩ := exists_entry (hes _ hy)
      have hopened := hsound.opened p c (List.mem_map.mpr ⟨e', he', hmade'⟩)
      obtain rfl := hsound.functional _ _ _ hopened hsealed
      rw [hparse] at hend
      rcases hend with hkept | ⟨kept, hkept, now, hdated, hx⟩
      · exact .inr (.inl hkept)
      · refine .inr (.inr ⟨kept, hkept, now, ?_, hx⟩)
        exact hdated.imp_right fun hclock => ⟨hclock.1, hes _ hclock.2⟩

/-- **A cache in memory is a map.** Whatever writes and reads run at once, a read that has ended
    found what was last put under its key when it looked. With nothing there it says so. Otherwise
    it ends with the entry of the write that has put it, as JSON keeps it, if this is not expired
    and as it is expected to be, and with the reason if it is not, unless the protector failed. -/
theorem read_of_last_write
    (hreach : Transition.Reachable ((cacheService scope False).system ι) cfg) {i : ι}
    {cacheKey : JsString} {expected : AgentCredentialCacheExpectedState}
    {x : Except Thrown CacheAnswer}
    (hi : cfg.calls i = some ⟨.read cacheKey expected, Prog.lift x⟩) :
    ∃ log₁ e log₂, cfg.log = log₁ ++ e :: log₂ ∧ e.call = i ∧ e.made.1 = .get cacheKey ∧
      ((isBlank cacheKey = true ∧
          x = .error (.cache (.unavailable "agent credential cache key is required"))) ∨
        ((∀ e' ∈ log₁, putOf cacheKey e' = none) ∧
          x = .error (.cache (.unavailable "agent credential cache entry unavailable"))) ∨
        ∃ entry, StoredLast cfg cacheKey log₁ entry ∧
          Opened (ownTrace i cfg.log) entry expected x) := by
  obtain ⟨-, htrace⟩ := (Service.trace_of_reachable hreach i).1 _ _ hi
  obtain ⟨y, es, hown, hend⟩ := trace_read htrace
  have hget : (⟨.get cacheKey, y⟩ : CacheMade) ∈ ownTrace i cfg.log := by
    rw [hown]
    exact List.mem_cons_self
  have hes : ∀ made ∈ es, made ∈ ownTrace i cfg.log := by
    rw [hown]
    exact fun made hmade => List.mem_cons_of_mem _ hmade
  obtain ⟨e, he, hcall, hmade⟩ := exists_entry hget
  obtain ⟨log₁, log₂, hlog⟩ := List.mem_iff_append.mp he
  refine ⟨log₁, e, log₂, hlog, hcall, by rw [hmade], ?_⟩
  -- the store holds what was last put before
  obtain ⟨before, hbefore, -, rfl, hshared⟩ := Service.reachable_before hreach hlog
  have hentries := entries_of_reachable hbefore cacheKey
  rw [hshared] at hentries
  obtain ⟨t, hexec⟩ := Service.exec_of_reachable hreach e he
  rw [hmade] at hexec
  obtain ⟨hy, -⟩ := hexec
  rw [MemoryAgentCredentialCacheStore.get_eq, hentries] at hy
  by_cases hblank : isBlank cacheKey = false
  · rw [hblank] at hy
    obtain rfl : y = .ok ((lastPut cacheKey before.log).getD .undefined) := hy
    rcases hend with ⟨e', he', -⟩ | ⟨cache, hcache, hend⟩
    · cases he'
    cases hcache
    cases hlast : lastPut cacheKey before.log with
    | none =>
        rw [hlast] at hend
        refine .inr (.inl ⟨fun e' he' => ?_, ?_⟩)
        · exact List.findSome?_eq_none_iff.mp hlast e' (List.mem_reverse.mpr he')
        · rcases hend with ⟨-, hx⟩ | ⟨htruthy, -⟩
          · exact hx
          · cases htruthy
    | some cache =>
        rw [hlast, Option.getD_some] at hend
        obtain ⟨after, put, first, hreverse, hput, hafter⟩ := List.findSome?_eq_some_iff.mp hlast
        have hsplit : before.log = first.reverse ++ put :: after.reverse := by
          rw [← List.reverse_reverse before.log, hreverse]
          simp
        have hwhole : cfg.log = first.reverse ++ put :: (after.reverse ++ e :: log₂) := by
          rw [hlog, hsplit, List.append_assoc, List.cons_append]
        obtain ⟨call, q, hcalls, hgenuine, hpermits⟩ := permitted_of_mem_log hreach hwhole
        rw [eq_of_putOf hput] at hpermits
        cases call with
        | read => exact hpermits.elim
        | write key input =>
            obtain ⟨rfl, entry, c, hscope, hcreated, hprotect, rfl⟩ := hpermits
            have hle : ownTrace put.call first.reverse <+: ownTrace put.call cfg.log := by
              rw [hwhole, ownTrace_append]
              exact List.prefix_append _ _
            refine .inr (.inr ⟨entry, ⟨input, q, first.reverse, put, after.reverse, hcalls, hsplit,
              ⟨_, eq_of_putOf hput⟩, fun e' he' => hafter e' (List.mem_reverse.mp he'), hcreated⟩,
              ?_⟩)
            rcases hend with ⟨htruthy, -⟩ | ⟨-, hend⟩
            · cases htruthy
            · exact opened_of_sealed hreach hle hgenuine hcreated hprotect hscope hes hend
  · rw [Bool.not_eq_false] at hblank
    rw [hblank] at hy
    obtain rfl : y = .error (.cache (.unavailable "agent credential cache key is required")) := hy
    rcases hend with ⟨e', he', hx⟩ | ⟨cache, hcache, -⟩
    · cases he'
      exact .inl ⟨hblank, hx⟩
    · cases hcache

/-! ## A store that is not trusted -/

/-- The two texts have one digest, and the expected one is not blank. -/
def SameField (actual : JsString) (expected : JsValue) : Prop :=
  ∃ s, expected = .string s ∧ isBlank s = false ∧
    Sha256.digest (Js.utf8 actual) = Sha256.digest (Js.utf8 s)

/-- The entry is what is expected, and not expired. -/
structure Expected (e : AgentCredentialCacheEntry) (expected : AgentCredentialCacheExpectedState)
    (now : JsNumber) : Prop where
  current : now.ge e.expiresAt = false
  principalId : SameField e.principalId expected.principalId
  bindingHash : SameField e.bindingHash expected.bindingHash
  policyDigest : SameField e.policyDigest expected.policyDigest
  permissionsHash : SameField e.permissionsHash expected.permissionsHash

omit [DecidableEq ι] in
theorem assertSameField_eq_ok {actual : JsString} {expected : JsValue} {name : String} :
    assertSameField actual expected name = .ok () ↔ SameField actual expected := by
  simp only [assertSameField, bind_eq_ok, requireNonEmptyString_eq_ok, require_eq_ok,
    constantTimeStringEqual, beq_iff_eq, SameField, and_assoc]

omit [DecidableEq ι] in
theorem validateEntryAgainstCurrentState_eq_ok {e : AgentCredentialCacheEntry}
    {expected : AgentCredentialCacheExpectedState} {now : JsNumber} :
    validateEntryAgainstCurrentState e expected now = .ok () ↔ Expected e expected now := by
  simp only [validateEntryAgainstCurrentState, bind_eq_ok, require_eq_ok, exists_unit,
    assertSameField_eq_ok]
  constructor
  · rintro ⟨h1, h2, h3, h4, h5⟩
    exact ⟨h1, h2, h3, h4, h5⟩
  · rintro ⟨h1, h2, h3, h4, h5⟩
    exact ⟨h1, h2, h3, h4, h5⟩

omit [DecidableEq ι] in
/-- An entry that is returned is what is expected. -/
theorem Compared.returned {h : CacheHistory} {entry e : AgentCredentialCacheEntry}
    {expected : AgentCredentialCacheExpectedState}
    (hcompared : Compared h entry expected (.ok (.entry e))) :
    entry = e ∧ ∃ now, Dated h expected.nowMs now ∧ Expected e expected now := by
  obtain ⟨now, hdated, hx⟩ := hcompared
  cases hcheck : validateEntryAgainstCurrentState entry expected now with
  | error err =>
      rw [hcheck] at hx
      cases hx
  | ok u =>
      rw [hcheck] at hx
      cases hx
      exact ⟨rfl, now, hdated, validateEntryAgainstCurrentState_eq_ok.mp hcheck⟩

end Runs

/-! ## A concrete run

One write, and a read behind it. -/

namespace Example

/-- A protector that puts a byte before a plaintext. -/
def run (s : CacheState) : (o : CacheOp) → o.Answer × CacheState
  | .now => (.fin 1000, s)
  | .protect p =>
      if ∀ q ∈ s.protections, q.2 = 1 :: p → q.1 = p then (.ok (1 :: p), s.sealed p (1 :: p))
      else (.error .other, s)
  | .unprotect c => (if (c.tail, c) ∈ s.protections then .ok c.tail else .error .other, s)
  | .put cacheKey cache =>
      match MemoryAgentCredentialCacheStore.put s.entries cacheKey cache with
      | .ok entries => (.ok (), { s with entries })
      | .error e => (.error (.cache e), s)
  | .get cacheKey => ((MemoryAgentCredentialCacheStore.get s.entries cacheKey).mapError .cache, s)

theorem exec_run (s : CacheState) (o : CacheOp) : CacheOp.Exec s o (run s o).1 (run s o).2 := by
  cases o with
  | now => exact ⟨⟨1000, by decide, rfl⟩, rfl⟩
  | get cacheKey => exact ⟨rfl, rfl⟩
  | unprotect c =>
      refine ⟨fun p hp => ?_, rfl⟩
      simp only [run] at hp
      split_ifs at hp with hmem
      obtain rfl := Except.ok.inj hp
      exact hmem
  | protect p =>
      simp only [run]
      split_ifs with hfree
      · exact .inr ⟨1 :: p, rfl, ⟨List.cons_ne_nil _ _, fun q hq => hfree _ hq rfl⟩, rfl⟩
      · exact .inl ⟨⟨.other, rfl⟩, rfl⟩
  | put cacheKey cache =>
      simp only [CacheOp.Exec, run]
      cases hput : MemoryAgentCredentialCacheStore.put s.entries cacheKey cache with
      | error e => exact .inl ⟨e, rfl, rfl, rfl⟩
      | ok entries => exact .inr ⟨entries, rfl, rfl, rfl⟩

def input : CreateAgentCredentialCacheEntryInput where
  principalId := .string (lit "p")
  bindingHash := .string (lit "b")
  policyDigest := .string (lit "d")
  permissionsHash := .string (lit "h")
  expiresAt := .number (.fin 2000)
  credentialMaterial := some (.string (lit "token"))
  nowMs := none

def expected : AgentCredentialCacheExpectedState where
  principalId := .string (lit "p")
  bindingHash := .string (lit "b")
  policyDigest := .string (lit "d")
  permissionsHash := .string (lit "h")
  nowMs := none

/-- The entry of the input, at the time of the clock. -/
def entry : AgentCredentialCacheEntry where
  version := .string (lit "1")
  principalId := lit "p"
  bindingHash := lit "b"
  policyDigest := lit "d"
  permissionsHash := lit "h"
  expiresAt := .fin 2000
  sealedAt := .fin 1000
  credentialMaterial := .string (lit "token")

def plaintext : Bytes :=
  Js.utf8 entry.serialized

/-- What the store and the protector hold behind the write. -/
def stored : CacheState where
  entries := OrderedMap.empty.set (lit "k") (sealedCache (.fin 1000) (1 :: plaintext))
  protections := [(plaintext, 1 :: plaintext)]

theorem drive_write : ∃ log,
    ((CacheCall.write (lit "k") input).body (lit "CurrentUser")).drive run 0 ⟨.empty, []⟩ [] =
      (.ret (.sealed (sealedCache (.fin 1000) (1 :: plaintext))), stored, log) :=
  ⟨_, rfl⟩

theorem valid : entry.Valid where
  version := rfl
  principalId := rfl
  bindingHash := rfl
  policyDigest := rfl
  permissionsHash := rfl
  expiresAt := rfl
  sealedAt := rfl

theorem genuine : (CacheCall.write (lit "k") input).Genuine := by
  have hinteger : ∀ n : ℤ, n.natAbs < 2 ^ 53 → Js.Genuine (.number (.fin n)) := by
    intro n hn
    refine .number fun q hq => ?_
    cases hq
    exact Js.isDouble_intCast hn
  refine ⟨hinteger 2000 (by decide), fun n hn => ?_, fun m hm => ?_⟩
  · cases hn
  · cases hm
    exact .string _

theorem parsed : parseCacheEntry (Js.fromUtf8 plaintext) = .ok entry :=
  parseCacheEntry_fromUtf8 valid (.of_check (by decide +kernel))

theorem validated : validateEntryAgainstCurrentState entry expected (.fin 1000) = .ok () :=
  validateEntryAgainstCurrentState_eq_ok.mpr ⟨by decide, ⟨_, rfl, rfl, rfl⟩, ⟨_, rfl, rfl, rfl⟩,
    ⟨_, rfl, rfl, rfl⟩, ⟨_, rfl, rfl, rfl⟩⟩

theorem run_unprotect : run stored (.unprotect (1 :: plaintext)) = (.ok plaintext, stored) := by
  simp [run, stored]

theorem drive_open (log : List (CacheLogged ℕ)) : ∃ log',
    (openAgentCredentialCacheEntry (lit "CurrentUser")
      (sealedCache (.fin 1000) (1 :: plaintext)) expected).drive run 1 stored log =
        (.ret entry, stored, log') := by
  have hvalid := validateSealedEnvelope_sealedCache valid.sealedAt (List.cons_ne_nil 1 plaintext)
  change validateSealedEnvelope (sealedCache (.fin 1000) (1 :: plaintext)) = _ at hvalid
  rw [openAgentCredentialCacheEntry, hvalid, requireScope, require_of rfl,
    ciphertextOf_sealedCache]
  have hunseal : (unprotect (1 :: plaintext)).drive run 1 stored log =
      (.ret plaintext, stored,
        log ++ [⟨1, ⟨.unprotect (1 :: plaintext), .ok plaintext⟩, stored⟩]) := by
    rw [unprotect, Prog.drive_await run_unprotect]
    rfl
  have hcheck : ∀ log, (check (validateEntryAgainstCurrentState entry expected (.fin 1000))).drive
      run 1 stored log = (.ret (), stored, log) := by
    intro log
    rw [validated]
    rfl
  have hnow : ∀ log, (nowOr expected.nowMs).drive run 1 stored log =
      (.ret (.fin 1000), stored, log ++ [⟨1, ⟨.now, .fin 1000⟩, stored⟩]) :=
    fun _ => rfl
  have hparse : ∀ log, (check (parseCacheEntry (Js.fromUtf8 plaintext))).drive run 1 stored log =
      (.ret entry, stored, log) := by
    intro log
    rw [parsed]
    rfl
  have hchecked : ∀ log, (check (.ok ())).drive run 1 stored log = (.ret (), stored, log) :=
    fun _ => rfl
  rw [Prog.drive_bind (hchecked _), Prog.drive_bind (hchecked _), Prog.drive_bind hunseal,
    Prog.drive_bind (hparse _), Prog.drive_bind (hnow _), Prog.drive_bind (hcheck _)]
  exact ⟨_, rfl⟩

theorem drive_read (log : List (CacheLogged ℕ)) : ∃ log',
    ((CacheCall.read (lit "k") expected).body (lit "CurrentUser")).drive run 1 stored log =
      (.ret (.entry entry), stored, log') := by
  have hget : ∀ log, (Prog.await (.get (lit "k")) .lift : CacheProg JsValue).drive run 1 stored
      log = (.ret (sealedCache (.fin 1000) (1 :: plaintext)), stored,
        log ++ [⟨1, ⟨.get (lit "k"), .ok (sealedCache (.fin 1000) (1 :: plaintext))⟩, stored⟩]) :=
    fun _ => rfl
  have hfound : ∀ log, (check (require
      (Pair.truthy (sealedCache (.fin 1000) (1 :: plaintext)) = true)
      (.unavailable "agent credential cache entry unavailable"))).drive run 1 stored log =
        (.ret (), stored, log) :=
    fun _ => rfl
  obtain ⟨log', hopen⟩ := drive_open (log ++
    [⟨1, ⟨.get (lit "k"), .ok (sealedCache (.fin 1000) (1 :: plaintext))⟩, stored⟩])
  have hread : (read (lit "CurrentUser") (lit "k") expected).drive run 1 stored log =
      (.ret entry, stored, log') := by
    rw [read, Prog.drive_bind (hget _), Prog.drive_bind (hfound _), hopen]
  exact ⟨log', Prog.drive_bind hread⟩

abbrev Cache : Service CacheCall CacheOp CacheOp.Answer Thrown CacheAnswer CacheState :=
  cacheService (lit "CurrentUser") False

def calls : List CacheCall :=
  [.write (lit "k") input, .read (lit "k") expected]

/-- The calls served one after another. -/
def served : CacheConfig ℕ :=
  Cache.serveAll run ⟨⟨.empty, []⟩, fun _ => none, []⟩ 0 calls

theorem served_reachable : Transition.Reachable (Cache.system ℕ) served := by
  have hadm : ∀ r ∈ calls, r.Genuine := by
    intro r hr
    simp only [calls, List.mem_cons, List.not_mem_nil, or_false] at hr
    rcases hr with rfl | rfl
    · exact genuine
    · trivial
  have hrun : Transition.Run (Cache.system ℕ) ⟨⟨.empty, []⟩, fun _ => none, []⟩ served :=
    Service.run_serveAll exec_run (fun _ _ => rfl) hadm
  exact hrun.reachable (.init ⟨rfl, fun _ => rfl, rfl⟩)

theorem served_read : served.calls 1 =
    some ⟨.read (lit "k") expected, .ret (.entry entry)⟩ := by
  obtain ⟨log, hwrite⟩ := drive_write
  obtain ⟨log', hread⟩ := drive_read log
  let start : CacheConfig ℕ :=
    ⟨⟨.empty, []⟩, fun _ => none, []⟩
  have hshared : (Cache.serve run start 0 (.write (lit "k") input)).shared = stored :=
    congrArg (fun d => d.2.1) hwrite
  have hlog : (Cache.serve run start 0 (.write (lit "k") input)).log = log :=
    congrArg (fun d => d.2.2) hwrite
  have hserved : served = Cache.serve run (Cache.serve run start 0 (.write (lit "k") input)) 1
      (.read (lit "k") expected) :=
    rfl
  have hread' : (Prog.drive run 1 (Cache.body (.read (lit "k") expected)) stored log).1 =
      .ret (.entry entry) :=
    congrArg Prod.fst hread
  rw [hserved, Service.serve, hshared, hlog, hread']
  simp only [Function.update_self]

theorem read_of_last_write_sample :
    Transition.Reachable (Cache.system ℕ) served ∧
      served.calls 1 = some ⟨.read (lit "k") expected, Prog.lift (.ok (.entry entry))⟩ ∧
      ∃ log₁ e log₂, served.log = log₁ ++ e :: log₂ ∧ e.call = 1 ∧ e.made.1 = .get (lit "k") ∧
        ((isBlank (lit "k") = true ∧ (.ok (.entry entry) : Except Thrown CacheAnswer) =
            .error (.cache (.unavailable "agent credential cache key is required"))) ∨
          ((∀ e' ∈ log₁, putOf (lit "k") e' = none) ∧
            (.ok (.entry entry) : Except Thrown CacheAnswer) =
              .error (.cache (.unavailable "agent credential cache entry unavailable"))) ∨
          ∃ found, StoredLast served (lit "k") log₁ found ∧
            Opened (ownTrace 1 served.log) found expected (.ok (.entry entry))) :=
  ⟨served_reachable, served_read, read_of_last_write served_reachable served_read⟩

end Example

end AgentCache
