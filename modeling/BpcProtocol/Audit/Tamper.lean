import BpcProtocol.Audit.MemoryLog
import BpcProtocol.Audit.PgLog
import BpcProtocol.Js.Ascii
import BpcProtocol.Js.JsonImage

set_option autoImplicit false

/-! # Tampering with an audit log

What the verifier is worth against a list that anyone may have made: the text that is hashed
determines the hashed fields, so behind an anchor the links lead back through the original entries
one by one. -/

namespace Audit

open Js (IsDouble WellFormed)

/-! ## The hashed text determines the hashed fields -/

/-- What the hash of an entry covers, the severity as it is hashed. -/
def hashedFields (e : AuditEntry) : List JsValue :=
  chainFields e.normalized

theorem chainPreimage_eq (e : BareAuditEntry) :
    Js.stringify (.array (chainFields e)) = some (chainPreimage e) :=
  rfl

theorem chainPreimage_wellFormed (e : BareAuditEntry) : WellFormed (chainPreimage e) :=
  Js.stringify_wellFormed (chainPreimage_eq e)

theorem genuine_orNull (text : Option JsString) : Js.Genuine (orNull text) := by
  cases text with
  | none => exact .null
  | some s => exact .string s

theorem genuine_chainFields (e : BareAuditEntry) : Js.Genuine (.array (chainFields e)) := by
  refine .array fun v hv => ?_
  simp only [chainFields, List.mem_cons, List.not_mem_nil, or_false] at hv
  rcases hv with rfl | rfl | rfl | rfl | rfl | rfl | rfl | rfl | rfl | rfl | rfl | rfl | rfl | rfl
  · exact .number e.seq.2
  · exact .string _
  · exact .string _
  · exact .number e.timestamp.2
  · exact .string _
  · cases e.severity with
    | none => exact .undefined
    | some s => exact .string s
  all_goals exact genuine_orNull _

theorem image_orNull (text : Option JsString) : Js.image (orNull text) = some (orNull text) := by
  cases text <;> rfl

/-- What JSON gives back as a number was that number. -/
theorem image_number_eq {m n : JsNumber}
    (h : (Js.image (.number m)).getD .null = .number n) : m = n := by
  cases m with
  | fin q => exact JsValue.number.inj h
  | nan => cases h
  | posInf => cases h
  | negInf => cases h

/-- **Free text cannot run over**: entries with one hashed text have the same hashed fields, if one
    of them has finite numbers. -/
theorem chainFields_eq_of_preimage {e o : BareAuditEntry} (ho : o.Finite)
    (he : e.severity.isSome = true) (hos : o.severity.isSome = true)
    (h : chainPreimage e = chainPreimage o) : chainFields e = chainFields o := by
  have himage : Js.image (.array (chainFields e)) = Js.image (.array (chainFields o)) := by
    rw [← (genuine_chainFields e).parse_stringify, ← (genuine_chainFields o).parse_stringify,
      chainPreimage_eq, chainPreimage_eq, h]
  obtain ⟨s, hs⟩ := Option.isSome_iff_exists.mp he
  obtain ⟨s', hs'⟩ := Option.isSome_iff_exists.mp hos
  have hitems := JsValue.array.inj (Option.some.inj himage)
  simp only [chainFields, Js.imageItems, image_orNull, hs, hs', Option.elim_some, Option.getD_some,
    List.cons.injEq] at hitems ⊢
  obtain ⟨hseq, hprev, hid, htime, haction, hseverity, hrest⟩ := hitems
  have hnumber : ∀ {n : JsNumber}, n.isFinite = true →
      (Js.image (.number n)).getD .null = .number n := by
    intro n hn
    rw [Js.image, if_pos hn]
    rfl
  rw [hnumber ho.1] at hseq
  rw [hnumber ho.2] at htime
  refine ⟨?_, hprev, hid, ?_, haction, hseverity, hrest⟩
  · rw [image_number_eq hseq]
  · rw [image_number_eq htime]

/-! ## Back from an anchor -/

theorem linked_of_isChain {l : List AuditEntry} (h : l.IsChain Follows) :
    Chain.Linked (fun e => some e.prevHash) AuditEntry.chainHash (l.head?.map (·.prevHash)) l := by
  induction l with
  | nil => trivial
  | cons a rest ih =>
      refine ⟨rfl, ?_⟩
      cases rest with
      | nil => trivial
      | cons b rest =>
          obtain ⟨hab, hrest⟩ := List.isChain_cons_cons.mp h
          have hlinked := ih hrest
          rwa [List.head?_cons, Option.map_some, hab.2] at hlinked

theorem countedFrom_of_isChain {k : ℕ} {a : AuditEntry} {l : List AuditEntry}
    (h : (a :: l).IsChain Follows) (ha : a.seq = .counted k) : CountedFrom k (a :: l) := by
  induction l generalizing a k with
  | nil =>
      intro i hi
      obtain rfl : i = 0 := by simpa using hi
      exact ha
  | cons b rest ih =>
      obtain ⟨hab, hrest⟩ := List.isChain_cons_cons.mp h
      have hb : b.seq = .counted (k + 1) := by
        simpa [ha] using hab.1
      intro i hi
      cases i with
      | zero => exact ha
      | succ i =>
          rw [List.getElem_cons_succ, ih hrest hb i (by simpa using hi)]
          congr 1
          omega

/-- `a <= b`. -/
def seqAtMost (e : AuditEntry) (seq : JsDouble) : Bool :=
  e.seq.lt seq || e.seq.eq seq

theorem seq_eq_of_hashedFields {e o : AuditEntry} (h : hashedFields e = hashedFields o) :
    e.seq = o.seq :=
  Subtype.ext (JsValue.number.inj (List.cons.inj h).1)

theorem prevHash_eq_of_hashedFields {e o : AuditEntry} (h : hashedFields e = hashedFields o) :
    e.prevHash = o.prevHash :=
  JsValue.string.inj (List.cons.inj (List.cons.inj h).2).1

/-- The inputs that are hashed for the entries of a list. -/
def hashInputs (entries : List AuditEntry) : Set Bytes :=
  { b | ∃ e ∈ entries, b = Js.utf8 (chainPreimage e.normalized) }

theorem seqAtMost_of_le {e : AuditEntry} {m n : ℕ} (he : e.seq = .counted m) (hmn : m ≤ n) :
    seqAtMost e (.counted n) = true := by
  rw [seqAtMost, he, JsDouble.lt_counted, JsDouble.eq_counted, Bool.or_eq_true, decide_eq_true_iff,
    decide_eq_true_iff]
  rcases Nat.lt_or_ge (min m (2 ^ 53)) (min n (2 ^ 53)) with hlt | hge
  · exact Or.inl hlt
  · refine Or.inr (Subtype.ext ?_)
    show JsNumber.fin _ = JsNumber.fin _
    rw [show min m (2 ^ 53) = min n (2 ^ 53) by omega]

theorem not_seqAtMost_of_lt {e : AuditEntry} {m n : ℕ} (he : e.seq = .counted m) (hnm : n < m)
    (hn : n < 2 ^ 53) : seqAtMost e (.counted n) = false := by
  rw [seqAtMost, he, JsDouble.lt_counted, JsDouble.eq_counted, Bool.or_eq_false_iff,
    decide_eq_false_iff_not, decide_eq_false_iff_not]
  refine ⟨by omega, fun heq => ?_⟩
  have hmin : JsDouble.counted (min m (2 ^ 53)) = .counted n := by
    rw [← heq]
    refine Subtype.ext ?_
    show JsNumber.fin _ = JsNumber.fin _
    rw [Nat.min_assoc, Nat.min_self]
  rw [JsDouble.counted_inj (Nat.min_le_right m _) (by omega)] at hmin
  omega

variable {sha256 : Bytes → JsString}

/-- Entries with one hash have the same hashed fields, where hashes do not collide. -/
theorem hashedFields_eq_of_hash {log entries : List AuditEntry}
    (hinj : Set.InjOn sha256 (hashInputs (log ++ entries))) {e o : AuditEntry} (he : e ∈ entries)
    (ho : o ∈ log) (hfinite : o.Finite) (hehash : Hashed sha256 e)
    (hohash : Hashed sha256 o) (h : e.chainHash = o.chainHash) :
    hashedFields e = hashedFields o := by
  rw [← hehash, ← hohash] at h
  have hbytes := hinj ⟨e, List.mem_append_right _ he, rfl⟩ ⟨o, List.mem_append_left _ ho, rfl⟩ h
  have htext := Js.utf8_injective (chainPreimage_wellFormed _) (chainPreimage_wellFormed _) hbytes
  exact chainFields_eq_of_preimage hfinite rfl rfl htext

/-- Against the head of an untouched log, a list is accepted only if what it holds up to the head's
    number is an end of that log. -/
theorem Recorded.evident {log entries : List AuditEntry} (h : Recorded sha256 log)
    (hfinite : ∀ e ∈ log, e.Finite) (hexact : log.length < 2 ^ 53)
    {anchor : ChainHead} (hseq : anchor.seq = .counted log.length)
    (hhash : anchor.chainHash = tipHash log)
    (hinj : Set.InjOn sha256 (hashInputs (log ++ entries)))
    (hgenesis : ∀ b ∈ hashInputs entries, sha256 b ≠ genesisHash)
    (hvalid : (verifyEntries sha256 entries (some anchor)).valid = true) :
    ∃ k < log.length, List.Perm
      ((entries.filter (seqAtMost · anchor.seq)).map hashedFields)
      ((log.drop k).map hashedFields) := by
  obtain ⟨hlinks, hanchor⟩ := (verifyEntries_valid _ _ _).mp hvalid
  obtain ⟨hhashed, hchain⟩ := (verifyLinks_eq_none _ _ _).mp hlinks
  obtain ⟨-, a, hfind, hahash⟩ := (verifyAnchor_eq_none _ _).mp (hanchor anchor rfl)
  have hperm : (sortBySeq entries).Perm entries := List.mergeSort_perm _ _
  obtain ⟨haseq, front, back, hsorted, -⟩ := List.find?_eq_some_iff_append.mp hfind
  rw [hseq, JsDouble.eq_counted, decide_eq_true_iff] at haseq
  rw [hsorted] at hhashed hchain hperm
  rw [Option.toList_none, List.nil_append] at hchain
  have hsplit : front ++ a :: back = (front ++ [a]) ++ back := by simp
  have hmem : ∀ e ∈ front ++ [a], e ∈ entries ∧ Hashed sha256 e := by
    intro e he
    have hin : e ∈ front ++ a :: back := by
      rw [hsplit]
      exact List.mem_append_left _ he
    exact ⟨hperm.subset hin, hhashed e hin⟩
  -- up to the anchor the list is linked, and it ends in the log's own tip
  have hlinked := linked_of_isChain (by
    rw [hsplit] at hchain
    exact hchain.left_of_append)
  have htip : Chain.tip AuditEntry.chainHash ((front ++ [a]).head?.map (·.prevHash)) (front ++ [a]) =
      Chain.tip AuditEntry.chainHash (some genesisHash) log := by
    have hahash' : a.chainHash = anchor.chainHash := hahash
    rw [tip_eq, Chain.tip_of_getLast? (List.getLast?_concat ..), hahash', hhash]
  have hview : ∀ e ∈ front ++ [a], ∀ o ∈ log, e.chainHash = o.chainHash →
      hashedFields e = hashedFields o := by
    intro e he o ho heq
    exact hashedFields_eq_of_hash hinj (hmem e he).1 ho (hfinite o ho) (hmem e he).2
      (h.hashed o ho) heq
  have hstart : ∀ e ∈ front ++ [a], some genesisHash ≠ some e.chainHash := by
    intro e he heq
    refine hgenesis _ ⟨e, (hmem e he).1, rfl⟩ ?_
    rw [Option.some.inj heq]
    exact (hmem e he).2
  obtain ⟨pre, hpre⟩ := hlinked.suffix_of_tip h.linked hview
    (fun e _ o _ heq => by rw [prevHash_eq_of_hashedFields heq]) hstart (by simp) htip
  have hlength : pre.length + (front.length + 1) = log.length := by
    have := congrArg List.length hpre
    simpa using this
  refine ⟨pre.length, by omega, ?_⟩
  have hdrop : (log.drop pre.length).map hashedFields = (front ++ [a]).map hashedFields := by
    rw [List.map_drop, ← hpre, List.drop_left]
  have hbefore : ∀ e ∈ front ++ [a], seqAtMost e anchor.seq = true := by
    intro e he
    have hin : hashedFields e ∈ log.map hashedFields := by
      rw [← hpre]
      exact List.mem_append_right _ (List.mem_map_of_mem he)
    obtain ⟨o, ho, heq⟩ := List.mem_map.mp hin
    obtain ⟨i, hi, rfl⟩ := List.getElem_of_mem ho
    rw [hseq]
    exact seqAtMost_of_le ((seq_eq_of_hashedFields heq).symm.trans (h.counted i hi)) (by omega)
  have hafter : ∀ e ∈ back, seqAtMost e anchor.seq = false := by
    intro e he
    obtain ⟨i, hi, rfl⟩ := List.getElem_of_mem he
    have hcounted := countedFrom_of_isChain hchain.right_of_append haseq (i + 1) (by simpa using hi)
    rw [List.getElem_cons_succ] at hcounted
    rw [hseq]
    exact not_seqAtMost_of_lt hcounted (by omega) hexact
  rw [hdrop]
  refine List.Perm.map _ ((hperm.symm.filter _).trans ?_)
  rw [hsplit, List.filter_append, List.filter_eq_self.mpr hbefore,
    List.filter_eq_nil_iff.mpr fun e he => by rw [hafter e he]; exact Bool.false_ne_true,
    List.append_nil]

/-! ## Anchors -/

/-- A head that a log has answered at some moment, and the entries written to it by now. -/
inductive Anchored (sha256 : Bytes → JsString) : List AuditEntry → ChainHead → Prop
  | memory (maxSize : JsNumber) (before after : List (AuditInput × Stamp)) :
      Anchored sha256 ((MemoryAuditLog.new maxSize).written sha256 (before ++ after))
        ((MemoryAuditLog.new maxSize).writeAll sha256 before).head
  | postgres {ι : Type} [DecidableEq ι] {s t : Writers ι} {second : AuditTable}
      {anchor : ChainHead} : Transition.Reachable (Writers.system sha256 ι) s →
      Transition.Run (Writers.system sha256 ι) s t → PgAuditLog.head s.table second = .ok anchor →
      Anchored sha256 (entriesOf t.table) anchor

/-- Entries that a log has made are finite where they are numbered. -/
theorem Recorded.finite {log : List AuditEntry} (h : Recorded sha256 log)
    (hmade : ∀ e ∈ log, ∃ entry : AuditInput, ∃ stamp seq prevHash,
      e = (entry.base stamp seq prevHash).sealed sha256) {e : AuditEntry} (he : e ∈ log) :
    e.Finite := by
  obtain ⟨entry, stamp, seq, prevHash, rfl⟩ := hmade e he
  obtain ⟨i, hi, hget⟩ := List.getElem_of_mem he
  have hseq := h.counted i hi
  rw [hget] at hseq
  refine entry.base_finite stamp ?_ prevHash
  rw [show seq = .counted (1 + i) from hseq]
  rfl

/-- An anchor is the head of the first entries of an untouched log. -/
theorem Anchored.spec {log : List AuditEntry} {anchor : ChainHead} (h : Anchored sha256 log anchor) :
    Recorded sha256 log ∧ (∀ e ∈ log, e.Finite) ∧ ∃ n ≤ log.length, anchor.seq = .counted n ∧
      anchor.chainHash = tipHash (log.take n) := by
  cases h with
  | memory maxSize before after =>
      have hall := @MemoryAuditLog.holds_writeAll_new sha256 maxSize (before ++ after)
      have hbefore := @MemoryAuditLog.holds_writeAll_new sha256 maxSize before
      refine ⟨hall.recorded, fun e he => hall.recorded.finite (fun e he => ?_) he, before.length, ?_,
        ?_, ?_⟩
      · obtain ⟨w, -, seq, prevHash, hmade⟩ := MemoryAuditLog.mem_written he
        exact ⟨w.1, w.2, seq, prevHash, hmade⟩
      · rw [MemoryAuditLog.length_written, List.length_append]
        omega
      · rw [hbefore.head_eq, headOf, MemoryAuditLog.length_written]
      · rw [hbefore.head_eq, headOf, MemoryAuditLog.take_written]
  | @postgres ι _ s t second anchor hs hrun hhead =>
      have ht := hrun.reachable hs
      have hinv := Writers.inv_reachable ht
      obtain ⟨hseq, hhash⟩ := (Writers.inv_reachable hs).table.head hhead
      obtain ⟨rest, hrest⟩ := Writers.rows_prefix hrun
      have htake : (entriesOf t.table).take s.table.rows.length = entriesOf s.table := by
        rw [entriesOf, ← hrest, List.map_append]
        exact List.take_left' (List.length_map _)
      refine ⟨hinv.table.recorded, fun e he => hinv.table.recorded.finite (fun e he => ?_) he,
        s.table.rows.length, ?_, hseq, by rw [htake, hhash]⟩
      · obtain ⟨row, hrow, rfl⟩ := List.mem_map.mp he
        obtain ⟨call, seq, prevHash, hmade⟩ := Writers.made ht hrow
        exact ⟨call.entry, call.stamp, seq, prevHash, hmade⟩
      · rw [entriesOf, List.length_map, ← hrest, List.length_append]
        omega

/-! ## Tamper evidence -/

/-- **Behind an anchor nothing can be forged.** Whatever list the verifier accepts with an anchor of
    a log, what it holds up to the anchor's number is a gap-free run of the log's entries that ends
    at the anchor, whoever made the list: if no two of the hashed texts collide, none of the listed
    ones hits the genesis hash, and the anchor's number is one up to which the counter counts. -/
theorem tamper_evident {log entries : List AuditEntry} {anchor : ChainHead}
    (h : Anchored sha256 log anchor) (hexact : anchor.seq.1.isSafeInteger = true)
    (hinj : Set.InjOn sha256 (hashInputs (log ++ entries)))
    (hgenesis : ∀ b ∈ hashInputs entries, sha256 b ≠ genesisHash)
    (hvalid : (verifyEntries sha256 entries (some anchor)).valid = true) :
    (∃ k n, k < n ∧ n ≤ log.length ∧ anchor.seq = .counted n ∧
      List.Perm ((entries.filter (seqAtMost · anchor.seq)).map hashedFields)
        (((log.take n).drop k).map hashedFields)) ∧
      ∀ e ∈ entries, seqAtMost e anchor.seq = true →
        ∃ o ∈ log, o.seq = e.seq ∧ hashedFields o = hashedFields e := by
  obtain ⟨hrecorded, hfinite, n, hn, hseq, hhash⟩ := h.spec
  have hlength : (log.take n).length = n := by simpa using hn
  have hsafe : n < 2 ^ 53 := by
    rw [hseq, JsNumber.isSafeInteger, JsDouble.toInt?_counted, Option.any_some, Js.isSafeInteger,
      Bool.and_eq_true, decide_eq_true_iff, decide_eq_true_iff, Js.maxSafeInteger] at hexact
    omega
  have hinj' : Set.InjOn sha256 (hashInputs (log.take n ++ entries)) := by
    refine hinj.mono ?_
    rintro b ⟨e, he, rfl⟩
    refine ⟨e, ?_, rfl⟩
    rcases List.mem_append.mp he with he | he
    · exact List.mem_append_left _ (List.mem_of_mem_take he)
    · exact List.mem_append_right _ he
  obtain ⟨k, hk, hperm⟩ := (hrecorded.take n).evident
    (fun e he => hfinite e (List.mem_of_mem_take he)) (by rwa [hlength]) (by rw [hlength, hseq])
    hhash hinj' hgenesis hvalid
  refine ⟨⟨k, n, by rwa [hlength] at hk, hn, hseq, hperm⟩, ?_⟩
  intro e he hle
  have hin : hashedFields e ∈ ((log.take n).drop k).map hashedFields :=
    hperm.subset (List.mem_map_of_mem (List.mem_filter.mpr ⟨he, hle⟩))
  obtain ⟨o, ho, heq⟩ := List.mem_map.mp hin
  exact ⟨o, List.mem_of_mem_take (List.mem_of_mem_drop ho), seq_eq_of_hashedFields heq, heq⟩

/-- Of a log of two entries the verifier accepts the list as it is, and the entries agree. -/
theorem tamper_evident_sample :
    (∃ o ∈ [firstEntry, secondEntry],
        o.seq = firstEntry.seq ∧ hashedFields o = hashedFields firstEntry) ∧
      ∃ o ∈ [firstEntry, secondEntry],
        o.seq = secondEntry.seq ∧ hashedFields o = hashedFields secondEntry := by
  have hholds := @MemoryAuditLog.holds_writeAll_new recordedSha .posInf MemoryAuditLog.sampleWrites
  have hwritten := MemoryAuditLog.written_sampleWrites .posInf
  have hanchored : Anchored recordedSha _ _ := .memory .posInf MemoryAuditLog.sampleWrites []
  rw [List.append_nil, hholds.head_eq, hwritten] at hanchored
  rw [hwritten] at hholds
  have hinputs : ∀ b ∈ hashInputs [firstEntry, secondEntry],
      (b = Js.utf8 firstPreimage ∧ recordedSha b = firstHash) ∨
        (b = Js.utf8 secondPreimage ∧ recordedSha b = secondHash) := by
    rintro b ⟨e, he, rfl⟩
    rcases List.mem_pair.mp he with rfl | rfl
    · exact Or.inl ⟨rfl, computeChainHash_firstEntry⟩
    · exact Or.inr ⟨rfl, computeChainHash_secondEntry⟩
  have hsame : hashInputs ([firstEntry, secondEntry] ++ [firstEntry, secondEntry]) =
      hashInputs [firstEntry, secondEntry] := by
    ext b
    simp only [hashInputs, List.mem_append, or_self]
  have hinj : Set.InjOn recordedSha
      (hashInputs ([firstEntry, secondEntry] ++ [firstEntry, secondEntry])) := by
    rw [hsame]
    intro b hb c hc hbc
    rcases hinputs b hb with ⟨rfl, hb'⟩ | ⟨rfl, hb'⟩ <;>
      rcases hinputs c hc with ⟨rfl, hc'⟩ | ⟨rfl, hc'⟩
    · rfl
    · exact absurd (hb'.symm.trans (hbc.trans hc')) (by decide)
    · exact absurd (hb'.symm.trans (hbc.trans hc')) (by decide)
    · rfl
  have hgenesis : ∀ b ∈ hashInputs [firstEntry, secondEntry], recordedSha b ≠ genesisHash := by
    intro b hb
    rcases hinputs b hb with ⟨-, hb'⟩ | ⟨-, hb'⟩
    · rw [hb']
      decide
    · rw [hb']
      decide
  have hvalid := (hholds.recorded.verify_drop (by decide) (d := 0) (k := 2) (by decide)).mpr
    (by decide)
  have hall := tamper_evident hanchored (by decide +kernel) hinj hgenesis hvalid
  exact ⟨hall.2 firstEntry List.mem_cons_self (seqAtMost_of_le rfl (by decide)),
    hall.2 secondEntry (List.mem_cons_of_mem _ List.mem_cons_self)
      (seqAtMost_of_le rfl (by decide))⟩

/-! Two entries, the second right behind the first: where the counter no longer counts, both have
the anchor's number, and the first of them is the one that is compared. -/

theorem verify_pair {a b : AuditEntry} {anchor : ChainHead} {k : ℕ} (ha : Hashed sha256 a)
    (hb : Hashed sha256 b) (haseq : a.seq = .counted k) (hbseq : b.seq = .counted (k + 1))
    (hlink : b.prevHash = a.chainHash) (hseq : anchor.seq = .counted (k + 1))
    (hhash : anchor.chainHash = if k < 2 ^ 53 then b.chainHash else a.chainHash) :
    (verifyEntries sha256 [a, b] (some anchor)).valid = true := by
  have hfollows : Follows a b := by
    refine ⟨?_, hlink⟩
    rw [haseq, hbseq, JsDouble.incr_counted, JsDouble.eq_counted]
    exact decide_eq_true rfl
  have hchain : [a, b].IsChain Follows := by simpa using hfollows
  rw [verifyEntries_valid, (countedFrom_of_isChain hchain haseq).sort, verifyLinks_eq_none]
  refine ⟨⟨?_, hchain⟩, ?_⟩
  · intro e he
    rcases List.mem_pair.mp he with rfl | rfl
    · exact ha
    · exact hb
  · rintro anchor' ⟨⟩
    rw [verifyAnchor_eq_none]
    refine ⟨⟨b, rfl, by rw [hbseq, hseq, JsDouble.lt_counted]; simp⟩, ?_⟩
    rw [hseq]
    by_cases hk : k < 2 ^ 53
    · have hne : a.seq.eq (.counted (k + 1)) = false := by
        rw [haseq, JsDouble.eq_counted, decide_eq_false_iff_not,
          JsDouble.counted_inj (by omega) (by omega)]
        omega
      have heq : b.seq.eq (.counted (k + 1)) = true := by
        rw [hbseq, JsDouble.eq_counted]
        exact decide_eq_true rfl
      refine ⟨b, ?_, by rw [hhash, if_pos hk]⟩
      rw [List.find?_cons_of_neg (by rw [hne]; exact Bool.false_ne_true)]
      exact List.find?_cons_of_pos heq
    · have heq : a.seq.eq (.counted (k + 1)) = true := by
        rw [haseq, JsDouble.eq_counted, decide_eq_true_iff]
        exact JsDouble.counted_of_ge (by omega) (by omega)
      exact ⟨a, List.find?_cons_of_pos heq, by rw [hhash, if_neg hk]⟩

/-- An injective digest that never is the genesis hash. -/
def taggedDigest (b : Bytes) : JsString :=
  49 :: b.map UInt8.toUInt16

/-- An injective digest that one text sends to the genesis hash. -/
def digestHitting (text : Bytes) (b : Bytes) : JsString :=
  if b = text then genesisHash else taggedDigest b

theorem taggedDigest_ne (b : Bytes) : taggedDigest b ≠ genesisHash :=
  fun h => absurd (List.cons.inj h).1 (by decide)

theorem taggedDigest_injective : Function.Injective taggedDigest := by
  have hinj : Function.Injective UInt8.toUInt16 := by
    intro x y hxy
    have hnat := congrArg UInt16.toNat hxy
    exact UInt8.toNat_inj.mp (by simpa using hnat)
  intro b c hbc
  exact hinj.list_map (List.cons.inj hbc).2

theorem digestHitting_injective (text : Bytes) : Function.Injective (digestHitting text) := by
  intro b c hbc
  unfold digestHitting at hbc
  split_ifs at hbc with hb hc hc
  · rw [hb, hc]
  · exact absurd hbc.symm (taggedDigest_ne c)
  · exact absurd hbc (taggedDigest_ne b)
  · exact taggedDigest_injective hbc

/-- An entry that claims to stand before the first of a log. -/
def forgedFirst : BareAuditEntry :=
  { firstInput.base firstStamp (.counted 0) genesisHash with id := Js.lit "forged" }

/-- An entry that claims to stand behind `a`. -/
def forgedNext (a : AuditEntry) (n : ℕ) : BareAuditEntry :=
  { firstInput.base firstStamp (.counted n) a.chainHash with method := some (Js.lit "forged") }

/-- A forged entry that hashes to the genesis hash is accepted in front of a log. -/
theorem forgedFirst_accepted :
    let text := Js.utf8 (chainPreimage forgedFirst.normalized)
    let sha256 := digestHitting text
    let full := (MemoryAuditLog.new .posInf).full sha256 firstInput firstStamp
    let anchor := ((MemoryAuditLog.new .posInf).write sha256 firstInput firstStamp).head
    (verifyEntries sha256 [⟨forgedFirst, genesisHash⟩, full] (some anchor)).valid = true := by
  intro text sha256 full anchor
  have hseq : full.seq = .counted 1 := JsDouble.incr_counted 0
  exact verify_pair (k := 0) (if_pos rfl) rfl rfl hseq rfl hseq rfl

/-- Behind the head of a log whose counter stands still any entry is accepted. -/
theorem forgedNext_accepted {history : List AuditEntry} (h : Recorded sha256 history)
    (hlength : 2 ^ 53 ≤ history.length) {a : AuditEntry} (ha : history.getLast? = some a) :
    (verifyEntries sha256 [a, (forgedNext a (history.length + 1)).sealed sha256]
      (some (headOf history))).valid = true := by
  have hseq : a.seq = .counted history.length := by
    rw [List.getLast?_eq_getElem?] at ha
    obtain ⟨hi, hget⟩ := List.getElem?_eq_some_iff.mp ha
    rw [← hget, h.counted _ hi]
    congr 1
    omega
  refine verify_pair (h.hashed a (List.mem_of_getLast? ha)) rfl hseq rfl rfl
    (JsDouble.counted_of_ge hlength (by omega)) ?_
  rw [if_neg (by omega), headOf, tipHash, ha]
  rfl

/-- No entry of a log whose inputs have no method agrees with the forged one. -/
theorem hashedFields_ne_forgedNext {o a : AuditEntry} (ho : o.method = none) (n : ℕ) :
    hashedFields o ≠ hashedFields ((forgedNext a n).sealed sha256) := by
  intro heq
  have hmethod : some (orNull o.method) = some (orNull (forgedNext a n).method) :=
    congrArg (fun fields => fields[9]?) heq
  rw [ho] at hmethod
  cases hmethod

/-- Injectivity alone does not keep forged entries out: one may hash to the genesis hash, and one may
    stand behind an anchor whose number the counter repeats. -/
theorem forged_entries_accepted :
    (∃ sha256 log anchor entries, Function.Injective sha256 ∧ Anchored sha256 log anchor ∧
      (verifyEntries sha256 entries (some anchor)).valid = true ∧
      ∃ e ∈ entries, seqAtMost e anchor.seq = true ∧ ∀ o ∈ log, o.seq ≠ e.seq) ∧
    ∃ sha256 log anchor entries, Function.Injective sha256 ∧ (∀ b, sha256 b ≠ genesisHash) ∧
      Anchored sha256 log anchor ∧ (verifyEntries sha256 entries (some anchor)).valid = true ∧
      ∃ e ∈ entries, seqAtMost e anchor.seq = true ∧ ∀ o ∈ log, hashedFields o ≠ hashedFields e := by
  constructor
  · refine ⟨_, _, _, _, digestHitting_injective _, .memory .posInf [(firstInput, firstStamp)] [],
      forgedFirst_accepted, _, List.mem_cons_self, ?_, ?_⟩
    · have hseq : (JsDouble.counted 0).incr = .counted 1 := JsDouble.incr_counted 0
      show seqAtMost _ (JsDouble.counted 0).incr = true
      rw [hseq]
      exact seqAtMost_of_le rfl (by decide)
    · intro o ho
      obtain rfl := List.mem_singleton.mp ho
      show (JsDouble.counted 0).incr ≠ .counted 0
      rw [JsDouble.incr_counted, Ne, JsDouble.counted_inj (by decide) (by decide)]
      decide
  · obtain ⟨n, hn⟩ : ∃ n, n = 2 ^ 53 := ⟨_, rfl⟩
    let writes := List.replicate n (firstInput, firstStamp)
    let history := (MemoryAuditLog.new .posInf).written taggedDigest writes
    have hholds := @MemoryAuditLog.holds_writeAll_new taggedDigest .posInf writes
    have hlength : history.length = n := by
      rw [MemoryAuditLog.length_written, List.length_replicate]
    have hne : history ≠ [] := by
      rintro hnil
      rw [hnil, List.length_nil] at hlength
      omega
    obtain ⟨a, ha⟩ := Option.isSome_iff_exists.mp (List.getLast?_isSome.mpr hne)
    have hanchored : Anchored taggedDigest _ _ := .memory .posInf writes []
    have hfull : 2 ^ 53 ≤ history.length := by omega
    rw [List.append_nil, hholds.head_eq] at hanchored
    refine ⟨taggedDigest, _, _, _, taggedDigest_injective, taggedDigest_ne, hanchored,
      forgedNext_accepted hholds.recorded hfull ha, _,
      List.mem_cons_of_mem _ List.mem_cons_self, ?_, ?_⟩
    · -- its number is the anchor's: the counter stands still
      have hstill : JsDouble.counted (history.length + 1) = .counted history.length :=
        JsDouble.counted_of_ge (by omega) (by omega)
      exact seqAtMost_of_le hstill (Nat.le_refl _)
    · intro o ho
      obtain ⟨w, hw, seq, prevHash, rfl⟩ := MemoryAuditLog.mem_written ho
      exact hashedFields_ne_forgedNext (by rw [List.eq_of_mem_replicate hw]; rfl) _

/-! ## Entries taken out of a log -/

/-- **A deletion goes unnoticed exactly at the beginning of a log.** With some of its entries taken
    out, a log verifies against its current head if and only if what is left is an end of it, and
    not empty. The length of an array is below `2^32`. -/
theorem deletion_detected (sha256 : Bytes → JsString) :
    (∀ (writes : List (AuditInput × Stamp)) (kept : List AuditEntry),
      let log := (MemoryAuditLog.new .posInf).writeAll sha256 writes
      log.entries.length < 2 ^ 32 → kept.Sublist log.entries →
        (({ log with entries := kept }.verifyChain sha256 (some log.head)).valid = true ↔
          kept ≠ [] ∧ kept <:+ log.entries)) ∧
      ∀ (ι : Type) [DecidableEq ι] (s : Writers ι) (second kept : AuditTable) (anchor : ChainHead),
        Transition.Reachable (Writers.system sha256 ι) s →
        PgAuditLog.head s.table second = .ok anchor → kept.rows.Sublist s.table.rows →
          ((PgAuditLog.verifyChain sha256 kept (some anchor)).valid = true ↔
            kept.rows ≠ [] ∧ kept.rows <:+ s.table.rows) := by
  constructor
  · intro writes kept log hlength hsub
    have hholds := @MemoryAuditLog.holds_writeAll_new sha256 .posInf writes
    have hentries : log.entries = _ := hholds.unbounded (MemoryAuditLog.maxSize_writeAll _ _)
    rw [hentries] at hlength hsub ⊢
    show (verifyEntries sha256 kept (some log.head)).valid = true ↔ _
    rw [show log.head = _ from hholds.head_eq]
    exact hholds.recorded.verify_sublist (by omega) hsub
  · intro ι _ s second kept anchor hreach hhead hsub
    have hinv := Writers.inv_reachable hreach
    obtain ⟨hseq, hhash⟩ := hinv.table.head hhead
    have hordered : Relational.orderBy AuditRow.seq kept.rows = kept.rows :=
      Relational.orderBy_of_pairwise (hinv.table.numbered.pairwise_le.sublist hsub)
    have hlength : (entriesOf s.table).length = s.table.rows.length := List.length_map _
    have hspec := hinv.table.recorded.verify_sublist (by rw [hlength]; exact hinv.table.inRange)
      (hsub.map mapRow)
    have hanchor : verifyEntries sha256 (kept.rows.map mapRow) (some anchor) =
        verifyEntries sha256 (kept.rows.map mapRow) (some (headOf (entriesOf s.table))) :=
      verifyEntries_congr sha256 (by rw [hseq, headOf, hlength]) hhash _
    rw [PgAuditLog.verifyChain, hordered, hanchor, hspec, hinv.table.suffix_iff hsub, Ne, Ne,
      List.map_eq_nil_iff]

/-- A log of two entries verifies against its current head without the first of them. -/
theorem leading_deletion_accepted :
    let log := (MemoryAuditLog.new .posInf).writeAll recordedSha MemoryAuditLog.sampleWrites
    log.entries = [firstEntry, secondEntry] ∧
      ({ log with entries := [secondEntry] }.verifyChain recordedSha (some log.head)).valid = true := by
  intro log
  have hholds := @MemoryAuditLog.holds_writeAll_new recordedSha .posInf MemoryAuditLog.sampleWrites
  rw [MemoryAuditLog.written_sampleWrites] at hholds
  refine ⟨hholds.unbounded (MemoryAuditLog.maxSize_writeAll _ _), ?_⟩
  show (verifyEntries recordedSha [secondEntry] (some log.head)).valid = true
  rw [show log.head = _ from hholds.head_eq]
  exact (hholds.recorded.verify_sublist (by decide) (List.sublist_cons_self _ _)).mpr
    ⟨List.cons_ne_nil _ _, List.suffix_cons _ _⟩

/-- Without the second it does not. -/
theorem deletion_detected_sample :
    let log := (MemoryAuditLog.new .posInf).writeAll recordedSha MemoryAuditLog.sampleWrites
    ({ log with entries := [firstEntry] }.verifyChain recordedSha (some log.head)).valid = false := by
  intro log
  have hholds := @MemoryAuditLog.holds_writeAll_new recordedSha .posInf MemoryAuditLog.sampleWrites
  rw [MemoryAuditLog.written_sampleWrites] at hholds
  have hentries : log.entries = [firstEntry, secondEntry] :=
    hholds.unbounded (MemoryAuditLog.maxSize_writeAll _ _)
  have hspec := (deletion_detected recordedSha).1 MemoryAuditLog.sampleWrites [firstEntry]
    (by rw [hentries]; decide) (by rw [hentries]; exact List.Sublist.cons_cons _ (List.nil_sublist _))
  rw [hentries] at hspec
  refine Bool.eq_false_iff.mpr fun hvalid => ?_
  obtain ⟨-, pre, hpre⟩ := hspec.mp hvalid
  have hlast := congrArg List.getLast? hpre
  rw [List.getLast?_append] at hlast
  exact absurd (congrArg AuditEntry.chainHash (Option.some.inj hlast)) (by decide)

/-! ## Heads of earlier moments -/

/-- **A head verifies on every later log, if the log was not empty.** Whatever is written behind it,
    an anchor that was taken after at least one write is accepted; one that was taken before the
    first write never is. -/
theorem head_verifies_iff (sha256 : Bytes → JsString) :
    (∀ before after : List (AuditInput × Stamp),
      let taken := (MemoryAuditLog.new .posInf).writeAll sha256 before
      let log := taken.writeAll sha256 after
      log.entries.length < 2 ^ 32 →
        ((log.verifyChain sha256 (some taken.head)).valid = true ↔ before ≠ [])) ∧
      ∀ (ι : Type) [DecidableEq ι] (s t : Writers ι) (second : AuditTable) (anchor : ChainHead),
        Transition.Reachable (Writers.system sha256 ι) s →
        Transition.Run (Writers.system sha256 ι) s t →
        PgAuditLog.head s.table second = .ok anchor →
          ((PgAuditLog.verifyChain sha256 t.table (some anchor)).valid = true ↔
            s.table.rows ≠ []) := by
  constructor
  · intro before after taken log hlength
    have hbefore := @MemoryAuditLog.holds_writeAll_new sha256 .posInf before
    have hall := hbefore.writeAll after
    have hentries : log.entries = _ := hall.unbounded
      ((MemoryAuditLog.maxSize_writeAll _ _).trans (MemoryAuditLog.maxSize_writeAll _ _))
    have hcount := @MemoryAuditLog.length_written sha256 (MemoryAuditLog.new .posInf) before
    rw [hentries] at hlength
    have hspec := @Recorded.verify_drop sha256 _ hall.recorded (by omega) 0 before.length
      (by rw [List.length_append, hcount]; omega)
    rw [List.drop_zero, ← hcount, List.take_left, ← hbefore.head_eq, hcount] at hspec
    show (verifyEntries sha256 log.entries (some taken.head)).valid = true ↔ _
    rw [hentries, hspec, List.length_pos_iff]
  · intro ι _ s t second anchor hs hrun hhead
    have hinv := Writers.inv_reachable (hrun.reachable hs)
    obtain ⟨hseq, hhash⟩ := (Writers.inv_reachable hs).table.head hhead
    obtain ⟨rest, hrest⟩ := Writers.rows_prefix hrun
    have htake : (entriesOf t.table).take s.table.rows.length = entriesOf s.table := by
      rw [entriesOf, ← hrest, List.map_append]
      exact List.take_left' (List.length_map _)
    have hlength : (entriesOf t.table).length = t.table.rows.length := List.length_map _
    have hle : s.table.rows.length ≤ (entriesOf t.table).length := by
      rw [hlength, ← hrest, List.length_append]
      omega
    have hspec := @Recorded.verify_drop sha256 _ hinv.table.recorded
      (by rw [hlength]; exact hinv.table.inRange) 0 s.table.rows.length hle
    have hanchor : verifyEntries sha256 (entriesOf t.table) (some anchor) =
        verifyEntries sha256 (entriesOf t.table)
          (some (headOf ((entriesOf t.table).take s.table.rows.length))) :=
      verifyEntries_congr sha256 (by rw [hseq, headOf, List.length_take_of_le hle])
        (by rw [hhash, htake]; rfl) _
    rw [List.drop_zero] at hspec
    rw [hinv.table.verifyChain, hanchor, hspec, List.length_pos_iff]

/-- The head of a fresh log verifies neither on the fresh log nor after a write. -/
theorem empty_head_rejected :
    let fresh := MemoryAuditLog.new .posInf
    (fresh.verifyChain recordedSha (some fresh.head)).valid = false ∧
      ((fresh.write recordedSha firstInput firstStamp).verifyChain recordedSha
        (some fresh.head)).valid = false := by
  intro fresh
  have hempty : fresh.Holds recordedSha [] := MemoryAuditLog.holds_new .posInf
  have hone := hempty.write firstInput firstStamp
  constructor
  · have hspec := @Recorded.verify_drop _ _ hempty.recorded (by decide) 0 0 (Nat.le_refl _)
    exact Bool.eq_false_iff.mpr fun hvalid => absurd (hspec.mp hvalid) (Nat.lt_irrefl 0)
  · have hspec := @Recorded.verify_drop _ _ hone.recorded (by rw [List.length_append]; decide) 0 0
      (Nat.zero_le _)
    exact Bool.eq_false_iff.mpr fun hvalid => absurd (hspec.mp hvalid) (Nat.lt_irrefl 0)

/-- The head after the first write verifies after the second. -/
theorem head_verifies_iff_sample :
    let taken := (MemoryAuditLog.new .posInf).write recordedSha firstInput firstStamp
    ((taken.write recordedSha secondInput secondStamp).verifyChain recordedSha
      (some taken.head)).valid = true := by
  have hholds := @MemoryAuditLog.holds_writeAll_new recordedSha .posInf MemoryAuditLog.sampleWrites
  have hentries : _ = _ := hholds.unbounded (MemoryAuditLog.maxSize_writeAll _ _)
  refine ((head_verifies_iff recordedSha).1 [(firstInput, firstStamp)]
    [(secondInput, secondStamp)] ?_).mpr (List.cons_ne_nil _ _)
  show (MemoryAuditLog.writeAll recordedSha (.new .posInf)
    MemoryAuditLog.sampleWrites).entries.length < 2 ^ 32
  rw [hentries, MemoryAuditLog.length_written]
  decide

end Audit
