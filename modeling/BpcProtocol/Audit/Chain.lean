import BpcProtocol.Audit.Entry
import Mathlib.Data.List.Chain

set_option autoImplicit false

/-! # What the audit verifier accepts

`Recorded` is what a log looks like that nobody has touched. The verifier accepts the end of such a
log, and accepts a list against an anchor only if the list is numbered and linked up to an entry
with the anchor's number and hash. -/

namespace Audit

variable (sha256 : Bytes → JsString)

/-! ## The verifier's checks -/

/-- `e` can stand right after `p`. -/
def Follows (p e : AuditEntry) : Prop :=
  e.seq.eq p.seq.incr = true ∧ e.prevHash = p.chainHash

/-- The entry's own hash is right. -/
def Hashed (e : AuditEntry) : Prop :=
  computeChainHash sha256 e.toBareAuditEntry = e.chainHash

theorem verifyLinks_eq_none (prev : Option AuditEntry) (l : List AuditEntry) :
    verifyLinks sha256 prev l = none ↔
      (∀ e ∈ l, Hashed sha256 e) ∧ (prev.toList ++ l).IsChain Follows := by
  induction l generalizing prev with
  | nil => cases prev <;> simp [verifyLinks]
  | cons e rest ih =>
      have hnext : verifyLinks sha256 prev (e :: rest) = none ↔
          Hashed sha256 e ∧ (∀ p ∈ prev, Follows p e) ∧ verifyLinks sha256 (some e) rest = none := by
        rw [verifyLinks]
        cases prev <;> simp [Hashed, Follows, ite_eq_iff, and_assoc]
      rw [hnext, ih, List.forall_mem_cons]
      cases prev with
      | none => simp [and_assoc]
      | some p =>
          simp only [Option.mem_def, Option.some.injEq, forall_eq', Option.toList_some,
            List.cons_append, List.nil_append, List.isChain_cons_cons]
          tauto

theorem valid_of_verifyLinks {prev : Option AuditEntry} {l : List AuditEntry} {r : VerifyResult}
    (h : verifyLinks sha256 prev l = some r) : r.valid = false := by
  induction l generalizing prev with
  | nil => exact absurd h (by simp [verifyLinks])
  | cons e rest ih =>
      rw [verifyLinks] at h
      split_ifs at h
      · exact Option.some.inj h ▸ rfl
      · exact Option.some.inj h ▸ rfl
      · exact Option.some.inj h ▸ rfl
      · exact ih h

theorem verifyAnchor_eq_none (sorted : List AuditEntry) (anchor : ChainHead) :
    verifyAnchor sorted anchor = none ↔
      (∃ last, sorted.getLast? = some last ∧ last.seq.lt anchor.seq = false) ∧
        ∃ e, sorted.find? (fun e => e.seq.eq anchor.seq) = some e ∧
          e.chainHash = anchor.chainHash := by
  unfold verifyAnchor
  cases hlast : sorted.getLast? with
  | none => simp
  | some last =>
      cases hfind : sorted.find? fun e => e.seq.eq anchor.seq with
      | none => simp [ite_eq_iff]
      | some e => simp [ite_eq_iff]

theorem valid_of_verifyAnchor {sorted : List AuditEntry} {anchor : ChainHead} {r : VerifyResult}
    (h : verifyAnchor sorted anchor = some r) : r.valid = false := by
  unfold verifyAnchor at h
  split_ifs at h
  · exact Option.some.inj h ▸ rfl
  · exact Option.some.inj h ▸ rfl

theorem verifyEntries_valid (entries : List AuditEntry) (head : Option ChainHead) :
    (verifyEntries sha256 entries head).valid = true ↔
      verifyLinks sha256 none (sortBySeq entries) = none ∧
        ∀ anchor ∈ head, verifyAnchor (sortBySeq entries) anchor = none := by
  show (((verifyLinks sha256 none (sortBySeq entries)).or _).getD { valid := true }).valid = true ↔ _
  cases hlinks : verifyLinks sha256 none (sortBySeq entries) with
  | some r => simp [valid_of_verifyLinks sha256 hlinks]
  | none =>
      cases head with
      | none => simp
      | some anchor =>
          cases hanchor : verifyAnchor (sortBySeq entries) anchor with
          | some r => simp [hanchor, valid_of_verifyAnchor hanchor]
          | none => simp [hanchor]

/-- Of an anchor the verifier reads the number and the hash. -/
theorem verifyEntries_congr {a b : ChainHead} (hseq : a.seq = b.seq)
    (hhash : a.chainHash = b.chainHash) (entries : List AuditEntry) :
    verifyEntries sha256 entries (some a) = verifyEntries sha256 entries (some b) := by
  obtain ⟨_, _, _⟩ := a
  obtain ⟨_, _, _⟩ := b
  cases hseq
  cases hhash
  rfl

/-! ## Numbering and order -/

/-- The entries are numbered on from `k`, as a counter counts. -/
def CountedFrom (k : ℕ) (l : List AuditEntry) : Prop :=
  ∀ i (h : i < l.length), l[i].seq = .counted (k + i)

theorem countedFrom_nil (k : ℕ) : CountedFrom k [] :=
  fun _ h => absurd h (Nat.not_lt_zero _)

theorem CountedFrom.drop {k : ℕ} {l : List AuditEntry} (h : CountedFrom k l) (d : ℕ) :
    CountedFrom (k + d) (l.drop d) := by
  intro i hi
  rw [List.getElem_drop, h, Nat.add_assoc]

theorem CountedFrom.take {k : ℕ} {l : List AuditEntry} (h : CountedFrom k l) (d : ℕ) :
    CountedFrom k (l.take d) := by
  intro i hi
  rw [List.getElem_take, h]

theorem CountedFrom.append_singleton {k : ℕ} {l : List AuditEntry} (h : CountedFrom k l)
    {e : AuditEntry} (he : e.seq = .counted (k + l.length)) : CountedFrom k (l ++ [e]) := by
  intro i hi
  rcases Nat.lt_or_ge i l.length with hlt | hge
  · rw [List.getElem_append_left hlt]
    exact h i hlt
  · obtain rfl : i = l.length := by simp at hi; omega
    simpa using he

theorem seqLe_counted {a b : AuditEntry} {m n : ℕ} (hmn : m ≤ n) (ha : a.seq = .counted m)
    (hb : b.seq = .counted n) : seqLe a b = true := by
  -- the difference of two counts is exact
  have hsub : a.seq.1.sub b.seq.1 =
      JsNumber.fin (((min m (2 ^ 53) : ℕ) : ℤ) - ((min n (2 ^ 53) : ℕ) : ℤ) : ℤ) := by
    rw [ha, hb]
    show Js.ofRat _ = _
    rcases Nat.eq_zero_or_pos (min m (2 ^ 53)) with hm | hm
    · rw [hm]
      have hdouble : Js.ofRat _ = _ :=
        (Js.isDouble_natCast (Nat.min_le_right n (2 ^ 53))).neg
      simpa using hdouble
    · rw [← Js.ofRat_intCast (by omega)]
      push_cast
      rw [sub_eq_add_neg]
  unfold seqLe
  rw [hsub, Bool.not_eq_true', ← Int.cast_zero, JsNumber.lt_int, decide_eq_false_iff_not]
  omega

/-- Counted entries stand in order already. -/
theorem CountedFrom.sort {k : ℕ} {l : List AuditEntry} (h : CountedFrom k l) : sortBySeq l = l := by
  refine List.mergeSort_of_pairwise (List.pairwise_iff_getElem.mpr fun i j hi hj hij => ?_)
  exact seqLe_counted (by omega) (h i hi) (h j hj)

/-! ## Untouched logs -/

/-- The hash a further entry links to. -/
def tipHash (log : List AuditEntry) : JsString :=
  (log.getLast?.map AuditEntry.chainHash).getD genesisHash

/-- The head of a log that has these entries. -/
def headOf (log : List AuditEntry) : ChainHead :=
  { seq := .counted log.length, chainHash := tipHash log, count := .counted log.length }

/-- A log that nobody has touched: numbered from one, linked from the genesis hash, and every hash
    right. -/
structure Recorded (log : List AuditEntry) : Prop where
  counted : CountedFrom 1 log
  linked : Chain.Linked (fun e => some e.prevHash) AuditEntry.chainHash (some genesisHash) log
  hashed : ∀ e ∈ log, Hashed sha256 e

theorem tip_eq (log : List AuditEntry) :
    Chain.tip AuditEntry.chainHash (some genesisHash) log = some (tipHash log) := by
  unfold Chain.tip tipHash
  cases log.getLast? <;> rfl

theorem recorded_nil : Recorded sha256 [] where
  counted := countedFrom_nil 1
  linked := trivial
  hashed _ he := absurd he List.not_mem_nil

variable {sha256} {log : List AuditEntry}

/-- A log grows by an entry that carries the next number, links to the tip and hashes right. -/
theorem Recorded.concat (h : Recorded sha256 log) {e : AuditEntry}
    (hseq : e.seq = .counted (log.length + 1)) (hprev : e.prevHash = tipHash log)
    (hhash : Hashed sha256 e) : Recorded sha256 (log ++ [e]) where
  counted := h.counted.append_singleton (by rw [hseq, Nat.add_comm])
  linked := Chain.linked_append_singleton.mpr ⟨h.linked, by rw [tip_eq, hprev]⟩
  hashed x hx := by
    rcases List.mem_append.mp hx with hx | hx
    · exact h.hashed x hx
    · rwa [List.mem_singleton.mp hx]

theorem Recorded.take (h : Recorded sha256 log) (k : ℕ) : Recorded sha256 (log.take k) where
  counted := h.counted.take k
  linked := h.linked.take k
  hashed e he := h.hashed e (List.mem_of_mem_take he)

theorem Recorded.isChain (h : Recorded sha256 log) : log.IsChain Follows := by
  rw [List.isChain_iff_getElem]
  intro i hi
  refine ⟨?_, Option.some.inj (h.linked.getElem_succ i hi)⟩
  rw [h.counted i (by omega), h.counted (i + 1) hi, JsDouble.incr_counted, JsDouble.eq_counted]
  exact decide_eq_true rfl

/-- The verifier finds nothing wrong with the end of an untouched log. -/
theorem Recorded.verifyLinks_drop (h : Recorded sha256 log) (d : ℕ) :
    verifyLinks sha256 none (sortBySeq (log.drop d)) = none := by
  rw [(h.counted.drop d).sort, verifyLinks_eq_none]
  exact ⟨fun e he => h.hashed e (List.mem_of_mem_drop he), h.isChain.drop d⟩

/-- Up to the range of the counter, an entry is determined by its number. -/
theorem Recorded.getElem?_of_seq (h : Recorded sha256 log) (hlen : log.length ≤ 2 ^ 53)
    {e : AuditEntry} (he : e ∈ log) {k : ℕ} (hk : k ≤ 2 ^ 53) (hseq : e.seq = .counted k) :
    1 ≤ k ∧ log[k - 1]? = some e := by
  obtain ⟨i, hi, rfl⟩ := List.getElem_of_mem he
  rw [h.counted i hi, JsDouble.counted_inj (by omega) hk] at hseq
  subst hseq
  refine ⟨by omega, ?_⟩
  rw [Nat.add_sub_cancel_left, List.getElem?_eq_getElem hi]

theorem tipHash_take {k : ℕ} (hk : k < log.length) :
    tipHash (log.take (k + 1)) = log[k].chainHash := by
  rw [tipHash, List.take_succ_eq_append_getElem hk, List.getLast?_concat]
  rfl

/-- Against an earlier head, the end of an untouched log verifies if it still has that head's
    entry. -/
theorem Recorded.verifyAnchor_drop (h : Recorded sha256 log) (hlen : log.length ≤ 2 ^ 53)
    {d k : ℕ} (hk : k ≤ log.length) :
    verifyAnchor (log.drop d) (headOf (log.take k)) = none ↔ d < k := by
  have hklen : (log.take k).length = k := by simpa using hk
  rw [verifyAnchor_eq_none]
  constructor
  · rintro ⟨-, e, hfind, -⟩
    have hmem := List.mem_of_find?_eq_some hfind
    have hseq : e.seq = .counted k := by
      simpa [headOf, hklen] using List.find?_some hfind
    obtain ⟨i, hi, rfl⟩ := List.getElem_of_mem hmem
    rw [h.counted.drop d i hi, JsDouble.counted_inj ?_ (by omega)] at hseq
    · omega
    · rw [List.length_drop] at hi
      omega
  · intro hdk
    obtain ⟨k, rfl⟩ : ∃ j, k = j + 1 := ⟨k - 1, by omega⟩
    refine ⟨⟨log[log.length - 1], ?_, ?_⟩, ?_⟩
    · rw [List.getLast?_drop, if_neg (by omega), List.getLast?_eq_getElem?,
        List.getElem?_eq_getElem]
    · rw [h.counted, headOf, hklen, JsDouble.lt_counted, decide_eq_false_iff_not]
      omega
    · have hentry : log[k] ∈ log.drop d := by
        rw [List.mem_drop_iff_getElem]
        exact ⟨k - d, by omega, by congr 1; omega⟩
      have hself : log[k].seq.eq (headOf (log.take (k + 1))).seq = true := by
        rw [headOf, hklen, h.counted, JsDouble.eq_counted, Nat.add_comm]
        exact decide_eq_true rfl
      have hsome : ((log.drop d).find? fun e =>
          e.seq.eq (headOf (log.take (k + 1))).seq).isSome = true := by
        rw [List.find?_isSome]
        exact ⟨_, hentry, hself⟩
      obtain ⟨e, hfind⟩ := Option.isSome_iff_exists.mp hsome
      refine ⟨e, hfind, ?_⟩
      have hseq : e.seq = .counted (k + 1) := by
        simpa [headOf, hklen] using List.find?_some hfind
      have hget := (h.getElem?_of_seq hlen
        (List.mem_of_mem_drop (List.mem_of_find?_eq_some hfind)) (by omega) hseq).2
      rw [Nat.add_sub_cancel, List.getElem?_eq_getElem (by omega), Option.some.injEq] at hget
      rw [← hget]
      exact (tipHash_take (by omega)).symm

/-- The end of an untouched log against one of the log's heads. -/
theorem Recorded.verify_drop (h : Recorded sha256 log) (hlen : log.length ≤ 2 ^ 53) {d k : ℕ}
    (hk : k ≤ log.length) :
    (verifyEntries sha256 (log.drop d) (some (headOf (log.take k)))).valid = true ↔ d < k := by
  rw [verifyEntries_valid, (h.counted.drop d).sort, ← h.verifyAnchor_drop hlen hk]
  have hlinks := h.verifyLinks_drop d
  rw [(h.counted.drop d).sort] at hlinks
  simp [hlinks]

/-! ## Entries taken out -/

/-- What is left of counted entries and is contiguous up to the last of them is their end. -/
theorem suffix_of_sublist {k : ℕ} {l kept : List AuditEntry} (hsub : kept.Sublist l)
    (hcounted : CountedFrom k l) (hlen : k + l.length ≤ 2 ^ 53 + 1) (hchain : kept.IsChain Follows)
    (hne : kept ≠ []) (hlast : ∀ e ∈ kept.getLast?, e.seq = .counted (k + l.length - 1)) :
    kept <:+ l := by
  induction hsub generalizing k with
  | slnil => exact absurd rfl hne
  | @cons kept l a hsub ih =>
      refine (ih (k := k + 1) (hcounted.drop 1) ?_ hchain hne ?_).trans (List.suffix_cons a l)
      · rw [List.length_cons] at hlen
        omega
      · intro e he
        rw [hlast e he, List.length_cons]
        congr 1
        omega
  | @cons_cons kept l a hsub ih =>
      rw [List.length_cons] at hlen
      have ha : a.seq = .counted k := hcounted 0 (Nat.zero_lt_succ _)
      have htail : CountedFrom (k + 1) l := hcounted.drop 1
      cases kept with
      | nil =>
          -- the last entry is also the first, so there is no other
          have hseq := hlast a rfl
          rw [ha, List.length_cons, JsDouble.counted_inj (by omega) (by omega)] at hseq
          obtain rfl : l = [] := List.length_eq_zero_iff.mp (by omega)
          exact List.suffix_refl _
      | cons b rest =>
          rw [List.isChain_cons_cons] at hchain
          obtain ⟨pre, hpre⟩ := ih (k := k + 1) htail (by omega) hchain.2 (List.cons_ne_nil b rest)
            (by
              intro e he
              rw [hlast e (by rwa [List.getLast?_cons_cons]), List.length_cons]
              congr 1
              omega)
          -- the entry after `a` carries the next number, so it is the first of the tail
          have hb : b.seq = .counted (k + 1 + pre.length) := by
            have hi : pre.length < l.length := by simp [← hpre]
            have hget := htail pre.length hi
            simpa [← hpre] using hget
          have hnext := hchain.1.1
          rw [ha, JsDouble.incr_counted, JsDouble.eq_counted, decide_eq_true_iff, hb] at hnext
          have hlength : pre.length + (rest.length + 1) = l.length := by simp [← hpre]
          rw [JsDouble.counted_inj (by omega) (by omega)] at hnext
          obtain rfl : pre = [] := List.length_eq_zero_iff.mp (by omega)
          rw [← hpre]
          exact List.suffix_refl _

/-- Entries of an untouched log verify against its head exactly if they are an end of it. -/
theorem Recorded.verify_sublist (h : Recorded sha256 log) (hlen : log.length ≤ 2 ^ 53)
    {kept : List AuditEntry} (hsub : kept.Sublist log) :
    (verifyEntries sha256 kept (some (headOf log))).valid = true ↔ kept ≠ [] ∧ kept <:+ log := by
  constructor
  · intro hvalid
    have hsorted : sortBySeq kept = kept := by
      refine List.mergeSort_of_pairwise (List.Pairwise.sublist hsub ?_)
      refine List.pairwise_iff_getElem.mpr fun i j hi hj hij => ?_
      exact seqLe_counted (by omega) (h.counted i hi) (h.counted j hj)
    rw [verifyEntries_valid, hsorted, verifyLinks_eq_none] at hvalid
    obtain ⟨⟨-, hchain⟩, hanchor⟩ := hvalid
    obtain ⟨⟨last, hlast, hge⟩, -⟩ := (verifyAnchor_eq_none _ _).mp (hanchor _ rfl)
    have hne : kept ≠ [] := by
      rintro rfl
      exact absurd hlast (by simp)
    refine ⟨hne, suffix_of_sublist hsub h.counted (by omega) hchain hne ?_⟩
    -- only the last entry of the log has a number that is not below the head's
    rintro e he
    obtain rfl : last = e := Option.some.inj (hlast.symm.trans he)
    obtain ⟨i, hi, rfl⟩ := List.getElem_of_mem (hsub.subset (List.mem_of_getLast? hlast))
    rw [h.counted i hi, headOf, JsDouble.lt_counted, decide_eq_false_iff_not] at hge
    rw [h.counted i hi]
    congr 1
    omega
  · rintro ⟨hne, hsuffix⟩
    obtain ⟨pre, rfl⟩ := hsuffix
    have hdrop := (h.verify_drop hlen (d := pre.length) (Nat.le_refl _)).mpr ?_
    · rwa [List.drop_left, List.take_length] at hdrop
    · have := List.length_pos_iff.mpr hne
      rw [List.length_append]
      omega

end Audit
