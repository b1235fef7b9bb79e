import Mathlib.Data.List.Basic

set_option autoImplicit false

/-! # Replaying a log

A log is replayed by applying its operations from left to right. Where every operation writes one
key, what a key reads behind a replay is decided by the operations on that key alone, so two logs
that agree on every key lead to the same records. -/

namespace Replay

variable {σ ο : Type*} (apply : σ → ο → σ)

/-- The state behind the first `n` operations of a log. -/
def upTo (s : σ) (log : List ο) (n : ℕ) : σ :=
  (log.take n).foldl apply s

@[simp]
theorem upTo_zero (s : σ) (log : List ο) : upTo apply s log 0 = s := by
  simp [upTo]

theorem upTo_length (s : σ) (log : List ο) : upTo apply s log log.length = log.foldl apply s := by
  simp [upTo]

/-- The next operation of a log. -/
theorem upTo_succ {s : σ} {log : List ο} {n : ℕ} {o : ο} (h : log[n]? = some o) :
    upTo apply s log (n + 1) = apply (upTo apply s log n) o := by
  simp [upTo, List.take_add_one, h]

/-- What is appended to a log does not change what its beginning leads to. -/
theorem upTo_append {s : σ} {log : List ο} {n : ℕ} (hn : n ≤ log.length) (tail : List ο) :
    upTo apply s (log ++ tail) n = upTo apply s log n := by
  rw [upTo, List.take_append_of_le_length hn, upTo]

/-! ## Keyed records -/

variable {κ ν : Type*} [DecidableEq κ] {apply}

/-- An operation writes one key, and a value that does not depend on what is there. -/
def Writes (apply : σ → ο → σ) (read : σ → κ → ν) (key : ο → κ) (value : ο → ν) (o : ο) : Prop :=
  ∀ s k, read (apply s o) k = if key o = k then value o else read s k

variable {read : σ → κ → ν} {key : ο → κ} {value : ο → ν}

/-- Only the operations on a key matter for it. -/
theorem read_foldl_filter {log : List ο} (h : ∀ o ∈ log, Writes apply read key value o) (k : κ)
    {s t : σ} (hst : read s k = read t k) :
    read (log.foldl apply s) k = read ((log.filter fun o => key o = k).foldl apply t) k := by
  induction log generalizing s t with
  | nil => exact hst
  | cons o rest ih =>
      have ho := h o List.mem_cons_self
      have hrest : ∀ o ∈ rest, Writes apply read key value o :=
        fun o' ho' => h o' (List.mem_cons_of_mem _ ho')
      by_cases hk : key o = k
      · rw [List.filter_cons_of_pos (by simpa using hk), List.foldl_cons, List.foldl_cons]
        apply ih hrest
        rw [ho, ho, if_pos hk, if_pos hk]
      · rw [List.filter_cons_of_neg (by simpa using hk), List.foldl_cons]
        apply ih hrest
        rw [ho, if_neg hk, hst]

variable {τ : Type*} {apply' : τ → ο → τ} {read' : τ → κ → ν}

/-- Two stores that replay one log read the same. -/
theorem read_foldl_eq {log : List ο} (h : ∀ o ∈ log, Writes apply read key value o)
    (h' : ∀ o ∈ log, Writes apply' read' key value o) {k : κ} {s : σ} {t : τ}
    (hst : read s k = read' t k) :
    read (log.foldl apply s) k = read' (log.foldl apply' t) k := by
  induction log generalizing s t with
  | nil => exact hst
  | cons o rest ih =>
      rw [List.foldl_cons, List.foldl_cons]
      apply ih
      · exact fun o' ho' => h o' (List.mem_cons_of_mem _ ho')
      · exact fun o' ho' => h' o' (List.mem_cons_of_mem _ ho')
      · rw [h o List.mem_cons_self, h' o List.mem_cons_self, hst]

/-- **Two logs that agree on a key lead to the same record under it**, also in different stores. -/
theorem read_eq_of_filter {log log' : List ο} {k : κ}
    (h : ∀ o ∈ log, Writes apply read key value o)
    (h' : ∀ o ∈ log', Writes apply' read' key value o)
    (hlog : (log.filter fun o => key o = k) = log'.filter fun o => key o = k) {s : σ} {t : τ}
    (hst : read s k = read' t k) :
    read (log.foldl apply s) k = read' (log'.foldl apply' t) k := by
  rw [read_foldl_filter h k rfl, read_foldl_filter h' k rfl, ← hlog]
  refine read_foldl_eq (fun o ho => h o (List.mem_of_mem_filter ho)) (fun o ho => h' o ?_) hst
  rw [hlog] at ho
  exact List.mem_of_mem_filter ho

end Replay
