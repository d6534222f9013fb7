import Mathlib.Tactic

/-!
A queue of cells, and what goes in and out of it.

`Flow q ms q'` says that the moves `ms` lead from the content `q` to the content
`q'`: what was there, followed by what came in, is what went out, followed by what
is there now. So nothing is lost, nothing goes out twice, and the order is kept.

`Pending` is a queue with its past: all that came in since it was last cleared, and
how much of that went out again. Its content is the rest.
-/

namespace Queue

variable {α : Type*}

/-- Cells come in at the end, or go out at the front. -/
inductive Move (α : Type*) where
  | enter (bs : List α)
  | leave (bs : List α)

/-- What came in. -/
def entered : List (Move α) → List α
  | [] => []
  | .enter bs :: ms => bs ++ entered ms
  | .leave _ :: ms => entered ms

/-- What went out. -/
def left : List (Move α) → List α
  | [] => []
  | .enter _ :: ms => left ms
  | .leave bs :: ms => bs ++ left ms

@[simp] lemma entered_append (ms ms' : List (Move α)) :
    entered (ms ++ ms') = entered ms ++ entered ms' := by
  induction ms with
  | nil => rfl
  | cons m ms ih => cases m <;> simp [entered, ih]

@[simp] lemma left_append (ms ms' : List (Move α)) : left (ms ++ ms') = left ms ++ left ms' := by
  induction ms with
  | nil => rfl
  | cons m ms ih => cases m <;> simp [left, ih]

/-- The moves lead from the one content to the other. -/
def Flow (q : List α) (ms : List (Move α)) (q' : List α) : Prop := q ++ entered ms = left ms ++ q'

variable {q q' q'' : List α} {ms ms' : List (Move α)}

lemma Flow.refl (q : List α) : Flow q [] q := by simp [Flow, entered, left]

lemma Flow.enter (q bs : List α) : Flow q [.enter bs] (q ++ bs) := by
  simp [Flow, entered, left]

lemma Flow.leave (bs q : List α) : Flow (bs ++ q) [.leave bs] q := by
  simp [Flow, entered, left]

lemma Flow.trans (h1 : Flow q ms q') (h2 : Flow q' ms' q'') : Flow q (ms ++ ms') q'' := by
  rw [Flow] at *
  calc q ++ entered (ms ++ ms') = (q ++ entered ms) ++ entered ms' := by simp
    _ = left ms ++ (q' ++ entered ms') := by rw [h1, List.append_assoc]
    _ = left (ms ++ ms') ++ q'' := by rw [h2, left_append, List.append_assoc]

/-- What went out is what was there and what came in if and only if nothing is left. -/
lemma Flow.left_eq_iff (h : Flow q ms q') : left ms = q ++ entered ms ↔ q' = [] := by
  rw [Flow] at h
  rw [h]
  exact List.self_eq_append_right

/-! ### A queue with its past -/

/-- What came in since the queue was cleared, and how many cells of it went out. -/
structure Pending (α : Type*) where
  came : List α
  gone : ℕ
  gone_le : gone ≤ came.length

namespace Pending

/-- What has not gone out. -/
def content (q : Pending α) : List α := q.came.drop q.gone

/-- A queue that has just been cleared. -/
def empty : Pending α := ⟨[], 0, le_rfl⟩

/-- Cells come in. -/
def enter (q : Pending α) (bs : List α) : Pending α where
  came := q.came ++ bs
  gone := q.gone
  gone_le := by
    rw [List.length_append]
    exact q.gone_le.trans (Nat.le_add_right _ _)

/-- So many cells go out, or all that there are. -/
def leave (q : Pending α) (n : ℕ) : Pending α where
  came := q.came
  gone := min (q.gone + n) q.came.length
  gone_le := min_le_right _ _

@[simp] lemma content_enter (q : Pending α) (bs : List α) :
    (q.enter bs).content = q.content ++ bs := List.drop_append_of_le_length q.gone_le

@[simp] lemma content_leave (q : Pending α) (n : ℕ) : (q.leave n).content = q.content.drop n := by
  change q.came.drop (min (q.gone + n) q.came.length) = (q.came.drop q.gone).drop n
  rw [List.drop_drop, ← List.drop_eq_drop_min]

end Pending

end Queue
