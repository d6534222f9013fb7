import Mathlib.Tactic

/-!
A ledger of objects that are handed out and given back.

`track out es` follows the entries from a set of objects that are out, and fails
at the first entry that does not fit: an object that is handed out twice, or given
back without being out. It is defined exactly if in `es` every object alternates
between the two.
-/

namespace Ledger

variable {α : Type*}

/-- An object is handed out, or given back. -/
inductive Entry (α : Type*) where
  | out (a : α)
  | back (a : α)
  deriving DecidableEq, Repr

variable [DecidableEq α]

/-- The objects that are out after one more entry. -/
def post (out : Finset α) : Entry α → Option (Finset α)
  | .out a => if a ∈ out then none else some (insert a out)
  | .back a => if a ∈ out then some (out.erase a) else none

/-- The objects that are out after the entries. -/
def track (out : Finset α) : List (Entry α) → Option (Finset α)
  | [] => some out
  | e :: es => (post out e).bind fun out => track out es

variable {out : Finset α} {a : α}

@[simp] lemma track_nil : track out [] = some out := rfl

lemma track_append (es es' : List (Entry α)) :
    track out (es ++ es') = (track out es).bind fun out => track out es' := by
  induction es generalizing out with
  | nil => rfl
  | cons e es ih =>
    simp only [List.cons_append, track]
    cases post out e with
    | none => rfl
    | some out => exact ih

lemma track_out (h : a ∉ out) : track out [.out a] = some (insert a out) := by
  simp [track, post, h]

lemma track_back (h : a ∈ out) : track out [.back a] = some (out.erase a) := by
  simp [track, post, h]

end Ledger
