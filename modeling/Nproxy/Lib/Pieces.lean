import Mathlib.Tactic

/-!
Texts read in pieces: each read delivers at most `n` letters, and stops behind the
first newline. This is what `fgets` with a buffer of `n + 1` bytes does.

* `cut nl n acc l` are the pieces of the text `l` when `acc` is what the current
  read has so far, and `pieces nl n l` those of a text from its start.
* A newline ends a piece whatever stands before it (`cut_append_newline`), so texts
  that end in a newline are read one after the other (`pieces_append_of_lines`); a
  line that is shorter than `n` is one piece (`pieces_line`).
* A text without newlines fills pieces of length `n` and leaves a rest
  (`exists_cut_append`).
-/

namespace Pieces

variable {α : Type*} [DecidableEq α] {nl : α} {n : ℕ} {acc l m : List α}

/-- The pieces of a text, the first of them begun with `acc`. -/
def cut (nl : α) (n : ℕ) : List α → List α → List (List α)
  | acc, [] => if acc = [] then [] else [acc]
  | acc, c :: l =>
    if c = nl ∨ acc.length + 1 = n then (acc ++ [c]) :: cut nl n [] l
    else cut nl n (acc ++ [c]) l

/-- The pieces of a text. -/
def pieces (nl : α) (n : ℕ) (l : List α) : List (List α) := cut nl n [] l

lemma length_le_of_mem_cut (hacc : acc.length < n) {p : List α} (hp : p ∈ cut nl n acc l) :
    p.length ≤ n := by
  induction l generalizing acc with
  | nil =>
    rw [cut] at hp
    split at hp
    · simp at hp
    · obtain rfl := List.mem_singleton.mp hp
      exact hacc.le
  | cons c l ih =>
    rw [cut] at hp
    split at hp
    · cases List.mem_cons.mp hp with
      | inl h => rw [h, List.length_append, List.length_singleton]; omega
      | inr h => exact ih (by simp; omega) h
    · rename_i hne
      refine ih ?_ hp
      rw [List.length_append, List.length_singleton]
      omega

/-- A newline ends a piece, so the text behind it is read from its start. -/
lemma cut_append_newline (acc l m : List α) :
    cut nl n acc (l ++ nl :: m) = cut nl n acc (l ++ [nl]) ++ pieces nl n m := by
  induction l generalizing acc with
  | nil => simp [cut, pieces]
  | cons c l ih =>
    rw [List.cons_append, List.cons_append, cut, cut]
    split
    · rw [ih, List.cons_append]
    · rw [ih]

/-- A text that is empty or ends in a newline: whole lines. -/
def WholeLines (nl : α) (l : List α) : Prop := l = [] ∨ l.getLast? = some nl

/-- Whole lines are read before what follows them. -/
lemma pieces_append_of_lines (h : WholeLines nl l) (m : List α) :
    pieces nl n (l ++ m) = pieces nl n l ++ pieces nl n m := by
  cases h with
  | inl h => rw [h]; rfl
  | inr h =>
    obtain ⟨l', rfl⟩ := List.getLast?_eq_some_iff.mp h
    rw [List.append_assoc]
    exact cut_append_newline [] l' m

/-- A text without newlines that does not fill the piece goes to it. -/
lemma cut_append_of_lt (hl : nl ∉ l) (hlen : acc.length + l.length < n) (m : List α) :
    cut nl n acc (l ++ m) = cut nl n (acc ++ l) m := by
  induction l generalizing acc with
  | nil => simp
  | cons c l ih =>
    rw [List.length_cons] at hlen
    have hc : ¬(c = nl ∨ acc.length + 1 = n) := by
      rintro (rfl | h)
      · exact hl (by simp)
      · omega
    rw [List.cons_append, cut, if_neg hc, ih (fun h => hl (by simp [h])) (by simp; omega)]
    simp

/-- A text without newlines that fills the piece ends it. -/
lemma cut_append_of_eq (hl : nl ∉ l) (hne : l ≠ []) (hlen : acc.length + l.length = n)
    (m : List α) : cut nl n acc (l ++ m) = (acc ++ l) :: pieces nl n m := by
  obtain ⟨l', c, rfl⟩ := List.eq_nil_or_concat' l |>.resolve_left hne
  rw [List.length_append, List.length_singleton] at hlen
  rw [List.append_assoc, cut_append_of_lt (fun h => hl (by simp [h])) (by omega),
    List.singleton_append, cut, if_pos (Or.inr (by simp; omega))]
  simp [pieces]

lemma pieces_line (hl : nl ∉ l) (hlen : l.length < n) (m : List α) :
    pieces nl n (l ++ nl :: m) = (l ++ [nl]) :: pieces nl n m := by
  rw [pieces, cut_append_of_lt hl (by simpa using hlen), cut, if_pos (Or.inl rfl)]
  rfl

/-- A text without newlines fills pieces of length `n` and leaves a shorter rest. -/
lemma exists_cut_append (acc : List α) (hacc : acc.length < n) (hl : nl ∉ l) :
    ∃ full rest, acc ++ l = full.flatten ++ rest ∧ (∀ p ∈ full, p.length = n) ∧
      rest.length < n ∧ ∀ m, cut nl n acc (l ++ m) = full ++ cut nl n rest m := by
  induction l generalizing acc with
  | nil => exact ⟨[], acc, by simp, by simp, hacc, fun m => by simp⟩
  | cons c l ih =>
    have hc : c ≠ nl := fun h => hl (by simp [h])
    have hl' : nl ∉ l := fun h => hl (by simp [h])
    by_cases hfull : acc.length + 1 = n
    · obtain ⟨full, rest, heq, hlen, hrest, hcut⟩ := ih [] (by simp; omega) hl'
      refine ⟨(acc ++ [c]) :: full, rest, ?_, ?_, hrest, fun m => ?_⟩
      · rw [List.flatten_cons, List.append_assoc, ← heq]
        simp
      · intro p hp
        cases List.mem_cons.mp hp with
        | inl h => rw [h, List.length_append, List.length_singleton, hfull]
        | inr h => exact hlen p h
      · rw [List.cons_append, cut, if_pos (Or.inr hfull), hcut, List.cons_append]
    · obtain ⟨full, rest, heq, hlen, hrest, hcut⟩ :=
        ih (acc ++ [c]) (by simp; omega) hl'
      refine ⟨full, rest, by rw [← heq]; simp, hlen, hrest, fun m => ?_⟩
      rw [List.cons_append, cut, if_neg (by tauto), hcut]

end Pieces
