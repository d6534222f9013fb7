import Mathlib.Tactic

/-!
Texts cut into lines by a two-letter terminator.

A text over an alphabet `α` is read with a fixed terminator, the letter `x`
followed by the letter `y`.

* `findPair` is the position of the first terminator; a terminator found in a
  prefix is found at the same place in the whole text (`findPair_append`).
* `IsLine` is a text that is a line: followed by a terminator, that terminator
  is the first one. If its two letters differ, that says that the text has no
  terminator inside (`isLine_iff`).
* `joinLines` writes a list of lines, and `HeadSplit` takes a text apart again:
  the nonempty lines at its front, and a rest that is empty, has no terminator
  or starts with one (the blank line). Every text has exactly one such split
  (`HeadSplit.exists_split`, `HeadSplit.unique`), and `HeadSplit.append` says what
  more text at the end can do to it. `frontLines` computes those lines.
-/

namespace Lines

variable {α : Type*} {x y : α}

/-! ### Written lines -/

/-- A list of lines, each with its terminator. -/
def joinLines (x y : α) (ls : List (List α)) : List α := ls.flatMap (· ++ [x, y])

@[simp] lemma joinLines_nil : joinLines x y ([] : List (List α)) = [] := rfl

@[simp] lemma joinLines_cons (l : List α) (ls : List (List α)) :
    joinLines x y (l :: ls) = l ++ x :: y :: joinLines x y ls := by
  simp [joinLines]

@[simp] lemma joinLines_append (ls ms : List (List α)) :
    joinLines x y (ls ++ ms) = joinLines x y ls ++ joinLines x y ms := by
  simp [joinLines]

/-- The length of written lines: two letters for each terminator. -/
lemma length_le_joinLines (ls : List (List α)) :
    2 * ls.length ≤ (joinLines x y ls).length := by
  induction ls with
  | nil => simp
  | cons l ls ih =>
    simp only [joinLines_cons, List.length_cons, List.length_append]
    omega

variable [DecidableEq α]

/-! ### The first terminator -/

/-- The position of the first `x` that is followed by a `y`. -/
def findPair (x y : α) : List α → Option ℕ
  | a :: b :: rest =>
    if a = x ∧ b = y then some 0 else (findPair x y (b :: rest)).map (· + 1)
  | [_] => none
  | [] => none

@[simp] lemma findPair_nil : findPair x y [] = none := rfl

@[simp] lemma findPair_singleton (a : α) : findPair x y [a] = none := rfl

@[simp] lemma findPair_pair (l : List α) : findPair x y (x :: y :: l) = some 0 := by
  simp [findPair]

/-- The first terminator of a prefix is the first terminator of the text. -/
lemma findPair_append {l : List α} {n : ℕ} (m : List α) (h : findPair x y l = some n) :
    findPair x y (l ++ m) = some n := by
  induction l generalizing n with
  | nil => simp at h
  | cons a l ih =>
    cases l with
    | nil => simp at h
    | cons b rest =>
      by_cases hab : a = x ∧ b = y
      · rw [findPair, if_pos hab] at h
        rw [List.cons_append, List.cons_append, findPair, if_pos hab]
        exact h
      · rw [findPair, if_neg hab] at h
        obtain ⟨k, hk, rfl⟩ := Option.map_eq_some_iff.mp h
        have hrest := ih hk
        rw [List.cons_append] at hrest
        rw [List.cons_append, List.cons_append, findPair, if_neg hab, hrest]
        rfl

/-- A terminator that is found stands in the text, with the position's worth of
letters in front of it. -/
lemma eq_of_findPair {l : List α} {n : ℕ} (h : findPair x y l = some n) :
    l = l.take n ++ x :: y :: l.drop (n + 2) ∧ n + 2 ≤ l.length := by
  induction l generalizing n with
  | nil => simp at h
  | cons a l ih =>
    cases l with
    | nil => simp at h
    | cons b rest =>
      by_cases hab : a = x ∧ b = y
      · rw [findPair, if_pos hab] at h
        obtain rfl : 0 = n := Option.some.inj h
        simp [hab.1, hab.2]
      · rw [findPair, if_neg hab] at h
        obtain ⟨k, hk, rfl⟩ := Option.map_eq_some_iff.mp h
        obtain ⟨heq, hlen⟩ := ih hk
        refine ⟨?_, by simp only [List.length_cons] at hlen ⊢; omega⟩
        rw [List.take_succ_cons, show k + 1 + 2 = (k + 2) + 1 from rfl, List.drop_succ_cons,
          List.cons_append, ← heq]

/-! ### Lines -/

/-- A text that is a line: put in front of a terminator, that terminator is the
first one. -/
def IsLine (x y : α) (l : List α) : Prop := findPair x y (l ++ [x, y]) = some l.length

instance (l : List α) : Decidable (IsLine x y l) := inferInstanceAs (Decidable (_ = _))

lemma IsLine.findPair {l : List α} (h : IsLine x y l) (m : List α) :
    findPair x y (l ++ x :: y :: m) = some l.length := by
  have := findPair_append m h
  simpa using this

lemma isLine_nil : IsLine x y [] := by simp [IsLine]

/-- What stands in front of the first terminator is a line. -/
lemma isLine_take {l : List α} {n : ℕ} (h : Lines.findPair x y l = some n) :
    IsLine x y (l.take n) := by
  induction l generalizing n with
  | nil => simp at h
  | cons a l ih =>
    cases l with
    | nil => simp at h
    | cons b rest =>
      by_cases hab : a = x ∧ b = y
      · rw [Lines.findPair, if_pos hab] at h
        obtain rfl : 0 = n := Option.some.inj h
        exact isLine_nil
      · rw [Lines.findPair, if_neg hab] at h
        obtain ⟨k, hk, rfl⟩ := Option.map_eq_some_iff.mp h
        have hih := ih hk
        rw [List.take_succ_cons]
        rw [IsLine] at hih ⊢
        -- the letter after `a` is `b`, or the terminator when the line is `[a]`
        cases k with
        | zero =>
          obtain ⟨heq, -⟩ := eq_of_findPair hk
          simp only [List.take_zero, List.nil_append, zero_add] at heq
          obtain ⟨rfl, -⟩ := List.cons.inj heq
          by_cases hax : a = b ∧ b = y
          · exact absurd hax hab
          · simp [Lines.findPair, hax]
        | succ k =>
          rw [List.take_succ_cons, List.cons_append] at hih
          rw [List.take_succ_cons, List.cons_append, List.cons_append, Lines.findPair,
            if_neg hab, hih]
          simp

/-- A text without the terminator's first letter is a line. -/
lemma isLine_of_notMem {l : List α} (h : x ∉ l) : IsLine x y l := by
  induction l with
  | nil => exact isLine_nil
  | cons a l ih =>
    have hax : a ≠ x := fun he => h (by simp [he])
    have hl : IsLine x y l := ih fun hm => h (by simp [hm])
    rw [IsLine] at hl ⊢
    cases l with
    | nil => simp [Lines.findPair, hax]
    | cons b l =>
      rw [List.cons_append] at hl
      rw [List.cons_append, List.cons_append, Lines.findPair, if_neg (fun hh => hax hh.1), hl]
      simp

lemma isLine_cons (hxy : x ≠ y) {a : α} {l : List α} :
    IsLine x y (a :: l) ↔ ¬[x, y] <+: a :: l ∧ IsLine x y l := by
  rw [IsLine, IsLine]
  cases l with
  | nil => simp [Lines.findPair, hxy]
  | cons b l =>
    rw [List.cons_append, List.cons_append, Lines.findPair]
    by_cases hab : a = x ∧ b = y
    · simp [hab.1, hab.2, List.cons_prefix_cons]
    · have hpre : ¬[x, y] <+: a :: b :: l := by
        simp only [List.cons_prefix_cons, List.nil_prefix, and_true]
        exact fun h => hab ⟨h.1.symm, h.2.symm⟩
      rw [if_neg hab]
      simp [hpre]

/-- A letter that does not start a terminator, in front of a line. -/
lemma IsLine.cons (hxy : x ≠ y) {a : α} {l : List α} (ha : a ≠ x) (h : IsLine x y l) :
    IsLine x y (a :: l) := by
  refine (isLine_cons hxy).mpr ⟨?_, h⟩
  rw [List.cons_prefix_cons]
  exact fun hpre => ha hpre.1.symm

/-- A line is a text without a terminator inside. -/
lemma isLine_iff (hxy : x ≠ y) {l : List α} : IsLine x y l ↔ ¬[x, y] <:+: l := by
  induction l with
  | nil => simp [isLine_nil]
  | cons a l ih => rw [isLine_cons hxy, ih, List.infix_cons_iff, not_or]

lemma IsLine.of_infix (hxy : x ≠ y) {l m : List α} (h : IsLine x y l) (hm : m <:+: l) :
    IsLine x y m := by
  rw [isLine_iff hxy] at h ⊢
  exact fun hinf => h (hinf.trans hm)

/-- Two lines make a line, unless the second of them starts with the terminator's second
letter. -/
lemma IsLine.append (hxy : x ≠ y) {l m : List α} (hl : IsLine x y l) (hm : IsLine x y m)
    (hy : m.head? ≠ some y) : IsLine x y (l ++ m) := by
  induction l with
  | nil => exact hm
  | cons a l ih =>
    obtain ⟨hpre, hl⟩ := (isLine_cons hxy).mp hl
    refine (isLine_cons hxy).mpr ⟨?_, ih hl⟩
    cases l with
    | nil =>
      cases m with
      | nil => exact hpre
      | cons b m =>
        change ¬[x, y] <+: a :: b :: m
        simp only [List.cons_prefix_cons, List.nil_prefix, and_true]
        rintro ⟨-, rfl⟩
        exact hy rfl
    | cons b l => simpa [List.cons_prefix_cons] using hpre

/-! ### The lines at the front of a text -/

/-- The nonempty lines `ls` at the front of `text`, up to a rest that is empty,
has no terminator, or starts with one. -/
structure HeadSplit (x y : α) (text : List α) (ls : List (List α)) (rest : List α) : Prop where
  eq : text = joinLines x y ls ++ rest
  lines : ∀ l ∈ ls, l ≠ [] ∧ IsLine x y l
  stop : findPair x y rest = none ∨ findPair x y rest = some 0

namespace HeadSplit

lemma cons {text rest : List α} {ls : List (List α)} {l : List α}
    (hl : l ≠ [] ∧ IsLine x y l) (h : HeadSplit x y text ls rest) :
    HeadSplit x y (l ++ x :: y :: text) (l :: ls) rest := by
  refine ⟨?_, ?_, h.stop⟩
  · rw [joinLines_cons, h.eq]; simp
  · intro m hm
    rcases List.mem_cons.mp hm with rfl | hm
    · exact hl
    · exact h.lines m hm

lemma exists_split (text : List α) : ∃ ls rest, HeadSplit x y text ls rest := by
  induction hn : text.length using Nat.strong_induction_on generalizing text with
  | _ n ih =>
    cases hf : findPair x y text with
    | none => exact ⟨[], text, by simp, by simp, Or.inl hf⟩
    | some k =>
      cases k with
      | zero => exact ⟨[], text, by simp, by simp, Or.inr hf⟩
      | succ k =>
        obtain ⟨heq, hlen⟩ := eq_of_findPair hf
        obtain ⟨ls, rest, h⟩ := ih (text.drop (k + 1 + 2)).length
          (by rw [List.length_drop]; omega) (text.drop (k + 1 + 2)) rfl
        refine ⟨text.take (k + 1) :: ls, rest, ?_⟩
        have hne : text.take (k + 1) ≠ [] := by
          intro h0
          have := congrArg List.length h0
          simp only [List.length_take, List.length_nil] at this
          omega
        have := h.cons (l := text.take (k + 1)) ⟨hne, isLine_take hf⟩
        rwa [← heq] at this

/-- A text that starts with a line and its terminator has that line first in
its split. -/
lemma uncons {text rest l : List α} {ls : List (List α)} (hl : l ≠ [] ∧ IsLine x y l)
    (h : HeadSplit x y (l ++ x :: y :: text) ls rest) :
    ∃ ls', ls = l :: ls' ∧ HeadSplit x y text ls' rest := by
  have hf : findPair x y (l ++ x :: y :: text) = some l.length := hl.2.findPair text
  cases ls with
  | nil =>
    have heq := h.eq
    rw [joinLines_nil, List.nil_append] at heq
    rw [heq] at hf
    have hlen : l.length ≠ 0 := fun h0 => hl.1 (List.eq_nil_of_length_eq_zero h0)
    rcases h.stop with hs | hs
    · rw [hs] at hf; exact absurd hf (by simp)
    · rw [hs] at hf; exact absurd (Option.some.inj hf).symm hlen
  | cons m ls =>
    have heq := h.eq
    rw [joinLines_cons, List.append_assoc, List.cons_append, List.cons_append] at heq
    have hm := h.lines m (by simp)
    rw [heq, hm.2.findPair] at hf
    obtain ⟨rfl, ht⟩ := List.append_inj heq (Option.some.inj hf).symm
    refine ⟨ls, rfl, ?_, fun k hk => h.lines k (by simp [hk]), h.stop⟩
    exact (List.cons.inj (List.cons.inj ht).2).2

protected lemma unique {text rest rest' : List α} {ls ls' : List (List α)}
    (h : HeadSplit x y text ls rest) (h' : HeadSplit x y text ls' rest') :
    ls = ls' ∧ rest = rest' := by
  induction ls generalizing text ls' with
  | nil =>
    have heq := h.eq
    rw [joinLines_nil, List.nil_append] at heq
    subst heq
    cases ls' with
    | nil => exact ⟨rfl, by simpa using h'.eq⟩
    | cons m ls' =>
      have hm := h'.lines m (by simp)
      have hf : findPair x y text = some m.length := by
        rw [h'.eq, joinLines_cons, List.append_assoc, List.cons_append, List.cons_append]
        exact hm.2.findPair _
      have hlen : m.length ≠ 0 := fun h0 => hm.1 (List.eq_nil_of_length_eq_zero h0)
      rcases h.stop with hs | hs
      · rw [hs] at hf; exact absurd hf (by simp)
      · rw [hs] at hf; exact absurd (Option.some.inj hf).symm hlen
  | cons l ls ih =>
    have hl := h.lines l (by simp)
    have heq := h.eq
    rw [joinLines_cons, List.append_assoc, List.cons_append, List.cons_append] at heq
    have h1 : HeadSplit x y (joinLines x y ls ++ rest) ls rest :=
      ⟨rfl, fun k hk => h.lines k (by simp [hk]), h.stop⟩
    rw [heq] at h'
    obtain ⟨ls'', rfl, h2⟩ := uncons hl h'
    obtain ⟨rfl, hr⟩ := ih h1 h2
    exact ⟨rfl, hr⟩

/-- More text at the end: behind a blank line it only lengthens the rest;
otherwise it can complete further lines, but it takes none away. -/
lemma append {text rest : List α} {ls : List (List α)} (h : HeadSplit x y text ls rest)
    (more : List α) :
    (findPair x y rest = some 0 → HeadSplit x y (text ++ more) ls (rest ++ more)) ∧
      ∃ ls' rest', HeadSplit x y (text ++ more) (ls ++ ls') rest' := by
  constructor
  · intro h0
    exact ⟨by rw [h.eq, List.append_assoc], h.lines, Or.inr (findPair_append more h0)⟩
  · obtain ⟨ls', rest', h'⟩ := exists_split (x := x) (y := y) (rest ++ more)
    refine ⟨ls', rest', ?_, ?_, h'.stop⟩
    · rw [h.eq, joinLines_append, List.append_assoc, List.append_assoc, ← h'.eq]
    · intro l hl
      rcases List.mem_append.mp hl with hl | hl
      · exact h.lines l hl
      · exact h'.lines l hl

end HeadSplit

/-! ### The lines at the front of a text, one by one -/

/-- The nonempty lines at the front of a text, at most `n` of them. -/
def frontLines (x y : α) : ℕ → List α → List (List α)
  | 0, _ => []
  | n + 1, text =>
    match findPair x y text with
    | some (k + 1) => text.take (k + 1) :: frontLines x y n (text.drop (k + 1 + 2))
    | _ => []

lemma HeadSplit.frontLines_eq {text rest : List α} {ls : List (List α)}
    (h : HeadSplit x y text ls rest) {n : ℕ} (hn : ls.length < n) :
    frontLines x y n text = ls := by
  induction ls generalizing text n with
  | nil =>
    obtain ⟨n, rfl⟩ := Nat.exists_eq_succ_of_ne_zero (Nat.ne_of_gt hn)
    have heq : text = rest := by simpa using h.eq
    rw [frontLines, heq]
    rcases h.stop with hs | hs <;> rw [hs]
  | cons l ls ih =>
    obtain ⟨n, rfl⟩ := Nat.exists_eq_succ_of_ne_zero (Nat.ne_of_gt (Nat.zero_lt_of_lt hn))
    have hl := h.lines l (by simp)
    have heq := h.eq
    rw [joinLines_cons, List.append_assoc, List.cons_append, List.cons_append] at heq
    obtain ⟨k, hk⟩ : ∃ k, l.length = k + 1 :=
      Nat.exists_eq_succ_of_ne_zero fun h0 => hl.1 (List.eq_nil_of_length_eq_zero h0)
    have hrest : HeadSplit x y (joinLines x y ls ++ rest) ls rest :=
      ⟨rfl, fun m hm => h.lines m (by simp [hm]), h.stop⟩
    rw [frontLines, heq, hl.2.findPair, hk]
    simp only
    rw [← hk, List.take_left, List.drop_append]
    simp only [List.drop_of_length_le (Nat.le_add_right l.length 2), Nat.add_sub_cancel_left,
      List.nil_append, List.drop_succ_cons, List.drop_zero]
    rw [ih hrest (Nat.lt_of_succ_lt_succ hn)]

end Lines
