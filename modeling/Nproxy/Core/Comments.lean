import Nproxy.Core.Blocks

/-!
Comments in a configuration file.

`strip_comment` works on the pieces that `fgets` delivers, and a line of more than
510 bytes is several of them. A comment that starts at offset `a` of its line ends
within the piece in which it starts if it has at most `510 - a % 511` bytes; what
goes beyond is read as a line of its own.

* `foldl_step_endOfLine` reads the end of a line: what the current piece holds, and
  the lines behind it.
* One byte left over does nothing (`step_parseLine_singleton`), two of them can close
  the section (`parseLine_brackets`), and so `comment_inert_iff`: comments of `n`
  bytes behind `a` bytes are inert exactly if `a % 511 + n ≤ 511`.
-/

namespace Nproxy

open Pieces (WholeLines)

variable {re : List UInt8 → Bool}

/-- A text that is empty or starts with a newline: what follows a line. -/
def EndsLine (after : List UInt8) : Prop := after = [] ∨ after.head? = some lf

/-- The end of a line: the rest of the line is read, and then the lines behind it. -/
lemma foldl_step_endOfLine {after : List UInt8} (h : EndsLine after) (acc : List UInt8)
    (r : Reading) :
    ((Pieces.cut lf 511 acc after).map parseLine).foldl (Reading.step re) r
      = (fileLines (after.drop 1)).foldl (Reading.step re) (r.step re (parseLine acc)) := by
  cases after with
  | nil =>
    rw [Pieces.cut]
    split_ifs with hacc
    · rw [hacc]
      rfl
    · rfl
  | cons c after =>
    have hc : c = lf := by simpa [EndsLine] using h
    rw [hc, Pieces.cut, if_pos (Or.inl rfl), List.map_cons, List.foldl_cons, parseLine_newline]
    rfl

/-! ### Pieces that do nothing -/

/-- A piece of one byte does nothing: an equals sign alone assigns to no key. -/
lemma step_parseLine_singleton (r : Reading) (c : UInt8) : r.step re (parseLine [c]) = r := by
  by_cases heq : c = 61
  · have hassign : parseLine [61] = .assign [] [] := by decide
    rw [heq, hassign, Reading.step, editOf_nil]
  · have hskip : parseLine [c] = .skip := by
      have htext : lineText [c] <:+: [c] := by
        rw [lineText_eq]
        exact ((List.dropWhile_suffix _).isInfix.trans (List.rdropWhile_prefix _ _).isInfix).trans
          (List.takeWhile_prefix _).isInfix
      rw [parseLine]
      cases List.sublist_singleton.mp htext.sublist with
      | inl h => rw [h]; rfl
      | inr h =>
        rw [h, parseText, if_neg List.not_mem_nil,
          if_neg fun hmem => heq (List.mem_singleton.mp hmem).symm, ite_self]
    rw [hskip]
    rfl

/-- A blank line. -/
def IsBlank (p : List UInt8) : Prop := ∀ c ∈ p, c = 32

lemma IsBlank.parseLine_eq {p : List UInt8} (h : IsBlank p) : parseLine p = .skip := by
  have := parseLine_blanks [] p.length
  rwa [List.nil_append, ← List.eq_replicate_of_mem h] at this

lemma isBlank_replicate (k : ℕ) : IsBlank (List.replicate k 32) := fun _ => List.eq_of_mem_replicate

lemma IsBlank.notMem {p : List UInt8} (h : IsBlank p) {c : UInt8} (hc : c ≠ 32) : c ∉ p :=
  fun hmem => hc (h c hmem)

lemma foldl_step_blank {ps : List (List UInt8)} (h : IsBlank ps.flatten) (r : Reading) :
    (ps.map parseLine).foldl (Reading.step re) r = r := by
  induction ps with
  | nil => rfl
  | cons p ps ih =>
    rw [List.flatten_cons] at h
    have hp : IsBlank p := fun c hc => h c (by simp [hc])
    rw [List.map_cons, List.foldl_cons, hp.parseLine_eq]
    exact ih fun c hc => h c (List.mem_append_right _ hc)

/-- Two brackets and blanks are a header without a name. -/
lemma parseLine_brackets {p : List UInt8} (h : IsBlank p) :
    parseLine (91 :: 93 :: p) = .header [] := by
  have := parseLine_blanks [91, 93] p.length
  rw [← List.eq_replicate_of_mem h] at this
  exact this.trans (by decide)

/-! ### Long lines -/

/-- A line fills whole pieces and leaves the rest that its length says. -/
lemma exists_fileLines_append {l : List UInt8} (hl : lf ∉ l) :
    ∃ (full : List (List UInt8)) (rest : List UInt8), l = full.flatten ++ rest ∧
      rest.length = l.length % 511 ∧
      ∀ m, fileLines (l ++ m) = full.map parseLine ++ (Pieces.cut lf 511 rest m).map parseLine := by
  obtain ⟨full, rest, heq, hfull, hrest, hcut⟩ :=
    Pieces.exists_cut_append [] (n := 511) (by simp) hl
  refine ⟨full, rest, heq, ?_, fun m => ?_⟩
  · have hlen : full.flatten.length = 511 * full.length := by
      rw [List.length_flatten, List.map_congr_left hfull]
      simp [Nat.mul_comm]
    have := congrArg List.length heq
    rw [List.nil_append, List.length_append, hlen] at this
    omega
  · rw [fileLines, configLines, Pieces.pieces, hcut, List.map_append]

/-- A comment that leaves at most one byte behind the piece it starts in does
nothing. -/
lemma foldl_step_comment {rest c after : List UInt8} (hc : lf ∉ c) (hafter : EndsLine after)
    (hlen : rest.length + c.length ≤ 511) (hrest : rest.length < 511) (r : Reading) :
    ((Pieces.cut lf 511 rest (35 :: c ++ after)).map parseLine).foldl (Reading.step re) r
      = ((Pieces.cut lf 511 rest after).map parseLine).foldl (Reading.step re) r := by
  have hc' : lf ∉ 35 :: c := by
    intro h
    cases List.mem_cons.mp h with
    | inl h => exact absurd h (by decide)
    | inr h => exact hc h
  rw [foldl_step_endOfLine hafter rest]
  rcases lt_trichotomy (rest.length + c.length) 510 with hlt | heq | hgt
  · rw [Pieces.cut_append_of_lt hc' (by simp; omega), foldl_step_endOfLine hafter,
      parseLine_comment]
  · rw [Pieces.cut_append_of_eq hc' (by simp) (by simp; omega), List.map_cons, List.foldl_cons,
      parseLine_comment, Pieces.pieces, foldl_step_endOfLine hafter]
    rfl
  · obtain ⟨c₁, x, rfl⟩ := List.eq_nil_or_concat' c |>.resolve_left fun h => by
      rw [h, List.length_nil] at hgt
      omega
    rw [List.length_append, List.length_singleton] at hlen hgt
    have hsplit : 35 :: (c₁ ++ [x]) ++ after = (35 :: c₁) ++ ([x] ++ after) := by simp
    rw [hsplit, Pieces.cut_append_of_eq (fun h => hc' (by simp at h ⊢; tauto)) (by simp)
      (by simp; omega), List.map_cons, List.foldl_cons, parseLine_comment, Pieces.pieces,
      Pieces.cut_append_of_lt (fun h => hc (by simp at h ⊢; tauto)) (by simp),
      foldl_step_endOfLine hafter, List.nil_append, step_parseLine_singleton]

/-! ### A comment that closes the section -/

/-- The text that goes beyond a piece, when it starts with two brackets: the section
is left, and the lines behind the comment are read outside of it. -/
lemma foldl_step_brackets {p after : List UInt8} (hp : IsBlank p) (hafter : EndsLine after)
    (r : Reading) :
    (fileLines (91 :: 93 :: p ++ after)).foldl (Reading.step re) r
      = (fileLines (after.drop 1)).foldl (Reading.step re) (r.step re (.header [])) := by
  obtain ⟨full, rest, heq, hfull, -, hcut⟩ :=
    Pieces.exists_cut_append [91, 93] (n := 511) (by simp) (hp.notMem (c := lf) (by decide))
  have hlines : fileLines (91 :: 93 :: p ++ after)
      = full.map parseLine ++ (Pieces.cut lf 511 rest after).map parseLine := by
    have hsplit : 91 :: 93 :: p ++ after = [91, 93] ++ (p ++ after) := by simp
    rw [fileLines, configLines, Pieces.pieces, hsplit,
      Pieces.cut_append_of_lt (by decide) (by simp), List.nil_append, hcut, List.map_append]
  rw [hlines, List.foldl_append, foldl_step_endOfLine hafter]
  cases full with
  | nil =>
    rw [List.flatten_nil, List.nil_append] at heq
    rw [← heq, show parseLine ([91, 93] ++ p) = .header [] from parseLine_brackets hp]
    rfl
  | cons q qs =>
    -- the brackets stand in the first piece, and blanks in the others
    have hq : q = 91 :: 93 :: p.take 509 := by
      have htake := congrArg (List.take 511) heq
      rw [List.flatten_cons, List.append_assoc, List.take_append_of_le_length
        (hfull q (by simp)).ge, List.take_of_length_le (hfull q (by simp)).le] at htake
      exact htake.symm
    have hrest : qs.flatten ++ rest = p.drop 509 := by
      have hdrop := congrArg (List.drop 511) heq
      rw [List.flatten_cons, List.append_assoc, List.drop_append_of_le_length
        (hfull q (by simp)).ge, List.drop_of_length_le (hfull q (by simp)).le] at hdrop
      exact hdrop.symm
    have hblank : IsBlank (qs.flatten ++ rest) := fun c hc =>
      hp c (List.mem_of_mem_drop (hrest ▸ hc))
    rw [List.map_cons, List.foldl_cons, hq,
      parseLine_brackets fun c hc => hp c (List.mem_of_mem_take hc),
      foldl_step_blank fun c hc => hblank c (List.mem_append_left _ hc),
      IsBlank.parseLine_eq fun c hc => hblank c (List.mem_append_right _ hc)]
    rfl

lemma foldl_step_blankLine {l after : List UInt8} (hl : IsBlank l) (hafter : EndsLine after)
    (r : Reading) :
    (fileLines (l ++ after)).foldl (Reading.step re) r
      = (fileLines (after.drop 1)).foldl (Reading.step re) r := by
  obtain ⟨full, rest, heq, -, hlines⟩ :=
    exists_fileLines_append (hl.notMem (c := lf) (by decide))
  rw [heq] at hl
  rw [hlines, List.foldl_append, foldl_step_endOfLine hafter,
    foldl_step_blank fun c hc => hl c (List.mem_append_left _ hc),
    IsBlank.parseLine_eq fun c hc => hl c (List.mem_append_right _ hc)]
  rfl

/-- A blank line with a comment whose two brackets stand right behind the piece it
starts in. -/
lemma foldl_step_bracketComment {l c p after : List UInt8} (hl : IsBlank l) (hc : IsBlank c)
    (hp : IsBlank p) (hlen : l.length % 511 + c.length = 510) (hafter : EndsLine after)
    (r : Reading) :
    (fileLines (l ++ (35 :: (c ++ 91 :: 93 :: p) ++ after))).foldl (Reading.step re) r
      = (fileLines (after.drop 1)).foldl (Reading.step re) (r.step re (.header [])) := by
  obtain ⟨full, rest, heq, hrest, hlines⟩ :=
    exists_fileLines_append (hl.notMem (c := lf) (by decide))
  have hsplit : 35 :: (c ++ 91 :: 93 :: p) ++ after = (35 :: c) ++ (91 :: 93 :: p ++ after) := by
    simp
  have hlf : lf ∉ 35 :: c := by
    intro h
    cases List.mem_cons.mp h with
    | inl h => exact absurd h (by decide)
    | inr h => exact hc.notMem (by decide) h
  rw [heq] at hl
  rw [hlines, List.foldl_append, foldl_step_blank fun c hc => hl c (List.mem_append_left _ hc),
    hsplit, Pieces.cut_append_of_eq hlf (by simp) (by simp; omega), List.map_cons,
    List.foldl_cons, parseLine_comment,
    IsBlank.parseLine_eq fun c hc => hl c (List.mem_append_right _ hc)]
  exact foldl_step_brackets hp hafter r

/-- A `[server]` line, then a line, and then a port. -/
def portBehind (line : List UInt8) : List UInt8 :=
  bytes "[server]\n" ++ (line ++ bytes "\nlisten_port = 1\n")

/-- Such a comment takes the port out of its section. -/
lemma portBehind_bracketComment_ne {l c p : List UInt8} (hl : IsBlank l) (hc : IsBlank c)
    (hp : IsBlank p) (hlen : l.length % 511 + c.length = 510) :
    (configLoad (fun _ _ => true) (portBehind (l ++ 35 :: (c ++ 91 :: 93 :: p)))).map NpConfig.view
      ≠ (configLoad (fun _ _ => true) (portBehind l)).map NpConfig.view := by
  have hafter : EndsLine (bytes "\nlisten_port = 1\n") := Or.inr (by decide)
  have hbefore : WholeLines lf (bytes "[server]\n") := Or.inr (by decide)
  rw [portBehind, portBehind, List.append_assoc l, configLoad_view, configLoad_view,
    Settings.load, Settings.load, readFile_append hbefore, readFile_append hbefore,
    foldl_step_blankLine hl hafter, foldl_step_bracketComment hl hc hp hlen hafter]
  decide +kernel

/-- **Comments.** Comments of `n` bytes that start at offset `a` of their lines are
inert exactly if `a % 511 + n ≤ 511`. -/
theorem comment_inert_iff (a n : ℕ) :
    (∀ (re : List UInt8 → Bool) (before l c after : List UInt8), WholeLines lf before →
      lf ∉ l → 35 ∉ l → l.length = a → lf ∉ c → c.length = n → EndsLine after →
      (configLoad (fun _ => re) (before ++ (l ++ (35 :: c ++ after)))).map NpConfig.view
        = (configLoad (fun _ => re) (before ++ (l ++ after))).map NpConfig.view) ↔
      a % 511 + n ≤ 511 := by
  constructor
  · intro h
    by_contra hgt
    -- blanks, a comment of blanks that fills the piece, and then the end of the section
    have hmod := Nat.mod_lt a (show 0 < 511 by decide)
    have hl := isBlank_replicate a
    have hc := isBlank_replicate (510 - a % 511)
    have hp := isBlank_replicate (n - (512 - a % 511))
    have hlf : lf ∉ List.replicate (510 - a % 511) 32 ++
        91 :: 93 :: List.replicate (n - (512 - a % 511)) 32 := by
      simp only [List.mem_append, List.mem_cons, not_or]
      exact ⟨hc.notMem (by decide), by decide, by decide, hp.notMem (by decide)⟩
    have hsame := h (fun _ => true) (bytes "[server]\n") (List.replicate a 32) _
      (bytes "\nlisten_port = 1\n") (Or.inr (by decide)) (hl.notMem (by decide))
      (hl.notMem (by decide)) (by simp) hlf (by simp; omega) (Or.inr (by decide))
    refine portBehind_bracketComment_ne hl hc hp (by simp; omega) ?_
    rwa [portBehind, portBehind, List.append_assoc (List.replicate a 32)]
  · intro hlen re before l c after hbefore hl _ hla hc hcn hafter
    obtain ⟨full, rest, -, hrest, hlines⟩ := exists_fileLines_append hl
    rw [configLoad_view, configLoad_view, Settings.load, Settings.load, readFile_append hbefore,
      readFile_append hbefore, hlines, hlines, List.foldl_append, List.foldl_append,
      foldl_step_comment hc hafter (by omega) (by omega)]

/-- A comment of 512 bytes takes the port behind it out of its section. -/
theorem exists_comment_harm :
    ¬∀ (re : List UInt8 → Bool) (before l c after : List UInt8), WholeLines lf before →
      lf ∉ l → 35 ∉ l → lf ∉ c → EndsLine after →
      (configLoad (fun _ => re) (before ++ (l ++ (35 :: c ++ after)))).map NpConfig.view
        = (configLoad (fun _ => re) (before ++ (l ++ after))).map NpConfig.view := by
  intro h
  have hlf : lf ∉ List.replicate 510 32 ++ [91, 93] := by
    rw [List.mem_append, not_or]
    exact ⟨(isBlank_replicate 510).notMem (by decide), by decide⟩
  have hsame := h (fun _ => true) (bytes "[server]\n") [] _ (bytes "\nlisten_port = 1\n")
    (Or.inr (by decide)) List.not_mem_nil List.not_mem_nil hlf (Or.inr (by decide))
  refine portBehind_bracketComment_ne (isBlank_replicate 0) (isBlank_replicate 510)
    (isBlank_replicate 0) ?_ hsame
  rw [List.length_replicate, List.length_replicate]

end Nproxy
