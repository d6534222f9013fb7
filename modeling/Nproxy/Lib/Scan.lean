import Nproxy.Lib.Lines
import Nproxy.Lib.Memory
import Mathlib.Data.List.DropRight

/-!
Scans over a block of memory, with every access checked.

A scan is given an offset and a number of cells, as pointer code has them, and reads one
cell after the other. A read outside the block gives `none`, so a scan whose result is
`some` has read inside only. On a range inside the block each scan is a function of the
cells in the range:

* `scan` finds a cell (`scan_eq`), `scanPair` two cells in a row (`scanPair_eq`);
* `skipFront` and `skipBack` leave out cells at the ends (`skipFront_eq`, `skipBack_eq`);
* `load` takes the range as it is, and `diff` is a difference of two offsets that must
  not be negative.
-/

namespace Memory

variable {α : Type*} (mem : List α)

/-- The cells of a range, inside the block only. -/
def load (off n : ℕ) : Option (List α) :=
  if off + n ≤ mem.length then some (slice mem off (off + n)) else none

/-- The offset of the first cell with `p`, among `n` cells from `off` on. -/
def scan (p : α → Bool) : ℕ → ℕ → Option (Option ℕ)
  | 0, _ => some none
  | n + 1, off =>
    mem[off]?.bind fun a => if p a then some (some off) else scan p n (off + 1)

/-- The offset of the first `x` with a `y` behind it, among `n` cells from `off` on. The cell
behind one is read if that one is `x`. -/
def scanPair [DecidableEq α] (x y : α) : ℕ → ℕ → Option (Option ℕ)
  | n + 2, off =>
    mem[off]?.bind fun a =>
      if a = x then
        mem[off + 1]?.bind fun b =>
          if b = y then some (some off) else scanPair x y (n + 1) (off + 1)
      else scanPair x y (n + 1) (off + 1)
  | _, _ => some none

/-- `n` cells from `off` on, without those with `p` at the front. -/
def skipFront (p : α → Bool) : ℕ → ℕ → Option (ℕ × ℕ)
  | 0, off => some (off, 0)
  | n + 1, off =>
    mem[off]?.bind fun a => if p a then skipFront p n (off + 1) else some (off, n + 1)

/-- How many of `n` cells from `off` on are left without those with `p` at the end. -/
def skipBack (p : α → Bool) (off : ℕ) : ℕ → Option ℕ
  | 0 => some 0
  | n + 1 => mem[off + n]?.bind fun a => if p a then skipBack p off n else some (n + 1)

/-- A difference of offsets that must not be negative. -/
def diff (stop start : ℕ) : Option ℕ := if start ≤ stop then some (stop - start) else none

variable {mem} {off n : ℕ}

lemma diff_eq {stop start : ℕ} (h : start ≤ stop) : diff stop start = some (stop - start) :=
  if_pos h

lemma load_eq (h : off + n ≤ mem.length) : load mem off n = some (slice mem off (off + n)) :=
  if_pos h

lemma exists_slice_succ (h : off + (n + 1) ≤ mem.length) :
    ∃ a, mem[off]? = some a ∧
      slice mem off (off + (n + 1)) = a :: slice mem (off + 1) (off + 1 + n) := by
  have hlt : off < mem.length := by omega
  refine ⟨mem[off], List.getElem?_eq_getElem hlt, ?_⟩
  rw [slice, slice, Nat.add_sub_cancel_left, Nat.add_sub_cancel_left, List.drop_eq_getElem_cons hlt,
    List.take_succ_cons]

lemma exists_slice_concat (h : off + (n + 1) ≤ mem.length) :
    ∃ a, mem[off + n]? = some a ∧
      slice mem off (off + (n + 1)) = slice mem off (off + n) ++ [a] := by
  have hlt : off + n < mem.length := by omega
  refine ⟨mem[off + n], List.getElem?_eq_getElem hlt, ?_⟩
  have hdrop : n < (mem.drop off).length := by
    rw [List.length_drop]
    omega
  rw [slice, slice, Nat.add_sub_cancel_left, Nat.add_sub_cancel_left,
    List.take_succ_eq_append_getElem hdrop, List.getElem_drop]

lemma slice_middle {a b c : List α} (h : slice mem off (off + n) = a ++ b ++ c) :
    slice mem (off + a.length) (off + a.length + b.length) = b := by
  have hcut := congrArg (fun l => (l.drop a.length).take b.length) h
  simp only [drop_slice, List.append_assoc, List.drop_left, List.take_left] at hcut
  have hle : off + a.length + b.length ≤ off + n := by
    have hlen := congrArg List.length h
    rw [slice, List.length_take, List.length_append, List.length_append, Nat.add_sub_cancel_left]
      at hlen
    omega
  rw [slice, Nat.add_sub_cancel_left]
  rw [slice, List.take_take, min_eq_left (by omega)] at hcut
  exact hcut

lemma scan_eq (p : α → Bool) (h : off + n ≤ mem.length) :
    scan mem p n off = some (((slice mem off (off + n)).findIdx? p).map (off + ·)) := by
  induction n generalizing off with
  | zero => rw [scan, Nat.add_zero, slice_self]; rfl
  | succ n ih =>
    obtain ⟨a, hget, hslice⟩ := exists_slice_succ h
    rw [scan, hget, Option.bind_some, hslice, List.findIdx?_cons, ih (by omega)]
    cases p a with
    | true => rfl
    | false =>
      simp only [Bool.false_eq_true, if_false, Option.map_map]
      congr 2
      funext i
      exact Nat.add_right_comm off 1 i

lemma scanPair_eq [DecidableEq α] (x y : α) (h : off + n ≤ mem.length) :
    scanPair mem x y n off
      = some ((Lines.findPair x y (slice mem off (off + n))).map (off + ·)) := by
  induction n generalizing off with
  | zero => rw [Nat.add_zero, slice_self]; rfl
  | succ n ih =>
    obtain ⟨a, hget, hslice⟩ := exists_slice_succ h
    cases n with
    | zero =>
      rw [hslice, Nat.add_zero, slice_self]
      rfl
    | succ n =>
      have htail : off + 1 + (n + 1) ≤ mem.length := by omega
      obtain ⟨b, hnext, hslice'⟩ := exists_slice_succ htail
      have hrest := ih htail
      rw [hslice'] at hrest
      have hshift : ((Lines.findPair x y (b :: slice mem (off + 1 + 1) (off + 1 + 1 + n))).map
          (· + 1)).map (off + ·) = (Lines.findPair x y
            (b :: slice mem (off + 1 + 1) (off + 1 + 1 + n))).map (off + 1 + ·) := by
        rw [Option.map_map]
        congr 1
        funext i
        exact (Nat.add_assoc off i 1).symm.trans (Nat.add_right_comm off i 1)
      rw [scanPair, hget, Option.bind_some, hnext, Option.bind_some, hslice, hslice',
        Lines.findPair, hrest]
      by_cases ha : a = x
      · by_cases hb : b = y
        · rw [if_pos ha, if_pos hb, if_pos ⟨ha, hb⟩]
          rfl
        · rw [if_pos ha, if_neg hb, if_neg (fun hab => hb hab.2), hshift]
      · rw [if_neg ha, if_neg (fun hab => ha hab.1), hshift]

lemma skipFront_eq (p : α → Bool) (h : off + n ≤ mem.length) :
    skipFront mem p n off =
      some (off + ((slice mem off (off + n)).takeWhile p).length,
        ((slice mem off (off + n)).dropWhile p).length) := by
  induction n generalizing off with
  | zero => rw [skipFront, Nat.add_zero, slice_self]; rfl
  | succ n ih =>
    obtain ⟨a, hget, hslice⟩ := exists_slice_succ h
    have hlen : (slice mem (off + 1) (off + 1 + n)).length = n := by
      rw [length_slice (by omega)]
      omega
    rw [skipFront, hget, Option.bind_some, hslice, List.takeWhile_cons, List.dropWhile_cons,
      ih (by omega)]
    cases p a with
    | true => simp [Nat.add_assoc, Nat.add_comm]
    | false => simp [hlen]

lemma skipBack_eq (p : α → Bool) (h : off + n ≤ mem.length) :
    skipBack mem p off n = some ((slice mem off (off + n)).rdropWhile p).length := by
  induction n with
  | zero => rw [skipBack, Nat.add_zero, slice_self]; rfl
  | succ n ih =>
    obtain ⟨a, hget, hslice⟩ := exists_slice_concat h
    have hlen : (slice mem off (off + n)).length = n := by
      rw [length_slice (by omega)]
      omega
    rw [skipBack, hget, Option.bind_some, hslice, ih (by omega)]
    cases hp : p a with
    | true => rw [if_pos rfl, List.rdropWhile_concat_pos _ _ _ hp]
    | false =>
      rw [if_neg Bool.false_ne_true, List.rdropWhile_concat_neg _ _ _ (by simp [hp]),
        List.length_append, hlen, List.length_singleton]

end Memory
