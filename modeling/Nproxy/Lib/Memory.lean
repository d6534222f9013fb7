import Mathlib.Tactic

/-!
Blocks of memory as lists of cells.

`blit` is a copy into a block (`memcpy`), `slice` a part of one. The lemmas say
what a part of a block is after a copy: outside the copied range it is what it
was, and a part that ends where the copy begins is lengthened by what was copied.
-/

namespace Memory

variable {α : Type*}

/-- The cells `start, …, stop - 1` of a block. -/
def slice (mem : List α) (start stop : ℕ) : List α := (mem.drop start).take (stop - start)

/-- A copy of `src` into the block at offset `off`. -/
def blit (mem : List α) (off : ℕ) (src : List α) : List α :=
  mem.take off ++ src ++ mem.drop (off + src.length)

lemma length_slice {mem : List α} {start stop : ℕ} (h : stop ≤ mem.length) :
    (slice mem start stop).length = stop - start := by
  rw [slice, List.length_take, List.length_drop]
  omega

@[simp] lemma slice_self (mem : List α) (k : ℕ) : slice mem k k = [] := by
  simp [slice]

/-- A part that is cut off at the front. -/
lemma drop_slice (mem : List α) (start stop n : ℕ) :
    (slice mem start stop).drop n = slice mem (start + n) stop := by
  rw [slice, slice, List.drop_take, List.drop_drop]
  congr 1
  omega

lemma length_blit {mem src : List α} {off : ℕ} (h : off + src.length ≤ mem.length) :
    (blit mem off src).length = mem.length := by
  rw [blit, List.length_append, List.length_append, List.length_take, List.length_drop]
  omega

/-- A part that ends where the copy begins grows by what was copied. -/
lemma slice_blit {mem src : List α} {start off : ℕ} (hs : start ≤ off)
    (h : off + src.length ≤ mem.length) :
    slice (blit mem off src) start (off + src.length) = slice mem start off ++ src := by
  have htake : (mem.take off).length = off := by rw [List.length_take]; omega
  have hd : (blit mem off src).drop start
      = slice mem start off ++ (src ++ mem.drop (off + src.length)) := by
    rw [blit, List.append_assoc, List.drop_append_of_le_length (by omega), slice, List.drop_take]
  have hl : (slice mem start off).length = off - start := length_slice (by omega)
  rw [slice, hd, List.take_append, hl, List.take_of_length_le (by omega),
    show off + src.length - start - (off - start) = src.length by omega,
    List.take_append_of_le_length le_rfl, List.take_length]

/-- The front of a block that a copy fills from its start. -/
lemma slice_blit_zero {mem src : List α} (h : src.length ≤ mem.length) :
    slice (blit mem 0 src) 0 src.length = src := by
  have h0 : slice (blit mem 0 src) 0 (0 + src.length) = slice mem 0 0 ++ src :=
    slice_blit le_rfl (by omega)
  simpa using h0

lemma slice_blit_zero_of_le {mem src : List α} {k : ℕ} (h : k ≤ src.length) :
    slice (blit mem 0 src) 0 k = slice src 0 k := by
  simp only [slice, blit, List.take_zero, List.nil_append, List.drop_zero, Nat.sub_zero]
  exact List.take_append_of_le_length h

end Memory
