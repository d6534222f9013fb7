import Mathlib.Tactic

/-!
`core/memory.c`: the arena of a connection, a list of blocks from which memory is
taken front to back and given back all at once.

The results of `malloc` are inputs: a list of the addresses that the calls get,
`none` for a call that fails, and a list that has run out for failure.
-/

namespace Nproxy

/-- `arena_block_t`; `start` is the address behind the header. -/
structure ArenaBlock where
  start : ℕ
  cap : ℕ
  used : ℕ
  deriving DecidableEq, Repr

/-- `arena_t`: the list of blocks is never empty. -/
structure Arena where
  head : ArenaBlock
  rest : List ArenaBlock
  blockSize : ℕ
  deriving DecidableEq, Repr

/-- `sizeof(arena_block_t)`. -/
def arenaBlockHeader : ℕ := 32

/-- The next result of `malloc`. -/
def malloc (tape : List (Option ℕ)) : Option ℕ × List (Option ℕ) :=
  match tape with
  | [] => (none, [])
  | r :: tape => (r, tape)

/-- `block_create`, at an address that `malloc` gave. -/
def blockCreate (size addr : ℕ) : ArenaBlock := ⟨addr + arenaBlockHeader, size, 0⟩

/-- `arena_create`, with the address of its first block. -/
def arenaCreate (blockSize addr : ℕ) : Arena := ⟨blockCreate blockSize addr, [], blockSize⟩

/-- `arena_alloc_aligned`: the address, and `none` is `NULL`. -/
def arenaAllocAligned (a : Arena) (size align : ℕ) (tape : List (Option ℕ)) :
    Option ℕ × Arena × List (Option ℕ) :=
  let pad := (align - (a.head.start + a.head.used) % align) % align
  let need := size + pad
  if a.head.used + need > a.head.cap then
    let bsize := if need > a.blockSize then need else a.blockSize
    match malloc tape with
    | (none, tape) => (none, a, tape)
    | (some addr, tape) =>
      let nb := blockCreate bsize addr
      (some nb.start, { a with head := { nb with used := need }, rest := a.head :: a.rest }, tape)
  else
    (some (a.head.start + a.head.used + pad),
      { a with head := { a.head with used := a.head.used + need } }, tape)

/-- The alignment of `arena_alloc`, the size of a pointer. -/
def arenaAlign : ℕ := 8

/-- `arena_reset`: only the block that was created first is kept. -/
def arenaReset (a : Arena) : Arena :=
  { a with head := { (a.head :: a.rest).getLast (by simp) with used := 0 }, rest := [] }

/-- The block that was created first, which `arena_reset` keeps. -/
def Arena.first (a : Arena) : ArenaBlock := (a.head :: a.rest).getLast (by simp)

/-- Where the first block is, how large it is, and how large the others are. -/
def Arena.origin (a : Arena) : ℕ × ℕ × ℕ := (a.first.start, a.first.cap, a.blockSize)

/-- Allocation never takes the first block away, and only uses it up. -/
lemma arenaAllocAligned_origin (a : Arena) (size align : ℕ) (tape : List (Option ℕ)) :
    (arenaAllocAligned a size align tape).2.1.origin = a.origin := by
  rw [arenaAllocAligned]
  simp only
  split
  · split <;> simp [Arena.origin, Arena.first]
  · cases h : a.rest with
    | nil => simp [Arena.origin, Arena.first, h]
    | cons b rest => simp [Arena.origin, Arena.first, h]

lemma arenaReset_origin (a : Arena) : (arenaReset a).origin = a.origin := by
  simp [Arena.origin, Arena.first, arenaReset]

/-- An arena that is reset is as it was created. -/
lemma arenaReset_eq {a : Arena} {size addr : ℕ} (h : a.origin = (arenaCreate size addr).origin) :
    arenaReset a = arenaCreate size addr := by
  obtain ⟨h1, h2, h3⟩ : a.first.start = addr + arenaBlockHeader ∧ a.first.cap = size ∧
      a.blockSize = size := by
    simpa [Arena.origin, Arena.first, arenaCreate, blockCreate] using h
  rw [Arena.first] at h1 h2
  simp [arenaReset, arenaCreate, blockCreate, h1, h2, h3]

end Nproxy
