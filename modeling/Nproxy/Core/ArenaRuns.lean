import Nproxy.Core.Arena
import Nproxy.Lib.Bump
import Nproxy.Lib.Run

/-!
The arena of a connection over many calls, with the arithmetic of `usize`.

* `blockCreateU64`, `arenaAllocAlignedU64`: the functions of `core/memory.c` with sums mod
  `2 ^ 64`, and with what `malloc` answers to the request. `arenaAllocAlignedU64_eq` compares them
  with the model without overflow.
* `ArenaUse`: an arena with the regions that were handed out since it was created or reset.
* `ArenaUse.Sound`: the regions are aligned, in a block, and share no byte.
* `arena_run`: this holds after every run in which no request to `malloc` overflows. The sum of
  the header and the size of a block is not checked, and `exists_overlap` is a run where it wraps.
-/

namespace Nproxy

open Bump Run

/-- `sizeof(arena_t)`. -/
def arenaHeader : ℕ := 16

/-- `block_create`, with what `malloc` answers to a request. -/
def blockCreateU64 (answer : ℕ → Option ℕ) (size : ℕ) : Option ArenaBlock :=
  (answer ((arenaBlockHeader + size) % 2 ^ 64)).map (blockCreate size)

/-- `arena_create`, with the answers for the arena and for its first block. -/
def arenaCreateU64 (self block : ℕ → Option ℕ) (blockSize : ℕ) : Option Arena :=
  (self arenaHeader).bind fun _ =>
    (blockCreateU64 block blockSize).map fun head => ⟨head, [], blockSize⟩

/-- `arena_alloc_aligned`: the address, and `none` is `NULL`. -/
def arenaAllocAlignedU64 (answer : ℕ → Option ℕ) (a : Arena) (size align : ℕ) :
    Option ℕ × Arena :=
  let pad := (align - (a.head.start + a.head.used) % 2 ^ 64 % align) % align
  let need := (size + pad) % 2 ^ 64
  if (a.head.used + need) % 2 ^ 64 > a.head.cap then
    let bsize := if need > a.blockSize then need else a.blockSize
    match blockCreateU64 answer bsize with
    | none => (none, a)
    | some nb =>
      (some nb.start, { a with head := { nb with used := need }, rest := a.head :: a.rest })
  else
    (some (a.head.start + a.head.used + pad),
      { a with head := { a.head with used := (a.head.used + need) % 2 ^ 64 } })

/-- `arena_alloc`. -/
def arenaAllocU64 (answer : ℕ → Option ℕ) (a : Arena) (size : ℕ) : Option ℕ × Arena :=
  arenaAllocAlignedU64 answer a size arenaAlign

/-! ### Runs -/

/-- The blocks of an arena, the one created last in front. -/
def Arena.blocks (a : Arena) : List ArenaBlock := a.head :: a.rest

/-- `start .. start + cap`. -/
def ArenaBlock.span (b : ArenaBlock) : Span := ⟨b.start, b.cap⟩

/-- What `malloc` was asked for and gave, with the header in front. -/
def ArenaBlock.memory (b : ArenaBlock) : Span :=
  ⟨b.start - arenaBlockHeader, (arenaBlockHeader + b.cap) % 2 ^ 64⟩

/-- What `malloc` can answer while some memory is in use: 16-byte aligned blocks that are apart
from it. -/
def FairMalloc (live : List Span) (answer : ℕ → Option ℕ) : Prop :=
  ∀ n, ∀ addr ∈ answer n, 16 ∣ addr ∧ ∀ s ∈ live, Span.Apart ⟨addr, n⟩ s

/-- A region that was handed out, with the alignment that was asked for. -/
structure Region where
  span : Span
  align : ℕ
  deriving DecidableEq, Repr

/-- An arena, and the regions it has handed out since it was created or reset. -/
structure ArenaUse where
  arena : Arena
  regions : List Region
  deriving DecidableEq, Repr

/-- A call, with what `malloc` answers at that time. -/
inductive ArenaOp where
  | allocAligned (size align : ℕ) (answer : ℕ → Option ℕ)
  | alloc (size : ℕ) (answer : ℕ → Option ℕ)
  | reset

namespace ArenaUse

/-- The result of a call is noted. -/
def record (regions : List Region) (size align : ℕ) : Option ℕ × Arena → ArenaUse
  | (none, arena) => ⟨arena, regions⟩
  | (some ptr, arena) => ⟨arena, ⟨⟨ptr, size⟩, align⟩ :: regions⟩

/-- One call, and the regions that are in use after it. A reset takes all of them back. -/
def step (u : ArenaUse) : ArenaOp → ArenaUse
  | .allocAligned size align answer =>
    record u.regions size align (arenaAllocAlignedU64 answer u.arena size align)
  | .alloc size answer => record u.regions size arenaAlign (arenaAllocU64 answer u.arena size)
  | .reset => ⟨arenaReset u.arena, []⟩

/-- The alignment is a small power of two, `used + size + align` does not overflow, and `malloc`
gives memory that is not in use. -/
def Proper (u : ArenaUse) (size align : ℕ) (answer : ℕ → Option ℕ) : Prop :=
  align ∈ [1, 2, 4, 8, 16] ∧ u.arena.head.used + size + align < 2 ^ 64 ∧
    FairMalloc (u.arena.blocks.map ArenaBlock.memory) answer

/-- A call that asks for nothing odd, while `malloc` does its part. -/
def Asked (u : ArenaUse) : ArenaOp → Prop
  | .allocAligned size align answer => u.Proper size align answer
  | .alloc size answer => u.Proper size arenaAlign answer
  | .reset => True

end ArenaUse

/-- The bytes from the end of what is used to the next multiple of `align`. -/
def Arena.pad (a : Arena) (align : ℕ) : ℕ :=
  (align - (a.head.start + a.head.used) % align) % align

/-- The request for a block that is large enough would not wrap. -/
def ArenaUse.HeaderFits (u : ArenaUse) : ArenaOp → Prop
  | .allocAligned size align _ => arenaBlockHeader + size + u.arena.pad align < 2 ^ 64
  | .alloc size _ => arenaBlockHeader + size + u.arena.pad arenaAlign < 2 ^ 64
  | .reset => True

/-- What an arena is for: the regions are aligned as asked, each lies in a block, no two of them
share a byte, and no block is used beyond its end. -/
structure ArenaUse.Sound (u : ArenaUse) : Prop where
  aligned : ∀ r ∈ u.regions, r.align ∣ r.span.start
  inside : ∀ r ∈ u.regions, ∃ b ∈ u.arena.blocks, r.span.Inside b.span
  disjoint : u.regions.Pairwise fun r s => r.span.Apart s.span
  used_le : ∀ b ∈ u.arena.blocks, b.used ≤ b.cap

/-! ### One call -/

variable {a : Arena} {size align : ℕ} {answer : ℕ → Option ℕ}

lemma pad_lt (a : Arena) (h : 0 < align) : a.pad align < align := Nat.mod_lt _ h

/-- The padding leads to a multiple of the alignment. -/
lemma dvd_add_pad (a : Arena) (h : 0 < align) :
    align ∣ a.head.start + a.head.used + a.pad align := by
  rw [Arena.pad]
  generalize a.head.start + a.head.used = x
  have hx := Nat.div_add_mod x align
  rcases Nat.eq_zero_or_pos (x % align) with hzero | hpos
  · rw [hzero, Nat.sub_zero, Nat.mod_self]
    exact Nat.dvd_of_mod_eq_zero hzero
  · have hlt := Nat.mod_lt x h
    rw [Nat.mod_eq_of_lt (by omega : align - x % align < align)]
    refine ⟨x / align + 1, ?_⟩
    calc x + (align - x % align) = align * (x / align) + align := by omega
      _ = align * (x / align + 1) := (Nat.mul_succ align (x / align)).symm

/-- The size of a new block. -/
def Arena.newSize (a : Arena) (need : ℕ) : ℕ := if need > a.blockSize then need else a.blockSize

/-- **Without overflow the call is the one of the model over the naturals**, with the answer of
`malloc` to the request that it makes. -/
lemma arenaAllocAlignedU64_eq (hdvd : align ∣ 16) (h : a.head.used + size + align < 2 ^ 64) :
    arenaAllocAlignedU64 answer a size align =
      let tape := [answer ((arenaBlockHeader + a.newSize (size + a.pad align)) % 2 ^ 64)]
      ((arenaAllocAligned a size align tape).1, (arenaAllocAligned a size align tape).2.1) := by
  have hpos : 0 < align := Nat.pos_of_dvd_of_pos hdvd (by norm_num)
  have hpad := pad_lt a hpos
  have hdvd64 : align ∣ 2 ^ 64 := hdvd.trans (by decide)
  have hneed : (size + a.pad align) % 2 ^ 64 = size + a.pad align :=
    Nat.mod_eq_of_lt (by omega)
  have hused : (a.head.used + (size + a.pad align)) % 2 ^ 64
      = a.head.used + (size + a.pad align) := Nat.mod_eq_of_lt (by omega)
  have hnew : (if size + a.pad align > a.blockSize then size + a.pad align else a.blockSize)
      = a.newSize (size + a.pad align) := rfl
  simp only [arenaAllocAlignedU64, arenaAllocAligned, Nat.mod_mod_of_dvd _ hdvd64]
  rw [← Arena.pad, hneed, hused, hnew, blockCreateU64]
  by_cases hfull : a.head.used + (size + a.pad align) > a.head.cap
  · simp only [if_pos hfull]
    cases answer ((arenaBlockHeader + a.newSize (size + a.pad align)) % 2 ^ 64) with
    | none => rfl
    | some addr => rfl
  · simp only [if_neg hfull]

/-- **What a call does**: it takes bytes behind the used ones, or from a new block, or fails. -/
lemma arenaAllocAlignedU64_cases (answer : ℕ → Option ℕ) (hdvd : align ∣ 16)
    (h : a.head.used + size + align < 2 ^ 64) :
    (a.head.used + (size + a.pad align) ≤ a.head.cap ∧
      arenaAllocAlignedU64 answer a size align =
        (some (a.head.start + a.head.used + a.pad align),
          { a with head := { a.head with used := a.head.used + (size + a.pad align) } })) ∨
    (∃ addr ∈ answer ((arenaBlockHeader + a.newSize (size + a.pad align)) % 2 ^ 64),
      arenaAllocAlignedU64 answer a size align =
        (some (addr + arenaBlockHeader),
          { a with
            head := ⟨addr + arenaBlockHeader, a.newSize (size + a.pad align), size + a.pad align⟩
            rest := a.head :: a.rest })) ∨
    arenaAllocAlignedU64 answer a size align = (none, a) := by
  rw [arenaAllocAlignedU64_eq hdvd h]
  simp only [arenaAllocAligned]
  rw [← Arena.pad]
  by_cases hfull : a.head.used + (size + a.pad align) > a.head.cap
  · refine Or.inr ?_
    simp only [if_pos hfull]
    cases answer ((arenaBlockHeader + a.newSize (size + a.pad align)) % 2 ^ 64) with
    | none => exact Or.inr rfl
    | some addr => exact Or.inl ⟨addr, rfl, rfl⟩
  · refine Or.inl ⟨Nat.not_lt.mp hfull, ?_⟩
    simp only [if_neg hfull]

lemma arenaAllocAlignedU64_origin (answer : ℕ → Option ℕ) (hdvd : align ∣ 16)
    (h : a.head.used + size + align < 2 ^ 64) :
    (arenaAllocAlignedU64 answer a size align).2.origin = a.origin := by
  rw [arenaAllocAlignedU64_eq hdvd h]
  exact arenaAllocAligned_origin a size align _

/-! ### Whole runs -/

/-- A block with its mark. -/
def ArenaBlock.marked (b : ArenaBlock) : Block := ⟨b.span, b.used⟩

/-- The header stands in front of the block, and the request for both did not wrap. -/
structure ArenaBlock.Whole (b : ArenaBlock) : Prop where
  header_le : arenaBlockHeader ≤ b.start
  aligned : 16 ∣ b.start
  request_lt : arenaBlockHeader + b.cap < 2 ^ 64

lemma ArenaBlock.Whole.span_inside {b : ArenaBlock} (h : b.Whole) : b.span.Inside b.memory := by
  obtain ⟨hle, -, hlt⟩ := h
  rw [Span.Inside, ArenaBlock.memory, Nat.mod_eq_of_lt hlt, ArenaBlock.span]
  constructor <;> simp only <;> omega

/-- The regions are packed into whole blocks. -/
structure ArenaUse.Good (u : ArenaUse) : Prop where
  packed : Packed (u.arena.blocks.map ArenaBlock.marked) (u.regions.map Region.span)
  whole : ∀ b ∈ u.arena.blocks, b.Whole
  aligned : ∀ r ∈ u.regions, r.align ∣ r.span.start
  blockSize_lt : arenaBlockHeader + u.arena.blockSize < 2 ^ 64

namespace ArenaUse

variable {u : ArenaUse}

lemma Good.sound (h : u.Good) : u.Sound where
  aligned := h.aligned
  inside r hr := by
    obtain ⟨b, hb, hrb⟩ := h.packed.exists_inside (List.mem_map_of_mem hr)
    obtain ⟨c, hc, rfl⟩ := List.mem_map.mp hb
    exact ⟨c, hc, hrb⟩
  disjoint := List.pairwise_map.mp h.packed.disjoint
  used_le b hb := h.packed.mark_le _ (List.mem_map_of_mem hb)

/-- An arena without regions, with one whole block. -/
lemma good_start {b : ArenaBlock} {blockSize : ℕ} (hb : b.Whole)
    (hsize : arenaBlockHeader + blockSize < 2 ^ 64) (hused : b.used = 0) :
    Good ⟨⟨b, [], blockSize⟩, []⟩ where
  packed := by
    have hsingle := Packed.single b.span
    rw [← hused] at hsingle
    exact hsingle
  whole c hc := by
    obtain rfl := List.mem_singleton.mp hc
    exact hb
  aligned r hr := absurd hr List.not_mem_nil
  blockSize_lt := hsize

/-- The alignments that are asked for divide 16. -/
lemma Proper.dvd (h : u.Proper size align answer) : align ∣ 16 := by
  have hall : ∀ n ∈ [1, 2, 4, 8, 16], n ∣ 16 := by decide
  exact hall align h.1

/-- Bytes behind the used ones are handed out. -/
lemma Good.take (h : u.Good) (hpos : 0 < align)
    (hroom : u.arena.head.used + (size + u.arena.pad align) ≤ u.arena.head.cap) :
    Good ⟨{ u.arena with
        head := { u.arena.head with used := u.arena.head.used + (size + u.arena.pad align) } },
      ⟨⟨u.arena.head.start + u.arena.head.used + u.arena.pad align, size⟩, align⟩ ::
        u.regions⟩ := by
  refine ⟨h.packed.take hroom, ?_, ?_, h.blockSize_lt⟩
  · intro b hb
    rcases List.mem_cons.mp hb with rfl | hb
    · obtain ⟨hle, hmod, hcap⟩ := h.whole u.arena.head List.mem_cons_self
      exact ⟨hle, hmod, hcap⟩
    · exact h.whole b (List.mem_cons_of_mem _ hb)
  · intro r hr
    rcases List.mem_cons.mp hr with rfl | hr
    · exact dvd_add_pad u.arena hpos
    · exact h.aligned r hr

/-- The front of a new block is handed out; the padding for the old one is charged to it. -/
lemma Good.fresh {addr bsize : ℕ} (h : u.Good) (hdvd : align ∣ 16) (haddr : 16 ∣ addr)
    (hrequest : arenaBlockHeader + bsize < 2 ^ 64)
    (hapart : ∀ s ∈ u.arena.blocks.map ArenaBlock.memory,
      Span.Apart ⟨addr, arenaBlockHeader + bsize⟩ s)
    (hsize : size + u.arena.pad align ≤ bsize) :
    Good ⟨{ u.arena with
        head := ⟨addr + arenaBlockHeader, bsize, size + u.arena.pad align⟩
        rest := u.arena.head :: u.arena.rest },
      ⟨⟨addr + arenaBlockHeader, size⟩, align⟩ :: u.regions⟩ := by
  have hwhole : ArenaBlock.Whole
      ⟨addr + arenaBlockHeader, bsize, size + u.arena.pad align⟩ :=
    ⟨Nat.le_add_left _ _, haddr.add (by decide), hrequest⟩
  have hinside := hwhole.span_inside
  rw [ArenaBlock.memory, Nat.mod_eq_of_lt hrequest, Nat.add_sub_cancel] at hinside
  refine ⟨h.packed.fresh ?_ (Nat.le_add_right size _) hsize, ?_, ?_, h.blockSize_lt⟩
  · intro b hb
    obtain ⟨c, hc, rfl⟩ := List.mem_map.mp hb
    exact (hapart c.memory (List.mem_map_of_mem hc)).mono hinside (h.whole c hc).span_inside
  · intro b hb
    rcases List.mem_cons.mp hb with rfl | hb
    · exact hwhole
    · exact h.whole b hb
  · intro r hr
    rcases List.mem_cons.mp hr with rfl | hr
    · exact hdvd.trans hwhole.aligned
    · exact h.aligned r hr

/-- **A call keeps the regions packed**, whichever way it takes. -/
lemma Good.record (h : u.Good) (hproper : u.Proper size align answer)
    (hfits : arenaBlockHeader + size + u.arena.pad align < 2 ^ 64) :
    (record u.regions size align (arenaAllocAlignedU64 answer u.arena size align)).Good := by
  have hdvd := hproper.dvd
  obtain ⟨-, hlt, hmalloc⟩ := hproper
  obtain ⟨hroom, heq⟩ | ⟨addr, haddr, heq⟩ | heq :=
    arenaAllocAlignedU64_cases answer hdvd hlt
  · rw [heq]
    exact h.take (Nat.pos_of_dvd_of_pos hdvd (by norm_num)) hroom
  · have hsize : size + u.arena.pad align ≤ u.arena.newSize (size + u.arena.pad align) := by
      rw [Arena.newSize]
      split_ifs <;> omega
    have hrequest : arenaBlockHeader + u.arena.newSize (size + u.arena.pad align) < 2 ^ 64 := by
      have := h.blockSize_lt
      rw [Arena.newSize]
      split_ifs <;> omega
    rw [Nat.mod_eq_of_lt hrequest] at haddr
    obtain ⟨hmod, hapart⟩ := hmalloc _ addr haddr
    rw [heq]
    exact h.fresh hdvd hmod hrequest hapart hsize
  · rw [heq]
    exact h

lemma record_origin (hproper : u.Proper size align answer) :
    (record u.regions size align
      (arenaAllocAlignedU64 answer u.arena size align)).arena.origin = u.arena.origin := by
  have horigin := arenaAllocAlignedU64_origin answer hproper.dvd hproper.2.1
  rw [← horigin]
  rcases arenaAllocAlignedU64 answer u.arena size align with ⟨_ | ptr, a⟩ <;> rfl

/-- The first block stays the first, whatever is called. -/
lemma step_origin {op : ArenaOp} (h : u.Asked op) : (u.step op).arena.origin = u.arena.origin := by
  cases op with
  | allocAligned size align answer => exact record_origin h
  | alloc size answer => exact record_origin h
  | reset => exact arenaReset_origin u.arena

end ArenaUse

lemma arenaCreateU64_eq_some {self block : ℕ → Option ℕ} {blockSize : ℕ} {arena : Arena}
    (h : arenaCreateU64 self block blockSize = some arena) :
    ∃ addr ∈ block ((arenaBlockHeader + blockSize) % 2 ^ 64),
      arena = arenaCreate blockSize addr := by
  obtain ⟨-, -, h⟩ := Option.bind_eq_some_iff.mp h
  obtain ⟨head, hhead, rfl⟩ := Option.map_eq_some_iff.mp h
  obtain ⟨addr, haddr, rfl⟩ := Option.map_eq_some_iff.mp hhead
  exact ⟨addr, haddr, rfl⟩

lemma whole_blockCreate {blockSize addr : ℕ} (haddr : 16 ∣ addr)
    (hsize : arenaBlockHeader + blockSize < 2 ^ 64) : (blockCreate blockSize addr).Whole :=
  ⟨Nat.le_add_left _ _, haddr.add (by decide), hsize⟩

lemma ArenaUse.Good.step {u : ArenaUse} {op : ArenaOp} {blockSize addr : ℕ} (haddr : 16 ∣ addr)
    (h : u.Good) (horigin : u.arena.origin = (arenaCreate blockSize addr).origin)
    (hasked : u.Asked op) (hfits : u.HeaderFits op) : (u.step op).Good := by
  cases op with
  | allocAligned size align answer => exact h.record hasked hfits
  | alloc size answer => exact h.record hasked hfits
  | reset =>
    have hsize : u.arena.blockSize = blockSize := congrArg (·.2.2) horigin
    have hlt := h.blockSize_lt
    rw [hsize] at hlt
    rw [ArenaUse.step, arenaReset_eq horigin]
    exact good_start (whole_blockCreate haddr hlt) hlt rfl

/-- **Regions are aligned, inside a block and apart**, after every run in which no request for a
block wraps; and a reset leaves the first block alone, empty. -/
theorem arena_run (self block : ℕ → Option ℕ) (blockSize : ℕ) (arena : Arena) (ops : List ArenaOp)
    (hblock : FairMalloc [] block) (hcreate : arenaCreateU64 self block blockSize = some arena)
    (hops : Along ArenaUse.step ArenaUse.Asked ⟨arena, []⟩ ops) :
    (arenaReset (run ArenaUse.step ⟨arena, []⟩ ops).arena).blocks
        = [⟨arena.head.start, blockSize, 0⟩] ∧
      (arenaBlockHeader + blockSize < 2 ^ 64 →
        Along ArenaUse.step ArenaUse.HeaderFits ⟨arena, []⟩ ops →
        (run ArenaUse.step ⟨arena, []⟩ ops).Sound) := by
  obtain ⟨addr, haddr, rfl⟩ := arenaCreateU64_eq_some hcreate
  obtain ⟨hmod, -⟩ := hblock _ addr haddr
  have horigin (u : ArenaUse) (op : ArenaOp)
      (hu : u.arena.origin = (arenaCreate blockSize addr).origin) (hop : u.Asked op) :
      (u.step op).arena.origin = (arenaCreate blockSize addr).origin :=
    (ArenaUse.step_origin hop).trans hu
  constructor
  · have hend := hops.invariant horigin rfl
    rw [arenaReset_eq hend]
    rfl
  · intro hsize hfits
    -- the origin goes along, for the resets
    have hgood := (hops.and hfits).invariant
      (P := fun u => u.Good ∧ u.arena.origin = (arenaCreate blockSize addr).origin)
      (fun u op hu hop => ⟨hu.1.step hmod hu.2 hop.1 hop.2, horigin u op hu.2 hop.1⟩)
      ⟨ArenaUse.good_start (whole_blockCreate hmod hsize) hsize rfl, rfl⟩
    exact hgood.1.sound

/-! ### Two runs -/

/-- A `malloc` that gives up to `limit` bytes at one address. -/
def answerAt (addr limit n : ℕ) : Option ℕ := if n ≤ limit then some addr else none

lemma fairMalloc_answerAt {live : List Span} {addr limit : ℕ} (haddr : 16 ∣ addr)
    (h : ∀ s ∈ live, Span.Apart ⟨addr, limit⟩ s) : FairMalloc live (answerAt addr limit) := by
  intro n addr' haddr'
  obtain ⟨hn, heq⟩ := Option.ite_none_right_eq_some.mp haddr'
  obtain rfl := Option.some.inj heq
  refine ⟨haddr, fun s hs => (h s hs).mono ⟨le_rfl, ?_⟩ ⟨le_rfl, le_rfl⟩⟩
  exact Nat.add_le_add_left hn _

/-- An arena with blocks of 64 bytes, the first of them at 4128. -/
def smallArena : Arena := arenaCreate 64 4096

/-- Two regions of the first block, one of a block of its own, and one more after a reset. -/
def fourCalls : List ArenaOp :=
  [.alloc 8 (answerAt 8192 256), .allocAligned 5 16 (answerAt 8192 256),
    .alloc 100 (answerAt 8192 256), .reset, .alloc 24 (answerAt 8192 256)]

/-- The first three regions lie apart, each at its alignment, the large one in a block of its own.
After the reset the regions are sound again. -/
theorem arena_run_fourCalls :
    arenaCreateU64 (answerAt 512 16) (answerAt 4096 128) 64 = some smallArena ∧
      (run ArenaUse.step ⟨smallArena, []⟩ (fourCalls.take 3)).regions =
        [⟨⟨8224, 100⟩, 8⟩, ⟨⟨4144, 5⟩, 16⟩, ⟨⟨4128, 8⟩, 8⟩] ∧
      (run ArenaUse.step ⟨smallArena, []⟩ fourCalls).Sound := by
  refine ⟨by decide +kernel, by decide +kernel, ?_⟩
  refine (arena_run (answerAt 512 16) (answerAt 4096 128) 64 smallArena fourCalls
    (fairMalloc_answerAt (by decide) (by decide)) (by decide +kernel) ?_).2 (by decide) ?_
  · exact ⟨⟨by decide, by decide +kernel, fairMalloc_answerAt (by decide) (by decide +kernel)⟩,
      ⟨by decide, by decide +kernel, fairMalloc_answerAt (by decide) (by decide +kernel)⟩,
      ⟨by decide, by decide +kernel, fairMalloc_answerAt (by decide) (by decide +kernel)⟩, trivial,
      ⟨by decide, by decide +kernel, fairMalloc_answerAt (by decide) (by decide +kernel)⟩, trivial⟩
  · refine ⟨?_, ?_, ?_, trivial, ?_, trivial⟩ <;>
      (show _ < _; decide +kernel)

/-- **A size for which the request wraps**: `malloc` is asked for 8 bytes, and the region that is
handed out runs over the whole memory, and so over the one before. -/
theorem exists_overlap : ∃ ops : List ArenaOp,
    arenaCreateU64 (answerAt 512 16) (answerAt 4096 128) 64 = some smallArena ∧
      Along ArenaUse.step ArenaUse.Asked ⟨smallArena, []⟩ ops ∧
      (run ArenaUse.step ⟨smallArena, []⟩ ops).regions =
        [⟨⟨1056, 2 ^ 64 - 24⟩, 8⟩, ⟨⟨4128, 8⟩, 8⟩] ∧
      (run ArenaUse.step ⟨smallArena, []⟩ ops).arena.head.memory = ⟨1024, 8⟩ ∧
      ¬(run ArenaUse.step ⟨smallArena, []⟩ ops).Sound := by
  refine ⟨[.alloc 8 (answerAt 1024 8), .alloc (2 ^ 64 - 24) (answerAt 1024 8)],
    by decide +kernel, ?_, by decide +kernel, by decide +kernel, ?_⟩
  · exact ⟨⟨by decide, by decide +kernel, fairMalloc_answerAt (by decide) (by decide +kernel)⟩,
      ⟨by decide, by decide +kernel, fairMalloc_answerAt (by decide) (by decide +kernel)⟩, trivial⟩
  · intro hsound
    have hpair := hsound.disjoint
    revert hpair
    decide +kernel

end Nproxy
