import Mathlib

/-!
Memory that is taken from blocks front to back.

* `Span`: the addresses `start, …, start + length - 1`. Two spans are `Apart` if they share no
  address.
* `Packed blocks regions`: the blocks are apart and filled up to a mark, and the regions that were
  taken are apart, each below the mark of one block.
* `Packed.take`, `Packed.fresh`: a region is taken behind the mark of the first block, or at the
  start of a new one.
-/

namespace Bump

/-- The addresses from `start` on, `length` of them. -/
structure Span where
  start : ℕ
  length : ℕ
  deriving DecidableEq, Repr

namespace Span

/-- The addresses of a span. -/
def addresses (s : Span) : Set ℕ := Set.Ico s.start (s.start + s.length)

/-- One span lies in another one. -/
def Inside (r s : Span) : Prop := s.start ≤ r.start ∧ r.start + r.length ≤ s.start + s.length

/-- Two spans share no address. -/
def Apart (r s : Span) : Prop := Disjoint r.addresses s.addresses

variable {r s t : Span}

lemma apart_iff :
    r.Apart s ↔ min (r.start + r.length) (s.start + s.length) ≤ max r.start s.start :=
  Set.Ico_disjoint_Ico

instance (r s : Span) : Decidable (r.Apart s) := decidable_of_iff _ apart_iff.symm

lemma Apart.symm (h : r.Apart s) : s.Apart r := Disjoint.symm h

lemma Inside.addresses_subset (h : r.Inside s) : r.addresses ⊆ s.addresses :=
  Set.Ico_subset_Ico h.1 h.2

lemma Inside.trans (h : r.Inside s) (h' : s.Inside t) : r.Inside t :=
  ⟨h'.1.trans h.1, h.2.trans h'.2⟩

/-- Parts of spans that are apart are apart. -/
lemma Apart.mono {r' s' : Span} (h : r.Apart s) (hr : r'.Inside r) (hs : s'.Inside s) :
    r'.Apart s' :=
  Disjoint.mono hr.addresses_subset hs.addresses_subset h

lemma apart_of_le (h : r.start + r.length ≤ s.start) : r.Apart s :=
  apart_iff.mpr ((min_le_left _ _).trans (h.trans (le_max_right _ _)))

end Span

/-- A block, with the mark up to which it is filled. -/
structure Block where
  span : Span
  mark : ℕ

/-- What is filled of a block. -/
def Block.filled (b : Block) : Span := ⟨b.span.start, b.mark⟩

/-- The regions that were taken lie in the filled parts of the blocks, and are apart. -/
structure Packed (blocks : List Block) (regions : List Span) : Prop where
  mark_le : ∀ b ∈ blocks, b.mark ≤ b.span.length
  apart : blocks.Pairwise fun b c => b.span.Apart c.span
  inside : ∀ r ∈ regions, ∃ b ∈ blocks, r.Inside b.filled
  disjoint : regions.Pairwise Span.Apart

namespace Packed

variable {blocks : List Block} {regions : List Span}

lemma filled_inside {b : Block} (h : b.mark ≤ b.span.length) : b.filled.Inside b.span :=
  ⟨le_rfl, Nat.add_le_add_left h _⟩

lemma exists_inside (h : Packed blocks regions) {r : Span} (hr : r ∈ regions) :
    ∃ b ∈ blocks, r.Inside b.span := by
  obtain ⟨b, hb, hrb⟩ := h.inside r hr
  exact ⟨b, hb, hrb.trans (filled_inside (h.mark_le b hb))⟩

lemma single (s : Span) : Packed [⟨s, 0⟩] [] where
  mark_le b hb := by
    obtain rfl := List.mem_singleton.mp hb
    exact Nat.zero_le _
  apart := List.pairwise_singleton _ _
  inside r hr := absurd hr List.not_mem_nil
  disjoint := List.Pairwise.nil

/-- A region behind the mark of the first block, `pad` further on. -/
lemma take {s : Span} {mark : ℕ} (h : Packed (⟨s, mark⟩ :: blocks) regions) {size pad : ℕ}
    (hfits : mark + (size + pad) ≤ s.length) :
    Packed (⟨s, mark + (size + pad)⟩ :: blocks) (⟨s.start + mark + pad, size⟩ :: regions) where
  mark_le b hb := by
    rcases List.mem_cons.mp hb with rfl | hb
    · exact hfits
    · exact h.mark_le b (List.mem_cons_of_mem _ hb)
  apart := List.pairwise_cons.mpr (List.pairwise_cons.mp h.apart)
  inside r hr := by
    rcases List.mem_cons.mp hr with rfl | hr
    · refine ⟨_, List.mem_cons_self, ?_, ?_⟩ <;> simp only [Block.filled] <;> omega
    · obtain ⟨b, hb, hrb⟩ := h.inside r hr
      rcases List.mem_cons.mp hb with rfl | hb
      · refine ⟨_, List.mem_cons_self, hrb.1, hrb.2.trans ?_⟩
        simp only [Block.filled]
        omega
      · exact ⟨b, List.mem_cons_of_mem _ hb, hrb⟩
  disjoint := by
    refine List.pairwise_cons.mpr ⟨fun r hr => ?_, h.disjoint⟩
    obtain ⟨b, hb, hrb⟩ := h.inside r hr
    rcases List.mem_cons.mp hb with rfl | hb
    -- in the first block the older regions end at the mark
    · exact (Span.apart_of_le (hrb.2.trans (Nat.le_add_right _ pad))).symm
    · have hblocks : s.Apart b.span := (List.pairwise_cons.mp h.apart).1 b hb
      refine hblocks.mono ⟨?_, ?_⟩
        (hrb.trans (filled_inside (h.mark_le b (List.mem_cons_of_mem _ hb))))
      all_goals simp only; omega

lemma fresh (h : Packed blocks regions) {s : Span} (hs : ∀ b ∈ blocks, s.Apart b.span)
    {size mark : ℕ} (hsize : size ≤ mark) (hmark : mark ≤ s.length) :
    Packed (⟨s, mark⟩ :: blocks) (⟨s.start, size⟩ :: regions) where
  mark_le b hb := by
    rcases List.mem_cons.mp hb with rfl | hb
    · exact hmark
    · exact h.mark_le b hb
  apart := List.pairwise_cons.mpr ⟨hs, h.apart⟩
  inside r hr := by
    rcases List.mem_cons.mp hr with rfl | hr
    · exact ⟨_, List.mem_cons_self, le_rfl, Nat.add_le_add_left hsize _⟩
    · obtain ⟨b, hb, hrb⟩ := h.inside r hr
      exact ⟨b, List.mem_cons_of_mem _ hb, hrb⟩
  disjoint := by
    refine List.pairwise_cons.mpr ⟨fun r hr => ?_, h.disjoint⟩
    obtain ⟨b, hb, hrb⟩ := h.exists_inside hr
    exact (hs b hb).mono ⟨le_rfl, Nat.add_le_add_left (hsize.trans hmark) _⟩ hrb

end Packed

end Bump
