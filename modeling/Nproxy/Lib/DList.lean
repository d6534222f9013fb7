import Nproxy.Lib.Chain

/-!
Doubly linked lists in a heap: a next pointer and a previous pointer in every cell.

`IsDList next prev before head l` says that the list that starts at `head` runs through the
cells `l`, and that every cell points back to the one in front of it; in front of the first
is `before`. Along the next pointers it is a chain (`IsDList.isChain`), so no cell comes twice
(`Chain.IsChain.nodup`), and the two pointers are inverse to each other
(`IsDList.of_next`, `IsDList.of_prev`).

The operations are stated by what they leave in the pointers of the cells on the list:
`IsDList.relink` hangs a list behind another cell, `IsDList.push` puts a cell in front, and
`IsDList.erase` takes a cell out by having its two neighbours point past it.
-/

namespace Chain

variable {α : Type*} {next : α → Option α} {h : Option α} {a : α} {l l' : List α}

/-- Every cell on a list starts a list, the rest of it. -/
lemma IsChain.suffix {t : List α} (hl : IsChain next h (l ++ a :: t)) :
    IsChain next (next a) t := by
  induction l generalizing h with
  | nil => exact hl.2
  | cons b l ih => exact ih hl.2

/-- **No cell comes twice**: what is behind it would be behind itself. -/
lemma IsChain.nodup (hl : IsChain next h l) : l.Nodup := by
  induction l generalizing h with
  | nil => exact List.nodup_nil
  | cons b l ih =>
    refine List.nodup_cons.mpr ⟨fun hb => ?_, ih hl.2⟩
    obtain ⟨s, t, rfl⟩ := List.append_of_mem hb
    have hlen := congrArg List.length (hl.2.unique hl.2.suffix)
    simp only [List.length_append, List.length_cons] at hlen
    omega

lemma IsChain.next_ne_self (hl : IsChain next h l) (ha : a ∈ l) : next a ≠ some a := by
  intro hself
  obtain ⟨s, t, rfl⟩ := List.append_of_mem ha
  have hrest := hl.suffix
  rw [hself] at hrest
  obtain ⟨t', rfl, -⟩ := hrest.pop
  have hnodup := hl.nodup
  rw [List.nodup_append] at hnodup
  simp at hnodup

end Chain

namespace DList

open Chain

variable {α : Type*}

/-- From `head` on the next pointers lead through `l` and then to null, and the previous
pointers lead back, from the first cell to `before`. -/
def IsDList (next prev : α → Option α) : Option α → Option α → List α → Prop
  | _, head, [] => head = none
  | before, head, a :: l => head = some a ∧ prev a = before ∧ IsDList next prev (some a) (next a) l

variable {next prev next' prev' : α → Option α} {before before' head : Option α} {a b : α}
  {l : List α}

lemma IsDList.isChain (hl : IsDList next prev before head l) : IsChain next head l := by
  induction l generalizing before head with
  | nil => exact hl
  | cons c l ih => exact ⟨hl.1, ih hl.2.2⟩

lemma IsDList.nodup (hl : IsDList next prev before head l) : l.Nodup := hl.isChain.nodup

/-- The first cell of a list points back to what is in front. -/
lemma IsDList.first (hl : IsDList next prev before (some a) l) : a ∈ l ∧ prev a = before := by
  cases l with
  | nil => cases (show some a = none from hl)
  | cons c l =>
    obtain ⟨hc, hprev, -⟩ := hl
    obtain rfl := Option.some.inj hc
    exact ⟨by simp, hprev⟩

/-- The next pointer of a cell leads to one that points back. -/
lemma IsDList.of_next (hl : IsDList next prev before head l) (ha : a ∈ l)
    (hab : next a = some b) : b ∈ l ∧ prev b = some a := by
  induction l generalizing before head with
  | nil => cases ha
  | cons c l ih =>
    rcases List.mem_cons.mp ha with rfl | ha
    · have hrest := hl.2.2
      rw [hab] at hrest
      exact ⟨List.mem_cons_of_mem a hrest.first.1, hrest.first.2⟩
    · obtain ⟨hb, hprev⟩ := ih hl.2.2 ha
      exact ⟨List.mem_cons_of_mem c hb, hprev⟩

/-- The previous pointer of a cell leads to one that points on to it, or out of the list. -/
lemma IsDList.of_prev (hl : IsDList next prev before head l) (hb : b ∈ l) :
    (head = some b ∧ prev b = before) ∨ ∃ a ∈ l, prev b = some a ∧ next a = some b := by
  induction l generalizing before head with
  | nil => cases hb
  | cons c l ih =>
    obtain ⟨hc, hprev, hrest⟩ := hl
    rcases List.mem_cons.mp hb with rfl | hb
    · exact Or.inl ⟨hc, hprev⟩
    · rcases ih hrest hb with ⟨hnext, hback⟩ | ⟨a, ha, hback, hnext⟩
      · exact Or.inr ⟨c, by simp, hback, hnext⟩
      · exact Or.inr ⟨a, List.mem_cons_of_mem c ha, hback, hnext⟩

/-- The first cell is the one that points back to null. -/
lemma IsDList.head_eq_some_iff (hl : IsDList next prev none head l) (ha : a ∈ l) :
    head = some a ↔ prev a = none := by
  constructor
  · rintro rfl
    exact hl.first.2
  · intro hnone
    rcases hl.of_prev ha with ⟨hhead, -⟩ | ⟨b, -, hprev, -⟩
    · exact hhead
    · simp [hnone] at hprev

/-- **Hanging a list behind another cell**: only the first cell has to know. -/
lemma IsDList.relink (hl : IsDList next prev before head l) (hnext : ∀ b ∈ l, next' b = next b)
    (hhead : ∀ b, head = some b → prev' b = before')
    (hprev : ∀ b ∈ l, head ≠ some b → prev' b = prev b) : IsDList next' prev' before' head l := by
  induction l generalizing before before' head with
  | nil => exact hl
  | cons c l ih =>
    have hnodup := hl.nodup
    obtain ⟨rfl, hc, hrest⟩ := hl
    refine ⟨rfl, hhead c rfl, ?_⟩
    rw [hnext c (by simp)]
    have hrest' : ∀ b ∈ l, prev' b = prev b := by
      intro b hb
      refine hprev b (List.mem_cons_of_mem c hb) fun hcb => ?_
      obtain rfl := Option.some.inj hcb
      exact (List.nodup_cons.mp hnodup).1 hb
    refine ih hrest (fun b hb => hnext b (List.mem_cons_of_mem c hb)) (fun b hb => ?_)
      fun b hb _ => hrest' b hb
    rw [hb] at hrest
    rw [hrest' b hrest.first.1]
    exact hrest.first.2

/-- Only the cells on the list matter. -/
lemma IsDList.congr (hl : IsDList next prev before head l) (hnext : ∀ b ∈ l, next' b = next b)
    (hprev : ∀ b ∈ l, prev' b = prev b) : IsDList next' prev' before head l := by
  induction l generalizing before head with
  | nil => exact hl
  | cons c l ih =>
    refine ⟨hl.1, (hprev c (by simp)).trans hl.2.1, ?_⟩
    rw [hnext c (by simp)]
    exact ih hl.2.2 (fun b hb => hnext b (List.mem_cons_of_mem c hb))
      fun b hb => hprev b (List.mem_cons_of_mem c hb)

/-- **Putting a cell in front.** -/
lemma IsDList.push (hl : IsDList next prev none head l) (hnexta : next' a = head)
    (hpreva : prev' a = none) (hnext : ∀ b ∈ l, next' b = next b)
    (hhead : ∀ b, head = some b → prev' b = some a)
    (hprev : ∀ b ∈ l, head ≠ some b → prev' b = prev b) :
    IsDList next' prev' none (some a) (a :: l) := by
  refine ⟨rfl, hpreva, ?_⟩
  rw [hnexta]
  exact hl.relink hnext hhead hprev

/-- **Taking a cell out**: the cell in front of it points past it, and so does the one behind. -/
lemma IsDList.erase [DecidableEq α] (hl : IsDList next prev before head l)
    (hbefore : ∀ b ∈ l, before ≠ some b) (ha : a ∈ l)
    (hnext : ∀ b ∈ l, b ≠ a → next' b = if prev a = some b then next a else next b)
    (hprev : ∀ b ∈ l, b ≠ a → prev' b = if next a = some b then prev a else prev b) :
    IsDList next' prev' before (if head = some a then next a else head) (l.erase a) := by
  induction l generalizing before head with
  | nil => cases ha
  | cons c l ih =>
    have hcl := (List.nodup_cons.mp hl.nodup).1
    by_cases hca : c = a
    · -- the rest now hangs behind what was in front of the cell
      subst hca
      obtain ⟨rfl, hc, hrest⟩ := hl
      have hne : ∀ b ∈ l, b ≠ c := fun b hb hbc => hcl (hbc ▸ hb)
      rw [if_pos rfl, List.erase_cons_head]
      refine hrest.relink (fun b hb => ?_) (fun b hb => ?_) fun b hb hbc => ?_
      · rw [hnext b (List.mem_cons_of_mem c hb) (hne b hb), hc,
          if_neg (hbefore b (List.mem_cons_of_mem c hb))]
      · have hmem : b ∈ l := (hb ▸ hrest).first.1
        rw [hprev b (List.mem_cons_of_mem c hmem) (hne b hmem), if_pos hb, hc]
      · rw [hprev b (List.mem_cons_of_mem c hb) (hne b hb), if_neg hbc]
    · -- the first cell stays, unless the second is the one to go
      have hal : a ∈ l := (List.mem_cons.mp ha).resolve_left fun h => hca h.symm
      have hback := hl.of_prev ha
      have hfwd := fun hac : next a = some c => (hl.2.2.of_next hal hac).1
      obtain ⟨rfl, hc, hrest⟩ := hl
      rw [if_neg (fun h => hca (Option.some.inj h)), List.erase_cons_tail (by simpa using hca)]
      refine ⟨rfl, ?_, ?_⟩
      · rw [hprev c (by simp) hca, if_neg fun h => hcl (hfwd h), hc]
      · have hprevc : prev a = some c ↔ next c = some a := by
          constructor
          · intro hac
            rcases hback with ⟨hhead, -⟩ | ⟨d, -, hda, hd⟩
            · exact absurd (Option.some.inj hhead) hca
            · obtain rfl := Option.some.inj (hac.symm.trans hda)
              exact hd
          · intro hca'
            exact (hca' ▸ hrest).first.2
        rw [hnext c (by simp) hca]
        simp only [hprevc]
        exact ih hrest (fun b hb hbc => hcl (Option.some.inj hbc ▸ hb)) hal
          (fun b hb => hnext b (List.mem_cons_of_mem c hb))
          fun b hb => hprev b (List.mem_cons_of_mem c hb)

end DList
