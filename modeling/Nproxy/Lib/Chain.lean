import Mathlib.Tactic

/-!
Singly linked lists in a heap: a head pointer, and a next pointer in every cell.

`IsChain next h l` says that the list that starts at `h` runs through the cells
`l` and ends. Pushing a cell that is not on the list and popping the first one
are the two operations; both keep the rest of the list, since it never looks at
the cell that changed.
-/

namespace Chain

variable {α : Type*}

/-- The pointers from `h` on lead through `l` and then to null. -/
def IsChain (next : α → Option α) : Option α → List α → Prop
  | h, [] => h = none
  | h, a :: l => h = some a ∧ IsChain next (next a) l

variable {next next' : α → Option α} {h : Option α} {a : α} {l : List α}

@[simp] lemma isChain_nil : IsChain next h [] ↔ h = none := Iff.rfl

@[simp] lemma isChain_cons : IsChain next h (a :: l) ↔ h = some a ∧ IsChain next (next a) l :=
  Iff.rfl

/-- Only the cells on the list matter. -/
lemma IsChain.congr (hn : ∀ b ∈ l, next' b = next b) (hc : IsChain next h l) :
    IsChain next' h l := by
  induction l generalizing h with
  | nil => exact hc
  | cons b l ih =>
    refine ⟨hc.1, ?_⟩
    rw [hn b (by simp)]
    exact ih (fun d hd => hn d (by simp [hd])) hc.2

/-- Pushing a cell whose change leaves those on the list alone. -/
lemma IsChain.push (hc : IsChain next h l) (hnext : next' a = h)
    (hn : ∀ b ∈ l, next' b = next b) : IsChain next' (some a) (a :: l) := by
  refine ⟨rfl, ?_⟩
  rw [hnext]
  exact hc.congr hn

lemma IsChain.pop (hc : IsChain next (some a) l) :
    ∃ l', l = a :: l' ∧ IsChain next (next a) l' := by
  cases l with
  | nil => simp at hc
  | cons b l =>
    obtain ⟨hb, hc⟩ := hc
    obtain rfl := Option.some.inj hb
    exact ⟨l, rfl, hc⟩

lemma IsChain.eq_nil (hc : IsChain next none l) : l = [] := by
  cases l with
  | nil => rfl
  | cons b l => simp at hc

lemma IsChain.unique {l' : List α} (hl : IsChain next h l) (hl' : IsChain next h l') :
    l = l' := by
  induction l generalizing h l' with
  | nil =>
    rw [isChain_nil] at hl
    subst hl
    exact hl'.eq_nil.symm
  | cons b l ih =>
    obtain ⟨rfl, hl⟩ := hl
    obtain ⟨t, rfl, ht⟩ := hl'.pop
    rw [ih hl ht]

end Chain
