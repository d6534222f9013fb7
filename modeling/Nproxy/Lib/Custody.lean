import Mathlib.Tactic

/-!
Things that are obtained, handed out, put aside for reuse and closed for good.

A thing may be obtained again after it was closed, as the number of a closed descriptor may.

* `Custody.move`: what can happen to the things; the one put aside last is reused first.
* `Custody.Sound`: what was obtained is in one place.
* `Sound.move`: if nothing is obtained that is held already, and nothing is given back that is
  not out, it stays so.
-/

/-- What is put aside, what is out, what was closed, and all that was ever obtained. -/
structure Custody (α : Type*) where
  idle : List α
  handed : List α
  closed : Finset α
  obtained : Finset α

namespace Custody

variable {α : Type*}

open scoped List

/-- What can happen to things that are lent out and kept idle in between. -/
inductive Move (α : Type*) where
  | reuse
  | obtain (a : α)
  | keep (a : α)
  | close (a : α)

/-- What is not closed. -/
def held (c : Custody α) : List α := c.idle ++ c.handed

variable [DecidableEq α]

/-- The things after a move. -/
def move (c : Custody α) : Move α → Custody α
  | .reuse =>
    match c.idle.getLast? with
    | none => c
    | some a => { c with idle := c.idle.dropLast, handed := a :: c.handed }
  | .obtain a =>
    { c with
      handed := a :: c.handed
      closed := c.closed.erase a
      obtained := insert a c.obtained }
  | .keep a => { c with idle := c.idle ++ [a], handed := c.handed.erase a }
  | .close a => { c with handed := c.handed.erase a, closed := insert a c.closed }

/-- Nothing is obtained that is held, and only what is out is given back. -/
def Fair (c : Custody α) : Move α → Prop
  | .reuse => True
  | .obtain a => a ∉ c.held
  | .keep a | .close a => a ∈ c.handed

omit [DecidableEq α] in
/-- What was obtained is held once or closed, and not both. -/
structure Sound (c : Custody α) : Prop where
  nodup : c.held.Nodup
  closed : ∀ a ∈ c.closed, a ∉ c.held
  obtained : ∀ a, a ∈ c.obtained ↔ a ∈ c.held ∨ a ∈ c.closed

/-- Exactly one of three. -/
def ExactlyOne (p q r : Prop) : Prop := p ∧ ¬q ∧ ¬r ∨ ¬p ∧ q ∧ ¬r ∨ ¬p ∧ ¬q ∧ r

variable {c : Custody α} {a : α}

omit [DecidableEq α] in
/-- **What was obtained is in one place.** -/
lemma Sound.exactlyOne (h : c.Sound) (ha : a ∈ c.obtained) :
    ExactlyOne (a ∈ c.idle) (a ∈ c.handed) (a ∈ c.closed) := by
  have hdisjoint := List.disjoint_of_nodup_append h.nodup
  have hheld : a ∈ c.held ↔ a ∈ c.idle ∨ a ∈ c.handed := List.mem_append
  rcases (h.obtained a).mp ha with hmem | hclosed
  · have hopen : a ∉ c.closed := fun hc => h.closed a hc hmem
    rcases hheld.mp hmem with hidle | hhanded
    · exact .inl ⟨hidle, fun hh => hdisjoint hidle hh, hopen⟩
    · exact .inr (.inl ⟨fun hi => hdisjoint hi hhanded, hhanded, hopen⟩)
  · have hnot := h.closed a hclosed
    rw [hheld, not_or] at hnot
    exact .inr (.inr ⟨hnot.1, hnot.2, hclosed⟩)

/-! ### What is held after a move -/

lemma held_reuse (c : Custody α) : (c.move .reuse).held ~ c.held := by
  rw [move]
  cases hlast : c.idle.getLast? with
  | none => exact List.Perm.refl _
  | some a =>
    have hidle : c.idle.dropLast ++ [a] = c.idle := List.dropLast_append_getLast? a hlast
    have hheld : c.idle.dropLast ++ a :: c.handed = c.held := by
      rw [List.append_cons, hidle, held]
    exact .of_eq hheld

lemma held_obtain (c : Custody α) (a : α) : (c.move (.obtain a)).held ~ a :: c.held :=
  List.perm_middle

lemma held_keep (ha : a ∈ c.handed) : (c.move (.keep a)).held ~ c.held := by
  calc c.idle ++ [a] ++ c.handed.erase a = c.idle ++ a :: c.handed.erase a := by simp
    _ ~ c.held := (List.perm_cons_erase ha).symm.append_left c.idle

lemma held_close (ha : a ∈ c.handed) : a :: (c.move (.close a)).held ~ c.held := by
  calc a :: (c.idle ++ c.handed.erase a) ~ c.idle ++ a :: c.handed.erase a :=
        List.perm_middle.symm
    _ ~ c.held := (List.perm_cons_erase ha).symm.append_left c.idle

omit [DecidableEq α] in
/-- A move that changes nothing but the place. -/
lemma Sound.of_perm {c' : Custody α} (h : c.Sound) (hperm : c'.held ~ c.held)
    (hclosed : c'.closed = c.closed) (hobtained : c'.obtained = c.obtained) : c'.Sound := by
  refine ⟨hperm.nodup_iff.mpr h.nodup, fun a ha => ?_, fun a => ?_⟩
  · rw [hperm.mem_iff]
    exact h.closed a (hclosed ▸ ha)
  · rw [hobtained, hperm.mem_iff, hclosed]
    exact h.obtained a

/-- **A fair move keeps everything in one place.** -/
lemma Sound.move (h : c.Sound) {m : Move α} (hm : c.Fair m) : (c.move m).Sound := by
  cases m with
  | reuse =>
    refine h.of_perm c.held_reuse ?_ ?_ <;>
      · rw [Custody.move]
        split <;> rfl
  | keep a => exact h.of_perm (held_keep hm) rfl rfl
  | obtain a =>
    have hperm := c.held_obtain a
    refine ⟨hperm.nodup_iff.mpr (List.nodup_cons.mpr ⟨hm, h.nodup⟩), fun b hb => ?_, fun b => ?_⟩
    · obtain ⟨hne, hb⟩ := Finset.mem_erase.mp hb
      rw [hperm.mem_iff, List.mem_cons, not_or]
      exact ⟨hne, h.closed b hb⟩
    · rw [hperm.mem_iff, List.mem_cons]
      change b ∈ insert a c.obtained ↔ (b = a ∨ b ∈ c.held) ∨ b ∈ c.closed.erase a
      rw [Finset.mem_insert, Finset.mem_erase, h.obtained]
      by_cases hb : b = a <;> simp [hb]
  | close a =>
    have hperm := held_close hm
    have hnodup := List.nodup_cons.mp (hperm.nodup_iff.mpr h.nodup)
    refine ⟨hnodup.2, fun b hb => ?_, fun b => ?_⟩
    · rcases Finset.mem_insert.mp hb with rfl | hb
      · exact hnodup.1
      · exact fun hmem => h.closed b hb (hperm.mem_iff.mp (List.mem_cons_of_mem a hmem))
    · change b ∈ c.obtained ↔ b ∈ (c.move (.close a)).held ∨ b ∈ insert a c.closed
      rw [h.obtained, ← hperm.mem_iff, List.mem_cons, Finset.mem_insert]
      by_cases hb : b = a <;> simp [hb]

end Custody
