import Mathlib.Tactic

/-!
Who holds what, and a count of the holders.

Every user holds a thing or nothing, and finitely many hold something. `Balanced load s` says
that a count kept by hand is the number of holders. When one user changes and the count is
raised for what it has taken, the count stays right in two cases only: the user keeps what it
has and nothing is taken, or it had nothing and now has what was taken (`Balanced.update_iff`).
A count that is never lowered does not survive a user that lets go.
-/

namespace Tally

variable {α K : Type*}

/-- The number of users that hold `k`. -/
noncomputable def holders (s : α → Option K) (k : K) : ℕ := {a | s a = some k}.ncard

/-- Finitely many users hold something. -/
def Finitary (s : α → Option K) : Prop := {a | s a ≠ none}.Finite

/-- The count is the number of holders. -/
def Balanced (load : K → ℤ) (s : α → Option K) : Prop := ∀ k, load k = holders s k

variable {s : α → Option K} {a : α} {v : Option K}

lemma Finitary.holders (hs : Finitary s) (k : K) : {a | s a = some k}.Finite :=
  hs.subset fun a ha hnone => by simp [hnone] at ha

lemma finitary_none : Finitary (fun _ : α => (none : Option K)) := by
  simp [Finitary]

variable [DecidableEq α]

lemma Finitary.update (hs : Finitary s) (a : α) (v : Option K) :
    Finitary (Function.update s a v) := by
  refine (hs.insert a).subset fun b hb => ?_
  by_cases hba : b = a
  · exact Or.inl hba
  · right
    simpa [Function.update_of_ne hba] using hb

lemma setOf_update_none (k : K) :
    {b | Function.update s a none b = some k} = {b | s b = some k} \ {a} := by
  ext b
  by_cases hba : b = a
  · subst hba
    simp
  · simp [hba]

lemma holders_update_none_le (hs : Finitary s) (k : K) :
    holders (Function.update s a none) k ≤ holders s k := by
  rw [holders, setOf_update_none, holders]
  exact Set.ncard_le_ncard Set.sdiff_subset (hs.holders k)

variable [DecidableEq K]

/-- One for what is held, and zero for everything else. -/
def one (o : Option K) (k : K) : ℤ := if o = some k then 1 else 0

@[simp] lemma one_none (k : K) : one none k = 0 := if_neg (by simp)

@[simp] lemma one_some_self (k : K) : one (some k) k = 1 := if_pos rfl

lemma one_eq_one_iff {o : Option K} {k : K} : one o k = 1 ↔ o = some k := by
  rw [one]
  split <;> simp_all

lemma holders_update (hs : Finitary s) (a : α) (v : Option K) (k : K) :
    (holders (Function.update s a v) k : ℤ) = holders s k - one (s a) k + one v k := by
  have hlet : (holders (Function.update s a none) k : ℤ) = holders s k - one (s a) k := by
    rw [holders, setOf_update_none, holders, one]
    split
    · rename_i ha
      have hmem : a ∈ {b | s b = some k} := ha
      have hcard := Set.ncard_sdiff_singleton_add_one hmem (hs.holders k)
      omega
    · rename_i ha
      rw [Set.sdiff_singleton_eq_self (show a ∉ {b | s b = some k} from ha), sub_zero]
  rw [← hlet, one]
  split
  · rename_i hv
    have htake : {b | Function.update s a v b = some k} =
        insert a {b | Function.update s a none b = some k} := by
      ext b
      by_cases hba : b = a
      · subst hba
        simp [hv]
      · simp [hba]
    rw [holders, htake, Set.ncard_insert_of_notMem (by simp) ((hs.update a none).holders k),
      holders]
    push_cast
    rfl
  · rename_i hv
    have hsame : {b | Function.update s a v b = some k} =
        {b | Function.update s a none b = some k} := by
      ext b
      by_cases hba : b = a
      · subst hba
        simp [hv]
      · simp [hba]
    rw [holders, hsame, holders, add_zero]

lemma one_add_one_iff {o p q : Option K} :
    (∀ k, one o k + one p k = one q k) ↔ (o = none ∧ q = p) ∨ (p = none ∧ q = o) := by
  constructor
  · intro h
    cases o with
    | none =>
      refine Or.inl ⟨rfl, ?_⟩
      cases p with
      | none =>
        cases q with
        | none => rfl
        | some z => simpa using h z
      | some y =>
        have hy := h y
        rw [one_none, zero_add, one_some_self] at hy
        exact one_eq_one_iff.mp hy.symm
    | some x =>
      have hx := h x
      rw [one_some_self] at hx
      have hq : q = some x := by
        by_contra hne
        rw [one, one, if_neg hne] at hx
        split at hx <;> omega
      subst hq
      refine Or.inr ⟨?_, rfl⟩
      cases p with
      | none => rfl
      | some y =>
        have hy := h y
        rw [one_some_self] at hy
        omega
  · rintro (⟨rfl, rfl⟩ | ⟨rfl, rfl⟩) k
    · rw [one_none, zero_add]
    · rw [one_none, add_zero]

/-- **When the count stays right**: one user changes to `v`, and the count is raised for
`taken`. -/
lemma Balanced.update_iff {load load' : K → ℤ} (h : Balanced load s) (hs : Finitary s)
    {taken : Option K} (hload : ∀ k, load' k = load k + one taken k) (a : α) (v : Option K) :
    Balanced load' (Function.update s a v) ↔
      (taken = none ∧ v = s a) ∨ (s a = none ∧ v = taken) := by
  rw [← one_add_one_iff]
  refine forall_congr' fun k => ?_
  rw [hload, h k, holders_update hs]
  constructor <;> intro hk <;> omega

end Tally
