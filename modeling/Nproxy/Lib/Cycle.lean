import Mathlib.Tactic
import Mathlib.Data.List.Rotate

/-!
Turns in a circle: a list is scanned for its first member with a property, and the scan
goes on behind that member the next time.

`serve p l` is one scan. What the members with the property see of it is a queue whose
first member is served and goes to its end (`serve_fst`, `filter_serve`), so that so many
scans as there are such members serve each of them once, in their order (`serves_all`).
-/

namespace Cycle

variable {α : Type*} (p : α → Bool)

/-- One scan: the first member with the property, and the list as it stands behind it. -/
def serve (l : List α) : Option α × List α :=
  match l.find? p with
  | none => (none, l)
  | some a => (some a, l.rotate (l.findIdx p + 1))

/-- Some scans, one after the other. -/
def serves : ℕ → List α → List (Option α) × List α
  | 0, l => ([], l)
  | k + 1, l =>
    let r := serve p l
    let rest := serves k r.2
    (r.1 :: rest.1, rest.2)

variable {p} {l : List α}

lemma serve_fst (l : List α) : (serve p l).1 = (l.filter p).head? := by
  rw [serve, List.head?_filter]
  cases l.find? p <;> rfl

/-- The list cut at the member that is served. -/
lemma rotate_findIdx {pre post : List α} {a : α} (hpre : ∀ b ∈ pre, p b = false)
    (ha : p a = true) :
    (pre ++ a :: post).rotate ((pre ++ a :: post).findIdx p + 1) = post ++ (pre ++ [a]) := by
  have hidx : (pre ++ a :: post).findIdx p = pre.length := by
    rw [List.findIdx_append]
    have hnone : pre.findIdx p = pre.length := List.findIdx_eq_length.mpr hpre
    rw [if_neg (by omega), List.findIdx_cons, ha]
    simp
  rw [hidx, show pre ++ a :: post = (pre ++ [a]) ++ post by simp,
    show pre.length + 1 = (pre ++ [a]).length by simp, List.rotate_append_length_eq]

lemma filter_serve (l : List α) : (serve p l).2.filter p = (l.filter p).rotate 1 := by
  rw [serve]
  cases hfind : l.find? p with
  | none =>
    have hnil : l.filter p = [] := by
      rw [List.filter_eq_nil_iff]
      exact List.find?_eq_none.mp hfind
    simp [hnil]
  | some a =>
    obtain ⟨ha, pre, post, rfl, hpre⟩ := List.find?_eq_some_iff_append.mp hfind
    have hpre' : ∀ b ∈ pre, p b = false := fun b hb => by simpa using hpre b hb
    have hnil : pre.filter p = [] := by
      rw [List.filter_eq_nil_iff]
      exact fun b hb => by simp [hpre' b hb]
    simp only [rotate_findIdx hpre' ha]
    simp [hnil, ha, List.rotate_cons_succ]

/-- The first scans serve the first members in their order. -/
lemma serves_take {k : ℕ} {l : List α} (hk : k ≤ (l.filter p).length) :
    (serves p k l).1 = ((l.filter p).take k).map some := by
  induction k generalizing l with
  | zero => rfl
  | succ k ih =>
    obtain ⟨a, r, har⟩ : ∃ a r, l.filter p = a :: r :=
      List.exists_cons_of_length_pos (by omega)
    have hnext : (serve p l).2.filter p = r ++ [a] := by
      rw [filter_serve, har, List.rotate_cons_succ, List.rotate_zero]
    rw [har, List.length_cons] at hk
    have hrest := ih (l := (serve p l).2) (by rw [hnext, List.length_append]; omega)
    rw [hnext, List.take_append_of_le_length (by omega)] at hrest
    rw [serves]
    simp only
    rw [hrest, serve_fst, har, List.take_succ_cons, List.map_cons, List.head?_cons]

/-- **As many scans as there are members with the property serve each of them once, in
their order.** -/
lemma serves_all (l : List α) :
    (serves p (l.filter p).length l).1 = (l.filter p).map some := by
  rw [serves_take le_rfl, List.take_length]

end Cycle
