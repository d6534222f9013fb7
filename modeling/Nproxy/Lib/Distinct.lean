import Mathlib.Tactic

/-!
The elements of a list, each once, in the order in which they first occur.

`FirstOccurrences l out` says that `out` is that list for `l`. A list that is read from the front
keeps it up by `concat_of_mem` and `concat_of_notMem`: what has occurred is left out, and what
has not is added at the end.
-/

/-- The elements of a list, each once, in the order in which they first occur. -/
structure FirstOccurrences {α : Type*} [DecidableEq α] (l out : List α) : Prop where
  nodup : out.Nodup
  mem_iff : ∀ x, x ∈ out ↔ x ∈ l
  order : out.Pairwise fun x y => l.idxOf x < l.idxOf y

namespace FirstOccurrences

variable {α : Type*} [DecidableEq α] {l out : List α} {x : α}

lemma nil : FirstOccurrences ([] : List α) [] :=
  ⟨List.nodup_nil, fun _ => Iff.rfl, List.Pairwise.nil⟩

/-- What comes later does not change the order. -/
lemma order_append (h : FirstOccurrences l out) (x : α) :
    out.Pairwise fun y z => (l ++ [x]).idxOf y < (l ++ [x]).idxOf z := by
  refine h.order.imp_of_mem fun hy hz hlt => ?_
  rwa [List.idxOf_append_of_mem ((h.mem_iff _).mp hy),
    List.idxOf_append_of_mem ((h.mem_iff _).mp hz)]

lemma concat_of_mem (h : FirstOccurrences l out) (hx : x ∈ out) :
    FirstOccurrences (l ++ [x]) out := by
  refine ⟨h.nodup, fun y => ?_, h.order_append x⟩
  rw [h.mem_iff, List.mem_append, List.mem_singleton, iff_self_or]
  rintro rfl
  exact (h.mem_iff y).mp hx

lemma concat_of_notMem (h : FirstOccurrences l out) (hx : x ∉ out) :
    FirstOccurrences (l ++ [x]) (out ++ [x]) := by
  have hxl : x ∉ l := fun hmem => hx ((h.mem_iff x).mpr hmem)
  refine ⟨?_, fun y => ?_, ?_⟩
  · rw [← List.concat_eq_append]
    exact h.nodup.concat hx
  · rw [List.mem_append, List.mem_append, h.mem_iff]
  · refine List.pairwise_append.mpr ⟨h.order_append x, List.pairwise_singleton _ _, ?_⟩
    intro y hy z hz
    rw [List.mem_singleton.mp hz, List.idxOf_append_of_mem ((h.mem_iff y).mp hy),
      List.idxOf_append_of_notMem hxl]
    exact lt_of_lt_of_le (List.idxOf_lt_length_of_mem ((h.mem_iff y).mp hy)) (Nat.le_add_right _ _)

end FirstOccurrences
