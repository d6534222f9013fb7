import Nproxy.Lib.DList

/-!
Freeing the cells of a linked list, one after the other.

The state knows which cells are allocated: reading the pointer of a cell that is not has no
result. A list that ends has no cell twice, so each of its cells is read before it is freed.
-/

namespace Chain

variable {σ α : Type*}

/-- `while (p) { q = p->next; free(p); p = q; }`, in at most so many rounds. -/
def drain (read : σ → α → Option (Option α)) (free : σ → α → σ) : ℕ → σ → Option α → Option σ
  | _, s, none => some s
  | 0, _, some _ => none
  | fuel + 1, s, some a => (read s a).bind fun next => drain read free fuel (free s a) next

/-- **A list of allocated cells is freed**, cell by cell, where freeing one leaves the others. -/
lemma IsChain.drain {read : σ → α → Option (Option α)} {free : σ → α → σ}
    (hother : ∀ s a b, b ≠ a → read (free s a) b = read s b) {next : α → Option α} {h : Option α}
    {l : List α} (hc : IsChain next h l) {s : σ} (hread : ∀ a ∈ l, read s a = some (next a))
    {fuel : ℕ} (hfuel : l.length ≤ fuel) :
    Chain.drain read free fuel s h = some (l.foldl free s) := by
  induction l generalizing s h fuel with
  | nil =>
    obtain rfl := hc
    cases fuel <;> rfl
  | cons a l ih =>
    have hnodup := hc.nodup
    obtain ⟨rfl, hc⟩ := hc
    cases fuel with
    | zero => exact absurd hfuel (by simp)
    | succ fuel =>
      have hrest : ∀ b ∈ l, read (free s a) b = some (next b) := fun b hb =>
        (hother s a b (ne_of_mem_of_not_mem hb (List.nodup_cons.mp hnodup).1)).trans
          (hread b (List.mem_cons_of_mem a hb))
      rw [Chain.drain, hread a List.mem_cons_self]
      exact ih hc hrest (Nat.le_of_succ_le_succ hfuel)

end Chain
