import Mathlib.Tactic

/-!
Forward simulation.

A system answers calls, one after the other. A specification says which answers a state allows, and
which state may follow. If every call keeps a relation between the states of the two, the answers
of any run are allowed.
-/

namespace Simulation

variable {σ τ ι ρ : Type*}

/-- The answers to a list of calls, and the state after them. -/
def serve (call : σ → ι → ρ × σ) : σ → List ι → List ρ × σ
  | a, [] => ([], a)
  | a, i :: is => ((call a i).1 :: (serve call (call a i).2 is).1, (serve call (call a i).2 is).2)

/-- The specification allows these answers to these calls. -/
inductive Allows (spec : τ → ι → ρ → τ → Prop) : τ → List ι → List ρ → τ → Prop
  | nil (s : τ) : Allows spec s [] [] s
  | cons {s s' s'' : τ} {i : ι} {is : List ι} {r : ρ} {rs : List ρ} (h : spec s i r s')
      (hs : Allows spec s' is rs s'') : Allows spec s (i :: is) (r :: rs) s''

/-- **What one call keeps, a run keeps.** -/
lemma allows_serve {call : σ → ι → ρ × σ} {spec : τ → ι → ρ → τ → Prop} {R : σ → τ → Prop}
    {ok : ι → Prop} (hstep : ∀ a s i, R a s → ok i → ∃ s', spec s i (call a i).1 s' ∧
      R (call a i).2 s') {a : σ} {s : τ} (is : List ι) (his : ∀ i ∈ is, ok i) (h : R a s) :
    ∃ s', Allows spec s is (serve call a is).1 s' ∧ R (serve call a is).2 s' := by
  induction is generalizing a s with
  | nil => exact ⟨s, .nil s, h⟩
  | cons i is ih =>
    obtain ⟨s', hspec, hs'⟩ := hstep a s i h (his i List.mem_cons_self)
    obtain ⟨s'', hallows, hs''⟩ := ih (fun j hj => his j (List.mem_cons_of_mem i hj)) hs'
    exact ⟨s'', .cons hspec hallows, hs''⟩

end Simulation
