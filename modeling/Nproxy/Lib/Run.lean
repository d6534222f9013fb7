import Mathlib.Tactic

/-!
Runs of a machine that takes one input after the other, and what holds along
them.

A machine is a function `step : σ → ι → σ`. `run` is the state after a list of
inputs. `Along ok` says that every input of the run was given in a state where
`ok` allows it; `Along.invariant` is the induction that every result about runs
rests on: what such steps preserve, such runs preserve.
-/

namespace Run

variable {σ ι : Type*} (step : σ → ι → σ)

/-- The state after a list of inputs. -/
def run (s : σ) (is : List ι) : σ := is.foldl step s

@[simp] lemma run_nil (s : σ) : run step s [] = s := rfl

@[simp] lemma run_cons (s : σ) (i : ι) (is : List ι) :
    run step s (i :: is) = run step (step s i) is := rfl

lemma run_append (s : σ) (is js : List ι) :
    run step s (is ++ js) = run step (run step s is) js := List.foldl_append

/-- What every step preserves, every run preserves. -/
lemma run_invariant {step : σ → ι → σ} {P : σ → Prop} (hstep : ∀ s i, P s → P (step s i)) {s : σ}
    (hs : P s) (is : List ι) : P (run step s is) := by
  induction is generalizing s with
  | nil => exact hs
  | cons i is ih => exact ih (hstep s i hs)

/-- Every input of the run is allowed in the state in which it is taken. -/
def Along (ok : σ → ι → Prop) : σ → List ι → Prop
  | _, [] => True
  | s, i :: is => ok s i ∧ Along ok (step s i) is

/-- What a run puts out, step by step. -/
def emitted {α : Type*} (emit : σ → ι → Option α) : σ → List ι → List α
  | _, [] => []
  | s, i :: is => (emit s i).toList ++ emitted emit (step s i) is

variable {step} {ok : σ → ι → Prop}

@[simp] lemma along_nil (s : σ) : Along step ok s [] := trivial

@[simp] lemma along_cons (s : σ) (i : ι) (is : List ι) :
    Along step ok s (i :: is) ↔ ok s i ∧ Along step ok (step s i) is := Iff.rfl

lemma along_append (s : σ) (is js : List ι) :
    Along step ok s (is ++ js) ↔ Along step ok s is ∧ Along step ok (run step s is) js := by
  induction is generalizing s with
  | nil => simp
  | cons i is ih => simp [ih, and_assoc]

instance Along.decidable [∀ s i, Decidable (ok s i)] :
    ∀ (s : σ) (is : List ι), Decidable (Along step ok s is)
  | _, [] => isTrue trivial
  | s, i :: is => @instDecidableAnd (ok s i) _ _ (Along.decidable (step s i) is)

/-- **What allowed steps preserve, allowed runs preserve.** -/
lemma Along.invariant {P : σ → Prop} (hstep : ∀ s i, P s → ok s i → P (step s i))
    {s : σ} {is : List ι} (h : Along step ok s is) (hs : P s) : P (run step s is) := by
  induction is generalizing s with
  | nil => exact hs
  | cons i is ih => exact ih h.2 (hstep s i hs h.1)

/-- The same for what is known of the state and of all that was put out before. -/
lemma Along.emitted_invariant {α : Type*} {emit : σ → ι → Option α} {P : σ → List α → Prop}
    (hstep : ∀ s i out, P s out → ok s i → P (step s i) (out ++ (emit s i).toList)) {s : σ}
    {is : List ι} (h : Along step ok s is) {out : List α} (hs : P s out) :
    P (run step s is) (out ++ emitted step emit s is) := by
  induction is generalizing s out with
  | nil => simpa [emitted] using hs
  | cons i is ih =>
    have hrest := ih h.2 (hstep s i out hs h.1)
    rwa [List.append_assoc] at hrest

/-- What allowed steps do in a state with an invariant, they do all along an allowed run. -/
lemma Along.imp_of_invariant {P : σ → Prop} {does : σ → ι → Prop}
    (hstep : ∀ s i, P s → ok s i → does s i ∧ P (step s i)) {s : σ} {is : List ι}
    (h : Along step ok s is) (hs : P s) : Along step does s is := by
  induction is generalizing s with
  | nil => exact trivial
  | cons i is ih =>
    obtain ⟨hdoes, hnext⟩ := hstep s i hs h.1
    exact ⟨hdoes, ih h.2 hnext⟩

lemma along_true (s : σ) (is : List ι) : Along step (fun _ _ => True) s is := by
  induction is generalizing s with
  | nil => exact trivial
  | cons i is ih => exact ⟨trivial, ih (step s i)⟩

/-- **The exact condition for a property to hold all along a run** of which something is known: an
allowed step keeps the invariant, and a step that is not allowed breaks the property at once. -/
lemma forall_prefix_iff_along_of {P Q : σ → Prop} {known : σ → ι → Prop} (hQ : ∀ s, Q s → P s)
    (hok : ∀ s i, Q s → known s i → ok s i → Q (step s i))
    (hbad : ∀ s i, Q s → known s i → ¬ok s i → ¬P (step s i)) {s : σ} (hs : Q s) {is : List ι}
    (his : Along step known s is) :
    (∀ js, js <+: is → P (run step s js)) ↔ Along step ok s is := by
  induction is generalizing s with
  | nil =>
    refine iff_of_true (fun js hjs => ?_) trivial
    rw [List.prefix_nil.mp hjs]
    exact hQ s hs
  | cons i is ih =>
    obtain ⟨hknown, hrest⟩ := his
    constructor
    · intro h
      have hi : ok s i := by
        by_contra hi
        exact hbad s i hs hknown hi (h [i] (List.cons_prefix_cons.mpr ⟨rfl, List.nil_prefix⟩))
      exact ⟨hi, (ih (hok s i hs hknown hi) hrest).mp fun js hjs =>
        h (i :: js) (List.cons_prefix_cons.mpr ⟨rfl, hjs⟩)⟩
    · rintro ⟨hi, halong⟩ js hjs
      cases js with
      | nil => exact hQ s hs
      | cons j js =>
        obtain ⟨rfl, htail⟩ := List.cons_prefix_cons.mp hjs
        exact (ih (hok s j hs hknown hi) hrest).mpr halong js htail

/-- The same, if nothing is known. -/
lemma forall_prefix_iff_along {P Q : σ → Prop} (hQ : ∀ s, Q s → P s)
    (hok : ∀ s i, Q s → ok s i → Q (step s i)) (hbad : ∀ s i, Q s → ¬ok s i → ¬P (step s i))
    {s : σ} (hs : Q s) (is : List ι) :
    (∀ js, js <+: is → P (run step s js)) ↔ Along step ok s is :=
  forall_prefix_iff_along_of hQ (fun s i hs _ => hok s i hs) (fun s i hs _ => hbad s i hs) hs
    (along_true s is)

/-- What holds after every step of a run. -/
lemma along_of_forall_prefix {P : σ → Prop} {s : σ} {is : List ι}
    (h : ∀ js, js <+: is → P (run step s js)) : Along step (fun s i => P (step s i)) s is :=
  (forall_prefix_iff_along (Q := P) (fun _ hs => hs) (fun _ _ _ hi => hi) (fun _ _ _ hi => hi)
    (h [] List.nil_prefix) is).mp h

/-- Two conditions that agree wherever an invariant holds, agree along a run. -/
lemma along_congr_of_invariant {P : σ → Prop} {ok' : σ → ι → Prop}
    (hP : ∀ s i, P s → P (step s i)) (hok : ∀ s i, P s → (ok s i ↔ ok' s i)) {s : σ} (hs : P s)
    (is : List ι) : Along step ok s is ↔ Along step ok' s is := by
  induction is generalizing s with
  | nil => rfl
  | cons i is ih => rw [along_cons, along_cons, hok s i hs, ih (hP s i hs)]

lemma Along.and {ok' : σ → ι → Prop} {s : σ} {is : List ι} (h : Along step ok s is)
    (h' : Along step ok' s is) : Along step (fun s i => ok s i ∧ ok' s i) s is := by
  induction is generalizing s with
  | nil => exact trivial
  | cons i is ih => exact ⟨⟨h.1, h'.1⟩, ih h.2 h'.2⟩

/-- What is allowed may be asked of an image of the machine. -/
lemma along_comap {τ : Type*} {step' : τ → ι → τ} {f : τ → σ}
    (hf : ∀ t i, f (step' t i) = step (f t) i) (t : τ) (is : List ι) :
    Along step' (fun t i => ok (f t) i) t is ↔ Along step ok (f t) is := by
  induction is generalizing t with
  | nil => rfl
  | cons i is ih => rw [along_cons, along_cons, ih, hf]

end Run
