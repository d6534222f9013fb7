import Mathlib.Tactic

/-!
A file system: a directory of names, and the files they lead to.

A file has a number and keeps its content as long as anyone has it open, whatever becomes of
its name: opening a name that exists empties the file that others may have open, a write goes
to the file and not to the name, and renaming moves the name. `Fs.view` forgets the numbers;
in a directory where no two names lead to one file (`Fs.Wf`) the operations on the view are
the ones to be expected.
-/

namespace Files

/-- The file that each name leads to, the contents, and the number of the next file. -/
structure Fs (N : Type*) where
  dir : N → Option ℕ
  data : ℕ → List UInt8
  fresh : ℕ

/-- A write into a content at an offset; what lies between its end and the offset is zero. -/
def overwrite (old : List UInt8) (off : ℕ) (l : List UInt8) : List UInt8 :=
  old.takeD off 0 ++ l ++ old.drop (off + l.length)

namespace Fs

variable {N : Type*}

/-- `write` at an offset of an open file. -/
def writeAt (fs : Fs N) (i off : ℕ) (l : List UInt8) : Fs N :=
  { fs with data := Function.update fs.data i (overwrite (fs.data i) off l) }

/-- The contents by name. -/
def view (fs : Fs N) (name : N) : Option (List UInt8) := (fs.dir name).map fs.data

/-- No two names lead to one file, and none to one that is still to come. -/
structure Wf (fs : Fs N) : Prop where
  inj : ∀ n n' i, fs.dir n = some i → fs.dir n' = some i → n = n'
  lt : ∀ n i, fs.dir n = some i → i < fs.fresh

@[simp] lemma data_writeAt_self {fs : Fs N} {i off : ℕ} {l : List UInt8} :
    (fs.writeAt i off l).data i = overwrite (fs.data i) off l := Function.update_self _ _ _

lemma data_writeAt_of_ne {fs : Fs N} {i j off : ℕ} {l : List UInt8} (h : j ≠ i) :
    (fs.writeAt i off l).data j = fs.data j := Function.update_of_ne h _ _

lemma Wf.writeAt {fs : Fs N} (h : fs.Wf) (i off : ℕ) (l : List UInt8) : (fs.writeAt i off l).Wf :=
  ⟨h.inj, h.lt⟩

variable [DecidableEq N]

/-- `open` for writing, with `O_CREAT` and `O_TRUNC`. -/
def openTrunc (fs : Fs N) (name : N) : ℕ × Fs N :=
  match fs.dir name with
  | some i => (i, { fs with data := Function.update fs.data i [] })
  | none => (fs.fresh,
      { dir := Function.update fs.dir name (some fs.fresh)
        data := Function.update fs.data fs.fresh []
        fresh := fs.fresh + 1 })

/-- `unlink`. -/
def unlink (fs : Fs N) (name : N) : Fs N := { fs with dir := Function.update fs.dir name none }

/-- `rename`, of a name that leads to a file. -/
def rename (fs : Fs N) (old new : N) : Option (Fs N) :=
  (fs.dir old).map fun i =>
    { fs with dir := Function.update (Function.update fs.dir new (some i)) old none }

end Fs

lemma overwrite_length (old l : List UInt8) : overwrite old old.length l = old ++ l := by
  rw [overwrite, List.takeD_eq_take 0 le_rfl, List.take_length, List.drop_of_length_le (by omega),
    List.append_nil]

namespace Fs

variable {N : Type*} [DecidableEq N] {fs : Fs N} {name : N}

/-- Opening leads the name to an empty file. -/
lemma dir_openTrunc (fs : Fs N) (name : N) :
    (fs.openTrunc name).2.dir = Function.update fs.dir name (some (fs.openTrunc name).1) := by
  rw [openTrunc]
  split
  · rename_i i hi
    exact (Function.update_eq_self_iff.mpr hi.symm).symm
  · rfl

lemma data_openTrunc (fs : Fs N) (name : N) :
    (fs.openTrunc name).2.data = Function.update fs.data (fs.openTrunc name).1 [] := by
  rw [openTrunc]
  split <;> rfl

/-- The file that is opened is the one of the name, or a new one. -/
lemma openTrunc_cases (fs : Fs N) (name : N) :
    (fs.dir name = some (fs.openTrunc name).1 ∧ (fs.openTrunc name).2.fresh = fs.fresh) ∨
      (fs.dir name = none ∧ (fs.openTrunc name).1 = fs.fresh ∧
        (fs.openTrunc name).2.fresh = fs.fresh + 1) := by
  rw [openTrunc]
  split
  · rename_i i hi
    exact Or.inl ⟨hi, rfl⟩
  · rename_i hnone
    exact Or.inr ⟨hnone, rfl, rfl⟩

/-! ### By name -/

lemma Wf.openTrunc (h : fs.Wf) (name : N) : (fs.openTrunc name).2.Wf := by
  have hnew : ∀ n, n ≠ name → fs.dir n ≠ some (fs.openTrunc name).1 := by
    rintro n hn hdir
    rcases fs.openTrunc_cases name with ⟨hname, -⟩ | ⟨-, hfresh, -⟩
    · exact hn (h.inj n name _ hdir hname)
    · exact (h.lt n _ hdir).ne hfresh
  refine ⟨fun n n' i hn hn' => ?_, fun n i hn => ?_⟩
  · rw [dir_openTrunc] at hn hn'
    by_cases hname : n = name <;> by_cases hname' : n' = name
    · rw [hname, hname']
    · rw [hname, Function.update_self] at hn
      rw [Function.update_of_ne hname'] at hn'
      exact absurd (hn'.trans hn.symm) (hnew n' hname')
    · rw [hname', Function.update_self] at hn'
      rw [Function.update_of_ne hname] at hn
      exact absurd (hn.trans hn'.symm) (hnew n hname)
    · rw [Function.update_of_ne hname] at hn
      rw [Function.update_of_ne hname'] at hn'
      exact h.inj n n' i hn hn'
  · rw [dir_openTrunc] at hn
    by_cases hname : n = name
    · rw [hname, Function.update_self] at hn
      obtain rfl := Option.some.inj hn
      rcases fs.openTrunc_cases name with ⟨hdir, hfresh⟩ | ⟨-, hi, hfresh⟩
      · exact (h.lt name _ hdir).trans_eq hfresh.symm
      · omega
    · rw [Function.update_of_ne hname] at hn
      have := h.lt n i hn
      rcases fs.openTrunc_cases name with ⟨-, hfresh⟩ | ⟨-, -, hfresh⟩ <;> omega

lemma view_openTrunc (h : fs.Wf) (name : N) :
    (fs.openTrunc name).2.view = Function.update fs.view name (some []) := by
  funext n
  rw [view, dir_openTrunc, data_openTrunc]
  by_cases hn : n = name
  · subst hn
    simp
  · rw [Function.update_of_ne hn, Function.update_of_ne hn, view]
    refine Option.map_congr fun i hi => Function.update_of_ne ?_ _ _
    rintro rfl
    rcases fs.openTrunc_cases name with ⟨hname, -⟩ | ⟨-, hfresh, -⟩
    · exact hn (h.inj n name _ hi hname)
    · exact (h.lt n _ hi).ne hfresh

lemma view_writeAt (h : fs.Wf) {i : ℕ} (hi : fs.dir name = some i) (off : ℕ) (l : List UInt8) :
    (fs.writeAt i off l).view =
      Function.update fs.view name (some (overwrite (fs.data i) off l)) := by
  funext n
  by_cases hn : n = name
  · subst hn
    rw [view, show (fs.writeAt i off l).dir n = some i from hi]
    simp
  · rw [Function.update_of_ne hn]
    refine Option.map_congr fun j hj => data_writeAt_of_ne ?_
    rintro rfl
    exact hn (h.inj n name _ hj hi)

lemma view_unlink (fs : Fs N) (name : N) :
    (fs.unlink name).view = Function.update fs.view name none := by
  funext n
  by_cases hn : n = name
  · subst hn
    simp [view, unlink]
  · simp [view, unlink, hn]

/-- A name that leads to a file can be renamed. -/
lemma view_rename {old : N} {i : ℕ} (hi : fs.dir old = some i) (new : N) :
    ∃ fs', fs.rename old new = some fs' ∧
      fs'.view = Function.update (Function.update fs.view new (fs.view old)) old none := by
  refine ⟨_, by rw [rename, hi, Option.map_some], ?_⟩
  funext n
  by_cases hn : n = old
  · subst hn
    simp [view]
  · by_cases hn' : n = new
    · subst hn'
      simp [view, hn, hi]
    · simp [view, hn, hn']

end Fs

end Files
