import Nproxy.Proc.Master

/-!
The workers that the master leaves behind.

`OwnOnly` says that what stands in the table is a child. Here it is the other way round: a worker
that is alive stands in the table, so that `kill_workers` and `wait_workers` reach it. Forks may
fail, dead workers may not be replaced and their numbers may come back for others; none of that
loses a worker. The one thing that does is `wait_workers`, which clears the entry of a worker
whether or not the `waitpid` for it was interrupted (`abandons`).

* `Tabled`: what holds of the table wherever the master stands.
* `reached_run`: a worker is in the table or was abandoned; there are no more of the former than
  `worker_count`; and when new listeners are bound, or the master returns, there are none of them.
-/

namespace Nproxy

/-- The entries without a worker: those that were cleared, and those that are yet to be spawned. -/
def Point.Vacant : Point → ℕ → Prop
  | .spawn j, i => j ≤ i
  | p, i => p.Cleared i

/-- The workers are gone: the listeners are bound again, or `master_run` has returned. -/
def Point.Ended : Point → Prop
  | .rebind _ | .done => True
  | _ => False

namespace Master

/-- The worker that is taken out of the table although it was not reaped. -/
def abandons (m : Master) : MasterInput → Option ℤ
  | .signal _ => none
  | .go a =>
    match m.point with
    | .wait _ i =>
      if i < m.count ∧ 0 < m.pids i ∧ m.pids i ∈ m.children ∧ a.wait ≠ m.pids i then
        some (m.pids i)
      else none
    | _ => none

/-- What the table of the workers is, with those that were abandoned. -/
structure Tabled (m : Master) (lost : List ℤ) : Prop extends Fits m where
  tabled : ∀ pid ∈ m.children, pid ∈ lost ∨ ∃ i, m.pids i = pid
  positive : ∀ pid ∈ m.children, 0 < pid
  within : ∀ i, 0 < m.pids i → i < m.count
  vacant : ∀ i, m.point.Vacant i → m.pids i ≤ 0
  /-- a worker that was found dead has been reaped -/
  reaped : ∀ i, m.point.dead = some i → m.pids i ∉ m.children
  ended : m.point.Ended → ∀ pid ∈ m.children, pid ∈ lost

namespace Tabled

variable {m : Master} {lost : List ℤ} {i : ℕ} {pid : ℤ} {p : Point}

lemma start (cfg : Settings) (listeners : List UInt16) :
    Tabled (Master.start cfg listeners) [] where
  toFits := .start cfg listeners
  tabled _ h := absurd h (Finset.notMem_empty _)
  positive _ h := absurd h (Finset.notMem_empty _)
  within _ h := absurd h (lt_irrefl 0)
  vacant _ _ := le_rfl
  reaped _ h := by cases h
  ended h := h.elim

/-- The flags are of no account to the table, nor are the listeners. -/
lemma congr {m' : Master} (h : Tabled m lost) (hpoint : m'.point = m.point)
    (hpids : m'.pids = m.pids) (hcount : m'.count = m.count)
    (hchildren : m'.children = m.children) : Tabled m' lost where
  toFits := ⟨hcount ▸ h.count_le, by rw [hpoint, hcount]; exact h.dead_lt⟩
  tabled := by rw [hchildren, hpids]; exact h.tabled
  positive := by rw [hchildren]; exact h.positive
  within := by rw [hpids, hcount]; exact h.within
  vacant := by rw [hpoint, hpids]; exact h.vacant
  reaped := by rw [hpoint, hpids, hchildren]; exact h.reaped
  ended := by rw [hpoint, hchildren]; exact h.ended

/-- The master moves on, and no worker is dead. -/
lemma move (h : Tabled m lost) (hp : p.dead = none) (hvacant : ∀ i, p.Vacant i → m.pids i ≤ 0)
    (hended : ¬p.Ended) : Tabled { m with point := p } lost where
  toFits := h.toFits.move rfl hp
  tabled := h.tabled
  positive := h.positive
  within := h.within
  vacant := hvacant
  reaped i hi := by cases hp.symm.trans hi
  ended ho := absurd ho hended

/-- An entry of the table is written, and no other is filled. -/
lemma lt_of_update {v : ℤ} {j : ℕ} (h : Tabled m lost) (hi : i < m.count)
    (hj : 0 < Function.update m.pids i v j) : j < m.count := by
  rcases eq_or_ne j i with rfl | hji
  · exact hi
  · rw [Function.update_of_ne hji] at hj
    exact h.within j hj

/-- A worker is forked for an entry that holds none. -/
lemma spawned (h : Tabled m lost) (hi : i < m.count) (hold : m.pids i ∉ m.children)
    (hp : p.dead = none) (hvacant : ∀ j, p.Vacant j → j ≠ i ∧ m.pids j ≤ 0) (hended : ¬p.Ended) :
    Tabled { m.spawnWorker i pid with point := p } lost := by
  rw [spawnWorker]
  split_ifs with hpid
  · refine ⟨h.toFits.move rfl hp, fun q hq => ?_, fun q hq => ?_, fun j hj => ?_, fun j hj => ?_,
      fun j hj => (by cases hp.symm.trans hj), fun ho => absurd ho hended⟩
    · rcases Finset.mem_insert.mp hq with rfl | hmem
      · exact Or.inr ⟨i, Function.update_self _ _ _⟩
      · refine (h.tabled q hmem).imp_right ?_
        rintro ⟨j, hj⟩
        refine ⟨j, ?_⟩
        -- the entry that is filled was not that of a worker
        have hji : j ≠ i := by
          rintro rfl
          exact hold (hj ▸ hmem)
        exact (Function.update_of_ne hji _ _).trans hj
    · rcases Finset.mem_insert.mp hq with rfl | hq
      · exact hpid
      · exact h.positive q hq
    · exact h.lt_of_update hi hj
    · obtain ⟨hji, hle⟩ := hvacant j hj
      simp only [Function.update_of_ne hji]
      exact hle
  · exact h.move hp (fun j hj => (hvacant j hj).2) hended

lemma afterReap (h : Tabled m lost) (dead : ℤ) : Tabled (m.reaped dead) lost := by
  have hfits := h.toFits.reaped dead
  rw [Master.reaped] at hfits ⊢
  split_ifs at hfits ⊢ with hpos
  · refine ⟨hfits, fun q hq => h.tabled q (Finset.mem_of_mem_erase hq),
      fun q hq => h.positive q (Finset.mem_of_mem_erase hq), h.within, fun j hj => ?_,
      fun j hj => ?_, fun ho => ?_⟩
    · dsimp only at hj
      split at hj <;> exact hj.elim
    · dsimp only at hj
      split at hj
      · rename_i k hfind
        obtain rfl := Option.some.inj hj
        have hpid : m.pids k = dead := by simpa using List.find?_some hfind
        rw [hpid]
        exact Finset.notMem_erase dead _
      · cases hj
    · dsimp only at ho
      split at ho <;> exact ho.elim
  · exact h.move rfl (fun _ hj => hj.elim) id

/-- An entry is cleared: its worker was reaped, or is abandoned. -/
lemma cleared {purpose : Purpose} (h : Tabled m lost) (hpoint : m.point = .wait purpose i)
    (hi : i < m.count) (a : MasterAnswers) :
    Tabled { m.waitWorker i a.wait with point := .wait purpose (i + 1) }
      (lost ++ (m.abandons (.go a)).toList) := by
  have hbefore : ∀ j < i, m.pids j ≤ 0 := fun j hj => h.vacant j (by rw [hpoint]; exact hj)
  have hgone : m.abandons (.go a) = if 0 < m.pids i ∧ m.pids i ∈ m.children ∧
      a.wait ≠ m.pids i then some (m.pids i) else none := by
    simp only [abandons, hpoint, hi, true_and]
  rw [hgone, Master.waitWorker]
  by_cases hpos : 0 < m.pids i
  · rw [if_pos hpos]
    have hsub : ∀ q ∈ (if a.wait = m.pids i then m.children.erase a.wait else m.children),
        q ∈ m.children := by
      intro q hq
      split_ifs at hq
      · exact Finset.mem_of_mem_erase hq
      · exact hq
    refine ⟨h.toFits.move rfl rfl, fun q hq => ?_, fun q hq => h.positive q (hsub q hq),
      fun j hj => ?_, fun j hj => ?_, fun j hj => (by cases hj), fun ho => ho.elim⟩
    · -- a child that `waitpid` did not reap loses its entry here, and is counted as lost
      rcases h.tabled q (hsub q hq) with hlost | ⟨j, rfl⟩
      · exact Or.inl (List.mem_append_left _ hlost)
      · rcases eq_or_ne j i with rfl | hji
        · left
          dsimp only at hq
          split_ifs at hq with hwait
          · rw [hwait] at hq
            exact absurd hq (Finset.notMem_erase _ _)
          · rw [if_pos ⟨hpos, hq, hwait⟩]
            simp
        · exact Or.inr ⟨j, Function.update_of_ne hji _ _⟩
    · exact h.lt_of_update hi hj
    · rcases eq_or_ne j i with rfl | hji
      · simp
      · simp only [Function.update_of_ne hji]
        exact hbefore j (lt_of_le_of_ne (Nat.lt_succ_iff.mp hj) hji)
  · rw [if_neg hpos, if_neg fun h => hpos h.1, Option.toList_none, List.append_nil]
    refine h.move rfl (fun j hj => ?_) id
    rcases Nat.lt_succ_iff_lt_or_eq.mp hj with hj | rfl
    · exact hbefore j hj
    · exact not_lt.mp hpos

/-- After `wait_workers` the table is empty, and only abandoned workers are left. -/
lemma waited {purpose : Purpose} (h : Tabled m lost) (hpoint : m.point = .wait purpose i)
    (hi : ¬i < m.count) : Tabled (m.waited purpose) lost := by
  have hempty : ∀ j, m.pids j ≤ 0 := by
    intro j
    by_contra hj
    have hlt := h.within j (not_le.mp hj)
    exact hj (h.vacant j (by rw [hpoint]; change j < i; omega))
  have hlost : ∀ q ∈ m.children, q ∈ lost := by
    intro q hq
    refine (h.tabled q hq).resolve_right ?_
    rintro ⟨j, rfl⟩
    exact absurd (h.positive _ hq) (not_lt.mpr (hempty j))
  cases purpose with
  | reload cfg =>
    exact ⟨h.toFits.move rfl rfl, h.tabled, h.positive, h.within, fun j _ => hempty j,
      fun j hj => (by cases hj), fun _ => hlost⟩
  | shutdown =>
    exact ⟨h.toFits.move rfl rfl, h.tabled, h.positive, h.within, fun j hj => hj.elim,
      fun j hj => (by cases hj), fun _ => hlost⟩

/-- **One step** loses no worker but the one that it abandons. -/
lemma go {a : MasterAnswers} (h : Tabled m lost) :
    Tabled (m.go a) (lost ++ (m.abandons (.go a)).toList) := by
  -- only `wait_workers` abandons a worker, so that this point is apart from the others
  by_cases hwait : ∃ purpose i, m.point = .wait purpose i
  · obtain ⟨purpose, i, hpoint⟩ := hwait
    by_cases hi : i < m.count
    · simp only [Master.go, hpoint, if_pos hi]
      exact h.cleared hpoint hi a
    · have hnone : m.abandons (.go a) = none := by
        simp only [abandons, hpoint, hi, false_and, if_false]
      simp only [Master.go, hpoint, if_neg hi, hnone, Option.toList_none, List.append_nil]
      exact h.waited hpoint hi
  · have hnone : m.abandons (.go a) = none := by
      simp only [abandons]
      split
      · rename_i purpose i hpoint
        exact absurd ⟨purpose, i, hpoint⟩ hwait
      · rfl
    have hmove {p : Point} (hp : p.dead = none) (hvacant : ∀ i, ¬p.Vacant i) (hended : ¬p.Ended) :
        Tabled { m with point := p } lost := h.move hp (fun i hi => (hvacant i hi).elim) hended
    rw [hnone, Option.toList_none, List.append_nil, Master.go]
    cases hpoint : m.point with
    | spawn i =>
      have hfree : ∀ j, i ≤ j → m.pids j ≤ 0 := fun j hj => h.vacant j (by rw [hpoint]; exact hj)
      dsimp only
      split_ifs with hi
      · refine h.spawned hi (fun hmem => ?_) rfl (fun j hj => ?_) id
        · exact absurd (h.positive _ hmem) (not_lt.mpr (hfree i le_rfl))
        · exact ⟨(Nat.lt_of_succ_le hj).ne', hfree j (Nat.le_of_succ_le hj)⟩
      · exact hmove rfl (fun _ => id) id
    | test =>
      dsimp only
      split_ifs
      · exact hmove rfl (fun _ => id) id
      · exact hmove rfl (fun _ => id) id
    | reap => exact h.afterReap a.wait
    | found i =>
      dsimp only
      split_ifs
      · exact hmove rfl (fun _ => id) id
      · exact ⟨⟨h.count_le, fun j hj => h.dead_lt j (by rw [hpoint]; exact hj)⟩, h.tabled,
          h.positive, h.within, fun j hj => hj.elim,
          fun j hj => h.reaped j (by rw [hpoint]; exact hj), fun ho => ho.elim⟩
    | respawn i =>
      have hdead : m.point.dead = some i := by rw [hpoint]; rfl
      exact h.spawned (h.dead_lt i hdead) (h.reaped i hdead) rfl (fun j hj => hj.elim) id
    | reload =>
      dsimp only
      split_ifs
      · have hload : Tabled { m with point := .load } lost := hmove rfl (fun _ => id) id
        exact hload.congr rfl rfl rfl rfl
      · exact hmove rfl (fun _ => id) id
    | load =>
      dsimp only
      cases a.file with
      | none => exact hmove rfl (fun _ => id) id
      | some file => exact hmove rfl (fun _ => id) id
    | kill purpose i =>
      dsimp only
      split_ifs
      · exact hmove rfl (fun _ => id) id
      · exact hmove rfl (fun j => Nat.not_lt_zero j) id
    | wait purpose i => exact absurd ⟨purpose, i, hpoint⟩ hwait
    | rebind cfg =>
      have hempty : ∀ j, m.pids j ≤ 0 := fun j => h.vacant j (by rw [hpoint]; trivial)
      exact ⟨⟨workerCount_le cfg, fun j hj => by cases hj⟩, h.tabled, h.positive,
        fun j hj => absurd hj (not_lt.mpr (hempty j)), fun j _ => hempty j,
        fun j hj => (by cases hj), fun ho => ho.elim⟩
    | sleep => exact hmove rfl (fun _ => id) id
    | done => exact h

lemma step (h : Tabled m lost) (i : MasterInput) :
    Tabled (m.step i) (lost ++ (m.abandons i).toList) := by
  cases i with
  | signal sig =>
    rw [abandons, Option.toList_none, List.append_nil]
    cases sig <;> exact h.congr rfl rfl rfl rfl
  | go a => exact h.go

/-- There are no more workers than entries. -/
lemma card_le (h : Tabled m lost) : (m.children.filter (· ∉ lost)).card ≤ m.count.toNat := by
  have hsub : m.children.filter (· ∉ lost) ⊆ (Finset.range m.count.toNat).image m.pids := by
    intro q hq
    obtain ⟨hq, hlost⟩ := Finset.mem_filter.mp hq
    obtain ⟨i, rfl⟩ := (h.tabled q hq).resolve_left hlost
    have hi := h.within i (h.positive _ hq)
    exact Finset.mem_image.mpr ⟨i, Finset.mem_range.mpr (by omega), rfl⟩
  calc (m.children.filter (· ∉ lost)).card
      ≤ ((Finset.range m.count.toNat).image m.pids).card := Finset.card_le_card hsub
    _ ≤ (Finset.range m.count.toNat).card := Finset.card_image_le
    _ = m.count.toNat := Finset.card_range _

end Tabled

/-- **No worker is left behind** but those whose `waitpid` was interrupted. -/
theorem reached_run (cfg : Settings) (listeners : List UInt16) (is : List MasterInput) :
    let m := Run.run step (start cfg listeners) is
    let lost := Run.emitted step abandons (start cfg listeners) is
    (∀ pid ∈ m.children, pid ∈ lost ∨ ∃ i : ℕ, i < m.count ∧ m.pids i = pid) ∧
      (m.children.filter (· ∉ lost)).card ≤ m.count.toNat ∧
      (m.point.Ended → ∀ pid ∈ m.children, pid ∈ lost) := by
  intro m lost
  have h : Tabled m lost := by
    have hrun : Tabled m ([] ++ lost) := Run.Along.emitted_invariant
      (fun _ i _ h _ => h.step i) (Run.along_true (start cfg listeners) is) (.start cfg listeners)
    rwa [List.nil_append] at hrun
  refine ⟨fun pid hpid => (h.tabled pid hpid).imp_right ?_, h.card_le, h.ended⟩
  rintro ⟨i, rfl⟩
  exact ⟨i, h.within i (h.positive _ hpid), rfl⟩

/-- In this run a signal interrupts the `waitpid` for the worker 102 while the master reloads, and
the worker is still there when the listeners are bound again. -/
example : (Run.run step (start twoWorkers [8080]) (quietRun.take 17)).children = {102} ∧
    Run.emitted step abandons (start twoWorkers [8080]) (quietRun.take 17) = [102] := by
  decide +kernel

end Master

end Nproxy
