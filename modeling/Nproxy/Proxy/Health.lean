import Nproxy.Proxy.Balance

/-!
Passive health tracking: what `upstream_release` makes of a sequence of outcomes.

`error_count` is never set back, so a backend is taken out of the rotation by its sixth
error, however many successes came in between, and no success brings it back
(`backend_releases`). `tracksHealth_iff` says for which sequences this is what counting
consecutive errors would do.
-/

namespace Nproxy

/-- An outcome that is recorded for a backend. -/
structure Outcome where
  backend : ℕ
  error : Bool
  deriving DecidableEq, Repr

/-- A new pool after a sequence of calls of `upstream_release`. -/
def releases (cfg : ServerConfig) (os : List Outcome) : UpstreamPool :=
  Run.run (fun p o => upstreamRelease p o.backend o.error) (upstreamPoolCreate cfg) os

/-- The outcomes of one backend; `true` is an error. -/
def outcomesOf (i : ℕ) (os : List Outcome) : List Bool :=
  (os.filter fun o => o.backend = i).map Outcome.error

/-- How many of the most recent outcomes are errors, up to the last success. -/
def errorRun (l : List Bool) : ℕ := (l.reverse.takeWhile id).length

/-- No success comes after an error. -/
def NoRecovery (l : List Bool) : Prop := l.Pairwise fun o o' => o = true → o' = true

instance (l : List Bool) : Decidable (NoRecovery l) := inferInstanceAs (Decidable (l.Pairwise _))

/-! ### Runs of errors -/

@[simp] lemma errorRun_append_error (l : List Bool) : errorRun (l ++ [true]) = errorRun l + 1 := by
  simp [errorRun]

@[simp] lemma errorRun_append_success (l : List Bool) : errorRun (l ++ [false]) = 0 := by
  simp [errorRun]

lemma errorRun_le_count (l : List Bool) : errorRun l ≤ l.count true := by
  induction l using List.reverseRecOn with
  | nil => rfl
  | append_singleton l o ih => cases o <;> simp [ih]

lemma noRecovery_append {l : List Bool} {o : Bool} :
    NoRecovery (l ++ [o]) ↔ NoRecovery l ∧ (o = true ∨ l.count true = 0) := by
  rw [NoRecovery, List.pairwise_append, List.count_eq_zero]
  cases o with
  | true => simp [NoRecovery]
  | false =>
    simp only [List.pairwise_cons, List.not_mem_nil, false_implies, implies_true,
      List.Pairwise.nil, and_self, List.mem_singleton, forall_eq, true_and,
      Bool.false_eq_true, false_or]
    refine and_congr_right fun _ => ⟨fun h hmem => h true hmem rfl, ?_⟩
    rintro h b hb rfl
    exact h hb

/-- All errors are recent exactly if no success comes after one. -/
lemma errorRun_eq_count_iff (l : List Bool) : errorRun l = l.count true ↔ NoRecovery l := by
  induction l using List.reverseRecOn with
  | nil => simp [errorRun, NoRecovery]
  | append_singleton l o ih =>
    rw [noRecovery_append, ← ih]
    have hle := errorRun_le_count l
    cases o with
    | true => simp
    | false =>
      simp only [errorRun_append_success, List.count_append, List.count_singleton,
        Bool.false_eq_true, false_or]
      simp only [beq_iff_eq, Bool.false_eq_true, if_false, Nat.add_zero]
      omega

/-- When more than five errors mean more than five at the end, at every point. -/
lemma forall_prefix_errorRun_iff (l : List Bool) :
    (∀ l', l' <+: l → 5 < l'.count true → 5 < errorRun l') ↔
      l.count true ≤ 5 ∨ NoRecovery l := by
  constructor
  · intro h
    induction l using List.reverseRecOn with
    | nil => exact Or.inl (by simp)
    | append_singleton l o ih =>
      have hself := h _ List.prefix_rfl
      have hle := errorRun_le_count (l ++ [o])
      rcases ih fun l' hl' => h l' (hl'.trans (List.prefix_append l [o])) with hfew | hsorted
      · -- the sixth error: all six are recent, so all errors are
        by_cases hmany : 5 < (l ++ [o]).count true
        · right
          rw [← errorRun_eq_count_iff]
          have hone : (l ++ [o]).count true ≤ l.count true + 1 := by
            rw [List.count_append]
            exact Nat.add_le_add_left (List.count_le_length) _
          have hmost := hself hmany
          omega
        · exact Or.inl (not_lt.mp hmany)
      · rw [noRecovery_append]
        cases o with
        | true => exact Or.inr ⟨hsorted, Or.inl rfl⟩
        | false =>
          -- a success leaves no recent error, so there cannot have been six
          left
          by_contra hmany
          have hmost := hself (not_le.mp hmany)
          rw [errorRun_append_success] at hmost
          omega
  · rintro (hfew | hsorted) l' hl' hmany
    · exact absurd (hl'.sublist.count_le true) (by omega)
    · have hsorted' : NoRecovery l' := List.Pairwise.sublist hl'.sublist hsorted
      rw [(errorRun_eq_count_iff l').mpr hsorted']
      exact hmany

/-! ### What `upstream_release` records -/

lemma outcomesOf_append (i : ℕ) (os : List Outcome) (o : Outcome) :
    outcomesOf i (os ++ [o]) = if o.backend = i then outcomesOf i os ++ [o.error]
      else outcomesOf i os := by
  by_cases h : o.backend = i <;> simp [outcomesOf, h]

lemma releases_append (cfg : ServerConfig) (os : List Outcome) (o : Outcome) :
    releases cfg (os ++ [o]) = upstreamRelease (releases cfg os) o.backend o.error :=
  Run.run_append _ _ os [o]

lemma length_releases (cfg : ServerConfig) (os : List Outcome) :
    (releases cfg os).backends.length = cfg.backends.length := by
  induction os using List.reverseRecOn with
  | nil => simp [releases, upstreamPoolCreate]
  | append_singleton os o ih =>
    rw [releases_append, upstreamRelease, UpstreamPool.length_modify, ih]

/-- What an outcome does to its backend: a success brings it back only if there never was
an error. -/
lemma backend_upstreamRelease {p : UpstreamPool} {i : ℕ} (hi : i < p.backends.length)
    (error : Bool) :
    ((upstreamRelease p i error).backend i).errorCount =
        (p.backend i).errorCount + (if error then 1 else 0) ∧
      (((upstreamRelease p i error).backend i).healthy = false ↔
        if error then (p.backend i).healthy = false ∨ 5 < (p.backend i).errorCount + 1
        else (p.backend i).healthy = false ∧ (p.backend i).errorCount ≠ 0) := by
  rw [upstreamRelease, UpstreamPool.backend_modify_self hi]
  generalize p.backend i = be
  cases error with
  | true =>
    simp only [if_true]
    split <;> split <;> simp_all
  | false =>
    simp only [Bool.false_eq_true, if_false, add_zero]
    split <;> split <;> simp_all

/-- **The health of a backend is a matter of how many errors there were**, in all. -/
lemma backend_releases {cfg : ServerConfig} {i : ℕ} (hi : i < cfg.backends.length)
    (os : List Outcome) :
    ((releases cfg os).backend i).errorCount = (outcomesOf i os).count true ∧
      (((releases cfg os).backend i).healthy = false ↔ 5 < (outcomesOf i os).count true) := by
  induction os using List.reverseRecOn with
  | nil =>
    simp [releases, upstreamPoolCreate, UpstreamPool.backend, outcomesOf, hi]
  | append_singleton os o ih =>
    rw [releases_append, outcomesOf_append]
    by_cases h : o.backend = i
    · obtain ⟨hcount, hhealth⟩ := backend_upstreamRelease
        (by rw [length_releases]; exact hi : i < (releases cfg os).backends.length) o.error
      rw [if_pos h, h, hcount, hhealth, ih.1, ih.2]
      cases o.error with
      | true =>
        simp only [if_true, List.count_append, List.count_singleton_self]
        omega
      | false =>
        simp only [Bool.false_eq_true, if_false, List.count_append, List.count_singleton]
        simp only [beq_iff_eq, Bool.false_eq_true, if_false]
        omega
    · rw [if_neg h, upstreamRelease, UpstreamPool.backend_modify_of_ne (Ne.symm h)]
      exact ih

/-! ### Consecutive errors -/

/-- **Passive health tracking by consecutive errors**, at every point of a sequence of
outcomes: a backend is out of the rotation only after more than five errors in a row, and
any success that is recorded for it leaves it healthy. -/
structure TracksHealth (cfg : ServerConfig) (i : ℕ) (os : List Outcome) : Prop where
  removed : ∀ os', os' <+: os → ((releases cfg os').backend i).healthy = false →
    5 < errorRun (outcomesOf i os')
  recovers : ∀ os', os' ++ [⟨i, false⟩] <+: os →
    ((releases cfg (os' ++ [⟨i, false⟩])).backend i).healthy = true

/-- The points of the sequence, seen by one backend. -/
lemma exists_prefix_outcomesOf {i : ℕ} {os : List Outcome} {l : List Bool}
    (hl : l <+: outcomesOf i os) : ∃ os', os' <+: os ∧ outcomesOf i os' = l := by
  induction os using List.reverseRecOn with
  | nil =>
    exact ⟨[], List.prefix_rfl, (List.prefix_nil.mp hl).symm⟩
  | append_singleton os o ih =>
    by_cases hself : l = outcomesOf i (os ++ [o])
    · exact ⟨os ++ [o], List.prefix_rfl, hself.symm⟩
    · have hl' : l <+: outcomesOf i os := by
        rw [outcomesOf_append] at hl hself
        split at hl
        · rw [if_pos ‹_›] at hself
          exact (List.prefix_concat_iff.mp hl).resolve_left hself
        · exact hl
      obtain ⟨os', hos', heq⟩ := ih hl'
      exact ⟨os', hos'.trans (List.prefix_append os [o]), heq⟩

lemma outcomesOf_mono {i : ℕ} {os os' : List Outcome} (h : os' <+: os) :
    outcomesOf i os' <+: outcomesOf i os := (h.filter _).map _

/-- **When errors are counted as if they were consecutive**: exactly for the sequences in
which a backend has at most five errors, or no success after its first error. -/
theorem tracksHealth_iff (cfg : ServerConfig) (i : ℕ) (hi : i < cfg.backends.length)
    (os : List Outcome) : TracksHealth cfg i os ↔
      (outcomesOf i os).count true ≤ 5 ∨ NoRecovery (outcomesOf i os) := by
  rw [← forall_prefix_errorRun_iff]
  constructor
  · intro h l hl hmany
    obtain ⟨os', hos', rfl⟩ := exists_prefix_outcomesOf hl
    exact h.removed os' hos' ((backend_releases hi os').2.mpr hmany)
  · intro h
    have hremoved : ∀ os', os' <+: os → ((releases cfg os').backend i).healthy = false →
        5 < errorRun (outcomesOf i os') := fun os' hos' hsick =>
      h _ (outcomesOf_mono hos') ((backend_releases hi os').2.mp hsick)
    refine ⟨hremoved, fun os' hos' => ?_⟩
    by_contra hsick
    have hmost := hremoved _ hos' (Bool.eq_false_of_not_eq_true hsick)
    rw [outcomesOf_append, if_pos rfl, errorRun_append_success] at hmost
    omega

/-- A server with two backends. -/
def twoBackends : ServerConfig :=
  { (default : ServerConfig) with
    backends := [⟨bytes "10.0.0.1", 80⟩, ⟨bytes "10.0.0.2", 80⟩] }

/-- A backend that fails seven times in a row is out of the rotation rightly. -/
theorem tracksHealth_iff_outage : NoRecovery (outcomesOf 1 (List.replicate 7 ⟨1, true⟩)) ∧
    TracksHealth twoBackends 1 (List.replicate 7 ⟨1, true⟩) :=
  ⟨by decide, (tracksHealth_iff twoBackends 1 (by decide) _).mpr (Or.inr (by decide))⟩

/-- Six errors with successes in between, and successes after them. -/
def mixedOutcomes : List Outcome :=
  (List.replicate 6 [(⟨0, true⟩ : Outcome), ⟨0, false⟩]).flatten

/-- The backend is out of the rotation although its last outcome was a success, and was
taken out although no two errors were consecutive. -/
theorem mixedOutcomes_removed :
    ((releases twoBackends mixedOutcomes).backend 0).healthy = false ∧
      errorRun (outcomesOf 0 mixedOutcomes) = 0 ∧
      ¬TracksHealth twoBackends 0 mixedOutcomes := by
  refine ⟨by decide +kernel, by decide, fun h => ?_⟩
  have hmost := h.removed mixedOutcomes List.prefix_rfl (by decide +kernel)
  exact absurd hmost (by decide)

end Nproxy
