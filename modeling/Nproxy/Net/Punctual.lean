import Nproxy.Net.Wheel

/-!
The timing wheel when it ticks once a second, with a resolution of one second.

`Calendar.OnTime` is the invariant after `m` ticks: an entry that was added with at least one
second waits in a bucket that the wheel visits at the tick `m + j`, with `j` from `1` to the
number of buckets, and it is not due before that tick. So it is never passed by: if the visit
comes before it is due it moves to the bucket that is visited next, and from then on it is
looked at in every tick. An entry therefore fires in the tick of its deadline
(`timeoutWheel_punctual`).
-/

namespace Nproxy

open Timers Relation TimeoutWheel

namespace Calendar

/-- The entry was added with at least one second. -/
def Prompt (k : Calendar) (i : ℕ) : Prop :=
  ∃ now seconds, TimerEvent.added i now seconds ∈ k.log ∧ 1 ≤ seconds

/-- After `m` ticks, the last of them at `t₀ + m`, no entry is late. -/
structure OnTime (n : ℕ) (t₀ : ℤ) (m : ℕ) (k : Calendar) : Prop where
  current : k.current = m % n
  clock : k.visiting ≠ [] → k.now = t₀ + m
  waiting : ∀ a t, k.timer a = some t → t.active = true → a ∉ k.visiting → k.Prompt t.cb →
    ∃ j, 1 ≤ j ∧ j ≤ n ∧ (m + j) % n = t.bucket ∧ t₀ + m + j ≤ t.deadline
  visited : ∀ a t, k.timer a = some t → t.active = true → a ∈ k.visiting → k.Prompt t.cb →
    t₀ + m ≤ t.deadline
  fired : ∀ i now, TimerEvent.fired i now ∈ k.log → now ≤ t₀ + m ∧
    ∀ start seconds, TimerEvent.added i start seconds ∈ k.log → 1 ≤ seconds →
      now = start + seconds

variable {n m : ℕ} {t₀ : ℤ} {k k' : Calendar}

/-- An active entry is due when the log says. -/
lemma Ledger.deadline_eq (h : k.Ledger) {a : ℕ} {t : Timer} (ht : k.timer a = some t)
    (hactive : t.active = true) {start seconds : ℤ}
    (hadded : TimerEvent.added t.cb start seconds ∈ k.log) : t.deadline = start + seconds := by
  have hpending := h.pending_of_active ht hactive
  obtain ⟨b, u, hu, -, hcb, hd⟩ := (h.pending t.cb (start + seconds)).mp
    ⟨⟨start, seconds, hadded, rfl⟩, hpending.not_removed, hpending.not_fired⟩
  obtain rfl := h.cb_inj a b t u ht hu hcb.symm
  obtain rfl := Option.some.inj (ht.symm.trans hu)
  exact hd

/-- The next visit of the bucket that lies `s` seconds ahead. -/
lemma exists_visit (hn : 1 ≤ n) {s : ℕ} (hs : 1 ≤ s) :
    ∃ j, 1 ≤ j ∧ j ≤ n ∧ j ≤ s ∧ (m + j) % n = (m % n + s) % n := by
  refine ⟨(s - 1) % n + 1, by omega, Nat.mod_lt _ hn, ?_, ?_⟩
  · have := Nat.mod_le (s - 1) n
    omega
  · have hs' : s = s - 1 + 1 := by omega
    calc (m + ((s - 1) % n + 1)) % n = (m + 1 + (s - 1) % n) % n := by congr 1; omega
      _ = (m + 1 + (s - 1)) % n := Nat.add_mod_mod _ _ _
      _ = (m + s) % n := by congr 1; omega
      _ = (m % n + s) % n := (Nat.mod_add_mod _ _ _).symm

lemma OnTime.add (h : OnTime n t₀ m k) (hn : 1 ≤ n) (hledger : k.Ledger) (a : ℕ) (seconds : ℤ) :
    OnTime n t₀ m { k with
      timer := Function.update k.timer a (some ⟨k.fresh, t₀ + m + seconds,
        (k.current + seconds.toNat) % n, true⟩)
      fresh := k.fresh + 1
      log := k.log ++ [.added k.fresh (t₀ + m) seconds] } := by
  have hold : ∀ i start s, i < k.fresh →
      TimerEvent.added i start s ∈ k.log ++ [.added k.fresh (t₀ + m) seconds] →
      TimerEvent.added i start s ∈ k.log := by
    rintro i start s hi hadded
    rcases List.mem_append.mp hadded with hadded | hnew
    · exact hadded
    · simp only [List.mem_singleton, TimerEvent.added.injEq] at hnew
      omega
  have hnew : ∀ start s,
      TimerEvent.added k.fresh start s ∈ k.log ++ [.added k.fresh (t₀ + m) seconds] →
      s = seconds := by
    rintro start s hadded
    rcases List.mem_append.mp hadded with hadded | hnew
    · exact absurd (hledger.known _ hadded) (lt_irrefl _)
    · simp only [List.mem_singleton, TimerEvent.added.injEq] at hnew
      exact hnew.2.2
  have hlook : ∀ b t, Function.update k.timer a (some ⟨k.fresh, t₀ + m + seconds,
      (k.current + seconds.toNat) % n, true⟩) b = some t →
      t = ⟨k.fresh, t₀ + m + seconds, (k.current + seconds.toNat) % n, true⟩ ∨
        k.timer b = some t := by
    rintro b t ht
    rcases (timer_put_eq_some_iff (k := k)).mp ht with ⟨-, ht⟩ | ⟨-, ht⟩
    · exact Or.inl (Option.some.inj ht).symm
    · exact Or.inr ht
  refine ⟨h.current, h.clock, fun b t ht hactive hb hprompt => ?_,
    fun b t ht hactive hb hprompt => ?_, fun i now hi => ?_⟩
  · obtain ⟨start, s, hadded, hs⟩ := hprompt
    rcases hlook b t ht with rfl | ht
    · obtain rfl := hnew start s hadded
      -- the hand comes to the new bucket after at most `s` ticks
      obtain ⟨j, hj, hjn, hjs, hvisit⟩ := exists_visit (m := m) hn (s := s.toNat) (by omega)
      refine ⟨j, hj, hjn, hvisit.trans (by rw [h.current]), ?_⟩
      have : (j : ℤ) ≤ s := by omega
      simp only
      omega
    · exact h.waiting b t ht hactive hb ⟨start, s, hold _ _ _ (hledger.cb_lt b t ht) hadded, hs⟩
  · obtain ⟨start, s, hadded, hs⟩ := hprompt
    rcases hlook b t ht with rfl | ht
    · obtain rfl := hnew start s hadded
      simp only
      omega
    · exact h.visited b t ht hactive hb ⟨start, s, hold _ _ _ (hledger.cb_lt b t ht) hadded, hs⟩
  · have hi' : TimerEvent.fired i now ∈ k.log := by simpa using hi
    refine ⟨(h.fired i now hi').1, fun start s hadded => ?_⟩
    exact (h.fired i now hi').2 start s (hold i start s (hledger.known _ hi') hadded)

/-- The log gets an event that adds nothing. -/
lemma prompt_note_iff {e : TimerEvent} (he : ∀ i now seconds, e ≠ .added i now seconds) (i : ℕ) :
    (k.note e).Prompt i ↔ k.Prompt i := by
  have hmem : ∀ now seconds, TimerEvent.added i now seconds ∈ (k.note e).log ↔
      TimerEvent.added i now seconds ∈ k.log := by
    rintro now seconds
    simp [note, (he i now seconds).symm]
  simp only [Prompt, hmem]

lemma OnTime.fire (h : OnTime n t₀ m k) (hledger : k.Ledger) {a : ℕ} {l : List ℕ} {t : Timer}
    (hv : k.visiting = a :: l) (ht : k.timer a = some t) (hactive : t.active = true)
    (hdue : t.deadline ≤ k.now) :
    OnTime n t₀ m ((k.put a (some { t with active := false })).note (.fired t.cb k.now)) := by
  have hnow : k.now = t₀ + m := h.clock (by simp [hv])
  have hprompt : ∀ i,
      ((k.put a (some { t with active := false })).note (.fired t.cb k.now)).Prompt i ↔
      k.Prompt i := fun i => prompt_note_iff (by simp) i
  have hlook : ∀ b u, (k.put a (some { t with active := false })).timer b = some u →
      u.active = true → k.timer b = some u := by
    rintro b u hu hua
    rcases timer_put_eq_some_iff.mp hu with ⟨-, hu⟩ | ⟨-, hu⟩
    · obtain rfl := Option.some.inj hu
      cases hua
    · exact hu
  refine ⟨h.current, h.clock,
    fun b u hu hua hb hp => h.waiting b u (hlook b u hu hua) hua hb ((hprompt _).mp hp),
    fun b u hu hua hb hp => h.visited b u (hlook b u hu hua) hua hb ((hprompt _).mp hp),
    fun i now hi => ?_⟩
  have hadded : ∀ start seconds, TimerEvent.added i start seconds ∈ k.log ++ [.fired t.cb k.now] →
      TimerEvent.added i start seconds ∈ k.log := fun start seconds ha => by simpa using ha
  rcases List.mem_append.mp hi with hi | hi
  · exact ⟨(h.fired i now hi).1, fun start seconds ha => (h.fired i now hi).2 start seconds
      (hadded start seconds ha)⟩
  · -- the one that fires now: it is not due before this tick, and it is due
    simp only [List.mem_singleton, TimerEvent.fired.injEq] at hi
    obtain ⟨rfl, rfl⟩ := hi
    refine ⟨hnow.le, fun start seconds ha hs => ?_⟩
    have hd := hledger.deadline_eq ht hactive (hadded start seconds ha)
    have hlate := h.visited a t ht hactive (by simp [hv]) ⟨start, seconds, hadded _ _ ha, hs⟩
    omega

/-- The steps between two ticks, and within a tick, keep all entries in time. -/
lemma OnTime.step (h : OnTime n t₀ m k) (hn : 1 ≤ n) (hledger : k.Ledger)
    (hstep : Step n 1 (fun now _ => now = t₀ + m) k k') : OnTime n t₀ m k' := by
  cases hstep with
  | @add a now seconds hfree hok =>
    obtain rfl := hok
    simpa using h.add hn hledger a seconds
  | fire hv ht hactive hdue => exact h.fire hledger hv ht hactive hdue
  | @drop a l t hv ht hactive =>
    have hlook : ∀ b u, (k.put a none).timer b = some u → b ≠ a ∧ k.timer b = some u := by
      rintro b u hu
      rcases timer_put_eq_some_iff.mp hu with ⟨-, hu⟩ | hu
      · cases hu
      · exact hu
    refine ⟨h.current, fun _ => h.clock (by simp [hv]), fun b u hu hua hb hp => ?_,
      fun b u hu hua hb hp => ?_, h.fired⟩
    · obtain ⟨hba, hu⟩ := hlook b u hu
      exact h.waiting b u hu hua (by rw [hv, List.mem_cons]; exact not_or.mpr ⟨hba, hb⟩) hp
    · exact h.visited b u (hlook b u hu).2 hua (by rw [hv]; exact List.mem_cons_of_mem a hb) hp
  | @move a l t hv ht hactive hdue =>
    have hnow : k.now = t₀ + m := h.clock (by simp [hv])
    have hlook : ∀ b u,
        (k.put a (some { t with bucket := (k.current + 1) % n })).timer b = some u →
        u = { t with bucket := (k.current + 1) % n } ∨ b ≠ a ∧ k.timer b = some u := by
      rintro b u hu
      rcases timer_put_eq_some_iff.mp hu with ⟨-, hu⟩ | hu
      · exact Or.inl (Option.some.inj hu).symm
      · exact Or.inr hu
    refine ⟨h.current, fun _ => hnow, fun b u hu hua hb hp => ?_, fun b u hu hua hb hp => ?_,
      h.fired⟩
    · rcases hlook b u hu with rfl | ⟨hba, hu⟩
      · -- the next bucket is visited in the next tick, and the entry is not due before
        refine ⟨1, le_rfl, hn, ?_, ?_⟩
        · show (m + 1) % n = (k.current + 1) % n
          rw [h.current, Nat.mod_add_mod]
        · show t₀ + m + (1 : ℕ) ≤ t.deadline
          omega
      · exact h.waiting b u hu hua (by rw [hv, List.mem_cons]; exact not_or.mpr ⟨hba, hb⟩) hp
    · rcases hlook b u hu with rfl | ⟨hba, hu⟩
      · show t₀ + m ≤ t.deadline
        omega
      · exact h.visited b u hu hua (by rw [hv]; exact List.mem_cons_of_mem a hb) hp

/-- **The next tick begins**: it takes out the entries that would be late after it. -/
lemma OnTime.turn (h : OnTime n t₀ m k) (hturn : Turn n (t₀ + (m + 1 : ℕ)) k k') :
    OnTime n t₀ (m + 1) k' := by
  cases hturn with
  | @intro l hv hl =>
    have hcurrent : (k.current + 1) % n = (m + 1) % n := by rw [h.current, Nat.mod_add_mod]
    have hwait : ∀ a t, k.timer a = some t → t.active = true → k.Prompt t.cb →
        ∃ j, 1 ≤ j ∧ j ≤ n ∧ (m + j) % n = t.bucket ∧ t₀ + m + j ≤ t.deadline :=
      fun a t ht hactive hp => h.waiting a t ht hactive (by simp [hv]) hp
    refine ⟨hcurrent, fun _ => rfl, fun a t ht hactive ha hp => ?_,
      fun a t ht hactive ha hp => ?_, fun i now hi => ⟨?_, (h.fired i now hi).2⟩⟩
    · obtain ⟨j, hj, hjn, hvisit, hd⟩ := hwait a t ht hactive hp
      have hj1 : j ≠ 1 := by
        rintro rfl
        exact ha ((hl a).mpr ⟨t, ht, hvisit.symm.trans hcurrent.symm⟩)
      refine ⟨j - 1, by omega, by omega, ?_, by omega⟩
      rw [show m + 1 + (j - 1) = m + j by omega, hvisit]
    · obtain ⟨j, hj, hjn, hvisit, hd⟩ := hwait a t ht hactive hp
      omega
    · have := (h.fired i now hi).1
      omega

lemma OnTime.remove (h : OnTime n t₀ m k) (hremove : Remove k k') : OnTime n t₀ m k' := by
  cases hremove with
  | @intro a t hv ht hactive =>
    have hprompt : ∀ i, ((k.put a none).note (.removed t.cb)).Prompt i ↔ k.Prompt i :=
      fun i => prompt_note_iff (by simp) i
    have hlook : ∀ b u, (k.put a none).timer b = some u → k.timer b = some u := by
      rintro b u hu
      rcases timer_put_eq_some_iff.mp hu with ⟨-, hu⟩ | ⟨-, hu⟩
      · cases hu
      · exact hu
    refine ⟨h.current, h.clock,
      fun b u hu hua hb hp => h.waiting b u (hlook b u hu) hua hb ((hprompt _).mp hp),
      fun b u hu hua hb hp => h.visited b u (hlook b u hu) hua hb ((hprompt _).mp hp),
      fun i now hi => ?_⟩
    have hi' : TimerEvent.fired i now ∈ k.log := by simpa [note, put] using hi
    exact ⟨(h.fired i now hi').1, fun start seconds ha =>
      (h.fired i now hi').2 start seconds (by simpa [note, put] using ha)⟩

end Calendar

/-! ### Runs that tick once a second -/

/-- After `m` ticks the clock stands at `t₀ + m`: that is what `time(NULL)` returns between
ticks, and the next tick and its callbacks find it at `t₀ + m + 1`. -/
def OnSchedule (t₀ : ℤ) : ℕ → List WheelOp → Prop
  | _, [] => True
  | m, .add c :: ops => c.now = t₀ + m ∧ OnSchedule t₀ m ops
  | m, .remove _ :: ops => OnSchedule t₀ m ops
  | m, .tick now cbs :: ops => now = t₀ + (m + 1 : ℕ) ∧
      (∀ i, ∀ c ∈ cbs i, c.now = t₀ + (m + 1 : ℕ)) ∧ OnSchedule t₀ (m + 1) ops

/-- The ticks of a run. -/
def ticks : List WheelOp → ℕ
  | [] => 0
  | .tick _ _ :: ops => ticks ops + 1
  | _ :: ops => ticks ops

/-- After `k` ticks: an entry added at `t₀ + m` with `s` seconds and not removed has fired if
and only if the tick `m + s` is among them, and it has fired in that tick. -/
def TimeoutWheel.Punctual (w : TimeoutWheel) (t₀ : ℤ) (k : ℕ) : Prop :=
  ∀ (i m : ℕ) (s : ℤ), TimerEvent.added i (t₀ + m) s ∈ w.log → 1 ≤ s →
    TimerEvent.removed i ∉ w.log →
    ((∃ now, TimerEvent.fired i now ∈ w.log) ↔ m + s ≤ k) ∧
      ∀ now, TimerEvent.fired i now ∈ w.log → now = t₀ + (m + s)

/-- The invariant of such a run after `m` ticks. -/
structure TimeoutWheel.Timely (w : TimeoutWheel) (t₀ : ℤ) (m : ℕ) : Prop where
  good : w.Good
  resolution : w.resolution = 1
  onTime : (w.calendar [] 0).OnTime w.nbuckets t₀ m

variable {w w' : TimeoutWheel} {t₀ : ℤ} {m : ℕ}

lemma onTime_steps {n : ℕ} (hn : 1 ≤ n) {k k' : Calendar} (h : k.OnTime n t₀ m)
    (hledger : k.Ledger)
    (hsteps : ReflTransGen (Calendar.Step n 1 fun now _ => now = t₀ + m) k k') :
    k'.OnTime n t₀ m := by
  induction hsteps with
  | refl => exact h
  | tail hsteps hstep ih => exact ih.step hn (hledger.steps hsteps) hstep

/-- A tick that has nothing left to look at leaves no trace of its clock. -/
lemma onTime_calendar {n : ℕ} {now : ℤ} (h : (w.calendar [] now).OnTime n t₀ m) :
    (w.calendar [] 0).OnTime n t₀ m :=
  ⟨h.current, fun hv => absurd rfl hv, h.waiting, h.visited, h.fired⟩

lemma timely_create {n : ℕ} (hn : 1 ≤ n) (t₀ : ℤ) : (timeoutWheelCreate n 1).Timely t₀ 0 := by
  refine ⟨good_create hn le_rfl, rfl, (Nat.zero_mod n).symm, fun hv => absurd rfl hv, ?_, ?_, ?_⟩
  · rintro a t ht
    cases ht
  · rintro a t ht
    cases ht
  · rintro i now hi
    cases hi

lemma TimeoutWheel.Timely.pos (h : w.Timely t₀ m) : 1 ≤ w.nbuckets :=
  (Nat.zero_le _).trans_lt h.good.wf.current_lt

lemma TimeoutWheel.Timely.add (h : w.Timely t₀ m) {c : AddCall}
    (hfits : c.Fits w.current w.resolution) (hclock : c.now = t₀ + m) :
    ∃ w', w.step (.add c) = some w' ∧ w'.Timely t₀ m := by
  obtain ⟨r, w', hw', href, -⟩ := timeoutAdd_refines (fun now _ => now = t₀ + m) 0 h.good.wf
    hfits hclock
  refine ⟨w', by simp [TimeoutWheel.step, hw'], ⟨href.wf, h.good.ledger.steps href.steps⟩,
    href.resolution.trans h.resolution, ?_⟩
  have hsteps := href.steps
  rw [h.resolution] at hsteps
  rw [href.nbuckets]
  exact onTime_steps h.pos h.onTime h.good.ledger hsteps

lemma TimeoutWheel.Timely.remove (h : w.Timely t₀ m) {a : ℕ} {e : TimeoutEntry}
    (he : w.heap a = some e) : ∃ w', w.step (.remove a) = some w' ∧ w'.Timely t₀ m := by
  obtain ⟨w', hw', hwf, hn, hresolution, -, hremove⟩ := timeoutRemove_refines 0 h.good.wf he
  refine ⟨w', hw', ⟨hwf, h.good.ledger.remove hremove⟩, hresolution.trans h.resolution, ?_⟩
  rw [hn]
  exact h.onTime.remove hremove

lemma TimeoutWheel.Timely.tick (h : w.Timely t₀ m) {cbs : ℕ → List AddCall}
    (hfits : ∀ i, ∀ c ∈ cbs i, c.Fits ((w.current + 1) % w.nbuckets) w.resolution)
    (hclock : ∀ i, ∀ c ∈ cbs i, c.now = t₀ + (m + 1 : ℕ)) :
    ∃ w', w.step (.tick (t₀ + (m + 1 : ℕ)) cbs) = some w' ∧ w'.Timely t₀ (m + 1) := by
  obtain ⟨w', hw', hwf, hn, hresolution, -, k, hturn, hsteps⟩ :=
    timeoutTick_refines (fun now _ => now = t₀ + (m + 1 : ℕ)) (t₀ + (m + 1 : ℕ))
      h.good.wf h.good.ledger hfits hclock
  have hledger := h.good.ledger.turn hturn
  refine ⟨w', hw', ⟨hwf, ledger_calendar (hledger.steps hsteps)⟩,
    hresolution.trans h.resolution, ?_⟩
  rw [h.resolution] at hsteps
  rw [hn]
  exact onTime_calendar (onTime_steps h.pos (h.onTime.turn hturn) hledger hsteps)

/-- **Runs on schedule are timely**, if their calls are legal: there is a tick in each second. -/
lemma TimeoutWheel.Timely.run (h : w.Timely t₀ m) {ops : List WheelOp}
    (hclock : OnSchedule t₀ m ops) (hlegal : w.LegalRun ops) :
    ∃ w', w.run ops = some w' ∧ w'.Timely t₀ (m + ticks ops) := by
  induction ops generalizing w m with
  | nil => exact ⟨w, rfl, h⟩
  | cons op ops ih =>
    have hop := hlegal.1 w rfl
    -- one call, then the rest of the run from what it leaves
    have hgo : ∀ w₁ m₁, w.step op = some w₁ → w₁.Timely t₀ m₁ → OnSchedule t₀ m₁ ops →
        ∃ w', w.run (op :: ops) = some w' ∧ w'.Timely t₀ (m₁ + ticks ops) := by
      rintro w₁ m₁ hw₁ h₁ hclock₁
      obtain ⟨w', hw', h'⟩ := ih h₁ hclock₁ (hlegal.tail hw₁)
      exact ⟨w', (run_cons ops hw₁).trans hw', h'⟩
    cases op with
    | add c =>
      obtain ⟨hnow, hclock⟩ := hclock
      obtain ⟨w₁, hw₁, h₁⟩ := h.add hop hnow
      exact hgo w₁ m hw₁ h₁ hclock
    | remove a =>
      obtain ⟨e, he⟩ := hop
      obtain ⟨w₁, hw₁, h₁⟩ := h.remove he
      exact hgo w₁ m hw₁ h₁ hclock
    | tick now cbs =>
      obtain ⟨rfl, hcbs, hclock⟩ := hclock
      obtain ⟨w₁, hw₁, h₁⟩ := h.tick hop hcbs
      obtain ⟨w', hw', h'⟩ := hgo w₁ (m + 1) hw₁ h₁ hclock
      refine ⟨w', hw', ?_⟩
      rwa [ticks, show m + (ticks ops + 1) = m + 1 + ticks ops by omega]

lemma TimeoutWheel.Timely.punctual {k : ℕ} (h : w.Timely t₀ k) : w.Punctual t₀ k := by
  rintro i m s hadded hs hremoved
  have hfired : ∀ now, TimerEvent.fired i now ∈ w.log → now = t₀ + (m + s) := by
    rintro now hi
    have hnow := (h.onTime.fired i now hi).2 _ s hadded hs
    omega
  refine ⟨⟨?_, fun hle => ?_⟩, hfired⟩
  · rintro ⟨now, hi⟩
    have hle := (h.onTime.fired i now hi).1
    have hnow := hfired now hi
    omega
  · -- an entry that has not fired waits for a tick to come
    by_contra hnone
    obtain ⟨a, t, ht, hactive, rfl, hd⟩ := (h.good.ledger.pending i (t₀ + m + s)).mp
      ⟨⟨_, s, hadded, rfl⟩, hremoved, fun now hi => hnone ⟨now, hi⟩⟩
    obtain ⟨j, hj, -, -, hlate⟩ := h.onTime.waiting a t ht hactive (by simp [calendar])
      ⟨_, s, hadded, hs⟩
    omega

/-- **Punctuality**: a wheel of resolution one that ticks once a second fires every entry that
was added after `m` ticks with `s ≥ 1` seconds, and is not removed, in the tick `m + s`, if no
call of `timeout_add` overflows the sum of the current bucket and the seconds. -/
theorem timeoutWheel_punctual (n : ℕ) (hn : 1 ≤ n) (t₀ : ℤ) (ops : List WheelOp)
    (hclock : OnSchedule t₀ 0 ops) (hlegal : (timeoutWheelCreate n 1).LegalRun ops) :
    ∃ w, (timeoutWheelCreate n 1).run ops = some w ∧ w.Punctual t₀ (ticks ops) := by
  obtain ⟨w, hw, h⟩ := (timely_create hn t₀).run hclock hlegal
  rw [Nat.zero_add] at h
  exact ⟨w, hw, h.punctual⟩

/-- Two buckets, and an entry of three seconds: it is passed by in the first tick, moved, and
fires in the third. -/
theorem timeoutWheel_punctual_threeSeconds :
    ∃ w, (timeoutWheelCreate 2 1).run
        [.add ⟨3, 0, some 7⟩, .tick 1 fun _ => [], .tick 2 fun _ => [], .tick 3 fun _ => []] =
          some w ∧ w.Punctual 0 3 := by
  refine timeoutWheel_punctual 2 (by decide) 0 _ ?_ ⟨?_, ?_, ?_, ?_, trivial⟩
  · simp [OnSchedule]
  · rintro w hw
    obtain rfl := Option.some.inj hw
    exact ⟨by decide, by decide⟩
  all_goals
    rintro w -
    exact fun _ c hc => absurd hc List.not_mem_nil

/-- The wheel of a worker, after two ticks: `timeout_add` with the longest time an `int` can
hold adds `2` to it, which overflows. -/
theorem longTimeout_overflows :
    OnSchedule 0 0 [.tick 1 fun _ => [], .tick 2 fun _ => [], .add ⟨2147483647, 2, some 7⟩] ∧
    ¬ ∃ w, (timeoutWheelCreate 512 1).run
        [.tick 1 fun _ => [], .tick 2 fun _ => [], .add ⟨2147483647, 2, some 7⟩] = some w ∧
      w.Punctual 0 2 := by
  refine ⟨by simp [OnSchedule], ?_⟩
  rintro ⟨w, hw, -⟩
  have hnone : ((timeoutWheelCreate 512 1).run
      [.tick 1 fun _ => [], .tick 2 fun _ => [], .add ⟨2147483647, 2, some 7⟩]).isNone = true := rfl
  rw [hw] at hnone
  cases hnone

end Nproxy
