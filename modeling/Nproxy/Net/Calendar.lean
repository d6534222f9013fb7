import Mathlib.Tactic

/-!
The timing wheel without its links: what it does to its entries.

A `Calendar` has its entries at addresses, each with its bucket, and the entries that a tick
under way has still to look at (`visiting`). A tick turns to the next bucket
(`Calendar.Turn`) and then looks at one entry after the other: it fires, or it moves to the
bucket that comes next; callbacks may add entries all the while (`Calendar.Step`).

The log says what became of every entry. `Calendar.Ledger` ties it to the entries: those that
are active are those that were added and neither fired nor removed, and every event of the log
is in its place (`Timers.Sound`), which is what is wanted of a timer.
-/

namespace Nproxy

/-- What becomes of an entry. `cb` is its number, in the order in which they were added. -/
inductive TimerEvent
  | added (cb : ℕ) (now seconds : ℤ)
  | removed (cb : ℕ)
  | fired (cb : ℕ) (now : ℤ)
  deriving DecidableEq

/-- The entry an event is about. -/
def TimerEvent.cb : TimerEvent → ℕ
  | .added cb _ _ => cb
  | .removed cb => cb
  | .fired cb _ => cb

namespace Timers

/-- The entry `i` was added, is due at `d`, and has neither fired nor been removed. -/
structure Pending (log : List TimerEvent) (i : ℕ) (d : ℤ) : Prop where
  added : ∃ now seconds, TimerEvent.added i now seconds ∈ log ∧ now + seconds = d
  not_removed : TimerEvent.removed i ∉ log
  not_fired : ∀ now, TimerEvent.fired i now ∉ log

/-- What may happen after a log: a new entry is added, one that is pending is removed, one
that is pending and due fires. -/
def Fits (log : List TimerEvent) : TimerEvent → Prop
  | .added i _ _ => ∀ e ∈ log, e.cb ≠ i
  | .removed i => ∃ d, Pending log i d
  | .fired i now => ∃ d, Pending log i d ∧ d ≤ now

/-- A log whose events all happened when they may. -/
inductive Sound : List TimerEvent → Prop
  | nil : Sound []
  | snoc {log : List TimerEvent} {e : TimerEvent} (h : Sound log) (he : Fits log e) :
      Sound (log ++ [e])

variable {log : List TimerEvent} {e : TimerEvent} {i j : ℕ} {d now seconds : ℤ}

/-- Every event of a sound log fits the part in front of it. -/
lemma Sound.fits (h : Sound log) {done todo : List TimerEvent} (hlog : log = done ++ e :: todo) :
    Fits done e := by
  induction h generalizing todo with
  | nil => simp at hlog
  | @snoc log e' h he ih =>
    rcases List.eq_nil_or_concat todo with rfl | ⟨todo', e'', rfl⟩
    · obtain ⟨rfl, he'⟩ := List.append_inj' hlog rfl
      obtain rfl := List.singleton_inj.mp he'
      exact he
    · rw [List.concat_eq_append, ← List.cons_append, ← List.append_assoc] at hlog
      exact ih (List.append_inj' hlog rfl).1

lemma pending_added_iff (hnew : ∀ e ∈ log, e.cb ≠ j) :
    Pending (log ++ [.added j now seconds]) i d ↔
      Pending log i d ∨ i = j ∧ now + seconds = d := by
  constructor
  · rintro ⟨⟨now', seconds', hadded, hd⟩, hremoved, hfired⟩
    rcases List.mem_append.mp hadded with hold | hnew'
    · exact Or.inl ⟨⟨now', seconds', hold, hd⟩, fun h => hremoved (by simp [h]),
        fun t h => hfired t (by simp [h])⟩
    · simp only [List.mem_singleton, TimerEvent.added.injEq] at hnew'
      obtain ⟨rfl, rfl, rfl⟩ := hnew'
      exact Or.inr ⟨rfl, hd⟩
  · rintro (⟨⟨now', seconds', hadded, hd⟩, hremoved, hfired⟩ | ⟨rfl, rfl⟩)
    · exact ⟨⟨now', seconds', by simp [hadded], hd⟩, by simpa using hremoved,
        fun t => by simpa using hfired t⟩
    · refine ⟨⟨now, seconds, by simp, rfl⟩, fun h => ?_, fun t h => ?_⟩
      · exact hnew _ (by simpa using h) rfl
      · exact hnew _ (by simpa using h) rfl

lemma pending_removed_iff :
    Pending (log ++ [.removed j]) i d ↔ Pending log i d ∧ i ≠ j := by
  constructor
  · rintro ⟨⟨now', seconds', hadded, hd⟩, hremoved, hfired⟩
    refine ⟨⟨⟨now', seconds', by simpa using hadded, hd⟩, fun h => hremoved (by simp [h]),
      fun t h => hfired t (by simp [h])⟩, ?_⟩
    rintro rfl
    exact hremoved (by simp)
  · rintro ⟨⟨⟨now', seconds', hadded, hd⟩, hremoved, hfired⟩, hne⟩
    exact ⟨⟨now', seconds', by simp [hadded], hd⟩, by simp [hremoved, hne],
      fun t => by simpa using hfired t⟩

lemma pending_fired_iff :
    Pending (log ++ [.fired j now]) i d ↔ Pending log i d ∧ i ≠ j := by
  constructor
  · rintro ⟨⟨now', seconds', hadded, hd⟩, hremoved, hfired⟩
    refine ⟨⟨⟨now', seconds', by simpa using hadded, hd⟩, fun h => hremoved (by simp [h]),
      fun t h => hfired t (by simp [h])⟩, ?_⟩
    rintro rfl
    exact hfired now (by simp)
  · rintro ⟨⟨⟨now', seconds', hadded, hd⟩, hremoved, hfired⟩, hne⟩
    exact ⟨⟨now', seconds', by simp [hadded], hd⟩, by simpa using hremoved,
      fun t => by simp [hfired t, hne]⟩

end Timers

/-! ### The calendar -/

/-- An entry without its links. -/
structure Timer where
  cb : ℕ
  deadline : ℤ
  bucket : ℕ
  active : Bool

/-- The wheel without links; `now` is the clock of the tick that is under way. -/
structure Calendar where
  timer : ℕ → Option Timer
  visiting : List ℕ
  now : ℤ
  current : ℕ
  fresh : ℕ
  log : List TimerEvent

namespace Calendar

open Timers

variable {n resolution : ℕ} {ok : ℤ → ℤ → Prop} {k k' : Calendar}

/-- The calendar with another entry, or none, at `a`. -/
def put (k : Calendar) (a : ℕ) (t : Option Timer) : Calendar :=
  { k with timer := Function.update k.timer a t }

/-- The calendar with one more event in its log. -/
def note (k : Calendar) (e : TimerEvent) : Calendar := { k with log := k.log ++ [e] }

/-- What happens between ticks and while a tick goes through its bucket. The clock and the
seconds of an entry that is added are those that `ok` allows. -/
inductive Step (n resolution : ℕ) (ok : ℤ → ℤ → Prop) : Calendar → Calendar → Prop
  | add {k : Calendar} {a : ℕ} {now seconds : ℤ} (hfree : k.timer a = none)
      (hok : ok now seconds) :
      Step n resolution ok k
        { k with
          timer := Function.update k.timer a
            (some ⟨k.fresh, now + seconds, (k.current + (seconds / resolution).toNat) % n, true⟩)
          fresh := k.fresh + 1
          log := k.log ++ [.added k.fresh now seconds] }
  | fire {k : Calendar} {a : ℕ} {l : List ℕ} {t : Timer} (hv : k.visiting = a :: l)
      (ht : k.timer a = some t) (hactive : t.active = true) (hdue : t.deadline ≤ k.now) :
      Step n resolution ok k
        ((k.put a (some { t with active := false })).note (.fired t.cb k.now))
  | drop {k : Calendar} {a : ℕ} {l : List ℕ} {t : Timer} (hv : k.visiting = a :: l)
      (ht : k.timer a = some t) (hactive : t.active = false) :
      Step n resolution ok k { k.put a none with visiting := l }
  | move {k : Calendar} {a : ℕ} {l : List ℕ} {t : Timer} (hv : k.visiting = a :: l)
      (ht : k.timer a = some t) (hactive : t.active = true) (hdue : k.now < t.deadline) :
      Step n resolution ok k
        { k.put a (some { t with bucket := (k.current + 1) % n }) with visiting := l }

/-- A tick begins: it takes the entries of the next bucket. -/
inductive Turn (n : ℕ) (now : ℤ) : Calendar → Calendar → Prop
  | intro {k : Calendar} {l : List ℕ} (hv : k.visiting = [])
      (hl : ∀ a, a ∈ l ↔ ∃ t, k.timer a = some t ∧ t.bucket = (k.current + 1) % n) :
      Turn n now k { k with visiting := l, now := now, current := (k.current + 1) % n }

/-- An entry is removed, between ticks. -/
inductive Remove : Calendar → Calendar → Prop
  | intro {k : Calendar} {a : ℕ} {t : Timer} (hv : k.visiting = []) (ht : k.timer a = some t)
      (hactive : t.active = true) : Remove k ((k.put a none).note (.removed t.cb))

/-! ### The ledger -/

/-- The active entries are those that are pending by the log, and the log is sound. -/
structure Ledger (k : Calendar) : Prop where
  cb_lt : ∀ a t, k.timer a = some t → t.cb < k.fresh
  cb_inj : ∀ a a' t t', k.timer a = some t → k.timer a' = some t' → t.cb = t'.cb → a = a'
  pending : ∀ i d, Pending k.log i d ↔
    ∃ a t, k.timer a = some t ∧ t.active = true ∧ t.cb = i ∧ t.deadline = d
  known : ∀ e ∈ k.log, e.cb < k.fresh
  sound : Sound k.log

section Ledger

variable {a : ℕ} {t : Timer} {t' : Option Timer}

lemma timer_put_eq_some_iff {b : ℕ} {u : Timer} :
    (k.put a t').timer b = some u ↔ b = a ∧ t' = some u ∨ b ≠ a ∧ k.timer b = some u := by
  by_cases hb : b = a
  · subst hb
    simp [put]
  · simp [put, hb]

/-- An entry may change its bucket. -/
lemma Ledger.rebook (h : k.Ledger) (ht : k.timer a = some t) (b : ℕ) :
    (k.put a (some { t with bucket := b })).Ledger := by
  -- every entry has one of the same number, deadline and activity before, and after
  have hback : ∀ c u, (k.put a (some { t with bucket := b })).timer c = some u →
      ∃ v, k.timer c = some v ∧ v.cb = u.cb ∧ v.deadline = u.deadline ∧ v.active = u.active := by
    rintro c u hc
    rcases timer_put_eq_some_iff.mp hc with ⟨rfl, hu⟩ | ⟨-, hu⟩
    · obtain rfl := Option.some.inj hu
      exact ⟨t, ht, rfl, rfl, rfl⟩
    · exact ⟨u, hu, rfl, rfl, rfl⟩
  have hforth : ∀ c v, k.timer c = some v → ∃ u,
      (k.put a (some { t with bucket := b })).timer c = some u ∧
        v.cb = u.cb ∧ v.deadline = u.deadline ∧ v.active = u.active := by
    rintro c v hc
    by_cases hca : c = a
    · subst hca
      obtain rfl := Option.some.inj (ht.symm.trans hc)
      exact ⟨_, timer_put_eq_some_iff.mpr (Or.inl ⟨rfl, rfl⟩), rfl, rfl, rfl⟩
    · exact ⟨v, timer_put_eq_some_iff.mpr (Or.inr ⟨hca, hc⟩), rfl, rfl, rfl⟩
  refine ⟨fun c u hc => ?_, fun c c' u u' hc hc' hcb => ?_, fun i d => (h.pending i d).trans ?_,
    h.known, h.sound⟩
  · obtain ⟨v, hv, hvcb, -⟩ := hback c u hc
    exact hvcb ▸ h.cb_lt c v hv
  · obtain ⟨v, hv, hvcb, -⟩ := hback c u hc
    obtain ⟨v', hv', hvcb', -⟩ := hback c' u' hc'
    exact h.cb_inj c c' v v' hv hv' (hvcb.trans (hcb.trans hvcb'.symm))
  · constructor
    · rintro ⟨c, v, hv, hactive, rfl, rfl⟩
      obtain ⟨u, hu, hcb, hdeadline, hactive'⟩ := hforth c v hv
      exact ⟨c, u, hu, hactive' ▸ hactive, hcb.symm, hdeadline.symm⟩
    · rintro ⟨c, u, hu, hactive, rfl, rfl⟩
      obtain ⟨v, hv, hcb, hdeadline, hactive'⟩ := hback c u hu
      exact ⟨c, v, hv, hactive'.trans hactive, hcb, hdeadline⟩

/-- An entry that is not active any more may go. -/
lemma Ledger.discard (h : k.Ledger) (ht : k.timer a = some t) (hactive : t.active = false) :
    (k.put a none).Ledger := by
  have hback : ∀ c u, (k.put a none).timer c = some u → c ≠ a ∧ k.timer c = some u := by
    rintro c u hc
    rcases timer_put_eq_some_iff.mp hc with ⟨-, hu⟩ | hu
    · cases hu
    · exact hu
  refine ⟨fun c u hc => h.cb_lt c u (hback c u hc).2, fun c c' u u' hc hc' =>
    h.cb_inj c c' u u' (hback c u hc).2 (hback c' u' hc').2,
    fun i d => (h.pending i d).trans ?_, h.known, h.sound⟩
  constructor
  · rintro ⟨c, u, hu, hu', hcb, hd⟩
    refine ⟨c, u, timer_put_eq_some_iff.mpr (Or.inr ⟨?_, hu⟩), hu', hcb, hd⟩
    rintro rfl
    obtain rfl := Option.some.inj (ht.symm.trans hu)
    simp [hactive] at hu'
  · rintro ⟨c, u, hu, hu', hcb, hd⟩
    exact ⟨c, u, (hback c u hu).2, hu', hcb, hd⟩

/-- An active entry retires, with an event that says so: it goes, or stays without being
active. -/
lemma Ledger.retire (h : k.Ledger) (ht : k.timer a = some t) {e : TimerEvent}
    (hcb : e.cb = t.cb) (hfits : Fits k.log e)
    (hpending : ∀ i d, Pending (k.log ++ [e]) i d ↔ Pending k.log i d ∧ i ≠ t.cb)
    (ht' : ∀ u, t' = some u → u.cb = t.cb ∧ u.active = false) : ((k.put a t').note e).Ledger := by
  have hback : ∀ c u, (k.put a t').timer c = some u → ∃ v, k.timer c = some v ∧ v.cb = u.cb := by
    rintro c u hc
    rcases timer_put_eq_some_iff.mp hc with ⟨rfl, hu⟩ | ⟨-, hu⟩
    · exact ⟨t, ht, (ht' u hu).1.symm⟩
    · exact ⟨u, hu, rfl⟩
  refine ⟨fun c u hc => ?_, fun c c' u u' hc hc' hcb => ?_, fun i d => (hpending i d).trans ?_,
    fun e' he' => ?_, h.sound.snoc hfits⟩
  · obtain ⟨v, hv, hvcb⟩ := hback c u hc
    exact hvcb ▸ h.cb_lt c v hv
  · obtain ⟨v, hv, hvcb⟩ := hback c u hc
    obtain ⟨v', hv', hvcb'⟩ := hback c' u' hc'
    exact h.cb_inj c c' v v' hv hv' (hvcb.trans (hcb.trans hvcb'.symm))
  · rw [h.pending]
    constructor
    · rintro ⟨⟨c, u, hu, hactive, rfl, hd⟩, hne⟩
      refine ⟨c, u, timer_put_eq_some_iff.mpr (Or.inr ⟨?_, hu⟩), hactive, rfl, hd⟩
      rintro rfl
      exact hne (congrArg Timer.cb (Option.some.inj (hu.symm.trans ht)))
    · rintro ⟨c, u, hu, hactive, rfl, hd⟩
      rcases timer_put_eq_some_iff.mp hu with ⟨-, hu⟩ | ⟨hca, hu⟩
      · simp [(ht' u hu).2] at hactive
      · exact ⟨⟨c, u, hu, hactive, rfl, hd⟩, fun hcb' => hca (h.cb_inj c a u t hu ht hcb')⟩
  · rcases List.mem_append.mp he' with he' | he'
    · exact h.known e' he'
    · obtain rfl := List.mem_singleton.mp he'
      rw [hcb]
      exact h.cb_lt a t ht

lemma Ledger.add (h : k.Ledger) (hfree : k.timer a = none) (now seconds : ℤ) (b : ℕ) :
    Ledger { k with
      timer := Function.update k.timer a (some ⟨k.fresh, now + seconds, b, true⟩)
      fresh := k.fresh + 1
      log := k.log ++ [.added k.fresh now seconds] } := by
  have hnew : ∀ e ∈ k.log, e.cb ≠ k.fresh := fun e he => (h.known e he).ne
  have hlook : ∀ c u,
      Function.update k.timer a (some ⟨k.fresh, now + seconds, b, true⟩) c = some u ↔
      c = a ∧ u = ⟨k.fresh, now + seconds, b, true⟩ ∨ c ≠ a ∧ k.timer c = some u := by
    rintro c u
    refine (timer_put_eq_some_iff (k := k)).trans ?_
    rw [Option.some.injEq, eq_comm (a := Timer.mk _ _ _ _)]
  refine ⟨fun c u hc => ?_, fun c c' u u' hc hc' hcb => ?_, fun i d =>
    (pending_added_iff hnew).trans ?_, fun e he => ?_, h.sound.snoc hnew⟩
  · rcases (hlook c u).mp hc with ⟨-, rfl⟩ | ⟨-, hu⟩
    · exact Nat.lt_succ_self _
    · exact (h.cb_lt c u hu).trans (Nat.lt_succ_self _)
  · -- the number of the new entry is fresh, so no old entry has it
    rcases (hlook c u).mp hc with ⟨rfl, rfl⟩ | ⟨-, hu⟩ <;>
      rcases (hlook c' u').mp hc' with ⟨rfl, rfl⟩ | ⟨-, hu'⟩
    · rfl
    · exact absurd hcb.symm (h.cb_lt c' u' hu').ne
    · exact absurd hcb (h.cb_lt c u hu).ne
    · exact h.cb_inj c c' u u' hu hu' hcb
  · rw [h.pending]
    constructor
    · rintro (⟨c, u, hu, hactive, hcb, hd⟩ | ⟨rfl, rfl⟩)
      · refine ⟨c, u, (hlook c u).mpr (Or.inr ⟨?_, hu⟩), hactive, hcb, hd⟩
        rintro rfl
        simp [hfree] at hu
      · exact ⟨a, _, (hlook a _).mpr (Or.inl ⟨rfl, rfl⟩), rfl, rfl, rfl⟩
    · rintro ⟨c, u, hu, hactive, hcb, hd⟩
      rcases (hlook c u).mp hu with ⟨-, rfl⟩ | ⟨-, hu⟩
      · exact Or.inr ⟨hcb.symm, hd⟩
      · exact Or.inl ⟨c, u, hu, hactive, hcb, hd⟩
  · rcases List.mem_append.mp he with he | he
    · exact (h.known e he).trans (Nat.lt_succ_self _)
    · obtain rfl := List.mem_singleton.mp he
      exact Nat.lt_succ_self _

lemma Ledger.pending_of_active (h : k.Ledger) (ht : k.timer a = some t)
    (hactive : t.active = true) : Pending k.log t.cb t.deadline :=
  (h.pending _ _).mpr ⟨a, t, ht, hactive, rfl, rfl⟩

/-- **The steps keep the ledger**: what is pending by the log is what the calendar holds. -/
lemma Ledger.step (h : k.Ledger) (hstep : Step n resolution ok k k') : k'.Ledger := by
  cases hstep with
  | add hfree hok => exact h.add hfree _ _ _
  | @fire a l t hv ht hactive hdue =>
    refine h.retire ht rfl ⟨_, h.pending_of_active ht hactive, hdue⟩
      (fun i d => pending_fired_iff) ?_
    rintro u hu
    obtain rfl := Option.some.inj hu
    exact ⟨rfl, rfl⟩
  | drop hv ht hactive =>
    have hk := h.discard ht hactive
    exact ⟨hk.cb_lt, hk.cb_inj, hk.pending, hk.known, hk.sound⟩
  | move hv ht hactive hdue =>
    have hk := h.rebook ht ((k.current + 1) % n)
    exact ⟨hk.cb_lt, hk.cb_inj, hk.pending, hk.known, hk.sound⟩

lemma Ledger.turn (h : k.Ledger) {now : ℤ} (hturn : Turn n now k k') : k'.Ledger := by
  cases hturn
  exact ⟨h.cb_lt, h.cb_inj, h.pending, h.known, h.sound⟩

lemma Ledger.remove (h : k.Ledger) (hremove : Remove k k') : k'.Ledger := by
  cases hremove with
  | intro hv ht hactive =>
    refine h.retire ht rfl ⟨_, h.pending_of_active ht hactive⟩ (fun i d => pending_removed_iff) ?_
    rintro u hu
    cases hu

end Ledger

end Calendar

end Nproxy
