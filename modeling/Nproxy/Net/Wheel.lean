import Nproxy.Net.Timeout

/-!
Runs of the timing wheel.

Every operation of `net/timeout.c` has a result on a wheel whose lists are in order, leaves
them in order, and does to the entries what the calendar does (`Refines`): `timeout_add` at
any time, also from a callback (`timeoutAdd_refines`), `timeout_remove` of an entry
(`timeoutRemove_refines`), and `timeout_tick` with all the callbacks it runs
(`timeoutTick_refines`). What the calendar keeps, the wheel keeps.
-/

namespace Nproxy

open Chain DList Timers Relation

namespace TimeoutWheel

/-- The wheel between the rounds of a tick that has still to look at `out`. -/
structure Wf (w : TimeoutWheel) (out : List ℕ) : Prop where
  links : ∃ lists, w.Links out lists
  nodup : out.Nodup
  current_lt : w.current < w.nbuckets
  resolution_pos : 0 < w.resolution

/-- From `w` to `w'` the wheel does what the calendar may do, while the tick at `now` gets from
`out` to `out'`; what is left to look at stays a list. -/
structure Refines (ok : ℤ → ℤ → Prop) (now : ℤ) (w : TimeoutWheel) (out : List ℕ)
    (w' : TimeoutWheel) (out' : List ℕ) : Prop where
  wf : w'.Wf out'
  steps : ReflTransGen (Calendar.Step w.nbuckets w.resolution ok) (w.calendar out now)
    (w'.calendar out' now)
  nbuckets : w'.nbuckets = w.nbuckets
  resolution : w'.resolution = w.resolution
  current : w'.current = w.current
  next : ∀ a ∈ out', w'.next a = w.next a

variable {ok : ℤ → ℤ → Prop} {now : ℤ} {w w' w'' : TimeoutWheel} {out out' out'' : List ℕ}

lemma Refines.refl (h : w.Wf out) : Refines ok now w out w out :=
  ⟨h, ReflTransGen.refl, rfl, rfl, rfl, fun _ _ => rfl⟩

lemma Refines.trans (h : Refines ok now w out w' out') (h' : Refines ok now w' out' w'' out'')
    (hsub : out'' ⊆ out') : Refines ok now w out w'' out'' := by
  refine ⟨h'.wf, h.steps.trans ?_, h'.nbuckets.trans h.nbuckets,
    h'.resolution.trans h.resolution, h'.current.trans h.current,
    fun a ha => (h'.next a ha).trans (h.next a (hsub ha))⟩
  have hsteps := h'.steps
  rwa [h.nbuckets, h.resolution] at hsteps

end TimeoutWheel

open TimeoutWheel

variable {ok : ℤ → ℤ → Prop} {now : ℤ} {w w' : TimeoutWheel} {out : List ℕ}

/-! ### `timeout_add` -/

/-- The call is one that the wheel takes when it stands at `current`: the seconds are not
negative, and the sum does not overflow. -/
def AddCall.Fits (c : AddCall) (current resolution : ℕ) : Prop :=
  0 ≤ c.seconds ∧ (current : ℤ) + c.seconds / resolution < 2 ^ 31

lemma slotFor_eq {c : AddCall} (h : c.Fits w.current w.resolution) :
    slotFor w c.seconds =
      some ((w.current + (c.seconds / w.resolution).toNat) % w.nbuckets) := by
  obtain ⟨hseconds, hsum⟩ := h
  have hdiv : c.seconds.tdiv w.resolution = c.seconds / w.resolution :=
    Int.tdiv_eq_ediv_of_nonneg hseconds
  have hquot : 0 ≤ c.seconds / (w.resolution : ℤ) := Int.ediv_nonneg hseconds (by positivity)
  have hnonneg : 0 ≤ (w.current : ℤ) + c.seconds / w.resolution := by positivity
  have hmod : ((w.current : ℤ) + c.seconds / w.resolution).tmod w.nbuckets =
      ((w.current : ℤ) + c.seconds / w.resolution) % w.nbuckets :=
    Int.tmod_eq_emod_of_nonneg hnonneg
  have hcast : (w.current : ℤ) + c.seconds / w.resolution =
      ((w.current + (c.seconds / w.resolution).toNat : ℕ) : ℤ) := by
    rw [Nat.cast_add, Int.toNat_of_nonneg hquot]
  rw [slotFor]
  simp only [hdiv, hmod]
  rw [if_neg (by omega), hcast, ← Int.natCast_mod, if_neg (by omega), Int.toNat_natCast]

/-- Entries and lists are not touched by what else is in the wheel. -/
lemma TimeoutWheel.Links.congr {lists : ℕ → List ℕ} (h : w.Links out lists)
    (hheap : w'.heap = w.heap) (hbuckets : w'.buckets = w.buckets)
    (hn : w'.nbuckets = w.nbuckets) : w'.Links out lists := by
  cases w
  cases w'
  subst hheap hbuckets hn
  exact ⟨h.linked, h.mem_iff, h.settled, h.live⟩

variable (ok now)

/-- **`timeout_add` returns, and does what the calendar does**; the other entries stay. -/
lemma timeoutAdd_refines (h : w.Wf out) {c : AddCall} (hfits : c.Fits w.current w.resolution)
    (hok : ok c.now c.seconds) :
    ∃ r w', timeoutAdd w c = some (r, w') ∧ Refines ok now w out w' out ∧
      ∀ a t, w.timer a = some t → w'.timer a = some t := by
  cases hmem : c.mem.filter fun a => (w.heap a).isNone with
  | none =>
    refine ⟨none, w, ?_, Refines.refl h, fun _ _ ht => ht⟩
    simp only [timeoutAdd, hmem]
  | some a =>
    have hfree : w.heap a = none := by
      simpa using (Option.filter_eq_some_iff.mp hmem).2
    obtain ⟨lists, hlinks⟩ := h.links
    have hout : a ∉ out := by
      intro ha
      obtain ⟨t, ht⟩ := hlinks.live a ha
      simp [timer, hfree] at ht
    -- the entry is new, then it is linked
    let e : TimeoutEntry := ⟨w.fresh, c.now + c.seconds, none, none, 0, true⟩
    let slot := (w.current + (c.seconds / w.resolution).toNat) % w.nbuckets
    have hslot : slot < w.nbuckets := Nat.mod_lt _ (by have := h.current_lt; omega)
    have hlinks₁ : (w.poke a e).Links (a :: out) lists :=
      hlinks.poke (Or.inr hfree) fun c => List.mem_cons
    obtain ⟨w₂, hw₂, hlinked⟩ := exists_linked hlinks₁ hslot (e := e) (Function.update_self _ _ _)
      (by simp)
    have hlinks₂ := hlinks₁.link hout hslot rfl hlinked
    have htimer : w₂.timer = Function.update w.timer a
        (some ⟨w.fresh, c.now + c.seconds, slot, true⟩) := by
      rw [hlinked.timer, timer_poke, Function.update_idem]
      rfl
    refine ⟨some a, { w₂ with fresh := w.fresh + 1 }.note (.added w.fresh c.now c.seconds), ?_,
      ⟨⟨⟨_, hlinks₂.congr rfl rfl rfl⟩, h.nodup, ?_, ?_⟩, ReflTransGen.single ?_,
        hlinked.nbuckets, hlinked.resolution, hlinked.current, fun b hb => ?_⟩, fun b t hb => ?_⟩
    · have hlink : linkEntry (w.poke a ⟨w.fresh, c.now + c.seconds, none, none, 0, true⟩) a
          ((w.current + (c.seconds / w.resolution).toNat) % w.nbuckets) = some w₂ := hw₂
      simp [timeoutAdd, hmem, slotFor_eq hfits, hlink]
    · exact (hlinked.current.trans_lt h.current_lt).trans_eq hlinked.nbuckets.symm
    · exact h.resolution_pos.trans_eq hlinked.resolution.symm
    · have hstep : Calendar.Step w.nbuckets w.resolution ok (w.calendar out now) _ :=
        Calendar.Step.add (a := a) (by simp [calendar, timer, hfree]) hok
      convert hstep using 1
      show Calendar.mk w₂.timer out now w₂.current (w.fresh + 1) (w₂.log ++ _) = _
      rw [htimer, hlinked.current, hlinked.log]
      rfl
    · have hba : b ≠ a := fun hba => hout (hba ▸ hb)
      calc w₂.next b = (w.poke a e).next b := by rw [hlinked.next, Function.update_of_ne hba]
        _ = w.next b := by rw [next_poke, Function.update_of_ne hba]
    · have hba : b ≠ a := by
        rintro rfl
        simp [timer, hfree] at hb
      calc w₂.timer b = w.timer b := by rw [htimer, Function.update_of_ne hba]
        _ = some t := hb

lemma runCallback_refines (h : w.Wf out) {cs : List AddCall}
    (hfits : ∀ c ∈ cs, c.Fits w.current w.resolution) (hok : ∀ c ∈ cs, ok c.now c.seconds) :
    ∃ w', runCallback w cs = some w' ∧ Refines ok now w out w' out ∧
      ∀ a t, w.timer a = some t → w'.timer a = some t := by
  induction cs generalizing w with
  | nil => exact ⟨w, rfl, Refines.refl h, fun _ _ ht => ht⟩
  | cons c cs ih =>
    obtain ⟨r, w₁, hw₁, href, hstay⟩ := timeoutAdd_refines ok now h (hfits c (by simp))
      (hok c (by simp))
    obtain ⟨w₂, hw₂, href', hstay'⟩ := ih href.wf
      (fun d hd => by rw [href.current, href.resolution]; exact hfits d (by simp [hd]))
      fun d hd => hok d (by simp [hd])
    refine ⟨w₂, ?_, href.trans href' (List.Subset.refl _),
      fun a t ht => hstay' a t (hstay a t ht)⟩
    simp [runCallback, hw₁, hw₂]

/-! ### `timeout_remove` -/

/-- **`timeout_remove` of an entry returns, and does what the calendar does.** -/
lemma timeoutRemove_refines (h : w.Wf []) {a : ℕ} {e : TimeoutEntry} (he : w.heap a = some e) :
    ∃ w', timeoutRemove w (some a) = some w' ∧ w'.Wf [] ∧ w'.nbuckets = w.nbuckets ∧
      w'.resolution = w.resolution ∧ w'.current = w.current ∧
      Calendar.Remove (w.calendar [] now) (w'.calendar [] now) := by
  obtain ⟨lists, hlinks⟩ := h.links
  obtain ⟨w', hw', hunlinked⟩ := exists_unlinked hlinks he
  obtain ⟨-, hactive⟩ := hlinks.settled a e.timer (timer_eq he) (by simp)
  refine ⟨w', hw', ⟨⟨_, hlinks.unlink he hunlinked⟩, List.nodup_nil, ?_, ?_⟩, hunlinked.nbuckets,
    hunlinked.resolution, hunlinked.current, ?_⟩
  · exact (hunlinked.current.trans_lt h.current_lt).trans_eq hunlinked.nbuckets.symm
  · exact h.resolution_pos.trans_eq hunlinked.resolution.symm
  · have hremove := Calendar.Remove.intro (k := w.calendar [] now) rfl (timer_eq he) hactive
    convert hremove using 1
    show Calendar.mk w'.timer [] now w'.current w'.fresh w'.log = _
    rw [hunlinked.timer, hunlinked.current, hunlinked.fresh, hunlinked.log]
    rfl

/-! ### `timeout_tick` -/

lemma next_free {a b : ℕ} (hb : b ≠ a) : (w.free a).next b = w.next b := by
  simp [TimeoutWheel.next, free, hb]

lemma timer_free (a : ℕ) : (w.free a).timer = Function.update w.timer a none := by
  funext b
  by_cases hb : b = a
  · subst hb
    simp [timer, free]
  · simp [timer, free, hb]

/-- The entry that a tick looks at is not active: it goes. -/
lemma free_refines {a : ℕ} {t : Timer} (h : w.Wf (a :: out)) (ht : w.timer a = some t)
    (hactive : t.active = false) : Refines ok now w (a :: out) (w.free a) out := by
  obtain ⟨lists, hlinks⟩ := h.links
  obtain ⟨ha, hnodup⟩ := List.nodup_cons.mp h.nodup
  have hne : ∀ b ∈ out, b ≠ a := fun b hb hba => ha (hba ▸ hb)
  refine ⟨⟨⟨lists, hlinks.free ha⟩, hnodup, h.current_lt, h.resolution_pos⟩,
    ReflTransGen.single ?_, rfl, rfl, rfl, fun b hb => next_free (hne b hb)⟩
  have hstep : Calendar.Step w.nbuckets w.resolution ok (w.calendar (a :: out) now) _ :=
    Calendar.Step.drop rfl ht hactive
  convert hstep using 1
  show Calendar.mk (w.free a).timer out now w.current w.fresh w.log = _
  rw [timer_free]
  rfl

/-- The entry that a tick looks at is due: it fires. -/
lemma fire_refines {a : ℕ} {e : TimeoutEntry} (h : w.Wf (a :: out)) (he : w.heap a = some e)
    (hactive : e.active = true) (hdue : e.deadline ≤ now) :
    Refines ok now w (a :: out)
      ((w.poke a { e with active := false }).note (.fired e.cb now)) (a :: out) := by
  obtain ⟨lists, hlinks⟩ := h.links
  obtain ⟨ha, -⟩ := List.nodup_cons.mp h.nodup
  have hlinks' : (w.poke a { e with active := false }).Links (a :: out) lists :=
    hlinks.poke (Or.inl (by simp)) fun c => by simp
  refine ⟨⟨⟨lists, hlinks'.congr rfl rfl rfl⟩, h.nodup, h.current_lt, h.resolution_pos⟩,
    ReflTransGen.single ?_, rfl, rfl, rfl, fun b hb => ?_⟩
  · have hstep : Calendar.Step w.nbuckets w.resolution ok (w.calendar (a :: out) now) _ :=
      Calendar.Step.fire rfl (timer_eq he) hactive hdue
    convert hstep using 1
    show Calendar.mk (w.poke a _).timer (a :: out) now w.current w.fresh _ = _
    rw [timer_poke]
    rfl
  · show (w.poke a _).next b = w.next b
    rw [next_poke, ← next_eq he, Function.update_eq_self]

/-- The entry that a tick looks at is not due: it moves on. -/
lemma move_refines {a : ℕ} {e : TimeoutEntry} (h : w.Wf (a :: out)) (he : w.heap a = some e)
    (hactive : e.active = true) (hdue : now < e.deadline) :
    ∃ w', linkEntry w a ((w.current + 1) % w.nbuckets) = some w' ∧
      Refines ok now w (a :: out) w' out := by
  obtain ⟨lists, hlinks⟩ := h.links
  obtain ⟨ha, hnodup⟩ := List.nodup_cons.mp h.nodup
  have hne : ∀ b ∈ out, b ≠ a := fun b hb hba => ha (hba ▸ hb)
  have hslot : (w.current + 1) % w.nbuckets < w.nbuckets :=
    Nat.mod_lt _ (by have := h.current_lt; omega)
  obtain ⟨w', hw', hlinked⟩ := exists_linked hlinks hslot he (by simp)
  refine ⟨w', hw', ⟨⟨_, hlinks.link ha hslot hactive hlinked⟩, hnodup, ?_, ?_⟩,
    ReflTransGen.single ?_, hlinked.nbuckets, hlinked.resolution, hlinked.current,
    fun b hb => ?_⟩
  · exact (hlinked.current.trans_lt h.current_lt).trans_eq hlinked.nbuckets.symm
  · exact h.resolution_pos.trans_eq hlinked.resolution.symm
  · have hstep : Calendar.Step w.nbuckets w.resolution ok (w.calendar (a :: out) now) _ :=
      Calendar.Step.move rfl (timer_eq he) hactive hdue
    convert hstep using 1
    show Calendar.mk w'.timer out now w'.current w'.fresh w'.log = _
    rw [hlinked.timer, hlinked.current, hlinked.fresh, hlinked.log]
    rfl
  · rw [hlinked.next, Function.update_of_ne (hne b hb)]

/-- **The loop of a tick** looks at every entry that was taken out, and ends. -/
lemma tickLoop_refines {cbs : ℕ → List AddCall} {fuel : ℕ} {e : Option ℕ} (h : w.Wf out)
    (hchain : IsChain w.next e out) (hfuel : out.length ≤ fuel)
    (hfits : ∀ i, ∀ c ∈ cbs i, c.Fits w.current w.resolution)
    (hok : ∀ i, ∀ c ∈ cbs i, ok c.now c.seconds) :
    ∃ w', tickLoop now cbs fuel w e = some w' ∧ Refines ok now w out w' [] := by
  induction out generalizing w fuel e with
  | nil =>
    obtain rfl := hchain
    exact ⟨w, by simp [tickLoop], Refines.refl h⟩
  | cons a out ih =>
    obtain ⟨rfl, hrest⟩ := hchain
    obtain ⟨ha, -⟩ := List.nodup_cons.mp h.nodup
    obtain ⟨fuel, rfl⟩ : ∃ m, fuel = m + 1 := ⟨fuel - 1, by rw [List.length_cons] at hfuel; omega⟩
    rw [List.length_cons, Nat.succ_le_succ_iff] at hfuel
    obtain ⟨lists, hlinks⟩ := h.links
    obtain ⟨t, ht⟩ := hlinks.live a (by simp)
    obtain ⟨entry, he, rfl⟩ := exists_entry ht
    -- whatever the entry does, the loop goes on with the rest
    have hgo : ∀ w₁, Refines ok now w (a :: out) w₁ out →
        ∃ w', tickLoop now cbs fuel w₁ entry.next = some w' ∧
          Refines ok now w (a :: out) w' [] := by
      rintro w₁ hw₁
      rw [next_eq he] at hrest
      obtain ⟨w', hw', href⟩ := ih hw₁.wf (hrest.congr hw₁.next) hfuel
        (fun i c hc => by rw [hw₁.current, hw₁.resolution]; exact hfits i c hc)
      exact ⟨w', hw', hw₁.trans href (by simp)⟩
    by_cases hactive : entry.active = true
    · by_cases hdue : entry.deadline ≤ now
      · have hfire := fire_refines ok now h he hactive hdue
        obtain ⟨w₁, hw₁, href, hstay⟩ := runCallback_refines ok now hfire.wf
          (fun c hc => hfits entry.cb c hc) (hok entry.cb)
        have ht₁ : w₁.timer a = some { entry.timer with active := false } := by
          refine hstay a _ ?_
          show (w.poke a _).timer a = _
          rw [timer_poke, Function.update_self]
          rfl
        obtain ⟨w', hw', hdone⟩ := hgo (w₁.free a)
          ((hfire.trans href (List.Subset.refl _)).trans (free_refines ok now href.wf ht₁ rfl)
            (by simp))
        refine ⟨w', ?_, hdone⟩
        simp [tickLoop, he, hactive, hdue, store, hw₁, hw']
      · obtain ⟨w₁, hw₁, href⟩ := move_refines ok now h he hactive (not_le.mp hdue)
        obtain ⟨w', hw', hdone⟩ := hgo w₁ href
        refine ⟨w', ?_, hdone⟩
        simp [tickLoop, he, hactive, hdue, hw₁, hw']
    · obtain ⟨w', hw', hdone⟩ := hgo (w.free a)
        (free_refines ok now h (timer_eq he) (Bool.eq_false_iff.mpr hactive))
      refine ⟨w', ?_, hdone⟩
      simp [tickLoop, he, hactive, hw']

/-- A list of entries is no longer than the number of entries that were ever added. -/
lemma length_le_fresh {k : Calendar} (h : k.Ledger) {l : List ℕ} (hnodup : l.Nodup)
    (hl : ∀ a ∈ l, ∃ t, k.timer a = some t) : l.length ≤ k.fresh := by
  have hmap : ∀ a ∈ l, ((k.timer a).map Timer.cb).getD 0 ∈ Finset.range k.fresh := by
    rintro a ha
    obtain ⟨t, ht⟩ := hl a ha
    simpa [ht] using h.cb_lt a t ht
  have hinj : Set.InjOn (fun a => ((k.timer a).map Timer.cb).getD 0) (l.toFinset : Set ℕ) := by
    rintro a ha b hb hab
    obtain ⟨t, ht⟩ := hl a (by simpa using ha)
    obtain ⟨u, hu⟩ := hl b (by simpa using hb)
    exact h.cb_inj a b t u ht hu (by simpa [ht, hu] using hab)
  calc l.length = l.toFinset.card := (List.toFinset_card_of_nodup hnodup).symm
    _ ≤ (Finset.range k.fresh).card :=
        Finset.card_le_card_of_injOn _ (fun a ha => hmap a (by simpa using ha)) hinj
    _ = k.fresh := Finset.card_range _

/-- **`timeout_tick` returns, and does what the calendar does.** -/
lemma timeoutTick_refines (h : w.Wf []) (hledger : (w.calendar [] 0).Ledger)
    {cbs : ℕ → List AddCall}
    (hfits : ∀ i, ∀ c ∈ cbs i, c.Fits ((w.current + 1) % w.nbuckets) w.resolution)
    (hok : ∀ i, ∀ c ∈ cbs i, ok c.now c.seconds) :
    ∃ w', timeoutTick w now cbs = some w' ∧ w'.Wf [] ∧ w'.nbuckets = w.nbuckets ∧
      w'.resolution = w.resolution ∧ w'.current = (w.current + 1) % w.nbuckets ∧
      ∃ k, Calendar.Turn w.nbuckets now (w.calendar [] 0) k ∧
        ReflTransGen (Calendar.Step w.nbuckets w.resolution ok) k (w'.calendar [] now) := by
  obtain ⟨lists, hlinks⟩ := h.links
  let b := (w.current + 1) % w.nbuckets
  have hb : b < w.nbuckets := Nat.mod_lt _ (by have := h.current_lt; omega)
  have hlist := hlinks.linked b hb
  let w₁ : TimeoutWheel := { w.withHead b none with current := b }
  have hwf : w₁.Wf (lists b) :=
    ⟨⟨_, (hlinks.detach hb).congr rfl rfl rfl⟩, hlist.nodup, hb, h.resolution_pos⟩
  have hmem : ∀ a, a ∈ lists b ↔ ∃ t, w.timer a = some t ∧ t.bucket = b := by
    rintro a
    simpa using hlinks.mem_iff b hb a
  have hfuel : (lists b).length ≤ w.fresh := by
    refine length_le_fresh hledger hlist.nodup fun a ha => ?_
    obtain ⟨t, ht, -⟩ := (hmem a).mp ha
    exact ⟨t, ht⟩
  obtain ⟨w', hw', href⟩ := tickLoop_refines ok now hwf (e := w.buckets b)
    hlist.isChain hfuel hfits hok
  refine ⟨w', ?_, href.wf, href.nbuckets, href.resolution, href.current, w₁.calendar (lists b) now,
    ?_, href.steps⟩
  · have hhead : TimeoutWheel.head { w with current := b } b = some (w.buckets b) := if_pos hb
    have hset : TimeoutWheel.setHead { w with current := b } b none = some w₁ := if_pos hb
    have hrun : timeoutTick w now cbs = (TimeoutWheel.head { w with current := b } b).bind fun e =>
        (TimeoutWheel.setHead { w with current := b } b none).bind fun w =>
          tickLoop now cbs w.fresh w e := rfl
    rw [hrun, hhead, Option.bind_some, hset, Option.bind_some]
    exact hw'
  · exact Calendar.Turn.intro rfl hmem

/-! ### Runs -/

/-- The calls that a run may make in a state of the wheel: `timeout_add`, also from callbacks,
with seconds that are not negative and do not overflow, and `timeout_remove` of an entry. -/
def WheelOp.Legal (w : TimeoutWheel) : WheelOp → Prop
  | .add c => c.Fits w.current w.resolution
  | .remove a => ∃ e, w.heap a = some e
  | .tick _ cbs => ∀ i, ∀ c ∈ cbs i, c.Fits ((w.current + 1) % w.nbuckets) w.resolution

/-- Every call of the run is legal in the state in which it is made. -/
def TimeoutWheel.LegalRun (w : TimeoutWheel) (ops : List WheelOp) : Prop :=
  Run.Along (fun s op => s.bind fun w => w.step op) (fun s op => ∀ w ∈ s, op.Legal w) (some w) ops

lemma TimeoutWheel.LegalRun.tail {op : WheelOp} {ops : List WheelOp} (h : w.LegalRun (op :: ops))
    (hstep : w.step op = some w') : w'.LegalRun ops := by
  have hrest := h.2
  simp only [Option.bind_some, hstep] at hrest
  exact hrest

lemma TimeoutWheel.run_cons {op : WheelOp} (ops : List WheelOp) (hstep : w.step op = some w') :
    w.run (op :: ops) = w'.run ops := by
  simp [TimeoutWheel.run, hstep]

/-- The wheel between two calls. -/
structure TimeoutWheel.Good (w : TimeoutWheel) : Prop where
  wf : w.Wf []
  ledger : (w.calendar [] 0).Ledger

lemma good_create {n resolution : ℕ} (hn : 1 ≤ n) (hresolution : 1 ≤ resolution) :
    (timeoutWheelCreate n resolution).Good := by
  have hempty : ∀ a, (timeoutWheelCreate n resolution).timer a = none := fun _ => rfl
  refine ⟨⟨⟨fun _ => [], fun b _ => rfl, ?_, ?_, by simp⟩, List.nodup_nil, hn, hresolution⟩, ?_⟩
  · simp [hempty]
  · simp [hempty]
  · refine ⟨?_, ?_, fun i d => ⟨fun h => ?_, ?_⟩, ?_, Sound.nil⟩
    · simp [calendar, hempty]
    · simp [calendar, hempty]
    · obtain ⟨now, seconds, hadded, -⟩ := h.added
      cases hadded
    · simp [calendar, hempty]
    · intro e he
      cases he

variable {ok now}

/-- The ledger does not depend on what a tick is doing. -/
lemma ledger_calendar {out out' : List ℕ} {now now' : ℤ} (h : (w.calendar out now).Ledger) :
    (w.calendar out' now').Ledger := ⟨h.cb_lt, h.cb_inj, h.pending, h.known, h.sound⟩

lemma Calendar.Ledger.steps {n resolution : ℕ} {k k' : Calendar} (h : k.Ledger)
    (hsteps : ReflTransGen (Calendar.Step n resolution ok) k k') : k'.Ledger := by
  induction hsteps with
  | refl => exact h
  | tail _ hstep ih => exact ih.step hstep

/-- **A legal call returns and leaves the wheel good.** -/
lemma TimeoutWheel.Good.step (h : w.Good) {op : WheelOp} (hlegal : op.Legal w) :
    ∃ w', w.step op = some w' ∧ w'.Good := by
  cases op with
  | add c =>
    obtain ⟨r, w', hw', href, -⟩ := timeoutAdd_refines (fun _ _ => True) 0 h.wf hlegal trivial
    exact ⟨w', by simp [TimeoutWheel.step, hw'], href.wf, h.ledger.steps href.steps⟩
  | remove a =>
    obtain ⟨e, he⟩ := hlegal
    obtain ⟨w', hw', hwf, -, -, -, hremove⟩ := timeoutRemove_refines 0 h.wf he
    exact ⟨w', hw', hwf, h.ledger.remove hremove⟩
  | tick now cbs =>
    obtain ⟨w', hw', hwf, -, -, -, k, hturn, hsteps⟩ := timeoutTick_refines
      (fun _ _ => True) now h.wf h.ledger hlegal fun _ _ _ => trivial
    exact ⟨w', hw', hwf, ledger_calendar ((h.ledger.turn hturn).steps hsteps)⟩

/-- **A legal run returns and leaves the wheel good.** -/
lemma TimeoutWheel.Good.run (h : w.Good) {ops : List WheelOp} (hlegal : w.LegalRun ops) :
    ∃ w', w.run ops = some w' ∧ w'.Good := by
  refine Run.Along.invariant (P := fun s => ∃ w', s = some w' ∧ w'.Good) ?_ hlegal ⟨w, rfl, h⟩
  rintro _ op ⟨w', rfl, hgood⟩ hop
  exact hgood.step (hop w' rfl)

/-- The lists of the buckets as the entries see them: every entry is on the list of the bucket
it names, once, and on no other; the two pointers are inverse to each other; the first entry of
a list has none in front of it. -/
structure TimeoutWheel.Shaped (w : TimeoutWheel) (lists : ℕ → List ℕ) : Prop where
  chain : ∀ b < w.nbuckets, IsChain w.next (w.buckets b) (lists b)
  bucket_lt : ∀ a e, w.heap a = some e → e.bucket < w.nbuckets
  count_eq : ∀ a e, w.heap a = some e → ∀ b < w.nbuckets,
    (lists b).count a = if b = e.bucket then 1 else 0
  inverse : ∀ a b, w.next a = some b ↔ w.prev b = some a
  head_prev : ∀ b < w.nbuckets, ∀ a, w.buckets b = some a → w.prev a = none

lemma TimeoutWheel.Links.shaped {lists : ℕ → List ℕ} (h : w.Links [] lists) : w.Shaped lists := by
  have hin : ∀ a e, w.heap a = some e → e.bucket < w.nbuckets ∧ a ∈ lists e.bucket := by
    rintro a e he
    have hlt := (h.settled a e.timer (timer_eq he) (by simp)).1
    exact ⟨hlt, (h.mem_iff _ hlt a).mpr ⟨by simp, e.timer, timer_eq he, rfl⟩⟩
  refine ⟨fun b hb => (h.linked b hb).isChain, fun a e he => (hin a e he).1, fun a e he b hb => ?_,
    fun a b => ⟨fun hab => ?_, fun hab => ?_⟩, fun b hb a ha => ?_⟩
  · split
    · rename_i hbe
      subst hbe
      exact List.count_eq_one_of_mem (h.linked _ hb).nodup (hin a e he).2
    · rename_i hbe
      exact List.count_eq_zero_of_not_mem fun ha =>
        hbe (h.apart hb (hin a e he).1 ha (hin a e he).2)
  · obtain ⟨e, he, -⟩ := Option.bind_eq_some_iff.mp hab
    exact ((h.linked _ (hin a e he).1).of_next (hin a e he).2 hab).2
  · obtain ⟨e, he, -⟩ := Option.bind_eq_some_iff.mp hab
    rcases (h.linked _ (hin b e he).1).of_prev (hin b e he).2 with ⟨-, hnone⟩ | ⟨c, -, hc, hnext⟩
    · simp [hnone] at hab
    · obtain rfl := Option.some.inj (hab.symm.trans hc)
      exact hnext
  · exact (ha ▸ h.linked b hb).first.2

/-- **The timing wheel**: every legal run of calls returns. After it, the entries that were
added and neither fired nor removed are those of the heap, each of them on the list of the
bucket that it names and on no other, and the lists are linked both ways. Every event of the
log is in its place: an entry that fires was added, has neither fired nor been removed before,
and is due. -/
theorem timeoutWheel_run (n resolution : ℕ) (hn : 1 ≤ n) (hresolution : 1 ≤ resolution)
    (ops : List WheelOp) (hlegal : (timeoutWheelCreate n resolution).LegalRun ops) :
    ∃ w lists, (timeoutWheelCreate n resolution).run ops = some w ∧ w.Shaped lists ∧
      (∀ i d, Pending w.log i d ↔ ∃ a e, w.heap a = some e ∧ e.cb = i ∧ e.deadline = d) ∧
      (∀ a a' e e', w.heap a = some e → w.heap a' = some e' → e.cb = e'.cb → a = a') ∧
      ∀ done event todo, w.log = done ++ event :: todo → Timers.Fits done event := by
  obtain ⟨w, hw, hgood⟩ := (good_create hn hresolution).run hlegal
  obtain ⟨lists, hlinks⟩ := hgood.wf.links
  refine ⟨w, lists, hw, hlinks.shaped, fun i d => ?_, fun a a' e e' he he' hcb => ?_,
    fun done event todo hlog => hgood.ledger.sound.fits hlog⟩
  · rw [show Pending w.log i d ↔ _ from hgood.ledger.pending i d]
    constructor
    · rintro ⟨a, t, ht, -, rfl, rfl⟩
      obtain ⟨e, he, rfl⟩ := exists_entry ht
      exact ⟨a, e, he, rfl, rfl⟩
    · rintro ⟨a, e, he, rfl, rfl⟩
      exact ⟨a, e.timer, timer_eq he, (hlinks.settled a _ (timer_eq he) (by simp)).2, rfl, rfl⟩
  · exact hgood.ledger.cb_inj a a' e.timer e'.timer (timer_eq he) (timer_eq he') hcb

/-- A wheel of four buckets: an entry is added, a tick passes it by, and it is removed. -/
theorem timeoutWheel_run_removed :
    ∃ w lists, (timeoutWheelCreate 4 1).run
        [.add ⟨2, 100, some 7⟩, .tick 101 fun _ => [], .remove 7] = some w ∧ w.Shaped lists ∧
      (∀ i d, Pending w.log i d ↔ ∃ a e, w.heap a = some e ∧ e.cb = i ∧ e.deadline = d) ∧
      (∀ a a' e e', w.heap a = some e → w.heap a' = some e' → e.cb = e'.cb → a = a') ∧
      ∀ done event todo, w.log = done ++ event :: todo → Timers.Fits done event := by
  refine timeoutWheel_run 4 1 (by decide) (by decide) _ ⟨?_, ?_, ?_, trivial⟩
  · rintro w hw
    obtain rfl := Option.some.inj hw
    exact ⟨by decide, by decide⟩
  · rintro w -
    exact fun _ c hc => absurd hc List.not_mem_nil
  · rintro w hw
    have hheap : (some w).map (fun w => (w.heap 7).isSome) = some true := by
      rw [← show _ = some w from hw]
      rfl
    exact Option.isSome_iff_exists.mp (Option.some.inj hheap)

end Nproxy
