import Nproxy.Lib.DList
import Nproxy.Lib.Run
import Nproxy.Net.Calendar

/-!
`net/timeout.c`: a timing wheel, an array of doubly linked lists of entries.

The heap has the entries that `malloc` has given and `free` has not taken back; an access to
any other address has no result, and neither has a sum that overflows an `int`. A callback is
known by the number of its entry, and it may call `timeout_add`. What becomes of the entries
is noted in a log.

`Links` says that the lists of the buckets are linked both ways and have every entry in the
bucket that it names, apart from those that a tick has taken out. The pieces of the
operations are taken one by one: what they write (`exists_linked`, `exists_unlinked`), and
what becomes of the lists (`Links.link`, `Links.unlink`, `Links.detach`, `Links.free`).
-/

namespace Nproxy

open Chain DList Timers

/-- `timeout_entry_t`; `cb` is the number of the entry and stands for the callback with its
context. -/
structure TimeoutEntry where
  cb : ℕ
  deadline : ℤ
  next : Option ℕ
  prev : Option ℕ
  bucket : ℕ
  active : Bool

/-- `struct timeout_wheel` with the entries, the number of the next one, and the log. -/
structure TimeoutWheel where
  heap : ℕ → Option TimeoutEntry
  buckets : ℕ → Option ℕ
  nbuckets : ℕ
  resolution : ℕ
  current : ℕ
  fresh : ℕ
  log : List TimerEvent

/-- `timeout_wheel_create`. -/
def timeoutWheelCreate (nbuckets resolutionSec : ℕ) : TimeoutWheel :=
  { heap := fun _ => none, buckets := fun _ => none, nbuckets, resolution := resolutionSec,
    current := 0, fresh := 0, log := [] }

namespace TimeoutWheel

/-- The wheel with an entry at an address. -/
def poke (w : TimeoutWheel) (a : ℕ) (e : TimeoutEntry) : TimeoutWheel :=
  { w with heap := Function.update w.heap a (some e) }

/-- Assignments to fields of the entry at `a`. -/
def store (w : TimeoutWheel) (a : ℕ) (f : TimeoutEntry → TimeoutEntry) : Option TimeoutWheel :=
  (w.heap a).map fun e => w.poke a (f e)

/-- `free`. -/
def free (w : TimeoutWheel) (a : ℕ) : TimeoutWheel :=
  { w with heap := Function.update w.heap a none }

/-- The wheel with another list head. -/
def withHead (w : TimeoutWheel) (slot : ℕ) (a : Option ℕ) : TimeoutWheel :=
  { w with buckets := Function.update w.buckets slot a }

/-- `tw->buckets[slot]`. -/
def head (w : TimeoutWheel) (slot : ℕ) : Option (Option ℕ) :=
  if slot < w.nbuckets then some (w.buckets slot) else none

/-- `tw->buckets[slot] = a`. -/
def setHead (w : TimeoutWheel) (slot : ℕ) (a : Option ℕ) : Option TimeoutWheel :=
  if slot < w.nbuckets then some (w.withHead slot a) else none

/-- One more event. -/
def note (w : TimeoutWheel) (e : TimerEvent) : TimeoutWheel := { w with log := w.log ++ [e] }

end TimeoutWheel

/-- A call of `timeout_add`: the seconds, what `time(NULL)` returns, and what `malloc` does. -/
structure AddCall where
  seconds : ℤ
  now : ℤ
  mem : Option ℕ

/-- `(tw->current + seconds / tw->resolution) % tw->nbuckets` on `int`s, as an index. -/
def slotFor (w : TimeoutWheel) (seconds : ℤ) : Option ℕ :=
  let sum := (w.current : ℤ) + seconds.tdiv w.resolution
  if sum < -2 ^ 31 ∨ 2 ^ 31 ≤ sum then none
  else if sum.tmod w.nbuckets < 0 then none
  else some (sum.tmod w.nbuckets).toNat

/-- The assignments with which `timeout_add` and `timeout_tick` put an entry in front of the
list of a bucket. -/
def linkEntry (w : TimeoutWheel) (a slot : ℕ) : Option TimeoutWheel := do
  let head ← w.head slot
  let w ← w.store a fun e => { e with bucket := slot, next := head, prev := none }
  let w ← match head with
    | some b => w.store b fun e => { e with prev := some a }
    | none => pure w
  w.setHead slot (some a)

/-- `timeout_add`: the pointer it returns, and the wheel after it. An address that is in use
is none that `malloc` can give. -/
def timeoutAdd (w : TimeoutWheel) (c : AddCall) : Option (Option ℕ × TimeoutWheel) :=
  match c.mem.filter fun a => (w.heap a).isNone with
  | none => some (none, w)
  | some a => do
    let w' := w.poke a ⟨w.fresh, c.now + c.seconds, none, none, 0, true⟩
    let slot ← slotFor w c.seconds
    let w' ← linkEntry w' a slot
    pure (some a, { w' with fresh := w.fresh + 1 }.note (.added w.fresh c.now c.seconds))

/-- `timeout_remove` has what is in front of the entry point past it. -/
def pointPast (w : TimeoutWheel) (e : TimeoutEntry) : Option TimeoutWheel :=
  match e.prev with
  | some b => w.store b fun e' => { e' with next := e.next }
  | none => w.setHead e.bucket e.next

/-- `timeout_remove` has what is behind the entry point back past it. -/
def pointBack (w : TimeoutWheel) (e : TimeoutEntry) : Option TimeoutWheel :=
  match e.next with
  | some b => w.store b fun e' => { e' with prev := e.prev }
  | none => some w

/-- `timeout_remove`. -/
def timeoutRemove (w : TimeoutWheel) (entry : Option ℕ) : Option TimeoutWheel :=
  match entry with
  | none => some w
  | some a => do
    let e ← w.heap a
    if e.active = false then pure w
    else
      let w ← w.store a fun e => { e with active := false }
      let w ← pointPast w e
      let e ← w.heap a
      let w ← pointBack w e
      pure ((w.free a).note (.removed e.cb))

/-- What a callback does: any number of calls of `timeout_add`. -/
def runCallback (w : TimeoutWheel) : List AddCall → Option TimeoutWheel
  | [] => some w
  | c :: cs => do
    let (_, w) ← timeoutAdd w c
    runCallback w cs

/-- The loop of `timeout_tick`, from the entry `e` on. -/
def tickLoop (now : ℤ) (cbs : ℕ → List AddCall) :
    ℕ → TimeoutWheel → Option ℕ → Option TimeoutWheel
  | _, w, none => some w
  | 0, _, some _ => none
  | fuel + 1, w, some a => do
    let e ← w.heap a
    if e.active = true ∧ e.deadline ≤ now then
      let w ← w.store a fun e => { e with active := false }
      let w ← runCallback (w.note (.fired e.cb now)) (cbs e.cb)
      tickLoop now cbs fuel (w.free a) e.next
    else if e.active = true then
      let w ← linkEntry w a ((w.current + 1) % w.nbuckets)
      tickLoop now cbs fuel w e.next
    else tickLoop now cbs fuel (w.free a) e.next

/-- `timeout_tick`, when `time(NULL)` returns `now`; `cbs` is what each callback does. A list
has no more entries than were ever added, so these are rounds enough for the loop. -/
def timeoutTick (w : TimeoutWheel) (now : ℤ) (cbs : ℕ → List AddCall) : Option TimeoutWheel := do
  let w := { w with current := (w.current + 1) % w.nbuckets }
  let e ← w.head w.current
  let w ← w.setHead w.current none
  tickLoop now cbs w.fresh w e

/-- A call of the wheel's interface. -/
inductive WheelOp
  | add (c : AddCall)
  | remove (entry : ℕ)
  | tick (now : ℤ) (cbs : ℕ → List AddCall)

/-- One call. -/
def TimeoutWheel.step (w : TimeoutWheel) : WheelOp → Option TimeoutWheel
  | .add c => (timeoutAdd w c).map Prod.snd
  | .remove entry => timeoutRemove w (some entry)
  | .tick now cbs => timeoutTick w now cbs

/-- The wheel after a list of calls, unless one of them has no result. -/
def TimeoutWheel.run (w : TimeoutWheel) (ops : List WheelOp) : Option TimeoutWheel :=
  Run.run (fun s op => s.bind fun w => w.step op) (some w) ops

/-! ### The entries and their links -/

/-- An entry without its links. -/
def TimeoutEntry.timer (e : TimeoutEntry) : Timer :=
  ⟨e.cb, e.deadline, e.bucket, e.active⟩

namespace TimeoutWheel

/-- The next pointers of the heap. -/
def next (w : TimeoutWheel) (a : ℕ) : Option ℕ := (w.heap a).bind TimeoutEntry.next

/-- The previous pointers of the heap. -/
def prev (w : TimeoutWheel) (a : ℕ) : Option ℕ := (w.heap a).bind TimeoutEntry.prev

/-- The entries of the heap, without their links. -/
def timer (w : TimeoutWheel) (a : ℕ) : Option Timer := (w.heap a).map TimeoutEntry.timer

/-- The calendar of the wheel, while a tick at `now` has still to look at `visiting`. -/
def calendar (w : TimeoutWheel) (visiting : List ℕ) (now : ℤ) : Calendar :=
  ⟨w.timer, visiting, now, w.current, w.fresh, w.log⟩

/-- The lists of the buckets are linked both ways and have each the entries that name the
bucket, apart from those that a tick has taken out. -/
structure Links (w : TimeoutWheel) (out : List ℕ) (lists : ℕ → List ℕ) : Prop where
  linked : ∀ b < w.nbuckets, IsDList w.next w.prev none (w.buckets b) (lists b)
  mem_iff : ∀ b < w.nbuckets, ∀ a,
    a ∈ lists b ↔ a ∉ out ∧ ∃ t, w.timer a = some t ∧ t.bucket = b
  settled : ∀ a t, w.timer a = some t → a ∉ out → t.bucket < w.nbuckets ∧ t.active = true
  live : ∀ a ∈ out, ∃ t, w.timer a = some t

section Pointers

variable {w : TimeoutWheel} {a b slot : ℕ} {e : TimeoutEntry} {out : List ℕ} {lists : ℕ → List ℕ}

@[simp] lemma next_poke : (w.poke a e).next = Function.update w.next a e.next := by
  funext b
  by_cases hb : b = a
  · subst hb
    simp [next, poke]
  · simp [next, poke, hb]

@[simp] lemma prev_poke : (w.poke a e).prev = Function.update w.prev a e.prev := by
  funext b
  by_cases hb : b = a
  · subst hb
    simp [prev, poke]
  · simp [prev, poke, hb]

@[simp] lemma next_withHead {h : Option ℕ} : (w.withHead slot h).next = w.next := rfl

@[simp] lemma prev_withHead {h : Option ℕ} : (w.withHead slot h).prev = w.prev := rfl

lemma next_eq (he : w.heap a = some e) : w.next a = e.next := by rw [next, he, Option.bind_some]

lemma prev_eq (he : w.heap a = some e) : w.prev a = e.prev := by rw [prev, he, Option.bind_some]

lemma timer_eq (he : w.heap a = some e) : w.timer a = some e.timer := by
  rw [timer, he, Option.map_some]

lemma exists_entry {t : Timer} (ht : w.timer a = some t) : ∃ e, w.heap a = some e ∧ e.timer = t :=
  Option.map_eq_some_iff.mp ht

@[simp] lemma timer_poke : (w.poke a e).timer = Function.update w.timer a (some e.timer) := by
  funext b
  by_cases hb : b = a
  · subst hb
    simp [timer, poke]
  · simp [timer, poke, hb]

@[simp] lemma timer_withHead {h : Option ℕ} : (w.withHead slot h).timer = w.timer := rfl

/-- An entry on a list is in the heap, and not taken out. -/
lemma Links.of_mem (h : w.Links out lists) (hb : b < w.nbuckets) (ha : a ∈ lists b) :
    a ∉ out ∧ ∃ e, w.heap a = some e ∧ e.bucket = b := by
  obtain ⟨hout, t, ht, rfl⟩ := (h.mem_iff b hb a).mp ha
  obtain ⟨e, he, rfl⟩ := exists_entry ht
  exact ⟨hout, e, he, rfl⟩

/-- No entry is on two lists: it names one bucket. -/
lemma Links.apart (h : w.Links out lists) {b' : ℕ} (hb : b < w.nbuckets) (hb' : b' < w.nbuckets)
    (ha : a ∈ lists b) (ha' : a ∈ lists b') : b = b' := by
  obtain ⟨-, e, he, rfl⟩ := h.of_mem hb ha
  obtain ⟨-, e', he', rfl⟩ := h.of_mem hb' ha'
  obtain rfl := Option.some.inj (he.symm.trans he')
  rfl

/-- What linking an entry leaves in the wheel. -/
structure Linked (w : TimeoutWheel) (a slot : ℕ) (e : TimeoutEntry) (w' : TimeoutWheel) :
    Prop where
  buckets : w'.buckets = Function.update w.buckets slot (some a)
  next : w'.next = Function.update w.next a (w.buckets slot)
  prev_self : w'.prev a = none
  prev_head : ∀ b, w.buckets slot = some b → w'.prev b = some a
  prev_of_ne : ∀ b, b ≠ a → w.buckets slot ≠ some b → w'.prev b = w.prev b
  timer : w'.timer = Function.update w.timer a (some { e.timer with bucket := slot })
  nbuckets : w'.nbuckets = w.nbuckets
  resolution : w'.resolution = w.resolution
  current : w'.current = w.current
  fresh : w'.fresh = w.fresh
  log : w'.log = w.log

/-- `linkEntry` has a result: the list of the bucket starts with an entry of the heap. -/
lemma exists_linked (h : w.Links out lists) (hslot : slot < w.nbuckets) (ha : w.heap a = some e)
    (hout : a ∈ out) : ∃ w', linkEntry w a slot = some w' ∧ Linked w a slot e w' := by
  cases hhead : w.buckets slot with
  | none =>
    refine ⟨(w.poke a { e with bucket := slot, next := none, prev := none }).withHead slot
      (some a), ?_, ?_⟩
    · simp [linkEntry, head, store, setHead, hslot, hhead, ha, poke, withHead]
    · exact ⟨rfl, by simp [hhead], by simp, by simp [hhead], fun b hb _ => by simp [hb],
        by simp [TimeoutEntry.timer], rfl, rfl, rfl, rfl, rfl⟩
  | some b =>
    have hmem : b ∈ lists slot := (hhead ▸ h.linked slot hslot).first.1
    obtain ⟨hbout, eb, heb, -⟩ := h.of_mem hslot hmem
    have hba : b ≠ a := fun hba => hbout (hba ▸ hout)
    refine ⟨((w.poke a { e with bucket := slot, next := some b, prev := none }).poke b
      { eb with prev := some a }).withHead slot (some a), ?_, ?_⟩
    · simp [linkEntry, head, store, setHead, hslot, hhead, ha, heb, hba, poke, withHead]
    · refine ⟨rfl, ?_, by simp [hba.symm], ?_, fun c hc hcb => ?_, ?_,
        rfl, rfl, rfl, rfl, rfl⟩
      · have hnb : Function.update w.next a (some b) b = eb.next := by
          rw [Function.update_of_ne hba, next_eq heb]
        simp [hhead, ← hnb]
      · rintro c hc
        obtain rfl := Option.some.inj (hhead.symm.trans hc)
        simp
      · have hcb' : c ≠ b := fun hcb' => hcb (hcb' ▸ hhead)
        simp [hc, hcb']
      · have htb : Function.update w.timer a (some { e.timer with bucket := slot }) b =
            some eb.timer := by
          rw [Function.update_of_ne hba, timer_eq heb]
        rw [timer_withHead, timer_poke, timer_poke]
        exact (congrArg (Function.update _ b) htb.symm).trans (Function.update_eq_self b _)

/-- **Linking puts an entry that was taken out back on a list.** -/
lemma Links.link (h : w.Links (a :: out) lists) (hnodup : a ∉ out) (hslot : slot < w.nbuckets)
    (hactive : e.active = true) {w' : TimeoutWheel} (hw : Linked w a slot e w') :
    w'.Links out (Function.update lists slot (a :: lists slot)) := by
  have hnotin : ∀ b < w.nbuckets, a ∉ lists b := fun b hb ha => (h.of_mem hb ha).1 (by simp)
  have hne : ∀ b < w.nbuckets, ∀ c ∈ lists b, c ≠ a := fun b hb c hc hca => hnotin b hb (hca ▸ hc)
  have hnext : ∀ c, c ≠ a → w'.next c = w.next c := fun c hc => by
    rw [hw.next, Function.update_of_ne hc]
  have hfirst : ∀ b, w.buckets slot = some b → b ∈ lists slot := fun b hb =>
    (hb ▸ h.linked slot hslot).first.1
  refine ⟨fun b hb => ?_, fun b hb c => ?_, fun c t hc hout => ?_, fun c hc => ?_⟩
  · rw [hw.nbuckets] at hb
    rw [hw.buckets]
    by_cases hbs : b = slot
    · subst hbs
      rw [Function.update_self, Function.update_self]
      refine (h.linked b hb).push (by rw [hw.next, Function.update_self]) hw.prev_self
        (fun c hc => hnext c (hne b hb c hc)) hw.prev_head fun c hc hhead => ?_
      exact hw.prev_of_ne c (hne b hb c hc) hhead
    · rw [Function.update_of_ne hbs, Function.update_of_ne hbs]
      refine (h.linked b hb).congr (fun c hc => hnext c (hne b hb c hc)) fun c hc => ?_
      -- the entry whose `prev` is set was the first one of the other list
      refine hw.prev_of_ne c (hne b hb c hc) fun hhead => hbs ?_
      exact h.apart hb hslot hc (hfirst c hhead)
  · rw [hw.nbuckets] at hb
    rw [hw.timer]
    by_cases hca : c = a
    · subst hca
      by_cases hbs : b = slot
      · subst hbs
        simp [hnodup]
      · simp [hbs, hnotin b hb, Ne.symm hbs]
    · have hmem := h.mem_iff b hb c
      rw [Function.update_of_ne hca]
      by_cases hbs : b = slot
      · subst hbs
        simpa [hca] using hmem
      · simpa [hbs, hca] using hmem
  · rw [hw.timer] at hc
    rw [hw.nbuckets]
    by_cases hca : c = a
    · subst hca
      rw [Function.update_self] at hc
      obtain rfl := Option.some.inj hc
      exact ⟨hslot, hactive⟩
    · rw [Function.update_of_ne hca] at hc
      exact h.settled c t hc (by simp [hca, hout])
  · have hca : c ≠ a := fun hca => hnodup (hca ▸ hc)
    rw [hw.timer, Function.update_of_ne hca]
    exact h.live c (by simp [hc])

/-- An entry that was taken out, or is new, may change as long as it stays out. -/
lemma Links.poke (h : w.Links out lists) (hnew : a ∈ out ∨ w.heap a = none) {out' : List ℕ}
    (hout : ∀ c, c ∈ out' ↔ c = a ∨ c ∈ out) : (w.poke a e).Links out' lists := by
  have hnotin : ∀ b < w.nbuckets, a ∉ lists b := by
    rintro b hb ha
    obtain ⟨hout, e', he', -⟩ := h.of_mem hb ha
    rcases hnew with hnew | hnew
    · exact hout hnew
    · simp [hnew] at he'
  refine ⟨fun b hb => ?_, fun b hb c => ?_, fun c t hc hcout => ?_, fun c hc => ?_⟩
  · have hne : ∀ c ∈ lists b, c ≠ a := fun c hc hca => hnotin b hb (hca ▸ hc)
    refine (h.linked b hb).congr (fun c hc => ?_) fun c hc => ?_
    · rw [next_poke, Function.update_of_ne (hne c hc)]
    · rw [prev_poke, Function.update_of_ne (hne c hc)]
  · rw [hout, timer_poke]
    by_cases hca : c = a
    · subst hca
      simp [hnotin b hb]
    · simpa [hca] using h.mem_iff b hb c
  · rw [hout, not_or] at hcout
    rw [timer_poke, Function.update_of_ne hcout.1] at hc
    exact h.settled c t hc hcout.2
  · rw [timer_poke]
    by_cases hca : c = a
    · subst hca
      exact ⟨_, Function.update_self _ _ _⟩
    · rw [Function.update_of_ne hca]
      exact h.live c (((hout c).mp hc).resolve_left hca)

/-- An entry that was taken out may be freed. -/
lemma Links.free (h : w.Links (a :: out) lists) (hnodup : a ∉ out) :
    (w.free a).Links out lists := by
  have hnotin : ∀ b < w.nbuckets, a ∉ lists b := fun b hb ha => (h.of_mem hb ha).1 (by simp)
  have hheap : ∀ c, c ≠ a → (w.free a).heap c = w.heap c := fun c hc => Function.update_of_ne hc _ _
  have htimer : ∀ c, c ≠ a → (w.free a).timer c = w.timer c := fun c hc => by
    rw [timer, timer, hheap c hc]
  have hself : (w.free a).timer a = none := by simp [timer, TimeoutWheel.free]
  refine ⟨fun b hb => ?_, fun b hb c => ?_, fun c t hc hcout => ?_, fun c hc => ?_⟩
  · have hne : ∀ c ∈ lists b, c ≠ a := fun c hc hca => hnotin b hb (hca ▸ hc)
    refine (h.linked b hb).congr (fun c hc => ?_) fun c hc => ?_
    · rw [next, next, hheap c (hne c hc)]
    · rw [prev, prev, hheap c (hne c hc)]
  · by_cases hca : c = a
    · subst hca
      simp [hnotin b hb, hself]
    · rw [htimer c hca]
      simpa [hca] using h.mem_iff b hb c
  · have hca : c ≠ a := by
      rintro rfl
      simp [hself] at hc
    rw [htimer c hca] at hc
    exact h.settled c t hc (by simp [hca, hcout])
  · rw [htimer c fun hca => hnodup (hca ▸ hc)]
    exact h.live c (by simp [hc])

lemma Links.detach (h : w.Links [] lists) (hb : b < w.nbuckets) :
    (w.withHead b none).Links (lists b) (Function.update lists b []) := by
  refine ⟨fun c hc => ?_, fun c hc x => ?_, fun x t hx hout => ?_, fun x hx => ?_⟩
  · by_cases hcb : c = b
    · subst hcb
      rw [Function.update_self]
      exact Function.update_self _ _ _
    · have hhead : (w.withHead b none).buckets c = w.buckets c := Function.update_of_ne hcb _ _
      rw [Function.update_of_ne hcb, hhead]
      exact h.linked c hc
  · have hx := h.mem_iff b hb x
    have hx' := h.mem_iff c hc x
    by_cases hcb : c = b
    · subst hcb
      rw [Function.update_self, timer_withHead]
      refine ⟨fun hnil => absurd hnil List.not_mem_nil, fun ⟨hnot, ht⟩ => ?_⟩
      exact absurd (hx.mpr ⟨List.not_mem_nil, ht⟩) hnot
    · simp only [List.not_mem_nil, not_false_eq_true, true_and] at hx hx'
      rw [Function.update_of_ne hcb, hx', hx, timer_withHead]
      constructor
      · rintro ⟨t, ht, rfl⟩
        refine ⟨?_, t, ht, rfl⟩
        rintro ⟨t', ht', hb'⟩
        obtain rfl := Option.some.inj (ht.symm.trans ht')
        exact hcb hb'
      · exact fun hc' => hc'.2
  · exact h.settled x t hx (by simp)
  · obtain ⟨-, t, ht, -⟩ := (h.mem_iff b hb x).mp hx
    exact ⟨t, ht⟩

/-- What removing an entry leaves in the wheel. -/
structure Unlinked (w : TimeoutWheel) (a : ℕ) (e : TimeoutEntry) (w' : TimeoutWheel) : Prop where
  buckets : w'.buckets =
    if e.prev = none then Function.update w.buckets e.bucket e.next else w.buckets
  next : ∀ b, b ≠ a → w'.next b = if w.prev a = some b then w.next a else w.next b
  prev : ∀ b, b ≠ a → w'.prev b = if w.next a = some b then w.prev a else w.prev b
  timer : w'.timer = Function.update w.timer a none
  nbuckets : w'.nbuckets = w.nbuckets
  resolution : w'.resolution = w.resolution
  current : w'.current = w.current
  fresh : w'.fresh = w.fresh
  log : w'.log = w.log ++ [.removed e.cb]

/-- Nothing but links changes in the wheel, and none of the entry at `a`. -/
structure Relinked (w : TimeoutWheel) (a : ℕ) (w' : TimeoutWheel) : Prop where
  heap : w'.heap a = w.heap a
  timer : w'.timer = w.timer
  nbuckets : w'.nbuckets = w.nbuckets
  resolution : w'.resolution = w.resolution
  current : w'.current = w.current
  fresh : w'.fresh = w.fresh
  log : w'.log = w.log

lemma timer_poke_of_eq {e' : TimeoutEntry} (he : w.heap b = some e) (htimer : e'.timer = e.timer) :
    (w.poke b e').timer = w.timer := by
  rw [timer_poke, htimer, ← timer_eq he, Function.update_eq_self]

lemma exists_pointPast (hprev : ∀ b, e.prev = some b → b ≠ a ∧ ∃ t, w.timer b = some t)
    (hbucket : e.bucket < w.nbuckets) :
    ∃ w', pointPast w e = some w' ∧ Relinked w a w' ∧ w'.prev = w.prev ∧
      w'.buckets = (if e.prev = none then Function.update w.buckets e.bucket e.next
        else w.buckets) ∧
      ∀ b, w'.next b = if e.prev = some b then e.next else w.next b := by
  cases hp : e.prev with
  | none =>
    refine ⟨w.withHead e.bucket e.next, ?_, ⟨rfl, rfl, rfl, rfl, rfl, rfl, rfl⟩, rfl, ?_, ?_⟩
    · simp [pointPast, setHead, hp, hbucket]
    · simp [withHead]
    · simp
  | some b =>
    obtain ⟨hba, t, ht⟩ := hprev b hp
    obtain ⟨eb, heb, -⟩ := exists_entry ht
    refine ⟨w.poke b { eb with next := e.next }, ?_, ⟨?_, ?_, rfl, rfl, rfl, rfl, rfl⟩, ?_, ?_,
      ?_⟩
    · simp [pointPast, store, hp, heb]
    · exact Function.update_of_ne hba.symm _ _
    · exact timer_poke_of_eq heb rfl
    · rw [prev_poke, ← prev_eq heb, Function.update_eq_self]
    · simp [TimeoutWheel.poke]
    · rintro c
      by_cases hcb : c = b
      · subst hcb
        simp
      · simp [hcb, Ne.symm hcb]

lemma exists_pointBack (hnext : ∀ b, e.next = some b → b ≠ a ∧ ∃ t, w.timer b = some t) :
    ∃ w', pointBack w e = some w' ∧ Relinked w a w' ∧ w'.next = w.next ∧
      w'.buckets = w.buckets ∧
      ∀ b, w'.prev b = if e.next = some b then e.prev else w.prev b := by
  cases hn : e.next with
  | none =>
    refine ⟨w, ?_, ⟨rfl, rfl, rfl, rfl, rfl, rfl, rfl⟩, rfl, rfl, ?_⟩
    · simp [pointBack, hn]
    · simp
  | some b =>
    obtain ⟨hba, t, ht⟩ := hnext b hn
    obtain ⟨eb, heb, -⟩ := exists_entry ht
    refine ⟨w.poke b { eb with prev := e.prev }, ?_, ⟨?_, ?_, rfl, rfl, rfl, rfl, rfl⟩, ?_, rfl,
      ?_⟩
    · simp [pointBack, store, hn, heb]
    · exact Function.update_of_ne hba.symm _ _
    · exact timer_poke_of_eq heb rfl
    · rw [next_poke, ← next_eq heb, Function.update_eq_self]
    · rintro c
      by_cases hcb : c = b
      · subst hcb
        simp
      · simp [hcb, Ne.symm hcb]

/-- `timeout_remove` of an entry has a result: its neighbours are entries of the heap. -/
lemma exists_unlinked (h : w.Links [] lists) (he : w.heap a = some e) :
    ∃ w', timeoutRemove w (some a) = some w' ∧ Unlinked w a e w' := by
  obtain ⟨hbucket, hactive⟩ := h.settled a e.timer (timer_eq he) (by simp)
  have hlist := h.linked e.bucket hbucket
  have hmem : a ∈ lists e.bucket := (h.mem_iff _ hbucket a).mpr ⟨by simp, e.timer, timer_eq he, rfl⟩
  have hprev : ∀ b, e.prev = some b → b ≠ a ∧ ∃ t, w.timer b = some t := by
    rintro b hb
    rw [← prev_eq he] at hb
    rcases hlist.of_prev hmem with ⟨-, hnone⟩ | ⟨c, hc, hprev, hnext⟩
    · simp [hnone] at hb
    · obtain rfl := Option.some.inj (hb.symm.trans hprev)
      obtain ⟨-, t, ht, -⟩ := (h.mem_iff _ hbucket _).mp hc
      exact ⟨fun hba => hlist.isChain.next_ne_self hmem (hba ▸ hnext), t, ht⟩
  have hnext : ∀ b, e.next = some b → b ≠ a ∧ ∃ t, w.timer b = some t := by
    rintro b hb
    rw [← next_eq he] at hb
    obtain ⟨-, t, ht, -⟩ := (h.mem_iff _ hbucket _).mp (hlist.of_next hmem hb).1
    exact ⟨fun hba => hlist.isChain.next_ne_self hmem (hba ▸ hb), t, ht⟩
  -- the assignments in turn, each on what the one in front has left
  let e₁ : TimeoutEntry := { e with active := false }
  have htimer₁ : ∀ b, b ≠ a → (w.poke a e₁).timer b = w.timer b := fun b hb => by
    rw [timer_poke, Function.update_of_ne hb]
  obtain ⟨w₂, hw₂, hsame₂, hprev₂, hbuckets₂, hnext₂⟩ :=
    exists_pointPast (w := w.poke a e₁) (e := e) (a := a) (fun b hb =>
      ⟨(hprev b hb).1, by rw [htimer₁ b (hprev b hb).1]; exact (hprev b hb).2⟩) hbucket
  obtain ⟨w₃, hw₃, hsame₃, hnext₃, hbuckets₃, hprev₃⟩ :=
    exists_pointBack (w := w₂) (e := e₁) (a := a) fun b hb =>
      ⟨(hnext b hb).1, by rw [hsame₂.timer, htimer₁ b (hnext b hb).1]; exact (hnext b hb).2⟩
  have hload : w₂.heap a = some e₁ := hsame₂.heap.trans (Function.update_self _ _ _)
  refine ⟨(w₃.free a).note (.removed e.cb), ?_, ?_⟩
  · have hstore : w.store a (fun e => { e with active := false }) = some (w.poke a e₁) := by
      simp [store, he, e₁]
    have hactive' : e.active = true := hactive
    simp [timeoutRemove, he, hactive', hstore, hw₂, hload, hw₃, e₁]
  · have hfree : ∀ b, b ≠ a → ((w₃.free a).note (.removed e.cb)).heap b = w₃.heap b := fun b hb =>
      Function.update_of_ne hb _ _
    refine ⟨hbuckets₃.trans hbuckets₂, fun b hb => ?_, fun b hb => ?_, ?_,
      hsame₃.nbuckets.trans hsame₂.nbuckets, hsame₃.resolution.trans hsame₂.resolution,
      hsame₃.current.trans hsame₂.current, hsame₃.fresh.trans hsame₂.fresh, ?_⟩
    · rw [next, hfree b hb, ← next, hnext₃, hnext₂, prev_eq he, next_eq he, next_poke,
        Function.update_of_ne hb]
    · rw [prev, hfree b hb, ← prev, hprev₃, hprev₂, prev_eq he, next_eq he, prev_poke,
        Function.update_of_ne hb]
    · funext b
      by_cases hb : b = a
      · subst hb
        simp [timer, free, note]
      · rw [timer, hfree b hb, ← timer, hsame₃.timer, hsame₂.timer, htimer₁ b hb,
          Function.update_of_ne hb]
    · exact congrArg (· ++ [TimerEvent.removed e.cb]) (hsame₃.log.trans hsame₂.log)

/-- **Removing takes an entry off its list.** -/
lemma Links.unlink (h : w.Links [] lists) (he : w.heap a = some e) {w' : TimeoutWheel}
    (hw : Unlinked w a e w') :
    w'.Links [] (Function.update lists e.bucket ((lists e.bucket).erase a)) := by
  obtain ⟨hbucket, -⟩ := h.settled a e.timer (timer_eq he) (by simp)
  have hmem : a ∈ lists e.bucket := (h.mem_iff _ hbucket a).mpr ⟨by simp, e.timer, timer_eq he, rfl⟩
  have hlist := h.linked e.bucket hbucket
  refine ⟨fun b hb => ?_, fun b hb c => ?_, fun c t hc _ => ?_, fun c hc => absurd hc (by simp)⟩
  · rw [hw.nbuckets] at hb
    by_cases hbe : b = e.bucket
    · subst hbe
      have hhead : w'.buckets e.bucket =
          if w.buckets e.bucket = some a then w.next a else w.buckets e.bucket := by
        rw [hw.buckets, ← prev_eq he, ← next_eq he]
        simp only [hlist.head_eq_some_iff hmem]
        split
        · exact Function.update_self _ _ _
        · rfl
      rw [Function.update_self, hhead]
      exact hlist.erase (by simp) hmem (fun c _ => hw.next c) fun c _ => hw.prev c
    · have hapart : ∀ c ∈ lists b, c ∉ lists e.bucket := fun c hc hc' =>
        hbe (h.apart hb hbucket hc hc')
      have hne : ∀ c ∈ lists b, c ≠ a := fun c hc hca => hapart c hc (hca ▸ hmem)
      have hhead : w'.buckets b = w.buckets b := by
        rw [hw.buckets]
        split
        · exact Function.update_of_ne hbe _ _
        · rfl
      rw [Function.update_of_ne hbe, hhead]
      -- the neighbours of `a` are on its own list, so no pointer of this one is set
      refine (h.linked b hb).congr (fun c hc => ?_) fun c hc => ?_
      · rw [hw.next c (hne c hc), if_neg fun hac => ?_]
        rcases hlist.of_prev hmem with ⟨-, hnone⟩ | ⟨d, hd, hprev, -⟩
        · simp [hnone] at hac
        · obtain rfl := Option.some.inj (hac.symm.trans hprev)
          exact hapart c hc hd
      · rw [hw.prev c (hne c hc), if_neg fun hac => hapart c hc (hlist.of_next hmem hac).1]
  · rw [hw.nbuckets] at hb
    rw [hw.timer]
    by_cases hca : c = a
    · subst hca
      by_cases hbe : b = e.bucket
      · subst hbe
        simp [hlist.nodup.not_mem_erase]
      · have hnot : c ∉ lists b := fun hc => hbe (h.apart hb hbucket hc hmem)
        simp [hbe, hnot]
    · have hmem' := h.mem_iff b hb c
      rw [Function.update_of_ne hca]
      by_cases hbe : b = e.bucket
      · subst hbe
        simpa [List.mem_erase_of_ne hca] using hmem'
      · simpa [hbe] using hmem'
  · rw [hw.timer] at hc
    rw [hw.nbuckets]
    by_cases hca : c = a
    · subst hca
      simp at hc
    · rw [Function.update_of_ne hca] at hc
      exact h.settled c t hc (by simp)

end Pointers

end TimeoutWheel

end Nproxy
