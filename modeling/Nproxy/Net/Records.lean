import Nproxy.Net.EventLoop

/-!
`net/event_loop.c` with its handler records: what `event_loop_run` calls when the handlers
of a batch change the registrations.

`epoll` gives back the pointer it was given, which points to the handler record of the
descriptor. A record is made when a descriptor without one is registered, and freed by
`event_loop_del`. Here a record has a name instead of an address, and a name is never used
again. What a handler is, a function and its context, is left open.

* `RecordLoop`, `LoopOp`: the loop, and what a handler can do to it.
* `RecordLoop.view`: the loop as it looks through the pointers is the one of
  `Nproxy.Net.EventLoop`.
* `RecordLoop.calls`: the calls that `event_loop_run` makes for a batch.
* `noStale_iff`: all of them go to the record that is registered if and only if no handler
  of the batch deletes the registration of a later event; the other calls go to a record
  that was freed.
-/

namespace Nproxy

/-- The name of a handler record. -/
abbrev RecId := ℕ

/-- `event_loop_t`, with the records that are allocated, and with what `epoll` has
registered: a pointer and a set of events. -/
structure RecordLoop (F : Type) where
  handlers : ℤ → Option RecId
  record : RecId → Option (F × ℤ)
  fresh : RecId
  interest : ℤ → Option (RecId × Events)
  maxFd : ℤ

/-- A call that changes the registrations; the flag says whether `malloc` would give a
record. -/
inductive LoopOp (F : Type) where
  | add (fd : ℤ) (events : Events) (f : F) (room : Bool)
  | mod (fd : ℤ) (events : Events) (f : F) (room : Bool)
  | del (fd : ℤ)
  /-- `close(2)` -/
  | close (fd : ℤ)
  deriving DecidableEq

namespace RecordLoop

variable {F : Type}

/-- `event_loop_create`. -/
def create : RecordLoop F := ⟨fun _ => none, fun _ => none, 0, fun _ => none, 65536⟩

/-- The part of `loop_ctl` that writes the record. -/
def setRecord (l : RecordLoop F) (fd : ℤ) (f : F) : RecordLoop F :=
  match l.handlers fd with
  | some r => { l with record := Function.update l.record r (some (f, fd)) }
  | none => { l with
      handlers := Function.update l.handlers fd (some l.fresh)
      record := Function.update l.record l.fresh (some (f, fd))
      fresh := l.fresh + 1 }

/-- `epoll_ctl` with the record of the descriptor. -/
def watch (l : RecordLoop F) (fd : ℤ) (events : Events) : RecordLoop F :=
  { l with interest :=
      Function.update l.interest fd ((l.handlers fd).map fun r => (r, events)) }

/-- `event_loop_add`. -/
def add (l : RecordLoop F) (fd : ℤ) (events : Events) (f : F) (room : Bool) : RecordLoop F :=
  if fd ≥ l.maxFd ∨ (l.handlers fd = none ∧ room = false) then l
  else
    let l := l.setRecord fd f
    if (l.interest fd).isSome then l else l.watch fd events

/-- `event_loop_mod`. -/
def mod (l : RecordLoop F) (fd : ℤ) (events : Events) (f : F) (room : Bool) : RecordLoop F :=
  if fd ≥ l.maxFd ∨ (l.handlers fd = none ∧ room = false) then l
  else
    let l := l.setRecord fd f
    if (l.interest fd).isSome then l.watch fd events else l

/-- `event_loop_del`. -/
def del (l : RecordLoop F) (fd : ℤ) : RecordLoop F :=
  if fd ≥ l.maxFd then l
  else { l with
    handlers := Function.update l.handlers fd none
    record := match l.handlers fd with
      | some r => Function.update l.record r none
      | none => l.record
    interest := Function.update l.interest fd none }

/-- What `close(2)` does to the registrations. -/
def close (l : RecordLoop F) (fd : ℤ) : RecordLoop F :=
  { l with interest := Function.update l.interest fd none }

/-- One call to the event loop, with its records. -/
def apply (l : RecordLoop F) : LoopOp F → RecordLoop F
  | .add fd events f room => l.add fd events f room
  | .mod fd events f room => l.mod fd events f room
  | .del fd => l.del fd
  | .close fd => l.close fd

/-- The calls of a handler. -/
def applyAll (l : RecordLoop F) (ops : List (LoopOp F)) : RecordLoop F := ops.foldl apply l

@[simp] lemma applyAll_nil (l : RecordLoop F) : l.applyAll [] = l := rfl

@[simp] lemma applyAll_cons (l : RecordLoop F) (op : LoopOp F) (ops : List (LoopOp F)) :
    l.applyAll (op :: ops) = (l.apply op).applyAll ops := rfl

/-- What both `event_loop_add` and `event_loop_mod` may do: nothing, or the record is set,
and perhaps `epoll` is told. -/
def Registers (l : RecordLoop F) (fd : ℤ) (events : Events) (f : F) (l' : RecordLoop F) : Prop :=
  l' = l ∨ fd < l.maxFd ∧ (l' = l.setRecord fd f ∨ l' = (l.setRecord fd f).watch fd events)

lemma add_registers (l : RecordLoop F) (fd : ℤ) (events : Events) (f : F) (room : Bool) :
    l.Registers fd events f (l.add fd events f room) := by
  rw [add]
  split
  · exact Or.inl rfl
  · refine Or.inr ⟨by omega, ?_⟩
    simp only
    split
    · exact Or.inl rfl
    · exact Or.inr rfl

lemma mod_registers (l : RecordLoop F) (fd : ℤ) (events : Events) (f : F) (room : Bool) :
    l.Registers fd events f (l.mod fd events f room) := by
  rw [mod]
  split
  · exact Or.inl rfl
  · refine Or.inr ⟨by omega, ?_⟩
    simp only
    split
    · exact Or.inr rfl
    · exact Or.inl rfl

/-! ### The records that are allocated are those in the table -/

/-- A loop in order: a record is in the table exactly where it says, the names are those
that were given out, and what `epoll` has is in the table. -/
structure Wf (l : RecordLoop F) : Prop where
  registered : ∀ fd r, l.handlers fd = some r ↔ ∃ f, l.record r = some (f, fd)
  named : ∀ fd r, l.handlers fd = some r → r < l.fresh
  watched : ∀ fd r events, l.interest fd = some (r, events) → l.handlers fd = some r
  small : ∀ fd r, l.handlers fd = some r → fd < l.maxFd

variable {l l' : RecordLoop F} {fd fd' : ℤ} {events : Events} {f : F} {r : RecId}

lemma create_wf : (create : RecordLoop F).Wf :=
  ⟨by simp [create], by simp [create], by simp [create], by simp [create]⟩

/-- A record is in one place of the table. -/
lemma Wf.unique (h : l.Wf) (h1 : l.handlers fd = some r) (h2 : l.handlers fd' = some r) :
    fd = fd' := by
  obtain ⟨f, hf⟩ := (h.registered fd r).mp h1
  obtain ⟨f', hf'⟩ := (h.registered fd' r).mp h2
  rw [hf] at hf'
  exact (Prod.mk.inj (Option.some.inj hf')).2

lemma Wf.fresh_free (h : l.Wf) : l.record l.fresh = none := by
  cases hr : l.record l.fresh with
  | none => rfl
  | some x =>
    obtain ⟨f, fd⟩ := x
    exact absurd (h.named fd _ ((h.registered fd _).mpr ⟨f, hr⟩)) (lt_irrefl _)

lemma setRecord_of_some (h : l.handlers fd = some r) (f : F) :
    l.setRecord fd f = { l with record := Function.update l.record r (some (f, fd)) } := by
  rw [setRecord, h]

lemma setRecord_of_none (h : l.handlers fd = none) (f : F) : l.setRecord fd f = { l with
    handlers := Function.update l.handlers fd (some l.fresh)
    record := Function.update l.record l.fresh (some (f, fd))
    fresh := l.fresh + 1 } := by
  rw [setRecord, h]

lemma Wf.setRecord (h : l.Wf) (hfd : fd < l.maxFd) (f : F) : (l.setRecord fd f).Wf := by
  have hfree := h.fresh_free
  obtain ⟨hreg, hnamed, hwatched, hsmall⟩ := h
  cases hh : l.handlers fd with
  | some r =>
    rw [setRecord_of_some hh]
    refine ⟨fun fd' r' => ?_, hnamed, hwatched, hsmall⟩
    simp only [Function.update_apply]
    grind
  | none =>
    rw [setRecord_of_none hh]
    refine ⟨fun fd' r' => ?_, fun fd' r' => ?_, fun fd' r' events => ?_, fun fd' r' => ?_⟩ <;>
      simp only [Function.update_apply]
    · by_cases hr : r' = l.fresh
      · have hno : l.handlers fd' ≠ some l.fresh := fun h' => lt_irrefl _ (hnamed fd' _ h')
        by_cases heq : fd' = fd
        · simp [hr, heq]
        · simp [hr, heq, hno, Ne.symm heq]
      · have hno : ¬∃ f, l.record r' = some (f, fd) := by
          rw [← hreg, hh]
          simp
        grind
    · grind
    · grind
    · grind

lemma Wf.watch (h : l.Wf) (fd : ℤ) (events : Events) : (l.watch fd events).Wf := by
  refine ⟨h.registered, h.named, fun fd' r' events' hr' => ?_, h.small⟩
  simp only [RecordLoop.watch, Function.update_apply] at hr'
  split at hr'
  · rename_i heq
    obtain ⟨r, hr, hpair⟩ := Option.map_eq_some_iff.mp hr'
    obtain ⟨rfl, -⟩ := Prod.mk.inj hpair
    exact heq ▸ hr
  · exact h.watched fd' r' events' hr'

lemma Wf.close (h : l.Wf) (fd : ℤ) : (l.close fd).Wf := by
  refine ⟨h.registered, h.named, fun fd' r' events' hr' => ?_, h.small⟩
  simp only [RecordLoop.close, Function.update_apply] at hr'
  split at hr'
  · simp at hr'
  · exact h.watched fd' r' events' hr'

lemma Wf.del (h : l.Wf) (fd : ℤ) : (l.del fd).Wf := by
  obtain ⟨hreg, hnamed, hwatched, hsmall⟩ := h
  rw [RecordLoop.del]
  split
  · exact ⟨hreg, hnamed, hwatched, hsmall⟩
  · refine ⟨fun fd' r' => ?_, fun fd' r' => ?_, fun fd' r' events => ?_, fun fd' r' => ?_⟩
    · cases hh : l.handlers fd with
      | none =>
        simp only [Function.update_apply]
        grind
      | some r =>
        simp only [Function.update_apply]
        grind
    · simp only [Function.update_apply]
      grind
    · simp only [Function.update_apply]
      grind
    · simp only [Function.update_apply]
      grind

lemma Registers.wf (hreg : l.Registers fd events f l') (h : l.Wf) : l'.Wf := by
  rcases hreg with rfl | ⟨hfd, rfl | rfl⟩
  · exact h
  · exact h.setRecord hfd f
  · exact (h.setRecord hfd f).watch fd events

/-- **Every call keeps the loop in order.** -/
lemma Wf.apply (h : l.Wf) (op : LoopOp F) : (l.apply op).Wf := by
  cases op with
  | add fd events f room => exact (add_registers l fd events f room).wf h
  | mod fd events f room => exact (mod_registers l fd events f room).wf h
  | del fd => exact h.del fd
  | close fd => exact h.close fd

lemma Wf.applyAll (h : l.Wf) (ops : List (LoopOp F)) : (l.applyAll ops).Wf := by
  induction ops generalizing l with
  | nil => exact h
  | cons op ops ih => exact ih (h.apply op)

/-! ### Which record a descriptor has -/

lemma setRecord_handlers (l : RecordLoop F) (fd : ℤ) (f : F) : (l.setRecord fd f).handlers =
    Function.update l.handlers fd (some ((l.handlers fd).getD l.fresh)) := by
  cases hh : l.handlers fd with
  | none => rw [setRecord_of_none hh, Option.getD_none]
  | some r =>
    rw [setRecord_of_some hh, Option.getD_some, ← hh]
    exact (Function.update_eq_self fd _).symm

lemma Registers.handlers (h : l.Registers fd events f l') : l'.handlers = l.handlers ∨
    l'.handlers = Function.update l.handlers fd (some ((l.handlers fd).getD l.fresh)) := by
  rcases h with rfl | ⟨-, rfl | rfl⟩
  · exact Or.inl rfl
  · exact Or.inr (setRecord_handlers l fd f)
  · exact Or.inr (setRecord_handlers l fd f)

/-- Registering a descriptor gives no descriptor a record that another one has or had. -/
lemma update_getD_iff {h : ℤ → Option RecId} {n : RecId} (hr : r < n) :
    Function.update h fd' (some ((h fd').getD n)) fd = some r ↔ h fd = some r := by
  rw [Function.update_apply]
  split
  · rename_i heq
    subst heq
    cases hh : h fd with
    | none => simp [hr.ne']
    | some r' => simp
  · rfl

lemma Registers.handlers_iff (h : l.Registers fd' events f l') (hr : r < l.fresh) :
    l'.handlers fd = some r ↔ l.handlers fd = some r := by
  rcases h.handlers with heq | heq <;> rw [heq]
  exact update_getD_iff hr

/-- **A record stays registered until its registration is deleted.** -/
lemma apply_handlers_iff (h : l.Wf) (hr : r < l.fresh) (op : LoopOp F) :
    (l.apply op).handlers fd = some r ↔ l.handlers fd = some r ∧ op ≠ .del fd := by
  cases op with
  | add fd' events f room =>
    simp only [ne_eq, reduceCtorEq, not_false_eq_true, and_true]
    exact (add_registers l fd' events f room).handlers_iff hr
  | mod fd' events f room =>
    simp only [ne_eq, reduceCtorEq, not_false_eq_true, and_true]
    exact (mod_registers l fd' events f room).handlers_iff hr
  | del fd' =>
    simp only [apply, ne_eq, LoopOp.del.injEq, del]
    split
    · rename_i hbig
      refine (and_iff_left_of_imp fun hreg heq => ?_).symm
      exact absurd (h.small fd r hreg) (by omega)
    · simp only [Function.update_apply]
      split
      · rename_i heq
        simp [heq]
      · rename_i hne
        exact (and_iff_left (Ne.symm hne)).symm
  | close fd' => simp [apply, close]

lemma Registers.fresh_le (h : l.Registers fd events f l') : l.fresh ≤ l'.fresh := by
  have hset : l.fresh ≤ (l.setRecord fd f).fresh := by
    cases hh : l.handlers fd with
    | none =>
      rw [setRecord_of_none hh]
      exact Nat.le_succ _
    | some r =>
      rw [setRecord_of_some hh]
  rcases h with rfl | ⟨-, rfl | rfl⟩
  · exact le_rfl
  · exact hset
  · exact hset

lemma fresh_le_apply (l : RecordLoop F) (op : LoopOp F) : l.fresh ≤ (l.apply op).fresh := by
  cases op with
  | add fd events f room => exact (add_registers l fd events f room).fresh_le
  | mod fd events f room => exact (mod_registers l fd events f room).fresh_le
  | del fd =>
    simp only [apply, del]
    split <;> exact le_rfl
  | close fd => exact le_rfl

lemma fresh_le_applyAll (l : RecordLoop F) (ops : List (LoopOp F)) :
    l.fresh ≤ (l.applyAll ops).fresh := by
  induction ops generalizing l with
  | nil => exact le_rfl
  | cons op ops ih => exact (fresh_le_apply l op).trans (ih _)

lemma applyAll_handlers_iff (h : l.Wf) (hr : r < l.fresh) (ops : List (LoopOp F)) :
    (l.applyAll ops).handlers fd = some r ↔ l.handlers fd = some r ∧ .del fd ∉ ops := by
  induction ops generalizing l with
  | nil => simp
  | cons op ops ih =>
    rw [applyAll_cons, ih (h.apply op) (hr.trans_le (fresh_le_apply l op)),
      apply_handlers_iff h hr, List.mem_cons, not_or, and_assoc, ne_comm]

end RecordLoop

/-! ### `event_loop_run` -/

/-- One event of a batch: the descriptor it was harvested for, the pointer that came with
it, and the calls that its handler makes. -/
structure BatchEvent (F : Type) where
  fd : ℤ
  ptr : RecId
  ops : List (LoopOp F)

namespace RecordLoop

variable {F : Type} {l : RecordLoop F}

/-- The events are those of registrations. -/
def Harvested (l : RecordLoop F) (es : List (BatchEvent F)) : Prop :=
  ∀ e ∈ es, ∃ events, l.interest e.fd = some (e.ptr, events)

/-- The loop of `event_loop_run` over a batch: every event's handler is called, in the
state that the handlers before it have left. -/
def calls : RecordLoop F → List (BatchEvent F) → List (RecordLoop F × BatchEvent F)
  | _, [] => []
  | l, e :: es => (l, e) :: calls (l.applyAll e.ops) es

/-- The record that came with the event is the registered one. -/
def Current (l : RecordLoop F) (e : BatchEvent F) : Prop := l.handlers e.fd = some e.ptr

instance (l : RecordLoop F) (e : BatchEvent F) : Decidable (l.Current e) :=
  inferInstanceAs (Decidable (_ = _))

lemma applyAll_append (l : RecordLoop F) (ops ops' : List (LoopOp F)) :
    l.applyAll (ops ++ ops') = (l.applyAll ops).applyAll ops' := List.foldl_append

/-- Every call is made for an event of the batch, after some calls of other handlers. -/
lemma mem_calls {es : List (BatchEvent F)} {p : RecordLoop F × BatchEvent F}
    (hp : p ∈ l.calls es) : p.2 ∈ es ∧ ∃ ops, p.1 = l.applyAll ops := by
  induction es generalizing l with
  | nil => simp [calls] at hp
  | cons e es ih =>
    rw [calls, List.mem_cons] at hp
    rcases hp with rfl | hp
    · exact ⟨by simp, [], rfl⟩
    · obtain ⟨hmem, ops, hops⟩ := ih hp
      exact ⟨List.mem_cons_of_mem e hmem, e.ops ++ ops, by rw [hops, applyAll_append]⟩

/-- The loop over a batch, event by event: what a handler deletes is not current for those
behind it. -/
lemma calls_current_iff (h : l.Wf) {es : List (BatchEvent F)} (hes : ∀ e ∈ es, e.ptr < l.fresh) :
    (∀ p ∈ l.calls es, p.1.Current p.2) ↔
      (∀ e ∈ es, l.Current e) ∧ es.Pairwise fun e e' => .del e'.fd ∉ e.ops := by
  induction es generalizing l with
  | nil => simp [calls]
  | cons e es ih =>
    rw [List.forall_mem_cons] at hes
    have hrest : ∀ e' ∈ es, e'.ptr < (l.applyAll e.ops).fresh := fun e' he' =>
      (hes.2 e' he').trans_le (fresh_le_applyAll l e.ops)
    have hcurrent : (∀ e' ∈ es, (l.applyAll e.ops).Current e') ↔
        (∀ e' ∈ es, l.Current e') ∧ ∀ e' ∈ es, .del e'.fd ∉ e.ops := by
      rw [← forall₂_and]
      exact forall₂_congr fun e' he' => applyAll_handlers_iff h (hes.2 e' he') e.ops
    rw [calls, List.forall_mem_cons, ih (h.applyAll e.ops) hrest, List.forall_mem_cons,
      List.pairwise_cons, hcurrent]
    tauto

/-- A call that does not go to the registered record goes to one that was freed. -/
lemma current_iff_allocated (h : l.Wf) {es : List (BatchEvent F)} (hes : l.Harvested es)
    {p : RecordLoop F × BatchEvent F} (hp : p ∈ l.calls es) :
    p.1.Current p.2 ↔ p.1.record p.2.ptr ≠ none := by
  obtain ⟨hmem, ops, hops⟩ := mem_calls hp
  obtain ⟨events, hevents⟩ := hes _ hmem
  have hreg := h.watched _ _ _ hevents
  have hwf : p.1.Wf := hops ▸ h.applyAll ops
  constructor
  · intro hcurrent hnone
    obtain ⟨f, hf⟩ := (hwf.registered _ _).mp hcurrent
    rw [hnone] at hf
    simp at hf
  · intro hsome
    obtain ⟨⟨f, fd⟩, hf⟩ := Option.ne_none_iff_exists'.mp hsome
    have hlater : p.1.handlers fd = some p.2.ptr := (hwf.registered _ _).mpr ⟨f, hf⟩
    have hearlier : l.handlers fd = some p.2.ptr := by
      rw [hops] at hlater
      exact ((applyAll_handlers_iff h (h.named _ _ hreg) ops).mp hlater).1
    rw [Current, h.unique hreg hearlier]
    exact hlater

end RecordLoop

/-- **When no stale event is dispatched**: for every loop, every batch that `epoll_wait`
can return and whatever the handlers do, all calls of `event_loop_run` go to the record
that is registered for the descriptor, as it was when the batch was harvested, if and only
if no handler of the batch deletes the registration of a later event; and a call that does
not go there goes to a record that was freed. -/
theorem noStale_iff {F : Type} (ops : List (LoopOp F)) (es : List (BatchEvent F))
    (hes : (RecordLoop.create.applyAll ops).Harvested es) :
    ((∀ p ∈ (RecordLoop.create.applyAll ops).calls es, p.1.Current p.2) ↔
        es.Pairwise fun e e' => .del e'.fd ∉ e.ops) ∧
      ∀ p ∈ (RecordLoop.create.applyAll ops).calls es,
        (p.1.Current p.2 ↔ p.1.record p.2.ptr ≠ none) := by
  have hwf : (RecordLoop.create.applyAll ops).Wf := RecordLoop.create_wf.applyAll ops
  have hreg : ∀ e ∈ es, (RecordLoop.create.applyAll ops).Current e := by
    intro e he
    obtain ⟨events, hevents⟩ := hes e he
    exact hwf.watched _ _ _ hevents
  refine ⟨?_, fun p hp => RecordLoop.current_iff_allocated hwf hes hp⟩
  rw [RecordLoop.calls_current_iff hwf fun e he => hwf.named _ _ (hreg e he)]
  exact and_iff_right hreg

/-- A client's descriptor and its upstream's are registered. -/
def pairOps : List (LoopOp EvFn) :=
  [.add 4 evR (.client 0) true, .add 5 evRW (.upstream 0) true]

/-- The upstream's event comes first, and the client's closes the connection. -/
def pairBatch : List (BatchEvent EvFn) :=
  [⟨5, 1, [.mod 5 evR (.upstream 0) true]⟩, ⟨4, 0, [.del 4, .close 4, .del 5, .close 5]⟩]

/-- The client's event frees both records, but it is the last of the batch: no call gets a record
that is gone. -/
theorem noStale_iff_pair :
    (pairBatch.Pairwise fun e e' => .del e'.fd ∉ e.ops) ∧
    ((∀ p ∈ (RecordLoop.create.applyAll pairOps).calls pairBatch, p.1.Current p.2) ↔
        pairBatch.Pairwise fun e e' => .del e'.fd ∉ e.ops) ∧
      ∀ p ∈ (RecordLoop.create.applyAll pairOps).calls pairBatch,
        (p.1.Current p.2 ↔ p.1.record p.2.ptr ≠ none) :=
  ⟨by decide, noStale_iff pairOps pairBatch (by
    intro e he
    simp only [pairBatch, List.mem_cons, List.not_mem_nil, or_false] at he
    rcases he with rfl | rfl
    · exact ⟨evRW, rfl⟩
    · exact ⟨evR, rfl⟩)⟩

/-! ### The loop as it looks through the pointers -/

namespace RecordLoop

variable {l : RecordLoop EvFn} {fd : ℤ} {events : Events} {fn : EvFn}

/-- What the pointers of the table and of `epoll` point to. -/
def view (l : RecordLoop EvFn) : EventLoop where
  handlers fd := (l.handlers fd).bind fun r => (l.record r).map fun x => ⟨x.1, x.2⟩
  interest fd := (l.interest fd).map Prod.snd
  maxFd := l.maxFd

lemma Wf.view_setRecord (h : l.Wf) (fd : ℤ) (fn : EvFn) :
    (l.setRecord fd fn).view = l.view.setHandler fd fn := by
  cases hh : l.handlers fd with
  | some r =>
    rw [setRecord_of_some hh, EventLoop.setHandler, view, view, EventLoop.mk.injEq]
    refine ⟨funext fun fd' => ?_, rfl, rfl⟩
    by_cases heq : fd' = fd
    · simp [heq, hh]
    · have hne : ∀ r', l.handlers fd' = some r' → r' ≠ r := by
        rintro r' hr' rfl
        exact heq (h.unique hr' hh)
      rw [Function.update_of_ne heq]
      cases hr' : l.handlers fd' with
      | none => simp [hr']
      | some r' => simp [hr', Function.update_of_ne (hne r' hr')]
  | none =>
    rw [setRecord_of_none hh, EventLoop.setHandler, view, view, EventLoop.mk.injEq]
    refine ⟨funext fun fd' => ?_, rfl, rfl⟩
    by_cases heq : fd' = fd
    · simp [heq]
    · simp only [Function.update_of_ne heq]
      cases hr' : l.handlers fd' with
      | none => rfl
      | some r' => simp [Function.update_of_ne (h.named fd' r' hr').ne]

lemma view_watch (h : l.handlers fd ≠ none) (events : Events) : (l.watch fd events).view =
    { l.view with interest := Function.update l.view.interest fd (some events) } := by
  obtain ⟨r, hr⟩ := Option.ne_none_iff_exists'.mp h
  rw [watch, view, view, EventLoop.mk.injEq]
  refine ⟨rfl, funext fun fd' => ?_, rfl⟩
  by_cases heq : fd' = fd
  · simp [heq, hr]
  · simp [heq]

lemma setRecord_registered (l : RecordLoop EvFn) (fd : ℤ) (fn : EvFn) :
    (l.setRecord fd fn).handlers fd ≠ none := by
  rw [setRecord_handlers, Function.update_self]
  simp

/-- `epoll` has a registration in the one if it has one in the other. -/
lemma Wf.view_isSome (h : l.Wf) (fd : ℤ) (fn : EvFn) :
    ((l.view.setHandler fd fn).interest fd).isSome =
      ((l.setRecord fd fn).interest fd).isSome := by
  rw [← h.view_setRecord]
  exact Option.isSome_map

lemma Wf.view_setRecord_watch (h : l.Wf) (fd : ℤ) (events : Events) (fn : EvFn) :
    ((l.setRecord fd fn).watch fd events).view = { l.view.setHandler fd fn with
      interest := Function.update (l.view.setHandler fd fn).interest fd (some events) } := by
  rw [view_watch (setRecord_registered l fd fn), h.view_setRecord]

lemma Wf.view_add (h : l.Wf) :
    (l.add fd events fn true).view = eventLoopAdd l.view fd events fn := by
  rw [add, eventLoopAdd]
  by_cases hfd : fd ≥ l.maxFd
  · have hmax : fd ≥ l.view.maxFd := hfd
    rw [if_pos (Or.inl hfd), if_pos hmax]
  · have hmax : ¬fd ≥ l.view.maxFd := hfd
    rw [if_neg (by simpa using hfd), if_neg hmax]
    simp only [h.view_isSome]
    split
    · exact h.view_setRecord fd fn
    · exact h.view_setRecord_watch fd events fn

lemma Wf.view_mod (h : l.Wf) :
    (l.mod fd events fn true).view = eventLoopMod l.view fd events fn := by
  rw [mod, eventLoopMod]
  by_cases hfd : fd ≥ l.maxFd
  · have hmax : fd ≥ l.view.maxFd := hfd
    rw [if_pos (Or.inl hfd), if_pos hmax]
  · have hmax : ¬fd ≥ l.view.maxFd := hfd
    rw [if_neg (by simpa using hfd), if_neg hmax]
    simp only [h.view_isSome]
    split
    · exact h.view_setRecord_watch fd events fn
    · exact h.view_setRecord fd fn

lemma Wf.view_del (h : l.Wf) : (l.del fd).view = eventLoopDel l.view fd := by
  rw [RecordLoop.del, eventLoopDel]
  by_cases hfd : fd ≥ l.maxFd
  · have hmax : fd ≥ l.view.maxFd := hfd
    rw [if_pos hfd, if_pos hmax]
  · have hmax : ¬fd ≥ l.view.maxFd := hfd
    rw [if_neg hfd, if_neg hmax, view, view, EventLoop.mk.injEq]
    refine ⟨funext fun fd' => ?_, funext fun fd' => ?_, rfl⟩
    · by_cases heq : fd' = fd
      · simp [heq]
      · simp only [Function.update_of_ne heq]
        cases hr' : l.handlers fd' with
        | none => rfl
        | some r' =>
          cases hr : l.handlers fd with
          | none => rfl
          | some r =>
            have hne : r' ≠ r := by
              rintro rfl
              exact heq (h.unique hr' hr)
            simp [Function.update_of_ne hne]
    · by_cases heq : fd' = fd
      · simp [heq]
      · simp [heq]

lemma view_close : (l.close fd).view = l.view.forget fd := by
  rw [close, EventLoop.forget, view, view, EventLoop.mk.injEq]
  refine ⟨rfl, funext fun fd' => ?_, rfl⟩
  by_cases heq : fd' = fd
  · simp [heq]
  · simp [heq]

end RecordLoop

/-- A call as the loop without records has it. -/
def LoopOp.onLoop (loop : EventLoop) : LoopOp EvFn → EventLoop
  | .add fd events fn _ => eventLoopAdd loop fd events fn
  | .mod fd events fn _ => eventLoopMod loop fd events fn
  | .del fd => eventLoopDel loop fd
  | .close fd => loop.forget fd

/-- `malloc` gives the record that the call needs. -/
def LoopOp.served {F : Type} : LoopOp F → Bool
  | .add _ _ _ room | .mod _ _ _ room => room
  | _ => true

/-- **The loop without records is what is seen through the pointers**, as long as `malloc`
gives the records. -/
lemma RecordLoop.Wf.view_applyAll {l : RecordLoop EvFn} (h : l.Wf) {ops : List (LoopOp EvFn)}
    (hops : ∀ op ∈ ops, op.served = true) :
    (l.applyAll ops).view = ops.foldl LoopOp.onLoop l.view := by
  induction ops generalizing l with
  | nil => rfl
  | cons op ops ih =>
    rw [List.forall_mem_cons] at hops
    have hop : (l.apply op).view = LoopOp.onLoop l.view op := by
      cases op with
      | add fd events fn room =>
        obtain rfl : room = true := hops.1
        exact h.view_add
      | mod fd events fn room =>
        obtain rfl : room = true := hops.1
        exact h.view_mod
      | del fd => exact h.view_del
      | close fd => exact RecordLoop.view_close
    rw [applyAll_cons, ih (h.apply op) hops.2, hop, List.foldl_cons]

end Nproxy
