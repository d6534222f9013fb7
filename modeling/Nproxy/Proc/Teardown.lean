import Nproxy.Lib.Drain
import Nproxy.Net.Wheel
import Nproxy.Proc.Pool

/-!
What a worker frees when it ends.

`worker_run` calls `conn_pool_destroy` and `timeout_wheel_destroy`, each of which walks linked lists
and frees their cells. In both a cell that is read must be allocated, so a result means that no cell
is read after it was freed, nor freed twice.

* `timeoutWheelDestroy_run`: after any legal run of the wheel every entry is freed.
* `Worker.allotted`: the connection objects that are allocated; `Worker.Held`: they are those that
  are out and those on the free list.
* `connPoolDestroy_run`: after any orderly run the free list is freed, and the objects that are
  left are those that are still out.
-/

namespace Nproxy

open Chain (IsChain drain)

/-! ### The timing wheel -/

/-- `timeout_wheel_destroy`; a list has no more entries than were ever added. -/
def timeoutWheelDestroy (w : TimeoutWheel) : Option TimeoutWheel :=
  (List.range w.nbuckets).foldlM (fun w b => do
    let e ← w.head b
    drain (fun w a => (w.heap a).map TimeoutEntry.next) TimeoutWheel.free w.fresh w e) w

namespace TimeoutWheel

variable {w : TimeoutWheel} {lists : ℕ → List ℕ} {l : List ℕ}

lemma heap_freeAll (l : List ℕ) (w : TimeoutWheel) (a : ℕ) :
    (l.foldl free w).heap a = if a ∈ l then none else w.heap a := by
  induction l generalizing w with
  | nil => simp
  | cons b l ih =>
    rw [List.foldl_cons, ih]
    by_cases hab : a = b <;> simp [free, hab]

lemma fields_freeAll (l : List ℕ) (w : TimeoutWheel) : (l.foldl free w).buckets = w.buckets ∧
    (l.foldl free w).nbuckets = w.nbuckets ∧ (l.foldl free w).fresh = w.fresh := by
  induction l generalizing w with
  | nil => exact ⟨rfl, rfl, rfl⟩
  | cons b l ih => exact ih (w.free b)

/-- The list of a bucket is there to be freed. -/
structure Hangs (w : TimeoutWheel) (b : ℕ) (l : List ℕ) : Prop where
  lt : b < w.nbuckets
  chain : IsChain w.next (w.buckets b) l
  entry : ∀ a ∈ l, ∃ e, w.heap a = some e
  length_le : l.length ≤ w.fresh

/-- Freeing other entries leaves it there. -/
lemma Hangs.freeAll {b : ℕ} (h : w.Hangs b l) {l' : List ℕ} (hapart : ∀ a ∈ l, a ∉ l') :
    (l'.foldl free w).Hangs b l := by
  obtain ⟨hbuckets, hn, hfresh⟩ := fields_freeAll l' w
  have hheap : ∀ a ∈ l, (l'.foldl free w).heap a = w.heap a := fun a ha => by
    rw [heap_freeAll, if_neg (hapart a ha)]
  refine ⟨hn ▸ h.lt, ?_, fun a ha => ?_, hfresh ▸ h.length_le⟩
  · rw [hbuckets]
    exact h.chain.congr fun a ha => by rw [next, next, hheap a ha]
  · rw [hheap a ha]
    exact h.entry a ha

/-- **One bucket**: the loop of `timeout_wheel_destroy` frees the entries of its list, each of them
once. -/
lemma Hangs.drain {b : ℕ} (h : w.Hangs b l) : (do
    let e ← w.head b
    drain (fun w a => (w.heap a).map TimeoutEntry.next) free w.fresh w e) =
      some (l.foldl free w) := by
  rw [head, if_pos h.lt]
  refine h.chain.drain (fun s a b hb => ?_) (fun a ha => ?_) h.length_le
  · exact congrArg (Option.map _) (Function.update_of_ne hb _ _)
  · obtain ⟨e, he⟩ := h.entry a ha
    rw [he, next_eq he, Option.map_some]

/-- **All of them**: the lists of different buckets are apart. -/
lemma exists_freed (bs : List ℕ) (hbs : bs.Nodup) (h : ∀ b ∈ bs, w.Hangs b (lists b))
    (hapart : ∀ b ∈ bs, ∀ b' ∈ bs, b ≠ b' → ∀ a ∈ lists b, a ∉ lists b') :
    ∃ w', bs.foldlM (fun w b => do
        let e ← w.head b
        Chain.drain (fun w a => (w.heap a).map TimeoutEntry.next) free w.fresh w e) w = some w' ∧
      ∀ a, w'.heap a = if ∃ b ∈ bs, a ∈ lists b then none else w.heap a := by
  induction bs generalizing w with
  | nil => exact ⟨w, rfl, fun a => by simp⟩
  | cons b bs ih =>
    obtain ⟨hb, hbs⟩ := List.nodup_cons.mp hbs
    have hrest : ∀ b' ∈ bs, ((lists b).foldl free w).Hangs b' (lists b') := fun b' hb' =>
      (h b' (List.mem_cons_of_mem b hb')).freeAll (hapart b' (List.mem_cons_of_mem b hb') b
        List.mem_cons_self (ne_of_mem_of_not_mem hb' hb))
    obtain ⟨w', hw', hheap⟩ := ih hbs hrest fun c hc c' hc' =>
      hapart c (List.mem_cons_of_mem b hc) c' (List.mem_cons_of_mem b hc')
    refine ⟨w', ?_, fun a => ?_⟩
    · rw [List.foldlM_cons, (h b List.mem_cons_self).drain]
      exact hw'
    · rw [hheap, heap_freeAll]
      by_cases ha : a ∈ lists b <;> simp [ha]

end TimeoutWheel

open TimeoutWheel in
/-- **The wheel is freed**: after any legal run `timeout_wheel_destroy` frees every entry once. -/
theorem timeoutWheelDestroy_run (n resolution : ℕ) (hn : 1 ≤ n) (hresolution : 1 ≤ resolution)
    (ops : List WheelOp) (hlegal : (timeoutWheelCreate n resolution).LegalRun ops) :
    ∃ w w', (timeoutWheelCreate n resolution).run ops = some w ∧
      timeoutWheelDestroy w = some w' ∧ ∀ a, w'.heap a = none := by
  obtain ⟨w, hw, hgood⟩ := (good_create hn hresolution).run hlegal
  obtain ⟨lists, hlinks⟩ := hgood.wf.links
  have hhangs : ∀ b ∈ List.range w.nbuckets, w.Hangs b (lists b) := by
    intro b hb
    have hlt := List.mem_range.mp hb
    refine ⟨hlt, (hlinks.linked b hlt).isChain, fun a ha => ?_, ?_⟩
    · obtain ⟨-, e, he, -⟩ := hlinks.of_mem hlt ha
      exact ⟨e, he⟩
    · refine length_le_fresh hgood.ledger (hlinks.linked b hlt).nodup fun a ha => ?_
      obtain ⟨-, t, ht, -⟩ := (hlinks.mem_iff b hlt a).mp ha
      exact ⟨t, ht⟩
  obtain ⟨w', hw', hheap⟩ := exists_freed _ List.nodup_range hhangs fun b hb b' hb' hne a ha ha' =>
    hne (hlinks.apart (List.mem_range.mp hb) (List.mem_range.mp hb') ha ha')
  refine ⟨w, w', hw, hw', fun a => ?_⟩
  rw [hheap]
  -- an entry is on the list of the bucket that it names
  split_ifs with hmem
  · rfl
  · cases he : w.heap a with
    | none => rfl
    | some e =>
      have hlt := (hlinks.settled a e.timer (timer_eq he) List.not_mem_nil).1
      exact absurd ⟨e.bucket, List.mem_range.mpr hlt, (hlinks.mem_iff _ hlt a).mpr
        ⟨List.not_mem_nil, e.timer, timer_eq he, rfl⟩⟩ hmem

/-- Two entries, of which one is passed by and one fires. -/
theorem timeoutWheelDestroy_run_added :
    ∃ w w', (timeoutWheelCreate 4 1).run [.add ⟨2, 100, some 7⟩, .add ⟨1, 100, some 8⟩,
        .tick 101 fun _ => []] = some w ∧
      timeoutWheelDestroy w = some w' ∧ ∀ a, w'.heap a = none := by
  refine timeoutWheelDestroy_run 4 1 (by decide) (by decide) _ ⟨?_, ?_, ?_, trivial⟩
  · rintro w hw
    obtain rfl := Option.some.inj hw
    exact ⟨by decide, by decide⟩
  · rintro w hw
    obtain rfl := Option.some.inj hw
    exact ⟨by decide, by decide⟩
  · rintro w -
    exact fun _ c hc => absurd hc List.not_mem_nil

/-! ### The pool -/

namespace Worker

/-- An object is allocated when it is handed out for the first time, until it is freed. -/
def allot (live : Finset ConnId) (e : ConnId × Act) : Finset ConnId :=
  match e.2 with
  | .poolGet => insert e.1 live
  | .poolPut true => live.erase e.1
  | _ => live

/-- The objects that are allocated. -/
def allotted (w : Worker) : Finset ConnId := w.log.foldl allot ∅

/-- `conn_pool_destroy`: the objects that are still allocated after it. -/
def connPoolDestroy (w : Worker) : Option (Finset ConnId) :=
  drain (fun live c => if c ∈ live then some (w.heap c).next else none) Finset.erase
    w.allotted.card w.allotted w.ws.pool.freeHead

/-- What is allocated is out, or on the free list. -/
structure Held (w : Worker) (out : Finset ConnId) : Prop extends Inv w out where
  held : ∀ l, IsChain (fun c => (w.heap c).next) w.ws.pool.freeHead l →
    w.allotted = out ∪ l.toFinset

variable {w : Worker} {out : Finset ConnId} {c : ConnId} {env : Env} {f : St → St}

lemma foldl_allot_of_not_ofPool {as : List Act} (h : ∀ a ∈ as, a.ofPool = false) (c : ConnId)
    (live : Finset ConnId) : (as.map fun a => (c, a)).foldl allot live = live := by
  induction as with
  | nil => rfl
  | cons a as ih =>
    have ha : allot live (c, a) = live := by
      have hpool := h a List.mem_cons_self
      cases a <;> first | rfl | simp [Act.ofPool] at hpool
    rw [List.map_cons, List.foldl_cons, ha]
    exact ih fun b hb => h b (List.mem_cons_of_mem a hb)

/-- What a handler does is put to the account. -/
lemma allotted_runOn {as : List Act} (has : (f (w.handlerState c env)).acts = as) :
    (w.runOn c env f).allotted = (as.map fun a => (c, a)).foldl allot w.allotted := by
  subst has
  rw [allotted, runOn, List.foldl_append]
  rfl

lemma foldl_erase (l : List ConnId) (live : Finset ConnId) :
    l.foldl Finset.erase live = live \ l.toFinset := by
  induction l generalizing live with
  | nil => simp
  | cons d l ih =>
    rw [List.foldl_cons, ih, List.toFinset_cons, Finset.sdiff_insert, Finset.erase_sdiff_comm]

lemma Start.held (h : w.Start) : w.Held ∅ := by
  obtain ⟨maxFree, -, hpool⟩ := h.pool
  refine ⟨h.inv, fun l hl => ?_⟩
  rw [hpool] at hl
  rw [hl.eq_nil, allotted, h.log]
  rfl

lemma Held.runOn_kept (h : w.Held out) (hc : c ∈ out)
    (hk : St.Kept (w.handlerState c env) (f (w.handlerState c env))) :
    (w.runOn c env f).Held out := by
  refine ⟨h.toInv.runOn_kept hc hk, fun l hl => ?_⟩
  obtain ⟨as, has, hpure⟩ := hk.acts
  rw [allotted_runOn has, handlerState, List.nil_append, foldl_allot_of_not_ofPool hpure]
  refine h.held l ?_
  have hpool : (w.runOn c env f).ws.pool = w.ws.pool := hk.pool
  rw [hpool] at hl
  exact hl.congr fun d _ => (runOn_heap_field Conn.next hk.next d).symm

/-- One that gives it back: it is freed, or goes to the front of the free list. -/
lemma Held.runOn_released (h : w.Held out) (hc : c ∈ out)
    (hr : St.Released (w.handlerState c env) (f (w.handlerState c env))) :
    (w.runOn c env f).Held (out.erase c) := by
  refine ⟨h.toInv.runOn_released hc hr, fun l hl => ?_⟩
  obtain ⟨as, freed, has, hpure, hput⟩ := hr.put
  obtain ⟨l₀, hl₀, -⟩ := h.free
  have hc₀ : c ∉ l₀ := fun hmem => hl₀.notOut c hmem hc
  have hlive := h.held l₀ hl₀.chain
  have hchain : IsChain (fun d => ((w.runOn c env f).heap d).next) w.ws.pool.freeHead l₀ :=
    hl₀.chain.congr fun d hd => by rw [runOn_heap_of_ne (ne_of_mem_of_not_mem hd hc₀)]
  have hallot : (w.runOn c env f).allotted = allot w.allotted (c, .poolPut freed) := by
    rw [allotted_runOn has, handlerState, List.nil_append, List.map_append, List.foldl_append,
      foldl_allot_of_not_ofPool hpure]
    rfl
  rw [hallot, hlive]
  cases freed with
  | true =>
    have hpool : (w.runOn c env f).ws.pool = w.ws.pool := hput
    rw [hpool] at hl
    rw [hl.unique hchain, allot, Finset.erase_union_distrib,
      Finset.erase_eq_of_notMem (by simpa using hc₀ : c ∉ l₀.toFinset)]
  | false =>
    obtain ⟨-, hhead, hpool⟩ := hput
    replace hpool : (w.runOn c env f).ws.pool.freeHead = some c :=
      congrArg ConnPool.freeHead hpool
    have hnext : ((w.runOn c env f).heap c).next = w.ws.pool.freeHead := by
      rw [runOn_heap_self]
      exact hhead
    have hpush : IsChain (fun d => ((w.runOn c env f).heap d).next) (some c) (c :: l₀) := by
      refine ⟨rfl, ?_⟩
      rw [← hnext] at hchain
      exact hchain
    rw [hpool] at hl
    rw [hl.unique hpush, List.toFinset_cons, Finset.union_insert, ← Finset.insert_union,
      Finset.insert_erase hc]
    rfl

lemma Held.runOn (h : w.Held out) (hc : c ∈ out)
    (he : St.Ends (w.handlerState c env) (f (w.handlerState c env))) :
    ∃ out', (w.runOn c env f).Held out' := by
  rcases he with hk | hr
  · exact ⟨out, h.runOn_kept hc hk⟩
  · exact ⟨out.erase c, h.runOn_released hc hr⟩

/-- A client is accepted: its object comes from the front of the free list, or is new. -/
lemma Held.acceptOne (h : w.Held out) {fd : ℤ} (h0 : 0 ≤ fd) (peer : InAddr)
    (alloc : Option ℕ) : ∃ out', (w.acceptOne fd peer alloc).Held out' := by
  cases hget : w.connPoolGet fd peer alloc with
  | none => exact ⟨out, by rw [Worker.acceptOne, hget]; exact h⟩
  | some r =>
    obtain ⟨c, w'⟩ := r
    refine ⟨insert c out, h.toInv.accepted h0 hget, fun l hl => ?_⟩
    have hh := h.handedOut hget
    have hallot : (w.acceptOne fd peer alloc).allotted = insert c w.allotted := by
      rw [acceptOne_of_get hget, allotted, hh.log, List.foldl_append]
      rfl
    obtain ⟨l₀, hl₀, -⟩ := h.free
    have hlive := h.held l₀ hl₀.chain
    have hchain := hl₀.chain
    rw [hallot, hlive]
    rw [acceptOne_of_get hget] at hl
    rw [connPoolGet.eq_def] at hget
    split at hget
    · rename_i d hhead
      obtain ⟨rfl, rfl⟩ := Prod.mk.inj (Option.some.inj hget)
      rw [hhead] at hchain
      obtain ⟨l₁, rfl, htail⟩ := hchain.pop
      have hd : d ∉ l₁ := (List.nodup_cons.mp hl₀.nodup).1
      have heq : l = l₁ := hl.unique (htail.congr fun e he => by
        simp [ne_of_mem_of_not_mem he hd])
      rw [heq, List.toFinset_cons, Finset.union_insert, Finset.insert_idem, Finset.insert_union]
    · rename_i hhead
      rw [hhead] at hchain
      obtain rfl := hchain.eq_nil
      split at hget
      · cases hget
      · obtain ⟨rfl, rfl⟩ := Prod.mk.inj (Option.some.inj hget)
        have heq : l = [] := (hhead ▸ hl).eq_nil
        rw [heq, Finset.insert_union]

lemma Held.setPending (h : w.Held out) (pending : List (EvHandler × Events)) :
    Held { w with pending := pending } out := ⟨h.toInv.setPending pending, h.held⟩

/-- **One step** keeps it: every object of the pool is out, or on the free list. -/
lemma Held.step (h : w.Held out) {i : Input} (hi : w.Orderly i) :
    ∃ out', (w.step i).Held out' := by
  cases i with
  | wait events =>
    rw [Worker.step]
    split
    · exact ⟨out, h.setPending _⟩
    · exact ⟨out, h⟩
  | handle env accepts =>
    rw [Worker.step]
    split
    · exact ⟨out, h⟩
    · rename_i r ev pending hpending
      obtain ⟨hreg, hclient⟩ := hi r ev pending hpending
      have h' := h.setPending pending
      obtain ⟨-, hfn⟩ := h'.handlers r.fd r hreg
      rw [call]
      split <;> rename_i heq <;> rw [heq] at hfn
      · refine onAcceptEvent_invariant (P := fun w => ∃ out, w.Held out) ?_ accepts ⟨out, h'⟩
        rintro w' fd peer alloc hfd ⟨out', hheld⟩
        exact hheld.acceptOne hfd peer alloc
      · exact ⟨out, h'⟩
      · obtain ⟨hboth, hup⟩ := hclient _ heq
        exact h'.runOn hfn.1
          (St.onClientEvent_ends (h'.fd _ hfn.1) (h'.tunnel _ hfn.1) hboth hup)
      · exact h'.runOn hfn.1
          (St.proxyOnUpstreamEvent_ends (h'.fd _ hfn.1) hfn.2.2 hfn.2.1.symm ev)

/-- **`conn_pool_destroy`** frees the free list and nothing else. -/
lemma Held.connPoolDestroy (h : w.Held out) : w.connPoolDestroy = some out := by
  obtain ⟨l, hl, -⟩ := h.free
  have hlive := h.held l hl.chain
  have hlen : l.length ≤ w.allotted.card := by
    rw [← List.toFinset_card_of_nodup hl.nodup, hlive]
    exact Finset.card_le_card Finset.subset_union_right
  rw [Worker.connPoolDestroy, hl.chain.drain (fun s a b hb => ?_) (fun a ha => ?_) hlen,
    foldl_erase, hlive, Finset.union_sdiff_right, Finset.sdiff_eq_self_of_disjoint]
  · refine Finset.disjoint_left.mpr fun d hd hmem => hl.notOut d (by simpa using hmem) hd
  · simp [hb]
  · rw [if_pos]
    rw [hlive]
    exact Finset.mem_union_right _ (by simpa using ha)

/-- **The pool is freed**: after any orderly run `conn_pool_destroy` frees every object that is not
out, once, and of all objects that were ever allocated those are left that are still out. -/
theorem connPoolDestroy_run (w : Worker) (hw : w.Start) (is : List Input)
    (h : Run.Along Worker.step Orderly w is) :
    ∃ out, Ledger.track ∅ (poolEntries (w.run is).log) = some out ∧
      (w.run is).connPoolDestroy = some out := by
  have hheld : ∃ out, (w.run is).Held out := by
    refine h.invariant (P := fun w => ∃ out, w.Held out) ?_ ⟨∅, hw.held⟩
    rintro w' i ⟨out', hheld⟩ hi
    exact hheld.step hi
  obtain ⟨out, hheld⟩ := hheld
  exact ⟨out, hheld.ledger, hheld.connPoolDestroy⟩

/-- Two clients come, and the second one closes its connection. -/
def secondLeaves : List Input :=
  List.flatten [clientComes,
    oneEvent .accept 3 inEvent idleEnv [.conn 6 ⟨127, 0, 0, 1⟩ (some 4096)],
    oneEvent (.client 1) 6 inEvent { idleEnv with clientReads := [.data []] } []]

/-- The second client's object is on the free list and is freed. The first one's is still out. -/
theorem connPoolDestroy_run_secondLeaves : backendWorker.Start ∧
    Run.Along Worker.step Orderly backendWorker secondLeaves ∧
      (backendWorker.run secondLeaves).connPoolDestroy = some {0} := by
  have horderly : Run.Along Worker.step Orderly backendWorker secondLeaves := by
    refine ⟨trivial, ?_, trivial, ?_, trivial, ?_, trivial⟩
    · exact orderly_handle (h := ⟨.accept, 3⟩) rfl rfl (by simp)
    · exact orderly_handle (h := ⟨.accept, 3⟩) rfl rfl (by simp)
    · refine orderly_handle (h := ⟨.client 1, 6⟩) rfl rfl ?_
      rintro _ ⟨⟩
      exact ⟨fun _ hw => absurd hw (by decide), fun _ _ => by decide⟩
  obtain ⟨out, hledger, hdestroy⟩ := connPoolDestroy_run _ backendWorker_start _ horderly
  have hout : Ledger.track ∅ (poolEntries (backendWorker.run secondLeaves).log) = some {0} := by
    decide +kernel
  refine ⟨backendWorker_start, horderly, ?_⟩
  rw [hdestroy, ← hledger, hout]

end Worker

end Nproxy
