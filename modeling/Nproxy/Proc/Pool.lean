import Nproxy.Lib.Chain
import Nproxy.Lib.Ledger
import Nproxy.Proc.Release

/-!
The pool of connection objects over whole runs of a worker.

* `PoolSafe`: in the log of the run no object is handed out twice or given back
  twice, the free list is a list without repetitions of `free_count ≤ max_free`
  objects, and none of them is out.
* `Orderly`: what a step must be like. The record of the event is still registered;
  a client's event that carries both bits neither ends the client's stream nor
  completes a request; and no request is completed while an upstream is open.
* `poolSafe_run`: a run of orderly steps is safe.
* `pipelinedRun_not_poolSafe`: a run that is not. A second request is completed by an
  event with both bits set; `handle_read` answers it and gives the connection back,
  and `handle_write` gives it back again.
-/

namespace Nproxy

open Chain (IsChain)
open Ledger (Entry)

/-- The entry of an action in the ledger of the pool. -/
def Act.entry (c : ConnId) : Act → Option (Entry ConnId)
  | .poolGet => some (.out c)
  | .poolPut _ => some (.back c)
  | _ => none

lemma Act.entry_eq_none {a : Act} (h : a.ofPool = false) (c : ConnId) : a.entry c = none := by
  cases a <;> simp_all [Act.entry, Act.ofPool]

/-- The ledger of the pool: which objects it handed out and took back, in order. -/
def poolEntries (log : List (ConnId × Act)) : List (Entry ConnId) :=
  log.filterMap fun e => e.2.entry e.1

lemma poolEntries_append (log log' : List (ConnId × Act)) :
    poolEntries (log ++ log') = poolEntries log ++ poolEntries log' := List.filterMap_append

lemma poolEntries_of_not_ofPool {as : List Act} (h : ∀ a ∈ as, a.ofPool = false) (c : ConnId) :
    poolEntries (as.map fun a => (c, a)) = [] := by
  rw [poolEntries, List.filterMap_map, List.filterMap_eq_nil_iff]
  intro a ha
  exact Act.entry_eq_none (h a ha) c

namespace Worker

/-- The free list of the pool runs through `l`, which is in order. -/
structure FreeList (w : Worker) (out : Finset ConnId) (l : List ConnId) : Prop where
  chain : IsChain (fun c => (w.heap c).next) w.ws.pool.freeHead l
  nodup : l.Nodup
  count : w.ws.pool.freeCount = l.length
  bound : w.ws.pool.freeCount ≤ w.ws.pool.maxFree
  notOut : ∀ c ∈ l, c ∉ out

/-- **No object is in two places.** -/
def PoolSafe (w : Worker) : Prop :=
  ∃ out l, Ledger.track ∅ (poolEntries w.log) = some out ∧ w.FreeList out l

/-! ### What a step must be like -/

/-- The state in which a handler of a connection starts. -/
def handlerState (w : Worker) (c : ConnId) (env : Env) : St := ⟨c, w.heap c, w.ws, env, []⟩

/-- A client's event: with both bits, the client's stream does not end and no request
is completed; no request is completed while an upstream is open. -/
def OrderlyClient (st : St) (ev : Events) : Prop :=
  (ev.read = true → ev.write = true → ¬ st.ReadFails ∧ ¬ st.Completes) ∧
    (ev.read = true → st.Completes → st.conn.upstreamFd < 0)

/-- The next event is for a record that is still registered, and if it is a client's,
it is orderly. -/
def Orderly (w : Worker) : Input → Prop
  | .wait _ => True
  | .handle env _ => ∀ h ev pending, w.pending = (h, ev) :: pending →
      w.ws.loop.handlers h.fd = some h ∧
        ∀ c, h.fn = .client c → OrderlyClient (w.handlerState c env) ev

/-- A worker that has just started: no client has come yet. -/
structure Start (w : Worker) : Prop where
  log : w.log = []
  pending : w.pending = []
  pool : ∃ maxFree : ℤ, 0 ≤ maxFree ∧ w.ws.pool = connPoolCreate maxFree
  handlers : ∀ fd h, w.ws.loop.handlers fd = some h →
    fd < w.ws.loop.maxFd ∧ (h.fn = .accept ∨ h.fn = .signal)

/-! ### The invariant -/

/-- A registration of a connection is for one that is out, on its descriptor. -/
def Registered (w : Worker) (out : Finset ConnId) (fd : ℤ) : EvFn → Prop
  | .accept | .signal => True
  | .client c => c ∈ out ∧ (w.heap c).fd = fd
  | .upstream c => c ∈ out ∧ (w.heap c).upstreamFd = fd ∧ 0 ≤ fd

/-- What holds between two handlers, with the objects that are out. -/
structure Inv (w : Worker) (out : Finset ConnId) : Prop where
  ledger : Ledger.track ∅ (poolEntries w.log) = some out
  fresh : ∀ c ∈ out, c < w.fresh
  fd : ∀ c ∈ out, 0 ≤ (w.heap c).fd
  tunnel : ∀ c ∈ out, (w.heap c).state = .tunnel → 0 ≤ (w.heap c).upstreamFd
  handlers : ∀ fd h, w.ws.loop.handlers fd = some h →
    fd < w.ws.loop.maxFd ∧ w.Registered out fd h.fn
  free : ∃ l, w.FreeList out l ∧ ∀ c ∈ l, c < w.fresh

variable {w : Worker} {out : Finset ConnId} {c : ConnId} {env : Env} {f : St → St}

lemma Inv.poolSafe (h : w.Inv out) : w.PoolSafe := by
  obtain ⟨l, hl, -⟩ := h.free
  exact ⟨out, l, h.ledger, hl⟩

lemma Start.inv (h : w.Start) : w.Inv ∅ := by
  obtain ⟨maxFree, h0, hpool⟩ := h.pool
  refine ⟨by rw [h.log]; rfl, by simp, by simp, by simp, ?_, [], ⟨?_, List.nodup_nil, ?_, ?_,
    by simp⟩, by simp⟩
  · intro fd r hr
    obtain ⟨hmax, hfn⟩ := h.handlers fd r hr
    refine ⟨hmax, ?_⟩
    rcases hfn with hfn | hfn <;> rw [hfn] <;> trivial
  · rw [hpool]
    rfl
  · rw [hpool]
    rfl
  · rw [hpool]
    exact h0

/-! ### Handlers of a connection -/

lemma FreeList.congr {w' : Worker} {out' : Finset ConnId} {l : List ConnId}
    (hl : w.FreeList out l) (hpool : w'.ws.pool = w.ws.pool)
    (hnext : ∀ d ∈ l, (w'.heap d).next = (w.heap d).next) (hnot : ∀ d ∈ l, d ∉ out') :
    w'.FreeList out' l := by
  refine ⟨?_, hl.nodup, by rw [hpool]; exact hl.count, by rw [hpool]; exact hl.bound, hnot⟩
  rw [hpool]
  exact hl.chain.congr hnext

/-- A connection object changes; the registrations of the others do not see it. -/
lemma Registered.mono {w' : Worker} {out' : Finset ConnId} {fd : ℤ} {fn : EvFn}
    (h : w.Registered out fd fn) (hout : ∀ d ∈ out, fn = .client d ∨ fn = .upstream d → d ∈ out')
    (hheap : ∀ d ∈ out, fn = .client d → (w'.heap d).fd = (w.heap d).fd)
    (hup : ∀ d ∈ out, fn = .upstream d → (w'.heap d).upstreamFd = (w.heap d).upstreamFd ∨
      (w.heap d).upstreamFd < 0) :
    w'.Registered out' fd fn := by
  cases fn with
  | accept => trivial
  | signal => trivial
  | client d =>
    obtain ⟨hd, hfd⟩ := h
    exact ⟨hout d hd (Or.inl rfl), (hheap d hd rfl).trans hfd⟩
  | upstream d =>
    obtain ⟨hd, hfd, h0⟩ := h
    refine ⟨hout d hd (Or.inr rfl), ?_, h0⟩
    rcases hup d hd rfl with heq | hneg
    · exact heq.trans hfd
    · omega

@[simp] lemma runOn_heap_self : (w.runOn c env f).heap c = (f (w.handlerState c env)).conn := by
  simp [runOn, handlerState]

lemma runOn_heap_of_ne {d : ConnId} (h : d ≠ c) : (w.runOn c env f).heap d = w.heap d := by
  simp [runOn, h]

/-- What the handler does not change in its connection is unchanged in all of them. -/
lemma runOn_heap_field {β : Type} (g : Conn → β)
    (h : g (f (w.handlerState c env)).conn = g (w.heap c)) (d : ConnId) :
    g ((w.runOn c env f).heap d) = g (w.heap d) := by
  by_cases hdc : d = c
  · rw [hdc, runOn_heap_self]
    exact h
  · rw [runOn_heap_of_ne hdc]

@[simp] lemma runOn_ws : (w.runOn c env f).ws = (f (w.handlerState c env)).ws := rfl

@[simp] lemma runOn_fresh : (w.runOn c env f).fresh = w.fresh := rfl

lemma runOn_poolEntries : poolEntries (w.runOn c env f).log =
    poolEntries w.log ++ poolEntries ((f (w.handlerState c env)).acts.map fun a => (c, a)) :=
  poolEntries_append _ _

/-- **A handler that keeps its connection keeps the invariant.** -/
lemma Inv.runOn_kept (h : w.Inv out) (hc : c ∈ out)
    (hk : St.Kept (w.handlerState c env) (f (w.handlerState c env))) :
    (w.runOn c env f).Inv out := by
  obtain ⟨as, has, hpure⟩ := hk.acts
  obtain ⟨l, hl, hlt⟩ := h.free
  have hup : ∀ d ∈ out, ((w.runOn c env f).heap d).upstreamFd = (w.heap d).upstreamFd ∨
      (w.heap d).upstreamFd < 0 := by
    intro d hd
    by_cases hdc : d = c
    · subst hdc
      rw [runOn_heap_self]
      exact hk.upstreamFd.imp_right And.left
    · rw [runOn_heap_of_ne hdc]
      exact Or.inl rfl
  have hfd : ∀ d, ((w.runOn c env f).heap d).fd = (w.heap d).fd := runOn_heap_field Conn.fd hk.fd
  have hnext : ∀ d, ((w.runOn c env f).heap d).next = (w.heap d).next :=
    runOn_heap_field Conn.next hk.next
  refine ⟨?_, h.fresh, fun d hd => by rw [hfd]; exact h.fd d hd, ?_, ?_, l,
    hl.congr hk.pool (fun d _ => hnext d) hl.notOut, hlt⟩
  · rw [runOn_poolEntries, has]
    simp only [handlerState, List.nil_append, poolEntries_of_not_ofPool hpure, List.append_nil]
    exact h.ledger
  · intro d hd ht
    by_cases hdc : d = c
    · subst hdc
      rw [runOn_heap_self] at ht ⊢
      rcases hk.tunnel ht with ht | h0
      · have h0 := h.tunnel d hd ht
        rw [hk.upstreamFd_eq h0]
        exact h0
      · exact h0
    · rw [runOn_heap_of_ne hdc] at ht ⊢
      exact h.tunnel d hd ht
  · intro fd r hr
    rw [runOn_ws] at hr ⊢
    rw [hk.maxFd]
    -- a registration is an old one, or one that the handler made for its connection
    rcases hk.handlers fd r hr with hr | ⟨hmax, hown⟩
    · obtain ⟨hmax, hreg⟩ := h.handlers fd r hr
      exact ⟨hmax, hreg.mono (fun d hd _ => hd) (fun d _ _ => hfd d) fun d hd _ => hup d hd⟩
    · rw [hk.maxFd] at hmax
      refine ⟨hmax, ?_⟩
      have hself : (f (w.handlerState c env)).self = c := hk.self
      rw [hself] at hown
      rcases hown with ⟨rfl, hfd'⟩ | ⟨rfl, hfd', h0⟩
      · exact ⟨hc, by rw [runOn_heap_self]; exact hfd'.symm⟩
      · exact ⟨hc, by rw [runOn_heap_self]; exact hfd'.symm, h0⟩

/-- The registrations that are left when a connection is given back are not its own, which
are on its descriptors. -/
lemma Inv.handlers_released (h : w.Inv out) (hc : c ∈ out)
    (hr : St.Released (w.handlerState c env) (f (w.handlerState c env))) {fd : ℤ} {r : EvHandler}
    (hreg : (f (w.handlerState c env)).ws.loop.handlers fd = some r) :
    w.ws.loop.handlers fd = some r ∧ r.fn ≠ .client c ∧ r.fn ≠ .upstream c := by
  obtain ⟨hreg, hne⟩ := hr.handlers fd r hreg
  obtain ⟨hmax, hown⟩ := h.handlers fd r hreg
  refine ⟨hreg, fun hfn => ?_, fun hfn => ?_⟩ <;> rw [hfn] at hown
  · have h0 : 0 ≤ fd := by rw [← hown.2]; exact h.fd c hc
    exact (hne h0 hmax).1 hown.2.symm
  · exact (hne hown.2.2 hmax).2 hown.2.1.symm

/-- The free list when a connection is given back. -/
lemma Inv.free_released (h : w.Inv out) (hc : c ∈ out)
    (hr : St.Released (w.handlerState c env) (f (w.handlerState c env))) :
    ∃ l, (w.runOn c env f).FreeList (out.erase c) l ∧ ∀ d ∈ l, d < w.fresh := by
  obtain ⟨as, freed, -, -, hput⟩ := hr.put
  obtain ⟨l, hl, hlt⟩ := h.free
  have hcl : c ∉ l := fun hmem => hl.notOut c hmem hc
  have hnext : ∀ d ∈ l, ((w.runOn c env f).heap d).next = (w.heap d).next := by
    intro d hd
    rw [runOn_heap_of_ne (ne_of_mem_of_not_mem hd hcl)]
  have hnot : ∀ d ∈ l, d ∉ out.erase c := fun d hd hmem =>
    hl.notOut d hd (Finset.mem_of_mem_erase hmem)
  cases freed with
  | true => exact ⟨l, hl.congr hput hnext hnot, hlt⟩
  | false =>
    obtain ⟨hroom, hhead, hpool⟩ := hput
    replace hpool : (w.runOn c env f).ws.pool =
      ⟨some c, w.ws.pool.freeCount + 1, w.ws.pool.maxFree⟩ := hpool
    replace hroom : w.ws.pool.freeCount < w.ws.pool.maxFree := hroom
    refine ⟨c :: l, ⟨?_, List.nodup_cons.mpr ⟨hcl, hl.nodup⟩, ?_, ?_, ?_⟩, ?_⟩
    · rw [hpool]
      exact hl.chain.push (by rw [runOn_heap_self]; exact hhead) hnext
    · rw [hpool, List.length_cons, hl.count]
      push_cast
      rfl
    · rw [hpool]
      exact hroom
    · intro d hd
      rcases List.mem_cons.mp hd with rfl | hd
      · simp
      · exact hnot d hd
    · intro d hd
      rcases List.mem_cons.mp hd with rfl | hd
      · exact h.fresh d hc
      · exact hlt d hd

/-- **A handler that gives its connection back keeps the invariant.** -/
lemma Inv.runOn_released (h : w.Inv out) (hc : c ∈ out)
    (hr : St.Released (w.handlerState c env) (f (w.handlerState c env))) :
    (w.runOn c env f).Inv (out.erase c) := by
  obtain ⟨as, freed, has, hpure, -⟩ := hr.put
  have hother : ∀ d ∈ out.erase c, (w.runOn c env f).heap d = w.heap d := fun d hd =>
    runOn_heap_of_ne (Finset.ne_of_mem_erase hd)
  refine ⟨?_, fun d hd => h.fresh d (Finset.mem_of_mem_erase hd), ?_, ?_, ?_,
    h.free_released hc hr⟩
  · rw [runOn_poolEntries, has, Ledger.track_append, h.ledger]
    simp only [handlerState, List.nil_append, List.map_append, poolEntries_append,
      poolEntries_of_not_ofPool hpure, Option.bind_some]
    exact Ledger.track_back hc
  · intro d hd
    rw [hother d hd]
    exact h.fd d (Finset.mem_of_mem_erase hd)
  · intro d hd ht
    rw [hother d hd] at ht ⊢
    exact h.tunnel d (Finset.mem_of_mem_erase hd) ht
  · intro fd r hreg
    rw [runOn_ws] at hreg ⊢
    rw [hr.maxFd]
    obtain ⟨hreg, hclient, hupstream⟩ := h.handlers_released hc hr hreg
    obtain ⟨hmax, hreg⟩ := h.handlers fd r hreg
    refine ⟨hmax, hreg.mono (fun d hd hfn => Finset.mem_erase.mpr ⟨?_, hd⟩) ?_ ?_⟩
    · rintro rfl
      exact hfn.elim hclient hupstream
    · intro d hd hfn
      rw [runOn_heap_of_ne (by rintro rfl; exact hclient hfn)]
    · intro d hd hfn
      rw [runOn_heap_of_ne (by rintro rfl; exact hupstream hfn)]
      exact Or.inl rfl

lemma Inv.runOn (h : w.Inv out) (hc : c ∈ out)
    (he : St.Ends (w.handlerState c env) (f (w.handlerState c env))) :
    ∃ out', (w.runOn c env f).Inv out' := by
  rcases he with hk | hr
  · exact ⟨out, h.runOn_kept hc hk⟩
  · exact ⟨out.erase c, h.runOn_released hc hr⟩

/-! ### Accepting -/

/-- What `conn_pool_get` hands out is not out. -/
structure HandedOut (w : Worker) (out : Finset ConnId) (fd : ℤ) (c : ConnId) (w' : Worker) :
    Prop where
  notOut : c ∉ out
  lt_fresh : c < w'.fresh
  fresh_le : w.fresh ≤ w'.fresh
  log : w'.log = w.log
  loop : w'.ws.loop = w.ws.loop
  heap : ∀ d ≠ c, w'.heap d = w.heap d
  fd : (w'.heap c).fd = fd
  state : (w'.heap c).state = .readingRequest
  free : ∃ l, w'.FreeList (insert c out) l ∧ ∀ d ∈ l, d < w'.fresh

lemma Inv.handedOut (h : w.Inv out) {fd : ℤ} {peer : InAddr} {alloc : Option ℕ} {w' : Worker}
    (hget : w.connPoolGet fd peer alloc = some (c, w')) : w.HandedOut out fd c w' := by
  obtain ⟨l, hl, hlt⟩ := h.free
  have hchain := hl.chain
  rw [connPoolGet.eq_def] at hget
  split at hget
  · rename_i d hhead
    obtain ⟨rfl, rfl⟩ := Prod.mk.inj (Option.some.inj hget)
    rw [hhead] at hchain
    obtain ⟨l, rfl, htail⟩ := hchain.pop
    obtain ⟨hd, hnodup⟩ := List.nodup_cons.mp hl.nodup
    refine ⟨hl.notOut d (by simp), hlt d (by simp), le_rfl, rfl, rfl, fun e he => by simp [he],
      by simp [connReset, connInitBufs], by simp [connReset, connInitBufs], l,
      ⟨?_, hnodup, ?_, ?_, ?_⟩, fun e he => hlt e (by simp [he])⟩
    · refine htail.congr fun e he => ?_
      simp [ne_of_mem_of_not_mem he hd]
    · have := hl.count
      simp only [List.length_cons] at this
      push_cast at this
      simp only
      omega
    · have := hl.bound
      simp only
      omega
    · intro e he
      simp [ne_of_mem_of_not_mem he hd, hl.notOut e (by simp [he])]
  · rename_i hhead
    rw [hhead] at hchain
    obtain rfl := hchain.eq_nil
    split at hget
    · simp at hget
    · obtain ⟨rfl, rfl⟩ := Prod.mk.inj (Option.some.inj hget)
      refine ⟨fun hmem => lt_irrefl _ (h.fresh _ hmem), Nat.lt_succ_self _, Nat.le_succ _, rfl,
        rfl, fun e he => by simp [he], ?_, ?_, [], ⟨hhead, hl.nodup, hl.count, hl.bound, by simp⟩,
        by simp⟩
      · simp [connCreate, connReset, connInitBufs]
      · simp [connCreate, connReset, connInitBufs]

lemma acceptOne_of_get {fd : ℤ} {peer : InAddr} {alloc : Option ℕ} {w' : Worker}
    (hget : w.connPoolGet fd peer alloc = some (c, w')) :
    w.acceptOne fd peer alloc = { w' with
      ws := { w'.ws with
        activeConns := w'.ws.activeConns + 1
        openFds := insert fd w'.ws.openFds
        loop := eventLoopAdd w'.ws.loop fd evR (.client c) }
      log := w'.log ++ [(c, .poolGet)] } := by
  rw [acceptOne, hget]

/-- **Accepting a client keeps the invariant.** -/
lemma Inv.accepted (h : w.Inv out) {fd : ℤ} (h0 : 0 ≤ fd) {peer : InAddr} {alloc : Option ℕ}
    {w' : Worker} (hget : w.connPoolGet fd peer alloc = some (c, w')) :
    (w.acceptOne fd peer alloc).Inv (insert c out) := by
  have hh := h.handedOut hget
  obtain ⟨l, hl, hlt⟩ := hh.free
  have hold : ∀ d ∈ out, w'.heap d = w.heap d := fun d hd =>
    hh.heap d (ne_of_mem_of_not_mem hd hh.notOut)
  rw [acceptOne_of_get hget]
  refine ⟨?_, ?_, ?_, ?_, ?_, l, ⟨hl.chain, hl.nodup, hl.count, hl.bound, hl.notOut⟩, hlt⟩
  · simp only [hh.log]
    rw [poolEntries_append, Ledger.track_append, h.ledger]
    exact Ledger.track_out hh.notOut
  · intro d hd
    rcases Finset.mem_insert.mp hd with rfl | hd
    · exact hh.lt_fresh
    · exact lt_of_lt_of_le (h.fresh d hd) hh.fresh_le
  · intro d hd
    rcases Finset.mem_insert.mp hd with rfl | hd
    · simp only [hh.fd]
      exact h0
    · simp only [hold d hd]
      exact h.fd d hd
  · intro d hd ht
    rcases Finset.mem_insert.mp hd with rfl | hd
    · simp [hh.state] at ht
    · simp only [hold d hd] at ht ⊢
      exact h.tunnel d hd ht
  · intro fd' r hr
    simp only [eventLoopAdd_handlers, eventLoopAdd_maxFd, hh.loop] at hr ⊢
    -- a registration from before still belongs to a connection that is out
    have hkeep : w.ws.loop.handlers fd' = some r → fd' < w.ws.loop.maxFd ∧
        Registered { w' with
          ws := { w'.ws with
            activeConns := w'.ws.activeConns + 1
            openFds := insert fd w'.ws.openFds
            loop := eventLoopAdd w.ws.loop fd evR (.client c) }
          log := w'.log ++ [(c, .poolGet)] } (insert c out) fd' r.fn := by
      intro hr
      obtain ⟨hmax, hreg⟩ := h.handlers fd' r hr
      refine ⟨hmax, hreg.mono (fun d hd _ => Finset.mem_insert_of_mem hd) ?_ ?_⟩
      · exact fun d hd _ => by simp only [hold d hd]
      · exact fun d hd _ => Or.inl (by simp only [hold d hd])
    split at hr
    · exact hkeep hr
    · by_cases heq : fd' = fd
      · subst heq
        rw [Function.update_self] at hr
        obtain rfl := Option.some.inj hr
        exact ⟨by omega, Finset.mem_insert_self _ _, hh.fd⟩
      · rw [Function.update_of_ne heq] at hr
        exact hkeep hr

lemma Inv.acceptOne (h : w.Inv out) {fd : ℤ} (h0 : 0 ≤ fd) (peer : InAddr) (alloc : Option ℕ) :
    ∃ out', (w.acceptOne fd peer alloc).Inv out' := by
  cases hget : w.connPoolGet fd peer alloc with
  | none => exact ⟨out, by rw [Worker.acceptOne, hget]; exact h⟩
  | some r => exact ⟨insert r.1 out, h.accepted h0 hget⟩

/-- What accepting one client preserves, accepting any number does. -/
lemma onAcceptEvent_invariant {P : Worker → Prop}
    (hone : ∀ w fd peer alloc, 0 ≤ fd → P w → P (w.acceptOne fd peer alloc))
    (accepts : List SysAccept) (h : P w) : P (onAcceptEvent accepts w) := by
  induction accepts generalizing w with
  | nil => exact h
  | cons a accepts ih =>
    cases a with
    | err => exact h
    | conn fd peer alloc =>
      rw [Worker.onAcceptEvent]
      split
      · rename_i hfd
        exact ih (hone w fd peer alloc hfd.1 h)
      · exact h

/-- What does not look at the events, and is preserved by accepting one client and by the
handlers of a connection, is preserved by every step. -/
lemma step_invariant {P : Worker → Prop}
    (hpending : ∀ w pending, P w → P { w with pending := pending })
    (hone : ∀ w fd peer alloc, 0 ≤ fd → P w → P (w.acceptOne fd peer alloc))
    (hclient : ∀ w c env ev, P w → P (w.runOn c env fun st => st.onClientEvent ev))
    (hupstream : ∀ w c env fd ev, P w → P (w.runOn c env fun st => st.proxyOnUpstreamEvent fd ev))
    (h : P w) (i : Input) : P (w.step i) := by
  cases i with
  | wait events =>
    rw [Worker.step]
    split
    · exact hpending w _ h
    · exact h
  | handle env accepts =>
    rw [Worker.step]
    split
    · exact h
    · rename_i r ev pending _
      have h' := hpending w pending h
      rw [call]
      split
      · exact onAcceptEvent_invariant hone accepts h'
      · exact h'
      · exact hclient _ _ env ev h'
      · exact hupstream _ _ env r.fd ev h'

lemma Inv.onAcceptEvent (accepts : List SysAccept) (h : w.Inv out) :
    ∃ out', (Worker.onAcceptEvent accepts w).Inv out' :=
  onAcceptEvent_invariant (P := fun w => ∃ out, w.Inv out)
    (fun _ _ peer alloc hfd ⟨_, h⟩ => h.acceptOne hfd peer alloc) accepts ⟨out, h⟩

/-! ### Runs -/

/-- What holds between two handlers does not depend on the events to come. -/
lemma Inv.setPending (h : w.Inv out) (pending : List (EvHandler × Events)) :
    Inv { w with pending := pending } out := by
  obtain ⟨l, hl, hlt⟩ := h.free
  refine ⟨h.ledger, h.fresh, h.fd, h.tunnel, fun fd r hr => ⟨(h.handlers fd r hr).1, ?_⟩, l,
    ⟨hl.chain, hl.nodup, hl.count, hl.bound, hl.notOut⟩, hlt⟩
  exact (h.handlers fd r hr).2.mono (fun _ hd _ => hd) (fun _ _ _ => rfl) fun _ _ _ => Or.inl rfl

/-- **An orderly step keeps the invariant.** -/
lemma Inv.step (h : w.Inv out) {i : Input} (hi : w.Orderly i) :
    ∃ out', (w.step i).Inv out' := by
  cases i with
  | wait events =>
    rw [Worker.step]
    split
    · exact ⟨out, h.setPending _⟩
    · exact ⟨out, h⟩
  | handle env accepts =>
    rw [Worker.step]
    split
    · exact ⟨out, h⟩
    · rename_i r ev pending hpending
      obtain ⟨hreg, hclient⟩ := hi r ev pending hpending
      have h' := h.setPending pending
      obtain ⟨-, hfn⟩ := h'.handlers r.fd r hreg
      rw [call]
      split <;> rename_i heq <;> rw [heq] at hfn
      · exact h'.onAcceptEvent accepts
      · exact ⟨out, h'⟩
      · obtain ⟨hboth, hup⟩ := hclient _ heq
        exact h'.runOn hfn.1 (St.onClientEvent_ends (h'.fd _ hfn.1) (h'.tunnel _ hfn.1) hboth hup)
      · exact h'.runOn hfn.1
          (St.proxyOnUpstreamEvent_ends (h'.fd _ hfn.1) hfn.2.2 hfn.2.1.symm ev)

/-- **No object is in two places**, over every run of orderly steps. -/
theorem poolSafe_run (w : Worker) (hw : w.Start) (is : List Input)
    (h : Run.Along Worker.step Orderly w is) : (w.run is).PoolSafe := by
  have hinv : ∃ out, (w.run is).Inv out :=
    h.invariant (P := fun w => ∃ out, w.Inv out) (fun _ _ ⟨_, hw⟩ hi => hw.step hi)
      ⟨∅, hw.inv⟩
  obtain ⟨out, hinv⟩ := hinv
  exact hinv.poolSafe

/-! ### Two runs -/

lemma backendWorker_start : backendWorker.Start := by
  refine ⟨rfl, rfl, ⟨4096, by decide, rfl⟩, ?_⟩
  intro fd h hh
  by_cases heq : fd = 3
  · subst heq
    obtain rfl := Option.some.inj hh
    exact ⟨by decide, Or.inl rfl⟩
  · have hnone : backendWorker.ws.loop.handlers fd = none := Function.update_of_ne heq _ _
    simp [hnone] at hh

lemma orderly_handle {h : EvHandler} {ev : Events} {pending : List (EvHandler × Events)}
    {accepts : List SysAccept} (hp : w.pending = (h, ev) :: pending)
    (hreg : w.ws.loop.handlers h.fd = some h)
    (hclient : ∀ c, h.fn = .client c → OrderlyClient (w.handlerState c env) ev) :
    w.Orderly (.handle env accepts) := by
  intro h' ev' pending' hp'
  rw [hp] at hp'
  obtain ⟨rfl, rfl⟩ := Prod.mk.inj (List.cons.inj hp').1
  exact ⟨hreg, hclient⟩

/-- A client asks for a page, and the backend answers and closes. -/
def plainRun : List Input :=
  List.flatten [clientComes, clientAsks "/",
    oneEvent (.upstream 0) 5 inEvent { idleEnv with
      upstreamReads := [.data (bytes "HTTP/1.1 200 OK"), .data []]
      clientWrites := [.wrote 65536] } []]

/-- Along the run of one client its object is in one place at a time. -/
theorem poolSafe_run_plainRun : backendWorker.Start ∧
    Run.Along Worker.step Orderly backendWorker plainRun ∧
      (backendWorker.run plainRun).PoolSafe := by
  have horderly : Run.Along Worker.step Orderly backendWorker plainRun := by
    refine ⟨trivial, ?_, trivial, ?_, trivial, ?_, trivial⟩
    · exact orderly_handle (h := ⟨.accept, 3⟩) rfl rfl (by simp)
    · refine orderly_handle (h := ⟨.client 0, 4⟩) rfl rfl ?_
      rintro _ ⟨⟩
      exact ⟨fun _ hw => absurd hw (by decide), fun _ _ => by decide⟩
    · exact orderly_handle (h := ⟨.upstream 0, 5⟩) rfl rfl (by simp)
  exact ⟨backendWorker_start, horderly, poolSafe_run _ backendWorker_start _ horderly⟩

/-- A client asks for a page and the backend answers. The client's socket does not
take the answer, so its registration asks for both bits. Then the client, which has
sent another request meanwhile, reads. -/
def pipelinedRun : List Input :=
  List.flatten [clientComes, clientAsks "/",
    oneEvent (.upstream 0) 5 inEvent
      { idleEnv with upstreamReads := [.data (bytes "HTTP/1.1 200 OK")] } [],
    oneEvent (.client 0) 4 inOutEvent { idleEnv with
      clientReads := [.data (List.flatten [bytes "GET /healthz HTTP/1.0", crlf, crlf])]
      clientWrites := [.wrote 65536] } []]

/-- **An object that is given back twice.** -/
theorem pipelinedRun_not_poolSafe :
    backendWorker.Start ∧ ¬ (backendWorker.run pipelinedRun).PoolSafe := by
  refine ⟨backendWorker_start, ?_⟩
  rintro ⟨out, l, hledger, -⟩
  have hnone : Ledger.track ∅ (poolEntries (backendWorker.run pipelinedRun).log) = none := by
    decide +kernel
  simp [hnone] at hledger

end Worker

end Nproxy
