import Nproxy.Proc.Calm
import Nproxy.Proc.Pool

/-!
Connections are kept, or closed, as was announced.

* `Noted`: a worker, and beside it what the last head that the program itself has written on
  each connection said about the connection.
* `Keeps`: what a step does about that. After `close` the connection is given back once the
  response is out, and no further request is taken from it; after `keep-alive` it is not given
  back but for a reason that lies with the client or the memory; and what is noted is what the
  head says.
* `Candid`: what a step must be like. It is orderly, the kernel reports a descriptor once, and
  a text that is no request comes on a connection that is not kept and has no upstream.
* `keeps_run`: every run of such steps keeps the word.
* `exists_broken_word`: a run that does not. A request is followed by a text that is none; the
  answer to that says `close`, and the connection stays open.
-/

namespace Nproxy

open Chain (IsChain)

namespace Worker

variable {w : Worker} {out : Finset ConnId} {c : ConnId} {env : Env} {f : St → St}

/-! ### The objects on the free list -/

/-- The write buffers of the objects on the free list are in order. -/
def Stocked (w : Worker) : Prop :=
  ∀ l, IsChain (fun c => (w.heap c).next) w.ws.pool.freeHead l → ∀ c ∈ l, (w.heap c).wbuf.Sound

lemma Start.stocked (h : w.Start) : w.Stocked := by
  obtain ⟨maxFree, -, hpool⟩ := h.pool
  intro l hl
  rw [hpool] at hl
  obtain rfl := IsChain.eq_nil hl
  simp

lemma Stocked.runOn_kept (h : w.Stocked) (hinv : w.Inv out) (hc : c ∈ out)
    (hk : St.Kept (w.handlerState c env) (f (w.handlerState c env))) :
    (w.runOn c env f).Stocked := by
  obtain ⟨l, hl, -⟩ := (hinv.runOn_kept hc hk).free
  obtain ⟨l0, hl0, -⟩ := hinv.free
  intro l' hl' d hd
  obtain rfl := hl.chain.unique hl'
  have hdc : d ≠ c := fun heq => hl.notOut d hd (heq ▸ hc)
  have hchain : IsChain (fun c => (w.heap c).next) w.ws.pool.freeHead l := by
    have hpool : (w.runOn c env f).ws.pool = w.ws.pool := hk.pool
    rw [← hpool]
    exact hl.chain.congr fun e _ => (runOn_heap_field Conn.next hk.next e).symm
  rw [runOn_heap_of_ne hdc]
  exact h l hchain d hd

lemma Stocked.runOn_givesBack (h : w.Stocked) (hinv : w.Inv out) (hc : c ∈ out)
    (hsound : (w.heap c).wbuf.Sound)
    (hg : St.GivesBack (w.handlerState c env) (f (w.handlerState c env))) :
    (w.runOn c env f).Stocked := by
  obtain ⟨as, freed, hacts, -, hput⟩ := hg.released.put
  obtain ⟨l, hl, -⟩ := hinv.free
  have hcl : c ∉ l := fun hmem => hl.notOut c hmem hc
  have hnext : ∀ d ∈ l, ((w.runOn c env f).heap d).next = (w.heap d).next := by
    intro d hd
    rw [runOn_heap_of_ne (ne_of_mem_of_not_mem hd hcl)]
  have hold : ∀ d ∈ l, ((w.runOn c env f).heap d).wbuf.Sound := by
    intro d hd
    rw [runOn_heap_of_ne (ne_of_mem_of_not_mem hd hcl)]
    exact h l hl.chain d hd
  intro l' hl'
  cases freed with
  | true =>
    have hpool : (w.runOn c env f).ws.pool = w.ws.pool := hput
    rw [hpool] at hl'
    obtain rfl := (hl.chain.congr hnext).unique hl'
    exact hold
  | false =>
    obtain ⟨-, hhead, hpool⟩ := hput
    replace hpool : (w.runOn c env f).ws.pool =
      ⟨some c, w.ws.pool.freeCount + 1, w.ws.pool.maxFree⟩ := hpool
    rw [hpool] at hl'
    have hchain := hl.chain.push (a := c) (by rw [runOn_heap_self]; exact hhead) hnext
    obtain rfl := hchain.unique hl'
    intro d hd
    rcases List.mem_cons.mp hd with rfl | hd
    · rw [runOn_heap_self]
      refine (hg.shelved hsound).resolve_left fun hlast => ?_
      rw [hacts] at hlast
      simp at hlast
    · exact hold d hd

/-- What `conn_pool_get` hands out is as new. -/
lemma Stocked.handedOut (h : w.Stocked) (hinv : w.Inv out) {fd : ℤ} {peer : InAddr}
    {alloc : Option ℕ} {w' : Worker} (hget : w.connPoolGet fd peer alloc = some (c, w')) :
    w'.Stocked ∧ (w'.heap c).wbuf.Sound ∧ bufReadable (w'.heap c).wbuf = 0 := by
  have hh := hinv.handedOut hget
  obtain ⟨l, hl, -⟩ := hinv.free
  have hchain := hl.chain
  rw [connPoolGet.eq_def] at hget
  split at hget
  · rename_i d hhead
    obtain ⟨rfl, rfl⟩ := Prod.mk.inj (Option.some.inj hget)
    rw [hhead] at hchain
    obtain ⟨l, rfl, htail⟩ := hchain.pop
    obtain ⟨hd, -⟩ := List.nodup_cons.mp hl.nodup
    have hsound := h _ hl.chain
    refine ⟨fun l' hl' e he => ?_, ?_, ?_⟩
    · have hsame : ∀ e ∈ l, (Function.update w.heap d (connReset (w.heap d) fd peer) e).next =
          (w.heap e).next := fun e he => by simp [ne_of_mem_of_not_mem he hd]
      obtain rfl := (htail.congr hsame).unique hl'
      simp only [Function.update_of_ne (ne_of_mem_of_not_mem he hd)]
      exact hsound e (by simp [he])
    · have hd := hsound d (by simp)
      simp only [Function.update_self]
      exact ⟨bufReset_wf hd.wf, hd.cap, bufReset_tidy _⟩
    · simp only [Function.update_self]
      rfl
  · rename_i hhead
    split at hget
    · simp at hget
    · obtain ⟨rfl, rfl⟩ := Prod.mk.inj (Option.some.inj hget)
      refine ⟨fun l' hl' => ?_, ?_, ?_⟩
      · simp only [hhead] at hl'
        obtain rfl := hl'.eq_nil
        simp
      · simp only [Function.update_self]
        exact ⟨bufReset_wf (bufInit_wf (by decide)), rfl, bufReset_tidy _⟩
      · simp only [Function.update_self]
        rfl

/-! ### What a step must be like -/

/-- `epoll_wait` reports a descriptor once. -/
def Distinct : Input → Prop
  | .wait events => (events.map fun e => e.1.fd).Nodup
  | .handle _ _ => True

/-- If the next event is a client's and what is read is no request, the connection is not one
that is kept, and it has no upstream. -/
def Candid (w : Worker) : Input → Prop
  | .wait _ => True
  | .handle env _ => ∀ h ev pending, w.pending = (h, ev) :: pending → ∀ c, h.fn = .client c →
      ev.read = true → (w.handlerState c env).Rejects →
        (w.heap c).keepAlive = false ∧ (w.heap c).upstreamFd < 0

/-- What a step adds to the log. -/
def news (w : Worker) (i : Input) : List (ConnId × Act) := (w.step i).log.drop w.log.length

lemma news_eq {i : Input} {l : List (ConnId × Act)} (h : (w.step i).log = w.log ++ l) :
    w.news i = l := by
  rw [news, h, List.drop_left]

/-- The next event is one of the client `c`, and it cuts the connection short. -/
def Interrupted (w : Worker) (i : Input) (c : ConnId) : Prop :=
  match i with
  | .wait _ => False
  | .handle env _ => ∃ h ev pending, w.pending = (h, ev) :: pending ∧ h.fn = .client c ∧
      (w.handlerState c env).Interrupts ev

end Worker

/-- A worker, and what the last head on each connection said about it. -/
structure Noted where
  worker : Worker
  said : ConnId → Option Bool

namespace Noted

/-- What is noted after an event. A connection that has just come was told nothing. The only
head that is written in an event of an upstream is that of a 502. -/
def note (s : Noted) (env : Env) (h : EvHandler) (ev : Events) (news : List (ConnId × Act)) :
    ConnId → Option Bool :=
  match h.fn with
  | .accept => fun c => if (c, .poolGet) ∈ news then none else s.said c
  | .signal => s.said
  | .client c =>
    let st := s.worker.handlerState c env
    Function.update s.said c (st.heard (st.onClientEvent ev) (s.said c))
  | .upstream c =>
    if (s.worker.handlerState c env).ForwardFails h.fd ev then
      Function.update s.said c (some false)
    else s.said

/-- One step of the worker, while it is noted what each client was told about its connection. -/
def step (s : Noted) (i : Input) : Noted where
  worker := s.worker.step i
  said :=
    match i with
    | .wait _ => s.said
    | .handle env _ =>
      match s.worker.pending with
      | [] => s.said
      | (h, ev) :: _ => s.note env h ev (s.worker.news i)

/-- **The word is kept** in a step. -/
structure Keeps (s : Noted) (i : Input) : Prop where
  /-- after `close`, there is still something to write, or the connection is given back -/
  closes : ∀ out c, Ledger.track ∅ (poolEntries (s.step i).worker.log) = some out → c ∈ out →
    (s.step i).said c = some false → 0 < bufReadable ((s.step i).worker.heap c).wbuf
  /-- after `close`, nothing that the client sends is taken or answered -/
  silent : ∀ c a, s.said c = some false → (c, a) ∈ s.worker.news i → a.decides = false
  /-- after `keep-alive`, the connection is not given back without a reason -/
  stays : ∀ c freed, (s.step i).said c = some true → (c, .poolPut freed) ∈ s.worker.news i →
    s.worker.Interrupted i c
  /-- what is noted is what the head says that was put in the buffer -/
  tells : ∀ env accepts c req b, i = .handle env accepts → (c, .dispatch req) ∈ s.worker.news i →
    (s.step i).said c = some b →
      St.Announces (s.worker.handlerState c env).taking (s.worker.handlerState c env).served b

/-! ### The invariant -/

/-- What holds between two events, with the connections that are out. -/
structure Good (s : Noted) (out : Finset ConnId) : Prop where
  inv : s.worker.Inv out
  stocked : s.worker.Stocked
  distinct : (s.worker.pending.map fun e => e.1.fd).Nodup
  calm : ∀ c ∈ out, Calm s.worker.ws.loop c (s.worker.heap c) (s.said c)
  quiet : ∀ c ∈ out, 0 < bufReadable (s.worker.heap c).wbuf → ∀ e ∈ s.worker.pending,
    e.1 = ⟨.client c, (s.worker.heap c).fd⟩ → e.2.read = false

variable {w : Worker} {said : ConnId → Option Bool} {out : Finset ConnId} {c : ConnId}
  {env : Env} {f : St → St} {x : Option Bool}

lemma Good.start (h : w.Start) : Good ⟨w, fun _ => none⟩ ∅ :=
  ⟨h.inv, h.stocked, by simp [h.pending], by simp, by simp⟩

lemma Good.pop (h : Good ⟨w, said⟩ out) {e : EvHandler × Events}
    {pending : List (EvHandler × Events)} (hp : w.pending = e :: pending) :
    Good ⟨{ w with pending := pending }, said⟩ out := by
  refine ⟨h.inv.setPending pending, h.stocked, ?_, h.calm, fun c hc hleft e' he' => ?_⟩
  · have hdistinct := h.distinct
    rw [hp, List.map_cons] at hdistinct
    exact (List.nodup_cons.mp hdistinct).2
  · refine h.quiet c hc hleft e' ?_
    rw [hp]
    exact List.mem_cons_of_mem e he'

lemma Good.bystander (h : Good ⟨w, said⟩ out)
    (hs : St.Spares (w.handlerState c env) (f (w.handlerState c env))) {d : ConnId}
    (hd : d ∈ out) (hdc : d ≠ c) :
    Calm (w.runOn c env f).ws.loop d ((w.runOn c env f).heap d) (Function.update said c x d) := by
  rw [Worker.runOn_heap_of_ne hdc, Function.update_of_ne hdc]
  refine (h.calm d hd).spared fun fd hfd => hs.others fd _ ?_ ?_ hfd
  · exact fun heq => hdc (EvFn.client.inj heq)
  · exact EvFn.noConfusion

/-- A handler whose connection goes on. -/
lemma Good.runOn_lives (h : Good ⟨w, said⟩ out) (hc : c ∈ out)
    (hother : 0 < bufReadable (f (w.handlerState c env)).conn.wbuf →
      ∀ e ∈ w.pending, e.1.fd ≠ (w.heap c).fd)
    (hl : St.Lives (w.handlerState c env) (f (w.handlerState c env)) x) :
    Good ⟨w.runOn c env f, Function.update said c x⟩ out := by
  have hself : (f (w.handlerState c env)).self = c := hl.spares.self
  refine ⟨h.inv.runOn_kept hc hl.kept, h.stocked.runOn_kept h.inv hc hl.kept, h.distinct,
    fun d hd => ?_, fun d hd hleft e he heq => ?_⟩
  · by_cases hdc : d = c
    · subst hdc
      have hcalm := hl.calm
      rw [hself] at hcalm
      simp only [Worker.runOn_heap_self, Function.update_self]
      exact hcalm
    · exact h.bystander hl.spares hd hdc
  · by_cases hdc : d = c
    · subst hdc
      simp only [Worker.runOn_heap_self] at hleft heq
      have hfd : (f (w.handlerState d env)).conn.fd = (w.heap d).fd := hl.kept.fd
      rw [hfd] at heq
      exact absurd (congrArg EvHandler.fd heq) (hother hleft e he)
    · simp only [Worker.runOn_heap_of_ne hdc] at hleft heq
      exact h.quiet d hd hleft e he heq

/-- A handler that gives its connection back. -/
lemma Good.runOn_givesBack (h : Good ⟨w, said⟩ out) (hc : c ∈ out)
    (hg : St.GivesBack (w.handlerState c env) (f (w.handlerState c env))) :
    Good ⟨w.runOn c env f, Function.update said c x⟩ (out.erase c) := by
  refine ⟨h.inv.runOn_released hc hg.released,
    h.stocked.runOn_givesBack h.inv hc (h.calm c hc).sound hg, h.distinct, fun d hd => ?_,
    fun d hd hleft e he heq => ?_⟩
  · exact h.bystander hg.spares (Finset.mem_of_mem_erase hd) (Finset.ne_of_mem_erase hd)
  · simp only [Worker.runOn_heap_of_ne (Finset.ne_of_mem_erase hd)] at hleft heq
    exact h.quiet d (Finset.mem_of_mem_erase hd) hleft e he heq

/-- What was said is not forgotten while there is something to write. -/
lemma Good.closes {s : Noted} (h : Good s out) :
    ∀ out' c, Ledger.track ∅ (poolEntries s.worker.log) = some out' → c ∈ out' →
      s.said c = some false → 0 < bufReadable (s.worker.heap c).wbuf := by
  intro out' c hledger hc
  rw [h.inv.ledger] at hledger
  obtain rfl := Option.some.inj hledger
  exact (h.calm c hc).due

/-! ### `epoll_wait` -/

/-- The events that are reported are for descriptors that were asked for. -/
lemma harvest_eq {e e' : EvHandler × Events} (h : w.harvest e = some e') :
    e'.1 = e.1 ∧ w.ws.loop.handlers e.1.fd = some e.1 ∧
      ∃ m, w.ws.loop.interest e.1.fd = some m ∧ (e'.2.read = true → m.read = true) := by
  rw [Worker.harvest] at h
  split at h
  · rename_i m hm
    split at h
    · rename_i hreg
      obtain rfl := Option.some.inj h
      refine ⟨rfl, hreg, m, hm, fun hread => ?_⟩
      exact ((Bool.and_eq_true _ _).mp hread).2
    · simp at h
  · simp at h

lemma map_harvest_sublist (w : Worker) (events : List (EvHandler × Events)) :
    List.Sublist ((events.filterMap w.harvest).map fun e => e.1.fd)
      (events.map fun e => e.1.fd) := by
  induction events with
  | nil => exact List.Sublist.slnil
  | cons e events ih =>
    cases he : w.harvest e with
    | none =>
      rw [List.filterMap_cons_none he]
      exact ih.cons _
    | some e' =>
      rw [List.filterMap_cons_some he, List.map_cons, List.map_cons, (harvest_eq he).1]
      exact ih.cons_cons _

lemma Good.wait (h : Good ⟨w, said⟩ out) {events : List (EvHandler × Events)}
    (hdistinct : (events.map fun e => e.1.fd).Nodup) :
    Good ⟨{ w with pending := events.filterMap w.harvest }, said⟩ out := by
  refine ⟨h.inv.setPending _, h.stocked, hdistinct.sublist (map_harvest_sublist w events), h.calm,
    fun c hc hleft e' he' heq => ?_⟩
  obtain ⟨e, -, he⟩ := List.mem_filterMap.mp he'
  obtain ⟨hsame, hreg, m, hm, hread⟩ := harvest_eq he
  replace heq : e.1 = ⟨.client c, (w.heap c).fd⟩ := hsame.symm.trans heq
  rw [heq] at hreg hm
  have hdeaf : m.read = false := (h.calm c hc).deaf hleft m hreg hm
  refine Bool.eq_false_of_not_eq_true fun htrue => ?_
  exact absurd ((hread htrue).symm.trans hdeaf) (by decide)

/-! ### Accepting -/

lemma connPoolGet_same {fd : ℤ} {peer : InAddr} {alloc : Option ℕ} {w' : Worker}
    (hget : w.connPoolGet fd peer alloc = some (c, w')) :
    w'.pending = w.pending ∧ w'.log = w.log := by
  rw [Worker.connPoolGet.eq_def] at hget
  split at hget
  · obtain ⟨-, rfl⟩ := Prod.mk.inj (Option.some.inj hget)
    exact ⟨rfl, rfl⟩
  · split at hget
    · simp at hget
    · obtain ⟨-, rfl⟩ := Prod.mk.inj (Option.some.inj hget)
      exact ⟨rfl, rfl⟩

lemma Good.accepted (h : Good ⟨w, said⟩ out) {fd : ℤ} (h0 : 0 ≤ fd) {peer : InAddr}
    {alloc : Option ℕ} {w' : Worker} (hget : w.connPoolGet fd peer alloc = some (c, w')) :
    Good ⟨w.acceptOne fd peer alloc, Function.update said c none⟩ (insert c out) := by
  have hh := h.inv.handedOut hget
  obtain ⟨hstocked, hsound, hempty⟩ := h.stocked.handedOut h.inv hget
  obtain ⟨hpending, -⟩ := connPoolGet_same hget
  have hinv := h.inv.accepted h0 hget
  have hnew : ¬0 < bufReadable (w'.heap c).wbuf := by
    rw [hempty]
    exact lt_irrefl 0
  rw [Worker.acceptOne_of_get hget] at hinv ⊢
  refine ⟨hinv, hstocked, by simp only [hpending]; exact h.distinct, fun d hd => ?_,
    fun d hd hleft => ?_⟩
  · rcases Finset.mem_insert.mp hd with rfl | hd
    · simp only [Function.update_self]
      refine ⟨?_, hsound, ?_, by simp, by simp, fun hleft => absurd hleft hnew,
        fun hleft => absurd hleft hnew⟩
      · rw [hh.state]
        decide
      · rw [hh.state]
        exact fun hrelayed => absurd hrelayed (by decide)
    · have hdc : d ≠ c := ne_of_mem_of_not_mem hd hh.notOut
      simp only [hh.heap d hdc, hh.loop, Function.update_of_ne hdc]
      refine (h.calm d hd).spared fun fd' hfd' => eventLoopAdd_spared ?_ hfd'
      exact fun heq => hdc (EvFn.client.inj heq)
  · rcases Finset.mem_insert.mp hd with rfl | hd
    · exact absurd hleft hnew
    · have hdc : d ≠ c := ne_of_mem_of_not_mem hd hh.notOut
      simp only [hh.heap d hdc, hpending] at hleft ⊢
      exact h.quiet d hd hleft

lemma Good.onAcceptEvent (h : Good ⟨w, said⟩ out) (accepts : List SysAccept) :
    ∃ l out', (Worker.onAcceptEvent accepts w).log = w.log ++ l ∧ (∀ e ∈ l, e.2 = .poolGet) ∧
      Good ⟨Worker.onAcceptEvent accepts w,
        fun c => if (c, .poolGet) ∈ l then none else said c⟩ out' := by
  refine Worker.onAcceptEvent_invariant (P := fun w1 => ∃ l out', w1.log = w.log ++ l ∧
    (∀ e ∈ l, e.2 = .poolGet) ∧
      Good ⟨w1, fun c => if (c, .poolGet) ∈ l then none else said c⟩ out') ?_ accepts
    ⟨[], out, (List.append_nil _).symm, by simp, by simpa using h⟩
  rintro w1 fd peer alloc h0 ⟨l, out1, hlog, hl, hgood⟩
  cases hget : w1.connPoolGet fd peer alloc with
  | none =>
    rw [Worker.acceptOne, hget]
    exact ⟨l, out1, hlog, hl, hgood⟩
  | some r =>
    obtain ⟨c, w'⟩ := r
    have hgood' := hgood.accepted h0 hget
    obtain ⟨-, hlog'⟩ := connPoolGet_same hget
    refine ⟨l ++ [(c, .poolGet)], insert c out1, ?_, ?_, ?_⟩
    · rw [Worker.acceptOne_of_get hget]
      simp only [hlog', hlog, List.append_assoc]
    · intro e he
      rcases List.mem_append.mp he with he | he
      · exact hl e he
      · rw [List.mem_singleton.mp he]
    · convert hgood' using 2
      funext d
      by_cases hdc : d = c
      · simp [hdc]
      · simp [hdc]

/-! ### Events of connections -/

/-- The other events are for other descriptors. -/
lemma Good.pending_ne {h : EvHandler} {ev : Events} {pending : List (EvHandler × Events)}
    (hgood : Good ⟨w, said⟩ out) (hp : w.pending = (h, ev) :: pending) :
    ∀ e ∈ pending, e.1.fd ≠ h.fd := by
  have hdistinct := hgood.distinct
  rw [hp, List.map_cons] at hdistinct
  intro e he heq
  refine (List.nodup_cons.mp hdistinct).1 ?_
  rw [← heq]
  exact List.mem_map_of_mem he

/-- Without a read there is nothing to say in an event of the client. -/
lemma Good.client_read (hgood : Good ⟨w, said⟩ out) {h : EvHandler} {ev : Events}
    {pending : List (EvHandler × Events)} (hp : w.pending = (h, ev) :: pending)
    (hreg : w.ws.loop.handlers h.fd = some h) (hfn : h.fn = .client c) :
    c ∈ out ∧ (w.heap c).fd = h.fd ∧ (0 < bufReadable (w.heap c).wbuf → ev.read = false) := by
  obtain ⟨-, hown⟩ := hgood.inv.handlers h.fd h hreg
  rw [hfn] at hown
  obtain ⟨hc, hfd⟩ := hown
  refine ⟨hc, hfd, fun hleft => hgood.quiet c hc hleft (h, ev) (by simp [hp]) ?_⟩
  rw [← hfn]
  exact congrArg (EvHandler.mk h.fn) hfd.symm

/-- **An event of a client.** -/
lemma Good.client (hgood : Good ⟨w, said⟩ out) {h : EvHandler} {ev : Events}
    {pending : List (EvHandler × Events)} (hp : w.pending = (h, ev) :: pending)
    (hreg : w.ws.loop.handlers h.fd = some h) (hfn : h.fn = .client c)
    (horderly : Worker.OrderlyClient (w.handlerState c env) ev)
    (hcandid : ev.read = true → (w.handlerState c env).Rejects →
      (w.heap c).keepAlive = false ∧ (w.heap c).upstreamFd < 0) :
    (∃ out', Good ⟨{ w with pending := pending }.runOn c env fun st => st.onClientEvent ev,
        Function.update said c ((w.handlerState c env).heard
          ((w.handlerState c env).onClientEvent ev) (said c))⟩ out') ∧
      ∀ freed, .poolPut freed ∈ ((w.handlerState c env).onClientEvent ev).acts →
        (w.handlerState c env).heard ((w.handlerState c env).onClientEvent ev) (said c) =
          some true → (w.handlerState c env).Interrupts ev := by
  obtain ⟨hc, hfd, hquiet⟩ := hgood.client_read hp hreg hfn
  have hrange : (w.handlerState c env).InRange := fun r hr => (hgood.inv.handlers _ r hr).1
  have hpop := hgood.pop hp
  have hother : ∀ e ∈ pending, e.1.fd ≠ (w.heap c).fd := by
    rw [hfd]
    exact hgood.pending_ne hp
  rcases St.onClientEvent_told rfl (hgood.inv.fd c hc) hrange
    (hgood.calm c hc) hquiet horderly.1 horderly.2 hcandid with hlives | ⟨hgives, hcut⟩
  · refine ⟨⟨out, hpop.runOn_lives hc (fun _ => hother) hlives⟩, fun freed hput => ?_⟩
    obtain ⟨as, has, hpure⟩ := hlives.kept.acts
    rw [has] at hput
    have hmem : .poolPut freed ∈ as := hput
    exact absurd (hpure _ hmem) (by simp [Act.ofPool])
  · exact ⟨⟨out.erase c, hpop.runOn_givesBack hc hgives⟩, fun _ _ => hcut⟩

/-- **An event of an upstream.** Nothing was said on the connection. -/
lemma Good.upstream (hgood : Good ⟨w, said⟩ out) (env : Env) {h : EvHandler} {ev : Events}
    {pending : List (EvHandler × Events)} (hp : w.pending = (h, ev) :: pending)
    (hreg : w.ws.loop.handlers h.fd = some h) (hfn : h.fn = .upstream c) :
    said c = none ∧
      ∃ out', Good ⟨{ w with pending := pending }.runOn c env
          fun st => st.proxyOnUpstreamEvent h.fd ev,
        if (w.handlerState c env).ForwardFails h.fd ev then Function.update said c (some false)
        else said⟩ out' := by
  obtain ⟨-, hown⟩ := hgood.inv.handlers h.fd h hreg
  rw [hfn] at hown
  obtain ⟨hc, hup, h0⟩ := hown
  replace hup : (w.heap c).upstreamFd = h.fd := hup
  have hcalm : Calm w.ws.loop c (w.heap c) (said c) := hgood.calm c hc
  have hpop := hgood.pop hp
  have hempty : bufReadable (w.heap c).wbuf = 0 := by
    refine Nat.eq_zero_of_not_pos fun hleft => ?_
    have hneg := hcalm.busy hleft
    omega
  refine ⟨?_, ?_⟩
  · refine Option.eq_none_iff_forall_ne_some.mpr fun b hb => ?_
    have hneg := (hcalm.word b hb).2
    omega
  · have hfd : 0 ≤ (w.handlerState c env).conn.fd := hgood.inv.fd c hc
    rcases St.proxyOnUpstreamEvent_goes hfd h0 hup.symm ev with ⟨hidles, hgoes⟩ | hhangs
    · have hempty' :
          bufReadable ((w.handlerState c env).proxyOnUpstreamEvent h.fd ev).conn.wbuf = 0 := by
        rw [hidles.wbuf]
        exact hempty
      rw [if_neg hgoes, ← Function.update_eq_self c said]
      exact ⟨out, hpop.runOn_lives hc (fun hleft => absurd hempty' (Nat.ne_of_gt hleft))
        (hidles.lives hcalm hempty)⟩
    · refine ⟨out.erase c, ?_⟩
      split
      · exact hpop.runOn_givesBack hc hhangs.toGivesBack
      · rw [← Function.update_eq_self c said]
        exact hpop.runOn_givesBack hc hhangs.toGivesBack

/-! ### Steps -/

lemma keeps_of_news {s : Noted} {i : Input} (hgood : Good (s.step i) out)
    (hnews : s.worker.news i = []) : s.Keeps i := by
  refine ⟨hgood.closes, ?_, ?_, ?_⟩ <;> simp [hnews]

variable {h : EvHandler} {ev : Events} {pending : List (EvHandler × Events)}
  {accepts : List SysAccept}

lemma step_handle (hp : w.pending = (h, ev) :: pending) :
    Noted.step ⟨w, said⟩ (.handle env accepts) =
      ⟨{ w with pending := pending }.call h ev env accepts,
        note ⟨w, said⟩ env h ev (w.news (.handle env accepts))⟩ := by
  simp [Noted.step, Worker.step, hp]

/-- The next event is one of `on_accept_event`. -/
lemma Good.step_accept (hgood : Good ⟨w, said⟩ out) (hp : w.pending = (h, ev) :: pending)
    (hfn : h.fn = .accept) :
    Keeps ⟨w, said⟩ (.handle env accepts) ∧
      ∃ out', Good (Noted.step ⟨w, said⟩ (.handle env accepts)) out' := by
  obtain ⟨l, out', hlog, hl, hgood'⟩ := (hgood.pop hp).onAcceptEvent accepts
  have hnews : w.news (.handle env accepts) = l := by
    refine Worker.news_eq ?_
    rw [Worker.step, hp]
    simp only [Worker.call, hfn]
    exact hlog
  have hstep : Noted.step ⟨w, said⟩ (.handle env accepts) =
      ⟨Worker.onAcceptEvent accepts { w with pending := pending },
        fun c => if (c, .poolGet) ∈ l then none else said c⟩ := by
    rw [step_handle hp, note, hnews]
    simp only [Worker.call, hfn]
  have hget : ∀ {c a}, (c, a) ∈ w.news (.handle env accepts) → a = .poolGet := by
    intro c a hmem
    rw [hnews] at hmem
    exact hl _ hmem
  rw [← hstep] at hgood'
  refine ⟨⟨hgood'.closes, fun c a _ hmem => ?_, fun c freed _ hmem => ?_,
    fun _ _ c req b _ hmem => ?_⟩, out', hgood'⟩
  · rw [hget hmem]
    rfl
  · exact absurd (hget hmem) (by simp)
  · exact absurd (hget hmem) (by simp)

/-- An event of a connection does something on that connection only. -/
lemma mem_news_runOn {f : St → St} (hp : w.pending = (h, ev) :: pending)
    (hcall : { w with pending := pending }.call h ev env accepts =
      { w with pending := pending }.runOn c env f) {d : ConnId} {a : Act}
    (hmem : (d, a) ∈ w.news (.handle env accepts)) :
    d = c ∧ a ∈ (f (w.handlerState c env)).acts := by
  have hnews : w.news (.handle env accepts) =
      (f (w.handlerState c env)).acts.map fun a => (c, a) := by
    refine Worker.news_eq ?_
    rw [Worker.step, hp]
    simp only [hcall]
    rfl
  rw [hnews] at hmem
  obtain ⟨a', ha', heq⟩ := List.mem_map.mp hmem
  obtain ⟨rfl, rfl⟩ := Prod.mk.inj heq
  exact ⟨rfl, ha'⟩

lemma Good.step_client (hgood : Good ⟨w, said⟩ out) (hp : w.pending = (h, ev) :: pending)
    (hfn : h.fn = .client c) (hreg : w.ws.loop.handlers h.fd = some h)
    (horderly : Worker.OrderlyClient (w.handlerState c env) ev)
    (hcandid : ev.read = true → (w.handlerState c env).Rejects →
      (w.heap c).keepAlive = false ∧ (w.heap c).upstreamFd < 0) :
    Keeps ⟨w, said⟩ (.handle env accepts) ∧
      ∃ out', Good (Noted.step ⟨w, said⟩ (.handle env accepts)) out' := by
  obtain ⟨hc, -, hquiet⟩ := hgood.client_read hp hreg hfn
  have hcalm : Calm w.ws.loop c (w.heap c) (said c) := hgood.calm c hc
  obtain ⟨⟨out', hgood'⟩, hstays⟩ := hgood.client hp hreg hfn horderly hcandid
  have hcall : { w with pending := pending }.call h ev env accepts =
      { w with pending := pending }.runOn c env fun st => st.onClientEvent ev := by
    simp only [Worker.call, hfn]
  have hstep : Noted.step ⟨w, said⟩ (.handle env accepts) =
      ⟨{ w with pending := pending }.runOn c env fun st => st.onClientEvent ev,
        Function.update said c ((w.handlerState c env).heard
          ((w.handlerState c env).onClientEvent ev) (said c))⟩ := by
    rw [step_handle hp, note, hcall]
    simp only [hfn]
  rw [← hstep] at hgood'
  refine ⟨⟨hgood'.closes, fun d a hsaid hmem => ?_, fun d freed hsaid hmem => ?_, ?_⟩, out', hgood'⟩
  · obtain ⟨rfl, ha⟩ := mem_news_runOn hp hcall hmem
    have hread : ev.read = false := hquiet (hcalm.due hsaid)
    have hstate : (w.handlerState d env).conn.state ≠ .sendfile := hcalm.settled.2
    obtain ⟨as, has, hmute⟩ := St.Mute.onClientEvent hstate hread
    rw [has] at ha
    have hmute := List.all_eq_true.mp hmute a ha
    rw [Act.mute, Bool.and_eq_true, Bool.not_eq_true'] at hmute
    exact hmute.1
  · obtain ⟨rfl, hput⟩ := mem_news_runOn hp hcall hmem
    rw [hstep] at hsaid
    simp only [Function.update_self] at hsaid
    exact ⟨h, ev, pending, hp, hfn, hstays freed hput hsaid⟩
  · intro env' accepts' d req b heq hmem hsaid
    obtain ⟨rfl, -⟩ := Input.handle.inj heq
    obtain ⟨rfl, hreq⟩ := mem_news_runOn hp hcall hmem
    rw [hstep] at hsaid
    simp only [Function.update_self] at hsaid
    exact St.onClientEvent_announces rfl hcalm.settled.2 horderly.1 hreq hsaid

/-- The client gets a 502. -/
lemma forwardFails_mute {st : St} {fd : ℤ} (hfails : st.ForwardFails fd ev) :
    St.Mute st (st.proxyOnUpstreamEvent fd ev) := by
  have hfwd : St.Mute st (st.forwardOnce fd).2 := ⟨[.forward _], rfl, rfl⟩
  rcases St.proxyOnUpstreamEvent_parts st fd ev with heq | ⟨st1, hpart, -, -⟩
  · have hanswer (status : ℕ) : St.Mute (st.forwardOnce fd).2
        ((st.forwardOnce fd).2.answerError status false).respondOnce := ⟨[.respond _], rfl, rfl⟩
    rw [heq]
    exact (hfwd.trans (hanswer 502)).trans (.close _)
  · simp [St.ForwardFails, hpart] at hfails

lemma Good.step_upstream (hgood : Good ⟨w, said⟩ out) (hp : w.pending = (h, ev) :: pending)
    (hfn : h.fn = .upstream c) (hreg : w.ws.loop.handlers h.fd = some h) :
    Keeps ⟨w, said⟩ (.handle env accepts) ∧
      ∃ out', Good (Noted.step ⟨w, said⟩ (.handle env accepts)) out' := by
  obtain ⟨hnone, out', hgood'⟩ := hgood.upstream env hp hreg hfn
  have hcall : { w with pending := pending }.call h ev env accepts =
      { w with pending := pending }.runOn c env fun st => st.proxyOnUpstreamEvent h.fd ev := by
    simp only [Worker.call, hfn]
  have hstep : Noted.step ⟨w, said⟩ (.handle env accepts) =
      ⟨{ w with pending := pending }.runOn c env fun st => st.proxyOnUpstreamEvent h.fd ev,
        if (w.handlerState c env).ForwardFails h.fd ev then Function.update said c (some false)
        else said⟩ := by
    rw [step_handle hp, note, hcall]
    simp only [hfn]
  -- what is said about the connection is that of a 502, if anything
  have htold : ∀ {b}, (Noted.step ⟨w, said⟩ (.handle env accepts)).said c = some b →
      b = false ∧ (w.handlerState c env).ForwardFails h.fd ev := by
    intro b hb
    rw [hstep] at hb
    simp only at hb
    split at hb
    · rename_i hfails
      rw [Function.update_self] at hb
      exact ⟨(Option.some.inj hb).symm, hfails⟩
    · simp [hnone] at hb
  rw [← hstep] at hgood'
  refine ⟨⟨hgood'.closes, fun d a hsaid hmem => ?_, fun d freed hsaid hmem => ?_, ?_⟩, out', hgood'⟩
  · obtain ⟨rfl, -⟩ := mem_news_runOn hp hcall hmem
    simp [hnone] at hsaid
  · obtain ⟨rfl, -⟩ := mem_news_runOn hp hcall hmem
    exact absurd (htold hsaid).1 (by decide)
  · intro env' accepts' d req b _ hmem hsaid
    obtain ⟨rfl, hreq⟩ := mem_news_runOn hp hcall hmem
    have hmem := (forwardFails_mute (htold hsaid).2).mem_dispatch hreq
    exact absurd hmem (List.not_mem_nil)

/-- **A step** keeps the word, and the invariant. -/
lemma Good.step {s : Noted} (hgood : Good s out) {i : Input} (hi : s.worker.Orderly i)
    (hdistinct : Worker.Distinct i) (hcandid : s.worker.Candid i) :
    s.Keeps i ∧ ∃ out', Good (s.step i) out' := by
  obtain ⟨w, said⟩ := s
  cases i with
  | wait events =>
    have hgood' : Good (Noted.step ⟨w, said⟩ (.wait events)) out := by
      rw [Noted.step, Worker.step]
      simp only
      split
      · exact hgood.wait hdistinct
      · exact hgood
    refine ⟨keeps_of_news hgood' (Worker.news_eq ?_), out, hgood'⟩
    rw [Worker.step, List.append_nil]
    split <;> rfl
  | handle env accepts =>
    cases hp : w.pending with
    | nil =>
      have hgood' : Good (Noted.step ⟨w, said⟩ (.handle env accepts)) out := by
        simp only [Noted.step, Worker.step, hp]
        exact hgood
      refine ⟨keeps_of_news hgood' (Worker.news_eq ?_), out, hgood'⟩
      simp [Worker.step, hp]
    | cons e pending =>
      obtain ⟨h, ev⟩ := e
      obtain ⟨hreg, horderly⟩ := hi h ev pending hp
      cases hfn : h.fn with
      | accept => exact hgood.step_accept hp hfn
      | signal =>
        have hsame : Noted.step ⟨w, said⟩ (.handle env accepts) =
            ⟨{ w with pending := pending }, said⟩ := by
          rw [step_handle hp, note]
          simp only [Worker.call, hfn]
        have hgood' : Good (Noted.step ⟨w, said⟩ (.handle env accepts)) out :=
          hsame ▸ hgood.pop hp
        refine ⟨keeps_of_news hgood' (Worker.news_eq ?_), out, hgood'⟩
        rw [Worker.step, hp, List.append_nil]
        simp only [Worker.call, hfn]
      | client c =>
        exact hgood.step_client hp hfn hreg (horderly c hfn) (hcandid h ev pending hp c hfn)
      | upstream c => exact hgood.step_upstream hp hfn hreg

/-- **The word is kept** along every run of candid steps. -/
theorem keeps_run (w : Worker) (hw : w.Start) (is : List Input)
    (h : Run.Along Worker.step (fun w i => w.Orderly i ∧ Worker.Distinct i ∧ w.Candid i) w is) :
    Run.Along Noted.step Keeps ⟨w, fun _ => none⟩ is := by
  have hworker : ∀ (s : Noted) (i : Input), (s.step i).worker = s.worker.step i := fun _ _ => rfl
  rw [← Run.along_comap hworker ⟨w, fun _ => none⟩] at h
  refine h.imp_of_invariant (P := fun s => ∃ out, Good s out) ?_ ⟨∅, .start hw⟩
  rintro s i ⟨out, hgood⟩ ⟨hi, hdistinct, hcandid⟩
  exact hgood.step hi hdistinct hcandid

/-! ### Two runs -/

/-- `EPOLLOUT`. -/
def outEvent : Events := ⟨false, true, false, false, false⟩

/-- The client sends a text. -/
def clientSends (text : List UInt8) (writes : List SysWrite) : List Input :=
  oneEvent (.client 0) 4 inEvent
    { idleEnv with clientReads := [.data text], clientWrites := writes } []

/-- The client takes all that there is for it. -/
def clientTakes : List Input :=
  oneEvent (.client 0) 4 outEvent { idleEnv with clientWrites := [.wrote 65536] } []

/-- A request for the health page. -/
def healthText (version : String) : List UInt8 :=
  List.flatten [bytes "GET /healthz ", bytes version, crlf, crlf]

lemma candid_handle (hp : w.pending = (h, ev) :: pending)
    (hclient : ∀ c, h.fn = .client c → ev.read = true → (w.handlerState c env).Rejects →
      (w.heap c).keepAlive = false ∧ (w.heap c).upstreamFd < 0) :
    w.Candid (.handle env accepts) := by
  intro h' ev' pending' hp'
  rw [hp] at hp'
  obtain ⟨rfl, rfl⟩ := Prod.mk.inj (List.cons.inj hp').1
  exact hclient

/-- A client asks for one page, and takes it later. -/
def farewell : List Input :=
  List.flatten [clientComes, clientSends (healthText "HTTP/1.0") [], clientTakes]

/-- A client with HTTP/1.0 is told `close`, and its connection is closed once it has taken the page.
-/
theorem keeps_run_farewell : backendWorker.Start ∧
    Run.Along Worker.step (fun w i => w.Orderly i ∧ Worker.Distinct i ∧ w.Candid i) backendWorker
      farewell ∧
      Run.Along Noted.step Keeps ⟨backendWorker, fun _ => none⟩ farewell := by
  have halong : Run.Along Worker.step
      (fun w i => w.Orderly i ∧ Worker.Distinct i ∧ w.Candid i) backendWorker farewell := by
    refine ⟨⟨trivial, by simp [Worker.Distinct], trivial⟩, ⟨?_, trivial, ?_⟩,
      ⟨trivial, by simp [Worker.Distinct], trivial⟩, ⟨?_, trivial, ?_⟩,
      ⟨trivial, by simp [Worker.Distinct], trivial⟩, ⟨?_, trivial, ?_⟩, trivial⟩
    · exact Worker.orderly_handle (h := ⟨.accept, 3⟩) rfl rfl (by simp)
    · exact candid_handle (h := ⟨.accept, 3⟩) rfl (by simp)
    · refine Worker.orderly_handle (h := ⟨.client 0, 4⟩) rfl rfl ?_
      rintro _ ⟨⟩
      exact ⟨fun _ hw => absurd hw (by decide), fun _ _ => by decide +kernel⟩
    · refine candid_handle (h := ⟨.client 0, 4⟩) rfl ?_
      rintro _ ⟨⟩ - hrejects
      exact absurd hrejects (by decide +kernel)
    · refine Worker.orderly_handle
        (show _ = [(⟨.client 0, 4⟩, outEvent)] by decide +kernel) (by decide +kernel) ?_
      rintro _ ⟨⟩
      exact ⟨fun hr => absurd hr (by decide), fun hr => absurd hr (by decide)⟩
    · refine candid_handle (show _ = [(⟨.client 0, 4⟩, outEvent)] by decide +kernel) ?_
      exact fun _ _ hr => absurd hr (by decide)
  exact ⟨Worker.backendWorker_start, halong, keeps_run _ Worker.backendWorker_start _ halong⟩

/-- A connection that was to be closed is out with nothing to write. -/
lemma not_keeps_of_open {s : Noted} {i : Input} (hc : c ∈ out)
    (h : Ledger.track ∅ (poolEntries (s.step i).worker.log) = some out ∧
      (s.step i).said c = some false ∧ bufReadable ((s.step i).worker.heap c).wbuf = 0) :
    ¬Keeps s i := by
  obtain ⟨hout, hsaid, hempty⟩ := h
  exact fun hkeeps => (hkeeps.closes out c hout hc hsaid).ne' hempty

/-- A client asks for the health page and takes it, sends a text that is no request, and takes
the answer to that. -/
def blunder : List Input :=
  List.flatten [clientComes, clientSends (healthText "HTTP/1.1") [.wrote 65536],
    clientSends (bytes "oops" ++ crlf) [], clientTakes]

/-- **A connection that stays open after `Connection: close`.** -/
theorem exists_broken_word : ∃ w is, w.Start ∧
    Run.Along Worker.step (fun w i => w.Orderly i ∧ Worker.Distinct i) w is ∧
      ¬Run.Along Noted.step Keeps ⟨w, fun _ => none⟩ is := by
  refine ⟨backendWorker, blunder, Worker.backendWorker_start, ?_, fun hkeeps => ?_⟩
  · refine ⟨⟨trivial, by simp [Worker.Distinct]⟩, ⟨?_, trivial⟩,
      ⟨trivial, by simp [Worker.Distinct]⟩, ⟨?_, trivial⟩, ⟨trivial, by simp [Worker.Distinct]⟩,
      ⟨?_, trivial⟩, ⟨trivial, by simp [Worker.Distinct]⟩, ⟨?_, trivial⟩, trivial⟩
    · exact Worker.orderly_handle (h := ⟨.accept, 3⟩) rfl rfl (by simp)
    · refine Worker.orderly_handle (h := ⟨.client 0, 4⟩) rfl rfl ?_
      rintro _ ⟨⟩
      exact ⟨fun _ hw => absurd hw (by decide), fun _ _ => by decide +kernel⟩
    · refine Worker.orderly_handle
        (show _ = [(⟨.client 0, 4⟩, inEvent)] by decide +kernel) (by decide +kernel) ?_
      rintro _ ⟨⟩
      exact ⟨fun _ hw => absurd hw (by decide), fun _ _ => by decide +kernel⟩
    · refine Worker.orderly_handle
        (show _ = [(⟨.client 0, 4⟩, outEvent)] by decide +kernel) (by decide +kernel) ?_
      rintro _ ⟨⟩
      exact ⟨fun hr => absurd hr (by decide), fun hr => absurd hr (by decide)⟩
  · refine not_keeps_of_open (show 0 ∈ {0} by decide) ?_ hkeeps.2.2.2.2.2.2.2.1
    decide +kernel

end Noted

end Nproxy
