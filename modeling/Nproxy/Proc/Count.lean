import Nproxy.Proc.Outcomes
import Nproxy.Proc.Pool

/-!
`active_conns` over whole runs of a worker.

* `CountRight`: `active_conns` is the number of connections that are out of the pool.
* `Lasting`: what a client's event must be like. `on_client_event` gives connections back
  with `conn_pool_put`, which does not count; only `worker_conn_close` does. So there is no
  hang-up, the client's stream does not end outside a tunnel, every request has its memory, and
  no response of the server itself is the last one of its connection (`Finishes`).
* `countRight_run`: the count is right over every run of such steps.
* `exists_miscount`: a client comes and hangs up. It stays in the count.
-/

namespace Nproxy

namespace St

variable {st st' : St} {ev : Events}

/-- The response goes out as a whole, and the connection is not kept: it is given back. -/
def Finishes (st : St) : Prop :=
  ¬st.conn.state.Relayed ∧ bufReadable st.respond.conn.wbuf = 0 ∧ st.conn.keepAlive = false

instance (st : St) : Decidable st.Finishes := inferInstanceAs (Decidable (_ ∧ _))

/-- The event does not end the connection, but through `worker_conn_close`. -/
structure Lasting (st : St) (ev : Events) : Prop where
  up : ¬(ev.hup = true ∨ ev.err = true)
  read : ev.read = true → st.conn.state ≠ .tunnel →
    ¬st.ReadFails ∧ (st.Completes → ¬st.NoMemory ∧ ¬st.served.Finishes)
  write : ev.write = true → ¬(if ev.read then st.handleRead else st).Finishes

/-- The connection is still served and waits, and the count is what it was. -/
structure Abides (st st' : St) : Prop where
  kept : Kept st st'
  aside : Aside st st'
  settled : st'.conn.state.Settled

lemma Abides.trans {st1 : St} (h1 : Abides st st1) (h2 : Abides st1 st') : Abides st st' :=
  ⟨h1.kept.trans h2.kept, h1.aside.trans h2.aside, h2.settled⟩

lemma Serves.abides (h : Serves st st') (hsettled : st'.conn.state.Settled) : Abides st st' :=
  ⟨h.kept, h.tends.toAside, hsettled⟩

lemma Idles.abides (h : Idles st st') (hsettled : st.conn.state.Settled) : Abides st st' :=
  h.toServes.abides (by rw [h.state]; exact hsettled)

/-- **`handle_write`**, where the response is not the last one. -/
lemma handleWrite_abides (hsettled : st.conn.state.Settled) (hlast : ¬st.Finishes) :
    Abides st st.handleWrite := by
  have houtcome := handleWrite_outcome hsettled.2
  generalize st.handleWrite = st' at houtcome ⊢
  cases houtcome with
  | relay events hstate => exact (Idles.relay.trans (.clientMod events)).abides hsettled
  | last hstate hout hkeep => exact absurd ⟨hstate, hout, hkeep.resolve_left hsettled.1⟩ hlast
  | next hstate hout _ =>
    refine (Serves.respond.trans .nextRequest).abides ?_
    rw [nextRequest_state]
    decide
  | waits hstate hleft => exact Serves.respond.abides hsettled

/-- What follows `handler_dispatch`, where the response is not the last one. -/
lemma afterDispatch_abides (hlast : ¬st.Finishes) : Abides st st.afterDispatch := by
  have houtcome := afterDispatch_outcome st
  generalize st.afterDispatch = st' at houtcome ⊢
  cases houtcome with
  | handed hstate => exact (Idles.refl st).abides hstate.settled
  | last hstate hout hkeep => exact absurd ⟨hstate, hout, hkeep⟩ hlast
  | next hstate hout _ =>
    refine (Serves.respond.trans .nextRequest).abides ?_
    rw [nextRequest_state]
    decide
  | waits hstate hleft =>
    refine ⟨((Stays.respond.trans (.setState (by decide))).trans (.clientMod _)).kept,
      ((Tends.respond.trans (.setState _)).trans (.clientMod _)).toAside, ?_⟩
    change ConnState.writingResponse.Settled
    decide

/-- The answer to what is no request. -/
lemma rejected_abides (st : St) :
    Abides st (((st.readClient.2.act .reject).answerError 400 false).clientMod evW) := by
  have hread : Idles st st.readClient.2 := .readClient
  refine ⟨hread.kept.trans (Stays.reject _ _ _).kept, hread.tends.toAside.trans
    (((Tends.act _).trans (.answerError _ _)).trans (.clientMod _)).toAside, ?_⟩
  change ConnState.writingResponse.Settled
  decide

/-- **`handle_read`** leaves the count alone, or a tunnel ends. -/
lemma handleRead_abides (hfd : 0 ≤ st.conn.fd) (hsettled : st.conn.state.Settled)
    (htun : st.conn.state = .tunnel → 0 ≤ st.conn.upstreamFd)
    (hup : st.Completes → st.conn.upstreamFd < 0)
    (hread : st.conn.state ≠ .tunnel →
      ¬st.ReadFails ∧ (st.Completes → ¬st.NoMemory ∧ ¬st.served.Finishes)) :
    Abides st st.handleRead ∨ (st.ReadFails ∧ HangsUp st st.handleRead) := by
  have houtcome := handleRead_outcome st
  generalize st.handleRead = st' at houtcome ⊢
  cases houtcome with
  | tunnel hstate =>
    exact (tunnelRead_goes hfd hstate (htun hstate)).imp_left fun h => h.abides hsettled
  | fails hstate hfails => exact absurd hfails (hread hstate).1
  | idle hstate => exact Or.inl (Idles.readClient.abides hsettled)
  | rejects hrejects => exact Or.inl (rejected_abides st)
  | noMemory hcompletes hmem => exact absurd hmem ((hread hcompletes.1).2 hcompletes).1
  | takes hcompletes hmem =>
    have hafter := afterDispatch_abides ((hread hcompletes.1).2 hcompletes).2
    exact Or.inl ⟨(served_kept (hup hcompletes)).trans hafter.kept,
      (served_aside st).trans hafter.aside, hafter.settled⟩

/-- **`on_client_event`** leaves the count alone, or ends with `worker_conn_close`. -/
lemma onClientEvent_counts (hfd : 0 ≤ st.conn.fd) (hsettled : st.conn.state.Settled)
    (htun : st.conn.state = .tunnel → 0 ≤ st.conn.upstreamFd)
    (hboth : ev.read = true → ev.write = true → ¬st.ReadFails ∧ ¬st.Completes)
    (hup : ev.read = true → st.Completes → st.conn.upstreamFd < 0) (hlasts : st.Lasting ev) :
    Abides st (st.onClientEvent ev) ∨ HangsUp st (st.onClientEvent ev) := by
  have hlast := hlasts.write
  rw [onClientEvent, if_neg hlasts.up]
  simp only
  by_cases hread : ev.read = true
  · rw [if_pos hread] at hlast ⊢
    have hcases := handleRead_abides hfd hsettled htun (hup hread) (hlasts.read hread)
    by_cases hwrite : ev.write = true
    · -- a tunnel does not end in an event with both bits, so `handle_write` finds it open
      rw [if_pos hwrite]
      have habides := hcases.resolve_right fun h => (hboth hread hwrite).1 h.1
      exact Or.inl (habides.trans (handleWrite_abides habides.settled (hlast hwrite)))
    · rw [if_neg hwrite]
      exact hcases.imp_right And.right
  · rw [if_neg hread] at hlast ⊢
    split
    · rename_i hwrite
      exact Or.inl (handleWrite_abides hsettled (hlast hwrite))
    · exact Or.inl ((Idles.refl st).abides hsettled)

end St

namespace Worker

variable {w : Worker} {out : Finset ConnId} {c : ConnId} {env : Env} {f : St → St}

/-- **`active_conns` is the number of connections that are out**, so it is not negative, and
it is 0 exactly when none is. -/
def CountRight (w : Worker) : Prop :=
  ∃ out, Ledger.track ∅ (poolEntries w.log) = some out ∧ w.ws.activeConns = out.card ∧
    0 ≤ w.ws.activeConns ∧ (w.ws.activeConns = 0 ↔ out = ∅)

/-- If the next event is a client's, it does not end the connection but through
`worker_conn_close`. -/
def Counting (w : Worker) : Input → Prop
  | .wait _ => True
  | .handle env _ => ∀ h ev pending, w.pending = (h, ev) :: pending →
      ∀ c, h.fn = .client c → (w.handlerState c env).Lasting ev

/-- A worker that has just started counts no client. -/
structure Starts (w : Worker) : Prop extends Start w where
  active : w.ws.activeConns = 0

/-! ### The invariant -/

/-- The count is right, and the connections wait for their events. -/
structure Counted (w : Worker) (out : Finset ConnId) : Prop where
  inv : w.Inv out
  count : w.ws.activeConns = out.card
  settled : ∀ c ∈ out, (w.heap c).state.Settled

lemma Counted.countRight (h : w.Counted out) : w.CountRight := by
  refine ⟨out, h.inv.ledger, h.count, ?_, ?_⟩
  · rw [h.count]
    exact Int.natCast_nonneg _
  · rw [h.count, Int.natCast_eq_zero, Finset.card_eq_zero]

lemma Starts.counted (h : w.Starts) : w.Counted ∅ := ⟨h.toStart.inv, by simp [h.active], by simp⟩

lemma Counted.setPending (h : w.Counted out) (pending : List (EvHandler × Events)) :
    Counted { w with pending := pending } out := ⟨h.inv.setPending pending, h.count, h.settled⟩

lemma Counted.runOn_abides (h : w.Counted out) (hc : c ∈ out)
    (hw : St.Abides (w.handlerState c env) (f (w.handlerState c env))) :
    (w.runOn c env f).Counted out := by
  refine ⟨h.inv.runOn_kept hc hw.kept, ?_, fun d hd => ?_⟩
  · rw [runOn_ws, hw.aside.active]
    exact h.count
  · by_cases hdc : d = c
    · rw [hdc, runOn_heap_self]
      exact hw.settled
    · rw [runOn_heap_of_ne hdc]
      exact h.settled d hd

lemma Counted.runOn_hangsUp (h : w.Counted out) (hc : c ∈ out)
    (hh : St.HangsUp (w.handlerState c env) (f (w.handlerState c env))) :
    (w.runOn c env f).Counted (out.erase c) := by
  refine ⟨h.inv.runOn_released hc hh.released, ?_, fun d hd => ?_⟩
  · have hcount : (w.handlerState c env).ws.activeConns = out.card := h.count
    rw [runOn_ws, hh.counted, hcount, Finset.card_erase_of_mem hc,
      Nat.cast_sub (Finset.one_le_card.mpr ⟨c, hc⟩), Nat.cast_one]
  · rw [runOn_heap_of_ne (Finset.ne_of_mem_erase hd)]
    exact h.settled d (Finset.mem_of_mem_erase hd)

lemma Counted.runOn (h : w.Counted out) (hc : c ∈ out)
    (hgoes : St.Abides (w.handlerState c env) (f (w.handlerState c env)) ∨
      St.HangsUp (w.handlerState c env) (f (w.handlerState c env))) :
    ∃ out', (w.runOn c env f).Counted out' := by
  cases hgoes with
  | inl hw => exact ⟨out, h.runOn_abides hc hw⟩
  | inr hh => exact ⟨out.erase c, h.runOn_hangsUp hc hh⟩

lemma connPoolGet_activeConns {fd : ℤ} {peer : InAddr} {alloc : Option ℕ} {w' : Worker}
    (hget : w.connPoolGet fd peer alloc = some (c, w')) :
    w'.ws.activeConns = w.ws.activeConns := by
  rw [connPoolGet.eq_def] at hget
  split at hget
  · obtain ⟨-, rfl⟩ := Prod.mk.inj (Option.some.inj hget)
    rfl
  · split at hget
    · simp at hget
    · obtain ⟨-, rfl⟩ := Prod.mk.inj (Option.some.inj hget)
      rfl

/-- A client is counted when it comes. -/
lemma Counted.acceptOne (h : w.Counted out) {fd : ℤ} (h0 : 0 ≤ fd) (peer : InAddr)
    (alloc : Option ℕ) : ∃ out', (w.acceptOne fd peer alloc).Counted out' := by
  cases hget : w.connPoolGet fd peer alloc with
  | none => exact ⟨out, by rw [Worker.acceptOne, hget]; exact h⟩
  | some r =>
    obtain ⟨c, w'⟩ := r
    have hh := h.inv.handedOut hget
    refine ⟨insert c out, h.inv.accepted h0 hget, ?_, fun d hd => ?_⟩
    · rw [acceptOne_of_get hget, Finset.card_insert_of_notMem hh.notOut, Nat.cast_add,
        Nat.cast_one, ← h.count, ← connPoolGet_activeConns hget]
    · rw [acceptOne_of_get hget]
      rcases Finset.mem_insert.mp hd with rfl | hd
      · simp only [hh.state]
        decide
      · simp only [hh.heap d (ne_of_mem_of_not_mem hd hh.notOut)]
        exact h.settled d hd

lemma Counted.onAcceptEvent (accepts : List SysAccept) (h : w.Counted out) :
    ∃ out', (Worker.onAcceptEvent accepts w).Counted out' :=
  onAcceptEvent_invariant (P := fun w => ∃ out, w.Counted out)
    (fun _ _ peer alloc hfd ⟨_, h⟩ => h.acceptOne hfd peer alloc) accepts ⟨out, h⟩

/-- **One step** of a worker, orderly and without a direct `conn_pool_put`, keeps the count. -/
lemma Counted.step (h : w.Counted out) {i : Input} (hi : w.Orderly i) (hcount : w.Counting i) :
    ∃ out', (w.step i).Counted out' := by
  cases i with
  | wait events =>
    rw [Worker.step]
    split
    · exact ⟨out, h.setPending _⟩
    · exact ⟨out, h⟩
  | handle env accepts =>
    rw [Worker.step]
    split
    · exact ⟨out, h⟩
    · rename_i r ev pending hpending
      obtain ⟨hreg, hclient⟩ := hi r ev pending hpending
      have h' := h.setPending pending
      obtain ⟨-, hfn⟩ := h'.inv.handlers r.fd r hreg
      rw [call]
      split <;> rename_i heq <;> rw [heq] at hfn
      · exact h'.onAcceptEvent accepts
      · exact ⟨out, h'⟩
      · obtain ⟨hboth, hup⟩ := hclient _ heq
        exact h'.runOn hfn.1 (St.onClientEvent_counts (h'.inv.fd _ hfn.1) (h'.settled _ hfn.1)
          (h'.inv.tunnel _ hfn.1) hboth hup (hcount r ev pending hpending _ heq))
      · have hfd : 0 ≤ (w.handlerState _ env).conn.fd := h'.inv.fd _ hfn.1
        have hgoes := St.proxyOnUpstreamEvent_goes hfd hfn.2.2 hfn.2.1.symm ev
        exact h'.runOn hfn.1 (hgoes.imp_left fun hidles => hidles.1.abides (h'.settled _ hfn.1))

/-- **The count is right** over every run of steps that end connections through
`worker_conn_close` only. -/
theorem countRight_run (w : Worker) (hw : w.Starts) (is : List Input)
    (h : Run.Along Worker.step (fun w i => w.Orderly i ∧ w.Counting i) w is) :
    (w.run is).CountRight := by
  have hcounted : ∃ out, (w.run is).Counted out :=
    h.invariant (P := fun w => ∃ out, w.Counted out) (fun _ _ ⟨_, hw⟩ hi => hw.step hi.1 hi.2)
      ⟨∅, hw.counted⟩
  obtain ⟨out, hcounted⟩ := hcounted
  exact hcounted.countRight

/-! ### Two runs -/

lemma backendWorker_starts : backendWorker.Starts := ⟨backendWorker_start, rfl⟩

lemma counting_handle {h : EvHandler} {ev : Events} {pending : List (EvHandler × Events)}
    {accepts : List SysAccept} (hp : w.pending = (h, ev) :: pending)
    (hclient : ∀ c, h.fn = .client c → (w.handlerState c env).Lasting ev) :
    w.Counting (.handle env accepts) := by
  intro h' ev' pending' hp'
  rw [hp] at hp'
  obtain ⟨rfl, rfl⟩ := Prod.mk.inj (List.cons.inj hp').1
  exact hclient

/-- The count is right after a client has come, was served and has gone. -/
theorem countRight_run_plainRun : backendWorker.Starts ∧
    Run.Along Worker.step (fun w i => w.Orderly i ∧ w.Counting i) backendWorker plainRun ∧
      (backendWorker.run plainRun).CountRight := by
  have halong : Run.Along Worker.step (fun w i => w.Orderly i ∧ w.Counting i) backendWorker
      plainRun := by
    refine ⟨⟨trivial, trivial⟩, ⟨?_, ?_⟩, ⟨trivial, trivial⟩, ⟨?_, ?_⟩, ⟨trivial, trivial⟩,
      ⟨?_, ?_⟩, trivial⟩
    · exact orderly_handle (h := ⟨.accept, 3⟩) rfl rfl (by simp)
    · exact counting_handle (h := ⟨.accept, 3⟩) rfl (by simp)
    · refine orderly_handle (h := ⟨.client 0, 4⟩) rfl rfl ?_
      rintro _ ⟨⟩
      exact ⟨fun _ hw => absurd hw (by decide), fun _ _ => by decide⟩
    · refine counting_handle (h := ⟨.client 0, 4⟩) rfl ?_
      rintro _ ⟨⟩
      exact ⟨by decide, fun _ _ => ⟨by decide +kernel, fun _ => by decide +kernel⟩,
        fun hw => absurd hw (by decide)⟩
    · exact orderly_handle (h := ⟨.upstream 0, 5⟩) rfl rfl (by simp)
    · exact counting_handle (h := ⟨.upstream 0, 5⟩) rfl (by simp)
  exact ⟨backendWorker_starts, halong, countRight_run _ backendWorker_starts _ halong⟩

/-- `EPOLLRDHUP`. -/
def hupEvent : Events := ⟨false, false, true, false, false⟩

/-- A client comes, and hangs up. -/
def briefVisit : List Input :=
  List.flatten [clientComes, oneEvent (.client 0) 4 hupEvent idleEnv []]

/-- **A client that is counted for ever.** Its connection is back in the pool, and
`active_conns` is 1. -/
theorem exists_miscount : ∃ w is, w.Starts ∧ Run.Along Worker.step Orderly w is ∧
    ¬(w.run is).CountRight := by
  refine ⟨backendWorker, briefVisit, backendWorker_starts, ⟨trivial, ?_, trivial, ?_, trivial⟩, ?_⟩
  · exact orderly_handle (h := ⟨.accept, 3⟩) rfl rfl (by simp)
  · refine orderly_handle (h := ⟨.client 0, 4⟩) rfl rfl ?_
    rintro _ ⟨⟩
    exact ⟨fun hr => absurd hr (by decide), fun hr => absurd hr (by decide)⟩
  · rintro ⟨out, hledger, -, -, hzero⟩
    have hback : Ledger.track ∅ (poolEntries (backendWorker.run briefVisit).log) = some ∅ := by
      decide +kernel
    have hone : (backendWorker.run briefVisit).ws.activeConns = 1 := by decide +kernel
    rw [hback] at hledger
    rw [hone, ← Option.some.inj hledger] at hzero
    exact absurd (hzero.mpr rfl) (by decide)

end Worker

end Nproxy
