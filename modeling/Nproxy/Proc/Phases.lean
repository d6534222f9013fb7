import Nproxy.Proc.Backends
import Nproxy.Proc.Calm

/-!
The state of a connection over whole runs of a worker.

`conn->state` is written in many places: `conn_pool_get`, `handle_read`, `handle_write`,
`proxy_handle`, `file_server_handle`, the writers of errors and `conn_pool_put`. Here is which
state may follow which between two events.

* `ClientTurn`: the turns that an event of the client makes. A tunnel stays one or is closed; to an
  upstream goes only a connection whose event has brought a whole request.
* `Worker.Turn`: the turns of one step. An event of an upstream makes no other turn than to close.
* `turns_run`: a run of a worker makes no other turns. None of them leads to `CONN_SENDFILE`:
  `file_server_handle` sets it, and `handle_read`, from which it is called, goes on to write the
  response and sets another state; so no event ever finds it, and `handle_write` never comes to
  `sendfile`.
-/

namespace Nproxy

/-- What an event of the client may make of the state; `completes` if it brings a request. -/
inductive ClientTurn (completes : Prop) : ConnState → ConnState → Prop
  | stays (s : ConnState) : ClientTurn completes s s
  | closes (s : ConnState) : ClientTurn completes s .closing
  | next {s : ConnState} (hs : s ≠ .tunnel) : ClientTurn completes s .readingRequest
  | answers {s : ConnState} (hs : s ≠ .tunnel) : ClientTurn completes s .writingResponse
  | hands {s s' : ConnState} (hs : s ≠ .tunnel) (hc : completes) (hs' : s'.Relayed) :
      ClientTurn completes s s'

namespace St

variable {st : St}

lemma tunnelRead_turn (st : St) : st.tunnelRead.conn.state = st.conn.state ∨
    st.tunnelRead.conn.state = .closing := by
  rw [tunnelRead]
  split
  rename_i n st1 heq
  obtain rfl : st.readTunnel.2 = st1 := by rw [heq]
  split
  · exact Or.inr (connPoolPut_state _)
  · left
    split
    · simp only
      split <;> rfl
    · rfl

/-- **`handle_read`** leads to an upstream only with a request that it has just completed. -/
lemma handleRead_turn (st : St) :
    ClientTurn st.Completes st.conn.state st.handleRead.conn.state := by
  have houtcome := handleRead_outcome st
  generalize st.handleRead = st' at houtcome ⊢
  cases houtcome with
  | tunnel hstate =>
    rcases st.tunnelRead_turn with heq | heq <;> rw [heq]
    · exact .stays _
    · exact .closes _
  | fails hstate _ =>
    rw [connPoolPut_state]
    exact .closes _
  | idle _ => exact .stays _
  | rejects hrejects =>
    rw [rejected_state]
    exact .answers hrejects.1
  | noMemory hcompletes _ =>
    rw [connPoolPut_state]
    exact .closes _
  | takes hcompletes _ =>
    have houtcome := afterDispatch_outcome st.served
    generalize st.served.afterDispatch = st' at houtcome ⊢
    cases houtcome with
    | handed hrelayed => exact .hands hcompletes.1 hcompletes hrelayed
    | last _ _ _ =>
      rw [connPoolPut_state]
      exact .closes _
    | next _ _ _ => exact .next hcompletes.1
    | waits _ _ => exact .answers hcompletes.1

/-- **`handle_write`**, outside `CONN_SENDFILE`: when a response is out, the next request may
come. -/
lemma handleWrite_turn (hstate : st.conn.state ≠ .sendfile) :
    st.handleWrite.conn.state = st.conn.state ∨ st.handleWrite.conn.state = .closing ∨
      (¬st.conn.state.Relayed ∧ st.conn.state ≠ .closing ∧
        st.handleWrite.conn.state = .readingRequest) := by
  by_cases hclosing : st.conn.state = .closing
  · -- a connection that is closed is not kept
    have hkeep : st.respond.conn.state = .closing ∨ st.respond.conn.keepAlive = false :=
      Or.inl hclosing
    rw [handleWrite, hclosing]
    simp only
    rw [if_pos hkeep]
    split
    · exact Or.inl (connPoolPut_state _)
    · exact Or.inl hclosing
  · have houtcome := handleWrite_outcome hstate
    generalize st.handleWrite = st' at houtcome ⊢
    cases houtcome with
    | relay _ _ => exact Or.inl rfl
    | last _ _ _ => exact Or.inr (Or.inl (connPoolPut_state _))
    | next hrelayed _ _ => exact Or.inr (Or.inr ⟨hrelayed, hclosing, nextRequest_state _⟩)
    | waits _ _ => exact Or.inl rfl

/-- **`on_client_event`**, where `handle_write` may follow `handle_read` in the same call. -/
lemma onClientEvent_turn (hstate : st.conn.state ≠ .sendfile) (ev : Events) :
    ClientTurn st.Completes st.conn.state (st.onClientEvent ev).conn.state := by
  rw [onClientEvent]
  split
  · rw [connPoolPut_state]
    exact .closes _
  · have hread : ClientTurn st.Completes st.conn.state
          (if ev.read then st.handleRead else st).conn.state ∧
        (if ev.read then st.handleRead else st).conn.state ≠ .sendfile := by
      split
      · exact ⟨st.handleRead_turn, handleRead_state hstate⟩
      · exact ⟨.stays _, hstate⟩
    simp only
    generalize (if ev.read then st.handleRead else st) = st1 at hread ⊢
    split
    · rcases handleWrite_turn hread.2 with heq | heq | ⟨hrelayed, hclosing, heq⟩ <;> rw [heq]
      · exact hread.1
      · exact .closes _
      · refine .next fun htunnel => ?_
        -- a tunnel is still one after the read, or closed
        have hturn := hread.1
        rw [htunnel] at hturn
        generalize hs : st1.conn.state = s at hturn hrelayed hclosing
        cases hturn with
        | stays => exact hrelayed (Or.inr rfl)
        | closes => exact hclosing rfl
        | next hne => exact hne rfl
        | answers hne => exact hne rfl
        | hands hne => exact hne rfl
    · exact hread.1

/-- **`proxy_on_upstream_event`** leaves the state alone, or closes the connection. -/
lemma proxyOnUpstreamEvent_turn (st : St) (fd : ℤ) (ev : Events) :
    (st.proxyOnUpstreamEvent fd ev).conn.state = st.conn.state ∨
      (st.proxyOnUpstreamEvent fd ev).conn.state = .closing := by
  rcases proxyOnUpstreamEvent_parts st fd ev with heq | ⟨st1, -, hst1, heq⟩ <;> rw [heq]
  · exact Or.inr (connPoolPut_state _)
  · have h1 : st1.conn.state = st.conn.state := by
      rcases hst1 with ⟨-, rfl⟩ | ⟨-, rfl | rfl⟩ <;> rfl
    split
    · have hidles := upstreamLoop_idles (onFd fd .err st1.env.upstreamReads) st1
      obtain ⟨n, st2, st3, heq, hst3, hend⟩ := upstreamReadPart_cases st1 fd
      rw [heq] at hidles
      rcases hend with ⟨-, heq⟩ | ⟨-, heq⟩ <;> rw [heq]
      · exact Or.inr (connPoolPut_state _)
      · left
        rcases hst3 with rfl | rfl <;> exact hidles.state.trans h1
    · exact Or.inl h1

end St

namespace Worker

variable {w : Worker} {c : ConnId}

/-- What a step may make of the state of a connection. -/
inductive Turn (w : Worker) (c : ConnId) : Input → ConnState → ConnState → Prop
  | stays (i : Input) (s : ConnState) : Turn w c i s s
  /-- the object is handed out -/
  | opens (env : Env) (accepts : List SysAccept) (s : ConnState)
      (hfn : w.pending.head?.map (·.1.fn) = some .accept) :
      Turn w c (.handle env accepts) s .readingRequest
  | client (env : Env) (accepts : List SysAccept) {s s' : ConnState}
      (hfn : w.pending.head?.map (·.1.fn) = some (.client c))
      (hturn : ClientTurn (w.handlerState c env).Completes s s') :
      Turn w c (.handle env accepts) s s'
  | upstream (env : Env) (accepts : List SysAccept) (s : ConnState)
      (hfn : w.pending.head?.map (·.1.fn) = some (.upstream c)) :
      Turn w c (.handle env accepts) s .closing

/-- A turn does not lead to `CONN_SENDFILE`. -/
lemma Turn.ne_sendfile {i : Input} {s s' : ConnState} (h : Turn w c i s s') (hs : s ≠ .sendfile) :
    s' ≠ .sendfile := by
  cases h with
  | stays => exact hs
  | opens => decide
  | client _ _ _ hturn =>
    cases hturn with
    | stays => exact hs
    | closes => decide
    | next => decide
    | answers => decide
    | hands _ _ hs' => exact hs'.settled.2
  | upstream => decide

lemma acceptOne_state (w : Worker) (fd : ℤ) (peer : InAddr) (alloc : Option ℕ) (c : ConnId) :
    ((w.acceptOne fd peer alloc).heap c).state = (w.heap c).state ∨
      ((w.acceptOne fd peer alloc).heap c).state = .readingRequest := by
  rw [acceptOne]
  cases hget : w.connPoolGet fd peer alloc with
  | none => exact Or.inl rfl
  | some r =>
    obtain ⟨d, w'⟩ := r
    have hreset : ∃ old : Conn, w'.heap = Function.update w.heap d (connReset old fd peer) := by
      rw [connPoolGet.eq_def] at hget
      split at hget
      · obtain ⟨rfl, rfl⟩ := Prod.mk.inj (Option.some.inj hget)
        exact ⟨_, rfl⟩
      · split at hget
        · cases hget
        · obtain ⟨rfl, rfl⟩ := Prod.mk.inj (Option.some.inj hget)
          exact ⟨_, rfl⟩
    obtain ⟨old, hheap⟩ := hreset
    simp only [hheap]
    rcases eq_or_ne c d with rfl | hcd
    · rw [Function.update_self]
      exact Or.inr rfl
    · rw [Function.update_of_ne hcd]
      exact Or.inl rfl

/-- A handler is called for one connection, and leaves the others alone. -/
lemma runOn_state (w : Worker) (d : ConnId) (env : Env) (f : St → St) (c : ConnId) :
    ((w.runOn d env f).heap c).state =
      if c = d then (f (w.handlerState d env)).conn.state else (w.heap c).state := by
  split_ifs with hcd
  · rw [hcd, runOn_heap_self]
  · rw [runOn_heap_of_ne hcd]

/-- **One step** of a worker makes one of the turns with each of its connections. -/
lemma step_turn (hconns : ∀ c, (w.heap c).state ≠ .sendfile) (i : Input) (c : ConnId) :
    Turn w c i (w.heap c).state ((w.step i).heap c).state := by
  cases i with
  | wait events =>
    rw [Worker.step]
    split <;> exact .stays _ _
  | handle env accepts =>
    rw [Worker.step]
    cases hpending : w.pending with
    | nil => exact .stays _ _
    | cons e pending =>
      obtain ⟨⟨fn, fd⟩, ev⟩ := e
      have hfn : w.pending.head?.map (·.1.fn) = some fn := by rw [hpending]; rfl
      cases fn with
      | accept =>
        have haccept := onAcceptEvent_invariant (P := fun w' =>
            (w'.heap c).state = (w.heap c).state ∨ (w'.heap c).state = .readingRequest)
          (fun w' fd peer alloc _ h => (w'.acceptOne_state fd peer alloc c).elim
            (fun heq => heq ▸ h) Or.inr) accepts
          (w := { w with pending := pending }) (Or.inl rfl)
        rcases haccept with heq | heq
        · exact heq ▸ .stays _ _
        · exact heq ▸ .opens env accepts _ hfn
      | signal => exact .stays _ _
      | client d =>
        change Turn w c _ _ ((runOn { w with pending := pending } d env
          fun st => st.onClientEvent ev).heap c).state
        rw [runOn_state]
        split_ifs with hcd
        · subst hcd
          exact .client env accepts hfn (St.onClientEvent_turn (hconns c) ev)
        · exact .stays _ _
      | upstream d =>
        change Turn w c _ _ ((runOn { w with pending := pending } d env
          fun st => st.proxyOnUpstreamEvent fd ev).heap c).state
        rw [runOn_state]
        split_ifs with hcd
        · subst hcd
          rcases St.proxyOnUpstreamEvent_turn (w.handlerState c env) fd ev with heq | heq
          · exact heq ▸ .stays _ _
          · exact heq ▸ .upstream env accepts _ hfn
        · exact .stays _ _

/-- **The turns of a connection**, after any run from a start in which no file is being sent: the
next step makes one of those, and no event finds a connection in `CONN_SENDFILE`. -/
theorem turns_run (w : Worker) (hconns : ∀ c, (w.heap c).state ≠ .sendfile) (is : List Input)
    (i : Input) (c : ConnId) :
    Turn (w.run is) c i ((w.run is).heap c).state ((w.run (is ++ [i])).heap c).state ∧
      ((w.run is).heap c).state ≠ .sendfile := by
  have hrun : ∀ c, ((w.run is).heap c).state ≠ .sendfile :=
    Run.run_invariant (P := fun w : Worker => ∀ c, (w.heap c).state ≠ .sendfile)
      (fun _ i h c => (step_turn h i c).ne_sendfile (h c)) hconns is
  have hlast : w.run (is ++ [i]) = (w.run is).step i := by rw [run, Run.run_append]; rfl
  rw [hlast]
  exact ⟨step_turn hrun i c, hrun c⟩

/-- After this run the backend's answer takes the connection from `proxying` to `closing`. -/
theorem turns_run_askedRun : (∀ c, (backendWorker.heap c).state ≠ .sendfile) ∧
    Turn (backendWorker.run askedRun) 0 (.handle answered []) .proxying .closing := by
  have hconns : ∀ c, (backendWorker.heap c).state ≠ .sendfile := by
    intro c
    change ConnState.readingRequest ≠ .sendfile
    decide
  have hturn := (turns_run backendWorker hconns askedRun (.handle answered []) 0).1
  have hbefore : ((backendWorker.run askedRun).heap 0).state = .proxying := by decide +kernel
  have hafter : ((backendWorker.run (askedRun ++ [.handle answered []])).heap 0).state =
      .closing := by decide +kernel
  rw [hbefore, hafter] at hturn
  exact ⟨hconns, hturn⟩

end Worker

end Nproxy
