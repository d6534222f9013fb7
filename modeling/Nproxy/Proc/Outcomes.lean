import Nproxy.Http.Heads
import Nproxy.Proc.Bystanders

/-!
What the handlers of a connection come to, case by case.

* `WriteOutcome`, `AfterOutcome`, `ReadOutcome`: the ends of `handle_write`, of the part of
  `handle_read` behind `handler_dispatch`, and of `handle_read`, each with what has led
  there. `handle_write` is taken outside `CONN_SENDFILE`: `handle_read` leaves no
  connection in that state (`AfterOutcome.settled`).
* `UpstreamOutcome`: the same for `proxy_on_upstream_event`.
* `Settled`: the states in which a connection waits for its next event.
-/

namespace Nproxy

/-- The states in which a connection waits for an event. -/
def ConnState.Settled (s : ConnState) : Prop := s ≠ .closing ∧ s ≠ .sendfile

instance (s : ConnState) : Decidable s.Settled := inferInstanceAs (Decidable (_ ∧ _))

lemma ConnState.Relayed.settled {s : ConnState} (h : s.Relayed) : s.Settled := by
  rcases h with rfl | rfl <;> decide

namespace St

variable {st st' st'' : St}

/-! ### `handle_write` -/

/-- The ends of `handle_write`. -/
inductive WriteOutcome (st : St) : St → Prop
  /-- an upstream answers: its bytes go on -/
  | relay (events : Events) (hstate : st.conn.state.Relayed) :
      WriteOutcome st (st.relay.clientMod events)
  /-- the response is out, and it was the last one -/
  | last (hstate : ¬st.conn.state.Relayed) (hout : bufReadable st.respond.conn.wbuf = 0)
      (hkeep : st.conn.state = .closing ∨ st.conn.keepAlive = false) :
      WriteOutcome st st.respond.connPoolPut
  /-- the response is out, and the next request may come -/
  | next (hstate : ¬st.conn.state.Relayed) (hout : bufReadable st.respond.conn.wbuf = 0)
      (hkeep : st.conn.keepAlive = true) : WriteOutcome st st.respond.nextRequest
  /-- the socket takes no more -/
  | waits (hstate : ¬st.conn.state.Relayed) (hleft : 0 < bufReadable st.respond.conn.wbuf) :
      WriteOutcome st st.respond

lemma handleWrite_outcome (hstate : st.conn.state ≠ .sendfile) :
    WriteOutcome st st.handleWrite := by
  have hrelay : st.conn.state.Relayed → WriteOutcome st
      (if bufReadable st.relay.conn.upstreamRbuf = 0 then st.relay.clientMod evR
        else st.relay.clientMod evRW) := by
    intro h
    split
    · exact .relay evR h
    · exact .relay evRW h
  have hrespond : ¬st.conn.state.Relayed → WriteOutcome st
      (if bufReadable st.respond.conn.wbuf = 0 then
        if st.respond.conn.state = .closing ∨ st.respond.conn.keepAlive = false then
          st.respond.connPoolPut
        else st.respond.nextRequest
      else st.respond) := by
    intro h
    split
    · rename_i hout
      split
      · rename_i hkeep
        exact .last h hout hkeep
      · rename_i hkeep
        exact .next h hout (Bool.eq_true_of_not_eq_false fun hf => hkeep (Or.inr hf))
    · rename_i hleft
      exact .waits h (Nat.pos_of_ne_zero hleft)
  rw [handleWrite]
  cases hs : st.conn.state with
  | sendfile => exact absurd hs hstate
  | proxying => exact hrelay (Or.inl hs)
  | tunnel => exact hrelay (Or.inr hs)
  | readingRequest => exact hrespond (by rw [hs]; decide)
  | writingResponse => exact hrespond (by rw [hs]; decide)
  | closing => exact hrespond (by rw [hs]; decide)

/-! ### `handle_read` -/

/-- What is read cannot be parsed. -/
def Rejects (st : St) : Prop :=
  st.conn.state ≠ .tunnel ∧ (parseFresh (bufBytes st.readClient.2.conn.rbuf)).1 = .error

instance (st : St) : Decidable st.Rejects := inferInstanceAs (Decidable (_ ∧ _))

instance (st : St) : Decidable st.Completes := inferInstanceAs (Decidable (_ ∧ _))

instance (st : St) : Decidable st.ReadFails := inferInstanceAs (Decidable (_ ∨ _))

/-- What the parser makes of what is read. -/
def parsed (st : St) : HttpParseState := (parseFresh (bufBytes st.readClient.2.conn.rbuf)).2

/-- The request that the parser finds in what was read. -/
def parsedRequest (st : St) : HttpRequest :=
  requestPopulate requestCreate st.parsed (bufBytes st.readClient.2.conn.rbuf)

/-- The arena has no room for the request. -/
def NoMemory (st : St) : Prop := (st.readClient.2.alloc requestSize 8).1 = none

instance (st : St) : Decidable st.NoMemory := inferInstanceAs (Decidable (_ = none))

/-- The state in which the request is dispatched. -/
def taking (st : St) : St :=
  (st.readClient.2.alloc requestSize 8).2.takeRequest st.parsed st.parsedRequest

/-- The state behind `handler_dispatch`. -/
def served (st : St) : St := st.taking.handlerDispatch st.parsedRequest

/-- The ends of `handle_read` behind `handler_dispatch`. -/
inductive AfterOutcome (st : St) : St → Prop
  /-- the request is with an upstream -/
  | handed (hstate : st.conn.state.Relayed) : AfterOutcome st st
  /-- the response is out, and it was the last one -/
  | last (hstate : ¬st.conn.state.Relayed) (hout : bufReadable st.respond.conn.wbuf = 0)
      (hkeep : st.conn.keepAlive = false) : AfterOutcome st st.respond.connPoolPut
  /-- the response is out, and the next request may come -/
  | next (hstate : ¬st.conn.state.Relayed) (hout : bufReadable st.respond.conn.wbuf = 0)
      (hkeep : st.conn.keepAlive = true) : AfterOutcome st st.respond.nextRequest
  /-- the socket takes no more -/
  | waits (hstate : ¬st.conn.state.Relayed) (hleft : 0 < bufReadable st.respond.conn.wbuf) :
      AfterOutcome st ((st.respond.setState .writingResponse).clientMod evW)

lemma afterDispatch_outcome (st : St) : AfterOutcome st st.afterDispatch := by
  rw [afterDispatch]
  split <;> rename_i hstate
  · exact .handed hstate
  · simp only
    split <;> rename_i hout
    · split <;> rename_i hkeep
      · exact .last hstate hout hkeep
      · exact .next hstate hout (Bool.eq_true_of_not_eq_false hkeep)
    · exact .waits hstate (Nat.pos_of_ne_zero hout)

/-- The ends of `handle_read`. -/
inductive ReadOutcome (st : St) : St → Prop
  /-- the bytes are for the upstream -/
  | tunnel (hstate : st.conn.state = .tunnel) : ReadOutcome st st.tunnelRead
  /-- the client's stream ends, or its socket fails -/
  | fails (hstate : st.conn.state ≠ .tunnel) (hfails : st.ReadFails) :
      ReadOutcome st st.readClient.2.connPoolPut
  /-- there is no request yet -/
  | idle (hstate : st.conn.state ≠ .tunnel) : ReadOutcome st st.readClient.2
  /-- there is something that is no request -/
  | rejects (hrejects : st.Rejects) :
      ReadOutcome st (((st.readClient.2.act .reject).answerError 400 false).clientMod evW)
  /-- there is a request, and no memory for it -/
  | noMemory (hcompletes : st.Completes) (hmem : st.NoMemory) :
      ReadOutcome st (st.readClient.2.alloc requestSize 8).2.connPoolPut
  /-- there is a request -/
  | takes (hcompletes : st.Completes) (hmem : ¬st.NoMemory) :
      ReadOutcome st st.served.afterDispatch

lemma acceptRequest_outcome (hcompletes : st.Completes) :
    ReadOutcome st (st.readClient.2.acceptRequest st.parsed) := by
  rw [acceptRequest]
  split <;> rename_i st1 heq
  · have hmem : st.NoMemory := by rw [NoMemory, heq]
    have hst1 : st1 = (st.readClient.2.alloc requestSize 8).2 := by rw [heq]
    rw [hst1]
    exact .noMemory hcompletes hmem
  · have hmem : ¬st.NoMemory := by
      rw [NoMemory, heq]
      simp
    have hst1 : st1 = (st.readClient.2.alloc requestSize 8).2 := by rw [heq]
    rw [hst1]
    exact .takes hcompletes hmem

lemma handleRead_outcome (st : St) : ReadOutcome st st.handleRead := by
  rw [handleRead]
  split <;> rename_i hstate
  · exact .tunnel hstate
  · split
    rename_i n st1 heq
    have hn : n = st.readClient.1 := by rw [heq]
    have hst1 : st1 = st.readClient.2 := by rw [heq]
    subst hn hst1
    split <;> rename_i hret
    · exact .fails hstate (by rw [ReadFails, if_neg hstate]; exact hret)
    · rw [parseRequests]
      split
      · exact .idle hstate
      · split <;> rename_i hparse
        · exact .idle hstate
        · exact .rejects ⟨hstate, by rw [hparse]⟩
        · have hps := congrArg Prod.snd hparse
          simp only at hps
          rw [← hps]
          exact acceptRequest_outcome ⟨hstate, by rw [hparse]⟩

/-! ### Going on, and giving back -/

/-- The connection is still served, and the others are left alone. -/
structure Serves (st st' : St) : Prop where
  kept : Kept st st'
  tends : Tends st st'

/-- And its own response, if there is one, is as it was. -/
structure Idles (st st' : St) : Prop extends Serves st st' where
  state : st'.conn.state = st.conn.state
  upstreamFd : st'.conn.upstreamFd = st.conn.upstreamFd
  wbuf : st'.conn.wbuf = st.conn.wbuf

/-- An object that is given back goes to the heap, or its write buffer is in order. -/
def Shelved (st : St) : Prop := st.acts.getLast? = some (.poolPut true) ∨ st.conn.wbuf.Sound

/-- The connection is given back. -/
structure GivesBack (st st' : St) : Prop where
  released : Released st st'
  spares : Spares st st'
  shelved : st.conn.wbuf.Sound → st'.Shelved

/-- It is given back by `worker_conn_close`. -/
structure HangsUp (st st' : St) : Prop extends GivesBack st st' where
  counted : st'.ws.activeConns = st.ws.activeConns - 1

lemma Serves.trans (h1 : Serves st st') (h2 : Serves st' st'') : Serves st st'' :=
  ⟨h1.kept.trans h2.kept, h1.tends.trans h2.tends⟩

lemma Idles.trans (h1 : Idles st st') (h2 : Idles st' st'') : Idles st st'' :=
  ⟨h1.toServes.trans h2.toServes, h2.state.trans h1.state, h2.upstreamFd.trans h1.upstreamFd,
    h2.wbuf.trans h1.wbuf⟩

lemma Idles.refl (st : St) : Idles st st := ⟨⟨.refl st, .refl st⟩, rfl, rfl, rfl⟩

lemma Idles.clientMod (events : Events) : Idles st (st.clientMod events) :=
  ⟨⟨(Stays.clientMod events).kept, .clientMod events⟩, rfl, rfl, rfl⟩

lemma Idles.upstreamMod {fd : ℤ} (hfd : fd = st.conn.upstreamFd) (h0 : 0 ≤ fd) (events : Events) :
    Idles st (st.upstreamMod fd events) :=
  ⟨⟨(Stays.upstreamMod hfd h0 events).kept, .upstreamMod fd events⟩, rfl, rfl, rfl⟩

lemma Idles.relay : Idles st st.relay :=
  ⟨⟨relay_kept st, .of_same rfl rfl rfl rfl rfl⟩, rfl, rfl, rfl⟩

lemma Idles.readClient : Idles st st.readClient.2 :=
  ⟨⟨Steady.readClient.kept, .of_same rfl rfl rfl rfl rfl⟩, rfl, rfl, rfl⟩

lemma Idles.readTunnel : Idles st st.readTunnel.2 :=
  ⟨⟨Steady.readTunnel.kept, .of_same rfl rfl rfl rfl rfl⟩, rfl, rfl, rfl⟩

lemma Idles.forwardAll (fd : ℤ) : Idles st (st.forwardAll fd) :=
  ⟨⟨(Steady.forwardAll fd).kept, .of_same rfl rfl rfl rfl rfl⟩, rfl, rfl, rfl⟩

lemma Idles.forwardOnce (fd : ℤ) : Idles st (st.forwardOnce fd).2 :=
  ⟨⟨(Steady.forwardOnce fd).kept, .of_same rfl rfl rfl rfl rfl⟩, rfl, rfl, rfl⟩

lemma Serves.respond : Serves st st.respond := ⟨Stays.respond.kept, .respond⟩

lemma Serves.nextRequest : Serves st st.nextRequest := ⟨Stays.nextRequest.kept, .nextRequest⟩

lemma nextRequest_state (st : St) : st.nextRequest.conn.state = .readingRequest := rfl

lemma connPoolPut_shelved (h : st.conn.wbuf.Sound) : st.connPoolPut.Shelved := by
  obtain ⟨fd, upstreamFd, fileFd, hclose⟩ := connClose_conn st
  have hwbuf : st.connClose.conn.wbuf = st.conn.wbuf := by rw [hclose]
  rw [Shelved, connPoolPut]
  simp only
  split
  · exact Or.inl (by simp [act, mapConn])
  · right
    change (bufReset st.connClose.conn.wbuf).Sound
    rw [hwbuf]
    exact ⟨bufReset_wf h.wf, h.cap, bufReset_tidy _⟩

/-- What goes before a connection is given back. -/
lemma GivesBack.of_put (hfd : 0 ≤ st.conn.fd) (hkept : Kept st st') (haside : Aside st st')
    (hwbuf : st.conn.wbuf.Sound → st'.conn.wbuf.Sound) : GivesBack st st'.connPoolPut :=
  ⟨hkept.released hfd (connPoolPut_released st'), haside.toSpares.trans Aside.connPoolPut.toSpares,
    fun h => connPoolPut_shelved (hwbuf h)⟩

lemma Serves.put (hfd : 0 ≤ st.conn.fd) (h : Serves st st') : GivesBack st st'.connPoolPut :=
  .of_put hfd h.kept h.tends.toAside h.tends.wbuf

lemma HangsUp.of_close (hreleased : Released st st'.workerConnClose) (h : Tends st st') :
    HangsUp st st'.workerConnClose := by
  refine ⟨⟨hreleased, h.toAside.workerConnClose, fun hsound => ?_⟩, ?_⟩
  · have hshelved : st'.conn.wbuf.Sound → Shelved st'.workerConnClose := fun hwbuf =>
      connPoolPut_shelved hwbuf
    exact hshelved (h.wbuf hsound)
  · have hput : Aside { st' with ws := { st'.ws with activeConns := st'.ws.activeConns - 1 } }
        st'.workerConnClose := Aside.connPoolPut
    rw [hput.active, ← h.active]

/-- What is served at first and then given back. -/
lemma Serves.hangsUp {st1 : St} (hfd : 0 ≤ st.conn.fd) (h1 : Serves st st1)
    (h2 : HangsUp st1 st') : HangsUp st st' :=
  ⟨⟨h1.kept.released hfd h2.released, h1.tends.toSpares.trans h2.spares,
    fun h => h2.shelved (h1.tends.wbuf h)⟩, by rw [h2.counted, h1.tends.active]⟩

lemma Serves.hang (hfd : 0 ≤ st.conn.fd) (h : Serves st st') : HangsUp st st'.workerConnClose :=
  .of_close (h.kept.released hfd (workerConnClose_released st')) h.tends

/-! ### The outcomes in these terms -/

lemma tunnelRead_goes (hfd : 0 ≤ st.conn.fd) (hstate : st.conn.state = .tunnel)
    (hup : 0 ≤ st.conn.upstreamFd) :
    Idles st st.tunnelRead ∨ (st.ReadFails ∧ HangsUp st st.tunnelRead) := by
  have hread : Idles st st.readTunnel.2 := .readTunnel
  rw [tunnelRead]
  split
  rename_i n st1 heq
  rw [heq] at hread
  split
  · rename_i hn
    refine Or.inr ⟨?_, hread.toServes.hang hfd⟩
    rwa [ReadFails, if_pos hstate, heq]
  · left
    split
    · have hfwd : Idles st (st1.forwardAll st1.conn.upstreamFd) := hread.trans (.forwardAll _)
      have hup1 : 0 ≤ (st1.forwardAll st1.conn.upstreamFd).conn.upstreamFd := by
        rw [hfwd.upstreamFd]
        exact hup
      simp only
      split <;> exact hfwd.trans (.upstreamMod rfl hup1 _)
    · exact hread

lemma relayTurn_idles (st : St) : Idles st st.relayTurn := by
  have hstatus : Idles st st.captureStatus := by
    have hkept : Kept st st.captureStatus := Stays.captureStatus.kept
    rcases captureStatus_cases st with heq | ⟨-, status, heq⟩
    · rw [heq]
      exact .refl st
    · rw [heq] at hkept ⊢
      exact ⟨⟨hkept, .of_same rfl rfl rfl rfl rfl⟩, rfl, rfl, rfl⟩
  have hcache : Idles st.captureStatus st.captureStatus.captureCache := by
    have hkept : Kept st.captureStatus st.captureStatus.captureCache := Stays.captureCache.kept
    rcases captureCache_cases st.captureStatus with heq | ⟨-, buf, len, cap, reallocs, -, heq⟩
    · rw [heq]
      exact .refl _
    · rw [heq] at hkept ⊢
      exact ⟨⟨hkept, .of_same rfl rfl rfl rfl rfl⟩, rfl, rfl, rfl⟩
  exact (hstatus.trans hcache).trans .relay

lemma readUpstream_idles (tape : List SysRead) : Idles st (st.readUpstream tape).2 := by
  refine ⟨⟨readUpstream_kept tape, .readUpstream tape⟩, ?_, ?_, ?_⟩ <;>
    · rw [readUpstream]
      simp only
      split <;> rfl

/-- The request is dispatched; no upstream was open. -/
lemma served_kept (hup : st.conn.upstreamFd < 0) : Kept st st.served := by
  have htake : Kept st st.taking :=
    (Idles.readClient.kept.trans (Stays.alloc requestSize 8).kept).trans (takeRequest_kept _ _)
  exact htake.trans ((handlerDispatch_dispatched _ _).kept hup)

lemma served_aside (st : St) : Aside st st.served := by
  have htake : Aside st st.taking := .of_loop rfl rfl rfl
  exact htake.trans (Tends.handlerDispatch _).toAside

lemma served_wbuf (h : st.conn.wbuf.Sound) : st.served.conn.wbuf.Sound :=
  (Tends.handlerDispatch _).wbuf (h : st.taking.conn.wbuf.Sound)

/-- The connection is kept alive as the request asks for it. -/
lemma served_keepAlive (st : St) : st.served.conn.keepAlive = st.parsedRequest.keepAlive := by
  have hdispatch : Tends st.taking st.served := .handlerDispatch _
  exact hdispatch.keepAlive.trans (requestPopulate_keepAlive _ _ _).symm

lemma upstreamLoop_idles (tape : List SysRead) (st : St) : Idles st (upstreamLoop tape st).2 := by
  induction tape generalizing st with
  | nil => exact readUpstream_idles []
  | cons r tape ih =>
    have hread : Idles st (st.readUpstream (r :: tape)).2 := readUpstream_idles _
    rw [upstreamLoop]
    split <;> rename_i heq <;> rw [heq] at hread
    · exact (hread.trans (relayTurn_idles _)).trans (ih _)
    · exact hread

/-- The upstream is let go, and the connection is given back. -/
lemma finishProxy_hangsUp {fd : ℤ} (hfd : 0 ≤ st.conn.fd) (hup : fd = st.conn.upstreamFd)
    (n : Ret) : HangsUp st (st.finishProxy n fd) := by
  have hunlink : Tends st (st.unlinkUpstream fd) :=
    ⟨(Aside.del fd).trans (.mapConn _), rfl, id⟩
  exact .of_close (finishProxy_released hfd hup n) (hunlink.trans (.settleUpstream n fd))

lemma upstreamReadPart_goes {fd : ℤ} (hfd : 0 ≤ st.conn.fd) (hup : fd = st.conn.upstreamFd) :
    Idles st (st.upstreamReadPart fd) ∨ HangsUp st (st.upstreamReadPart fd) := by
  have hloop := upstreamLoop_idles (onFd fd .err st.env.upstreamReads) st
  obtain ⟨n, st1, st2, heq, hst2, hend⟩ := upstreamReadPart_cases st fd
  rw [heq] at hloop
  have hmod : Idles st st2 := by
    rcases hst2 with rfl | rfl
    · exact hloop
    · exact hloop.trans (.clientMod _)
  rcases hend with ⟨-, heq⟩ | ⟨-, heq⟩ <;> rw [heq]
  · refine Or.inr (hmod.toServes.hangsUp hfd (finishProxy_hangsUp ?_ ?_ n))
    · rw [hmod.kept.fd]
      exact hfd
    · exact hup.trans hmod.upstreamFd.symm
  · exact Or.inl hmod

/-- The upstream takes no more of the request, so the client gets a 502. -/
def ForwardFails (st : St) (fd : ℤ) (ev : Events) : Prop :=
  (if ev.write then st.upstreamWritePart fd else (true, st)).1 = false

instance (st : St) (fd : ℤ) (ev : Events) : Decidable (st.ForwardFails fd ev) :=
  inferInstanceAs (Decidable (_ = false))

/-- **An event of the upstream** leaves the connection's own response alone, or ends with
`worker_conn_close`. -/
lemma proxyOnUpstreamEvent_goes {fd : ℤ} (hfd : 0 ≤ st.conn.fd) (h0 : 0 ≤ fd)
    (hup : fd = st.conn.upstreamFd) (ev : Events) :
    (Idles st (st.proxyOnUpstreamEvent fd ev) ∧ ¬st.ForwardFails fd ev) ∨
      HangsUp st (st.proxyOnUpstreamEvent fd ev) := by
  have hfwd : Idles st (st.forwardOnce fd).2 := .forwardOnce fd
  rcases proxyOnUpstreamEvent_parts st fd ev with heq | ⟨st1, hpart, hst1, heq⟩ <;> rw [heq]
  · have hanswer : Serves (st.forwardOnce fd).2
        ((st.forwardOnce fd).2.answerError 502 false).respondOnce :=
      ⟨((Stays.answerError _ _).trans .respondOnce).kept,
        (Tends.answerError _ _).trans .respondOnce⟩
    exact Or.inr ((hfwd.toServes.trans hanswer).hang hfd)
  · have h1 : Idles st st1 := by
      rcases hst1 with ⟨-, rfl⟩ | ⟨-, rfl | rfl⟩
      · exact .refl _
      · exact hfwd
      · exact hfwd.trans (.upstreamMod (hup.trans hfwd.upstreamFd.symm) h0 _)
    have hgoes : ¬st.ForwardFails fd ev := by simp [ForwardFails, hpart]
    split
    · have hread : Idles st1 (st1.upstreamReadPart fd) ∨ HangsUp st1 (st1.upstreamReadPart fd) :=
        upstreamReadPart_goes (by rw [h1.kept.fd]; exact hfd) (hup.trans h1.upstreamFd.symm)
      exact hread.imp (fun h => ⟨h1.trans h, hgoes⟩) (h1.toServes.hangsUp hfd)
    · exact Or.inl ⟨h1, hgoes⟩

end St

end Nproxy
