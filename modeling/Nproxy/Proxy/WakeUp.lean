import Nproxy.Proxy.ReadLoop
import Nproxy.Proxy.Wire

/-!
Wake-ups that are not lost.

Whoever is told that the upstream's socket has something to read has to read all of it, since what
is left in it is not reported again.

* `Wire.Awake`: the upstream is registered for reading, and what waits in its socket is news or the
  registration is. Every step keeps it in which the read loop meets no full buffer (`Awake.step`).
* `not_lost_run`: so no state of such a run is lost.
-/

namespace Nproxy

open Edge (Signal Inbox)

namespace St

variable {st st' : St}

/-! ### An event of the upstream -/

/-- The descriptors stay, and whatever was registered for reading is. -/
structure Listens (st st' : St) : Prop where
  fd : st'.conn.fd = st.conn.fd
  upstreamFd : st'.conn.upstreamFd = st.conn.upstreamFd
  hears : ∀ fd, st.ws.loop.Hears fd → st'.ws.loop.Hears fd

namespace Listens

variable {st'' : St}

lemma refl (st : St) : Listens st st := ⟨rfl, rfl, fun _ h => h⟩

lemma trans (h1 : Listens st st') (h2 : Listens st' st'') : Listens st st'' :=
  ⟨h2.fd.trans h1.fd, h2.upstreamFd.trans h1.upstreamFd, fun fd h => h2.hears fd (h1.hears fd h)⟩

lemma forwardOnce (fd : ℤ) : Listens st (st.forwardOnce fd).2 := ⟨rfl, rfl, fun _ h => h⟩

lemma clientMod : Listens st (st.clientMod evRW) := ⟨rfl, rfl, fun _ h => h.mod _ rfl _⟩

lemma upstreamMod (fd : ℤ) : Listens st (st.upstreamMod fd evR) :=
  ⟨rfl, rfl, fun _ h => h.mod _ rfl _⟩

lemma upstreamLoop (tape : List SysRead) (st : St) : Listens st (St.upstreamLoop tape st).2 := by
  have hstill := (Pumps.upstreamLoop tape st).still
  have hfd : (St.upstreamLoop tape st).2.conn.still.fd = st.conn.still.fd := by rw [hstill]
  have hufd : (St.upstreamLoop tape st).2.conn.still.upstreamFd = st.conn.still.upstreamFd := by
    rw [hstill]
  refine ⟨hfd, hufd, fun fd h => ?_⟩
  rw [upstreamLoop_ws]
  exact h

end Listens

/-- The read loop will not meet a full buffer: there is room, and what waits in the socket
fits as well, or the client's socket takes everything. -/
def Roomy (st : St) (fd : ℤ) (cells : List UInt8) : Prop :=
  bufReadable st.conn.upstreamRbuf < st.conn.upstreamRbuf.cap ∧
    (bufReadable st.conn.upstreamRbuf + cells.length < st.conn.upstreamRbuf.cap ∨
      takes st.conn.upstreamRbuf.cap (onFd fd .err st.env.upstreamReads).length
        (onFd st.conn.fd .err st.env.clientWrites) = true)

instance (st : St) (fd : ℤ) (cells : List UInt8) : Decidable (st.Roomy fd cells) :=
  inferInstanceAs (Decidable (_ ∧ _))

lemma Roomy.neverFull {fd : ℤ} {cells : List UInt8} {ended : Bool} (h : st.Roomy fd cells)
    (hwf : st.conn.upstreamRbuf.Wf)
    (hhonest : honest ended (onFd fd .err st.env.upstreamReads) st cells = true) :
    NeverFull (onFd fd .err st.env.upstreamReads) st := by
  rcases h with ⟨hroom, hfits | htakes⟩
  · exact neverFull_of_fits _ hwf hhonest hfits
  · exact neverFull_of_takes _ hwf hroom htakes

/-- The state in which an event of the upstream starts to read. -/
def reading (st : St) (fd : ℤ) (ev : Events) : St :=
  if ev.write then (st.upstreamWritePart fd).2 else st

/-- An event of the upstream up to the read loop. -/
structure Prepares (st st' : St) : Prop extends Listens st st' where
  rbuf : st'.conn.upstreamRbuf = st.conn.upstreamRbuf
  env : st'.env.clientWrites = st.env.clientWrites ∧
    st'.env.upstreamReads = st.env.upstreamReads
  reads : readBytes st'.acts = readBytes st.acts

lemma Forwards.prepares {fd : ℤ} {ev : Events} (h : st.Forwards fd ev st') : Prepares st st' := by
  have hreads : readBytes (st.forwardOnce fd).2.acts = readBytes st.acts :=
    (readBytes_append _ _).trans (List.append_nil _)
  have hfwd : Prepares st (st.forwardOnce fd).2 := ⟨.forwardOnce fd, rfl, ⟨rfl, rfl⟩, hreads⟩
  rcases h with ⟨-, rfl⟩ | ⟨-, rfl | rfl⟩
  · exact ⟨.refl _, rfl, ⟨rfl, rfl⟩, rfl⟩
  · exact hfwd
  · exact ⟨hfwd.toListens.trans (.upstreamMod fd), hfwd.rbuf, hfwd.env, hfwd.reads⟩

/-- The part that reads: the connection is closed, or all there was is read. -/
lemma upstreamReadPart_drains {fd : ℤ} {cells : List UInt8} {ended : Bool}
    (hwf : st.conn.upstreamRbuf.Wf)
    (hhonest : honest ended (onFd fd .err st.env.upstreamReads) st cells = true)
    (hroomy : st.Roomy fd cells) :
    (st.upstreamReadPart fd).conn.state = .closing ∨
      (Listens st (st.upstreamReadPart fd) ∧ ended = false ∧
        (readBytes (st.upstreamReadPart fd).acts).length =
          (readBytes st.acts).length + cells.length) := by
  have hdrains := upstreamLoop_drains _ hwf hhonest (hroomy.neverFull hwf hhonest)
  have hlistens := Listens.upstreamLoop (onFd fd .err st.env.upstreamReads) st
  obtain ⟨n, st1, st2, hloop, hst2, hend⟩ := upstreamReadPart_cases st fd
  rw [hloop] at hdrains hlistens
  rcases hend with ⟨-, heq⟩ | ⟨hn, heq⟩ <;> rw [heq]
  · exact Or.inl (finishProxy_state _ _ _)
  · right
    rcases hdrains with h | h | ⟨hended, hreads⟩
    · exact absurd (Or.inl h) hn
    · exact absurd (Or.inr h) hn
    · rcases hst2 with rfl | rfl
      · exact ⟨hlistens, hended, hreads⟩
      · exact ⟨hlistens.trans .clientMod, hended, hreads⟩

/-- **An event of the upstream** closes the connection, or leaves nothing unread if it
reads. -/
lemma proxyOnUpstreamEvent_drains {fd : ℤ} {ev : Events} {cells : List UInt8} {ended : Bool}
    (hwf : st.conn.upstreamRbuf.Wf)
    (hhonest : ev.read = true →
      honest ended (onFd fd .err st.env.upstreamReads) (st.reading fd ev) cells = true)
    (hroomy : ev.read = true → st.Roomy fd cells) :
    (st.proxyOnUpstreamEvent fd ev).conn.state = .closing ∨
      (Listens st (st.proxyOnUpstreamEvent fd ev) ∧
        if ev.read then ended = false ∧
          (readBytes (st.proxyOnUpstreamEvent fd ev).acts).length =
            (readBytes st.acts).length + cells.length
        else readBytes (st.proxyOnUpstreamEvent fd ev).acts = readBytes st.acts) := by
  rcases proxyOnUpstreamEvent_parts st fd ev with heq | ⟨st1, hpart, hst1, heq⟩ <;> rw [heq]
  · exact Or.inl (workerConnClose_state _)
  · have hprep := hst1.prepares
    -- the part that writes comes first, so the reads begin in the state it leaves
    have hreading : st.reading fd ev = st1 := by
      rw [reading]
      split at hpart <;> rename_i hwrite
      · rw [if_pos hwrite, hpart]
      · rw [if_neg hwrite]
        exact (Prod.mk.inj hpart).2
    by_cases hr : ev.read = true
    · simp only [if_pos hr]
      have hhonest1 := hhonest hr
      have hroomy1 := hroomy hr
      rw [hreading, ← hprep.env.2] at hhonest1
      rw [Roomy, ← hprep.rbuf, ← hprep.env.1, ← hprep.env.2, ← hprep.fd] at hroomy1
      rcases upstreamReadPart_drains (hprep.rbuf ▸ hwf) hhonest1 hroomy1 with
        h | ⟨hlistens, hended, hreads⟩
      · exact Or.inl h
      · exact Or.inr ⟨hprep.toListens.trans hlistens, hended, hprep.reads ▸ hreads⟩
    · simp only [if_neg hr]
      exact Or.inr ⟨hprep.toListens, hprep.reads⟩

/-! ### An event of the client -/

/-- Only the client is attended to. -/
structure Attends (st st' : St) : Prop where
  state : st'.conn.state = st.conn.state
  fd : st'.conn.fd = st.conn.fd
  upstreamFd : st'.conn.upstreamFd = st.conn.upstreamFd
  wf : st.conn.upstreamRbuf.Wf → st'.conn.upstreamRbuf.Wf
  others : ∀ fd, fd ≠ st.conn.fd → st'.ws.loop.interest fd = st.ws.loop.interest fd

/-- What the client has sent by now does not complete a request. -/
def Incomplete (st : St) : Prop := (parseFresh (bufBytes st.readClient.2.conn.rbuf)).1 ≠ .done

lemma handleRead_attends (hstate : st.conn.state = .proxying) (hinc : st.Incomplete) :
    Attends st st.handleRead ∨ st.handleRead.conn.state = .closing ∨
      st.handleRead.conn.state = .writingResponse := by
  have hread : Attends st st.readClient.2 := ⟨rfl, rfl, rfl, id, fun _ _ => rfl⟩
  rw [Incomplete] at hinc
  rw [handleRead, if_neg (by rw [hstate]; decide)]
  rcases hn : st.readClient with ⟨n, st1⟩
  rw [hn] at hread hinc
  simp only at hread hinc ⊢
  split
  · exact Or.inr (Or.inl (connPoolPut_state _))
  · rw [parseRequests]
    split
    · exact Or.inl hread
    · rcases hparse : parseFresh (bufBytes st1.conn.rbuf) with ⟨r, ps⟩
      rw [hparse] at hinc
      cases r with
      | incomplete => exact Or.inl hread
      | error => exact Or.inr (Or.inr rfl)
      | done => exact absurd rfl hinc

lemma handleWrite_attends (hstate : st.conn.state = .proxying) : Attends st st.handleWrite := by
  have hwf : st.conn.upstreamRbuf.Wf → st.relay.conn.upstreamRbuf.Wf := fun h =>
    (bufWriteLoop_spec h (onFd st.conn.fd .err st.env.clientWrites)).1
  rw [handleWrite, hstate]
  simp only
  split
  · exact ⟨rfl, rfl, rfl, hwf, fun _ h => eventLoopMod_interest_of_ne h _ _⟩
  · exact ⟨rfl, rfl, rfl, hwf, fun _ h => eventLoopMod_interest_of_ne h _ _⟩

/-- A connection that is closed or answers an error does not go back to relaying. -/
lemma handleWrite_not_proxying
    (h : st.conn.state = .closing ∨ st.conn.state = .writingResponse) :
    st.handleWrite.conn.state ≠ .proxying := by
  have hrespond : st.respond.conn.state = st.conn.state := rfl
  have hwrite : st.handleWrite = if bufReadable st.respond.conn.wbuf = 0 then
      if st.respond.conn.state = .closing ∨ st.respond.conn.keepAlive = false then
        st.respond.connPoolPut
      else st.respond.nextRequest
    else st.respond := by
    rcases h with h | h <;> rw [handleWrite, h]
  rw [hwrite]
  split
  · split
    · rw [connPoolPut_state]
      decide
    · change ConnState.readingRequest ≠ .proxying
      decide
  · rcases h with h | h <;> rw [hrespond, h] <;> decide

/-- **An event of the client** ends the relaying, or leaves the upstream's registration
alone. -/
lemma onClientEvent_attends (hstate : st.conn.state = .proxying) (ev : Events)
    (hinc : ev.read = true → st.Incomplete) :
    Attends st (st.onClientEvent ev) ∨ (st.onClientEvent ev).conn.state ≠ .proxying := by
  rw [onClientEvent]
  split
  · right
    rw [connPoolPut_state]
    decide
  · have hread : Attends st (if ev.read then st.handleRead else st) ∨
        (if ev.read then st.handleRead else st).conn.state = .closing ∨
        (if ev.read then st.handleRead else st).conn.state = .writingResponse := by
      split
      · rename_i hr
        exact handleRead_attends hstate (hinc hr)
      · exact Or.inl ⟨rfl, rfl, rfl, id, fun _ _ => rfl⟩
    simp only
    -- `handle_write` follows in the same call, in the state that `handle_read` leaves
    generalize (if ev.read then st.handleRead else st) = st1 at hread
    split
    · rcases hread with h | h
      · have hw := handleWrite_attends (h.state.trans hstate)
        exact Or.inl ⟨hw.state.trans h.state, hw.fd.trans h.fd, hw.upstreamFd.trans h.upstreamFd,
          fun hwf => hw.wf (h.wf hwf), fun fd hne =>
            (hw.others fd (h.fd ▸ hne)).trans (h.others fd hne)⟩
      · exact Or.inr (handleWrite_not_proxying h)
    · rcases hread with h | h | h
      · exact Or.inl h
      · exact Or.inr (by rw [h]; decide)
      · exact Or.inr (by rw [h]; decide)

end St

/-! ### Runs -/

namespace Wire

/-- What can happen while one response is relayed. Nothing comes after the upstream's end,
the reads of an event get what is there, and the client does not complete another request:
that would replace the upstream. -/
def Allows (c : ConnId) (w : Wire) : Tick → Prop
  | .arrive bs => bs ≠ [] ∧ w.upstream.ended = false
  | .finish => w.upstream.ended = false
  | .upstreamRoom _ | .clientData _ | .clientRoom _ => True
  | .client env hup err => w.conn.state = .proxying ∧
      ((w.clientEvents hup err).read = true → (w.called c w.conn.fd env).Incomplete)
  | .upstream env => w.conn.state = .proxying ∧
      (w.upstreamEvents.read = true → St.honest w.upstream.ended
        (St.onFd w.conn.upstreamFd .err env.upstreamReads)
        ((w.called c w.conn.upstreamFd env).reading w.conn.upstreamFd w.upstreamEvents)
        w.upstream.cells = true)

/-- When the upstream's socket is to be read, the read loop will not meet a full buffer. -/
def Roomy (c : ConnId) (w : Wire) : Tick → Prop
  | .upstream env => w.upstreamEvents.read = true →
      (w.called c w.conn.upstreamFd env).Roomy w.conn.upstreamFd w.upstream.cells
  | _ => True

/-- The request was just handed to the upstream. -/
structure Started (w : Wire) : Prop where
  state : w.conn.state = .proxying
  wf : w.conn.upstreamRbuf.Wf
  apart : w.conn.fd ≠ w.conn.upstreamFd
  registered : w.ws.loop.interest w.conn.upstreamFd = some evRW

/-- The upstream's descriptor is registered for reading, and nothing waits in it unnoticed. -/
structure Awake (w : Wire) : Prop where
  wf : w.conn.upstreamRbuf.Wf
  apart : w.conn.fd ≠ w.conn.upstreamFd
  noticed : ∃ m, w.ws.loop.interest w.conn.upstreamFd = some m ∧ m.read = true ∧
    w.upstream.Noticed m.edge

/-- That is so at the end of `proxy_handle`, if the descriptor of the upstream is new and the
table of handlers reaches that far. -/
lemma started_startProxy {st : St} {req : HttpRequest} (hreq : req.upgrade = false) (i b : ℕ)
    {ufd : ℤ} (hwf : st.conn.upstreamRbuf.Wf) (hapart : st.conn.fd ≠ ufd)
    (hlow : ufd < st.ws.loop.maxFd) (hnew : st.ws.loop.interest ufd = none)
    (upstream : Inbox UInt8) (upstreamRoom clientData clientRoom : Signal) :
    Started ⟨(st.startProxy req i b ufd).conn, (st.startProxy req i b ufd).ws, upstream,
      upstreamRoom, clientData, clientRoom⟩ where
  state := by simp [St.startProxy, St.mapLoop, St.mapConn, hreq]
  wf := hwf
  apart := hapart
  registered := by
    have hset : ((st.ws.loop.setHandler ufd (.upstream st.self)).interest ufd).isSome = false := by
      simp [EventLoop.setHandler, hnew]
    simp [St.startProxy, St.mapLoop, St.mapConn, eventLoopAdd, not_le.mpr hlow, hset]

variable {c : ConnId} {w : Wire}

lemma Started.awake (h : w.Started) : w.Awake :=
  ⟨h.wf, h.apart, evRW, h.registered, rfl, Inbox.noticed_armed _⟩

/-- Whoever is awake is told. -/
lemma Awake.due (h : w.Awake) (hunread : w.upstream.unread = true) :
    w.upstreamEvents.read = true := by
  obtain ⟨m, hm, hread, hnoticed⟩ := h.noticed
  simp [upstreamEvents, EventLoop.due, hm, hread, hnoticed hunread]

lemma Awake.not_lost (h : w.conn.state = .proxying → w.Awake) : ¬w.Lost := by
  intro hlost
  have hdue := (h hlost.state).due hlost.unread
  have hquiet := hlost.quiet
  simp [Wire.due, hdue] at hquiet

/-- What arrives is noticed. -/
lemma Awake.news (h : w.Awake) {b : Inbox UInt8} (hb : b.news = true) :
    Awake { w with upstream := b } := by
  obtain ⟨m, hm, hread, -⟩ := h.noticed
  exact ⟨h.wf, h.apart, m, hm, hread, Inbox.noticed_of_news hb _⟩

lemma Awake.client (h : w.Awake) {env : Env} {hup err : Bool}
    (hallows : w.Allows c (.client env hup err))
    (hstate : (w.step c (.client env hup err)).conn.state = .proxying) :
    (w.step c (.client env hup err)).Awake := by
  obtain ⟨m, hm, hread, hnoticed⟩ := h.noticed
  have hne : w.conn.upstreamFd ≠ w.conn.fd := Ne.symm h.apart
  have hproxying : (w.called c w.conn.fd env).conn.state = .proxying := hallows.1
  rcases St.onClientEvent_attends hproxying (w.clientEvents hup err) hallows.2 with hatt | hno
  · refine ⟨hatt.wf h.wf, ?_, m, ?_, hread, hnoticed⟩
    · intro heq
      exact h.apart (hatt.fd.symm.trans (heq.trans hatt.upstreamFd))
    · exact ((congrArg _ hatt.upstreamFd).trans (hatt.others _ hne)).trans
        ((EventLoop.reported_of_ne hne).trans hm)
  · exact absurd hstate hno

lemma Awake.upstream (h : w.Awake) {env : Env} (hallows : w.Allows c (.upstream env))
    (hroomy : w.Roomy c (.upstream env))
    (hstate : (w.step c (.upstream env)).conn.state = .proxying) :
    (w.step c (.upstream env)).Awake := by
  obtain ⟨m, hm, hread, hnoticed⟩ := h.noticed
  have hwf : (w.called c w.conn.upstreamFd env).conn.upstreamRbuf.Wf := h.wf
  have hhears : (w.called c w.conn.upstreamFd env).ws.loop.Hears w.conn.upstreamFd :=
    EventLoop.Hears.reported ⟨m, hm, hread⟩ _
  rcases St.proxyOnUpstreamEvent_drains hwf hallows.2 hroomy with hclosing | ⟨hlistens, hreads⟩
  · exact absurd (hstate.symm.trans hclosing) (by decide)
  · have hwf' := (St.proxyOnUpstreamEvent_streamsOn hwf w.conn.upstreamFd w.upstreamEvents)
    obtain ⟨m', hm', hread'⟩ := hlistens.hears _ hhears
    refine ⟨?_, ?_, m', ?_, hread', ?_⟩
    · rcases hwf' with hs | ⟨⟨hclosing, -⟩, -⟩
      · exact hs.wf
      · exact absurd (hstate.symm.trans hclosing) (by decide)
    · intro heq
      exact h.apart (hlistens.fd.symm.trans (heq.trans hlistens.upstreamFd))
    · exact (congrArg _ hlistens.upstreamFd).trans hm'
    · by_cases hdue : w.upstreamEvents.read = true
      · rw [if_pos hdue] at hreads
        have hlen := hreads.2
        rw [show readBytes (w.called c w.conn.upstreamFd env).acts = [] from rfl, List.length_nil,
          zero_add] at hlen
        -- the event was reported and is used up, but all cells that were there are read
        exact Inbox.noticed_of_drained (b := w.upstream.reported) hlen hreads.1 _
      · -- nothing was due, so nothing is unread, and nothing was read
        rw [if_neg hdue] at hreads
        have hunread : w.upstream.unread = false := by
          by_contra hne
          exact hdue (h.due (Bool.eq_true_of_not_eq_false hne))
        refine Inbox.noticed_of_not_unread ?_ _
        simp only [step, hreads]
        exact hunread

/-- **Every step that drains the upstream's socket keeps the connection awake.** -/
lemma Awake.step (h : w.conn.state = .proxying → w.Awake) {t : Tick} (hallows : w.Allows c t)
    (hroomy : w.Roomy c t) :
    (w.step c t).conn.state = .proxying → (w.step c t).Awake := by
  intro hstate
  cases t with
  | arrive bs => exact (h hstate).news rfl
  | finish => exact (h hstate).news rfl
  | upstreamRoom b => exact ⟨(h hstate).wf, (h hstate).apart, (h hstate).noticed⟩
  | clientData b => exact ⟨(h hstate).wf, (h hstate).apart, (h hstate).noticed⟩
  | clientRoom b => exact ⟨(h hstate).wf, (h hstate).apart, (h hstate).noticed⟩
  | client env hup err => exact (h hallows.1).client hallows hstate
  | upstream env => exact (h hallows.1).upstream hallows hroomy hstate

end Wire

/-- **No wake-up is lost** in a run in which the read loop never meets a full buffer: from
the moment the request is handed to the upstream, over every interleaving of what arrives,
what is reported and what is handled. -/
theorem not_lost_run (c : ConnId) (w : Wire) (hstart : w.Started) (ts : List Tick)
    (hts : Run.Along (Wire.step c) (fun w t => w.Allows c t ∧ w.Roomy c t) w ts) :
    ¬(Run.run (Wire.step c) w ts).Lost :=
  Wire.Awake.not_lost (hts.invariant
    (P := fun w => w.conn.state = .proxying → w.Awake)
    (fun _ _ h ht => Wire.Awake.step h ht.1 ht.2) fun _ => hstart.awake)

/-! ### A response that is relayed -/

/-- A connection whose request was just handed to the upstream, on a worker that accepted it:
both sockets are writable. -/
def askedWire : Wire where
  conn := (backendWorker.run (clientComes ++ clientAsks "/")).heap 0
  ws := (backendWorker.run (clientComes ++ clientAsks "/")).ws
  upstream := ⟨[], false, false⟩
  upstreamRoom := ⟨true, true⟩
  clientData := ⟨false, false⟩
  clientRoom := ⟨true, false⟩

lemma askedWire_started : askedWire.Started where
  state := by decide +kernel
  wf :=
    have hrbuf : askedWire.conn.upstreamRbuf = bufReset (bufInit npReadBufSize) := rfl
    hrbuf ▸ bufReset_wf (bufInit_wf (by decide))
  apart := by decide +kernel
  registered := by decide +kernel

/-- The request goes out. -/
def requestGoes : Tick := .upstream { idleEnv with upstreamWrites := [.wrote 65536] }

/-- The request goes out, the response comes in and is relayed. -/
def relayedTicks : List Tick :=
  [requestGoes, .arrive (bytes "HTTP/1.1 200 OK"), .upstream { idleEnv with
    upstreamReads := [.data (bytes "HTTP/1.1 200 OK"), .again]
    clientWrites := [.wrote 65536] }]

/-- A response that comes after the request has gone out is relayed, and no wake-up is lost. -/
theorem not_lost_run_relayedTicks : ¬(Run.run (Wire.step 0) askedWire relayedTicks).Lost :=
  not_lost_run 0 askedWire askedWire_started relayedTicks
    ⟨⟨⟨by decide +kernel, fun h => absurd h (by decide +kernel)⟩,
        fun h => absurd h (by decide +kernel)⟩,
      ⟨⟨by decide +kernel, by decide +kernel⟩, trivial⟩,
      ⟨⟨by decide +kernel, fun _ => by decide +kernel⟩, fun _ => by decide +kernel⟩, trivial⟩

end Nproxy
