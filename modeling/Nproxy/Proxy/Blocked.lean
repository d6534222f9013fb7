import Nproxy.Proxy.WakeUp

/-!
A client that does not keep up.

The read loop of `proxy_on_upstream_event` stops when `upstream_rbuf` is full, and `handle_write`,
which empties that buffer, does not turn to the upstream.

* `Wire.Blocked`: the upstream's socket is to be read while the client's is full.
* `blocked_lost`: the upstream has as much as the buffer holds, and more; once the client has taken
  what is buffered, no event is due.
* `bigResponse_lost`: a response of 64 KiB and one byte.
-/

namespace Nproxy

open Edge (Signal Inbox)

/-- A read of more than an empty buffer holds fills it. -/
lemma bufReadFd_fills {b : NpBuf} (hwf : b.Wf) (hempty : bufReadable b = 0) (hcap : 0 < b.cap)
    {bs : List UInt8} (hbs : b.cap ≤ bs.length) (tape : List SysRead) :
    (bufReadFd b (.data bs :: tape)).ret = .ok b.cap ∧
      (bufReadFd b (.data bs :: tape)).got = bs.take b.cap := by
  have hspace : bufWritable (bufCompact b) = b.cap := by
    rw [bufWritable_compact hwf, length_bufBytes hwf, hempty, Nat.sub_zero]
  have hlen : (bs.take b.cap).length = b.cap := by
    rw [List.length_take, min_eq_left hbs]
  have hne : bs.take b.cap ≠ [] := by
    intro hnil
    rw [hnil, List.length_nil] at hlen
    omega
  unfold bufReadFd
  simp only [hspace, if_neg hcap.ne', if_neg hne, and_true, Ret.ok.injEq]
  exact hlen

namespace St

variable {st : St}

/-- **The read loop stops at a full buffer**, when the client's socket takes nothing. -/
lemma upstreamLoop_fills (hwf : st.conn.upstreamRbuf.Wf)
    (hempty : bufReadable st.conn.upstreamRbuf = 0) (hcap : 0 < st.conn.upstreamRbuf.cap)
    {cells : List UInt8} (hbig : st.conn.upstreamRbuf.cap ≤ cells.length)
    (hfull : onFd st.conn.fd .err st.env.clientWrites = []) (ended : Bool) :
    honest ended [.data cells] st cells = true ∧
      (upstreamLoop [.data cells] st).1 = .ok 0 ∧
      bufReadable (upstreamLoop [.data cells] st).2.conn.upstreamRbuf =
        st.conn.upstreamRbuf.cap ∧
      (readBytes (upstreamLoop [.data cells] st).2.acts).length =
        (readBytes st.acts).length + st.conn.upstreamRbuf.cap := by
  obtain ⟨hret, hgot⟩ := bufReadFd_fills hwf hempty hcap hbig []
  obtain ⟨hret1, hconn1, -, hwrites1, hreads1⟩ := readUpstream_spec st [.data cells]
  obtain ⟨k, hk⟩ := Nat.exists_eq_succ_of_ne_zero hcap.ne'
  rcases hread : st.readUpstream [.data cells] with ⟨n, st1⟩
  rw [hread] at hret1 hconn1 hwrites1 hreads1
  rw [hret, hk] at hret1
  obtain rfl : n = .ok (k + 1) := hret1
  obtain ⟨hwf1, hcap1, hgrows⟩ := readUpstream_grows hwf hread
  -- the client takes nothing of what was read
  obtain ⟨st2, hlooks, hturn⟩ := relayTurn_looks st1
  have hrelay : st2.relay.conn.upstreamRbuf = st1.conn.upstreamRbuf := by
    have hwrites2 : onFd st2.conn.fd .err st2.env.clientWrites = [] := by
      simp only at hconn1 hwrites1
      rw [hlooks.fd, hlooks.writes, hwrites1, hconn1]
      exact hfull
    have hne : bufReadable st2.conn.upstreamRbuf ≠ 0 := by
      rw [hlooks.rbuf, hgrows]
      omega
    simp only [relay, hwrites2, bufWriteLoop, bufWriteFd, if_neg hne]
    exact hlooks.rbuf
  have hfull1 : bufReadable st1.conn.upstreamRbuf = st1.conn.upstreamRbuf.cap := by
    rw [hgrows, hempty, hcap1, hk, zero_add]
  -- and the next read finds no room
  have hnext : st1.relayTurn.readUpstream [] = (.ok 0, { st1.relayTurn with
      conn := { st1.relayTurn.conn with upstreamRbuf := bufCompact st1.conn.upstreamRbuf }
      env := { st1.relayTurn.env with upstreamReads := [] } }) := by
    rw [readUpstream, hturn, hrelay, bufReadFd_full hwf1 hfull1]
  have hloop : upstreamLoop [.data cells] st = st1.relayTurn.readUpstream [] := by
    rw [upstreamLoop, hread]
    rfl
  rw [hloop, hnext]
  refine ⟨?_, rfl, ?_, ?_⟩
  · rw [honest, hread]
    simp only [Bool.and_eq_true, decide_eq_true_eq, hgot, honest, hnext]
    exact ⟨List.take_prefix _ _, by simp⟩
  · have hcompact := bufCompact_wf hwf1
    simp only
    rw [← length_bufBytes hcompact, bufBytes_compact hwf1, length_bufBytes hwf1, hfull1, hcap1]
  · simp only [relayTurn_reads, hreads1, hgot, List.length_append, List.length_take,
      min_eq_left hbig]

/-- The part that reads ends with a full buffer, and asks to be told when the client's
socket turns writable. -/
lemma upstreamReadPart_fills {fd : ℤ} (hwf : st.conn.upstreamRbuf.Wf)
    (hempty : bufReadable st.conn.upstreamRbuf = 0) (hcap : 0 < st.conn.upstreamRbuf.cap)
    {cells : List UInt8} (hbig : st.conn.upstreamRbuf.cap ≤ cells.length)
    (hreads : onFd fd .err st.env.upstreamReads = [.data cells])
    (hfull : onFd st.conn.fd .err st.env.clientWrites = []) :
    ∃ st1, st.upstreamReadPart fd = st1.clientMod evRW ∧ Pumps st st1 ∧ st1.ws = st.ws ∧
      st1.conn.upstreamRbuf.Wf ∧
      bufReadable st1.conn.upstreamRbuf = st.conn.upstreamRbuf.cap ∧
      (readBytes st1.acts).length = (readBytes st.acts).length + st.conn.upstreamRbuf.cap := by
  obtain ⟨-, hret, hreadable, hbytes⟩ := upstreamLoop_fills hwf hempty hcap hbig hfull false
  have hpumps := Pumps.upstreamLoop [.data cells] st
  have hws := upstreamLoop_ws [.data cells] st
  have hstreams := (Streams.upstreamLoop [.data cells] hwf).wf
  rw [upstreamReadPart, hreads]
  rcases hloop : upstreamLoop [.data cells] st with ⟨n, st1⟩
  rw [hloop] at hret hreadable hbytes hpumps hws hstreams
  obtain rfl : n = .ok 0 := hret
  refine ⟨st1, ?_, hpumps, hws, hstreams, hreadable, hbytes⟩
  have hpos : bufReadable st1.conn.upstreamRbuf > 0 := hreadable ▸ hcap
  simp only
  rw [if_neg (by decide), if_pos hpos]

/-- The client's socket takes all that is buffered, and is asked for reads alone. -/
lemma onClientEvent_relays {ev : Events} {k : ℕ} (hstate : st.conn.state = .proxying)
    (hwf : st.conn.upstreamRbuf.Wf) (hk : bufReadable st.conn.upstreamRbuf ≤ k)
    (htape : onFd st.conn.fd .err st.env.clientWrites = [.wrote k]) (hup : ev.hup = false)
    (herr : ev.err = false) (hread : ev.read = false) (hwrite : ev.write = true) :
    st.onClientEvent ev = st.relay.clientMod evR ∧
      bufReadable st.relay.conn.upstreamRbuf = 0 := by
  have hgone : bufReadable st.relay.conn.upstreamRbuf = 0 := by
    rw [relay, htape]
    exact bufWriteLoop_wrote hwf hk []
  refine ⟨?_, hgone⟩
  rw [onClientEvent, hup, herr, hread, hwrite]
  simp only [Bool.false_eq_true, or_self, if_false, if_true]
  rw [handleWrite, hstate]
  simp only
  rw [if_pos hgone]

end St

namespace Wire

/-- The upstream's socket is to be read, nothing is buffered, and the client's socket is
full. -/
structure Blocked (w : Wire) : Prop where
  state : w.conn.state = .proxying
  wf : w.conn.upstreamRbuf.Wf
  empty : bufReadable w.conn.upstreamRbuf = 0
  room : 0 < w.conn.upstreamRbuf.cap
  fd : 0 ≤ w.conn.fd
  upstreamFd : 0 ≤ w.conn.upstreamFd
  apart : w.conn.fd ≠ w.conn.upstreamFd
  reads : w.upstreamEvents.read = true
  writes : w.upstreamEvents.write = false
  low : w.conn.fd < w.ws.loop.maxFd
  registered : (w.ws.loop.interest w.conn.fd).isSome = true
  full : w.clientRoom.ready = false
  silent : w.clientData.ready = false

/-- The upstream gives what it has, and the client's socket is full. -/
def fillEnv (w : Wire) : Env := { idleEnv with upstreamReads := [.data w.upstream.cells] }

/-- The client's socket takes what is buffered. -/
def takeEnv (w : Wire) : Env :=
  { idleEnv with clientWrites := [.wrote w.conn.upstreamRbuf.cap] }

/-- The upstream's event, while the client's socket is full; then that turns writable and
takes what is buffered. -/
def blockedTicks (w : Wire) : List Tick :=
  [.upstream w.fillEnv, .clientRoom true, .client w.takeEnv false false]

/-- What the upstream's event leaves: a full buffer, and an upstream that was reported. -/
structure Filled (w w1 : Wire) : Prop where
  state : w1.conn.state = .proxying
  fd : w1.conn.fd = w.conn.fd
  upstreamFd : w1.conn.upstreamFd = w.conn.upstreamFd
  wf : w1.conn.upstreamRbuf.Wf
  full : bufReadable w1.conn.upstreamRbuf = w.conn.upstreamRbuf.cap
  upstream : w1.upstream = w.upstream.reported.take w.conn.upstreamRbuf.cap
  upstreamRoom : w1.upstreamRoom = w.upstreamRoom.reported
  clientData : w1.clientData = w.clientData
  clientRoom : w1.clientRoom.ready = false
  asks : w1.ws.loop.interest w.conn.fd = some evRW
  reported : w1.ws.loop.interest w.conn.upstreamFd =
    (w.ws.loop.interest w.conn.upstreamFd).map Events.reported
  maxFd : w1.ws.loop.maxFd = w.ws.loop.maxFd

variable {c : ConnId} {w w1 : Wire}

lemma step_upstream {env : Env} {st : St}
    (h : (w.called c w.conn.upstreamFd env).proxyOnUpstreamEvent w.conn.upstreamFd
      w.upstreamEvents = st) :
    w.step c (.upstream env) = { w with
      conn := st.conn
      ws := st.ws
      upstream := w.upstream.reported.take (readBytes st.acts).length
      upstreamRoom := w.upstreamRoom.reported
      clientRoom := ⟨w.clientRoom.ready && bufReadable st.conn.upstreamRbuf = 0,
        w.clientRoom.news⟩ } := by
  rw [← h]
  rfl

lemma step_client {env : Env} {hup err : Bool} {st : St}
    (h : (w.called c w.conn.fd env).onClientEvent (w.clientEvents hup err) = st) :
    w.step c (.client env hup err) = { w with
      conn := st.conn
      ws := st.ws
      clientData := w.clientData.reported
      clientRoom := ⟨w.clientRoom.ready && bufReadable st.conn.upstreamRbuf = 0, false⟩ } := by
  rw [← h]
  rfl

/-! ### The upstream's event fills the buffer -/

lemma Blocked.given (h : w.Blocked) : St.onFd w.conn.upstreamFd .err w.fillEnv.upstreamReads =
    [.data w.upstream.cells] := if_neg (not_lt.mpr h.upstreamFd)

lemma Blocked.refused (h : w.Blocked) : St.onFd w.conn.fd .err w.fillEnv.clientWrites = [] :=
  if_neg (not_lt.mpr h.fd)

lemma Blocked.allows (h : w.Blocked) (c : ConnId)
    (hbig : w.conn.upstreamRbuf.cap ≤ w.upstream.cells.length) :
    w.Allows c (.upstream w.fillEnv) := by
  refine ⟨h.state, fun _ => ?_⟩
  have hreading : (w.called c w.conn.upstreamFd w.fillEnv).reading w.conn.upstreamFd
      w.upstreamEvents = w.called c w.conn.upstreamFd w.fillEnv := by
    rw [St.reading, h.writes]
    rfl
  have hwf : (w.called c w.conn.upstreamFd w.fillEnv).conn.upstreamRbuf.Wf := h.wf
  obtain ⟨hhonest, -⟩ :=
    St.upstreamLoop_fills hwf h.empty h.room hbig h.refused w.upstream.ended
  rw [hreading, h.given]
  exact hhonest

lemma Blocked.event (h : w.Blocked) (c : ConnId)
    (hbig : w.conn.upstreamRbuf.cap ≤ w.upstream.cells.length) :
    ∃ st, (w.called c w.conn.upstreamFd w.fillEnv).proxyOnUpstreamEvent w.conn.upstreamFd
        w.upstreamEvents = st.clientMod evRW ∧
      St.Pumps (w.called c w.conn.upstreamFd w.fillEnv) st ∧
      st.ws.loop = w.ws.loop.reported w.conn.upstreamFd ∧ st.conn.upstreamRbuf.Wf ∧
      bufReadable st.conn.upstreamRbuf = w.conn.upstreamRbuf.cap ∧
      (readBytes st.acts).length = w.conn.upstreamRbuf.cap := by
  have hstart : (w.called c w.conn.upstreamFd w.fillEnv).conn.upstreamRbuf.Wf := h.wf
  obtain ⟨st, heq, hpumps, hws, hwf, hreadable, hlen⟩ :=
    St.upstreamReadPart_fills hstart h.empty h.room hbig h.given h.refused
  refine ⟨st, ?_, hpumps, by rw [hws]; rfl, hwf, hreadable, hlen.trans (Nat.zero_add _)⟩
  rw [St.proxyOnUpstreamEvent, h.writes, h.reads]
  exact heq

/-- **The upstream's event fills the buffer**, and the client's socket is asked for writes. -/
lemma Blocked.fills (h : w.Blocked) (c : ConnId)
    (hbig : w.conn.upstreamRbuf.cap ≤ w.upstream.cells.length) :
    Filled w (w.step c (.upstream w.fillEnv)) := by
  obtain ⟨st, hevent, hpumps, hloop, hwf, hreadable, hlen⟩ := h.event c hbig
  have hfd : st.conn.still.fd = w.conn.still.fd := by rw [hpumps.still]; rfl
  have hufd : st.conn.still.upstreamFd = w.conn.still.upstreamFd := by rw [hpumps.still]; rfl
  have hstate : st.conn.still.state = w.conn.still.state := by rw [hpumps.still]; rfl
  have hmod : (st.clientMod evRW).ws.loop = eventLoopMod (w.ws.loop.reported w.conn.upstreamFd)
      w.conn.fd evRW (.client st.self) := by
    have hfd' : st.conn.fd = w.conn.fd := hfd
    rw [St.clientMod, St.mapLoop, hloop, hfd']
  rw [step_upstream hevent]
  refine ⟨hstate.trans h.state, hfd, hufd, hwf, hreadable, ?_, rfl, rfl, ?_, ?_, ?_, ?_⟩
  · have hn : (readBytes (st.clientMod evRW).acts).length = w.conn.upstreamRbuf.cap := hlen
    simp only [hn]
  · simp [h.full]
  · rw [hmod]
    have hlow : w.conn.fd < (w.ws.loop.reported w.conn.upstreamFd).maxFd := h.low
    refine eventLoopMod_interest_self hlow ?_ _ _
    rw [EventLoop.reported_of_ne h.apart]
    exact h.registered
  · rw [hmod, eventLoopMod_interest_of_ne (Ne.symm h.apart)]
    simp [EventLoop.reported]
  · rw [hmod, eventLoopMod_maxFd]
    rfl

/-! ### The client's event empties it -/

lemma Filled.room (h : Filled w w1) :
    w1.step c (.clientRoom true) = { w1 with clientRoom := ⟨true, true⟩ } := by
  simp [step, Signal.turn, h.clientRoom]

lemma Filled.events (h : Filled w w1) (hb : w.Blocked) {w2 : Wire}
    (hw2 : w2 = { w1 with clientRoom := ⟨true, true⟩ }) :
    (w2.clientEvents false false).read = false ∧ (w2.clientEvents false false).write = true := by
  subst hw2
  constructor
  · exact EventLoop.due_of_not_ready (h.clientData ▸ hb.silent)
  · simp [clientEvents, EventLoop.due, h.fd, h.asks, Signal.due, evRW]

/-- The event leaves the buffer empty and asks for reads of the client's socket alone. -/
lemma Filled.takes (h : Filled w w1) (hb : w.Blocked) {w2 : Wire}
    (hw2 : w2 = { w1 with clientRoom := ⟨true, true⟩ }) :
    ∃ st, (w2.called c w2.conn.fd w.takeEnv).onClientEvent (w2.clientEvents false false) = st ∧
      st.conn.state = .proxying ∧ st.conn.fd = w.conn.fd ∧
      st.conn.upstreamFd = w.conn.upstreamFd ∧ bufReadable st.conn.upstreamRbuf = 0 ∧
      st.ws.loop = eventLoopMod (w1.ws.loop.reported w.conn.fd) w.conn.fd evR (.client c) := by
  obtain ⟨hread, hwrite⟩ := h.events hb hw2
  have hfd : w2.conn.fd = w.conn.fd := hw2 ▸ h.fd
  have htape : St.onFd w2.conn.fd .err w.takeEnv.clientWrites =
      [.wrote w.conn.upstreamRbuf.cap] := if_neg (not_lt.mpr (hfd ▸ hb.fd))
  have hstate : (w2.called c w2.conn.fd w.takeEnv).conn.state = .proxying := hw2 ▸ h.state
  obtain ⟨hevent, hgone⟩ := St.onClientEvent_relays hstate (hw2 ▸ h.wf) (hw2 ▸ h.full.le)
    htape rfl rfl hread hwrite
  refine ⟨_, hevent, hstate, hfd, ?_, hgone, ?_⟩
  · exact hw2 ▸ h.upstreamFd
  · rw [← hfd, hw2]
    rfl

/-- **Once the client's socket has taken what is buffered, nothing is due**, and what is left
in the upstream's socket stays there. -/
lemma Filled.lost (h : Filled w w1) (hb : w.Blocked)
    (hmore : (w.upstream.take w.conn.upstreamRbuf.cap).unread = true) :
    (w1.step c (.clientRoom true)).Allows c (.client w.takeEnv false false) ∧
      ((w1.step c (.clientRoom true)).step c (.client w.takeEnv false false)).Lost := by
  rw [h.room]
  generalize hw2 : ({ w1 with clientRoom := ⟨true, true⟩ } : Wire) = w2
  obtain ⟨st, hevent, hstate, hfd, hufd, hgone, hloop⟩ := h.takes (c := c) hb hw2.symm
  have hclient : st.ws.loop.interest w.conn.fd = some evR := by
    rw [hloop]
    have hlow : w.conn.fd < (w1.ws.loop.reported w.conn.fd).maxFd := h.maxFd ▸ hb.low
    refine eventLoopMod_interest_self hlow ?_ _ _
    simp [EventLoop.reported, h.asks]
  -- the upstream's registration is that of the last report: it is not renewed
  have hupstream : st.ws.loop.interest w.conn.upstreamFd =
      (w.ws.loop.interest w.conn.upstreamFd).map Events.reported := by
    have hne : w.conn.upstreamFd ≠ w.conn.fd := Ne.symm hb.apart
    rw [hloop, eventLoopMod_interest_of_ne hne, EventLoop.reported_of_ne hne]
    exact h.reported
  refine ⟨⟨hw2 ▸ h.state, fun hr => ?_⟩, ?_⟩
  · rw [(h.events hb hw2.symm).1] at hr
    contradiction
  · rw [step_client hevent, ← hw2]
    refine ⟨hstate, hgone, by simp [hgone], ?_, ?_⟩
    · change w1.upstream.unread = true
      rw [h.upstream]
      exact hmore
    · have hr : st.ws.loop.due w.conn.upstreamFd (·.read) w1.upstream.signal = false :=
        EventLoop.due_of_reported hupstream (h.upstream ▸ rfl)
      have hw : st.ws.loop.due w.conn.upstreamFd (·.write) w1.upstreamRoom = false :=
        EventLoop.due_of_reported hupstream (h.upstreamRoom ▸ rfl)
      have hcr : st.ws.loop.due w.conn.fd (·.read) w1.clientData.reported = false :=
        EventLoop.due_of_not_ready (h.clientData ▸ hb.silent)
      have hcw : ∀ s, st.ws.loop.due w.conn.fd (·.write) s = false := by
        intro s
        rw [EventLoop.due, hclient]
        rfl
      simp only [due, upstreamEvents, clientEvents, hfd, hufd, hr, hw, hcr, hcw, Bool.or_self]

end Wire

/-- **A client that does not keep up loses the rest**: the upstream has as much as the buffer
holds and then more, or its end, while the client's socket is full; once the client has taken
what is buffered, nothing is due. -/
theorem blocked_lost (c : ConnId) {w : Wire} (h : w.Blocked)
    (hbig : w.conn.upstreamRbuf.cap ≤ w.upstream.cells.length)
    (hmore : (w.upstream.take w.conn.upstreamRbuf.cap).unread = true) :
    Run.Along (Wire.step c) (fun w t => w.Allows c t) w w.blockedTicks ∧
      (Run.run (Wire.step c) w w.blockedTicks).Lost := by
  obtain ⟨hallows, hlost⟩ := (h.fills c hbig).lost (c := c) h hmore
  exact ⟨⟨h.allows c hbig, trivial, hallows, trivial⟩, hlost⟩

/-! ### A response that is too long -/

/-- The request goes out, and the client's socket fills up. -/
def fullTicks : List Tick := [requestGoes, .clientRoom false]

/-- The connection after these ticks: the client takes nothing. -/
def fullWire : Wire := Run.run (Wire.step 0) askedWire fullTicks

/-- Then the response comes in. -/
def bigWire (body : List UInt8) : Wire := fullWire.step 0 (.arrive body)

lemma bigWire_conn (body : List UInt8) : (bigWire body).conn = fullWire.conn := by
  simp only [bigWire, Wire.step]

lemma bigWire_ws (body : List UInt8) : (bigWire body).ws = fullWire.ws := by
  simp only [bigWire, Wire.step]

lemma fullTicks_allowed :
    Run.Along (Wire.step 0) (fun w t => w.Allows 0 t ∧ w.Roomy 0 t) askedWire fullTicks :=
  ⟨⟨⟨by decide +kernel, fun h => absurd h (by decide +kernel)⟩,
    fun h => absurd h (by decide +kernel)⟩, ⟨trivial, trivial⟩, trivial⟩

lemma fullWire_awake : fullWire.Awake :=
  fullTicks_allowed.invariant (P := fun w => w.conn.state = .proxying → w.Awake)
    (fun _ _ h ht => Wire.Awake.step h ht.1 ht.2) (fun _ => askedWire_started.awake)
    (by decide +kernel)

lemma bigWire_cap (body : List UInt8) : (bigWire body).conn.upstreamRbuf.cap = 65536 :=
  (by decide +kernel : fullWire.conn.upstreamRbuf.cap = 65536)

lemma bigWire_cells (body : List UInt8) : (bigWire body).upstream.cells = body := by
  have hcells : fullWire.upstream.cells = [] := by decide +kernel
  change fullWire.upstream.cells ++ body = body
  rw [hcells, List.nil_append]

lemma bigWire_blocked {body : List UInt8} (hbody : body ≠ []) : (bigWire body).Blocked where
  state := (by decide +kernel : fullWire.conn.state = .proxying)
  wf := fullWire_awake.wf
  empty := (by decide +kernel : bufReadable fullWire.conn.upstreamRbuf = 0)
  room := by rw [bigWire_cap]; decide
  fd := (by decide +kernel : 0 ≤ fullWire.conn.fd)
  upstreamFd := (by decide +kernel : 0 ≤ fullWire.conn.upstreamFd)
  apart := fullWire_awake.apart
  reads := by
    have hinterest : fullWire.ws.loop.interest fullWire.conn.upstreamFd = some evR := by
      decide +kernel
    have hunread : (bigWire body).upstream.unread = true := by
      rw [Inbox.unread, bigWire_cells, List.isEmpty_eq_false_iff.mpr hbody]
      rfl
    have hnews : (bigWire body).upstream.news = true := rfl
    simp only [Wire.upstreamEvents, EventLoop.due, bigWire_conn, bigWire_ws, hinterest,
      Inbox.signal, hunread, hnews]
    rfl
  writes := (by decide +kernel : fullWire.upstreamEvents.write = false)
  low := (by decide +kernel : fullWire.conn.fd < fullWire.ws.loop.maxFd)
  registered := (by decide +kernel : (fullWire.ws.loop.interest fullWire.conn.fd).isSome = true)
  full := (by decide +kernel : fullWire.clientRoom.ready = false)
  silent := (by decide +kernel : fullWire.clientData.ready = false)

/-- **A response of 64 KiB and one byte.** The client's socket is full when it comes in; the
client then takes 64 KiB, and the last byte stays in the upstream's socket. -/
theorem bigResponse_lost :
    let body := List.replicate 65537 120
    askedWire.Started ∧
      Run.Along (Wire.step 0) (fun w t => w.Allows 0 t) askedWire
        (fullTicks ++ .arrive body :: (bigWire body).blockedTicks) ∧
      (Run.run (Wire.step 0) askedWire
        (fullTicks ++ .arrive body :: (bigWire body).blockedTicks)).Lost := by
  intro body
  have hlen : body.length = 65537 := List.length_replicate
  have hbody : body ≠ [] := List.ne_nil_of_length_pos (by rw [hlen]; decide)
  have hdrop : (body.drop 65536).isEmpty = false := by
    rw [List.isEmpty_eq_false_iff]
    exact List.ne_nil_of_length_pos (by rw [List.length_drop, hlen]; decide)
  have hbig : (bigWire body).conn.upstreamRbuf.cap ≤ (bigWire body).upstream.cells.length := by
    rw [bigWire_cap, bigWire_cells, hlen]
    decide
  have hmore : ((bigWire body).upstream.take (bigWire body).conn.upstreamRbuf.cap).unread =
      true := by
    rw [Inbox.unread, Inbox.take, bigWire_cap, bigWire_cells, hdrop]
    rfl
  obtain ⟨halong, hlost⟩ := blocked_lost 0 (bigWire_blocked hbody) hbig hmore
  have hfull : Run.Along (Wire.step 0) (fun w t => w.Allows 0 t) askedWire fullTicks :=
    ⟨fullTicks_allowed.1.1, trivial, trivial⟩
  have harrive : fullWire.Allows 0 (.arrive body) := ⟨hbody, by decide +kernel⟩
  refine ⟨askedWire_started, (Run.along_append _ _ _).mpr ⟨hfull, harrive, halong⟩, ?_⟩
  rw [bigWire] at hlost
  rw [Run.run_append, Run.run_cons, ← fullWire]
  exact hlost

end Nproxy
