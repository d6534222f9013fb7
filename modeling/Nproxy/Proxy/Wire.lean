import Nproxy.Lib.Edge
import Nproxy.Proxy.Flight

/-!
The two sockets of a proxied connection under an edge-triggered `epoll`.

The upstream's socket is reported when bytes or its end arrive, or when its registration is
changed, and not again because bytes are left in it.

* `Wire`: a connection, the worker, and what the kernel holds for the two sockets. `Tick` is
  what can happen: bytes arrive, a socket turns writable, an event that is due is handled.
* `Wire.Lost`: the upstream has more, the client could take it, nothing is buffered, and no
  event is due.
-/

namespace Nproxy

open Edge (Signal Inbox)

/-! ### What is due -/

/-- A registration whose events were reported. The mark that is taken off stands for
"changed since the last report"; every `epoll_ctl` of the source sets it. -/
def Events.reported (m : Events) : Events := { m with edge := false }

/-- The events of a descriptor were reported. -/
def EventLoop.reported (l : EventLoop) (fd : ℤ) : EventLoop :=
  { l with interest := Function.update l.interest fd ((l.interest fd).map Events.reported) }

/-- An event of a kind is due on a descriptor: the registration asks for it, and it is news
or the registration is. -/
def EventLoop.due (l : EventLoop) (fd : ℤ) (kind : Events → Bool) (s : Signal) : Bool :=
  match l.interest fd with
  | some m => kind m && s.due m.edge
  | none => false

/-- A proxied connection: the connection object, the worker, what waits in the upstream's
socket, and whether the upstream's socket is writable, the client's readable and the client's
writable. -/
structure Wire where
  conn : Conn
  ws : WorkerState
  upstream : Inbox UInt8
  upstreamRoom : Signal
  clientData : Signal
  clientRoom : Signal

/-- What can happen: bytes arrive from the upstream, or its end; a socket turns ready, or
ceases to be; or the events that are due on the client's descriptor, or on the upstream's,
are handled. -/
inductive Tick where
  | arrive (bs : List UInt8)
  | finish
  | upstreamRoom (b : Bool)
  | clientData (b : Bool)
  | clientRoom (b : Bool)
  | client (env : Env) (hup err : Bool)
  | upstream (env : Env)

namespace Wire

/-- The events that are due on the upstream's descriptor. -/
def upstreamEvents (w : Wire) : Events where
  read := w.ws.loop.due w.conn.upstreamFd (·.read) w.upstream.signal
  write := w.ws.loop.due w.conn.upstreamFd (·.write) w.upstreamRoom
  hup := false
  err := false
  edge := false

/-- The events that are due on the client's descriptor. -/
def clientEvents (w : Wire) (hup err : Bool) : Events where
  read := w.ws.loop.due w.conn.fd (·.read) w.clientData
  write := w.ws.loop.due w.conn.fd (·.write) w.clientRoom
  hup := hup
  err := err
  edge := false

/-- A handler is called for an event of a descriptor. -/
def called (w : Wire) (c : ConnId) (fd : ℤ) (env : Env) : St :=
  ⟨c, w.conn, { w.ws with loop := w.ws.loop.reported fd }, env, []⟩

/-- One step. A write that leaves bytes in `upstream_rbuf` has filled the client's
socket. -/
def step (c : ConnId) (w : Wire) : Tick → Wire
  | .arrive bs => { w with upstream := w.upstream.arrive bs }
  | .finish => { w with upstream := w.upstream.finish }
  | .upstreamRoom b => { w with upstreamRoom := w.upstreamRoom.turn b }
  | .clientData b => { w with clientData := ⟨b, w.clientData.news || b⟩ }
  | .clientRoom b => { w with clientRoom := w.clientRoom.turn b }
  | .client env hup err =>
    let st := (w.called c w.conn.fd env).onClientEvent (w.clientEvents hup err)
    { w with
      conn := st.conn
      ws := st.ws
      clientData := w.clientData.reported
      clientRoom := ⟨w.clientRoom.ready && bufReadable st.conn.upstreamRbuf = 0, false⟩ }
  | .upstream env =>
    let st := (w.called c w.conn.upstreamFd env).proxyOnUpstreamEvent w.conn.upstreamFd
      w.upstreamEvents
    { w with
      conn := st.conn
      ws := st.ws
      upstream := w.upstream.reported.take (readBytes st.acts).length
      upstreamRoom := w.upstreamRoom.reported
      clientRoom := ⟨w.clientRoom.ready && bufReadable st.conn.upstreamRbuf = 0,
        w.clientRoom.news⟩ }

/-- Would `epoll_wait` report an event of this connection? -/
def due (w : Wire) : Bool :=
  w.upstreamEvents.read || w.upstreamEvents.write || (w.clientEvents false false).read ||
    (w.clientEvents false false).write

/-- **A lost wake-up.** -/
structure Lost (w : Wire) : Prop where
  state : w.conn.state = .proxying
  empty : bufReadable w.conn.upstreamRbuf = 0
  writable : w.clientRoom.ready = true
  unread : w.upstream.unread = true
  quiet : w.due = false

end Wire

/-! ### Registrations -/

/-- A descriptor is registered for reading. -/
def EventLoop.Hears (l : EventLoop) (fd : ℤ) : Prop := ∃ m, l.interest fd = some m ∧ m.read = true

lemma EventLoop.Hears.reported {l : EventLoop} {fd : ℤ} (h : l.Hears fd) (fd' : ℤ) :
    (l.reported fd').Hears fd := by
  obtain ⟨m, hm, hread⟩ := h
  by_cases heq : fd = fd'
  · subst heq
    exact ⟨m.reported, by simp [EventLoop.reported, hm], hread⟩
  · exact ⟨m, by simp [EventLoop.reported, heq, hm], hread⟩

lemma EventLoop.Hears.mod {l : EventLoop} {fd : ℤ} (h : l.Hears fd) (fd' : ℤ) {events : Events}
    (hev : events.read = true) (fn : EvFn) : (eventLoopMod l fd' events fn).Hears fd := by
  obtain ⟨m, hm, hread⟩ := h
  rw [eventLoopMod]
  split
  · exact ⟨m, hm, hread⟩
  · simp only
    split
    · by_cases heq : fd = fd'
      · subst heq
        exact ⟨events, by simp, hev⟩
      · exact ⟨m, by simpa [EventLoop.setHandler, heq] using hm, hread⟩
    · exact ⟨m, hm, hread⟩

lemma EventLoop.reported_of_ne {l : EventLoop} {fd fd' : ℤ} (h : fd ≠ fd') :
    (l.reported fd').interest fd = l.interest fd := by
  simp [EventLoop.reported, h]

lemma eventLoopMod_interest_of_ne {l : EventLoop} {fd fd' : ℤ} (h : fd ≠ fd') (events : Events)
    (fn : EvFn) : (eventLoopMod l fd' events fn).interest fd = l.interest fd := by
  rw [eventLoopMod]
  split
  · rfl
  · simp only
    split
    · simp [EventLoop.setHandler, h]
    · rfl

lemma eventLoopMod_interest_self {l : EventLoop} {fd : ℤ} (hlow : fd < l.maxFd)
    (h : (l.interest fd).isSome = true) (events : Events) (fn : EvFn) :
    (eventLoopMod l fd events fn).interest fd = some events := by
  have hset : ((l.setHandler fd fn).interest fd).isSome = true := h
  rw [eventLoopMod, if_neg (not_le.mpr hlow)]
  simp only
  rw [if_pos hset]
  exact Function.update_self ..

lemma EventLoop.due_of_not_ready {l : EventLoop} {fd : ℤ} {kind : Events → Bool} {s : Signal}
    (h : s.ready = false) : l.due fd kind s = false := by
  rw [EventLoop.due]
  split
  · simp [Signal.due, h]
  · rfl

/-- What was reported is not due again. -/
lemma EventLoop.due_of_reported {l : EventLoop} {fd : ℤ} {m : Option Events}
    (hm : l.interest fd = m.map Events.reported) {kind : Events → Bool} {s : Signal}
    (h : s.news = false) : l.due fd kind s = false := by
  rw [EventLoop.due, hm]
  cases m with
  | none => rfl
  | some m => simp [Signal.due, h, Events.reported]

end Nproxy
