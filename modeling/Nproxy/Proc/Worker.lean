import Nproxy.Http.Handler
import Nproxy.Lib.Run

/-!
`proc/worker.c`: the handlers of a client connection, accepting, and the worker
as a machine that takes one event after the other.

* `handleRead`, `handleWrite`, `onClientEvent`: what an event on a client's socket
  does. `onClientEvent` calls the one after the other and does not ask in between
  whether the connection is still there.
* `Worker`: the connection objects, the state they share, the events that the
  last `epoll_wait` returned and that are still to be handled, and a log of what
  was done on which object. `Worker.step` is `epoll_wait`, or the handling of the
  next event; the handler record that is used is the one harvested then, whatever
  has become of it since.

Timeouts are added and never tick: the program does not call `timeout_tick`.
-/

namespace Nproxy

/-- `sizeof(http_request_t)`. -/
def requestSize : ℕ := 2176

namespace St

/-- The response is out: the connection is ready for the next request. -/
def nextRequest (st : St) : St :=
  (st.mapConn fun c => { c with
    arena := arenaReset c.arena
    request := none
    state := .readingRequest }).clientMod evR

/-! ### `handle_write` -/

/-- The `sendfile` loop: has it failed? -/
def sendfileLoop : List SysSendfile → St → Bool × St
  | [], st => (false, st)
  | .again :: tape, st => (false, { st with env := { st.env with sendfiles := tape } })
  | .err :: tape, st => (true, { st with env := { st.env with sendfiles := tape } })
  | .sent k :: tape, st =>
    let n := min k st.conn.fileRemaining.toNat
    let st := { st with env := { st.env with sendfiles := tape } }
    if n = 0 then (false, st)
    else
      let st := st.act (.sendfile st.conn.fileFd st.conn.fileOffset n)
      let st := st.mapConn fun c => { c with
        fileOffset := c.fileOffset + n
        fileRemaining := c.fileRemaining - n }
      if st.conn.fileRemaining > 0 then sendfileLoop tape st else (false, st)

/-- The file is closed. -/
def endFile (st : St) : St :=
  (st.close st.conn.fileFd).mapConn fun c => { c with fileFd := -1 }

/-- `handle_write` in `CONN_SENDFILE`, once the head is out. -/
def writeFile (st : St) : St :=
  match (if st.conn.fileRemaining > 0 then
      sendfileLoop (onFd st.conn.fd .err st.env.sendfiles) st else (false, st)) with
  | (true, st) => st.connPoolPut
  | (false, st) =>
    if st.conn.fileRemaining = 0 then
      let st := st.endFile
      if st.conn.keepAlive = false then st.connPoolPut else st.nextRequest
    else st.clientMod evRW

/-- The rest of the head goes out, if there is one. -/
def respondHead (st : St) : St := if bufReadable st.conn.wbuf > 0 then st.respond else st

/-- `handle_write`. -/
def handleWrite (st : St) : St :=
  match st.conn.state with
  | .sendfile =>
    let st := st.respondHead
    if bufReadable st.conn.wbuf > 0 then st.clientMod evRW else st.writeFile
  | .proxying | .tunnel =>
    let st := st.relay
    if bufReadable st.conn.upstreamRbuf = 0 then st.clientMod evR else st.clientMod evRW
  | _ =>
    let st := st.respond
    if bufReadable st.conn.wbuf = 0 then
      if st.conn.state = .closing ∨ st.conn.keepAlive = false then st.connPoolPut
      else st.nextRequest
    else st

/-! ### `handle_read` -/

/-- `handle_read` in `CONN_TUNNEL`. -/
def tunnelRead (st : St) : St :=
  match st.readTunnel with
  | (n, st) =>
    if n = .closed ∨ n = .err then st.workerConnClose
    else if bufReadable st.conn.upstreamWbuf > 0 then
      let st := st.forwardAll st.conn.upstreamFd
      if bufReadable st.conn.upstreamWbuf = 0 then st.upstreamMod st.conn.upstreamFd evR
      else st.upstreamMod st.conn.upstreamFd evRW
    else st

/-- `handle_read` after `handler_dispatch`. -/
def afterDispatch (st : St) : St :=
  if st.conn.state = .proxying ∨ st.conn.state = .tunnel then st
  else
    let st := st.respond
    if bufReadable st.conn.wbuf = 0 then
      if st.conn.keepAlive = false then st.connPoolPut else st.nextRequest
    else (st.setState .writingResponse).clientMod evW

/-- The request is taken out of `rbuf`. -/
def takeRequest (st : St) (ps : HttpParseState) (req : HttpRequest) : St :=
  st.mapConn fun c => { c with
    rbuf := bufConsume c.rbuf ps.parsedBytes
    keepAlive := ps.keepAlive
    request := some req }

/-- `handle_read` with a request that was parsed. -/
def acceptRequest (st : St) (ps : HttpParseState) : St :=
  match st.alloc requestSize 8 with
  | (none, st) => st.connPoolPut
  | (some _, st) =>
    let req := requestPopulate requestCreate ps (bufBytes st.conn.rbuf)
    ((st.takeRequest ps req).handlerDispatch req).afterDispatch

/-- `handle_read` with what stands in `rbuf`. -/
def parseRequests (st : St) : St :=
  if bufReadable st.conn.rbuf = 0 then st
  else
    match parseFresh (bufBytes st.conn.rbuf) with
    | (.incomplete, _) => st
    | (.error, _) => ((st.act .reject).answerError 400 false).clientMod evW
    | (.done, ps) => st.acceptRequest ps

/-- `handle_read`. -/
def handleRead (st : St) : St :=
  if st.conn.state = .tunnel then st.tunnelRead
  else
    match st.readClient with
    | (n, st) => if n = .closed ∨ n = .err then st.connPoolPut else st.parseRequests

/-- `on_client_event`. -/
def onClientEvent (st : St) (events : Events) : St :=
  if events.hup ∨ events.err then st.connPoolPut
  else
    let st := if events.read then st.handleRead else st
    if events.write then st.handleWrite else st

end St

/-! ### The worker -/

/-- A worker between two handlers. -/
structure Worker where
  heap : ConnId → Conn
  fresh : ConnId
  ws : WorkerState
  pending : List (EvHandler × Events)
  log : List (ConnId × Act)

/-- The result of an `accept4(2)`, with what `malloc` will do if a connection
object has to be made. -/
inductive SysAccept where
  | conn (fd : ℤ) (peer : InAddr) (alloc : Option ℕ)
  | err
  deriving DecidableEq, Repr

/-- An input: `epoll_wait` returns these events, or the next one is handled with
these results of system calls. -/
inductive Input where
  | wait (events : List (EvHandler × Events))
  | handle (env : Env) (accepts : List SysAccept)

namespace Worker

/-- `conn_pool_get`: `none` is `NULL`. -/
def connPoolGet (w : Worker) (fd : ℤ) (peer : InAddr) (alloc : Option ℕ) :
    Option (ConnId × Worker) :=
  match w.ws.pool.freeHead with
  | some c => some (c, { w with
      heap := Function.update w.heap c (connReset (w.heap c) fd peer)
      ws := { w.ws with pool := { w.ws.pool with
        freeHead := (w.heap c).next
        freeCount := w.ws.pool.freeCount - 1 } } })
  | none =>
    match alloc with
    | none => none
    | some addr => some (w.fresh, { w with
        heap := Function.update w.heap w.fresh (connCreate addr fd peer)
        fresh := w.fresh + 1 })

/-- One turn of the accept loop. A descriptor that is not accepted is closed
again. -/
def acceptOne (w : Worker) (fd : ℤ) (peer : InAddr) (alloc : Option ℕ) : Worker :=
  match w.connPoolGet fd peer alloc with
  | none => w
  | some (c, w) => { w with
      ws := { w.ws with
        activeConns := w.ws.activeConns + 1
        openFds := insert fd w.ws.openFds
        loop := eventLoopAdd w.ws.loop fd evR (.client c) }
      log := w.log ++ [(c, .poolGet)] }

/-- `on_accept_event`. -/
def onAcceptEvent : List SysAccept → Worker → Worker
  | [], w => w
  | .err :: _, w => w
  | .conn fd peer alloc :: accepts, w =>
    if 0 ≤ fd ∧ fd ∉ w.ws.openFds then onAcceptEvent accepts (w.acceptOne fd peer alloc) else w

/-- A handler runs on a connection. -/
def runOn (w : Worker) (c : ConnId) (env : Env) (f : St → St) : Worker :=
  let st := f ⟨c, w.heap c, w.ws, env, []⟩
  { w with
    heap := Function.update w.heap c st.conn
    ws := st.ws
    log := w.log ++ st.acts.map fun a => (c, a) }

/-- `h->fn(h->fd, ev, h->ctx)`. -/
def call (w : Worker) (h : EvHandler) (ev : Events) (env : Env) (accepts : List SysAccept) :
    Worker :=
  match h.fn with
  | .accept => w.onAcceptEvent accepts
  | .signal => w
  | .client c => w.runOn c env fun st => st.onClientEvent ev
  | .upstream c => w.runOn c env fun st => st.proxyOnUpstreamEvent h.fd ev

/-- The events that `epoll_wait` may return for a registration: those it asks for,
and errors. -/
def harvest (w : Worker) (e : EvHandler × Events) : Option (EvHandler × Events) :=
  match w.ws.loop.interest e.1.fd with
  | some m =>
    if w.ws.loop.handlers e.1.fd = some e.1 then
      some (e.1, ⟨e.2.read && m.read, e.2.write && m.write, e.2.hup && m.hup, e.2.err, false⟩)
    else none
  | none => none

/-- One step of `event_loop_run`. -/
def step (w : Worker) : Input → Worker
  | .wait events =>
    if w.pending = [] then { w with pending := events.filterMap w.harvest } else w
  | .handle env accepts =>
    match w.pending with
    | [] => w
    | (h, ev) :: pending => { w with pending := pending }.call h ev env accepts

/-- The worker after some steps. -/
def run (w : Worker) (is : List Input) : Worker := Run.run step w is

end Worker

/-! ### A worker with one backend -/

/-- A server that hands everything to one backend, with a cache. -/
def backendServer : ServerConfig where
  serverName := []
  staticRoot := []
  rewrite := []
  tryFiles := []
  proxyEnabled := true
  mode := .roundRobin
  keepaliveConns := 0
  backends := [⟨bytes "10.0.0.1", 80⟩]
  cacheEnabled := true

/-- The worker of that server as it starts, listening on descriptor 3. -/
def backendWorker : Worker where
  heap := fun _ => connAlloc 0
  fresh := 0
  ws :=
    { loop := eventLoopAdd eventLoopCreate 3 evR .accept
      hctx := ⟨⟨[backendServer], bytes "/metrics"⟩, [], [some (upstreamPoolCreate backendServer)],
        [true], none, none⟩
      pool := connPoolCreate 4096
      activeConns := 0
      openFds := {0, 1, 2, 3} }
  pending := []
  log := []

/-- All sockets would block, and nothing can be opened. -/
def idleEnv : Env := ⟨[], [], [], [], [], [], [], [], [], [], 0, fun _ => 0⟩

/-- `EPOLLIN`. -/
def inEvent : Events := ⟨true, false, false, false, false⟩

/-- `EPOLLIN | EPOLLOUT`. -/
def inOutEvent : Events := ⟨true, true, false, false, false⟩

/-- The loop gets one event and handles it. -/
def oneEvent (fn : EvFn) (fd : ℤ) (ev : Events) (env : Env) (accepts : List SysAccept) :
    List Input :=
  [.wait [(⟨fn, fd⟩, ev)], .handle env accepts]

/-- A request for a page. -/
def pageRequest : HttpRequest := { requestCreate with path := ⟨.mem, bytes "/"⟩ }

/-- A client comes, on descriptor 4. -/
def clientComes : List Input :=
  oneEvent .accept 3 inEvent idleEnv [.conn 4 ⟨127, 0, 0, 1⟩ (some 4096)]

/-- The client asks for a page, and the backend is connected on descriptor 5. -/
def clientAsks (path : String) : List Input :=
  oneEvent (.client 0) 4 inEvent { idleEnv with
    clientReads := [.data (List.flatten [bytes "GET ", bytes path, bytes " HTTP/1.1", crlf, crlf])]
    connects := [some 5] } []

end Nproxy
