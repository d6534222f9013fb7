import Nproxy.Features.Metrics
import Nproxy.Features.RateLimit
import Nproxy.Net.Conn
import Nproxy.Proxy.Upstream

/-!
The state an event handler works on, and the operations on it that all handlers
share: system calls, `conn_close` and `conn_pool_put`.

A handler runs on one connection, so `St` holds that connection, the state of the
worker, the results that the handler's system calls will get (`Env`) and the list
of what it did so far (`Act`). A list of results that has run out stands for a
socket that would block or a call that fails. A descriptor that a call offers is
taken only if it is not open yet, as the kernel has it.
-/

namespace Nproxy

/-! ### What the environment decides -/

/-- The result of a `sendfile(2)`: so many bytes are sent, `EAGAIN`, or another
error. -/
inductive SysSendfile where
  | sent (n : ℕ)
  | again
  | err
  deriving DecidableEq, Repr

/-- A file that `open(2)` finds, with what `fstat(2)` says about it. -/
structure OpenFile where
  fd : ℤ
  regular : Bool
  size : ℕ
  mtime : ℕ
  deriving DecidableEq, Repr

/-- What `cache_lookup` finds: the status in the entry's header and its data. -/
structure CacheEntry where
  status : ℤ
  data : List UInt8
  deriving DecidableEq, Repr

/-- The results of the calls that one event will make, call by call, the time,
and what memory that nobody wrote holds. -/
structure Env where
  clientReads : List SysRead
  upstreamReads : List SysRead
  clientWrites : List SysWrite
  upstreamWrites : List SysWrite
  sendfiles : List SysSendfile
  mallocs : List (Option ℕ)
  reallocs : List Bool
  connects : List (Option ℤ)
  opens : List (Option OpenFile)
  lookups : List (Option CacheEntry)
  time : ℤ
  junk : ℕ → UInt8

/-- What a handler does, as far as it can be seen from outside or a property
speaks of it. -/
inductive Act where
  /-- bytes that came from the client -/
  | clientRead (bs : List UInt8)
  /-- bytes that came from the upstream, while `left` was still to be relayed -/
  | upstreamRead (left bs : List UInt8)
  /-- the end of the upstream's stream, while `left` was still to be relayed -/
  | upstreamEof (left : List UInt8)
  /-- bytes of `wbuf` that went to the client -/
  | respond (bs : List UInt8)
  /-- bytes of `upstream_rbuf` that went to the client -/
  | relay (bs : List UInt8)
  /-- bytes of `upstream_wbuf` that went to the upstream -/
  | forward (bs : List UInt8)
  /-- bytes of a file that went to the client: where they start, and how many -/
  | sendfile (fd off : ℤ) (n : ℕ)
  /-- a call of `handler_dispatch` -/
  | dispatch (req : HttpRequest)
  /-- the answer to a request that cannot be parsed -/
  | reject
  | openFile (path : List UInt8)
  | connect (host : List UInt8) (port : UInt16)
  | cacheLookup (store : ℕ) (key : List UInt8)
  | cacheInsert (store : ℕ) (key data : List UInt8)
  /-- the connection is told to which store its response goes, and the key of its request is copied
  to it -/
  | noteCache (store : ℕ) (key : List UInt8)
  /-- the status of the upstream's response is noted -/
  | noteStatus (status : ℤ)
  | accessLog (status : ℤ)
  | close (fd : ℤ)
  /-- the connection object is taken from the pool -/
  | poolGet
  /-- the connection object is given back, to the free list or to the heap -/
  | poolPut (freed : Bool)
  deriving DecidableEq, Repr

/-! ### The state of a worker -/

/-- `handler_ctx_t`, with the modules that are loaded. -/
structure HandlerCtx where
  config : Config
  modules : List Module
  upstreamPools : List (Option UpstreamPool)
  cacheStores : List Bool
  rateLimiter : Option RateLimiter
  metrics : Option Metrics

/-- `worker_state_t`, with the descriptors that are open. -/
structure WorkerState where
  loop : EventLoop
  hctx : HandlerCtx
  pool : ConnPool
  activeConns : ℤ
  openFds : Finset ℤ

/-- What a handler works on: the connection it was called for, the state of its worker, the results
of the system calls to come, and the actions so far. -/
structure St where
  self : ConnId
  conn : Conn
  ws : WorkerState
  env : Env
  acts : List Act

namespace St

/-- Something is done. -/
def act (st : St) (a : Act) : St := { st with acts := st.acts ++ [a] }

/-- A change of the connection. -/
def mapConn (st : St) (f : Conn → Conn) : St := { st with conn := f st.conn }

/-- A change of the event loop. -/
def mapLoop (st : St) (f : EventLoop → EventLoop) : St :=
  { st with ws := { st.ws with loop := f st.ws.loop } }

/-- A change of the handler context. -/
def mapCtx (st : St) (f : HandlerCtx → HandlerCtx) : St :=
  { st with ws := { st.ws with hctx := f st.ws.hctx } }

/-- Something is put in `conn->wbuf`. -/
def onWbuf (st : St) (f : NpBuf → NpBuf) : St := st.mapConn fun c => { c with wbuf := f c.wbuf }

/-- `conn->state = s`. -/
def setState (st : St) (s : ConnState) : St := st.mapConn fun c => { c with state := s }

/-- `close(fd)`. -/
def close (st : St) (fd : ℤ) : St :=
  { st with
    ws := { st.ws with
      openFds := st.ws.openFds.erase fd
      loop := st.ws.loop.forget fd }
    acts := st.acts ++ [.close fd] }

/-- A call that opens a descriptor: the one on offer, if it is not open. -/
def offer (st : St) (fd : ℤ) : Option ℤ :=
  if 0 ≤ fd ∧ fd ∉ st.ws.openFds then some fd else none

/-- The descriptor is open from now on. -/
def opened (st : St) (fd : ℤ) : St :=
  { st with ws := { st.ws with openFds := insert fd st.ws.openFds } }

/-- `event_loop_mod(conn->loop, conn->fd, events, on_client_event, conn)`, which is
also `worker_client_event_mod`. -/
def clientMod (st : St) (events : Events) : St :=
  st.mapLoop fun l => eventLoopMod l st.conn.fd events (.client st.self)

/-- `event_loop_mod(conn->loop, fd, events, proxy_on_upstream_event, conn)`. -/
def upstreamMod (st : St) (fd : ℤ) (events : Events) : St :=
  st.mapLoop fun l => eventLoopMod l fd events (.upstream st.self)

/-- Memory from the connection's arena. -/
def alloc (st : St) (size align : ℕ) : Option ℕ × St :=
  let r := arenaAllocAligned st.conn.arena size align st.env.mallocs
  (r.1, { st with
    conn := { st.conn with arena := r.2.1 }
    env := { st.env with mallocs := r.2.2 } })

/-! ### Reading and writing -/

/-- The results of calls on a descriptor; there are none but errors on `-1`. -/
def onFd {α : Type} (fd : ℤ) (bad : α) (tape : List α) : List α := if fd < 0 then [bad] else tape

/-- `do { sent = buf_write_fd(&conn->wbuf, conn->fd); } while (sent > 0);` -/
def respond (st : St) : St :=
  let o := bufWriteLoop st.conn.wbuf (onFd st.conn.fd .err st.env.clientWrites)
  { st with
    conn := { st.conn with wbuf := o.buf }
    env := { st.env with clientWrites := o.tape }
    acts := st.acts ++ [.respond o.sent] }

/-- One `buf_write_fd(&conn->wbuf, conn->fd)`. -/
def respondOnce (st : St) : St :=
  let o := bufWriteFd st.conn.wbuf (onFd st.conn.fd .err st.env.clientWrites)
  { st with
    conn := { st.conn with wbuf := o.buf }
    env := { st.env with clientWrites := o.tape }
    acts := st.acts ++ [.respond o.sent] }

/-- `do { n = buf_write_fd(&conn->upstream_rbuf, conn->fd); } while (n > 0);` -/
def relay (st : St) : St :=
  let o := bufWriteLoop st.conn.upstreamRbuf (onFd st.conn.fd .err st.env.clientWrites)
  { st with
    conn := { st.conn with upstreamRbuf := o.buf }
    env := { st.env with clientWrites := o.tape }
    acts := st.acts ++ [.relay o.sent] }

/-- `do { n = buf_read_fd(&conn->rbuf, conn->fd); } while (n > 0);`, and the value
that ends the loop. -/
def readClient (st : St) : Ret × St :=
  let o := bufReadLoop st.conn.rbuf (onFd st.conn.fd .err st.env.clientReads)
  (o.ret, { st with
    conn := { st.conn with rbuf := o.buf }
    env := { st.env with clientReads := o.tape }
    acts := st.acts ++ [.clientRead o.got] })

/-- `do { n = buf_read_fd(&conn->upstream_wbuf, conn->fd); } while (n > 0);`, and the
value that ends the loop. -/
def readTunnel (st : St) : Ret × St :=
  let o := bufReadLoop st.conn.upstreamWbuf (onFd st.conn.fd .err st.env.clientReads)
  (o.ret, { st with
    conn := { st.conn with upstreamWbuf := o.buf }
    env := { st.env with clientReads := o.tape }
    acts := st.acts ++ [.clientRead o.got] })

/-- `do { n = buf_write_fd(&conn->upstream_wbuf, fd); } while (n > 0);` -/
def forwardAll (st : St) (fd : ℤ) : St :=
  let o := bufWriteLoop st.conn.upstreamWbuf (onFd fd .err st.env.upstreamWrites)
  { st with
    conn := { st.conn with upstreamWbuf := o.buf }
    env := { st.env with upstreamWrites := o.tape }
    acts := st.acts ++ [.forward o.sent] }

/-- `buf_write_fd(&conn->upstream_wbuf, fd)`, and its value. -/
def forwardOnce (st : St) (fd : ℤ) : Ret × St :=
  let o := bufWriteFd st.conn.upstreamWbuf (onFd fd .err st.env.upstreamWrites)
  (o.ret, { st with
    conn := { st.conn with upstreamWbuf := o.buf }
    env := { st.env with upstreamWrites := o.tape }
    acts := st.acts ++ [.forward o.sent] })

/-! ### Closing a connection -/

/-- `event_loop_del` and `close` for a descriptor. -/
def unregister (st : St) (fd : ℤ) : St := (st.mapLoop (eventLoopDel · fd)).close fd

/-- `conn_close`: the client's descriptor. -/
def closeClient (st : St) : St :=
  if 0 ≤ st.conn.fd then (st.unregister st.conn.fd).mapConn fun c => { c with fd := -1 } else st

/-- `conn_close`: the upstream's descriptor. -/
def closeUpstream (st : St) : St :=
  if 0 ≤ st.conn.upstreamFd then
    (st.unregister st.conn.upstreamFd).mapConn fun c => { c with upstreamFd := -1 }
  else st

/-- `conn_close`: the file. -/
def closeFile (st : St) : St :=
  if 0 ≤ st.conn.fileFd then (st.close st.conn.fileFd).mapConn fun c => { c with fileFd := -1 }
  else st

/-- `conn_close`. -/
def connClose (st : St) : St := st.closeClient.closeUpstream.closeFile.setState .closing

/-- `conn_pool_put`. -/
def connPoolPut (st : St) : St :=
  let st := st.connClose
  if st.ws.pool.freeCount ≥ st.ws.pool.maxFree then
    (st.mapConn fun c => { c with
      rbuf := bufFree c.rbuf
      wbuf := bufFree c.wbuf
      upstreamRbuf := bufFree c.upstreamRbuf
      upstreamWbuf := bufFree c.upstreamWbuf }).act (.poolPut true)
  else
    let st := st.mapConn fun c => { connInitBufs c with
      arena := arenaReset c.arena
      next := st.ws.pool.freeHead }
    { st with
      ws := { st.ws with pool := { st.ws.pool with
        freeHead := some st.self
        freeCount := st.ws.pool.freeCount + 1 } }
      acts := st.acts ++ [.poolPut false] }

/-- `worker_conn_close`. -/
def workerConnClose (st : St) : St :=
  connPoolPut { st with ws := { st.ws with activeConns := st.ws.activeConns - 1 } }

end St

end Nproxy
