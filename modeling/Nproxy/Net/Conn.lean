import Nproxy.Core.Arena
import Nproxy.Http.Request
import Nproxy.Net.Buffer
import Nproxy.Net.EventLoop

/-!
`net/conn.c`: connection objects, and what is in one when it is handed out.

The fields `tls`, `last_active`, `response` and `prev` are written and never
read, and `loop` and `worker_state` are the same in all connections of a worker;
they are left out. `proxyPool`, `tlsConn` and `cacheStore` name a server's pool, a
backend of a pool and a server's store by their indices.
-/

namespace Nproxy

/-- `conn_state_t`. -/
inductive ConnState where
  | readingRequest | writingResponse | proxying | tunnel | closing | sendfile
  deriving DecidableEq, Repr

/-- `struct conn`. -/
structure Conn where
  fd : ℤ
  upstreamFd : ℤ
  state : ConnState
  arena : Arena
  rbuf : NpBuf
  wbuf : NpBuf
  upstreamRbuf : NpBuf
  upstreamWbuf : NpBuf
  peer : InAddr
  fileFd : ℤ
  fileOffset : ℤ
  fileRemaining : ℤ
  keepAlive : Bool
  proxyPool : Option ℕ
  tlsConn : Option (ℕ × ℕ)
  request : Option HttpRequest
  cacheStore : Option ℕ
  cacheKey : List UInt8
  cacheBuf : Option (List UInt8)
  cacheLen : ℕ
  cacheCap : ℕ
  proxyStatus : ℤ
  next : Option ConnId

/-- `conn_init_bufs`. -/
def connInitBufs (c : Conn) : Conn :=
  { c with
    rbuf := bufReset c.rbuf
    wbuf := bufReset c.wbuf
    upstreamRbuf := bufReset c.upstreamRbuf
    upstreamWbuf := bufReset c.upstreamWbuf }

/-- `conn_alloc`, with the address of the first block of the arena: all other
memory is zero. -/
def connAlloc (addr : ℕ) : Conn where
  fd := 0
  upstreamFd := 0
  state := .readingRequest
  arena := arenaCreate npArenaSize addr
  rbuf := bufInit npReadBufSize
  wbuf := bufInit npWriteBufSize
  upstreamRbuf := bufInit npReadBufSize
  upstreamWbuf := bufInit npWriteBufSize
  peer := ⟨0, 0, 0, 0⟩
  fileFd := 0
  fileOffset := 0
  fileRemaining := 0
  keepAlive := false
  proxyPool := none
  tlsConn := none
  request := none
  cacheStore := none
  cacheKey := List.replicate 256 0
  cacheBuf := none
  cacheLen := 0
  cacheCap := 0
  proxyStatus := 0
  next := none

/-- `conn_reset`. -/
def connReset (c : Conn) (fd : ℤ) (peer : InAddr) : Conn :=
  connInitBufs { c with
    fd := fd
    upstreamFd := -1
    fileFd := -1
    fileOffset := 0
    fileRemaining := 0
    state := .readingRequest
    keepAlive := false
    tlsConn := none
    request := none
    next := none
    peer := peer
    arena := arenaReset c.arena }

/-- `conn_create`. -/
def connCreate (addr : ℕ) (fd : ℤ) (peer : InAddr) : Conn := connReset (connAlloc addr) fd peer

/-- `conn_pool_t`. -/
structure ConnPool where
  freeHead : Option ConnId
  freeCount : ℤ
  maxFree : ℤ
  deriving DecidableEq, Repr

/-- `conn_pool_create`. -/
def connPoolCreate (maxFree : ℤ) : ConnPool := ⟨none, 0, maxFree⟩

/-! ### Buffers of a connection -/

/-- All four buffers are in order. -/
structure Conn.BufsWf (c : Conn) : Prop where
  rbuf : c.rbuf.Wf
  wbuf : c.wbuf.Wf
  upstreamRbuf : c.upstreamRbuf.Wf
  upstreamWbuf : c.upstreamWbuf.Wf

/-- The four buffers. -/
def Conn.bufs (c : Conn) : NpBuf × NpBuf × NpBuf × NpBuf :=
  (c.rbuf, c.wbuf, c.upstreamRbuf, c.upstreamWbuf)

lemma Conn.BufsWf.of_bufs_eq {c c' : Conn} (h : c.BufsWf) (heq : c'.bufs = c.bufs) :
    c'.BufsWf := by
  simp only [Conn.bufs, Prod.mk.injEq] at heq
  obtain ⟨h1, h2, h3, h4⟩ := heq
  exact ⟨h1 ▸ h.rbuf, h2 ▸ h.wbuf, h3 ▸ h.upstreamRbuf, h4 ▸ h.upstreamWbuf⟩

lemma connInitBufs_bufsWf {c : Conn} (h : c.BufsWf) : (connInitBufs c).BufsWf :=
  ⟨bufReset_wf h.rbuf, bufReset_wf h.wbuf, bufReset_wf h.upstreamRbuf, bufReset_wf h.upstreamWbuf⟩

lemma connAlloc_bufsWf (addr : ℕ) : (connAlloc addr).BufsWf :=
  ⟨bufInit_wf (by decide), bufInit_wf (by decide), bufInit_wf (by decide),
    bufInit_wf (by decide)⟩

lemma connReset_bufsWf {c : Conn} (h : c.BufsWf) (fd : ℤ) (peer : InAddr) :
    (connReset c fd peer).BufsWf :=
  connInitBufs_bufsWf ⟨h.rbuf, h.wbuf, h.upstreamRbuf, h.upstreamWbuf⟩

lemma connCreate_bufsWf (addr : ℕ) (fd : ℤ) (peer : InAddr) : (connCreate addr fd peer).BufsWf :=
  connReset_bufsWf (connAlloc_bufsWf addr) fd peer

end Nproxy
