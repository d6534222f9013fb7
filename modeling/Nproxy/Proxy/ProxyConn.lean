import Nproxy.Proxy.Builder
import Nproxy.Static.FileServer

/-!
`proxy/proxy_conn.c`: a request is handed to a backend (`proxyHandle`), and the
backend's answer is relayed as it comes (`proxyOnUpstreamEvent`).

One turn of the read loop is a `buf_read_fd` into `upstream_rbuf`
(`readUpstream`), and, if it got something, `relayTurn`: the status of the response
(`captureStatus`), the copy for the cache (`captureCache`) and the writes to the
client. What is looked at each time is all that `upstream_rbuf` holds, not only
what was just read.
-/

namespace Nproxy

open Memory (blit slice)

/-- `&ctx->upstream_pools[i]`. -/
def HandlerCtx.pool (ctx : HandlerCtx) (i : ℕ) : Option UpstreamPool :=
  (ctx.upstreamPools[i]?).join

namespace St

/-- A change of a server's pool. -/
def setPool (st : St) (i : ℕ) (p : UpstreamPool) : St :=
  st.mapCtx fun ctx => { ctx with upstreamPools := ctx.upstreamPools.set i (some p) }

/-! ### `proxy_handle` -/

/-- The descriptor that a `socket_connect_nonblock` would get now. -/
def nextConnect (st : St) : Option ℤ :=
  match st.env.connects with
  | some fd :: _ => st.offer fd
  | _ => none

/-- A `socket_connect_nonblock` was made for this backend. -/
def connected (st : St) (be : Backend) : St :=
  let st := match st.nextConnect with
    | some fd => st.opened fd
    | none => st
  { st with
    env := { st.env with connects := st.env.connects.tail }
    acts := st.acts ++ [.connect be.host be.port] }

/-- The end of `proxy_handle`, with a connection to the backend. -/
def startProxy (st : St) (req : HttpRequest) (i b : ℕ) (ufd : ℤ) : St :=
  let st := st.mapConn fun c => { c with
    tlsConn := some (i, b)
    upstreamFd := ufd
    upstreamWbuf := buildProxyRequest st.env.junk c.upstreamWbuf req
    state := if req.upgrade then .tunnel else .proxying }
  st.mapLoop fun l => eventLoopAdd l ufd evRW (.upstream st.self)

/-- `proxy_handle`, with the pool of server `i`. -/
def proxyHandle (st : St) (req : HttpRequest) (i : ℕ) (pool : UpstreamPool) : St :=
  let st := st.mapConn fun c => { c with proxyPool := some i }
  match upstreamSelect pool with
  | (none, pool) =>
    ((st.setPool i pool).answerError 503 req.keepAlive).mapCtx fun ctx =>
      { ctx with metrics := metricsIncUpstreamErrors ctx.metrics }
  | (some b, pool) =>
    match upstreamGetConnection pool b st.nextConnect with
    | (ufd, pool, asked) =>
      let st := st.setPool i pool
      let st := if asked then st.connected (pool.backend b) else st
      if ufd < 0 then
        ((st.setPool i (upstreamRelease pool b true)).answerError 502 req.keepAlive).mapCtx
          fun ctx => { ctx with metrics := metricsIncUpstreamErrors ctx.metrics }
      else st.startProxy req i b ufd

/-! ### `proxy_on_upstream_event`: reading -/

/-- `conn->proxy_status = status`. -/
def noteStatus (st : St) (status : ℤ) : St :=
  (st.act (.noteStatus status)).mapConn fun c => { c with proxyStatus := status }

/-- The status of the response, once enough of it stands at the front of
`upstream_rbuf`. `atoi` reads on in the memory of the buffer. -/
def captureStatus (st : St) : St :=
  if st.conn.proxyStatus ≠ 0 then st
  else
    let b := st.conn.upstreamRbuf
    let p := bufBytes b
    if p.length ≥ 12 ∧ p.take 4 = bytes "HTTP" then
      match memchr p 32 with
      | none => st
      | some sp =>
        if sp + 4 ≤ p.length then st.noteStatus (atoi (b.data.drop (b.readPos + sp + 1)))
        else st
    else st

/-- `realloc(conn->cache_buf, new_cap)`, when the buffer is too small. -/
def growCache (st : St) (needed : ℕ) : St :=
  if needed > st.conn.cacheCap then
    let newCap := if needed * 2 < 8192 then 8192 else needed * 2
    let st' := { st with env := { st.env with reallocs := st.env.reallocs.tail } }
    if st.env.reallocs.headD false then
      st'.mapConn fun c => { c with
        cacheBuf := some (blit (List.replicate newCap 0) 0 (c.cacheBuf.getD []))
        cacheCap := newCap }
    else st'
  else st

/-- `memcpy` to the end of the cache buffer, if it has room. -/
def copyCache (st : St) (p : List UInt8) : St :=
  match st.conn.cacheBuf with
  | some block =>
    if st.conn.cacheLen + p.length ≤ st.conn.cacheCap then
      st.mapConn fun c => { c with
        cacheBuf := some (blit block c.cacheLen p)
        cacheLen := c.cacheLen + p.length }
    else st
  | none => st

/-- The copy for the cache: all of `upstream_rbuf`. -/
def captureCache (st : St) : St :=
  let p := bufBytes st.conn.upstreamRbuf
  if st.conn.cacheStore.isSome ∧ p.length > 0 then
    (st.growCache (st.conn.cacheLen + p.length)).copyCache p
  else st

/-- One `buf_read_fd(&conn->upstream_rbuf, fd)`. -/
def readUpstream (st : St) (tape : List SysRead) : Ret × St :=
  let left := bufBytes st.conn.upstreamRbuf
  let o := bufReadFd st.conn.upstreamRbuf tape
  let st := { st with
    conn := { st.conn with upstreamRbuf := o.buf }
    env := { st.env with upstreamReads := o.tape } }
  match o.ret with
  | .ok (_ + 1) => (o.ret, st.act (.upstreamRead left o.got))
  | .closed => (o.ret, st.act (.upstreamEof left))
  | _ => (o.ret, st)

/-- What follows a read that got something. -/
def relayTurn (st : St) : St := st.captureStatus.captureCache.relay

/-- The read loop. A turn that goes on has used one result up. -/
def upstreamLoop : List SysRead → St → Ret × St
  | [], st => st.readUpstream []
  | r :: tape, st =>
    match st.readUpstream (r :: tape) with
    | (.ok (_ + 1), st) => upstreamLoop tape st.relayTurn
    | (n, st) => (n, st)

/-! ### `proxy_on_upstream_event`: the end -/

/-- `cache_insert`, and the buffer is freed. -/
def storeCache (st : St) : St :=
  match st.conn.cacheStore, st.conn.cacheBuf with
  | some store, some block =>
    if st.conn.cacheLen > 0 then
      (st.act (.cacheInsert store (cstr st.conn.cacheKey) (slice block 0 st.conn.cacheLen))).mapConn
        fun c => { c with cacheBuf := none, cacheLen := 0, cacheCap := 0 }
    else st
  | _, _ => st

/-- The backend gets its connection back. -/
def putUpstream (st : St) (i b : ℕ) (fd : ℤ) : St :=
  let keepalive := ((st.conn.proxyPool.bind st.ws.hctx.pool).map (·.keepaliveConns)).getD 0
  match st.ws.hctx.pool i with
  | none => st
  | some p =>
    match upstreamPutConnection keepalive p b fd with
    | (p, true) => (st.setPool i p).close fd
    | (p, false) => st.setPool i p

/-- The upstream is no longer one of the connection's descriptors. -/
def unlinkUpstream (st : St) (fd : ℤ) : St :=
  (st.mapLoop (eventLoopDel · fd)).mapConn fun c => { c with upstreamFd := -1 }

/-- The access log, if there is a request. -/
def logProxied (st : St) : St :=
  if st.conn.request.isSome then st.act (.accessLog st.conn.proxyStatus) else st

/-- What becomes of the response and of the upstream's descriptor. -/
def settleUpstream (st : St) (n : Ret) (fd : ℤ) : St :=
  if n = .closed ∧ st.conn.state ≠ .tunnel then
    let st := st.storeCache
    match st.conn.tlsConn with
    | some (i, b) => st.logProxied.putUpstream i b fd
    | none => st.close fd
  else st.close fd

/-- The upstream has closed, or failed: what `proxy_on_upstream_event` does then. -/
def finishProxy (st : St) (n : Ret) (fd : ℤ) : St :=
  ((st.unlinkUpstream fd).settleUpstream n fd).workerConnClose

/-- The part of `proxy_on_upstream_event` for `EV_READ`. -/
def upstreamReadPart (st : St) (fd : ℤ) : St :=
  match upstreamLoop (onFd fd .err st.env.upstreamReads) st with
  | (n, st) =>
    let st := if bufReadable st.conn.upstreamRbuf > 0 then st.clientMod evRW else st
    if n = .closed ∨ n = .err then st.finishProxy n fd else st

/-- The part of `proxy_on_upstream_event` for `EV_WRITE`, with a flag that says
whether the function goes on. -/
def upstreamWritePart (st : St) (fd : ℤ) : Bool × St :=
  match st.forwardOnce fd with
  | (n, st) =>
    if n = .err ∨ n = .closed then
      (false, ((st.answerError 502 false).respondOnce).workerConnClose)
    else if bufReadable st.conn.upstreamWbuf = 0 then (true, st.upstreamMod fd evR)
    else (true, st)

/-- `proxy_on_upstream_event`. -/
def proxyOnUpstreamEvent (st : St) (fd : ℤ) (events : Events) : St :=
  match (if events.write then st.upstreamWritePart fd else (true, st)) with
  | (false, st) => st
  | (true, st) => if events.read then st.upstreamReadPart fd else st

/-! ### What a turn of the read loop can do besides relaying -/

/-- A status is noted where none was, or nothing is done. -/
lemma captureStatus_cases (st : St) : st.captureStatus = st ∨
    st.conn.proxyStatus = 0 ∧ ∃ status, st.captureStatus = st.noteStatus status := by
  rw [captureStatus]
  split
  · exact Or.inl rfl
  · rename_i hstatus
    simp only
    split
    · split
      · exact Or.inl rfl
      · split
        · exact Or.inr ⟨not_not.mp hstatus, _, rfl⟩
        · exact Or.inl rfl
    · exact Or.inl rfl

/-- A `realloc`, or nothing. -/
lemma growCache_cases (st : St) (needed : ℕ) : st.growCache needed = st ∨
    ∃ buf cap, st.growCache needed = { st with
      conn := { st.conn with cacheBuf := buf, cacheCap := cap }
      env := { st.env with reallocs := st.env.reallocs.tail } } := by
  rw [growCache]
  split
  · simp only
    split
    · exact Or.inr ⟨_, _, rfl⟩
    · exact Or.inr ⟨st.conn.cacheBuf, st.conn.cacheCap, rfl⟩
  · exact Or.inl rfl

lemma copyCache_cases (st : St) (p : List UInt8) : st.copyCache p = st ∨
    ∃ buf len, st.copyCache p = { st with
      conn := { st.conn with cacheBuf := buf, cacheLen := len } } := by
  rw [copyCache]
  split
  · split
    · exact Or.inr ⟨_, _, rfl⟩
    · exact Or.inl rfl
  · exact Or.inl rfl

/-- The buffer for the cache is written, after at most one `realloc`, if the connection has a
store; or nothing is done. -/
lemma captureCache_cases (st : St) : st.captureCache = st ∨
    st.conn.cacheStore.isSome = true ∧ ∃ buf len cap reallocs,
      (reallocs = st.env.reallocs ∨ reallocs = st.env.reallocs.tail) ∧
      st.captureCache = { st with
        conn := { st.conn with cacheBuf := buf, cacheLen := len, cacheCap := cap }
        env := { st.env with reallocs := reallocs } } := by
  rw [captureCache]
  simp only
  split
  · rename_i h
    right
    refine ⟨h.1, ?_⟩
    rcases growCache_cases st (st.conn.cacheLen + (bufBytes st.conn.upstreamRbuf).length) with
      hgrow | ⟨buf, cap, hgrow⟩ <;> rw [hgrow]
    · rcases copyCache_cases st (bufBytes st.conn.upstreamRbuf) with hcopy | ⟨buf, len, hcopy⟩
      · exact ⟨_, _, _, _, Or.inl rfl, hcopy⟩
      · exact ⟨_, _, _, _, Or.inl rfl, hcopy⟩
    · generalize hst : ({ st with
        conn := { st.conn with cacheBuf := buf, cacheCap := cap }
        env := { st.env with reallocs := st.env.reallocs.tail } } : St) = st1
      rcases copyCache_cases st1 (bufBytes st.conn.upstreamRbuf) with
        hcopy | ⟨buf', len, hcopy⟩ <;> rw [hcopy, ← hst]
      · exact ⟨_, _, _, _, Or.inr rfl, rfl⟩
      · exact ⟨_, _, _, _, Or.inr rfl, rfl⟩
  · exact Or.inl rfl

/-! ### `proxy_on_upstream_event`, by what its parts can do -/

/-- The client gets a 502 as the write has failed; or the function goes on, and the
upstream's socket may be asked for reads alone. -/
lemma upstreamWritePart_cases (st : St) (fd : ℤ) :
    st.upstreamWritePart fd =
        (false, (((st.forwardOnce fd).2.answerError 502 false).respondOnce).workerConnClose) ∨
      ∃ st1, st.upstreamWritePart fd = (true, st1) ∧
        (st1 = (st.forwardOnce fd).2 ∨ st1 = (st.forwardOnce fd).2.upstreamMod fd evR) := by
  rw [upstreamWritePart]
  rcases st.forwardOnce fd with ⟨n, st1⟩
  simp only
  split
  · exact Or.inl rfl
  · split
    · exact Or.inr ⟨_, rfl, Or.inr rfl⟩
    · exact Or.inr ⟨_, rfl, Or.inl rfl⟩

/-- After the read loop the client's socket may be asked for writes, and the connection is
closed if the upstream has closed or failed. -/
lemma upstreamReadPart_cases (st : St) (fd : ℤ) :
    ∃ n st1 st2, upstreamLoop (onFd fd .err st.env.upstreamReads) st = (n, st1) ∧
      (st2 = st1 ∨ st2 = st1.clientMod evRW) ∧
      ((n = .closed ∨ n = .err) ∧ st.upstreamReadPart fd = st2.finishProxy n fd ∨
        ¬(n = .closed ∨ n = .err) ∧ st.upstreamReadPart fd = st2) := by
  rw [upstreamReadPart]
  rcases upstreamLoop (onFd fd .err st.env.upstreamReads) st with ⟨n, st1⟩
  refine ⟨n, st1, if bufReadable st1.conn.upstreamRbuf > 0 then st1.clientMod evRW else st1,
    rfl, ?_, ?_⟩
  · split
    · exact Or.inr rfl
    · exact Or.inl rfl
  · simp only
    by_cases hn : n = .closed ∨ n = .err
    · exact Or.inl ⟨hn, if_pos hn⟩
    · exact Or.inr ⟨hn, if_neg hn⟩

/-- The state in which an event comes to the part that reads: that of the event, or that
after a write to the upstream. -/
def Forwards (st : St) (fd : ℤ) (ev : Events) (st1 : St) : Prop :=
  (ev.write = false ∧ st1 = st) ∨ (ev.write = true ∧
    (st1 = (st.forwardOnce fd).2 ∨ st1 = (st.forwardOnce fd).2.upstreamMod fd evR))

/-- The function is left after a write that has failed, or it comes to the part that reads. -/
lemma proxyOnUpstreamEvent_parts (st : St) (fd : ℤ) (ev : Events) :
    st.proxyOnUpstreamEvent fd ev =
        (((st.forwardOnce fd).2.answerError 502 false).respondOnce).workerConnClose ∨
      ∃ st1, (if ev.write then st.upstreamWritePart fd else (true, st)) = (true, st1) ∧
        st.Forwards fd ev st1 ∧
        st.proxyOnUpstreamEvent fd ev = if ev.read then st1.upstreamReadPart fd else st1 := by
  rw [proxyOnUpstreamEvent]
  by_cases hwrite : ev.write = true
  · rw [if_pos hwrite]
    rcases upstreamWritePart_cases st fd with heq | ⟨st1, heq, hst1⟩ <;> rw [heq]
    · exact Or.inl rfl
    · exact Or.inr ⟨st1, rfl, Or.inr ⟨hwrite, hst1⟩, rfl⟩
  · rw [if_neg hwrite]
    exact Or.inr ⟨st, rfl, Or.inl ⟨Bool.eq_false_of_not_eq_true hwrite, rfl⟩, rfl⟩

end St

end Nproxy
