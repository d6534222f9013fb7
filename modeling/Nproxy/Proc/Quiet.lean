import Nproxy.Proc.Handover
import Nproxy.Proc.Pool
import Nproxy.Proxy.Balance

/-!
What concerns the backends, and the operations that do not.

A connection is proxied or tunnelled to the backend in `tls_conn` while it is in
`CONN_PROXYING` or `CONN_TUNNEL` (`Conn.serving`). A handler is quiet if it changes neither
that nor the pools. Otherwise it moves (`Moves`): the connection is no longer proxied, and the pools
are as they were or have failed to connect; or the connection is proxied to a backend that was
selected for it.

* `St.connPoolPut_moves`: closing a connection ends its being proxied, and gives nothing back.
* `St.handleWrite_quiet`: writing to the client is quiet.
-/

namespace Nproxy

/-- The backend that the connection is proxied or tunnelled to. -/
def Conn.serving (c : Conn) : Option (ℕ × ℕ) :=
  if c.state = .proxying ∨ c.state = .tunnel then c.tlsConn else none

lemma Conn.serving_eq_none {c : Conn} (h : c.state ≠ .proxying) (h' : c.state ≠ .tunnel) :
    c.serving = none := if_neg (not_or.mpr ⟨h, h'⟩)

lemma Conn.serving_of_state {c : Conn} {s : ConnState} (h : c.state = s)
    (hs : s ≠ .proxying ∧ s ≠ .tunnel) : c.serving = none :=
  Conn.serving_eq_none (h ▸ hs.1) (h ▸ hs.2)

lemma Conn.serving_congr {c c' : Conn} (hstate : c'.state = c.state)
    (htls : c'.tlsConn = c.tlsConn) : c'.serving = c.serving := by
  rw [Conn.serving, Conn.serving, hstate, htls]

/-! ### Pools -/

namespace UpstreamPool

/-- The pool after a backend was selected and a connection to it was asked for. -/
def given (p : UpstreamPool) (b : ℕ) (connect : Option ℤ) : UpstreamPool :=
  (upstreamGetConnection (upstreamSelect p).2 b connect).2.1

/-- The pool after a backend was selected and no connection to it could be made: it is released with
an error at once. -/
def refused (p : UpstreamPool) (b : ℕ) (connect : Option ℤ) : UpstreamPool :=
  upstreamRelease (p.given b connect) b true

end UpstreamPool

namespace St

/-- What the worker and the connection say about backends. -/
def backing (st : St) : List (Option UpstreamPool) × Option ℕ × Option (ℕ × ℕ) :=
  (st.ws.hctx.upstreamPools, st.conn.proxyPool, st.conn.tlsConn)

/-- Nothing happens that concerns the backends. -/
structure Quiet (st st' : St) : Prop where
  backing : st'.backing = st.backing
  serving : st'.conn.serving = st.conn.serving

/-- Nothing happens that concerns the backends, and the connection stays in its state. -/
structure Rests (st st' : St) : Prop where
  backing : st'.backing = st.backing
  state : st'.conn.state = st.conn.state

/-- Something does: the connection is proxied no more, or it is proxied anew. -/
inductive Moves (st st' : St) : Prop
  | leaves (hpools : st'.ws.hctx.upstreamPools = st.ws.hctx.upstreamPools)
      (htls : st'.conn.tlsConn = st.conn.tlsConn) (hserving : st'.conn.serving = none)
  | fails (i b : ℕ) (p : UpstreamPool) (connect : Option ℤ) (hp : st.ws.hctx.pool i = some p)
      (hb : (upstreamSelect p).1 = some b)
      (hpools : st'.ws.hctx.upstreamPools =
        st.ws.hctx.upstreamPools.set i (some (p.refused b connect)))
      (htls : st'.conn.tlsConn = st.conn.tlsConn) (hserving : st'.conn.serving = none)
  | starts (i b : ℕ) (p : UpstreamPool) (connect : Option ℤ) (hp : st.ws.hctx.pool i = some p)
      (hb : (upstreamSelect p).1 = some b)
      (hpools : st'.ws.hctx.upstreamPools =
        st.ws.hctx.upstreamPools.set i (some (p.given b connect)))
      (htls : st'.conn.tlsConn = some (i, b)) (hserving : st'.conn.serving = some (i, b))

variable {st st' st'' : St}

namespace Quiet

lemma pools (h : Quiet st st') :
    st'.ws.hctx.upstreamPools = st.ws.hctx.upstreamPools := congrArg Prod.fst h.backing

lemma proxyPool (h : Quiet st st') : st'.conn.proxyPool = st.conn.proxyPool :=
  congrArg (fun x => x.2.1) h.backing

lemma tlsConn (h : Quiet st st') : st'.conn.tlsConn = st.conn.tlsConn :=
  congrArg (fun x => x.2.2) h.backing

lemma refl (st : St) : Quiet st st := ⟨rfl, rfl⟩

lemma trans (h : Quiet st st') (h' : Quiet st' st'') : Quiet st st'' :=
  ⟨h'.backing.trans h.backing, h'.serving.trans h.serving⟩

/-- An operation that leaves `state` alone. -/
lemma of_state (hbacking : st'.backing = st.backing) (hstate : st'.conn.state = st.conn.state) :
    Quiet st st' :=
  ⟨hbacking, Conn.serving_congr hstate (congrArg (fun x => x.2.2) hbacking)⟩

/-- An operation on a connection that is not proxied. -/
lemma of_none (hserving : st.conn.serving = none) (hbacking : st'.backing = st.backing)
    (hserving' : st'.conn.serving = none) : Quiet st st' :=
  ⟨hbacking, hserving'.trans hserving.symm⟩

lemma pool (h : Quiet st st') (i : ℕ) : st'.ws.hctx.pool i = st.ws.hctx.pool i := by
  rw [HandlerCtx.pool, HandlerCtx.pool, h.pools]

lemma moves (h : Quiet st st') (h' : Moves st' st'') : Moves st st'' := by
  cases h' with
  | leaves hpools htls hserving =>
    exact .leaves (hpools.trans h.pools) (htls.trans h.tlsConn) hserving
  | fails i b p connect hp hb hpools htls hserving =>
    exact .fails i b p connect (h.pool i ▸ hp) hb (by rw [hpools, h.pools])
      (htls.trans h.tlsConn) hserving
  | starts i b p connect hp hb hpools htls hserving =>
    exact .starts i b p connect (h.pool i ▸ hp) hb (by rw [hpools, h.pools]) htls hserving

end Quiet

namespace Rests

lemma quiet (h : Rests st st') : Quiet st st' := .of_state h.backing h.state

lemma refl (st : St) : Rests st st := ⟨rfl, rfl⟩

lemma trans (h : Rests st st') (h' : Rests st' st'') : Rests st st'' :=
  ⟨h'.backing.trans h.backing, h'.state.trans h.state⟩

end Rests

lemma Moves.quiet (h : Moves st st') (h' : Quiet st' st'') : Moves st st'' := by
  cases h with
  | leaves hpools htls hserving =>
    exact .leaves (h'.pools.trans hpools) (h'.tlsConn.trans htls) (h'.serving.trans hserving)
  | fails i b p connect hp hb hpools htls hserving =>
    exact .fails i b p connect hp hb (h'.pools.trans hpools) (h'.tlsConn.trans htls)
      (h'.serving.trans hserving)
  | starts i b p connect hp hb hpools htls hserving =>
    exact .starts i b p connect hp hb (h'.pools.trans hpools) (h'.tlsConn.trans htls)
      (h'.serving.trans hserving)

/-- The connection is no longer proxied, and the pools are not touched. -/
lemma Moves.of_backing (hbacking : st'.backing = st.backing) (h : st'.conn.serving = none) :
    Moves st st' :=
  .leaves (congrArg Prod.fst hbacking) (congrArg (fun x => x.2.2) hbacking) h

/-- The request is answered here. -/
lemma Moves.of_answers (hpools : st'.ws.hctx.upstreamPools = st.ws.hctx.upstreamPools)
    (htls : st'.conn.tlsConn = st.conn.tlsConn) (h : Answers st') : Moves st st' := by
  refine .leaves hpools htls ?_
  rcases h with h | h
  · exact Conn.serving_of_state h (by decide)
  · exact Conn.serving_of_state h (by decide)

/-! ### Closing -/

lemma close_rests (st : St) (fd : ℤ) : Rests st (st.close fd) := ⟨rfl, rfl⟩

lemma backing_closeClient (st : St) : st.closeClient.backing = st.backing := by
  rw [closeClient]
  split <;> rfl

lemma backing_closeUpstream (st : St) : st.closeUpstream.backing = st.backing := by
  rw [closeUpstream]
  split <;> rfl

lemma backing_closeFile (st : St) : st.closeFile.backing = st.backing := by
  rw [closeFile]
  split <;> rfl

lemma backing_connPoolPut (st : St) : st.connPoolPut.backing = st.backing := by
  have hclose : st.connClose.backing = st.backing := by
    show st.closeClient.closeUpstream.closeFile.backing = st.backing
    rw [backing_closeFile, backing_closeUpstream, backing_closeClient]
  rw [← hclose, connPoolPut]
  simp only
  split <;> rfl

lemma serving_connPoolPut (st : St) : st.connPoolPut.conn.serving = none :=
  Conn.serving_of_state (connPoolPut_state st) (by decide)

lemma connPoolPut_moves (st : St) : Moves st st.connPoolPut :=
  .of_backing (backing_connPoolPut st) (serving_connPoolPut st)

lemma connPoolPut_quiet (h : st.conn.serving = none) : Quiet st st.connPoolPut :=
  .of_none h (backing_connPoolPut st) (serving_connPoolPut st)

lemma workerConnClose_closed (st : St) : st.workerConnClose.backing = st.backing ∧
    st.workerConnClose.conn.serving = none := by
  rw [workerConnClose]
  exact ⟨backing_connPoolPut _, serving_connPoolPut _⟩

lemma workerConnClose_moves (st : St) : Moves st st.workerConnClose :=
  .of_backing (workerConnClose_closed st).1 (workerConnClose_closed st).2

/-! ### Writing -/

lemma nextRequest_quiet (h : st.conn.serving = none) : Quiet st st.nextRequest :=
  .of_none h rfl rfl

lemma respondHead_quiet (st : St) : Quiet st st.respondHead := by
  rw [respondHead]
  split
  · exact ⟨rfl, rfl⟩
  · exact .refl st

lemma sendfileLoop_quiet (tape : List SysSendfile) (st : St) :
    Quiet st (sendfileLoop tape st).2 := by
  induction tape generalizing st with
  | nil => exact .refl st
  | cons r tape ih =>
    cases r with
    | again => exact ⟨rfl, rfl⟩
    | err => exact ⟨rfl, rfl⟩
    | sent k =>
      rw [sendfileLoop]
      simp only
      split
      · exact ⟨rfl, rfl⟩
      · split
        · refine Quiet.trans ?_ (ih _)
          exact ⟨rfl, rfl⟩
        · exact ⟨rfl, rfl⟩

lemma writeFile_quiet (h : st.conn.serving = none) : Quiet st st.writeFile := by
  have hloop : Quiet st (if st.conn.fileRemaining > 0 then
      sendfileLoop (onFd st.conn.fd .err st.env.sendfiles) st else (false, st)).2 := by
    split
    · exact sendfileLoop_quiet _ _
    · exact .refl st
  rw [writeFile]
  split <;> rename_i st1 heq <;> rw [heq] at hloop
  · exact hloop.trans (connPoolPut_quiet (hloop.serving.trans h))
  · split
    · have hend : Quiet st st1.endFile := hloop.trans ⟨rfl, rfl⟩
      simp only
      split
      · exact hend.trans (connPoolPut_quiet (hend.serving.trans h))
      · exact hend.trans (nextRequest_quiet (hend.serving.trans h))
    · exact hloop.trans ⟨rfl, rfl⟩

/-- **`handle_write` is quiet.** -/
lemma handleWrite_quiet (st : St) : Quiet st st.handleWrite := by
  have hrelay : Quiet st (if bufReadable st.relay.conn.upstreamRbuf = 0 then st.relay.clientMod evR
      else st.relay.clientMod evRW) := by
    split <;> exact ⟨rfl, rfl⟩
  have hrespond (h : st.conn.serving = none) :
      Quiet st (if bufReadable st.respond.conn.wbuf = 0 then
        if st.respond.conn.state = .closing ∨ st.respond.conn.keepAlive = false then
          st.respond.connPoolPut
        else st.respond.nextRequest
      else st.respond) := by
    have hst : Quiet st st.respond := ⟨rfl, rfl⟩
    split
    · split
      · exact hst.trans (connPoolPut_quiet h)
      · exact hst.trans (nextRequest_quiet h)
    · exact hst
  rw [handleWrite]
  -- two states relay what the upstream has sent; in the others the connection is not proxied
  cases hstate : st.conn.state with
  | sendfile =>
    have hserving : st.conn.serving = none :=
      Conn.serving_of_state hstate (by decide)
    have hhead := respondHead_quiet st
    simp only
    split
    · exact hhead.trans ⟨rfl, rfl⟩
    · exact hhead.trans (writeFile_quiet (hhead.serving.trans hserving))
  | proxying => exact hrelay
  | tunnel => exact hrelay
  | readingRequest => exact hrespond (Conn.serving_of_state hstate (by decide))
  | writingResponse => exact hrespond (Conn.serving_of_state hstate (by decide))
  | closing => exact hrespond (Conn.serving_of_state hstate (by decide))

lemma afterDispatch_quiet (st : St) : Quiet st st.afterDispatch := by
  rw [afterDispatch]
  split
  · exact .refl st
  · rename_i hstate
    obtain ⟨hproxying, htunnel⟩ := not_or.mp hstate
    have hserving : st.conn.serving = none := Conn.serving_eq_none hproxying htunnel
    have hrespond : Quiet st st.respond := ⟨rfl, rfl⟩
    simp only
    split
    · split
      · exact hrespond.trans (connPoolPut_quiet hserving)
      · exact hrespond.trans (nextRequest_quiet hserving)
    · exact .of_none hserving rfl rfl

end St

end Nproxy
