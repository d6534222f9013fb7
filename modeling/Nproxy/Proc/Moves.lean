import Nproxy.Proc.Quiet

/-!
What a client's event does to the backends.

* `handlerDispatch_moves`: whatever becomes of a request, its connection moves. Only `proxy_handle`
  selects a backend; on every other way the request is answered here.
* `onClientEvent_quiet_or_moves`: a client's event that does not end the connection and brings
  no request, whole or malformed (`ClientLasts`), is quiet, and any other moves.
-/

namespace Nproxy

namespace St

variable {st st' : St}

/-! ### `handler_dispatch` -/

lemma openRegular_quiet (st : St) (name : List UInt8) : Quiet st (st.openRegular name).2 := by
  rw [openRegular]
  simp only
  split
  · exact ⟨rfl, rfl⟩
  · split
    · exact ⟨rfl, rfl⟩
    · split
      · exact ⟨rfl, rfl⟩
      · split <;> exact ⟨rfl, rfl⟩

lemma tryFilesLoop_quiet (cfg : ServerConfig) (req : HttpRequest) (entries : List (List UInt8))
    (st : St) : Quiet st (tryFilesLoop cfg req entries st).2 := by
  induction entries generalizing st with
  | nil => exact .refl st
  | cons entry entries ih =>
    have hopen := openRegular_quiet st (tryFileName cfg req entry)
    rw [tryFilesLoop]
    split <;> rename_i heq <;> rw [heq] at hopen
    · exact hopen
    · exact hopen.trans (ih _)

lemma findFile_quiet (st : St) (req : HttpRequest) (cfg : ServerConfig) :
    Quiet st (st.findFile req cfg).2 := by
  rw [findFile]
  split
  · exact tryFilesLoop_quiet _ _ _ _
  · have hopen := openRegular_quiet st (plainFileName st.env.junk cfg req)
    simp only
    split <;> rename_i heq <;> rw [heq] at hopen <;> exact hopen

lemma clientMod_quiet (st : St) (events : Events) : Quiet st (st.clientMod events) := ⟨rfl, rfl⟩

lemma act_quiet (st : St) (a : Act) : Quiet st (st.act a) := ⟨rfl, rfl⟩

lemma onWbuf_quiet (st : St) (f : NpBuf → NpBuf) : Quiet st (st.onWbuf f) := ⟨rfl, rfl⟩

lemma countRequest_quiet (st : St) (status : ℕ) : Quiet st (st.countRequest status) := ⟨rfl, rfl⟩

lemma writingResponse_moves (st : St) : Moves st (st.setState .writingResponse) :=
  .of_answers rfl rfl (Or.inl rfl)

lemma answer_moves (st : St) (f : NpBuf → NpBuf) : Moves st (st.answer f) :=
  (onWbuf_quiet st f).moves (writingResponse_moves _)

/-- An error that is counted and logged. -/
lemma turnAway_moves (st : St) (status : ℕ) (keepAlive : Bool) :
    Moves st ((((st.onWbuf (responseWriteError · status keepAlive)).countRequest status).act
      (.accessLog status)).setState .writingResponse) :=
  (((onWbuf_quiet st _).trans (countRequest_quiet _ _)).trans (act_quiet _ _)).moves
    (writingResponse_moves _)

lemma answerError_moves (st : St) (status : ℕ) (keepAlive : Bool) :
    Moves st (st.answerError status keepAlive) := answer_moves st _

lemma backing_answer (st : St) (f : NpBuf → NpBuf) : (st.answer f).backing = st.backing := rfl

lemma backing_answerError (st : St) (status : ℕ) (keepAlive : Bool) :
    (st.answerError status keepAlive).backing = st.backing := backing_answer st _

/-- There is no backend, or no connection to it. -/
lemma turnDown_backing {st1 : St} {status : ℕ} {keepAlive : Bool}
    (h : (st1.answerError status keepAlive).mapCtx (fun ctx =>
      { ctx with metrics := metricsIncUpstreamErrors ctx.metrics }) = st') :
    st'.backing = st1.backing ∧ st'.conn.serving = none := by
  subst h
  exact ⟨backing_answerError st1 status keepAlive, rfl⟩

lemma fileServerHandle_moves (st : St) (req : HttpRequest) (cfg : ServerConfig) :
    Moves st (st.fileServerHandle req cfg).2 := by
  have hfind := findFile_quiet st req cfg
  rw [fileServerHandle]
  split
  · exact answerError_moves st 403 req.keepAlive
  · split <;> rename_i heq <;> rw [heq] at hfind
    · exact hfind.moves (answerError_moves _ 404 req.keepAlive)
    · split
      · exact (hfind.trans (close_rests _ _).quiet).moves (answer_moves _ _)
      · exact hfind.moves (.of_answers rfl rfl (Or.inr rfl))

lemma connected_quiet (st : St) (be : Backend) : Quiet st (st.connected be) := by
  rw [connected]
  cases st.nextConnect <;> exact ⟨rfl, rfl⟩

lemma set_pool_self {ctx : HandlerCtx} {i : ℕ} {p : UpstreamPool} (hp : ctx.pool i = some p) :
    ctx.upstreamPools.set i (some p) = ctx.upstreamPools := by
  rw [HandlerCtx.pool, Option.join_eq_some_iff] at hp
  obtain ⟨hi, hget⟩ := List.getElem?_eq_some_iff.mp hp
  rw [← hget, List.set_getElem_self]

/-- **`proxy_handle` moves**: there is no backend, no connection to it, or the connection is
proxied. -/
lemma proxyHandle_moves {i : ℕ} {p : UpstreamPool} (hp : st.ws.hctx.pool i = some p)
    (req : HttpRequest) : Moves st (st.proxyHandle req i p) := by
  rw [proxyHandle]
  rcases hselect : upstreamSelect p with ⟨_ | b, p1⟩
  · -- no backend is healthy, and the pool is left as it was
    have hsame : p1 = p := by
      have := UpstreamPool.upstreamSelect_of_none (p := p) (by rw [hselect])
      rw [hselect] at this
      exact this
    subst hsame
    simp only
    generalize hst' : St.mapCtx _ _ = st'
    obtain ⟨hback, hserving⟩ := turnDown_backing hst'
    exact .leaves ((congrArg Prod.fst hback).trans (set_pool_self hp))
      (congrArg (fun x => x.2.2) hback) hserving
  · have hb : (upstreamSelect p).1 = some b := by rw [hselect]
    simp only
    generalize hst0 : st.mapConn (fun c => { c with proxyPool := some i }) = st0
    rcases hget : upstreamGetConnection p1 b st0.nextConnect with ⟨ufd, p2, asked⟩
    have hp2 : p.given b st0.nextConnect = p2 := by
      rw [UpstreamPool.given, hselect, hget]
    simp only
    -- whether or not a connection was asked for, the pool is the one it leaves
    have hasked : Quiet (st0.setPool i p2) (if asked then
        (st0.setPool i p2).connected (p2.backend b) else st0.setPool i p2) := by
      split
      · exact connected_quiet _ _
      · exact .refl _
    have hpools0 : st0.ws.hctx.upstreamPools = st.ws.hctx.upstreamPools := by
      rw [← hst0]
      rfl
    have htls0 : st0.conn.tlsConn = st.conn.tlsConn := by
      rw [← hst0]
      rfl
    split
    · -- no connection to the backend: it is released as failed, on top of what asking left
      generalize hst' : St.mapCtx _ _ = st'
      obtain ⟨hback, hserving⟩ := turnDown_backing hst'
      refine .fails i b p st0.nextConnect hp hb ((congrArg Prod.fst hback).trans ?_)
        (((congrArg (fun x => x.2.2) hback).trans hasked.tlsConn).trans htls0) hserving
      rw [UpstreamPool.refused, hp2, ← hpools0]
      show (List.set _ i _) = _
      rw [hasked.pools]
      exact List.set_set ..
    · refine .starts i b p st0.nextConnect hp hb ?_ rfl ?_
      · rw [hp2, ← hpools0]
        exact hasked.pools
      · rw [Conn.serving]
        refine if_pos ?_
        show (if req.upgrade then ConnState.tunnel else .proxying) = _ ∨ (if req.upgrade then
          ConnState.tunnel else .proxying) = _
        cases req.upgrade
        · exact Or.inl rfl
        · exact Or.inr rfl

lemma noteCache_quiet (st : St) (req : HttpRequest) (i : ℕ) : Quiet st (st.noteCache req i) := by
  rw [noteCache]
  split <;> exact ⟨rfl, rfl⟩

lemma routeServer_moves (st : St) (req : HttpRequest) (i : ℕ) :
    Moves st (st.routeServer req i) := by
  rw [routeServer]
  simp only
  split
  · rename_i pool heq
    have hquiet := noteCache_quiet st req i
    refine hquiet.moves (proxyHandle_moves ?_ req)
    rw [hquiet.pool]
    split at heq
    · exact heq
    · cases heq
  · split
    · exact (fileServerHandle_moves _ _ _).quiet (act_quiet _ _)
    · exact turnAway_moves st 404 req.keepAlive

lemma route_moves (st : St) (req : HttpRequest) (i : ℕ) : Moves st (st.route req i) := by
  rw [route]
  split
  · exact (answer_moves st _).quiet (act_quiet _ _)
  · split
    · exact (answer_moves st _).quiet (act_quiet _ _)
    · -- a hit is answered here, a miss leaves the request to the server block
      have hlook : (∀ st', (st.lookupCache req i).1 = some st' → Moves st st') ∧
          Quiet st (st.lookupCache req i).2 := by
        rw [lookupCache]
        split
        · simp only
          split
          · split
            · refine ⟨fun st' h => ?_, ⟨rfl, rfl⟩⟩
              obtain rfl := Option.some.inj h
              exact .of_answers rfl rfl (Or.inl rfl)
            · exact ⟨by simp, ⟨rfl, rfl⟩⟩
          · exact ⟨by simp, ⟨rfl, rfl⟩⟩
        · exact ⟨by simp, .refl st⟩
      split <;> rename_i heq <;> rw [heq] at hlook
      · exact hlook.1 _ rfl
      · exact hlook.2.moves (routeServer_moves _ _ _)

lemma routeLimited_moves (st : St) (req : HttpRequest) (i : ℕ) :
    Moves st (st.routeLimited req i) := by
  have hrate : Quiet st (st.checkRate req).2 := by
    rw [checkRate]
    split <;> exact ⟨rfl, rfl⟩
  rw [routeLimited]
  split <;> rename_i heq <;> rw [heq] at hrate
  · exact hrate.moves (turnAway_moves _ 429 req.keepAlive)
  · exact hrate.moves (route_moves _ _ _)

lemma rewrite_quiet (st : St) (req : HttpRequest) (server : ServerConfig) :
    Quiet st (st.rewrite req server).2 := by
  rw [rewrite]
  split
  · exact .refl st
  · rename_i path _
    have halloc : Quiet st (st.alloc (path.length + 1) arenaAlign).2 := ⟨rfl, rfl⟩
    split <;> rename_i heq <;> rw [heq] at halloc
    · exact halloc
    · exact halloc.trans ⟨rfl, rfl⟩

lemma routeModules_moves (st : St) (req : HttpRequest) (i : ℕ) :
    Moves st (st.routeModules req i) := by
  rw [routeModules]
  split
  · exact (answer_moves st _).quiet (act_quiet _ _)
  · exact (rewrite_quiet _ _ _).moves (routeLimited_moves _ _ _)

/-- **`handler_dispatch` moves**: it answers the request itself, or hands it to one backend. -/
lemma handlerDispatch_moves (st : St) (req : HttpRequest) : Moves st (st.handlerDispatch req) := by
  have hstart : Quiet st ((st.act (.dispatch req)).setReq
      { req with remoteIp := inetNtop st.conn.peer }) := ⟨rfl, rfl⟩
  exact hstart.moves (routeModules_moves _ _ _)

/-! ### The client's events -/

/-- The event neither ends the connection nor brings a request, whole or malformed. -/
def ClientLasts (st : St) (ev : Events) : Prop :=
  ¬(ev.hup ∨ ev.err) ∧ (ev.read = true → ¬st.ReadFails ∧ (st.conn.state ≠ .tunnel →
    (parseFresh (bufBytes st.readClient.2.conn.rbuf)).1 = .incomplete))

lemma tunnelRead_backing (hstate : st.conn.state = .tunnel) :
    (¬st.ReadFails ∧ Quiet st st.tunnelRead) ∨ (st.ReadFails ∧ Moves st st.tunnelRead) := by
  have hfails : st.ReadFails ↔ st.readTunnel.1 = .closed ∨ st.readTunnel.1 = .err := by
    rw [ReadFails, if_pos hstate]
  have hread : Quiet st st.readTunnel.2 := ⟨rfl, rfl⟩
  rw [hfails, tunnelRead]
  by_cases hn : st.readTunnel.1 = .closed ∨ st.readTunnel.1 = .err
  · refine Or.inr ⟨hn, ?_⟩
    simp only
    rw [if_pos hn]
    exact hread.moves (workerConnClose_moves _)
  · refine Or.inl ⟨hn, ?_⟩
    simp only
    rw [if_neg hn]
    split
    · split <;> exact hread.trans ⟨rfl, rfl⟩
    · exact hread

lemma acceptRequest_moves (st : St) (ps : HttpParseState) : Moves st (st.acceptRequest ps) := by
  have halloc : Quiet st (st.alloc requestSize 8).2 := ⟨rfl, rfl⟩
  rw [acceptRequest]
  split <;> rename_i heq <;> rw [heq] at halloc
  · exact halloc.moves (connPoolPut_moves _)
  · have htake : ∀ st1 : St, ∀ req, Quiet st1 (st1.takeRequest ps req) := fun _ _ => ⟨rfl, rfl⟩
    exact ((halloc.trans (htake _ _)).moves (handlerDispatch_moves _ _)).quiet
      (afterDispatch_quiet _)

/-- A request that is not complete is left where it is; any other moves the connection. -/
lemma parseRequests_cases (st : St) :
    ((parseFresh (bufBytes st.conn.rbuf)).1 = .incomplete ∧ Quiet st st.parseRequests) ∨
      ((parseFresh (bufBytes st.conn.rbuf)).1 ≠ .incomplete ∧ Moves st st.parseRequests) := by
  rw [parseRequests]
  split
  · -- the loop is not entered, and an empty text is no complete request either
    rename_i hzero
    have hnil : bufBytes st.conn.rbuf = [] := by
      rw [bufBytes, Memory.slice, ← bufReadable, hzero, List.take_zero]
    rw [hnil, parseFresh_nil]
    exact Or.inl ⟨rfl, .refl st⟩
  · split <;> rename_i hparse <;> rw [hparse]
    · exact Or.inl ⟨rfl, .refl st⟩
    · refine Or.inr ⟨ParseResult.noConfusion, ?_⟩
      exact ((act_quiet st _).moves (answerError_moves _ 400 false)).quiet (clientMod_quiet _ _)
    · exact Or.inr ⟨ParseResult.noConfusion, acceptRequest_moves st _⟩

lemma handleRead_backing (st : St) :
    ((¬st.ReadFails ∧ (st.conn.state ≠ .tunnel →
        (parseFresh (bufBytes st.readClient.2.conn.rbuf)).1 = .incomplete)) ∧
      Quiet st st.handleRead) ∨
    (¬(¬st.ReadFails ∧ (st.conn.state ≠ .tunnel →
        (parseFresh (bufBytes st.readClient.2.conn.rbuf)).1 = .incomplete)) ∧
      Moves st st.handleRead) := by
  by_cases hstate : st.conn.state = .tunnel
  · rw [handleRead, if_pos hstate]
    rcases tunnelRead_backing hstate with ⟨hread, hquiet⟩ | ⟨hread, hmoves⟩
    · exact Or.inl ⟨⟨hread, fun hne => absurd hstate hne⟩, hquiet⟩
    · exact Or.inr ⟨fun h => h.1 hread, hmoves⟩
  · have hfails : st.ReadFails ↔ st.readClient.1 = .closed ∨ st.readClient.1 = .err := by
      rw [ReadFails, if_neg hstate]
    have hread : Quiet st st.readClient.2 := ⟨rfl, rfl⟩
    rw [handleRead, if_neg hstate, hfails]
    simp only
    by_cases hn : st.readClient.1 = .closed ∨ st.readClient.1 = .err
    · rw [if_pos hn]
      exact Or.inr ⟨fun h => h.1 hn, hread.moves (connPoolPut_moves _)⟩
    · rw [if_neg hn]
      rcases parseRequests_cases st.readClient.2 with ⟨hparse, hquiet⟩ | ⟨hparse, hmoves⟩
      · exact Or.inl ⟨⟨hn, fun _ => hparse⟩, hread.trans hquiet⟩
      · exact Or.inr ⟨fun h => hparse (h.2 hstate), hread.moves hmoves⟩

/-- **What `on_client_event` does to the backends.** -/
lemma onClientEvent_quiet_or_moves (st : St) (ev : Events) :
    (st.ClientLasts ev ∧ Quiet st (st.onClientEvent ev)) ∨
      (¬st.ClientLasts ev ∧ Moves st (st.onClientEvent ev)) := by
  rw [onClientEvent]
  by_cases hend : ev.hup ∨ ev.err
  · rw [if_pos hend]
    exact Or.inr ⟨fun h => h.1 hend, connPoolPut_moves st⟩
  · rw [if_neg hend]
    have hwrite : ∀ st1 : St, Quiet st1 (if ev.write then st1.handleWrite else st1) := by
      intro st1
      split
      · exact handleWrite_quiet st1
      · exact .refl st1
    simp only
    by_cases hread : ev.read = true
    · rw [if_pos hread]
      rcases handleRead_backing st with ⟨hlasts, hquiet⟩ | ⟨hlasts, hmoves⟩
      · exact Or.inl ⟨⟨hend, fun _ => hlasts⟩, hquiet.trans (hwrite _)⟩
      · exact Or.inr ⟨fun h => hlasts (h.2 hread), hmoves.quiet (hwrite _)⟩
    · rw [if_neg hread]
      exact Or.inl ⟨⟨hend, fun h => absurd h hread⟩, hwrite st⟩

end St

end Nproxy
