import Nproxy.Http.Framed
import Nproxy.Proc.Release

/-!
What a handler of one connection leaves alone.

* `Spares st st'`: the registrations of all other connections are what they were, or gone
  with their descriptor.
* `Aside st st'`: and `active_conns` is what it was. Everything a handler does is of this
  kind, but `worker_conn_close`, which counts.
* `Tends st st'`: in addition the connection keeps its `keep_alive` and a write buffer that
  is in order. Everything is of this kind but giving the connection back, and taking a
  request, which sets `keep_alive`.
-/

namespace Nproxy

/-! ### Registrations of others -/

section

variable {l : EventLoop} {fd fd' : ℤ} {events : Events} {fn : EvFn} {h : EvHandler}

/-- A registration at `fd` is as it was in `l`, or the descriptor is closed. -/
def EventLoop.Spared (l l' : EventLoop) (fd : ℤ) (h : EvHandler) : Prop :=
  l.handlers fd = some h ∧ (l'.interest fd = l.interest fd ∨ l'.interest fd = none)

lemma eventLoopMod_spared (hne : h.fn ≠ fn)
    (hh : (eventLoopMod l fd events fn).handlers fd' = some h) :
    l.Spared (eventLoopMod l fd events fn) fd' h := by
  rw [eventLoopMod_handlers] at hh
  rw [eventLoopMod]
  split at hh <;> rename_i hmax
  · rw [if_pos hmax]
    exact ⟨hh, Or.inl rfl⟩
  · rw [if_neg hmax]
    by_cases heq : fd' = fd
    · rw [heq, Function.update_self] at hh
      exact absurd (congrArg EvHandler.fn (Option.some.inj hh)).symm hne
    · rw [Function.update_of_ne heq] at hh
      refine ⟨hh, Or.inl ?_⟩
      simp only
      split
      · exact Function.update_of_ne heq _ _
      · rfl

lemma eventLoopAdd_spared (hne : h.fn ≠ fn)
    (hh : (eventLoopAdd l fd events fn).handlers fd' = some h) :
    l.Spared (eventLoopAdd l fd events fn) fd' h := by
  rw [eventLoopAdd_handlers] at hh
  rw [eventLoopAdd]
  split at hh <;> rename_i hmax
  · rw [if_pos hmax]
    exact ⟨hh, Or.inl rfl⟩
  · rw [if_neg hmax]
    by_cases heq : fd' = fd
    · rw [heq, Function.update_self] at hh
      exact absurd (congrArg EvHandler.fn (Option.some.inj hh)).symm hne
    · rw [Function.update_of_ne heq] at hh
      refine ⟨hh, Or.inl ?_⟩
      simp only
      split
      · rfl
      · exact Function.update_of_ne heq _ _

lemma eventLoopDel_spared (hh : (eventLoopDel l fd).handlers fd' = some h) :
    l.Spared (eventLoopDel l fd) fd' h := by
  rw [eventLoopDel_handlers] at hh
  rw [eventLoopDel]
  split at hh <;> rename_i hmax
  · rw [if_pos hmax]
    exact ⟨hh, Or.inl rfl⟩
  · rw [if_neg hmax]
    by_cases heq : fd' = fd
    · rw [heq, Function.update_self] at hh
      exact absurd hh (by simp)
    · rw [Function.update_of_ne heq] at hh
      exact ⟨hh, Or.inl (Function.update_of_ne heq _ _)⟩

lemma forget_spared (hh : (l.forget fd).handlers fd' = some h) : l.Spared (l.forget fd) fd' h := by
  refine ⟨hh, ?_⟩
  by_cases heq : fd' = fd
  · right
    rw [heq]
    exact Function.update_self ..
  · left
    exact Function.update_of_ne heq _ _

end

/-! ### Write buffers -/

/-- What writes into a buffer leaves it in order. -/
lemma NpBuf.Sound.put {b : NpBuf} (h : b.Sound) (src : List UInt8) : (bufPut b src).Sound := by
  refine ⟨bufPut_wf h.wf src, (bufPut_cap src).trans h.cap, ?_⟩
  rw [bufPut]
  split
  · rename_i hsrc
    exact bufAppend_tidy h.wf hsrc.1
  · exact h.tidy

lemma NpBuf.Sound.error {b : NpBuf} (h : b.Sound) (status : ℕ) (keepAlive : Bool) :
    (responseWriteError b status keepAlive).Sound := (h.put _).put _

lemma NpBuf.Sound.simple {b : NpBuf} (h : b.Sound) (junk : ℕ → UInt8) (status : ℕ)
    (reason contentType body : Option (List UInt8)) (keepAlive : Bool) :
    (responseWriteSimple junk b status reason contentType body keepAlive).Sound :=
  (h.put _).put _

lemma NpBuf.Sound.write {b : NpBuf} (h : b.Sound) (tape : List SysWrite) :
    (bufWriteLoop b tape).buf.Sound :=
  ⟨(bufWriteLoop_spec h.wf tape).1, (bufWriteLoop_cap b tape).trans h.cap,
    bufWriteLoop_tidy h.tidy tape⟩

lemma NpBuf.Sound.writeOnce {b : NpBuf} (h : b.Sound) (tape : List SysWrite) :
    (bufWriteFd b tape).buf.Sound :=
  ⟨(bufWriteFd_spec h.wf tape).1, (bufWriteFd_cap b tape).trans h.cap, bufWriteFd_tidy h.tidy tape⟩

namespace St

variable {st st' st'' : St}

/-! ### `Spares` and `Aside` -/

/-- The registrations of the others are left alone. -/
structure Spares (st st' : St) : Prop where
  self : st'.self = st.self
  others : ∀ fd h, h.fn ≠ .client st.self → h.fn ≠ .upstream st.self →
    st'.ws.loop.handlers fd = some h → st.ws.loop.Spared st'.ws.loop fd h

lemma Spares.trans (h1 : Spares st st') (h2 : Spares st' st'') : Spares st st'' := by
  refine ⟨h2.self.trans h1.self, fun fd h hc hu hh => ?_⟩
  obtain ⟨hh, hi2⟩ := h2.others fd h (by rwa [h1.self]) (by rwa [h1.self]) hh
  obtain ⟨hh, hi1⟩ := h1.others fd h hc hu hh
  refine ⟨hh, ?_⟩
  cases hi2 with
  | inl hi2 =>
    rw [hi2]
    exact hi1
  | inr hi2 => exact Or.inr hi2

/-- The rest of the worker does not notice. -/
structure Aside (st st' : St) : Prop extends Spares st st' where
  active : st'.ws.activeConns = st.ws.activeConns

namespace Aside

lemma of_loop (hself : st'.self = st.self) (hactive : st'.ws.activeConns = st.ws.activeConns)
    (hloop : st'.ws.loop = st.ws.loop) : Aside st st' :=
  ⟨⟨hself, fun fd h _ _ hh => by rw [hloop] at hh ⊢; exact ⟨hh, Or.inl rfl⟩⟩, hactive⟩

lemma refl (st : St) : Aside st st := of_loop rfl rfl rfl

lemma trans (h1 : Aside st st') (h2 : Aside st' st'') : Aside st st'' :=
  ⟨h1.toSpares.trans h2.toSpares, h2.active.trans h1.active⟩

lemma mapConn (f : Conn → Conn) : Aside st (st.mapConn f) := of_loop rfl rfl rfl

lemma close (fd : ℤ) : Aside st (st.close fd) :=
  ⟨⟨rfl, fun _ _ _ _ hh => forget_spared hh⟩, rfl⟩

lemma del (fd : ℤ) : Aside st (st.mapLoop (eventLoopDel · fd)) :=
  ⟨⟨rfl, fun _ _ _ _ hh => eventLoopDel_spared hh⟩, rfl⟩

lemma closeClient : Aside st st.closeClient := by
  rw [St.closeClient]
  split
  · exact ((del _).trans (close _)).trans (mapConn _)
  · exact refl st

lemma closeUpstream : Aside st st.closeUpstream := by
  rw [St.closeUpstream]
  split
  · exact ((del _).trans (close _)).trans (mapConn _)
  · exact refl st

lemma closeFile : Aside st st.closeFile := by
  rw [St.closeFile]
  split
  · exact (close _).trans (mapConn _)
  · exact refl st

lemma connPoolPut : Aside st st.connPoolPut := by
  have hclose : Aside st st.connClose := by
    rw [connClose, setState]
    exact ((closeClient.trans closeUpstream).trans closeFile).trans (mapConn _)
  rw [St.connPoolPut]
  simp only
  split
  · exact hclose.trans (of_loop rfl rfl rfl)
  · exact hclose.trans (of_loop rfl rfl rfl)

/-- `worker_conn_close` counts, and otherwise gives the connection back. -/
lemma workerConnClose (h : Aside st st') : Spares st st'.workerConnClose := by
  have hput : Aside { st' with ws := { st'.ws with activeConns := st'.ws.activeConns - 1 } }
      st'.workerConnClose := Aside.connPoolPut
  exact h.toSpares.trans ⟨hput.self, hput.others⟩

end Aside

/-! ### `Tends` -/

/-- The connection keeps its word, and its write buffer is in order. -/
structure Tends (st st' : St) : Prop extends Aside st st' where
  keepAlive : st'.conn.keepAlive = st.conn.keepAlive
  wbuf : st.conn.wbuf.Sound → st'.conn.wbuf.Sound

namespace Tends

/-- An operation that leaves the loop, `keep_alive` and the write buffer alone. -/
lemma of_same (hself : st'.self = st.self) (hactive : st'.ws.activeConns = st.ws.activeConns)
    (hloop : st'.ws.loop = st.ws.loop) (hkeep : st'.conn.keepAlive = st.conn.keepAlive)
    (hwbuf : st'.conn.wbuf = st.conn.wbuf) : Tends st st' :=
  ⟨.of_loop hself hactive hloop, hkeep, fun h => hwbuf ▸ h⟩

lemma refl (st : St) : Tends st st := of_same rfl rfl rfl rfl rfl

lemma trans (h1 : Tends st st') (h2 : Tends st' st'') : Tends st st'' :=
  ⟨h1.toAside.trans h2.toAside, h2.keepAlive.trans h1.keepAlive, fun h => h2.wbuf (h1.wbuf h)⟩

lemma of_wbuf (hself : st'.self = st.self) (hws : st'.ws.activeConns = st.ws.activeConns)
    (hloop : st'.ws.loop = st.ws.loop) (hkeep : st'.conn.keepAlive = st.conn.keepAlive)
    {f : NpBuf → NpBuf} (hwbuf : st'.conn.wbuf = f st.conn.wbuf)
    (hf : ∀ b : NpBuf, b.Sound → (f b).Sound) : Tends st st' :=
  ⟨.of_loop hself hws hloop, hkeep, fun h => hwbuf ▸ hf _ h⟩

lemma act (a : Act) : Tends st (st.act a) := of_same rfl rfl rfl rfl rfl

lemma mapCtx (f : HandlerCtx → HandlerCtx) : Tends st (st.mapCtx f) := of_same rfl rfl rfl rfl rfl

lemma env (e : Env) : Tends st { st with env := e } := of_same rfl rfl rfl rfl rfl

lemma setState (s : ConnState) : Tends st (st.setState s) := of_same rfl rfl rfl rfl rfl

lemma mapConn {f : Conn → Conn} (hkeep : (f st.conn).keepAlive = st.conn.keepAlive)
    (hwbuf : (f st.conn).wbuf = st.conn.wbuf) : Tends st (st.mapConn f) :=
  of_same rfl rfl rfl hkeep hwbuf

lemma opened (fd : ℤ) : Tends st (st.opened fd) := of_same rfl rfl rfl rfl rfl

lemma close (fd : ℤ) : Tends st (st.close fd) := ⟨.close fd, rfl, id⟩

lemma clientMod (events : Events) : Tends st (st.clientMod events) :=
  ⟨⟨⟨rfl, fun _ _ hc _ hh => eventLoopMod_spared hc hh⟩, rfl⟩, rfl, id⟩

lemma upstreamMod (fd : ℤ) (events : Events) : Tends st (st.upstreamMod fd events) :=
  ⟨⟨⟨rfl, fun _ _ _ hu hh => eventLoopMod_spared hu hh⟩, rfl⟩, rfl, id⟩

lemma onWbuf {f : NpBuf → NpBuf} (hf : ∀ b : NpBuf, b.Sound → (f b).Sound) :
    Tends st (st.onWbuf f) := of_wbuf rfl rfl rfl rfl rfl hf

lemma respond : Tends st st.respond :=
  of_wbuf (f := fun b => (bufWriteLoop b (onFd st.conn.fd .err st.env.clientWrites)).buf)
    rfl rfl rfl rfl rfl fun _ h => h.write _

lemma respondOnce : Tends st st.respondOnce :=
  of_wbuf (f := fun b => (bufWriteFd b (onFd st.conn.fd .err st.env.clientWrites)).buf)
    rfl rfl rfl rfl rfl fun _ h => h.writeOnce _

lemma nextRequest : Tends st st.nextRequest := (mapConn rfl rfl).trans (clientMod _)

lemma answerError (status : ℕ) (keepAlive : Bool) : Tends st (st.answerError status keepAlive) :=
  (onWbuf fun _ h => h.error status keepAlive).trans (setState _)

lemma answer {f : NpBuf → NpBuf} (hf : ∀ b : NpBuf, b.Sound → (f b).Sound) :
    Tends st (st.answer f) := (onWbuf hf).trans (setState _)

lemma turnAway (status : ℕ) (keepAlive : Bool) :
    Tends st ((((st.onWbuf (responseWriteError · status keepAlive)).countRequest status).act
      (.accessLog status)).setState .writingResponse) :=
  (((onWbuf fun _ h => h.error status keepAlive).trans (mapCtx _)).trans (act _)).trans (setState _)

/-! ### Files -/

lemma openRegular (name : List UInt8) : Tends st (st.openRegular name).2 := by
  rw [St.openRegular]
  simp only
  split
  · exact act _
  · split
    · exact (act _).trans (env _)
    · split
      · exact (act _).trans (env _)
      · split
        · exact ((act _).trans (env _)).trans (opened _)
        · exact (((act _).trans (env _)).trans (opened _)).trans (close _)

lemma tryFilesLoop (cfg : ServerConfig) (req : HttpRequest) (entries : List (List UInt8))
    (st : St) : Tends st (St.tryFilesLoop cfg req entries st).2 := by
  induction entries generalizing st with
  | nil => exact refl st
  | cons entry entries ih =>
    have hopen : Tends st (st.openRegular (tryFileName cfg req entry)).2 := openRegular _
    rw [St.tryFilesLoop]
    split <;> rename_i heq <;> rw [heq] at hopen
    · exact hopen
    · exact hopen.trans (ih _)

lemma findFile (req : HttpRequest) (cfg : ServerConfig) : Tends st (st.findFile req cfg).2 := by
  rw [St.findFile]
  split
  · exact tryFilesLoop _ _ _ _
  · have hopen : Tends st (st.openRegular (plainFileName st.env.junk cfg req)).2 := openRegular _
    simp only
    split <;> rename_i heq <;> rwa [heq] at hopen

lemma startFile (req : HttpRequest) (f : OpenFile) (name : List UInt8) :
    Tends st (st.startFile req f name) := by
  rw [St.startFile]
  refine trans ?_ (clientMod _)
  refine trans ?_ (mapConn rfl rfl)
  refine trans ?_ respondOnce
  exact onWbuf fun _ h => h.put _

lemma fileServerHandle (req : HttpRequest) (cfg : ServerConfig) :
    Tends st (st.fileServerHandle req cfg).2 := by
  have hfind : Tends st (st.findFile req cfg).2 := findFile req cfg
  rw [St.fileServerHandle]
  split
  · exact answerError _ _
  · split <;> rename_i heq <;> rw [heq] at hfind
    · exact hfind.trans (answerError _ _)
    · split
      · refine hfind.trans (trans ?_ (setState _))
        exact (close _).trans (onWbuf fun _ h => h.simple _ _ _ _ _ _)
      · exact hfind.trans (startFile _ _ _)

/-! ### Dispatch -/

lemma setReq (req : HttpRequest) : Tends st (st.setReq req) := mapConn rfl rfl

lemma alloc (size align : ℕ) : Tends st (st.alloc size align).2 := of_same rfl rfl rfl rfl rfl

lemma rewrite (req : HttpRequest) (server : ServerConfig) : Tends st (st.rewrite req server).2 := by
  rw [St.rewrite]
  split
  · exact refl st
  · rename_i path _
    have halloc : Tends st (st.alloc (path.length + 1) arenaAlign).2 := alloc _ _
    split <;> rename_i heq <;> rw [heq] at halloc
    · exact halloc
    · exact halloc.trans (setReq _)

lemma checkRate (req : HttpRequest) : Tends st (st.checkRate req).2 := by
  rw [St.checkRate]
  split
  · exact refl st
  · simp only
    exact mapCtx _

lemma lookupCache (req : HttpRequest) (i : ℕ) :
    (∀ st', (st.lookupCache req i).1 = some st' → Tends st st') ∧
      Tends st (st.lookupCache req i).2 := by
  have hlook (lookups : List (Option CacheEntry)) : Tends st
      { st.act (.cacheLookup i (cacheKeyFromRequest req 1024)) with
        env := { st.env with lookups := lookups } } := of_same rfl rfl rfl rfl rfl
  rw [St.lookupCache]
  split
  · simp only
    split
    · split
      · refine ⟨fun st' h => ?_, hlook _⟩
        obtain rfl := Option.some.inj h
        exact ((hlook _).trans (answer fun _ h => h.put _)).trans (act _)
      · exact ⟨by simp, hlook _⟩
    · exact ⟨by simp, hlook _⟩
  · exact ⟨by simp, refl st⟩

lemma noteCache (req : HttpRequest) (i : ℕ) : Tends st (st.noteCache req i) := by
  rw [St.noteCache]
  split
  · exact (act _).trans (mapConn rfl rfl)
  · exact refl st

lemma connected (be : Backend) : Tends st (st.connected be) := by
  rw [St.connected]
  cases st.nextConnect with
  | none => exact of_same rfl rfl rfl rfl rfl
  | some fd => exact of_same rfl rfl rfl rfl rfl

lemma startProxy (req : HttpRequest) (i b : ℕ) (ufd : ℤ) : Tends st (st.startProxy req i b ufd) :=
  ⟨⟨⟨rfl, fun _ _ _ hu hh => eventLoopAdd_spared hu hh⟩, rfl⟩, rfl, id⟩

lemma proxyHandle (req : HttpRequest) (i : ℕ) (pool : UpstreamPool) :
    Tends st (st.proxyHandle req i pool) := by
  have hpool : Tends st (st.mapConn fun c => { c with proxyPool := some i }) := mapConn rfl rfl
  rw [St.proxyHandle]
  refine hpool.trans ?_
  generalize st.mapConn (fun c => { c with proxyPool := some i }) = st0
  split
  · exact ((mapCtx _).trans (answerError _ _)).trans (mapCtx _)
  · rename_i b _ _
    split
    rename_i ufd pool' asked _
    have hconn : Tends st0 (if asked then (st0.setPool i pool').connected (pool'.backend b)
        else st0.setPool i pool') := by
      split
      · exact (mapCtx _).trans (connected _)
      · exact mapCtx _
    simp only
    split
    · exact hconn.trans (((mapCtx _).trans (answerError _ _)).trans (mapCtx _))
    · exact hconn.trans (startProxy _ _ _ _)

lemma routeServer (req : HttpRequest) (i : ℕ) : Tends st (st.routeServer req i) := by
  rw [St.routeServer]
  simp only
  split
  · exact (noteCache _ _).trans (proxyHandle _ _ _)
  · split
    · exact (fileServerHandle _ _).trans (act _)
    · exact turnAway 404 req.keepAlive

lemma route (req : HttpRequest) (i : ℕ) : Tends st (st.route req i) := by
  rw [St.route]
  split
  · exact (answer fun _ h => h.simple _ _ _ _ _ _).trans (act _)
  · split
    · exact (answer fun _ h => h.put _).trans (act _)
    · obtain ⟨hhit, hmiss⟩ : (∀ st', (st.lookupCache req i).1 = some st' → Tends st st') ∧
          Tends st (st.lookupCache req i).2 := lookupCache req i
      split <;> rename_i heq
      · exact hhit _ (by rw [heq])
      · rw [heq] at hmiss
        exact hmiss.trans (routeServer _ _)

lemma routeLimited (req : HttpRequest) (i : ℕ) : Tends st (st.routeLimited req i) := by
  have hrate : Tends st (st.checkRate req).2 := checkRate req
  rw [St.routeLimited]
  split <;> rename_i heq <;> rw [heq] at hrate
  · exact hrate.trans (turnAway 429 req.keepAlive)
  · exact hrate.trans (route _ _)

/-- **`handler_dispatch`** concerns no other connection, whichever exit it takes. -/
lemma handlerDispatch (req : HttpRequest) : Tends st (st.handlerDispatch req) := by
  have hstart : Tends st ((st.act (.dispatch req)).setReq
      { req with remoteIp := inetNtop st.conn.peer }) := (act _).trans (setReq _)
  rw [St.handlerDispatch]
  refine hstart.trans ?_
  rw [St.routeModules]
  split
  · exact (answer fun _ h => h.simple _ _ _ _ _ _).trans (act _)
  · exact (rewrite _ _).trans (routeLimited _ _)

/-! ### The upstream -/

lemma readUpstream (tape : List SysRead) : Tends st (st.readUpstream tape).2 := by
  rw [St.readUpstream]
  simp only
  split <;> exact of_same rfl rfl rfl rfl rfl

lemma settleUpstream (n : Ret) (fd : ℤ) : Tends st (st.settleUpstream n fd) := by
  have hstore : Tends st st.storeCache := by
    rw [St.storeCache]
    split
    · split
      · exact (act _).trans (mapConn rfl rfl)
      · exact refl st
    · exact refl st
  rw [St.settleUpstream]
  split
  · simp only
    split
    · refine hstore.trans (trans (?_ : Tends _ st.storeCache.logProxied) ?_)
      · rw [logProxied]
        split
        · exact act _
        · exact refl _
      · rw [putUpstream]
        split
        · exact refl _
        · split
          · exact (mapCtx _).trans (close _)
          · exact mapCtx _
    · exact hstore.trans (close _)
  · exact close _

end Tends

end St

end Nproxy
