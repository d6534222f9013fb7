import Nproxy.Proc.Frame

/-!
What an event handler does with its connection: it keeps it, or it gives it back
once.

* `Kept st st'`: the connection is still served. Its client's descriptor, its place
  in the heap and the pool are what they were; it may have got an upstream.
* `Released st st'`: the connection was given back, by one `conn_pool_put`, and none
  of its registrations is left.
* `onClientEvent_ends`, `proxyOnUpstreamEvent_ends`: a handler does the one or the
  other, if the read part of `on_client_event` does not give the connection back
  before the write part runs, and no second upstream is started beside the first.
-/

namespace Nproxy

/-- An action on the pool. -/
def Act.ofPool : Act → Bool
  | .poolGet | .poolPut _ => true
  | _ => false

lemma Act.ofPool_of_quiet {a : Act} (h : a.quiet = true) : a.ofPool = false := by
  cases a <;> simp_all [Act.quiet, Act.ofPool]

namespace St

/-- The connection is still served. -/
structure Kept (st st' : St) : Prop where
  self : st'.self = st.self
  fd : st'.conn.fd = st.conn.fd
  upstreamFd : st'.conn.upstreamFd = st.conn.upstreamFd ∨
    (st.conn.upstreamFd < 0 ∧ 0 ≤ st'.conn.upstreamFd)
  next : st'.conn.next = st.conn.next
  tunnel : st'.conn.state = .tunnel → st.conn.state = .tunnel ∨ 0 ≤ st'.conn.upstreamFd
  pool : st'.ws.pool = st.ws.pool
  maxFd : st'.ws.loop.maxFd = st.ws.loop.maxFd
  handlers : ∀ fd h, st'.ws.loop.handlers fd = some h →
    st.ws.loop.handlers fd = some h ∨ st'.Own fd h
  acts : ∃ as, st'.acts = st.acts ++ as ∧ ∀ a ∈ as, a.ofPool = false

/-- The connection was given back: its registrations are gone, and it is on the free list of the
pool, or freed if that list is full. -/
structure Released (st st' : St) : Prop where
  self : st'.self = st.self
  maxFd : st'.ws.loop.maxFd = st.ws.loop.maxFd
  handlers : ∀ fd h, st'.ws.loop.handlers fd = some h → st.ws.loop.handlers fd = some h ∧
    (0 ≤ fd → fd < st.ws.loop.maxFd → fd ≠ st.conn.fd ∧ fd ≠ st.conn.upstreamFd)
  put : ∃ as freed, st'.acts = st.acts ++ (as ++ [.poolPut freed]) ∧
    (∀ a ∈ as, a.ofPool = false) ∧
    if freed then st'.ws.pool = st.ws.pool
    else st.ws.pool.freeCount < st.ws.pool.maxFree ∧ st'.conn.next = st.ws.pool.freeHead ∧
      st'.ws.pool = ⟨some st.self, st.ws.pool.freeCount + 1, st.ws.pool.maxFree⟩

/-- Kept, or given back once. -/
def Ends (st st' : St) : Prop := Kept st st' ∨ Released st st'

variable {st st1 st' st'' : St}

/-! ### Composition -/

namespace Kept

lemma refl (st : St) : Kept st st :=
  ⟨rfl, rfl, Or.inl rfl, rfl, Or.inl, rfl, rfl, fun _ _ => Or.inl, [], by simp, by simp⟩

lemma upstreamFd_eq (h : Kept st st') (hup : 0 ≤ st.conn.upstreamFd) :
    st'.conn.upstreamFd = st.conn.upstreamFd := by
  rcases h.upstreamFd with h | ⟨h, -⟩
  · exact h
  · omega

/-- A registration of one's own stays one's own. -/
lemma own (h : Kept st st') {fd : ℤ} {r : EvHandler} (hown : st.Own fd r) : st'.Own fd r := by
  obtain ⟨hmax, hown⟩ := hown
  refine ⟨by rw [h.maxFd]; exact hmax, ?_⟩
  rw [h.self, h.fd]
  rcases hown with hown | ⟨hr, hfd, h0⟩
  · exact Or.inl hown
  · exact Or.inr ⟨hr, hfd.trans (h.upstreamFd_eq (hfd ▸ h0)).symm, h0⟩

lemma trans (h1 : Kept st st') (h2 : Kept st' st'') : Kept st st'' := by
  obtain ⟨as, has, hq⟩ := h1.acts
  obtain ⟨bs, hbs, hq'⟩ := h2.acts
  refine ⟨h2.self.trans h1.self, h2.fd.trans h1.fd, ?_, h2.next.trans h1.next, ?_,
    h2.pool.trans h1.pool, h2.maxFd.trans h1.maxFd, ?_, as ++ bs,
    by rw [hbs, has, List.append_assoc], ?_⟩
  · rcases h1.upstreamFd with heq | ⟨hneg, hpos⟩
    · rw [← heq]
      exact h2.upstreamFd
    · exact Or.inr ⟨hneg, by rw [h2.upstreamFd_eq hpos]; exact hpos⟩
  · intro ht
    rcases h2.tunnel ht with ht | hpos
    · rcases h1.tunnel ht with ht | hpos
      · exact Or.inl ht
      · exact Or.inr (by rw [h2.upstreamFd_eq hpos]; exact hpos)
    · exact Or.inr hpos
  · intro fd r hr
    rcases h2.handlers fd r hr with hr | hown
    · rcases h1.handlers fd r hr with hr | hown
      · exact Or.inl hr
      · exact Or.inr (h2.own hown)
    · exact Or.inr hown
  · intro a ha
    rcases List.mem_append.mp ha with ha | ha
    · exact hq a ha
    · exact hq' a ha

end Kept

lemma Steady.kept (h : Steady st st') : Kept st st' := by
  obtain ⟨as, has, hq, -⟩ := h.acts
  refine ⟨h.self, h.fd, Or.inl h.upstreamFd, h.next, fun ht => Or.inl (h.tunnel ht), h.pool,
    h.maxFd, ?_, as, has, fun a ha => Act.ofPool_of_quiet (hq a ha)⟩
  intro fd r hr
  rcases h.handlers fd r hr with hr | hown
  · exact Or.inl hr
  · right
    rw [Own, h.self, h.fd, h.upstreamFd, h.maxFd]
    exact hown

/-- Kept at first, then given back. -/
lemma Kept.released (hfd : 0 ≤ st.conn.fd) (h1 : Kept st st1) (h2 : Released st1 st') :
    Released st st' := by
  obtain ⟨as, has, hq⟩ := h1.acts
  obtain ⟨bs, freed, hbs, hq', hpool⟩ := h2.put
  refine ⟨h2.self.trans h1.self, h2.maxFd.trans h1.maxFd, ?_, as ++ bs, freed, ?_, ?_, ?_⟩
  · intro fd r hr
    obtain ⟨hr, hne⟩ := h2.handlers fd r hr
    rw [h1.maxFd, h1.fd] at hne
    rcases h1.handlers fd r hr with hr | hown
    · refine ⟨hr, fun h0 hmax => ⟨(hne h0 hmax).1, fun heq => (hne h0 hmax).2 ?_⟩⟩
      exact heq.trans (h1.upstreamFd_eq (heq ▸ h0)).symm
    · exfalso
      obtain ⟨hmax, ⟨-, rfl⟩ | ⟨-, hup, h0⟩⟩ := hown
      · rw [h1.fd, h1.maxFd] at hmax
        exact (hne (by rw [h1.fd]; exact hfd) (by rw [h1.fd]; exact hmax)).1 h1.fd
      · rw [h1.maxFd] at hmax
        exact (hne h0 hmax).2 hup
  · rw [hbs, has]
    simp
  · intro a ha
    rcases List.mem_append.mp ha with ha | ha
    · exact hq a ha
    · exact hq' a ha
  · rw [h1.pool, h1.self] at hpool
    exact hpool

lemma Kept.ends (hfd : 0 ≤ st.conn.fd) (h1 : Kept st st1) (h2 : Ends st1 st') : Ends st st' :=
  h2.imp h1.trans (h1.released hfd)

/-! ### Giving back -/

/-- A part of `conn_close`: it may close descriptors and clear registrations. -/
structure Closes (st st' : St) : Prop where
  self : st'.self = st.self
  pool : st'.ws.pool = st.ws.pool
  maxFd : st'.ws.loop.maxFd = st.ws.loop.maxFd
  handlers : ∀ fd r, st'.ws.loop.handlers fd = some r → st.ws.loop.handlers fd = some r
  acts : ∃ fds : List ℤ, st'.acts = st.acts ++ fds.map .close

lemma Closes.refl (st : St) : Closes st st := ⟨rfl, rfl, rfl, fun _ _ h => h, [], by simp⟩

lemma Closes.trans (h1 : Closes st st') (h2 : Closes st' st'') : Closes st st'' := by
  obtain ⟨fds, hacts⟩ := h1.acts
  obtain ⟨fds', hacts'⟩ := h2.acts
  exact ⟨h2.self.trans h1.self, h2.pool.trans h1.pool, h2.maxFd.trans h1.maxFd,
    fun fd r h => h1.handlers fd r (h2.handlers fd r h), fds ++ fds',
    by rw [hacts', hacts, List.map_append, List.append_assoc]⟩

lemma Closes.mapConn (f : Conn → Conn) : Closes st (st.mapConn f) :=
  ⟨rfl, rfl, rfl, fun _ _ h => h, [], by simp [St.mapConn]⟩

lemma Closes.close (fd : ℤ) : Closes st (st.close fd) :=
  ⟨rfl, rfl, rfl, fun _ _ h => h, [fd], rfl⟩

/-- What `event_loop_del` leaves of the table. -/
lemma mapLoop_del_handlers {fd fd' : ℤ} {r : EvHandler}
    (h : (st.mapLoop (eventLoopDel · fd)).ws.loop.handlers fd' = some r) :
    st.ws.loop.handlers fd' = some r ∧ (fd' < st.ws.loop.maxFd → fd' ≠ fd) := by
  simp only [mapLoop, eventLoopDel_handlers] at h
  split at h
  · exact ⟨h, by omega⟩
  · by_cases heq : fd' = fd
    · simp [heq] at h
    · rw [Function.update_of_ne heq] at h
      exact ⟨h, fun _ => heq⟩

lemma Closes.del (fd : ℤ) : Closes st (st.mapLoop (eventLoopDel · fd)) :=
  ⟨rfl, rfl, by simp [mapLoop], fun _ _ h => (mapLoop_del_handlers h).1, [], by simp [mapLoop]⟩

lemma Closes.closeClient : Closes st st.closeClient := by
  rw [St.closeClient]
  split
  · exact ((Closes.del _).trans (.close _)).trans (.mapConn _)
  · exact .refl st

lemma Closes.closeUpstream : Closes st st.closeUpstream := by
  rw [St.closeUpstream]
  split
  · exact ((Closes.del _).trans (.close _)).trans (.mapConn _)
  · exact .refl st

lemma Closes.closeFile : Closes st st.closeFile := by
  rw [St.closeFile]
  split
  · exact (Closes.close _).trans (.mapConn _)
  · exact .refl st

lemma Closes.connClose : Closes st st.connClose := by
  rw [St.connClose, setState]
  exact ((closeClient.trans closeUpstream).trans closeFile).trans (.mapConn _)

/-- `conn_close` clears the registrations of the connection. -/
lemma connClose_handlers {fd : ℤ} {r : EvHandler}
    (h : st.connClose.ws.loop.handlers fd = some r) (h0 : 0 ≤ fd) (hmax : fd < st.ws.loop.maxFd) :
    fd ≠ st.conn.fd ∧ fd ≠ st.conn.upstreamFd := by
  have hup : st.closeClient.conn.upstreamFd = st.conn.upstreamFd := by
    rw [closeClient]
    split <;> rfl
  replace h := Closes.closeFile.handlers fd r h
  constructor
  · rintro rfl
    replace h := Closes.closeUpstream.handlers _ _ h
    rw [closeClient, if_pos h0] at h
    exact (mapLoop_del_handlers h).2 hmax rfl
  · rintro rfl
    rw [closeUpstream, hup, if_pos h0] at h
    exact (mapLoop_del_handlers h).2 (by rw [Closes.closeClient.maxFd]; exact hmax) rfl

/-- `conn_close` changes the descriptors and the state. -/
lemma connClose_conn (st : St) : ∃ fd upstreamFd fileFd, st.connClose.conn =
    { st.conn with
      fd := fd, upstreamFd := upstreamFd, fileFd := fileFd, state := .closing } := by
  rw [connClose, closeFile, closeUpstream, closeClient]
  split_ifs <;> exact ⟨_, _, _, rfl⟩

/-- The object is given back with its buffers freed, or reset. -/
lemma connPoolPut_conn (st : St) :
    st.connPoolPut.conn = { st.connClose.conn with
      rbuf := bufFree st.connClose.conn.rbuf
      wbuf := bufFree st.connClose.conn.wbuf
      upstreamRbuf := bufFree st.connClose.conn.upstreamRbuf
      upstreamWbuf := bufFree st.connClose.conn.upstreamWbuf } ∨
    ∃ next, st.connPoolPut.conn = { connInitBufs st.connClose.conn with
      arena := arenaReset st.connClose.conn.arena, next := next } := by
  rw [connPoolPut]
  simp only
  split
  · exact Or.inl rfl
  · exact Or.inr ⟨_, rfl⟩

lemma connPoolPut_state (st : St) : st.connPoolPut.conn.state = .closing := by
  rcases connPoolPut_conn st with hput | ⟨next, hput⟩ <;> rw [hput] <;> rfl

lemma connPoolPut_acts (st : St) : ∃ (fds : List ℤ) (freed : Bool),
    st.connPoolPut.acts = st.acts ++ (fds.map .close ++ [.poolPut freed]) := by
  obtain ⟨fds, hacts⟩ := (Closes.connClose : Closes st st.connClose).acts
  rw [connPoolPut]
  simp only
  split
  · exact ⟨fds, true, by simp [act, mapConn, hacts]⟩
  · exact ⟨fds, false, by simp [mapConn, hacts]⟩

/-- **`conn_pool_put` gives the connection back.** -/
lemma connPoolPut_released (st : St) : Released st st.connPoolPut := by
  obtain ⟨hself, hpool, hmax, hsub, fds, hacts⟩ := (Closes.connClose : Closes st st.connClose)
  have hown : ∀ fd r, st.connClose.ws.loop.handlers fd = some r →
      st.ws.loop.handlers fd = some r ∧
        (0 ≤ fd → fd < st.ws.loop.maxFd → fd ≠ st.conn.fd ∧ fd ≠ st.conn.upstreamFd) :=
    fun fd r h => ⟨hsub fd r h, connClose_handlers h⟩
  rw [connPoolPut]
  simp only
  split
  · refine ⟨hself, hmax, hown, fds.map .close, true, ?_, ?_, hpool⟩
    · simp [act, mapConn, hacts]
    · simp [Act.ofPool]
  · rename_i hfull
    rw [hpool] at hfull
    refine ⟨hself, hmax, hown, fds.map .close, false, ?_, ?_, ?_⟩
    · simp [mapConn, hacts]
    · simp [Act.ofPool]
    · refine ⟨by omega, ?_, ?_⟩ <;> simp [mapConn, hself, hpool]

lemma workerConnClose_released (st : St) : Released st st.workerConnClose := by
  obtain ⟨h1, h2, h3, h4⟩ := connPoolPut_released
    { st with ws := { st.ws with activeConns := st.ws.activeConns - 1 } }
  exact ⟨h1, h2, h3, h4⟩

lemma Stays.putBack (hfd : 0 ≤ st.conn.fd) (h : Stays st st') : Ends st st'.connPoolPut :=
  Or.inr (h.kept.released hfd (connPoolPut_released st'))

lemma Stays.ends (h : Stays st st') : Ends st st' := Or.inl h.kept

/-! ### `handle_write` -/

lemma relay_kept (st : St) : Kept st st.relay :=
  ⟨rfl, rfl, Or.inl rfl, rfl, Or.inl, rfl, rfl, fun _ _ => Or.inl, [_], rfl, by simp [Act.ofPool]⟩

lemma writeFile_ends (hfd : 0 ≤ st.conn.fd) : Ends st st.writeFile := by
  have hloop : Stays st (if st.conn.fileRemaining > 0 then
      sendfileLoop (onFd st.conn.fd .err st.env.sendfiles) st else (false, st)).2 := by
    split
    · exact .sendfileLoop _ _
    · exact .refl st
  rw [writeFile]
  split <;> rename_i heq <;> rw [heq] at hloop
  · exact hloop.putBack hfd
  · split
    · simp only
      split
      · exact (hloop.trans .endFile).putBack hfd
      · exact ((hloop.trans .endFile).trans .nextRequest).ends
    · exact (hloop.trans (.clientMod _)).ends

lemma handleWrite_ends (hfd : 0 ≤ st.conn.fd) : Ends st st.handleWrite := by
  rw [handleWrite]
  split
  · have hhead : Stays st st.respondHead := .respondHead
    simp only
    split
    · exact (hhead.trans (.clientMod _)).ends
    · exact hhead.kept.ends hfd (writeFile_ends (by rw [hhead.fd]; exact hfd))
  · refine (relay_kept st).ends hfd ?_
    simp only
    split <;> exact (Stays.clientMod _).ends
  · refine (relay_kept st).ends hfd ?_
    simp only
    split <;> exact (Stays.clientMod _).ends
  · simp only
    split
    · split
      · exact Stays.respond.putBack hfd
      · exact (Stays.respond.trans .nextRequest).ends
    · exact Stays.respond.ends

/-! ### `handle_read` -/

/-- The client's stream ends, or its socket fails. -/
def ReadFails (st : St) : Prop :=
  let n := if st.conn.state = .tunnel then st.readTunnel.1 else st.readClient.1
  n = .closed ∨ n = .err

/-- What is read completes a request. -/
def Completes (st : St) : Prop :=
  st.conn.state ≠ .tunnel ∧ (parseFresh (bufBytes st.readClient.2.conn.rbuf)).1 = .done

lemma startProxy_kept {req : HttpRequest} {i b : ℕ} {ufd : ℤ} (hup : st.conn.upstreamFd < 0)
    (h0 : 0 ≤ ufd) : Kept st (st.startProxy req i b ufd) := by
  refine ⟨rfl, rfl, Or.inr ⟨hup, h0⟩, rfl, fun _ => Or.inr h0, rfl, by simp [startProxy, mapLoop,
    mapConn], ?_, [], by simp [startProxy, mapLoop, mapConn], by simp⟩
  intro fd r hr
  simp only [startProxy, mapLoop, mapConn, eventLoopAdd_handlers] at hr
  split at hr
  · exact Or.inl hr
  · rename_i hmax
    by_cases heq : fd = ufd
    · subst heq
      rw [Function.update_self] at hr
      obtain rfl := Option.some.inj hr
      refine Or.inr ⟨?_, Or.inr ⟨rfl, rfl, h0⟩⟩
      simp only [startProxy, mapLoop, mapConn, eventLoopAdd_maxFd]
      omega
    · rw [Function.update_of_ne heq] at hr
      exact Or.inl hr

lemma Dispatched.kept (h : Dispatched st st') (hup : st.conn.upstreamFd < 0) : Kept st st' := by
  rcases h with h | ⟨st1, req, i, b, ufd, h1, h0, rfl⟩
  · exact h.kept
  · exact h1.kept.trans (startProxy_kept (by rw [h1.upstreamFd]; exact hup) h0)

lemma afterDispatch_ends (hfd : 0 ≤ st.conn.fd) : Ends st st.afterDispatch := by
  rw [afterDispatch]
  split
  · exact Or.inl (.refl st)
  · simp only
    split
    · split
      · exact Stays.respond.putBack hfd
      · exact (Stays.respond.trans .nextRequest).ends
    · exact ((Stays.respond.trans (.setState (by decide))).trans (.clientMod _)).ends

lemma takeRequest_kept (ps : HttpParseState) (req : HttpRequest) :
    Kept st (st.takeRequest ps req) :=
  ⟨rfl, rfl, Or.inl rfl, rfl, Or.inl, rfl, rfl, fun _ _ => Or.inl, [],
    by simp [takeRequest, mapConn], by simp⟩

lemma acceptRequest_ends (hfd : 0 ≤ st.conn.fd) (hup : st.conn.upstreamFd < 0)
    (ps : HttpParseState) : Ends st (st.acceptRequest ps) := by
  have halloc : Stays st (st.alloc requestSize 8).2 := .alloc _ _
  rw [acceptRequest]
  split <;> rename_i heq <;> rw [heq] at halloc
  · exact halloc.putBack hfd
  · rename_i st1
    simp only
    generalize requestPopulate requestCreate ps (bufBytes st1.conn.rbuf) = req
    have hdisp := (halloc.kept.trans (takeRequest_kept ps req)).trans
      ((handlerDispatch_dispatched _ req).kept
        (by rw [takeRequest, mapConn]; exact halloc.upstreamFd ▸ hup))
    exact hdisp.ends hfd (afterDispatch_ends (by rw [hdisp.fd]; exact hfd))

lemma tunnelRead_cases (hfd : 0 ≤ st.conn.fd) (hstate : st.conn.state = .tunnel)
    (hup : 0 ≤ st.conn.upstreamFd) :
    Kept st st.tunnelRead ∨ (st.ReadFails ∧ Released st st.tunnelRead) := by
  have hread : Steady st st.readTunnel.2 := .readTunnel
  rw [tunnelRead]
  split
  rename_i n st1 heq
  rw [heq] at hread
  split
  · rename_i hn
    refine Or.inr ⟨?_, hread.kept.released hfd (workerConnClose_released st1)⟩
    rwa [ReadFails, if_pos hstate, heq]
  · left
    split
    · have hfwd : Steady st (st1.forwardAll st1.conn.upstreamFd) := hread.trans (.forwardAll _)
      have hup1 : 0 ≤ (st1.forwardAll st1.conn.upstreamFd).conn.upstreamFd := by
        rw [hfwd.upstreamFd]
        exact hup
      simp only
      split <;> exact hfwd.kept.trans (Stays.upstreamMod rfl hup1 _).kept
    · exact hread.kept

/-- **What `handle_read` does**, by what the client's socket says. -/
lemma handleRead_cases (hfd : 0 ≤ st.conn.fd)
    (htun : st.conn.state = .tunnel → 0 ≤ st.conn.upstreamFd) :
    Kept st st.handleRead ∨ (st.ReadFails ∧ Released st st.handleRead) ∨
      (st.Completes ∧ (st.conn.upstreamFd < 0 → Ends st st.handleRead)) := by
  rw [handleRead]
  split
  · rename_i hstate
    exact (tunnelRead_cases hfd hstate (htun hstate)).imp_right Or.inl
  · rename_i hstate
    have hread : Steady st st.readClient.2 := .readClient
    split
    rename_i n st1 heq
    rw [heq] at hread
    split
    · rename_i hn
      refine Or.inr (Or.inl ⟨?_, hread.kept.released hfd (connPoolPut_released st1)⟩)
      rwa [ReadFails, if_neg hstate, heq]
    · rw [parseRequests]
      split
      · exact Or.inl hread.kept
      · split
        · exact Or.inl hread.kept
        · exact Or.inl (hread.kept.trans (Stays.reject _ _ _).kept)
        · rename_i ps hparse
          refine Or.inr (Or.inr ⟨⟨hstate, by rw [heq, hparse]⟩, fun hup => ?_⟩)
          exact hread.kept.ends hfd (acceptRequest_ends (by rw [hread.fd]; exact hfd)
            (by rw [hread.upstreamFd]; exact hup) ps)

/-- **What `on_client_event` does.** With both bits set, the read part must leave the
connection alone. -/
lemma onClientEvent_ends {ev : Events} (hfd : 0 ≤ st.conn.fd)
    (htun : st.conn.state = .tunnel → 0 ≤ st.conn.upstreamFd)
    (hboth : ev.read = true → ev.write = true → ¬ st.ReadFails ∧ ¬ st.Completes)
    (hup : ev.read = true → st.Completes → st.conn.upstreamFd < 0) :
    Ends st (st.onClientEvent ev) := by
  rw [onClientEvent]
  split
  · exact (Stays.refl st).putBack hfd
  · simp only
    by_cases hread : ev.read = true
    · rw [if_pos hread]
      have hcases := handleRead_cases hfd htun
      by_cases hwrite : ev.write = true
      · obtain ⟨hfails, hcompl⟩ := hboth hread hwrite
        rw [if_pos hwrite]
        obtain h | ⟨h, -⟩ | ⟨h, -⟩ := hcases
        · exact h.ends hfd (handleWrite_ends (by rw [h.fd]; exact hfd))
        · exact absurd h hfails
        · exact absurd h hcompl
      · rw [if_neg hwrite]
        obtain h | ⟨-, h⟩ | ⟨hcompl, h⟩ := hcases
        · exact Or.inl h
        · exact Or.inr h
        · exact h (hup hread hcompl)
    · rw [if_neg hread]
      split
      · exact handleWrite_ends hfd
      · exact Or.inl (.refl st)

/-! ### `proxy_on_upstream_event` -/

lemma readUpstream_kept (tape : List SysRead) : Kept st (st.readUpstream tape).2 := by
  rw [readUpstream]
  simp only
  split
  · exact ⟨rfl, rfl, Or.inl rfl, rfl, Or.inl, rfl, rfl, fun _ _ => Or.inl, [_], rfl,
      by simp [Act.ofPool]⟩
  · exact ⟨rfl, rfl, Or.inl rfl, rfl, Or.inl, rfl, rfl, fun _ _ => Or.inl, [_], rfl,
      by simp [Act.ofPool]⟩
  · exact ⟨rfl, rfl, Or.inl rfl, rfl, Or.inl, rfl, rfl, fun _ _ => Or.inl, [], by simp,
      by simp⟩

lemma relayTurn_kept (st : St) : Kept st st.relayTurn :=
  (Stays.captureStatus.trans .captureCache).kept.trans (relay_kept _)

lemma upstreamLoop_kept (tape : List SysRead) (st : St) : Kept st (upstreamLoop tape st).2 := by
  induction tape generalizing st with
  | nil => exact readUpstream_kept []
  | cons r tape ih =>
    have hread : Kept st (st.readUpstream (r :: tape)).2 := readUpstream_kept _
    rw [upstreamLoop]
    split <;> rename_i heq <;> rw [heq] at hread
    · exact (hread.trans (relayTurn_kept _)).trans (ih _)
    · exact hread

/-- The upstream is unlinked before the connection is given back, so `conn_close`
does not see it; its registration is cleared here. -/
lemma Released.unlink {fd : ℤ} (hup : fd = st.conn.upstreamFd)
    (h : Released (st.unlinkUpstream fd) st') : Released st st' := by
  refine ⟨h.self, h.maxFd.trans (by simp [unlinkUpstream, mapConn, mapLoop]), ?_, h.put⟩
  intro fd' r hr
  obtain ⟨hr, hne⟩ := h.handlers fd' r hr
  obtain ⟨hr, hne'⟩ := mapLoop_del_handlers hr
  refine ⟨hr, fun h0 hmax => ⟨(hne h0 ?_).1, hup ▸ hne' hmax⟩⟩
  simpa [unlinkUpstream, mapConn, mapLoop] using hmax

lemma finishProxy_released {fd : ℤ} (hfd : 0 ≤ st.conn.fd) (hup : fd = st.conn.upstreamFd)
    (n : Ret) : Released st (st.finishProxy n fd) := by
  refine Released.unlink hup ?_
  exact (Stays.settleUpstream n fd).kept.released hfd (workerConnClose_released _)

lemma upstreamReadPart_ends {fd : ℤ} (hfd : 0 ≤ st.conn.fd) (h0 : 0 ≤ fd)
    (hup : fd = st.conn.upstreamFd) : Ends st (st.upstreamReadPart fd) := by
  have hkept := upstreamLoop_kept (onFd fd .err st.env.upstreamReads) st
  obtain ⟨n, st1, st2, hloop, hst2, hend⟩ := upstreamReadPart_cases st fd
  rw [hloop] at hkept
  have hmod : Kept st st2 := by
    rcases hst2 with rfl | rfl
    · exact hkept
    · exact hkept.trans (Stays.clientMod _).kept
  rcases hend with ⟨-, heq⟩ | ⟨-, heq⟩ <;> rw [heq]
  · refine Or.inr (hmod.released hfd (finishProxy_released ?_ ?_ n))
    · rw [hmod.fd]
      exact hfd
    · rw [hmod.upstreamFd_eq (hup ▸ h0)]
      exact hup
  · exact Or.inl hmod

/-- **What `proxy_on_upstream_event` does**, on the connection's own upstream. -/
lemma proxyOnUpstreamEvent_ends {fd : ℤ} (hfd : 0 ≤ st.conn.fd) (h0 : 0 ≤ fd)
    (hup : fd = st.conn.upstreamFd) (ev : Events) : Ends st (st.proxyOnUpstreamEvent fd ev) := by
  have hfwd : Steady st (st.forwardOnce fd).2 := .forwardOnce fd
  rcases proxyOnUpstreamEvent_parts st fd ev with heq | ⟨st1, -, hst1, heq⟩ <;> rw [heq]
  · have hanswer : Stays (st.forwardOnce fd).2
        ((st.forwardOnce fd).2.answerError 502 false).respondOnce :=
      (Stays.answerError _ _).trans .respondOnce
    exact Or.inr ((hfwd.kept.trans hanswer.kept).released hfd (workerConnClose_released _))
  · have h1 : Kept st st1 := by
      rcases hst1 with ⟨-, rfl⟩ | ⟨-, rfl | rfl⟩
      · exact .refl _
      · exact hfwd.kept
      · exact hfwd.kept.trans (Stays.upstreamMod (hup.trans hfwd.upstreamFd.symm) h0 _).kept
    split
    · refine h1.ends hfd (upstreamReadPart_ends (by rw [h1.fd]; exact hfd) h0 ?_)
      rw [h1.upstreamFd_eq (hup ▸ h0)]
      exact hup
    · exact Or.inl h1

end St

end Nproxy
