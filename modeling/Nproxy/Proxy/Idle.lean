import Nproxy.Proc.Backends

/-!
The idle connections of the backends over whole runs of a worker.

`proxy_on_upstream_event` gives a connection back to its backend when a read has returned
`NP_ERR_CLOSED`, and at no other time. So what `upstream_put_connection` keeps has been closed by
the other side.

* `Traced`: a worker, with the descriptors on which a read has found the end.
* `IdleLive`: none of them is kept for a backend, and none is handed out again.
* `Discards`: if the step ends a response, `keepalive_conns` leaves no room for the connection.
* `idleLive_iff`: the idle connections are live all along a run if and only if all of its steps
  are such.
* `keptRun_not_live`: a run in which the next request gets a connection that is closed.
-/

namespace Nproxy

/-! ### Pools with nothing in them -/

/-- The connections that are kept for a backend. -/
def Backend.idle (be : Backend) : List ℤ := be.idleFds.take be.idleCount

namespace UpstreamPool

/-- Nothing is kept for any backend, and there is room. -/
structure Drained (p : UpstreamPool) : Prop where
  count : ∀ b, (p.backend b).idleCount = 0
  room : ∀ b < p.backends.length, (p.backend b).idleFds.length = 64

variable {p : UpstreamPool} {b : ℕ}

lemma Drained.idle (h : p.Drained) (b : ℕ) : (p.backend b).idle = [] := by
  rw [Backend.idle, h.count b, List.take_zero]

lemma drained_create (cfg : ServerConfig) : (upstreamPoolCreate cfg).Drained := by
  refine ⟨fun b => ?_, fun b hb => ?_⟩ <;>
    rw [backend, upstreamPoolCreate, List.getD_eq_getElem?_getD, List.getElem?_map]
  · cases cfg.backends[b]? <;> rfl
  · rw [upstreamPoolCreate, List.length_map] at hb
    rw [List.getElem?_eq_getElem hb]
    exact List.length_replicate

/-- Counts and errors have nothing to do with it. -/
lemma Drained.modify (h : p.Drained) {f : Backend → Backend}
    (hf : ∀ be, (f be).idleCount = be.idleCount ∧ (f be).idleFds = be.idleFds) :
    (p.modify b f).Drained := by
  refine ⟨fun j => ?_, fun j hj => ?_⟩
  · rw [backend_modify_field Backend.idleCount (fun be => (hf be).1) j]
    exact h.count j
  · rw [length_modify] at hj
    rw [backend_modify_field Backend.idleFds (fun be => (hf be).2) j]
    exact h.room j hj

lemma Drained.upstreamSelect (h : p.Drained) : (upstreamSelect p).2.Drained := by
  rcases p.upstreamSelect_cases with heq | ⟨i, idx, -, -, heq⟩ <;> rw [heq]
  · exact h
  · have hidx : Drained { p with rrIndex := idx } := ⟨h.count, h.room⟩
    exact hidx.modify fun be => ⟨rfl, rfl⟩

lemma Drained.given (h : p.Drained) (connect : Option ℤ) : (p.given b connect).Drained := by
  have hselect := h.upstreamSelect
  rw [UpstreamPool.given, upstreamGetConnection, hselect.count b]
  exact hselect

lemma Drained.refused (h : p.Drained) (connect : Option ℤ) : (p.refused b connect).Drained := by
  refine (h.given connect).modify fun be => ?_
  simp only [↓reduceIte]
  constructor <;> repeat' split
  all_goals rfl

/-- `upstream_put_connection` closes the descriptor. -/
lemma put_of_nonpos (keepalive : ℤ) (hkeep : keepalive ≤ 0) (p : UpstreamPool) (b : ℕ) (fd : ℤ) :
    (upstreamPutConnection keepalive p b fd).1 = p := by
  rw [upstreamPutConnection, if_neg (by omega)]

/-- `upstream_put_connection` keeps the descriptor. -/
lemma Drained.put (h : p.Drained) (hb : b < p.backends.length) {keepalive : ℤ}
    (hkeep : 0 < keepalive) (fd : ℤ) :
    ((upstreamPutConnection keepalive p b fd).1.backend b).idle = [fd] := by
  have hcount := h.count b
  have hroom := h.room b hb
  obtain ⟨old, fds, hfds⟩ : ∃ old fds, (p.backend b).idleFds = old :: fds :=
    List.exists_cons_of_length_pos (by omega)
  rw [upstreamPutConnection, if_pos (by omega), backend_modify_self hb, Backend.idle, hcount, hfds]
  rfl

end UpstreamPool

/-! ### Reads that find the end -/

/-- A read of an upstream returned `NP_ERR_CLOSED`. -/
def Act.isEof : Act → Bool
  | .upstreamEof _ => true
  | _ => false

namespace St

variable {st st' : St}

lemma Carries.any_isEof (h : Carries st st') (heof : st.acts.any Act.isEof = true) :
    st'.acts.any Act.isEof = true := by
  obtain ⟨as, hacts, -⟩ := h
  rw [hacts, List.any_append, heof, Bool.true_or]

lemma readUpstream_isEof (st : St) (tape : List SysRead)
    (h : (st.readUpstream tape).1 = .closed) :
    (st.readUpstream tape).2.acts.any Act.isEof = true := by
  rw [readUpstream] at h ⊢
  cases hret : (bufReadFd st.conn.upstreamRbuf tape).ret with
  | closed => simp [act, Act.isEof]
  | ok n => cases n <;> simp [hret] at h
  | err => simp [hret] at h
  | again => simp [hret] at h

/-- The loop returns what its last read returned. -/
lemma upstreamLoop_isEof (tape : List SysRead) (st : St)
    (h : (upstreamLoop tape st).1 = .closed) :
    (upstreamLoop tape st).2.acts.any Act.isEof = true := by
  induction tape generalizing st with
  | nil => exact readUpstream_isEof st [] h
  | cons r tape ih =>
    have hread := readUpstream_isEof st (r :: tape)
    rw [upstreamLoop] at h ⊢
    split at h <;> rename_i heq <;> rw [heq] at hread
    · exact ih _ h
    · exact hread h

lemma UpstreamEnds.isEof {fd : ℤ} {ev : Events} (h : st.UpstreamEnds fd ev) :
    (st.proxyOnUpstreamEvent fd ev).acts.any Act.isEof = true := by
  obtain ⟨hwrite, hread, hret⟩ := h
  obtain ⟨-, heq⟩ := proxyOnUpstreamEvent_atRead hwrite
  rw [heq, if_pos hread]
  obtain ⟨n, st1, st2, hloop, hst2, hend⟩ := upstreamReadPart_cases (st.atRead fd ev) fd
  have hacts := upstreamLoop_isEof _ _ hret
  rw [readRet, hloop] at hret
  rw [hloop] at hacts
  have hst2acts : st2.acts.any Act.isEof = true := by
    rcases hst2 with rfl | rfl
    · exact hacts
    · exact hacts
  rcases hend with ⟨-, heq⟩ | ⟨hn, -⟩
  · rw [heq]
    exact (Carries.coversUpstream.finishProxy st2 n fd).any_isEof hst2acts
  · exact absurd (Or.inl hret) hn

/-! ### Handlers -/

/-- If the event ends a response, there is no room for the connection. -/
def Discards (st : St) (fd : ℤ) (ev : Events) : Prop :=
  st.UpstreamEnds fd ev → st.conn.state ≠ .tunnel → st.conn.tlsConn ≠ none →
    st.keepaliveConns ≤ 0

end St

/-- Nothing is kept for any backend. -/
def HandlerCtx.Drained (ctx : HandlerCtx) : Prop := ∀ i p, ctx.pool i = some p → p.Drained

lemma HandlerCtx.Drained.of_eq {ctx ctx' : HandlerCtx} (h : ctx.Drained)
    (hpools : ctx'.upstreamPools = ctx.upstreamPools) : ctx'.Drained := by
  intro i p hp
  rw [pool_of_eq hpools] at hp
  exact h i p hp

lemma HandlerCtx.Drained.of_set {ctx ctx' : HandlerCtx} {i : ℕ} {p p' : UpstreamPool}
    (h : ctx.Drained) (hp : ctx.pool i = some p)
    (hpools : ctx'.upstreamPools = ctx.upstreamPools.set i (some p')) (hp' : p'.Drained) :
    ctx'.Drained := by
  intro j q hq
  rw [pool_of_set hp hpools] at hq
  split at hq
  · obtain rfl := Option.some.inj hq
    exact hp'
  · exact h j q hq

namespace St

variable {st : St} {fd : ℤ} {ev : Events}

/-- A client's event gives nothing back. -/
lemma drained_onClientEvent (st : St) (h : st.ws.hctx.Drained) (ev : Events) :
    (st.onClientEvent ev).ws.hctx.Drained := by
  rcases st.onClientEvent_quiet_or_moves ev with ⟨-, hquiet⟩ | ⟨-, hmoves⟩
  · exact h.of_eq hquiet.pools
  · cases hmoves with
    | leaves hpools htls hserving => exact h.of_eq hpools
    | fails i b p connect hp hb hpools htls hserving =>
      exact h.of_set hp hpools ((h i p hp).refused connect)
    | starts i b p connect hp hb hpools htls hserving =>
      exact h.of_set hp hpools ((h i p hp).given connect)

/-- An upstream's event gives nothing back if there is no room. -/
lemma Discards.drained (hdiscards : st.Discards fd ev) (h : st.ws.hctx.Drained) :
    (st.proxyOnUpstreamEvent fd ev).ws.hctx.Drained := by
  rcases st.proxyOnUpstreamEvent_backing fd ev with ⟨-, hrests⟩ | ⟨-, hback, -⟩ |
    ⟨hwrite, hread, -, hfinished⟩
  · exact h.of_eq hrests.quiet.pools
  · exact h.of_eq (congrArg Prod.fst hback)
  · rcases hfinished.pools with ⟨i, b, p, hdone, hpools⟩ | ⟨-, hpools⟩
    · have hkeep : st.keepaliveConns ≤ 0 := hdiscards ⟨hwrite, hread, hdone.closed⟩ hdone.state
        (by rw [hdone.tlsConn]; exact Option.some_ne_none _)
      rw [UpstreamPool.put_of_nonpos _ hkeep] at hpools
      exact h.of_set hdone.pool hpools (h i p hdone.pool)
    · exact h.of_eq hpools

/-- **Otherwise the connection that has ended is kept.** -/
lemma kept_of_not_discards (hnot : ¬st.Discards fd ev) (h : st.ws.hctx.Drained)
    (hback : ∀ i b, st.conn.tlsConn = some (i, b) → Worker.HasBackend st.ws.hctx i b) :
    (st.proxyOnUpstreamEvent fd ev).acts.any Act.isEof = true ∧
      ∃ i p b, (st.proxyOnUpstreamEvent fd ev).ws.hctx.pool i = some p ∧
        fd ∈ (p.backend b).idle := by
  simp only [Discards, not_forall, not_le] at hnot
  obtain ⟨hends, hstate, htls, hkeep⟩ := hnot
  obtain ⟨⟨i, b⟩, hib⟩ := Option.ne_none_iff_exists'.mp htls
  obtain ⟨p, hp, hb⟩ := hback i b hib
  refine ⟨hends.isEof, i, (upstreamPutConnection st.keepaliveConns p b fd).1, b, ?_, ?_⟩
  · rcases st.proxyOnUpstreamEvent_backing fd ev with ⟨hlasts, -⟩ | ⟨hfails, -⟩ |
      ⟨-, -, -, hfinished⟩
    · exact absurd (Or.inl hends.2.2) (hlasts.2 hends.2.1)
    · exact absurd hfails.2 (hends.1 hfails.1)
    · rcases hfinished.pools with ⟨i', b', p', hdone, hpools⟩ | ⟨hnone, -⟩
      · obtain ⟨rfl, rfl⟩ := Prod.mk.inj (Option.some.inj (hib.symm.trans hdone.tlsConn))
        obtain rfl := Option.some.inj (hp.symm.trans hdone.pool)
        rw [pool_of_set hp hpools, if_pos rfl]
      · exact absurd ⟨hends.2.2, hstate, hib, hp⟩ (hnone i b p)
  · rw [(h i p hp).put hb hkeep]
    exact List.mem_singleton_self fd

end St

/-! ### Runs -/

namespace Worker

/-- The descriptors on which the step reads to the end. -/
def readsEnd (w : Worker) : Input → Finset ℤ
  | .wait _ => ∅
  | .handle env _ =>
    match w.pending with
    | (⟨.upstream c, fd⟩, ev) :: _ =>
      if ((w.handlerState c env).proxyOnUpstreamEvent fd ev).acts.any Act.isEof then {fd} else ∅
    | _ => ∅

/-- If the step ends a response, there is no room for the connection. -/
def Discards (w : Worker) : Input → Prop
  | .wait _ => True
  | .handle env _ =>
    match w.pending with
    | (⟨.upstream c, fd⟩, ev) :: _ => (w.handlerState c env).Discards fd ev
    | _ => True

variable {w : Worker}

lemma BackendsStart.drained (h : w.BackendsStart) : w.ws.hctx.Drained := by
  intro i p hp
  obtain ⟨cfg, rfl⟩ := h.pools i p hp
  exact UpstreamPool.drained_create cfg

/-- A step that gives nothing back. -/
lemma Discards.step {i : Input} (hi : w.Discards i) (h : w.ws.hctx.Drained) :
    (w.step i).ws.hctx.Drained := by
  cases i with
  | wait events =>
    rw [Worker.step]
    split <;> exact h
  | handle env accepts =>
    rw [Worker.step]
    rw [Discards] at hi
    cases hpending : w.pending with
    | nil => exact h
    | cons e pending =>
      rw [hpending] at hi
      obtain ⟨⟨fn, fd⟩, ev⟩ := e
      cases fn with
      | accept =>
        exact h.of_eq (congrArg _ (hctx_onAcceptEvent accepts { w with pending := pending }))
      | signal => exact h
      | client c => exact St.drained_onClientEvent (w.handlerState c env) h ev
      | upstream c => exact St.Discards.drained hi h

/-- Any other step keeps a connection that it has read to its end. -/
lemma kept_of_not_discards {i : Input} (hi : ¬w.Discards i) (h : w.ws.hctx.Drained)
    (hback : w.Backed) : ∃ fd ∈ w.readsEnd i, ∃ j p b, (w.step i).ws.hctx.pool j = some p ∧
      fd ∈ (p.backend b).idle := by
  cases i with
  | wait events => exact absurd trivial hi
  | handle env accepts =>
    rw [Worker.step, readsEnd]
    rw [Discards] at hi
    cases hpending : w.pending with
    | nil =>
      rw [hpending] at hi
      exact absurd trivial hi
    | cons e pending =>
      rw [hpending] at hi
      obtain ⟨⟨fn, fd⟩, ev⟩ := e
      cases fn with
      | accept => exact absurd trivial hi
      | signal => exact absurd trivial hi
      | client c => exact absurd trivial hi
      | upstream c =>
        obtain ⟨heof, hkept⟩ := St.kept_of_not_discards hi h (hback c)
        refine ⟨fd, ?_, hkept⟩
        simp only [heof, if_true]
        exact Finset.mem_singleton_self fd

end Worker

/-- A worker, with the descriptors that have been read to their end since they were opened. -/
structure Traced where
  worker : Worker
  closed : Finset ℤ

namespace Traced

/-- A step of the worker. A descriptor that it opens is a new one, whatever its number was
used for before. -/
def step (t : Traced) (i : Input) : Traced where
  worker := t.worker.step i
  closed :=
    {fd ∈ t.closed | fd ∈ t.worker.ws.openFds ∨ fd ∉ (t.worker.step i).ws.openFds} ∪
      t.worker.readsEnd i

/-- **The idle connections are live**: none of those that are kept, and none that
`upstream_get_connection` takes from them, was read to its end. -/
structure IdleLive (t : Traced) : Prop where
  idle : ∀ i p, t.worker.ws.hctx.pool i = some p → ∀ b, ∀ fd ∈ (p.backend b).idle, fd ∉ t.closed
  given : ∀ i p, t.worker.ws.hctx.pool i = some p → ∀ b connect,
    (upstreamGetConnection p b connect).2.2 = false →
      (upstreamGetConnection p b connect).1 ∉ t.closed

lemma worker_step (t : Traced) (i : Input) : (t.step i).worker = t.worker.step i := rfl

lemma idleLive_of_drained {t : Traced} (h : t.worker.ws.hctx.Drained) : t.IdleLive := by
  refine ⟨fun i p hp b fd hfd => ?_, fun i p hp b connect hidle => ?_⟩
  · rw [(h i p hp).idle] at hfd
    cases hfd
  · rw [upstreamGetConnection, (h i p hp).count] at hidle
    cases hidle

/-- **The idle connections are live all along a run if and only if no step of it ends a
response on a connection that `keepalive_conns` leaves room for.** -/
theorem idleLive_iff (w : Worker) (hw : w.BackendsStart) (is : List Input) :
    (∀ js, js <+: is → (Run.run step ⟨w, ∅⟩ js).IdleLive) ↔
      Run.Along Worker.step Worker.Discards w is := by
  rw [← Run.along_comap worker_step ⟨w, ∅⟩]
  refine Run.forall_prefix_iff_along
    (Q := fun t : Traced => t.worker.Backed ∧ t.worker.ws.hctx.Drained)
    (fun _ h => idleLive_of_drained h.2)
    (fun _ i h hi => ⟨h.1.step i, Worker.Discards.step hi h.2⟩) ?_ ⟨hw.backed, hw.drained⟩ is
  rintro t i ⟨hback, hdrained⟩ hi hlive
  obtain ⟨fd, hend, j, p, b, hp, hidle⟩ := Worker.kept_of_not_discards hi hdrained hback
  exact hlive.idle j p hp b fd hidle (Finset.mem_union_right _ hend)

/-- The backend closes after its answer and the connection is not kept, so that no idle connection
is dead at any time. -/
theorem idleLive_iff_backendServer : (Worker.ofServer backendServer).BackendsStart ∧
    Run.Along Worker.step Worker.Discards (Worker.ofServer backendServer)
      (Worker.askedRun ++ [.handle Worker.answered []]) ∧
    ∀ js, js <+: Worker.askedRun ++ [.handle Worker.answered []] →
      (Run.run step ⟨Worker.ofServer backendServer, ∅⟩ js).IdleLive := by
  have hstart := Worker.ofServer_start backendServer
  have hdiscards : Run.Along Worker.step Worker.Discards (Worker.ofServer backendServer)
      (Worker.askedRun ++ [.handle Worker.answered []]) := by
    refine ⟨trivial, trivial, trivial, trivial, trivial, fun _ _ _ => ?_, trivial⟩
    decide +kernel
  exact ⟨hstart, hdiscards, (idleLive_iff _ hstart _).mpr hdiscards⟩

/-- A server that keeps connections. -/
def keepingServer : ServerConfig := { backendServer with keepaliveConns := 16 }

/-- A response is complete. Then a client comes and asks for a page. -/
def keptRun : List Input :=
  Worker.askedRun ++ .handle Worker.answered [] :: List.flatten [clientComes,
    oneEvent (.client 0) 4 inEvent { idleEnv with
      clientReads := [.data (List.flatten [bytes "GET / HTTP/1.1", crlf, crlf])] } []]

/-- **The second request gets the connection that the backend has closed.** -/
theorem keptRun_not_live : (Worker.ofServer keepingServer).BackendsStart ∧
    ¬(Run.run step ⟨Worker.ofServer keepingServer, ∅⟩
      (Worker.askedRun ++ [.handle Worker.answered []])).IdleLive ∧
    (Run.run step ⟨Worker.ofServer keepingServer, ∅⟩ keptRun).closed = {5} ∧
    ((Run.run step ⟨Worker.ofServer keepingServer, ∅⟩ keptRun).worker.heap 0).upstreamFd = 5 := by
  refine ⟨Worker.ofServer_start keepingServer, fun h => ?_, by decide +kernel, by decide +kernel⟩
  have hidle : ((Run.run step ⟨Worker.ofServer keepingServer, ∅⟩
      (Worker.askedRun ++ [.handle Worker.answered []])).worker.ws.hctx.pool 0).map
        (fun p => (p.backend 0).idle) = some [5] := by decide +kernel
  obtain ⟨p, hp, hp5⟩ := Option.map_eq_some_iff.mp hidle
  exact h.idle 0 p hp 0 5 (by rw [hp5]; exact List.mem_singleton_self 5) (by decide +kernel)

end Traced

end Nproxy
