import Nproxy.Proc.Finishing

/-!
The backends of a worker, over its runs.

* `Worker.Backed`: `tls_conn` of every connection is a backend that there is. No step makes it
  point elsewhere, since pools keep their number of backends (`Backed.step`).
* `Worker.acceptOne_cases`: accepting a client resets an object and leaves the pools alone.
-/

namespace Nproxy

/-! ### What the pools keep -/

namespace UpstreamPool

variable {p : UpstreamPool} {b : ℕ} {connect : Option ℤ}

lemma lt_of_upstreamSelect (hb : (upstreamSelect p).1 = some b) : b < p.backends.length := by
  rcases p.upstreamSelect_cases with heq | ⟨i, idx, hi, -, heq⟩ <;> rw [heq] at hb
  · cases hb
  · obtain rfl := Option.some.inj hb
    exact hi

lemma length_given (p : UpstreamPool) (b : ℕ) (connect : Option ℤ) :
    (p.given b connect).backends.length = p.backends.length := by
  rw [given, upstreamGetConnection]
  simp only
  split
  · rw [length_modify, length_upstreamSelect]
  · exact p.length_upstreamSelect

lemma length_refused (p : UpstreamPool) (b : ℕ) (connect : Option ℤ) :
    (p.refused b connect).backends.length = p.backends.length := by
  rw [refused, upstreamRelease, length_modify, length_given]

lemma length_put (keepalive : ℤ) (p : UpstreamPool) (b : ℕ) (fd : ℤ) :
    (upstreamPutConnection keepalive p b fd).1.backends.length = p.backends.length := by
  rw [upstreamPutConnection]
  split
  · exact length_modify ..
  · rfl

end UpstreamPool

lemma pool_of_set {ctx ctx' : HandlerCtx} {i : ℕ} {p p' : UpstreamPool}
    (hp : ctx.pool i = some p)
    (hpools : ctx'.upstreamPools = ctx.upstreamPools.set i (some p')) (j : ℕ) :
    ctx'.pool j = if j = i then some p' else ctx.pool j := by
  rw [HandlerCtx.pool, Option.join_eq_some_iff] at hp
  obtain ⟨hi, -⟩ := List.getElem?_eq_some_iff.mp hp
  rw [HandlerCtx.pool, HandlerCtx.pool, hpools, List.getElem?_set]
  by_cases hji : j = i
  · subst hji
    rw [if_pos rfl, if_pos rfl, if_pos hi, Option.join_some]
  · rw [if_neg (Ne.symm hji), if_neg hji]

lemma pool_of_eq {ctx ctx' : HandlerCtx} (hpools : ctx'.upstreamPools = ctx.upstreamPools)
    (i : ℕ) : ctx'.pool i = ctx.pool i := by
  rw [HandlerCtx.pool, HandlerCtx.pool, hpools]

/-! ### The worker -/

namespace Worker

/-- No connection has been proxied yet, and the pools are new. -/
structure BackendsStart (w : Worker) : Prop where
  conns : ∀ c, (w.heap c).tlsConn = none
  pools : ∀ i p, w.ws.hctx.pool i = some p → ∃ cfg, p = upstreamPoolCreate cfg

/-- There is a backend of this index. -/
def HasBackend (ctx : HandlerCtx) (i b : ℕ) : Prop :=
  ∃ p, ctx.pool i = some p ∧ b < p.backends.length

/-- `tls_conn` of a connection is a backend. -/
def Backed (w : Worker) : Prop :=
  ∀ c i b, (w.heap c).tlsConn = some (i, b) → HasBackend w.ws.hctx i b

variable {w : Worker} {c : ConnId} {env : Env} {f : St → St}

lemma BackendsStart.backed (h : w.BackendsStart) : w.Backed := by
  intro c i b htls
  rw [h.conns c] at htls
  cases htls

lemma HasBackend.of_set {ctx ctx' : HandlerCtx} {i j b : ℕ} {p p' : UpstreamPool}
    (h : HasBackend ctx j b) (hp : ctx.pool i = some p)
    (hpools : ctx'.upstreamPools = ctx.upstreamPools.set i (some p'))
    (hlen : p'.backends.length = p.backends.length) : HasBackend ctx' j b := by
  obtain ⟨q, hq, hb⟩ := h
  by_cases hji : j = i
  · subst hji
    obtain rfl := Option.some.inj (hp.symm.trans hq)
    exact ⟨p', by rw [pool_of_set hp hpools, if_pos rfl], by rwa [hlen]⟩
  · exact ⟨q, by rw [pool_of_set hp hpools, if_neg hji]; exact hq, hb⟩

lemma HasBackend.of_eq {ctx ctx' : HandlerCtx} {j b : ℕ} (h : HasBackend ctx j b)
    (hpools : ctx'.upstreamPools = ctx.upstreamPools) : HasBackend ctx' j b := by
  obtain ⟨q, hq, hb⟩ := h
  exact ⟨q, (pool_of_eq hpools j).trans hq, hb⟩

/-- The backends stay, and the connection points to one of them. -/
def KeepsBackends (st st' : St) : Prop :=
  (∀ j b, HasBackend st.ws.hctx j b → HasBackend st'.ws.hctx j b) ∧
    ∀ j b, st'.conn.tlsConn = some (j, b) →
      st.conn.tlsConn = some (j, b) ∨ HasBackend st'.ws.hctx j b

section KeepsBackends

variable {st st' : St}

lemma keepsBackends_of_eq (hpools : st'.ws.hctx.upstreamPools = st.ws.hctx.upstreamPools)
    (htls : st'.conn.tlsConn = st.conn.tlsConn) : KeepsBackends st st' :=
  ⟨fun _ _ h => h.of_eq hpools, fun _ _ h => Or.inl (htls ▸ h)⟩

lemma keepsBackends_of_set {i : ℕ} {p p' : UpstreamPool} (hp : st.ws.hctx.pool i = some p)
    (hpools : st'.ws.hctx.upstreamPools = st.ws.hctx.upstreamPools.set i (some p'))
    (hlen : p'.backends.length = p.backends.length)
    (htls : st'.conn.tlsConn = st.conn.tlsConn) : KeepsBackends st st' :=
  ⟨fun _ _ h => h.of_set hp hpools hlen, fun _ _ h => Or.inl (htls ▸ h)⟩

lemma keepsBackends_of_moves (h : St.Moves st st') : KeepsBackends st st' := by
  cases h with
  | leaves hpools htls hserving => exact keepsBackends_of_eq hpools htls
  | fails i b p connect hp hb hpools htls hserving =>
    exact keepsBackends_of_set hp hpools (p.length_refused b connect) htls
  | starts i b p connect hp hb hpools htls hserving =>
    have hstay : ∀ j b', HasBackend st.ws.hctx j b' → HasBackend st'.ws.hctx j b' :=
      fun j b' hjb => hjb.of_set hp hpools (p.length_given b connect)
    refine ⟨hstay, fun j b' h => Or.inr ?_⟩
    obtain ⟨rfl, rfl⟩ := Prod.mk.inj (Option.some.inj (htls.symm.trans h))
    exact hstay _ _ ⟨p, hp, UpstreamPool.lt_of_upstreamSelect hb⟩

lemma keepsBackends_of_drops {fd : ℤ} (h : St.Drops st fd st') : KeepsBackends st st' := by
  rcases h with h | ⟨n, h⟩
  · exact keepsBackends_of_moves h
  · rcases h.pools with ⟨i, b, p, hdone, hpools⟩ | ⟨-, hpools⟩
    · exact keepsBackends_of_set hdone.pool hpools (UpstreamPool.length_put _ p b fd) h.tlsConn
    · exact keepsBackends_of_eq hpools h.tlsConn

lemma keepsBackends_client (st : St) (ev : Events) : KeepsBackends st (st.onClientEvent ev) := by
  rcases st.onClientEvent_quiet_or_moves ev with ⟨-, h⟩ | ⟨-, h⟩
  · exact keepsBackends_of_eq h.pools h.tlsConn
  · exact keepsBackends_of_moves h

lemma keepsBackends_upstream (st : St) (fd : ℤ) (ev : Events) :
    KeepsBackends st (st.proxyOnUpstreamEvent fd ev) := by
  rcases st.proxyOnUpstreamEvent_quiet_or_drops fd ev with ⟨-, h⟩ | ⟨-, h⟩
  · exact keepsBackends_of_eq h.pools h.tlsConn
  · exact keepsBackends_of_drops h

end KeepsBackends

lemma Backed.runOn (h : w.Backed)
    (hf : KeepsBackends (w.handlerState c env) (f (w.handlerState c env))) :
    (w.runOn c env f).Backed := by
  obtain ⟨hstay, htls⟩ := hf
  intro d i b hd
  rw [runOn_ws]
  -- the handler writes `tls_conn` of its own connection alone, but all see its pools
  by_cases hdc : d = c
  · subst hdc
    rw [runOn_heap_self] at hd
    rcases htls i b hd with hold | hnew
    · exact hstay i b (h d i b hold)
    · exact hnew
  · rw [runOn_heap_of_ne hdc] at hd
    exact hstay i b (h d i b hd)

/-- Accepting a client resets an object, and leaves the pools alone. -/
lemma acceptOne_cases (w : Worker) (fd : ℤ) (peer : InAddr) (alloc : Option ℕ) :
    (w.connPoolGet fd peer alloc = none ∧ w.acceptOne fd peer alloc = w) ∨
      ∃ c w', w.connPoolGet fd peer alloc = some (c, w') ∧
        (w.acceptOne fd peer alloc).ws.hctx = w.ws.hctx ∧
        ∃ conn : Conn, (w.acceptOne fd peer alloc).heap = Function.update w.heap c conn ∧
          conn.tlsConn = none := by
  rw [acceptOne]
  cases hget : w.connPoolGet fd peer alloc with
  | none => exact Or.inl ⟨rfl, rfl⟩
  | some r =>
    obtain ⟨c, w'⟩ := r
    refine Or.inr ⟨c, w', rfl, ?_⟩
    rw [connPoolGet.eq_def] at hget
    split at hget
    · obtain ⟨rfl, rfl⟩ := Prod.mk.inj (Option.some.inj hget)
      exact ⟨rfl, _, rfl, rfl⟩
    · split at hget
      · cases hget
      · obtain ⟨rfl, rfl⟩ := Prod.mk.inj (Option.some.inj hget)
        exact ⟨rfl, _, rfl, rfl⟩

lemma Backed.acceptOne (h : w.Backed) (fd : ℤ) (peer : InAddr) (alloc : Option ℕ) :
    (w.acceptOne fd peer alloc).Backed := by
  rcases acceptOne_cases w fd peer alloc with ⟨-, heq⟩ | ⟨c, w', -, hctx, conn, hheap, htls⟩
  · rw [heq]
    exact h
  · intro d i b hd
    rw [hctx]
    by_cases hdc : d = c
    · subst hdc
      rw [hheap, Function.update_self, htls] at hd
      cases hd
    · rw [hheap, Function.update_of_ne hdc] at hd
      exact h d i b hd

lemma hctx_acceptOne (w : Worker) (fd : ℤ) (peer : InAddr) (alloc : Option ℕ) :
    (w.acceptOne fd peer alloc).ws.hctx = w.ws.hctx := by
  rcases acceptOne_cases w fd peer alloc with ⟨-, heq⟩ | ⟨c, w1, -, hctx, -⟩
  · rw [heq]
  · exact hctx

lemma hctx_onAcceptEvent (accepts : List SysAccept) (w : Worker) :
    (onAcceptEvent accepts w).ws.hctx = w.ws.hctx :=
  onAcceptEvent_invariant (P := fun w' => w'.ws.hctx = w.ws.hctx)
    (fun w' fd peer alloc _ h => (hctx_acceptOne w' fd peer alloc).trans h) accepts rfl

/-- **Every step keeps this**, since no handler changes which backends there are. -/
lemma Backed.step (h : w.Backed) (i : Input) : (w.step i).Backed :=
  step_invariant (fun _ _ h => h) (fun _ fd peer alloc _ h => h.acceptOne fd peer alloc)
    (fun _ _ _ ev h => h.runOn (keepsBackends_client _ ev))
    (fun _ _ _ fd ev h => h.runOn (keepsBackends_upstream _ fd ev)) h i

/-! ### A worker with these backends -/

/-- The worker of one server as it starts. -/
def ofServer (server : ServerConfig) : Worker :=
  { backendWorker with ws := { backendWorker.ws with
      hctx := ⟨⟨[server], bytes "/metrics"⟩, [], [some (upstreamPoolCreate server)], [true], none,
        none⟩ } }

lemma ofServer_start (server : ServerConfig) : (ofServer server).BackendsStart := by
  refine ⟨fun c => rfl, fun i p hp => ?_⟩
  cases i with
  | zero => exact ⟨server, (Option.some.inj hp).symm⟩
  | succ i => cases hp

/-- A client asks for a page, and the backend's event is there. -/
def askedRun : List Input :=
  List.flatten [clientComes, clientAsks "/", [.wait [(⟨.upstream 0, 5⟩, inEvent)]]]

/-- The backend answers and closes, and the client gets all of it. -/
def answered : Env :=
  { idleEnv with
    upstreamReads := [.data (bytes "HTTP/1.1 200 OK"), .data []]
    clientWrites := [.wrote 65536] }

end Worker

end Nproxy
