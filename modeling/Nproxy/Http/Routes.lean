import Nproxy.Cache.Hit

/-!
The exits of `handler_dispatch`, where no module is loaded.

Every exit has a status: the one that it hands to `access_log_write`, or, where
`proxy_handle` answers by itself and nothing is logged, that of its answer. Two of the exits
call `metrics_inc_requests`.

* `Route`: the exits. `dispatchRoute` says by which of them a request leaves.
* `Leaves`: what an exit does to the counters of requests and writes to the access log.
* `handlerDispatch_leaves`: `handler_dispatch` does what its exit says.
-/

namespace Nproxy

/-! ### The counters of requests -/

/-- The counters that `metrics_inc_requests` changes. -/
structure RequestCounts where
  requestsTotal : UInt64
  requests2xx : UInt64
  requests4xx : UInt64
  requests5xx : UInt64
  deriving DecidableEq

/-- The counters of requests among all counters. -/
def Metrics.requestCounts (m : Metrics) : RequestCounts :=
  ⟨m.requestsTotal, m.requests2xx, m.requests4xx, m.requests5xx⟩

/-- The modules and the counters of requests. -/
def HandlerCtx.meter (ctx : HandlerCtx) : List Module × Option RequestCounts :=
  (ctx.modules, ctx.metrics.map Metrics.requestCounts)

/-- `metrics_inc_requests`, on these counters. -/
def RequestCounts.inc (t : RequestCounts) (status : ℕ) : RequestCounts :=
  let t := { t with requestsTotal := t.requestsTotal + 1 }
  if status ≥ 200 ∧ status < 300 then { t with requests2xx := t.requests2xx + 1 }
  else if status ≥ 400 ∧ status < 500 then { t with requests4xx := t.requests4xx + 1 }
  else if status ≥ 500 then { t with requests5xx := t.requests5xx + 1 }
  else t

lemma requestCounts_metricsIncRequests (m : Option Metrics) (status : ℕ) :
    (metricsIncRequests m status).map Metrics.requestCounts =
      (m.map Metrics.requestCounts).map (·.inc status) := by
  cases m with
  | none => rfl
  | some m =>
    simp only [metricsIncRequests, Option.map_some, RequestCounts.inc, Option.some.injEq]
    split_ifs <;> rfl

/-- The counter of upstream errors is none of them. -/
lemma requestCounts_metricsIncUpstreamErrors (m : Option Metrics) :
    (metricsIncUpstreamErrors m).map Metrics.requestCounts = m.map Metrics.requestCounts := by
  cases m <;> rfl

/-! ### Exits -/

/-- The exits of `handler_dispatch`. -/
inductive Route where
  /-- the request is over the rate limit -/
  | limited
  /-- the page of the metrics -/
  | metrics
  /-- the health page -/
  | health
  /-- a response from the cache, with its status -/
  | hit (status : ℤ)
  /-- there is no backend, or no connection to it -/
  | refused (status : ℤ)
  /-- a backend has the request -/
  | handed
  /-- what the file server answers -/
  | file (status : ℤ)
  /-- nothing serves the request -/
  | fallback
  deriving DecidableEq

namespace Route

/-- The status of the answer, if there is one already. -/
def status : Route → Option ℤ
  | limited => some 429
  | metrics => some 200
  | health => some 200
  | hit status => some status
  | refused status => some status
  | handed => none
  | file status => some status
  | fallback => some 404

/-- What is written to the access log. -/
def logs : Route → List ℤ
  | handed => []
  | refused _ => []
  | r => r.status.toList

/-- The counters behind the exit: two exits call `metrics_inc_requests`. -/
def count : Route → Option RequestCounts → Option RequestCounts
  | limited, t => t.map (·.inc 429)
  | fallback, t => t.map (·.inc 404)
  | _, t => t

end Route

/-- The status in a line of the access log. -/
def Act.logs : Act → Option ℤ
  | .accessLog status => some status
  | _ => none

namespace St

variable {st st' st'' : St} {req : HttpRequest} {i : ℕ}

/-- The exit by `proxy_handle`. -/
def proxyRoute (st : St) (pool : UpstreamPool) : Route :=
  match upstreamSelect pool with
  | (none, _) => .refused 503
  | (some b, pool) =>
    if (upstreamGetConnection pool b st.nextConnect).1 < 0 then .refused 502 else .handed

/-- The exits behind the cache: the proxy, the file server, and the fallback. -/
def serverRoute (st : St) (req : HttpRequest) (i : ℕ) : Route :=
  let server := st.ws.hctx.config.server i
  match (if server.proxyEnabled then st.ws.hctx.pool i else none) with
  | some pool => st.proxyRoute pool
  | none =>
    if server.staticRoot ≠ [] then .file (st.fileServerHandle req server).1 else .fallback

/-- The entry that the cache has for a request. -/
def cacheFinds (st : St) (req : HttpRequest) (i : ℕ) : Option CacheEntry :=
  if st.caching i ∧ req.method = .get then
    (st.env.lookups.headD none).filter fun entry => decide (entry.data.length > 0)
  else none

/-- The exits behind the rate limit. -/
def openRoute (st : St) (req : HttpRequest) (i : ℕ) : Route :=
  if pathMatches req.path st.ws.hctx.config.metricsPath ∧ st.ws.hctx.metrics.isSome then .metrics
  else if pathMatches req.path (bytes "/healthz") then .health
  else
    match st.cacheFinds req i with
    | some entry => .hit entry.status
    | none => (st.lookupCache req i).2.serverRoute req i

/-- The exits behind the rewrite rules. -/
def limitedRoute (st : St) (req : HttpRequest) (i : ℕ) : Route :=
  if (st.checkRate req).1 then (st.checkRate req).2.openRoute req i else .limited

/-- The exit that `handler_dispatch` takes with a request. -/
def dispatchRoute (st : St) (req : HttpRequest) : Route :=
  (st.arrival req).2.limitedRoute (st.arrival req).1 (st.blockOf req)

/-! ### What an exit does -/

/-- The modules and the counters of requests. -/
def meter (st : St) : List Module × Option RequestCounts := st.ws.hctx.meter

/-- The statuses in the access log. -/
def logged (st : St) : List ℤ := st.acts.filterMap Act.logs

/-- Nothing is counted and nothing is logged. -/
structure Silent (st st' : St) : Prop where
  meter : st'.meter = st.meter
  logged : st'.logged = st.logged

namespace Silent

lemma refl (st : St) : Silent st st := ⟨rfl, rfl⟩

lemma trans (h1 : Silent st st') (h2 : Silent st' st'') : Silent st st'' :=
  ⟨h2.meter.trans h1.meter, h2.logged.trans h1.logged⟩

/-- An operation that leaves the modules, the counters and the log alone. -/
lemma of_same (hmeter : st'.meter = st.meter) (hacts : st'.acts = st.acts) : Silent st st' :=
  ⟨hmeter, by rw [St.logged, hacts, St.logged]⟩

lemma of_act {a : Act} (ha : a.logs = none) (hmeter : st'.meter = st.meter)
    (hacts : st'.acts = st.acts ++ [a]) : Silent st st' :=
  ⟨hmeter, by rw [St.logged, hacts, List.filterMap_append]; simp [ha, St.logged]⟩

lemma mapConn (st : St) (f : Conn → Conn) : Silent st (st.mapConn f) := of_same rfl rfl

lemma setPool (st : St) (i : ℕ) (p : UpstreamPool) : Silent st (st.setPool i p) := of_same rfl rfl

lemma close (st : St) (fd : ℤ) : Silent st (st.close fd) := of_act rfl rfl rfl

lemma answer (st : St) (f : NpBuf → NpBuf) : Silent st (st.answer f) := of_same rfl rfl

lemma answerError (st : St) (status : ℕ) (keepAlive : Bool) :
    Silent st (st.answerError status keepAlive) := answer st _

/-! #### Files -/

lemma openRegular (st : St) (name : List UInt8) : Silent st (st.openRegular name).2 := by
  have hact : Silent st (st.act (.openFile name)) := of_act rfl rfl rfl
  rw [St.openRegular]
  refine hact.trans ?_
  simp only
  split
  · exact refl _
  · split
    · exact of_same rfl rfl
    · split
      · exact of_same rfl rfl
      · split
        · exact of_same rfl rfl
        · exact of_act rfl rfl rfl

lemma tryFilesLoop (cfg : ServerConfig) (req : HttpRequest) (entries : List (List UInt8))
    (st : St) : Silent st (St.tryFilesLoop cfg req entries st).2 := by
  induction entries generalizing st with
  | nil => exact refl st
  | cons entry entries ih =>
    have hopen := openRegular st (tryFileName cfg req entry)
    rw [St.tryFilesLoop]
    split <;> rename_i heq <;> rw [heq] at hopen
    · exact hopen
    · exact hopen.trans (ih _)

lemma findFile (st : St) (req : HttpRequest) (cfg : ServerConfig) :
    Silent st (st.findFile req cfg).2 := by
  rw [St.findFile]
  split
  · exact tryFilesLoop cfg req _ st
  · have hopen := openRegular st (plainFileName st.env.junk cfg req)
    simp only
    split <;> rename_i heq <;> rw [heq] at hopen <;> exact hopen

lemma startFile (st : St) (req : HttpRequest) (f : OpenFile) (name : List UInt8) :
    Silent st (st.startFile req f name) := by
  have hsend : Silent st (st.onWbuf (bufPut · (fileHead name f req.keepAlive))).respondOnce :=
    of_act rfl rfl rfl
  exact hsend.trans (of_same rfl rfl)

lemma fileServerHandle (st : St) (req : HttpRequest) (cfg : ServerConfig) :
    Silent st (st.fileServerHandle req cfg).2 := by
  have hfind := findFile st req cfg
  rw [St.fileServerHandle]
  split
  · exact answerError st 403 req.keepAlive
  · split <;> rename_i heq <;> rw [heq] at hfind
    · exact hfind.trans (answerError _ 404 req.keepAlive)
    · split
      · exact (hfind.trans (close _ _)).trans (answer _ _)
      · exact hfind.trans (startFile _ _ _ _)

/-! #### On the way to the exits -/

lemma rewrite (st : St) (req : HttpRequest) (server : ServerConfig) :
    Silent st (st.rewrite req server).2 := by
  rw [St.rewrite]
  split
  · exact refl st
  · split <;> rename_i heq <;> rw [alloc] at heq <;> obtain ⟨-, rfl⟩ := Prod.mk.inj heq <;>
      exact of_same rfl rfl

lemma arrival (st : St) (req : HttpRequest) : Silent st (st.arrival req).2 := by
  have hact : Silent st (st.act (.dispatch req)) := of_act rfl rfl rfl
  exact (hact.trans (mapConn _ _)).trans (rewrite _ _ _)

lemma checkRate (st : St) (req : HttpRequest) : Silent st (st.checkRate req).2 := by
  rw [St.checkRate]
  split <;> exact of_same rfl rfl

lemma lookupCache (st : St) (req : HttpRequest) (i : ℕ) : Silent st (st.lookupCache req i).2 := by
  rw [St.lookupCache]
  split
  · simp only
    split
    · split <;> exact of_act rfl rfl rfl
    · exact of_act rfl rfl rfl
  · exact refl st

lemma noteCache (st : St) (req : HttpRequest) (i : ℕ) : Silent st (st.noteCache req i) := by
  rw [St.noteCache]
  split
  · exact of_act rfl rfl rfl
  · exact refl st

/-! #### The proxy -/

lemma connected (st : St) (be : Backend) : Silent st (st.connected be) := by
  rw [St.connected]
  cases st.nextConnect <;> exact of_act rfl rfl rfl

/-- There is no backend, or no connection to it. -/
lemma turnDown (st : St) (status : ℕ) (keepAlive : Bool) :
    Silent st ((st.answerError status keepAlive).mapCtx fun ctx =>
      { ctx with metrics := metricsIncUpstreamErrors ctx.metrics }) :=
  ⟨congrArg (Prod.mk _) (requestCounts_metricsIncUpstreamErrors _), rfl⟩

lemma proxyHandle (st : St) (req : HttpRequest) (i : ℕ) (pool : UpstreamPool) :
    Silent st (st.proxyHandle req i pool) := by
  rw [St.proxyHandle]
  refine (mapConn st fun c => { c with proxyPool := some i }).trans ?_
  generalize st.mapConn (fun c => { c with proxyPool := some i }) = st0
  simp only
  split
  · exact (setPool st0 i _).trans (turnDown _ 503 req.keepAlive)
  · rename_i b pool1 _
    generalize upstreamGetConnection pool1 b st0.nextConnect = r
    obtain ⟨ufd, pool2, asked⟩ := r
    simp only
    have hasked : Silent st0 (if asked then (st0.setPool i pool2).connected (pool2.backend b)
        else st0.setPool i pool2) := by
      split
      · exact (setPool st0 i pool2).trans (connected _ _)
      · exact setPool st0 i pool2
    split
    · exact (hasked.trans (setPool _ i _)).trans (turnDown _ 502 req.keepAlive)
    · exact hasked.trans (of_same rfl rfl)

end Silent

/-- What an exit leaves: its counters, and its lines in the access log. -/
structure Leaves (r : Route) (st st' : St) : Prop where
  meter : st'.meter = (st.meter.1, r.count st.meter.2)
  logged : st'.logged = st.logged ++ r.logs

variable {r : Route}

lemma Silent.leaves (h : Silent st st') (hleaves : Leaves r st' st'') : Leaves r st st'' :=
  ⟨by rw [hleaves.meter, h.meter], by rw [hleaves.logged, h.logged]⟩

/-- An answer that is logged and not counted. -/
lemma Silent.leaves_log (h : Silent st st') {status : ℤ} (hcount : r.count = id)
    (hlogs : r.logs = [status]) : Leaves r st (st'.act (.accessLog status)) := by
  refine ⟨?_, ?_⟩
  · rw [hcount]
    exact h.meter
  · rw [hlogs, ← h.logged, St.logged, St.logged]
    exact List.filterMap_append

/-- An error that is counted and logged. -/
lemma turnAway_leaves (st : St) (status : ℕ) (keepAlive : Bool)
    (hcount : r.count = Option.map (·.inc status)) (hlogs : r.logs = [(status : ℤ)]) :
    Leaves r st ((((st.onWbuf (responseWriteError · status keepAlive)).countRequest status).act
      (.accessLog status)).setState .writingResponse) := by
  refine ⟨?_, ?_⟩
  · rw [hcount]
    exact congrArg (Prod.mk _) (requestCounts_metricsIncRequests _ status)
  · rw [hlogs, logged, logged]
    exact List.filterMap_append

lemma proxyHandle_leaves (st : St) (req : HttpRequest) (i : ℕ) (pool : UpstreamPool) :
    Leaves (st.proxyRoute pool) st ((st.noteCache req i).proxyHandle req i pool) := by
  have hsilent := (Silent.noteCache st req i).trans (.proxyHandle _ req i pool)
  rw [proxyRoute]
  split
  · exact ⟨hsilent.meter, hsilent.logged.trans (List.append_nil _).symm⟩
  · split <;> exact ⟨hsilent.meter, hsilent.logged.trans (List.append_nil _).symm⟩

lemma routeServer_leaves (st : St) (req : HttpRequest) (i : ℕ) :
    Leaves (st.serverRoute req i) st (st.routeServer req i) := by
  rw [serverRoute, routeServer]
  simp only
  generalize (if (st.ws.hctx.config.server i).proxyEnabled then st.ws.hctx.pool i else none) = pool
  cases pool with
  | some pool => exact proxyHandle_leaves st req i pool
  | none =>
    simp only
    split
    · exact (Silent.fileServerHandle st req _).leaves_log rfl rfl
    · exact turnAway_leaves st 404 req.keepAlive rfl rfl

/-- The cache has an answer, or the request goes on. -/
lemma lookupCache_leaves (st : St) (req : HttpRequest) (i : ℕ) :
    (∃ entry st', st.cacheFinds req i = some entry ∧ (st.lookupCache req i).1 = some st' ∧
      Leaves (.hit entry.status) st st') ∨
    (st.cacheFinds req i = none ∧ (st.lookupCache req i).1 = none) := by
  rw [cacheFinds, lookupCache]
  by_cases hcaching : st.caching i ∧ req.method = .get
  · rw [if_pos hcaching, if_pos hcaching]
    have henv : (st.act (.cacheLookup i (cacheKeyFromRequest req 1024))).env.lookups =
      st.env.lookups := rfl
    simp only [henv]
    cases st.env.lookups.headD none with
    | none => exact Or.inr ⟨rfl, rfl⟩
    | some entry =>
      simp only
      by_cases hdata : entry.data.length > 0
      · rw [if_pos hdata]
        refine Or.inl ⟨entry, _, by simp [hdata], rfl, ?_⟩
        have hlookup : Silent st { st.act (.cacheLookup i (cacheKeyFromRequest req 1024)) with
            env := { st.env with lookups := st.env.lookups.tail } } := .of_act rfl rfl rfl
        exact (hlookup.trans (.answer _ _)).leaves_log rfl rfl
      · rw [if_neg hdata]
        exact Or.inr ⟨by simpa using hdata, rfl⟩
  · rw [if_neg hcaching, if_neg hcaching]
    exact Or.inr ⟨rfl, rfl⟩

lemma route_leaves (st : St) (req : HttpRequest) (i : ℕ) :
    Leaves (st.openRoute req i) st (st.route req i) := by
  rw [openRoute, route]
  by_cases hpage : pathMatches req.path st.ws.hctx.config.metricsPath ∧ st.ws.hctx.metrics.isSome
  · obtain ⟨m, hm⟩ := Option.isSome_iff_exists.mp hpage.2
    rw [if_pos hpage, if_pos hpage.1, hm]
    exact (Silent.answer st _).leaves_log rfl rfl
  · have hnone : (if pathMatches req.path st.ws.hctx.config.metricsPath then st.ws.hctx.metrics
        else none) = none := by
      split
      · rename_i hpath
        exact Option.not_isSome_iff_eq_none.mp fun hsome => hpage ⟨hpath, hsome⟩
      · rfl
    rw [if_neg hpage, hnone]
    simp only
    split
    · exact (Silent.answer st _).leaves_log rfl rfl
    · have hsilent := Silent.lookupCache st req i
      have hcases := lookupCache_leaves st req i
      generalize st.lookupCache req i = r at hsilent hcases ⊢
      obtain ⟨answer, st1⟩ := r
      rcases hcases with ⟨entry, st', hfinds, rfl, hleaves⟩ | ⟨hfinds, rfl⟩ <;> rw [hfinds]
      · exact hleaves
      · exact hsilent.leaves (routeServer_leaves st1 req i)

lemma routeLimited_leaves (st : St) (req : HttpRequest) (i : ℕ) :
    Leaves (st.limitedRoute req i) st (st.routeLimited req i) := by
  have hsilent := Silent.checkRate st req
  rw [limitedRoute, routeLimited]
  generalize st.checkRate req = r at hsilent
  obtain ⟨ok, st1⟩ := r
  cases ok with
  | false => exact hsilent.leaves (turnAway_leaves st1 429 req.keepAlive rfl rfl)
  | true => exact hsilent.leaves (route_leaves st1 req i)

/-- **`handler_dispatch` does what its exit says.** -/
lemma handlerDispatch_leaves (st : St) (req : HttpRequest) (hmodules : st.ws.hctx.modules = []) :
    Leaves (st.dispatchRoute req) st (st.handlerDispatch req) := by
  have hdeclined : moduleRunRequestHandlers st.ws.hctx.modules
      { req with remoteIp := inetNtop st.conn.peer } = none := by
    rw [hmodules]
    rfl
  rw [handlerDispatch_of_declined hdeclined]
  exact (Silent.arrival st req).leaves (routeLimited_leaves _ _ _)

end St

end Nproxy
