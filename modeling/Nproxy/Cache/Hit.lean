import Nproxy.Http.Framed
import Nproxy.Http.Whole

/-!
What becomes of a cache hit.

`handler_dispatch` copies a cached response to `conn->wbuf` if the buffer has the room,
and ends the request whether or not it had. A response is stored whatever its size is,
so a hit may end with an empty buffer.

* `cacheStage`: the lookup, as `handler_dispatch` makes it: the answer, or `none` where
  it goes on to the proxy and the files (`ReachesCache.handlerDispatch_eq`).
* `cacheHit_whole_iff`: a hit is served whole, or not used, exactly if it fits.
-/

namespace Nproxy

namespace St

variable {st : St} {req : HttpRequest} {entry : CacheEntry}

/-- The lookup in the cache, behind the rewrite rules and the rate limit. -/
def cacheStage (st : St) (req : HttpRequest) : Option St × St :=
  ((st.arrival req).2.checkRate (st.arrival req).1).2.lookupCache (st.arrival req).1
    (st.blockOf req)

/-- A request that gets as far as the cache. -/
structure ReachesCache (st : St) (req : HttpRequest) : Prop where
  modules : moduleRunRequestHandlers st.ws.hctx.modules
    { req with remoteIp := inetNtop st.conn.peer } = none
  rate : ((st.arrival req).2.checkRate (st.arrival req).1).1 = true
  metrics : pathMatches (st.arrival req).1.path st.ws.hctx.config.metricsPath = false ∨
    st.ws.hctx.metrics = none
  health : pathMatches (st.arrival req).1.path (bytes "/healthz") = false

/-- A `GET` that finds an entry, with nothing in the write buffer. -/
structure HitsCache (st : St) (req : HttpRequest) (entry : CacheEntry) : Prop
    extends ReachesCache st req where
  caching : st.caching (st.blockOf req) = true
  get : req.method = .get
  found : st.env.lookups.headD none = some entry
  ordered : st.conn.wbuf.Ordered
  empty : bufReadable st.conn.wbuf = 0

/-! ### On the way to the cache -/

lemma rewrite_method (st : St) (req : HttpRequest) (server : ServerConfig) :
    (st.rewrite req server).1.method = req.method ∧ (st.rewrite req server).2.ws = st.ws := by
  rw [rewrite]
  split
  · exact ⟨rfl, rfl⟩
  · split <;> rename_i heq <;> rw [alloc] at heq <;> obtain ⟨-, rfl⟩ := Prod.mk.inj heq <;>
      exact ⟨rfl, rfl⟩

lemma arrival_method (st : St) (req : HttpRequest) :
    (st.arrival req).1.method = req.method ∧ (st.arrival req).2.ws = st.ws := rewrite_method _ _ _

lemma checkRate_caching (st : St) (req : HttpRequest) (i : ℕ) :
    (st.checkRate req).2.caching i = st.caching i := by
  rw [checkRate]
  split <;> rfl

/-- **The dispatcher at the cache**: an answer from there is the end, and otherwise the routes of
the server follow. -/
lemma ReachesCache.handlerDispatch_eq (h : st.ReachesCache req) :
    st.handlerDispatch req =
      match st.cacheStage req with
      | (some st', _) => st'
      | (none, st') => st'.routeServer (st.arrival req).1 (st.blockOf req) := by
  obtain ⟨-, -, hconfig, hmetrics⟩ := checkRate_eq (st.arrival req).2 (st.arrival req).1
  have hrate := h.rate
  rw [handlerDispatch_of_declined h.modules, routeLimited, cacheStage]
  generalize (st.arrival req).2.checkRate (st.arrival req).1 = r at hconfig hmetrics hrate ⊢
  obtain ⟨ok, st1⟩ := r
  subst hrate
  rw [(arrival_method st req).2] at hconfig hmetrics
  have hnone : (if pathMatches (st.arrival req).1.path st1.ws.hctx.config.metricsPath then
      st1.ws.hctx.metrics else none) = none := by
    rw [hconfig, hmetrics]
    rcases h.metrics with hpath | hoff
    · rw [hpath]
      rfl
    · rw [hoff]
      exact ite_self _
  simp only
  rw [route, hnone]
  have hhealth : ¬pathMatches (st.arrival req).1.path (bytes "/healthz") = true := by
    rw [h.health]
    exact Bool.false_ne_true
  exact if_neg hhealth

/-! ### At the cache -/

/-- What `handler_dispatch` does with an entry. -/
lemma HitsCache.cacheStage_eq (h : st.HitsCache req entry) :
    ((st.cacheStage req).1 = none ↔ entry.data = []) ∧
      ∀ st', (st.cacheStage req).1 = some st' → st'.conn.wbuf = bufPut st.conn.wbuf entry.data := by
  obtain ⟨hconn, henv, -, -⟩ := checkRate_eq (st.arrival req).2 (st.arrival req).1
  obtain ⟨hwbuf, hlookups⟩ := arrival_eq st req
  obtain ⟨hmethod, hws⟩ := arrival_method st req
  have hcaching : ((st.arrival req).2.checkRate (st.arrival req).1).2.caching (st.blockOf req) ∧
      (st.arrival req).1.method = .get := by
    refine ⟨?_, hmethod.trans h.get⟩
    have hcaching := h.caching
    rw [checkRate_caching, St.caching, hws]
    exact hcaching
  have hfound : ((st.arrival req).2.checkRate (st.arrival req).1).2.env.lookups.headD none =
      some entry := by rw [henv, hlookups, h.found]
  rw [← hwbuf, ← hconn, cacheStage, lookupCache, if_pos hcaching]
  generalize ((st.arrival req).2.checkRate (st.arrival req).1).2 = st1 at hfound ⊢
  simp only [act, hfound]
  split_ifs with hdata
  · refine ⟨iff_of_false (by simp) (List.length_pos_iff.mp hdata), ?_⟩
    rintro _ ⟨⟩
    rfl
  · exact ⟨iff_of_true rfl (List.length_eq_zero_iff.mp (Nat.eq_zero_of_not_pos hdata)), by simp⟩

/-- A hit with data is the end of the request, with whatever the buffer took. -/
lemma HitsCache.wbuf_eq (h : st.HitsCache req entry) (hdata : entry.data ≠ []) :
    (st.cacheStage req).1 ≠ none ∧
      (st.handlerDispatch req).conn.wbuf = bufPut st.conn.wbuf entry.data := by
  obtain ⟨hnone, hsome⟩ := h.cacheStage_eq
  have hne := mt hnone.mp hdata
  obtain ⟨st', hst'⟩ := Option.ne_none_iff_exists'.mp hne
  refine ⟨hne, ?_⟩
  rw [← hsome st' hst', h.handlerDispatch_eq]
  generalize st.cacheStage req = r at hst' ⊢
  obtain ⟨_, _⟩ := r
  subst hst'
  rfl

lemma HitsCache.bufBytes_wbuf (h : st.HitsCache req entry) : bufBytes st.conn.wbuf = [] :=
  List.eq_nil_of_length_eq_zero (h.ordered.length_bufBytes.trans h.empty)

/-- **A cache hit is served whole, or the dispatcher goes on**, exactly if the entry fits in the
write buffer. -/
theorem cacheHit_whole_iff (st : St) (req : HttpRequest) (entry : CacheEntry)
    (h : st.HitsCache req entry) :
    ((st.cacheStage req).1 = none ∨ bufBytes (st.handlerDispatch req).conn.wbuf = entry.data) ↔
      entry.data.length ≤ bufWritable st.conn.wbuf := by
  by_cases hdata : entry.data = []
  · exact iff_of_true (.inl (h.cacheStage_eq.1.mpr hdata)) (by simp [hdata])
  · obtain ⟨hne, hwbuf⟩ := h.wbuf_eq hdata
    rw [or_iff_right hne, hwbuf]
    rcases Nat.lt_or_ge (bufWritable st.conn.wbuf) entry.data.length with hroom | hroom
    · rw [bufPut_of_no_room (.inr hroom), h.bufBytes_wbuf]
      exact iff_of_false (fun heq => hdata heq.symm) (not_le.mpr hroom)
    · rw [bufPut_of_room hdata hroom, h.ordered.bufBytes_append hroom, h.bufBytes_wbuf]
      exact iff_of_true rfl hroom

end St

/-! ### A client of a caching server -/

/-- Its request finds an entry of so many bytes. -/
def cachedClient (n : ℕ) : St :=
  { bareClient with
    ws := { bareClient.ws with
      hctx := { bareClient.ws.hctx with
        config := ⟨[{ backendServer with proxyEnabled := false, cacheEnabled := true }],
          bytes "/metrics"⟩
        cacheStores := [true] } }
    env := { idleEnv with lookups := [some ⟨200, List.replicate n 0⟩] } }

lemma cachedClient_hitsCache (n : ℕ) :
    (cachedClient n).HitsCache pageRequest ⟨200, List.replicate n 0⟩ where
  modules := rfl
  rate := rfl
  metrics := Or.inl (show pathMatches pageRequest.path (bytes "/metrics") = false by decide)
  health := show pathMatches pageRequest.path (bytes "/healthz") = false by decide
  caching := rfl
  get := rfl
  found := rfl
  ordered := (connCreate_bufsWf 4096 4 ⟨127, 0, 0, 1⟩).wbuf.toOrdered
  empty := rfl

/-- An entry of 1000 bytes. -/
theorem cacheHit_whole_cachedClient :
    (cachedClient 1000).HitsCache pageRequest ⟨200, List.replicate 1000 0⟩ ∧
      (((cachedClient 1000).cacheStage pageRequest).1 = none ∨
        bufBytes ((cachedClient 1000).handlerDispatch pageRequest).conn.wbuf =
          List.replicate 1000 0) := by
  have hroom : (List.replicate 1000 (0 : UInt8)).length ≤
      bufWritable (cachedClient 1000).conn.wbuf := by
    rw [List.length_replicate]
    decide
  exact ⟨cachedClient_hitsCache 1000,
    (St.cacheHit_whole_iff _ _ _ (cachedClient_hitsCache 1000)).mpr hroom⟩

/-- **A hit that is lost**: an entry that is longer than the buffer. -/
theorem exists_lost_hit :
    ¬∀ (st : St) (req : HttpRequest) (entry : CacheEntry), st.HitsCache req entry →
      (st.cacheStage req).1 = none ∨
        bufBytes (st.handlerDispatch req).conn.wbuf = entry.data := by
  intro h
  have hhits := cachedClient_hitsCache (npWriteBufSize + 1)
  have hdata : List.replicate (npWriteBufSize + 1) (0 : UInt8) ≠ [] := List.cons_ne_nil _ _
  obtain ⟨hne, hwbuf⟩ := hhits.wbuf_eq hdata
  have hroom : bufWritable (cachedClient (npWriteBufSize + 1)).conn.wbuf <
      (List.replicate (npWriteBufSize + 1) (0 : UInt8)).length := by
    rw [List.length_replicate]
    exact Nat.lt_succ_self npWriteBufSize
  have hwhole := (h _ _ _ hhits).resolve_left hne
  rw [hwbuf, bufPut_of_no_room (.inr hroom), hhits.bufBytes_wbuf] at hwhole
  exact hdata hwhole.symm

end Nproxy
