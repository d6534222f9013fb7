import Nproxy.Http.Slices
import Nproxy.Proc.Pipeline

/-!
A request that is handed to a backend.

* `Calls`: `handle_read` calls `handler_dispatch`, in which state and with which request.
* `HandsOver`: what `handler_dispatch` has done when it hands a request over: the
  connection has the request as it was routed, and knows where the response goes.
* `handlerDispatch_cases`: it answers by itself, or it hands the request over.
-/

namespace Nproxy

/-- A request on its way to the handlers: it gets the address of the client, and its path
may be rewritten, to the arena. -/
structure HttpRequest.Routed (req req1 : HttpRequest) : Prop where
  eq : req1 = { req with path := req1.path, remoteIp := req1.remoteIp }
  path : req1.path = req.path ∨ req1.path.ptr = .mem

namespace HttpRequest.Routed

variable {req req1 req2 : HttpRequest}

lemma refl (req : HttpRequest) : req.Routed req := ⟨rfl, Or.inl rfl⟩

lemma trans (h1 : req.Routed req1) (h2 : req1.Routed req2) : req.Routed req2 := by
  refine ⟨?_, ?_⟩
  · rw [h2.eq, h1.eq]
  · rcases h2.path with heq | hmem
    · rw [heq]
      exact h1.path
    · exact Or.inr hmem

lemma headers (h : req.Routed req1) : req1.headers = req.headers := by rw [h.eq]

/-- The slices of the request point where they did, or to the arena. -/
lemma pointsInto (h : req.Routed req1) {data : List UInt8}
    (hreq : req.path.PointsInto data ∧
      ∀ x ∈ req.headers, x.name.PointsInto data ∧ x.value.PointsInto data) :
    req1.path.PointsInto data ∧
      ∀ x ∈ req1.headers, x.name.PointsInto data ∧ x.value.PointsInto data := by
  refine ⟨?_, by rw [h.headers]; exact hreq.2⟩
  rcases h.path with heq | hmem
  · rw [heq]
    exact hreq.1
  · exact .of_mem hmem data

end HttpRequest.Routed

namespace St

/-! ### `handle_read` -/

/-- `handle_read` on `st0` reads, has this text in `rbuf` then, and calls
`handler_dispatch` in the state `st` with this request. -/
structure Calls (st0 : St) (data : List UInt8) (req : HttpRequest) (st : St) : Prop where
  state : st0.conn.state ≠ .tunnel
  ret : ¬(st0.readClient.1 = .closed ∨ st0.readClient.1 = .err)
  text : bufBytes st0.readClient.2.conn.rbuf = data
  done : (parseFresh data).1 = .done
  room : (st0.readClient.2.alloc requestSize 8).1.isSome = true
  req_eq : req = requestPopulate requestCreate (parseFresh data).2 data
  st_eq : st = (st0.readClient.2.alloc requestSize 8).2.takeRequest (parseFresh data).2 req

namespace Calls

variable {st0 st : St} {data : List UInt8} {req : HttpRequest}

lemma handleRead (h : Calls st0 data req st) :
    st0.handleRead = (st.handlerDispatch req).afterDispatch := by
  obtain ⟨hstate, hret, rfl, hdone, hroom, rfl, rfl⟩ := h
  have hne : ¬bufReadable st0.readClient.2.conn.rbuf = 0 := by
    intro hzero
    have hnil : bufBytes st0.readClient.2.conn.rbuf = [] := by
      rw [bufBytes, Memory.slice, ← bufReadable, hzero, List.take_zero]
    rw [hnil, parseFresh_nil] at hdone
    simp at hdone
  rw [St.handleRead, if_neg hstate]
  simp only
  rw [if_neg hret, parseRequests, if_neg hne]
  rcases hp : parseFresh (bufBytes st0.readClient.2.conn.rbuf) with ⟨r, ps⟩
  rw [hp] at hdone
  obtain rfl := hdone
  obtain ⟨p, hroom⟩ := Option.isSome_iff_exists.mp hroom
  simp only
  rw [acceptRequest]
  have halloc : st0.readClient.2.alloc requestSize 8 =
      (some p, (st0.readClient.2.alloc requestSize 8).2) := Prod.ext hroom rfl
  have hrbuf : (st0.readClient.2.alloc requestSize 8).2.conn.rbuf =
      st0.readClient.2.conn.rbuf := rfl
  split <;> rename_i heq
  · rw [halloc] at heq
    simp at heq
  · rename_i st2
    obtain rfl : (st0.readClient.2.alloc requestSize 8).2 = st2 := by rw [heq]
    rw [hrbuf]

/-- The text that was parsed is still in the memory of `rbuf`. -/
lemma data_eq (h : Calls st0 data req st) :
    Memory.slice st.conn.rbuf.data st0.readClient.2.conn.rbuf.readPos
      st0.readClient.2.conn.rbuf.writePos = data := by
  rw [← h.text, h.st_eq]
  simp only [takeRequest, mapConn, bufConsume]
  split <;> rfl

lemma pointsInto (h : Calls st0 data req st) :
    req.path.PointsInto data ∧
      ∀ x ∈ req.headers, x.name.PointsInto data ∧ x.value.PointsInto data := by
  rw [h.req_eq]
  exact request_pointsInto h.done

end Calls

/-! ### `handler_dispatch` -/

/-- The request is answered here. -/
def Answers (st : St) : Prop := st.conn.state = .writingResponse ∨ st.conn.state = .sendfile

/-- The request is to be handed to a backend of server `i`, in the state `st1`: the
connection has it, and knows where the response goes; if it was looked up, then with the
key of this request. -/
structure HandsOver (st : St) (req : HttpRequest) (i : ℕ) (st1 : St) : Prop where
  stays : Stays st st1
  request : st1.conn.request = some req
  cache : st.caching i = true → st1.conn.cacheStore = some i ∧
    ∃ k, st1.conn.cacheKey = strncpyInto k (cacheKeyFromRequest req 1024) 255
  lookups : ∃ as, st1.acts = st.acts ++ as ∧ ∀ j key, .cacheLookup j key ∈ as →
    st.caching i = true ∧ j = i ∧ key = cacheKeyFromRequest req 1024

/-- What becomes of a request: it is answered, or it is handed over. -/
def Settles (st : St) (req : HttpRequest) (i : ℕ) (st' : St) : Prop :=
  Answers st' ∨ ∃ st1 b ufd, HandsOver st req i st1 ∧ 0 ≤ ufd ∧ st' = st1.startProxy req i b ufd

variable {st st0 st' : St} {req : HttpRequest} {i : ℕ}

/-- Something comes before; what it looks up, it looks up for this request. -/
lemma Settles.after (h : Settles st0 req i st') (h0 : Stays st st0)
    (hcaching : st0.caching i = st.caching i) {as : List Act} (hacts : st0.acts = st.acts ++ as)
    (hlook : ∀ j key, .cacheLookup j key ∈ as →
      st.caching i = true ∧ j = i ∧ key = cacheKeyFromRequest req 1024) :
    Settles st req i st' := by
  rcases h with h | ⟨st1, b, ufd, h, hufd, rfl⟩
  · exact Or.inl h
  · obtain ⟨bs, hbs, hlookups⟩ := h.lookups
    rw [hcaching] at hlookups
    refine Or.inr ⟨st1, b, ufd, ⟨h0.trans h.stays, h.request, hcaching ▸ h.cache, as ++ bs,
      by rw [hbs, hacts, List.append_assoc], fun j key hmem => ?_⟩, hufd, rfl⟩
    rcases List.mem_append.mp hmem with hmem | hmem
    · exact hlook j key hmem
    · exact hlookups j key hmem

/-- `proxy_handle` with a connection that has the request. -/
lemma proxyHandle_settles (hreq : st.conn.request = some req) (pool : UpstreamPool)
    (hcache : st.caching i = true → st.conn.cacheStore = some i ∧
      ∃ k, st.conn.cacheKey = strncpyInto k (cacheKeyFromRequest req 1024) 255) :
    Settles st req i (st.proxyHandle req i pool) := by
  have hpool : Stays st (st.mapConn fun c => { c with proxyPool := some i }) := .mapConn rfl rfl id
  rw [proxyHandle]
  refine Settles.after ?_ hpool rfl (List.append_nil _).symm (by simp)
  replace hreq : (st.mapConn fun c => { c with proxyPool := some i }).conn.request = some req :=
    hreq
  replace hcache : (st.mapConn fun c => { c with proxyPool := some i }).caching i = true →
      (st.mapConn fun c => { c with proxyPool := some i }).conn.cacheStore = some i ∧
        ∃ k, (st.mapConn fun c => { c with proxyPool := some i }).conn.cacheKey =
          strncpyInto k (cacheKeyFromRequest req 1024) 255 := hcache
  generalize st.mapConn (fun c => { c with proxyPool := some i }) = st0 at hreq hcache ⊢
  split
  · exact Or.inl (Or.inl rfl)
  · rename_i b _ _
    split
    rename_i ufd pool' asked _
    simp only
    split
    · exact Or.inl (Or.inl rfl)
    · refine Or.inr ⟨_, b, ufd, ?_, by omega, rfl⟩
      have hset : HandsOver st0 req i (st0.setPool i pool') :=
        ⟨.setPool _ _, hreq, hcache, [], (List.append_nil _).symm, by simp⟩
      split
      · have hsame : ((st0.setPool i pool').connected (pool'.backend b)).conn = st0.conn ∧
            ((st0.setPool i pool').connected (pool'.backend b)).acts =
              st0.acts ++ [.connect (pool'.backend b).host (pool'.backend b).port] := by
          rw [connected]
          cases (st0.setPool i pool').nextConnect <;> exact ⟨rfl, rfl⟩
        obtain ⟨hconn, hacts⟩ := hsame
        exact ⟨hset.stays.trans (.connected _), by rw [hconn, hreq], by rwa [hconn], _, hacts,
          by simp⟩
      · exact hset

/-- Before a request is handed over, the connection is told where the response goes. -/
lemma noteCache_spec (st : St) (req : HttpRequest) (i : ℕ) :
    (st.noteCache req i).conn.request = st.conn.request ∧
      (st.noteCache req i).ws = st.ws ∧
      (st.caching i = true → (st.noteCache req i).conn.cacheStore = some i ∧
        ∃ k, (st.noteCache req i).conn.cacheKey =
          strncpyInto k (cacheKeyFromRequest req 1024) 255) ∧
      ∃ as, (st.noteCache req i).acts = st.acts ++ as ∧ ∀ j key, .cacheLookup j key ∉ as := by
  rw [noteCache]
  split
  · exact ⟨rfl, rfl, fun _ => ⟨rfl, _, rfl⟩, [_], rfl, by simp⟩
  · rename_i hno
    exact ⟨rfl, rfl, fun h => absurd h hno, [], (List.append_nil _).symm, by simp⟩

lemma fileServerHandle_answers (st : St) (req : HttpRequest) (cfg : ServerConfig) :
    Answers (st.fileServerHandle req cfg).2 := by
  rw [fileServerHandle]
  split
  · exact Or.inl rfl
  · split
    · exact Or.inl rfl
    · split
      · exact Or.inl rfl
      · exact Or.inr rfl

lemma routeServer_settles (hreq : st.conn.request = some req) :
    Settles st req i (st.routeServer req i) := by
  rw [routeServer]
  simp only
  split
  · rename_i pool _
    have hstays : Stays st (st.noteCache req i) := .noteCache req i
    obtain ⟨hreq', hws, hcache, as, has, hno⟩ := noteCache_spec st req i
    generalize st.noteCache req i = st0 at hstays hreq' hws hcache has ⊢
    have hcaching : st0.caching i = st.caching i := by rw [caching, caching, hws]
    exact (proxyHandle_settles (hreq'.trans hreq) pool (hcaching ▸ hcache)).after hstays hcaching
      has fun j key hmem => absurd hmem (hno j key)
  · split
    · exact Or.inl (fileServerHandle_answers st req _)
    · exact Or.inl (Or.inl rfl)

/-- The lookup is made with the key of the request that is handed over. -/
lemma route_settles (hreq : st.conn.request = some req) : Settles st req i (st.route req i) := by
  rw [route]
  split
  · exact Or.inl (Or.inl rfl)
  · split
    · exact Or.inl (Or.inl rfl)
    · have hmiss : Stays st (st.lookupCache req i).2 := (Stays.lookupCache req i).2
      have hhit : ∀ st', (st.lookupCache req i).1 = some st' → Answers st' := by
        rw [lookupCache]
        split
        · simp only
          split
          · split
            · rintro st' h
              obtain rfl := Option.some.inj h
              exact Or.inl rfl
            · simp
          · simp
        · simp
      -- a lookup leaves the connection alone, and is made with the key of this request
      have hlook : (st.lookupCache req i).2.conn = st.conn ∧
          (st.lookupCache req i).2.ws = st.ws ∧
          ∃ as, (st.lookupCache req i).2.acts = st.acts ++ as ∧ ∀ j key, .cacheLookup j key ∈ as →
            st.caching i = true ∧ j = i ∧ key = cacheKeyFromRequest req 1024 := by
        rw [lookupCache]
        split
        · rename_i hc
          have hone : ∀ j key, Act.cacheLookup j key ∈
              [Act.cacheLookup i (cacheKeyFromRequest req 1024)] →
              st.caching i = true ∧ j = i ∧ key = cacheKeyFromRequest req 1024 := by
            intro j key hmem
            simp only [List.mem_singleton, Act.cacheLookup.injEq] at hmem
            exact ⟨hc.1, hmem⟩
          simp only
          split
          · split
            · exact ⟨rfl, rfl, _, rfl, hone⟩
            · exact ⟨rfl, rfl, _, rfl, hone⟩
          · exact ⟨rfl, rfl, _, rfl, hone⟩
        · exact ⟨rfl, rfl, [], by simp, by simp⟩
      split <;> rename_i heq <;> rw [heq] at hhit hmiss hlook
      · exact Or.inl (hhit _ rfl)
      · rename_i st0
        obtain ⟨hconn, hws, as, has, hkeys⟩ := hlook
        simp only at hconn hws has
        have hcaching : st0.caching i = st.caching i := by rw [caching, caching, hws]
        exact (routeServer_settles (hconn ▸ hreq)).after hmiss hcaching has hkeys

lemma routeLimited_settles (hreq : st.conn.request = some req) :
    Settles st req i (st.routeLimited req i) := by
  have hrate : Stays st (st.checkRate req).2 := .checkRate req
  have hsame : (st.checkRate req).2.conn = st.conn ∧ (st.checkRate req).2.acts = st.acts ∧
      (st.checkRate req).2.caching i = st.caching i := by
    rw [checkRate]
    split <;> exact ⟨rfl, rfl, rfl⟩
  rw [routeLimited]
  split <;> rename_i heq <;> rw [heq] at hrate hsame
  · exact Or.inl (Or.inl rfl)
  · obtain ⟨hconn, hacts, hcaching⟩ := hsame
    exact (route_settles (hconn ▸ hreq)).after hrate hcaching
      (hacts.trans (List.append_nil _).symm) (by simp)

/-- The request after rewriting is the connection's. -/
lemma rewrite_routed (hreq : st.conn.request = some req) (server : ServerConfig) :
    (st.rewrite req server).2.conn.request = some (st.rewrite req server).1 ∧
      req.Routed (st.rewrite req server).1 ∧ (st.rewrite req server).2.acts = st.acts ∧
      (st.rewrite req server).2.ws = st.ws := by
  rw [rewrite]
  split
  · exact ⟨hreq, .refl req, rfl, rfl⟩
  · rename_i path _
    have halloc : (st.alloc (path.length + 1) arenaAlign).2.conn.request = st.conn.request ∧
        (st.alloc (path.length + 1) arenaAlign).2.acts = st.acts ∧
        (st.alloc (path.length + 1) arenaAlign).2.ws = st.ws := ⟨rfl, rfl, rfl⟩
    split <;> rename_i heq <;> rw [heq] at halloc
    · exact ⟨halloc.1.trans hreq, .refl req, halloc.2⟩
    · exact ⟨rfl, ⟨rfl, Or.inr rfl⟩, halloc.2⟩

/-- Behind the modules the request is the one that was rewritten. -/
lemma routeModules_settles (hreq : st.conn.request = some req) :
    ∃ req1, req.Routed req1 ∧ Settles st req1 i (st.routeModules req i) := by
  rw [routeModules]
  split
  · exact ⟨req, .refl req, Or.inl (Or.inl rfl)⟩
  · obtain ⟨hreq1, hrouted, hacts, hws⟩ := rewrite_routed hreq (st.ws.hctx.config.server i)
    have hstays : Stays st (st.rewrite req (st.ws.hctx.config.server i)).2 := .rewrite _ _
    refine ⟨_, hrouted, ?_⟩
    simp only
    generalize st.rewrite req (st.ws.hctx.config.server i) = r at hreq1 hacts hws hstays ⊢
    have hcaching : r.2.caching i = st.caching i := by rw [caching, caching, hws]
    exact (routeLimited_settles hreq1).after hstays hcaching (hacts.trans (List.append_nil _).symm)
      (by simp)

/-- **`handler_dispatch`, by its endings**: it answers by itself, or it hands the request
over as it was routed. -/
lemma handlerDispatch_settles (st : St) (req : HttpRequest) :
    ∃ req1 i, req.Routed req1 ∧ Settles st req1 i (st.handlerDispatch req) := by
  have hstays : Stays st ((st.act (.dispatch req)).setReq
      { req with remoteIp := inetNtop st.conn.peer }) := (Stays.act rfl rfl).trans (.setReq _)
  have hfirst : req.Routed { req with remoteIp := inetNtop st.conn.peer } := ⟨rfl, Or.inl rfl⟩
  have hreq : ((st.act (.dispatch req)).setReq
      { req with remoteIp := inetNtop st.conn.peer }).conn.request =
        some { req with remoteIp := inetNtop st.conn.peer } := rfl
  obtain ⟨req1, hrouted, hsettles⟩ := routeModules_settles hreq
  exact ⟨req1, _, hfirst.trans hrouted, hsettles.after hstays rfl rfl (by simp)⟩

end St

/-! ### A client that asks -/

/-- A read event of a client, with what it sends; a backend can be connected on this
descriptor. -/
def clientSays (text : List UInt8) (fd : ℤ) : Use :=
  .client (backendWorker.run clientComes).ws
    { idleEnv with clientReads := [.data text], connects := [some fd] } inEvent

/-- The state in which the first text of a client is read. -/
def asked (text : List UInt8) : St :=
  ⟨0, connCreate 4096 4 ⟨127, 0, 0, 1⟩, (backendWorker.run clientComes).ws,
    { idleEnv with clientReads := [.data text], connects := [some 5] }, []⟩

/-- The request in it. -/
def askedRequest (text : List UInt8) : HttpRequest :=
  requestPopulate requestCreate (parseFresh text).2 text

/-- The state in which the request is dispatched. -/
def askedCall (text : List UInt8) : St :=
  ((asked text).readClient.2.alloc requestSize 8).2.takeRequest (parseFresh text).2
    (askedRequest text)

/-- A client that asks for a page. -/
def pageText : List UInt8 := List.flatten [bytes "GET /a HTTP/1.1", crlf, crlf]

lemma pageText_calls : St.Calls (asked pageText) pageText (askedRequest pageText)
    (askedCall pageText) :=
  ⟨by decide, by decide +kernel, by decide +kernel, by decide +kernel, by decide +kernel, rfl, rfl⟩

end Nproxy
