import Nproxy.Cache.Key
import Nproxy.Proxy.ProxyConn

/-!
`http/handler.c`: which part of the server answers a request.

`handlerDispatch` is the source's one function, cut where it can return: modules,
rewriting, the rate limit, and then the routes in their order: metrics, health,
cache, proxy, files, and 404. The request is changed in place (the peer's
address, a rewritten path), so `conn->request` changes with it.
-/

namespace Nproxy

/-- `path_matches`. -/
def pathMatches (path : Str) (pre : List UInt8) : Bool := strStartsWith path ⟨.mem, pre⟩

/-- The server block for a request: the first one whose name is the host without
its port, and otherwise the first block. -/
def selectServer (cfg : Config) (req : HttpRequest) : ℕ :=
  let host := requestHeader req (.lit "Host")
  if host.ptr = .null then 0
  else
    let name := (cstr (host.bytes.take 255)).takeWhile (· != 58)
    ((List.range cfg.servers.length).find? fun i =>
      (cfg.server i).serverName ≠ [] ∧ (cfg.server i).serverName = name).getD 0

/-! ### Rewriting -/

/-- The loop that expands a replacement; `out` is what `new_path` holds so far. -/
def expandReplacement (path : List UInt8) (groups : List (ℤ × ℤ)) :
    ℕ → List UInt8 → List UInt8 → List UInt8
  | 0, _, out => out
  | fuel + 1, src, out =>
    match src with
    | [] => out
    | c :: src' =>
      if ¬out.length < 1023 then out
      else if c = 36 ∧ (src'.head?.any isdigit) then
        let g := groups.getD ((src'.headD 48).toNat - 48) (-1, -1)
        let len := g.2 - g.1
        let out := if g.1 ≠ -1 ∧ len > 0 ∧ out.length + len < 1023 then
            out ++ Memory.slice path g.1.toNat g.2.toNat
          else out
        expandReplacement path groups fuel (src'.drop 1) out
      else expandReplacement path groups fuel src' (out ++ [c])

/-- The first rule that matches rewrites the path; `none` when none does. -/
def rewritePath (rules : List RewriteRule) (path : List UInt8) : Option (List UInt8) :=
  let buf := path.take 1023
  rules.findSome? fun rule =>
    (rule.re (cstr buf)).map fun groups =>
      cstr (expandReplacement buf groups rule.replacement.length rule.replacement [])

/-- `strncpy(dst, src, n)` into an array that is longer than `n`. -/
def strncpyInto (dst src : List UInt8) (n : ℕ) : List UInt8 :=
  src.take n ++ List.replicate (n - src.length) 0 ++ dst.drop n

/-- `strncpy` leaves the rest of the array alone. -/
lemma drop_strncpyInto (dst src : List UInt8) (n : ℕ) :
    (strncpyInto dst src n).drop n = dst.drop n := by
  have hlen : (src.take n ++ List.replicate (n - src.length) 0).length = n := by
    rw [List.length_append, List.length_take, List.length_replicate]
    omega
  rw [strncpyInto]
  nth_rewrite 1 [← hlen]
  rw [List.drop_left]

namespace St

/-- The request has changed. -/
def setReq (st : St) (req : HttpRequest) : St := st.mapConn fun c => { c with request := some req }

/-- The rewrite loop: the new path goes to the arena, if that has room. -/
def rewrite (st : St) (req : HttpRequest) (server : ServerConfig) : HttpRequest × St :=
  match rewritePath server.rewrite req.path.bytes with
  | none => (req, st)
  | some path =>
    match st.alloc (path.length + 1) arenaAlign with
    | (none, st) => (req, st)
    | (some _, st) =>
      let req := { req with path := ⟨.mem, path⟩ }
      (req, st.setReq req)

/-- The rate limit: is the request let through? -/
def checkRate (st : St) (req : HttpRequest) : Bool × St :=
  match st.ws.hctx.rateLimiter with
  | none => (true, st)
  | some rl =>
    let r := rateLimitCheck rl req.remoteIp st.env.time
    (r.1, st.mapCtx fun ctx => { ctx with rateLimiter := some r.2 })

/-- `metrics_inc_requests`. -/
def countRequest (st : St) (status : ℕ) : St :=
  st.mapCtx fun ctx => { ctx with metrics := metricsIncRequests ctx.metrics status }

/-- A page is put in `wbuf`, and the response is to be written. -/
def answer (st : St) (f : NpBuf → NpBuf) : St :=
  (st.onWbuf f).setState .writingResponse

/-- Does the server of this request have a cache? -/
def caching (st : St) (i : ℕ) : Bool :=
  (st.ws.hctx.config.server i).cacheEnabled && st.ws.hctx.cacheStores.getD i false

/-- The cache, for a `GET`: the state after a hit is `some`, and otherwise the
lookup may still have been made. -/
def lookupCache (st : St) (req : HttpRequest) (i : ℕ) : Option St × St :=
  if st.caching i ∧ req.method = .get then
    let st := st.act (.cacheLookup i (cacheKeyFromRequest req 1024))
    let st' := { st with env := { st.env with lookups := st.env.lookups.tail } }
    match st.env.lookups.headD none with
    | some entry =>
      if entry.data.length > 0 then
        (some ((st'.answer (bufPut · entry.data)).act (.accessLog entry.status)), st')
      else (none, st')
    | none => (none, st')
  else (none, st)

/-- Before a request is proxied, its connection is told where the response goes. -/
def noteCache (st : St) (req : HttpRequest) (i : ℕ) : St :=
  if st.caching i then
    (st.act (.noteCache i (cacheKeyFromRequest req 1024))).mapConn fun c => { c with
      cacheStore := some i
      cacheKey := strncpyInto c.cacheKey (cacheKeyFromRequest req 1024) 255 }
  else st

/-- The routes behind the cache: proxy, files, 404. -/
def routeServer (st : St) (req : HttpRequest) (i : ℕ) : St :=
  let server := st.ws.hctx.config.server i
  match (if server.proxyEnabled then st.ws.hctx.pool i else none) with
  | some pool => (st.noteCache req i).proxyHandle req i pool
  | none =>
    if server.staticRoot ≠ [] then
      let r := st.fileServerHandle req server
      r.2.act (.accessLog r.1)
    else
      let st := st.onWbuf (responseWriteError · 404 req.keepAlive)
      ((st.countRequest 404).act (.accessLog 404)).setState .writingResponse

/-- The routes: metrics, health, cache, and the rest. -/
def route (st : St) (req : HttpRequest) (i : ℕ) : St :=
  match (if pathMatches req.path st.ws.hctx.config.metricsPath then st.ws.hctx.metrics
    else none) with
  | some m => (st.answer (metricsHandle st.env.junk m · req)).act (.accessLog 200)
  | none =>
    if pathMatches req.path (bytes "/healthz") then
      (st.answer (healthHandle · req)).act (.accessLog 200)
    else
      match st.lookupCache req i with
      | (some st, _) => st
      | (none, st) => st.routeServer req i

/-- The rate limit, and the routes behind it. -/
def routeLimited (st : St) (req : HttpRequest) (i : ℕ) : St :=
  match st.checkRate req with
  | (false, st) =>
    let st := st.onWbuf (responseWriteError · 429 req.keepAlive)
    ((st.countRequest 429).act (.accessLog 429)).setState .writingResponse
  | (true, st) => st.route req i

/-- The modules, and what follows if they all decline. -/
def routeModules (st : St) (req : HttpRequest) (i : ℕ) : St :=
  match moduleRunRequestHandlers st.ws.hctx.modules req with
  | some r =>
    (st.answer fun b => responseWriteSimple st.env.junk b r.status r.reason r.contentType r.body
      req.keepAlive).act (.accessLog 200)
  | none =>
    let r := st.rewrite req (st.ws.hctx.config.server i)
    r.2.routeLimited r.1 i

/-- `handler_dispatch`. -/
def handlerDispatch (st : St) (req : HttpRequest) : St :=
  let st := st.act (.dispatch req)
  let req := { req with remoteIp := inetNtop st.conn.peer }
  (st.setReq req).routeModules req (selectServer st.ws.hctx.config req)

end St

end Nproxy
