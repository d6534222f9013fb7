import Nproxy.Core.Config

/-!
`proxy/upstream.c` and `proxy/balancer.c`: the backends of a server, which of
them gets the next request, and the idle connections kept for each.

A backend is named by its index in the pool. The descriptor that a new connection
gets is an input, `none` when `socket_connect_nonblock` fails.
-/

namespace Nproxy

/-- `upstream_backend_t`; `idleFds` has 64 slots. -/
structure Backend where
  host : List UInt8
  port : UInt16
  activeConns : ℤ
  totalRequests : ℤ
  errorCount : ℤ
  healthy : Bool
  idleFds : List ℤ
  idleCount : ℕ
  deriving DecidableEq, Repr

instance : Inhabited Backend := ⟨⟨[], 0, 0, 0, 0, false, [], 0⟩⟩

/-- `upstream_pool_t`; `count` is the number of backends. -/
structure UpstreamPool where
  backends : List Backend
  rrIndex : ℕ
  mode : BalanceMode
  keepaliveConns : ℤ
  deriving DecidableEq, Repr

/-- `upstream_pool_create`. -/
def upstreamPoolCreate (cfg : ServerConfig) : UpstreamPool where
  backends := cfg.backends.map fun b =>
    { host := b.host.take 255, port := b.port, activeConns := 0, totalRequests := 0,
      errorCount := 0, healthy := true, idleFds := List.replicate 64 0, idleCount := 0 }
  rrIndex := 0
  mode := cfg.mode
  keepaliveConns := cfg.keepaliveConns

/-- `&pool->backends[i]`. -/
def UpstreamPool.backend (p : UpstreamPool) (i : ℕ) : Backend := p.backends.getD i default

/-- A change of one backend. -/
def UpstreamPool.modify (p : UpstreamPool) (i : ℕ) (f : Backend → Backend) : UpstreamPool :=
  { p with backends := p.backends.modify i f }

/-- `balancer_round_robin`. -/
def balancerRoundRobin (p : UpstreamPool) : Option ℕ × UpstreamPool :=
  let count := p.backends.length
  match (List.range count).find? fun i => (p.backend ((p.rrIndex + i) % count)).healthy with
  | none => (none, p)
  | some i =>
    let idx := (p.rrIndex + i) % count
    (some idx, { p with rrIndex := (idx + 1) % count })

/-- `balancer_least_conn`: the best backend so far and its load, which starts at
`INT_MAX`. -/
def balancerLeastConn (p : UpstreamPool) : Option ℕ :=
  ((List.range p.backends.length).foldl (fun (best : Option ℕ × ℤ) i =>
    let be := p.backend i
    if be.healthy = false then best
    else if be.activeConns < best.2 then (some i, be.activeConns)
    else best) (none, 2 ^ 31 - 1)).1

/-- `upstream_select`. -/
def upstreamSelect (p : UpstreamPool) : Option ℕ × UpstreamPool :=
  if p.backends.length = 0 then (none, p)
  else
    let (be, p) := match p.mode with
      | .leastConn => (balancerLeastConn p, p)
      | .roundRobin => balancerRoundRobin p
    match be with
    | none => (none, p)
    | some i => (some i, p.modify i fun be => { be with activeConns := be.activeConns + 1 })

/-- `upstream_release`. -/
def upstreamRelease (p : UpstreamPool) (i : ℕ) (error : Bool) : UpstreamPool :=
  p.modify i fun be =>
    let be := if be.activeConns > 0 then { be with activeConns := be.activeConns - 1 } else be
    if error then
      let be := { be with errorCount := be.errorCount + 1 }
      if be.errorCount > 5 then { be with healthy := false } else be
    else
      let be := { be with totalRequests := be.totalRequests + 1 }
      if be.healthy = false ∧ be.errorCount = 0 then { be with healthy := true } else be

/-- `upstream_get_connection`: an idle connection, or the one that `connect`
gives, `-1` when it fails; the last component says whether it was asked. -/
def upstreamGetConnection (p : UpstreamPool) (i : ℕ) (connect : Option ℤ) :
    ℤ × UpstreamPool × Bool :=
  let be := p.backend i
  if be.idleCount > 0 then
    let n := be.idleCount - 1
    (be.idleFds.getD n 0, p.modify i fun be => { be with idleCount := n }, false)
  else (connect.getD (-1), p, true)

/-- `upstream_put_connection` of a backend that is there, with the limit
`keepalive_conns` of the pool it is given; the second component says whether the
descriptor is closed instead of kept. -/
def upstreamPutConnection (keepaliveConns : ℤ) (p : UpstreamPool) (i : ℕ) (fd : ℤ) :
    UpstreamPool × Bool :=
  let be := p.backend i
  if (be.idleCount : ℤ) < keepaliveConns ∧ be.idleCount < 64 then
    (p.modify i fun be => { be with
      idleFds := be.idleFds.set be.idleCount fd
      idleCount := be.idleCount + 1 }, false)
  else (p, true)

end Nproxy
