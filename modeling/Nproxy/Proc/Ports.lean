import Nproxy.Proc.Backends
import Nproxy.Proc.Listeners

/-!
Virtual hosts and ports, over the runs of a worker.

`main` binds each port of a server block once, and the workers share the listeners. The handler of a
listener gets its descriptor, accepts from it and keeps nothing of it with the connection;
`handler_dispatch` then selects a block by the `Host` header alone.

* `boundPorts`: the ports that the loop of `main` leaves (`mainListen_boundPorts`).
* `Worker.config_run`: no run changes the configuration, in which the block is looked up.
* `servedBy`: the block of a request that a connection of a listener has sent.
* `selected_port_iff`: it has the port of the listener in all cases exactly if all blocks have the
  same port.
-/

namespace Nproxy

/-! ### The listeners of `main` -/

/-- `bound_ports`, where every port can be bound. -/
def boundPorts (s : Settings) : List UInt16 :=
  rebindPorts s.servers (List.replicate s.servers.length true) []

/-- **These are the ports that `main` has bound**, and those of its sockets. -/
lemma mainListen_boundPorts {s : Settings} (h : s.servers.length ≤ configMaxServers)
    (sockets bound : FixedArray UInt16 configMaxServers) :
    ∃ l, mainListen s.servers (List.replicate s.servers.length true) ⟨sockets, bound, 0⟩
      = some (.ok l) ∧ l.ports = boundPorts s ∧ l.listening = boundPorts s := by
  obtain ⟨r, hmain, hports, hstep⟩ := mainListen_eq s.servers (List.replicate s.servers.length true)
    (Listeners.inStep_zero sockets bound) (by rwa [Nat.zero_add])
  rw [bindPorts_eq_rebindPorts (fun b hb => List.eq_of_mem_replicate hb) (by simp)] at hports
  cases r with
  | error p => cases hports
  | ok l =>
    have heq : l.ports = boundPorts s := Except.ok.inj hports
    exact ⟨l, hmain, heq, (hstep l rfl).listening_eq.trans heq⟩

/-- There is a listener for each port of a block. -/
lemma mem_boundPorts {s : Settings} {p : UInt16} :
    p ∈ boundPorts s ↔ ∃ srv ∈ s.servers, srv.listenPort = p := by
  have hfirst : FirstOccurrences ([] ++ s.servers.map ServerSettings.listenPort) (boundPorts s) :=
    firstOccurrences_rebindPorts (fun b hb => List.eq_of_mem_replicate hb) (by simp) .nil
  rw [hfirst.mem_iff, List.nil_append, List.mem_map]

/-! ### The configuration -/

namespace St

/-- The configuration stays what it is. -/
def KeepsConfig (st st' : St) : Prop := st'.ws.hctx.config = st.ws.hctx.config

namespace KeepsConfig

lemma connPoolPut (st : St) : KeepsConfig st st.connPoolPut := by
  have hclose : KeepsConfig st st.connClose := by
    simp only [KeepsConfig, connClose, closeClient, closeUpstream, closeFile]
    split_ifs <;> rfl
  rw [St.connPoolPut]
  dsimp only
  split <;> exact hclose

lemma coversAnswer : CoversAnswer KeepsConfig where
  trans h1 h2 := h2.trans h1
  stays h := h.config
  mapLoop _ _ := rfl
  relay _ := rfl
  startProxy _ _ _ _ _ := rfl
  connPoolPut := connPoolPut
  workerConnClose st :=
    connPoolPut { st with ws := { st.ws with activeConns := st.ws.activeConns - 1 } }

lemma covers : Covers KeepsConfig where
  toCoversAnswer := coversAnswer
  readClient _ := rfl
  takeRequest _ _ _ := rfl
  readTunnel _ := rfl
  forwardAll _ _ := rfl

lemma coversUpstream : CoversUpstream KeepsConfig where
  toCoversAnswer := coversAnswer
  forwardOnce _ _ := rfl
  readUpstream st tape := by
    rw [St.readUpstream]
    dsimp only
    split <;> rfl
  unlinkUpstream _ _ := rfl

end KeepsConfig

end St

namespace Worker

lemma config_step (w : Worker) (i : Input) : (w.step i).ws.hctx.config = w.ws.hctx.config := by
  refine step_invariant (P := fun w' => w'.ws.hctx.config = w.ws.hctx.config) (fun _ _ h => h)
    (fun w' fd peer alloc _ h => ?_) (fun _ _ _ ev h => ?_) (fun _ _ _ fd ev h => ?_) rfl i
  · rw [hctx_acceptOne, h]
  · exact (St.KeepsConfig.covers.onClientEvent _ ev).trans h
  · exact (St.KeepsConfig.coversUpstream.proxyOnUpstreamEvent _ fd ev).trans h

/-- **No run changes the configuration.** -/
lemma config_run (w : Worker) (is : List Input) : (w.run is).ws.hctx.config = w.ws.hctx.config :=
  Run.run_invariant (P := fun w' : Worker => w'.ws.hctx.config = w.ws.hctx.config)
    (fun w' i h => (config_step w' i).trans h) rfl is

/-- `worker_run` sets the configuration of the handlers. -/
def configured (w : Worker) (cfg : Config) : Worker :=
  { w with ws := { w.ws with hctx := { w.ws.hctx with config := cfg } } }

end Worker

/-! ### The block of a request -/

/-- The block that serves a request which came in on the listener `fd`: the listener's event is
handled, with any connections to accept, any steps follow, and then one of the connections has sent
the request. -/
def servedBy (regexec : Regexec) (s : Settings) (w : Worker) (fd : ℤ) (env : Env)
    (accepts : List SysAccept) (is : List Input) (req : HttpRequest) : Option ServerSettings :=
  s.servers[selectServer ((w.configured (s.serving regexec)).run
    (oneEvent .accept fd inEvent env accepts ++ is)).ws.hctx.config req]?

/-- The listener and the run are of no account. -/
lemma servedBy_eq (regexec : Regexec) (s : Settings) (w : Worker) (fd : ℤ) (env : Env)
    (accepts : List SysAccept) (is : List Input) (req : HttpRequest) :
    servedBy regexec s w fd env accepts is req =
      s.servers[selectServer (s.serving regexec) req]? := by
  rw [servedBy, Worker.config_run]
  rfl

/-- **Virtual hosts and ports.** Every request on every listener is served by a block of that port,
whatever the worker does, exactly if all blocks have the same port. -/
theorem selected_port_iff (regexec : Regexec) (s : Settings) (w : Worker) (listener : UInt16 → ℤ) :
    (∀ p ∈ boundPorts s, ∀ env accepts is req, ∃ srv,
        servedBy regexec s w (listener p) env accepts is req = some srv ∧ srv.listenPort = p) ↔
      ∀ a ∈ s.servers, ∀ b ∈ s.servers, a.listenPort = b.listenPort := by
  simp only [servedBy_eq]
  constructor
  · intro h
    -- a request without a host is served by the first block on every port
    have hfirst : ∀ a ∈ s.servers,
        ∃ srv, s.servers[0]? = some srv ∧ srv.listenPort = a.listenPort := by
      intro a ha
      obtain ⟨srv, hsrv, hport⟩ := h a.listenPort (mem_boundPorts.mpr ⟨a, ha, rfl⟩) idleEnv [] []
        requestCreate
      rw [selectServer_of_headers_nil _ rfl] at hsrv
      exact ⟨srv, hsrv, hport⟩
    intro a ha b hb
    obtain ⟨x, hx, hxa⟩ := hfirst a ha
    obtain ⟨y, hy, hyb⟩ := hfirst b hb
    rw [hx] at hy
    rw [← hxa, ← hyb, Option.some.inj hy]
  · intro h p hp _ _ _ req
    obtain ⟨a, ha, rfl⟩ := mem_boundPorts.mp hp
    have hne : (s.serving regexec).servers ≠ [] := by
      intro hnil
      rw [List.map_eq_nil_iff.mp hnil] at ha
      simp at ha
    have hlt := selectServer_lt hne req
    rw [Settings.serving, List.length_map] at hlt
    exact ⟨_, List.getElem?_eq_getElem hlt, h _ (List.getElem_mem hlt) a ha⟩

/-- A file with two blocks on different ports. -/
def twoPorts : List UInt8 := bytes "[server]\nlisten_port = 8080\n[server]\nlisten_port = 9090\n"

/-- A request without a host that comes on port 9090 is served by the block of port
8080. -/
theorem exists_served_by_other_port :
    ¬∀ (regexec : Regexec) (s : Settings) (w : Worker) (listener : UInt16 → ℤ),
      ∀ p ∈ boundPorts s, ∀ env accepts is req, ∃ srv,
        servedBy regexec s w (listener p) env accepts is req = some srv ∧ srv.listenPort = p := by
  intro h
  obtain ⟨srv, hsrv, hport⟩ := h (fun _ _ => none) (Settings.load (fun _ => true) twoPorts)
    backendWorker (fun _ => 3) 9090 (by decide +kernel) idleEnv
    [.conn 4 ⟨127, 0, 0, 1⟩ (some 4096)] [] requestCreate
  rw [servedBy_eq, selectServer_of_headers_nil _ rfl] at hsrv
  have hfirst : ((Settings.load (fun _ => true) twoPorts).servers[0]?).map (·.listenPort)
      = some 8080 := by decide +kernel
  rw [hsrv, Option.map_some, hport] at hfirst
  exact absurd hfirst (by decide)

end Nproxy
