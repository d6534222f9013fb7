import Nproxy.Core.Blocks
import Nproxy.Http.Handler

/-!
Virtual hosts: which server block serves a request.

* `Settings.serving` is the configuration of the handlers, from the settings that
  `config_load` reads. A compiled pattern is what `regexec` does with it.
* `selectServer_lt`: `handler_dispatch` selects a block that exists; without a `Host` header it is
  the first one. On which port a request came has no part in it.
-/

namespace Nproxy

/-! ### The configuration of the handlers -/

/-- What the pattern of a rule does with a path: `regexec(&re, path, 10, matches, 0)`. -/
abbrev Regexec := List UInt8 → List UInt8 → Option (List (ℤ × ℤ))

/-- A server block, as the handlers read it. -/
def ServerSettings.serving (regexec : Regexec) (s : ServerSettings) : ServerConfig where
  serverName := s.serverName
  staticRoot := s.staticRoot
  rewrite := s.rewrite.map fun r => ⟨regexec r.1, r.2⟩
  tryFiles := s.tryFiles
  proxyEnabled := s.proxyEnabled
  mode := s.mode
  keepaliveConns := s.keepaliveConns
  backends := s.backends.map fun b => ⟨b.host, b.port⟩
  cacheEnabled := s.cacheEnabled

/-- The configuration, as the handlers read it. -/
def Settings.serving (regexec : Regexec) (s : Settings) : Config where
  servers := s.servers.map (·.serving regexec)
  metricsPath := s.globals.metricsPath

/-! ### The block of a request -/

/-- There is a block, if there are any. -/
lemma selectServer_lt {cfg : Config} (h : cfg.servers ≠ []) (req : HttpRequest) :
    selectServer cfg req < cfg.servers.length := by
  have hpos : 0 < cfg.servers.length := List.length_pos_iff.mpr h
  simp only [selectServer]
  split_ifs
  · exact hpos
  · generalize hfind : (List.range cfg.servers.length).find? _ = r
    cases r with
    | none => exact hpos
    | some i => exact List.mem_range.mp (List.mem_of_find?_eq_some hfind)

/-- A request without a `Host` header goes to the first block. -/
lemma selectServer_of_headers_nil (cfg : Config) {req : HttpRequest} (h : req.headers = []) :
    selectServer cfg req = 0 := by
  have hhost : requestHeader req (.lit "Host") = .null := by rw [requestHeader, h]; rfl
  rw [selectServer, hhost]
  exact if_pos rfl

end Nproxy
