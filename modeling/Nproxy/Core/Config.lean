import Nproxy.Http.Request
import Nproxy.Http.Response

/-!
The parts of `core/config.h` and `module/module.h` that serving a request reads.

A compiled regular expression is what `regexec` does with it: no match, or the
ten pairs of offsets. A module is what its request handler does with a request:
it declines, or it answers with `response_write_simple` and moves the connection
to `CONN_WRITING_RESPONSE`, as `docs/modules.md` has it.
-/

namespace Nproxy

/-- `rewrite_rule_t`; `re path` is `regexec(&re, path, 10, matches, 0)`. -/
structure RewriteRule where
  re : List UInt8 → Option (List (ℤ × ℤ))
  replacement : List UInt8

/-- `balance_mode_t`. -/
inductive BalanceMode where
  | roundRobin | leastConn
  deriving DecidableEq, Repr

/-- `backend_entry_t`. -/
structure BackendEntry where
  host : List UInt8
  port : UInt16
  deriving DecidableEq, Repr

/-- `np_server_config_t`. -/
structure ServerConfig where
  serverName : List UInt8
  staticRoot : List UInt8
  rewrite : List RewriteRule
  tryFiles : List (List UInt8)
  proxyEnabled : Bool
  mode : BalanceMode
  keepaliveConns : ℤ
  backends : List BackendEntry
  cacheEnabled : Bool

instance : Inhabited ServerConfig := ⟨⟨[], [], [], [], false, .roundRobin, 0, [], false⟩⟩

/-- `np_config_t`. -/
structure Config where
  servers : List ServerConfig
  metricsPath : List UInt8

/-- `config->servers[i]`. -/
def Config.server (c : Config) (i : ℕ) : ServerConfig := c.servers.getD i default

/-- What a module answers, the arguments of `response_write_simple`. -/
structure SimpleResponse where
  status : ℕ
  reason : Option (List UInt8)
  contentType : Option (List UInt8)
  body : Option (List UInt8)

/-- The request handler of a module: `none` is `NP_MODULE_DECLINED`. -/
abbrev Module := HttpRequest → Option SimpleResponse

/-- `module_run_request_handlers`: the first module that handles the request. -/
def moduleRunRequestHandlers (modules : List Module) (req : HttpRequest) : Option SimpleResponse :=
  modules.findSome? fun m => m req

end Nproxy
