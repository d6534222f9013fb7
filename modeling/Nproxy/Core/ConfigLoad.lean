import Nproxy.Core.Config
import Nproxy.Lib.Arrays
import Nproxy.Lib.Pieces

/-!
`core/config.c`: the configuration file, read into the arrays of `np_config_t`.

Every array of the source is an array of its size here, and every store is one of
`FixedArray`: a store outside an array makes the result `none`. The line buffer is
such an array too, and the loop body walks it with indices where the source has
pointers. The counters of the tables are numbers on their own, as in the source.

`regcomp` is what the caller says it is: `re k pattern` is whether the `k`-th line
that comes would have its pattern compiled. The compiled expression is left out,
its pattern being in the same record. An `int` is a `ℤ`, in the range `atoi` gives.
-/

namespace Nproxy

open FixedArray (Chars)

/-! ### `core/config.h` -/

/-- `CONFIG_MAX_BACKENDS`. -/
def configMaxBackends : ℕ := 64

/-- `CONFIG_MAX_MODULES`. -/
def configMaxModules : ℕ := 16

/-- `CONFIG_MAX_REWRITES`. -/
def configMaxRewrites : ℕ := 32

/-- `CONFIG_MAX_TRY_FILES`. -/
def configMaxTryFiles : ℕ := 8

/-- `CONFIG_MAX_SERVERS`. -/
def configMaxServers : ℕ := 16

/-- `char [CONFIG_MAX_STR]`. -/
abbrev ConfigStr := Chars 512

/-- `log_level_t`. -/
inductive LogLevel where
  | error | warn | info | debug
  deriving DecidableEq, Repr

/-- `backend_entry_t`, all of it. -/
structure NpBackendEntry where
  host : Chars 256
  port : UInt16
  enabled : Bool

/-- `rewrite_rule_t`, its texts. -/
structure NpRewriteRule where
  pattern : ConfigStr
  replacement : ConfigStr

/-- A table of paths with its count, as `modules` and `try_files` are. -/
structure PathTable (n : ℕ) where
  paths : FixedArray ConfigStr n
  count : ℕ

/-- The rewrite rules with their count. -/
structure RewriteTable where
  rules : FixedArray NpRewriteRule configMaxRewrites
  count : ℕ

/-- The part `tls` of a server. -/
structure TlsConfig where
  enabled : Bool
  listenPort : UInt16
  certFile : ConfigStr
  keyFile : ConfigStr

/-- The part `proxy` of a server. -/
structure ProxyConfig where
  enabled : Bool
  mode : BalanceMode
  connectTimeout : ℤ
  upstreamTimeout : ℤ
  keepaliveConns : ℤ
  backends : FixedArray NpBackendEntry configMaxBackends
  backendCount : ℕ

/-- The part `cache` of a server. -/
structure CacheConfig where
  enabled : Bool
  root : ConfigStr
  defaultTtl : ℤ
  maxEntries : ℤ

/-- The part `gzip` of a server. -/
structure GzipConfig where
  enabled : Bool
  minLength : ℤ

/-- `np_server_config_t`, all of it. -/
structure NpServerConfig where
  listenPort : UInt16
  serverName : ConfigStr
  staticRoot : ConfigStr
  modules : PathTable configMaxModules
  rewrite : RewriteTable
  tryFiles : PathTable configMaxTryFiles
  tls : TlsConfig
  proxy : ProxyConfig
  cache : CacheConfig
  gzip : GzipConfig

/-- The part `rate_limit` of the configuration. -/
structure RateLimitConfig where
  enabled : Bool
  requestsPerSecond : ℤ
  burst : ℤ

/-- The part `log` of the configuration. -/
structure LogConfig where
  level : LogLevel
  accessLog : ConfigStr
  errorLog : ConfigStr

/-- The part `metrics` of the configuration. -/
structure MetricsConfig where
  enabled : Bool
  path : ConfigStr

/-- The part `process` of the configuration. -/
structure ProcessConfig where
  daemon : Bool
  pidFile : ConfigStr

/-- `np_config_t`, all of it. -/
structure NpConfig where
  listenAddr : Chars 64
  workerProcesses : ℤ
  backlog : ℤ
  maxConnections : ℤ
  keepaliveTimeout : ℤ
  readTimeout : ℤ
  writeTimeout : ℤ
  servers : FixedArray NpServerConfig configMaxServers
  serverCount : ℕ
  rateLimit : RateLimitConfig
  log : LogConfig
  metrics : MetricsConfig
  process : ProcessConfig
  shutdownTimeout : ℤ

/-! ### Defaults -/

/-- An array of NULs. -/
def zeros (n : ℕ) : Chars n := .replicate n 0

/-- A server as `memset` leaves it. -/
def NpServerConfig.zero : NpServerConfig where
  listenPort := 0
  serverName := zeros 512
  staticRoot := zeros 512
  modules := ⟨.replicate _ (zeros 512), 0⟩
  rewrite := ⟨.replicate _ ⟨zeros 512, zeros 512⟩, 0⟩
  tryFiles := ⟨.replicate _ (zeros 512), 0⟩
  tls := ⟨false, 0, zeros 512, zeros 512⟩
  proxy := ⟨false, .roundRobin, 0, 0, 0, .replicate _ ⟨zeros 256, 0, false⟩, 0⟩
  cache := ⟨false, zeros 512, 0, 0⟩
  gzip := ⟨false, 0⟩

/-- The configuration as `memset` leaves it; the zero of `log.level` is `LOG_ERROR`. -/
def NpConfig.zero : NpConfig where
  listenAddr := zeros 64
  workerProcesses := 0
  backlog := 0
  maxConnections := 0
  keepaliveTimeout := 0
  readTimeout := 0
  writeTimeout := 0
  servers := .replicate _ .zero
  serverCount := 0
  rateLimit := ⟨false, 0, 0⟩
  log := ⟨.error, zeros 512, zeros 512⟩
  metrics := ⟨false, zeros 512⟩
  process := ⟨false, zeros 512⟩
  shutdownTimeout := 0

/-- What is done to a server block whose header was just read. -/
def NpServerConfig.begin (srv : NpServerConfig) : Option NpServerConfig := do
  return { srv with listenPort := 8080, staticRoot := ← srv.staticRoot.strncpy (bytes "./www") 511 }

/-- What is done to the first server block before the file is read. -/
def NpServerConfig.beginFirst (srv : NpServerConfig) : Option NpServerConfig := do
  let srv ← srv.begin
  return { srv with
    tls := { srv.tls with listenPort := 8443 }
    proxy := { srv.proxy with
      mode := .roundRobin, connectTimeout := 5, upstreamTimeout := 30, keepaliveConns := 16 } }

/-- A change of the server block the loader is in, `&cfg->servers[cfg->server_count - 1]`. -/
def NpConfig.onServer (cfg : NpConfig) (f : NpServerConfig → Option NpServerConfig) :
    Option NpConfig := do
  let srv ← cfg.servers.get? (cfg.serverCount - 1)
  let srv ← f srv
  return { cfg with servers := ← cfg.servers.store (cfg.serverCount - 1) srv }

/-- The part of `config_load` in front of its loop. -/
def configDefaults : Option NpConfig := do
  let cfg := NpConfig.zero
  let cfg := { cfg with
    listenAddr := ← cfg.listenAddr.strncpy (bytes "0.0.0.0") 63
    workerProcesses := 4
    backlog := 4096
    maxConnections := 100000
    keepaliveTimeout := 75
    readTimeout := 60
    writeTimeout := 60
    serverCount := 1 }
  let cfg ← cfg.onServer (·.beginFirst)
  return { cfg with
    rateLimit := { cfg.rateLimit with requestsPerSecond := 1000, burst := 200 }
    log := { level := .info
             accessLog := ← cfg.log.accessLog.strncpy (bytes "./logs/access.log") 511
             errorLog := ← cfg.log.errorLog.strncpy (bytes "./logs/error.log") 511 }
    metrics := { cfg.metrics with path := ← cfg.metrics.path.strncpy (bytes "/metrics") 511 } }

/-! ### The keys -/

/-- `parse_bool`. -/
def parseBool (v : List UInt8) : Bool := v = bytes "true" || v = bytes "1" || v = bytes "yes"

/-- `(u16)atoi(val)`. -/
def portOf (v : List UInt8) : UInt16 := .ofInt (atoi v)

/-- `strncpy` into the entry behind the last one, and the count goes up. -/
def PathTable.push {n : ℕ} (t : PathTable n) (s : List UInt8) : Option (PathTable n) := do
  let slot ← t.paths.get? t.count
  return { paths := ← t.paths.store t.count (← slot.strncpy s 511), count := t.count + 1 }

/-- A rule in the entry behind the last one; it counts if its pattern compiles. -/
def RewriteTable.push (t : RewriteTable) (re : List UInt8 → Bool) (pattern repl : List UInt8) :
    Option RewriteTable := do
  let slot ← t.rules.get? t.count
  let rule : NpRewriteRule :=
    ⟨← slot.pattern.strncpy pattern 511, ← slot.replacement.strncpy repl 511⟩
  return {
    rules := ← t.rules.store t.count rule
    count := if re (rule.pattern.str 0) then t.count + 1 else t.count }

/-- The loop over the tokens of `try_files`. Each turn takes an entry of the table,
so there are at most as many turns as entries. -/
def tryFilesTokens : ℕ → Option (ℕ × ℕ × Chars 512) → PathTable configMaxTryFiles →
    Option (PathTable configMaxTryFiles)
  | fuel + 1, some (token, next, line), t =>
    if t.count < configMaxTryFiles then do
      let t ← t.push (line.str token)
      tryFilesTokens fuel (← line.strtok 32 next) t
    else some t
  | _, _, t => some t

/-- The key `rewrite`: the value is cut at its first blank. -/
def setRewriteKey (re : List UInt8 → Bool) (line : Chars 512) (val : ℕ) (srv : NpServerConfig) :
    Option NpServerConfig :=
  match line.strchr val 32 with
  | none => some srv
  | some space => do
    let line ← line.store space 0
    let repl := line.skip isspace (space + 1)
    return { srv with rewrite := ← srv.rewrite.push re (line.str val) (line.str repl) }

/-- The section `[server]`. -/
def setServerKey (re : List UInt8 → Bool) (key : List UInt8) (line : Chars 512) (val : ℕ)
    (cfg : NpConfig) : Option NpConfig :=
  let v := line.str val
  if key = bytes "listen_port" then
    cfg.onServer fun srv => some { srv with listenPort := portOf v }
  else if key = bytes "server_name" then
    cfg.onServer fun srv => do return { srv with serverName := ← srv.serverName.strncpy v 511 }
  else if key = bytes "listen_addr" then do
    return { cfg with listenAddr := ← cfg.listenAddr.strncpy v 63 }
  else if key = bytes "worker_processes" then some { cfg with workerProcesses := atoi v }
  else if key = bytes "backlog" then some { cfg with backlog := atoi v }
  else if key = bytes "max_connections" then some { cfg with maxConnections := atoi v }
  else if key = bytes "keepalive_timeout" then some { cfg with keepaliveTimeout := atoi v }
  else if key = bytes "read_timeout" then some { cfg with readTimeout := atoi v }
  else if key = bytes "write_timeout" then some { cfg with writeTimeout := atoi v }
  else if key = bytes "static_root" then
    cfg.onServer fun srv => do return { srv with staticRoot := ← srv.staticRoot.strncpy v 511 }
  else if key = bytes "load_module" then
    cfg.onServer fun srv => do
      if srv.modules.count < configMaxModules then
        return { srv with modules := ← srv.modules.push v }
      else return srv
  else if key = bytes "rewrite" then
    cfg.onServer fun srv =>
      if srv.rewrite.count < configMaxRewrites then setRewriteKey re line val srv else some srv
  else if key = bytes "try_files" then
    cfg.onServer fun srv => do
      return { srv with
        tryFiles := ← tryFilesTokens configMaxTryFiles (← line.strtok 32 val) srv.tryFiles }
  else some cfg

/-- The section `[tls]`. -/
def setTlsKey (key v : List UInt8) (srv : NpServerConfig) : Option NpServerConfig :=
  if key = bytes "enabled" then some { srv with tls := { srv.tls with enabled := parseBool v } }
  else if key = bytes "listen_port" then
    some { srv with tls := { srv.tls with listenPort := portOf v } }
  else if key = bytes "cert_file" then do
    return { srv with tls := { srv.tls with certFile := ← srv.tls.certFile.strncpy v 511 } }
  else if key = bytes "key_file" then do
    return { srv with tls := { srv.tls with keyFile := ← srv.tls.keyFile.strncpy v 511 } }
  else some srv

/-- The value of the key `mode`. -/
def modeOf (v : List UInt8) : BalanceMode :=
  if v = bytes "least_conn" then .leastConn else .roundRobin

/-- The section `[proxy]`. -/
def setProxyKey (key v : List UInt8) (srv : NpServerConfig) : Option NpServerConfig :=
  if key = bytes "enabled" then some { srv with proxy := { srv.proxy with enabled := parseBool v } }
  else if key = bytes "mode" then some { srv with proxy := { srv.proxy with mode := modeOf v } }
  else if key = bytes "connect_timeout" then
    some { srv with proxy := { srv.proxy with connectTimeout := atoi v } }
  else if key = bytes "upstream_timeout" then
    some { srv with proxy := { srv.proxy with upstreamTimeout := atoi v } }
  else if key = bytes "keepalive_conns" then
    some { srv with proxy := { srv.proxy with keepaliveConns := atoi v } }
  else some srv

/-- `strrchr`: the offset of the last `c`. -/
def strrchr (s : List UInt8) (c : UInt8) : Option ℕ :=
  (s.reverse.findIdx? (· == c)).map fun i => s.length - 1 - i

/-- An entry of `[upstream]`. -/
def NpBackendEntry.fill (be : NpBackendEntry) (v : List UInt8) : Option NpBackendEntry :=
  match strrchr v 58 with
  | some colon => do
    let host ← be.host.copyStr v (min colon 255)
    return { host := host, port := portOf (v.drop (colon + 1)), enabled := true }
  | none => do return { host := ← be.host.strncpy v 255, port := 80, enabled := true }

/-- The section `[upstream]`. -/
def setUpstreamKey (key v : List UInt8) (srv : NpServerConfig) : Option NpServerConfig :=
  if key = bytes "backend" ∧ srv.proxy.backendCount < configMaxBackends then do
    let be ← srv.proxy.backends.get? srv.proxy.backendCount
    let be ← be.fill v
    return { srv with proxy := { srv.proxy with
      backends := ← srv.proxy.backends.store srv.proxy.backendCount be
      backendCount := srv.proxy.backendCount + 1 } }
  else some srv

/-- The section `[rate_limit]`. -/
def setRateLimitKey (key v : List UInt8) (cfg : NpConfig) : NpConfig :=
  if key = bytes "enabled" then
    { cfg with rateLimit := { cfg.rateLimit with enabled := parseBool v } }
  else if key = bytes "requests_per_second" then
    { cfg with rateLimit := { cfg.rateLimit with requestsPerSecond := atoi v } }
  else if key = bytes "burst" then
    { cfg with rateLimit := { cfg.rateLimit with burst := atoi v } }
  else cfg

/-- The value of the key `level`: another text leaves the level as it is. -/
def levelOf (v : List UInt8) (old : LogLevel) : LogLevel :=
  if v = bytes "debug" then .debug
  else if v = bytes "info" then .info
  else if v = bytes "warn" then .warn
  else if v = bytes "error" then .error
  else old

/-- The section `[log]`. -/
def setLogKey (key v : List UInt8) (cfg : NpConfig) : Option NpConfig :=
  if key = bytes "level" then
    some { cfg with log := { cfg.log with level := levelOf v cfg.log.level } }
  else if key = bytes "access_log" then do
    return { cfg with log := { cfg.log with accessLog := ← cfg.log.accessLog.strncpy v 511 } }
  else if key = bytes "error_log" then do
    return { cfg with log := { cfg.log with errorLog := ← cfg.log.errorLog.strncpy v 511 } }
  else some cfg

/-- The section `[metrics]`. -/
def setMetricsKey (key v : List UInt8) (cfg : NpConfig) : Option NpConfig :=
  if key = bytes "enabled" then
    some { cfg with metrics := { cfg.metrics with enabled := parseBool v } }
  else if key = bytes "path" then do
    return { cfg with metrics := { cfg.metrics with path := ← cfg.metrics.path.strncpy v 511 } }
  else some cfg

/-- The section `[cache]`. -/
def setCacheKey (key v : List UInt8) (srv : NpServerConfig) : Option NpServerConfig :=
  if key = bytes "enabled" then some { srv with cache := { srv.cache with enabled := parseBool v } }
  else if key = bytes "root" then do
    return { srv with cache := { srv.cache with root := ← srv.cache.root.strncpy v 511 } }
  else if key = bytes "default_ttl" then
    some { srv with cache := { srv.cache with defaultTtl := atoi v } }
  else if key = bytes "max_entries" then
    some { srv with cache := { srv.cache with maxEntries := atoi v } }
  else some srv

/-- The section `[process]`. -/
def setProcessKey (key v : List UInt8) (cfg : NpConfig) : Option NpConfig :=
  if key = bytes "daemon" then
    some { cfg with process := { cfg.process with daemon := parseBool v } }
  else if key = bytes "pid_file" then do
    return { cfg with process := { cfg.process with
      pidFile := ← cfg.process.pidFile.strncpy v 511 } }
  else some cfg

/-- The section `[gzip]`. -/
def setGzipKey (key v : List UInt8) (srv : NpServerConfig) : Option NpServerConfig :=
  if key = bytes "enabled" then some { srv with gzip := { srv.gzip with enabled := parseBool v } }
  else if key = bytes "min_length" then
    some { srv with gzip := { srv.gzip with minLength := atoi v } }
  else some srv

/-- The sections, in the order of the source; `val` is where the value stands in the
line. -/
def assignKey (re : List UInt8 → Bool) (sect key : List UInt8) (line : Chars 512) (val : ℕ)
    (cfg : NpConfig) : Option NpConfig :=
  let v := line.str val
  if sect = bytes "server" then setServerKey re key line val cfg
  else if sect = bytes "tls" then cfg.onServer (setTlsKey key v)
  else if sect = bytes "proxy" then cfg.onServer (setProxyKey key v)
  else if sect = bytes "upstream" then cfg.onServer (setUpstreamKey key v)
  else if sect = bytes "rate_limit" then some (setRateLimitKey key v cfg)
  else if sect = bytes "log" then setLogKey key v cfg
  else if sect = bytes "metrics" then setMetricsKey key v cfg
  else if sect = bytes "cache" then cfg.onServer (setCacheKey key v)
  else if sect = bytes "process" then setProcessKey key v cfg
  else if sect = bytes "gzip" then cfg.onServer (setGzipKey key v)
  else some cfg

/-- The last test of the loop body, on its own in the source. -/
def setGlobalKey (sect key v : List UInt8) (cfg : NpConfig) : NpConfig :=
  if sect = bytes "global" ∧ key = bytes "shutdown_timeout" then
    { cfg with shutdownTimeout := atoi v }
  else cfg

/-! ### The loop -/

/-- The variables of the loop of `config_load` that outlive a turn. -/
structure Loader where
  cfg : NpConfig
  sect : Chars 64
  seenServer : Bool

/-- `fgets(line, sizeof(line), fp)` when it delivers a piece of the file. What an
earlier line left behind the NUL is never read, and is NUL here. -/
def fgetsLine (piece : List UInt8) : Option (Chars 512) := (zeros 512).storeAll 0 (piece ++ [0])

/-- `char *p = strchr(line, '#'); if (p) *p = '\0';`. -/
def cutComment (line : Chars 512) : Option (Chars 512) :=
  match line.strchr 0 35 with
  | some p => line.store p 0
  | none => some line

/-- `strip_comment`. -/
def stripComment (line : Chars 512) : Option (Chars 512) := do
  let line ← cutComment line
  line.store (line.backOver isspace 0 (line.str 0).length) 0

/-- A header whose name starts with `server`: the first one names the block that is
there already. -/
def Loader.serverHeader (st : Loader) : Option Loader :=
  if st.seenServer then
    if st.cfg.serverCount < configMaxServers then do
      let cfg := { st.cfg with serverCount := st.cfg.serverCount + 1 }
      return { st with cfg := ← cfg.onServer (·.begin) }
    else some st
  else some { st with seenServer := true }

/-- `if (strncmp(p + 1, "server", 6) == 0)`, for the text behind the bracket. -/
def Loader.noteServer (st : Loader) (text : List UInt8) : Option Loader :=
  if text.take 6 = bytes "server" then st.serverHeader else some st

/-- A line that starts with a bracket, at the index `p`. -/
def Loader.headerLine (st : Loader) (line : Chars 512) (p : ℕ) : Option Loader :=
  match line.strchr p 93 with
  | none => some st
  | some close => do
    let st ← st.noteServer (line.str (p + 1))
    return { st with
      sect := ← st.sect.copyStr (line.str (p + 1)) (min (close - p - 1) 63) }

/-- A line that starts with something else, at the index `p`. -/
def Loader.keyLine (st : Loader) (re : List UInt8 → Bool) (line : Chars 512) (p : ℕ) :
    Option Loader :=
  match line.strchr p 61 with
  | none => some st
  | some eq => do
    let line ← line.store eq 0
    let line ← FixedArray.cutBack isspace p line (p + (line.str p).length)
    let val := line.skip isspace (eq + 1)
    let line ← FixedArray.cutBack isspace val line (val + (line.str val).length)
    let sect := st.sect.str 0
    let cfg ← assignKey re sect (line.str p) line val st.cfg
    return { st with cfg := setGlobalKey sect (line.str p) (line.str val) cfg }

/-- One turn of the loop of `config_load`. -/
def Loader.readLine (st : Loader) (re : List UInt8 → Bool) (piece : List UInt8) :
    Option Loader := do
  let line ← fgetsLine piece
  let line ← stripComment line
  let p := line.skip isspace 0
  match line.str p with
  | [] => return st
  | c :: _ => if c = 91 then st.headerLine line p else st.keyLine re line p

/-- The loop of `config_load`, over the pieces `fgets` delivers. -/
def Loader.readLines (re : ℕ → List UInt8 → Bool) : ℕ → List (List UInt8) → Loader → Option Loader
  | _, [], st => some st
  | k, piece :: rest, st => (st.readLine (re k) piece).bind (readLines re (k + 1) rest)

/-- The loop variables in front of the loop. -/
def Loader.start : Option Loader := do
  return { cfg := ← configDefaults, sect := zeros 64, seenServer := false }

/-- The lines of the file, as `fgets` with 512 bytes delivers them. -/
def configLines (file : List UInt8) : List (List UInt8) := Pieces.pieces lf 511 file

/-- `config_load`, for a file that can be opened: the configuration it returns. -/
def configLoad (re : ℕ → List UInt8 → Bool) (file : List UInt8) : Option NpConfig := do
  let st ← (← Loader.start).readLines re 0 (configLines file)
  return st.cfg

end Nproxy
