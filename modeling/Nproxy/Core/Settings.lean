import Nproxy.Core.ConfigLoad

/-!
What a configuration file says, without the arrays of `core/config.h`.

* `parseLine` reads a line: a header, an assignment, or nothing.
* `editOf` says what an assignment in a section means: a change (`ServerEdit`) of
  the server block the line stands in, a change (`GlobalEdit`) of what all blocks
  share, or nothing.
* `ServerSettings` and `GlobalSettings` are the strings, numbers and lists that the
  rest of the program reads, with the limits of `core/config.h` in the edits.
* `Reading.step` is a line read, `readFile` and `Settings.load` a file.

`NpServerConfig.view` and `NpConfig.view` take the arrays of the loader to these
settings. That the loader computes them is in `Core/ConfigWf.lean`.
-/

namespace Nproxy

open FixedArray (Chars)

/-! ### Lines -/

/-- What the loader sees in a line. -/
inductive Line where
  /-- nothing -/
  | skip
  /-- `[name]` -/
  | header (name : List UInt8)
  /-- `key = val` -/
  | assign (key val : List UInt8)
  deriving DecidableEq, Repr

/-- A line without its comment and the white space at its ends. -/
def lineText (piece : List UInt8) : List UInt8 :=
  (((cstr piece).takeWhile (· != 35)).rdropWhile isspace).dropWhile isspace

/-- What a text without comment and outer blanks is: a header in brackets, an assignment, or
nothing. -/
def parseText : List UInt8 → Line
  | [] => .skip
  | c :: rest =>
    if c = 91 then
      if 93 ∈ rest then .header (rest.takeWhile (· != 93)) else .skip
    else if 61 ∈ c :: rest then
      .assign (((c :: rest).takeWhile (· != 61)).rdropWhile isspace)
        (((((c :: rest).dropWhile (· != 61)).drop 1).dropWhile isspace).rdropWhile isspace)
    else .skip

/-- What the loader sees in a line, after the comment and the blanks around it are gone. -/
def parseLine (piece : List UInt8) : Line := parseText (lineText piece)

/-- Is this byte inside the text of a line? A NUL and a comment end it. -/
def inText (c : UInt8) : Bool := c != 0 && c != 35

lemma lineText_eq (l : List UInt8) :
    lineText l = ((l.takeWhile inText).rdropWhile isspace).dropWhile isspace := by
  have hp : (fun c : UInt8 => decide ((c != 35) = true ∧ (c != 0) = true)) = inText := by
    funext c
    rw [inText, Bool.decide_and, Bool.decide_eq_true, Bool.decide_eq_true, Bool.and_comm]
  rw [lineText, cstr, List.takeWhile_takeWhile, hp]

/-- White space at the end is no part of what a line says. -/
lemma parseLine_concat {c : UInt8} (hspace : isspace c = true) (hin : inText c = true)
    (l : List UInt8) : parseLine (l ++ [c]) = parseLine l := by
  have hcut : ((l ++ [c]).takeWhile inText).rdropWhile isspace
      = (l.takeWhile inText).rdropWhile isspace := by
    rw [List.takeWhile_append]
    split
    · rename_i hall
      rw [List.takeWhile_cons_of_pos hin, List.takeWhile_nil,
        List.rdropWhile_concat_pos _ _ _ hspace, (List.takeWhile_prefix inText).eq_of_length hall]
    · rfl
  rw [parseLine, parseLine, lineText_eq, lineText_eq, hcut]

lemma parseLine_newline (l : List UInt8) : parseLine (l ++ [lf]) = parseLine l :=
  parseLine_concat (by decide) (by decide) l

lemma parseLine_blanks (l : List UInt8) (k : ℕ) :
    parseLine (l ++ List.replicate k 32) = parseLine l := by
  induction k with
  | zero => simp
  | succ k ih =>
    rw [List.replicate_succ', ← List.append_assoc, parseLine_concat (by decide) (by decide), ih]

/-- A comment is no part of what a line says. -/
lemma parseLine_comment (l m : List UInt8) : parseLine (l ++ 35 :: m) = parseLine l := by
  have hcut : (l ++ 35 :: m).takeWhile inText = l.takeWhile inText := by
    rw [List.takeWhile_append]
    split
    · rename_i hall
      rw [List.takeWhile_cons_of_neg (by decide), List.append_nil,
        (List.takeWhile_prefix inText).eq_of_length hall]
    · rfl
  rw [parseLine, parseLine, lineText_eq, lineText_eq, hcut]

/-! ### Settings -/

/-- A backend. -/
structure BackendSettings where
  host : List UInt8
  port : UInt16
  enabled : Bool
  deriving DecidableEq, Repr

/-- The settings of a server block. -/
@[ext]
structure ServerSettings where
  listenPort : UInt16
  serverName : List UInt8
  staticRoot : List UInt8
  modules : List (List UInt8)
  rewrite : List (List UInt8 × List UInt8)
  tryFiles : List (List UInt8)
  tlsEnabled : Bool
  tlsListenPort : UInt16
  certFile : List UInt8
  keyFile : List UInt8
  proxyEnabled : Bool
  mode : BalanceMode
  connectTimeout : ℤ
  upstreamTimeout : ℤ
  keepaliveConns : ℤ
  backends : List BackendSettings
  cacheEnabled : Bool
  cacheRoot : List UInt8
  defaultTtl : ℤ
  maxEntries : ℤ
  gzipEnabled : Bool
  minLength : ℤ
  deriving DecidableEq, Repr

/-- The settings that all server blocks share. -/
structure GlobalSettings where
  listenAddr : List UInt8
  workerProcesses : ℤ
  backlog : ℤ
  maxConnections : ℤ
  keepaliveTimeout : ℤ
  readTimeout : ℤ
  writeTimeout : ℤ
  rateLimitEnabled : Bool
  requestsPerSecond : ℤ
  burst : ℤ
  level : LogLevel
  accessLog : List UInt8
  errorLog : List UInt8
  metricsEnabled : Bool
  metricsPath : List UInt8
  daemon : Bool
  pidFile : List UInt8
  shutdownTimeout : ℤ
  deriving DecidableEq, Repr

/-- A configuration as lists and numbers, without the arrays that hold it. -/
structure Settings where
  globals : GlobalSettings
  servers : List ServerSettings
  deriving DecidableEq, Repr

/-- A server block that the file has begun. -/
def ServerSettings.later : ServerSettings where
  listenPort := 8080
  serverName := []
  staticRoot := bytes "./www"
  modules := []
  rewrite := []
  tryFiles := []
  tlsEnabled := false
  tlsListenPort := 0
  certFile := []
  keyFile := []
  proxyEnabled := false
  mode := .roundRobin
  connectTimeout := 0
  upstreamTimeout := 0
  keepaliveConns := 0
  backends := []
  cacheEnabled := false
  cacheRoot := []
  defaultTtl := 0
  maxEntries := 0
  gzipEnabled := false
  minLength := 0

/-- The server block that is there before the file is read. -/
def ServerSettings.first : ServerSettings :=
  { ServerSettings.later with
    tlsListenPort := 8443, connectTimeout := 5, upstreamTimeout := 30, keepaliveConns := 16 }

/-- The settings before the file is read. -/
def Settings.defaults : Settings where
  globals :=
    { listenAddr := bytes "0.0.0.0"
      workerProcesses := 4
      backlog := 4096
      maxConnections := 100000
      keepaliveTimeout := 75
      readTimeout := 60
      writeTimeout := 60
      rateLimitEnabled := false
      requestsPerSecond := 1000
      burst := 200
      level := .info
      accessLog := bytes "./logs/access.log"
      errorLog := bytes "./logs/error.log"
      metricsEnabled := false
      metricsPath := bytes "/metrics"
      daemon := false
      pidFile := []
      shutdownTimeout := 0 }
  servers := [.first]

/-! ### Edits -/

/-- A change of a server block. -/
inductive ServerEdit where
  | listenPort (p : UInt16)
  | serverName (s : List UInt8)
  | staticRoot (s : List UInt8)
  | loadModule (s : List UInt8)
  | rewrite (pattern repl : List UInt8)
  | tryFiles (paths : List (List UInt8))
  | tlsEnabled (b : Bool)
  | tlsListenPort (p : UInt16)
  | certFile (s : List UInt8)
  | keyFile (s : List UInt8)
  | proxyEnabled (b : Bool)
  | mode (m : BalanceMode)
  | connectTimeout (t : ℤ)
  | upstreamTimeout (t : ℤ)
  | keepaliveConns (n : ℤ)
  | backend (b : BackendSettings)
  | cacheEnabled (b : Bool)
  | cacheRoot (s : List UInt8)
  | defaultTtl (t : ℤ)
  | maxEntries (n : ℤ)
  | gzipEnabled (b : Bool)
  | minLength (n : ℤ)
  deriving DecidableEq, Repr

/-- A change of what all server blocks share. -/
inductive GlobalEdit where
  | listenAddr (s : List UInt8)
  | workerProcesses (n : ℤ)
  | backlog (n : ℤ)
  | maxConnections (n : ℤ)
  | keepaliveTimeout (t : ℤ)
  | readTimeout (t : ℤ)
  | writeTimeout (t : ℤ)
  | rateLimitEnabled (b : Bool)
  | requestsPerSecond (n : ℤ)
  | burst (n : ℤ)
  | level (text : List UInt8)
  | accessLog (s : List UInt8)
  | errorLog (s : List UInt8)
  | metricsEnabled (b : Bool)
  | metricsPath (s : List UInt8)
  | daemon (b : Bool)
  | pidFile (s : List UInt8)
  | shutdownTimeout (t : ℤ)
  deriving DecidableEq, Repr

/-- A change of the settings by one assignment, in the last server block or outside of all. -/
inductive Edit where
  | server (e : ServerEdit)
  | globals (e : GlobalEdit)
  deriving DecidableEq, Repr

/-- A change of a server block, done. A table that is full takes nothing more, and a
rule whose pattern does not compile is dropped. -/
def ServerEdit.apply (re : List UInt8 → Bool) (s : ServerSettings) : ServerEdit → ServerSettings
  | listenPort p => { s with listenPort := p }
  | serverName t => { s with serverName := t }
  | staticRoot t => { s with staticRoot := t }
  | loadModule t =>
    if s.modules.length < configMaxModules then { s with modules := s.modules ++ [t] } else s
  | rewrite pattern repl =>
    if s.rewrite.length < configMaxRewrites ∧ re pattern = true then
      { s with rewrite := s.rewrite ++ [(pattern, repl)] }
    else s
  | tryFiles paths =>
    { s with tryFiles := s.tryFiles ++ paths.take (configMaxTryFiles - s.tryFiles.length) }
  | tlsEnabled b => { s with tlsEnabled := b }
  | tlsListenPort p => { s with tlsListenPort := p }
  | certFile t => { s with certFile := t }
  | keyFile t => { s with keyFile := t }
  | proxyEnabled b => { s with proxyEnabled := b }
  | mode m => { s with mode := m }
  | connectTimeout t => { s with connectTimeout := t }
  | upstreamTimeout t => { s with upstreamTimeout := t }
  | keepaliveConns n => { s with keepaliveConns := n }
  | backend b =>
    if s.backends.length < configMaxBackends then { s with backends := s.backends ++ [b] } else s
  | cacheEnabled b => { s with cacheEnabled := b }
  | cacheRoot t => { s with cacheRoot := t }
  | defaultTtl t => { s with defaultTtl := t }
  | maxEntries n => { s with maxEntries := n }
  | gzipEnabled b => { s with gzipEnabled := b }
  | minLength n => { s with minLength := n }

/-- A change of what all server blocks share, done. -/
def GlobalEdit.apply (s : GlobalSettings) : GlobalEdit → GlobalSettings
  | listenAddr t => { s with listenAddr := t }
  | workerProcesses n => { s with workerProcesses := n }
  | backlog n => { s with backlog := n }
  | maxConnections n => { s with maxConnections := n }
  | keepaliveTimeout t => { s with keepaliveTimeout := t }
  | readTimeout t => { s with readTimeout := t }
  | writeTimeout t => { s with writeTimeout := t }
  | rateLimitEnabled b => { s with rateLimitEnabled := b }
  | requestsPerSecond n => { s with requestsPerSecond := n }
  | burst n => { s with burst := n }
  | level text => { s with level := levelOf text s.level }
  | accessLog t => { s with accessLog := t }
  | errorLog t => { s with errorLog := t }
  | metricsEnabled b => { s with metricsEnabled := b }
  | metricsPath t => { s with metricsPath := t }
  | daemon b => { s with daemon := b }
  | pidFile t => { s with pidFile := t }
  | shutdownTimeout t => { s with shutdownTimeout := t }

/-! ### What an assignment means -/

/-- The key `rewrite`: the value is a pattern, a blank and a replacement. -/
def rewriteEdit (v : List UInt8) : Option ServerEdit :=
  if 32 ∈ v then
    some (.rewrite ((v.takeWhile (· != 32)).take 511)
      ((((v.dropWhile (· != 32)).drop 1).dropWhile isspace).take 511))
  else none

/-- The keys of `[server]`. -/
def serverSection (key v : List UInt8) : Option Edit :=
  if key = bytes "listen_port" then some (.server (.listenPort (portOf v)))
  else if key = bytes "server_name" then some (.server (.serverName (v.take 511)))
  else if key = bytes "listen_addr" then some (.globals (.listenAddr (v.take 63)))
  else if key = bytes "worker_processes" then some (.globals (.workerProcesses (atoi v)))
  else if key = bytes "backlog" then some (.globals (.backlog (atoi v)))
  else if key = bytes "max_connections" then some (.globals (.maxConnections (atoi v)))
  else if key = bytes "keepalive_timeout" then some (.globals (.keepaliveTimeout (atoi v)))
  else if key = bytes "read_timeout" then some (.globals (.readTimeout (atoi v)))
  else if key = bytes "write_timeout" then some (.globals (.writeTimeout (atoi v)))
  else if key = bytes "static_root" then some (.server (.staticRoot (v.take 511)))
  else if key = bytes "load_module" then some (.server (.loadModule (v.take 511)))
  else if key = bytes "rewrite" then (rewriteEdit v).map .server
  else if key = bytes "try_files" then
    some (.server (.tryFiles ((FixedArray.tokens 32 v).map (·.take 511))))
  else none

/-- The keys of `[tls]`. -/
def tlsSection (key v : List UInt8) : Option ServerEdit :=
  if key = bytes "enabled" then some (.tlsEnabled (parseBool v))
  else if key = bytes "listen_port" then some (.tlsListenPort (portOf v))
  else if key = bytes "cert_file" then some (.certFile (v.take 511))
  else if key = bytes "key_file" then some (.keyFile (v.take 511))
  else none

/-- The keys of `[proxy]`. -/
def proxySection (key v : List UInt8) : Option ServerEdit :=
  if key = bytes "enabled" then some (.proxyEnabled (parseBool v))
  else if key = bytes "mode" then some (.mode (modeOf v))
  else if key = bytes "connect_timeout" then some (.connectTimeout (atoi v))
  else if key = bytes "upstream_timeout" then some (.upstreamTimeout (atoi v))
  else if key = bytes "keepalive_conns" then some (.keepaliveConns (atoi v))
  else none

/-- The value of the key `backend`. -/
def backendOf (v : List UInt8) : BackendSettings :=
  match strrchr v 58 with
  | some colon => ⟨v.take (min colon 255), portOf (v.drop (colon + 1)), true⟩
  | none => ⟨v.take 255, 80, true⟩

/-- The keys of `[upstream]`. -/
def upstreamSection (key v : List UInt8) : Option ServerEdit :=
  if key = bytes "backend" then some (.backend (backendOf v)) else none

/-- The keys of `[cache]`. -/
def cacheSection (key v : List UInt8) : Option ServerEdit :=
  if key = bytes "enabled" then some (.cacheEnabled (parseBool v))
  else if key = bytes "root" then some (.cacheRoot (v.take 511))
  else if key = bytes "default_ttl" then some (.defaultTtl (atoi v))
  else if key = bytes "max_entries" then some (.maxEntries (atoi v))
  else none

/-- The keys of `[gzip]`. -/
def gzipSection (key v : List UInt8) : Option ServerEdit :=
  if key = bytes "enabled" then some (.gzipEnabled (parseBool v))
  else if key = bytes "min_length" then some (.minLength (atoi v))
  else none

/-- The keys of `[rate_limit]`. -/
def rateLimitSection (key v : List UInt8) : Option GlobalEdit :=
  if key = bytes "enabled" then some (.rateLimitEnabled (parseBool v))
  else if key = bytes "requests_per_second" then some (.requestsPerSecond (atoi v))
  else if key = bytes "burst" then some (.burst (atoi v))
  else none

/-- The keys of `[log]`. -/
def logSection (key v : List UInt8) : Option GlobalEdit :=
  if key = bytes "level" then some (.level v)
  else if key = bytes "access_log" then some (.accessLog (v.take 511))
  else if key = bytes "error_log" then some (.errorLog (v.take 511))
  else none

/-- The keys of `[metrics]`. -/
def metricsSection (key v : List UInt8) : Option GlobalEdit :=
  if key = bytes "enabled" then some (.metricsEnabled (parseBool v))
  else if key = bytes "path" then some (.metricsPath (v.take 511))
  else none

/-- The keys of `[process]`. -/
def processSection (key v : List UInt8) : Option GlobalEdit :=
  if key = bytes "daemon" then some (.daemon (parseBool v))
  else if key = bytes "pid_file" then some (.pidFile (v.take 511))
  else none

/-- What an assignment means in a section. -/
def editOf (sect key v : List UInt8) : Option Edit :=
  if sect = bytes "server" then serverSection key v
  else if sect = bytes "tls" then (tlsSection key v).map .server
  else if sect = bytes "proxy" then (proxySection key v).map .server
  else if sect = bytes "upstream" then (upstreamSection key v).map .server
  else if sect = bytes "rate_limit" then (rateLimitSection key v).map .globals
  else if sect = bytes "log" then (logSection key v).map .globals
  else if sect = bytes "metrics" then (metricsSection key v).map .globals
  else if sect = bytes "cache" then (cacheSection key v).map .server
  else if sect = bytes "process" then (processSection key v).map .globals
  else if sect = bytes "gzip" then (gzipSection key v).map .server
  else if sect = bytes "global" ∧ key = bytes "shutdown_timeout" then
    some (.globals (.shutdownTimeout (atoi v)))
  else none

lemma bytes_eq_nil_iff {s : String} : bytes s = [] ↔ s = "" := by
  rw [bytes, List.map_eq_nil_iff, String.toList_eq_nil_iff]

lemma editOf_nil (sect v : List UInt8) : editOf sect [] v = none := by
  simp [editOf, serverSection, tlsSection, proxySection, upstreamSection, rateLimitSection,
    logSection, metricsSection, cacheSection, processSection, gzipSection, bytes_eq_nil_iff]

/-! ### Reading a file -/

/-- Where the reading of a file has got to. -/
structure Reading where
  settings : Settings
  sect : List UInt8
  seenServer : Bool
  deriving DecidableEq, Repr

/-- Does a header begin a server block? -/
def isServerHeader (name : List UInt8) : Bool := name.take 6 = bytes "server"

/-- The server block the loader is in changes. -/
def Settings.onServer (s : Settings) (f : ServerSettings → ServerSettings) : Settings :=
  { s with servers := s.servers.modify (s.servers.length - 1) f }

lemma modify_concat {α : Type*} (l : List α) (x : α) (f : α → α) :
    (l ++ [x]).modify l.length f = l ++ [f x] := by
  induction l with
  | nil => rfl
  | cons y l ih => rw [List.cons_append, List.length_cons, List.modify_succ_cons, ih]; rfl

/-- The server block the loader is in is the last one. -/
lemma Settings.onServer_concat (g : GlobalSettings) (l : List ServerSettings) (x : ServerSettings)
    (f : ServerSettings → ServerSettings) :
    (Settings.mk g (l ++ [x])).onServer f = ⟨g, l ++ [f x]⟩ := by
  rw [onServer, List.length_append, List.length_singleton, Nat.add_sub_cancel, modify_concat]

/-- A change of the settings, done. -/
def Settings.edit (re : List UInt8 → Bool) (s : Settings) : Edit → Settings
  | .server e => s.onServer (e.apply re)
  | .globals e => { s with globals := e.apply s.globals }

/-- A header that begins a server block: the first one names the block that is there
already, and the seventeenth finds no room. -/
def Settings.beginServer (s : Settings) (seen : Bool) : Settings :=
  if seen = true ∧ s.servers.length < configMaxServers then
    { s with servers := s.servers ++ [.later] }
  else s

/-- One line is read: a header changes the section and may begin a server block, an assignment
changes the settings if its key is known there. -/
def Reading.step (re : List UInt8 → Bool) (r : Reading) : Line → Reading
  | .skip => r
  | .header name =>
    { settings := if isServerHeader name then r.settings.beginServer r.seenServer else r.settings
      sect := name.take 63
      seenServer := r.seenServer || isServerHeader name }
  | .assign key val =>
    match editOf r.sect key val with
    | some e => { r with settings := r.settings.edit re e }
    | none => r

/-- Before the first line. -/
def Reading.start : Reading := ⟨.defaults, [], false⟩

/-- The lines of a file. -/
def fileLines (file : List UInt8) : List Line := (configLines file).map parseLine

/-- Where the reading of a file ends, for a `regcomp` that looks at the pattern only. -/
def readFile (re : List UInt8 → Bool) (file : List UInt8) : Reading :=
  (fileLines file).foldl (Reading.step re) .start

/-- The settings a file gives. -/
def Settings.load (re : List UInt8 → Bool) (file : List UInt8) : Settings :=
  (readFile re file).settings

/-! ### The settings in the arrays of the loader -/

/-- The strings of a table. -/
def PathTable.view {n : ℕ} (t : PathTable n) : List (List UInt8) :=
  (t.paths.elems.take t.count).map (·.str 0)

/-- The rules that count. -/
def RewriteTable.view (t : RewriteTable) : List (List UInt8 × List UInt8) :=
  (t.rules.elems.take t.count).map fun r => (r.pattern.str 0, r.replacement.str 0)

/-- A backend. -/
def NpBackendEntry.view (b : NpBackendEntry) : BackendSettings := ⟨b.host.str 0, b.port, b.enabled⟩

/-- The backends that count. -/
def ProxyConfig.backendsView (p : ProxyConfig) : List BackendSettings :=
  (p.backends.elems.take p.backendCount).map NpBackendEntry.view

/-- The settings of a server block. -/
def NpServerConfig.view (srv : NpServerConfig) : ServerSettings where
  listenPort := srv.listenPort
  serverName := srv.serverName.str 0
  staticRoot := srv.staticRoot.str 0
  modules := srv.modules.view
  rewrite := srv.rewrite.view
  tryFiles := srv.tryFiles.view
  tlsEnabled := srv.tls.enabled
  tlsListenPort := srv.tls.listenPort
  certFile := srv.tls.certFile.str 0
  keyFile := srv.tls.keyFile.str 0
  proxyEnabled := srv.proxy.enabled
  mode := srv.proxy.mode
  connectTimeout := srv.proxy.connectTimeout
  upstreamTimeout := srv.proxy.upstreamTimeout
  keepaliveConns := srv.proxy.keepaliveConns
  backends := srv.proxy.backendsView
  cacheEnabled := srv.cache.enabled
  cacheRoot := srv.cache.root.str 0
  defaultTtl := srv.cache.defaultTtl
  maxEntries := srv.cache.maxEntries
  gzipEnabled := srv.gzip.enabled
  minLength := srv.gzip.minLength

/-- The settings that all server blocks share. -/
def NpConfig.globals (cfg : NpConfig) : GlobalSettings where
  listenAddr := cfg.listenAddr.str 0
  workerProcesses := cfg.workerProcesses
  backlog := cfg.backlog
  maxConnections := cfg.maxConnections
  keepaliveTimeout := cfg.keepaliveTimeout
  readTimeout := cfg.readTimeout
  writeTimeout := cfg.writeTimeout
  rateLimitEnabled := cfg.rateLimit.enabled
  requestsPerSecond := cfg.rateLimit.requestsPerSecond
  burst := cfg.rateLimit.burst
  level := cfg.log.level
  accessLog := cfg.log.accessLog.str 0
  errorLog := cfg.log.errorLog.str 0
  metricsEnabled := cfg.metrics.enabled
  metricsPath := cfg.metrics.path.str 0
  daemon := cfg.process.daemon
  pidFile := cfg.process.pidFile.str 0
  shutdownTimeout := cfg.shutdownTimeout

/-- The configuration the rest of the program sees. -/
def NpConfig.view (cfg : NpConfig) : Settings where
  globals := cfg.globals
  servers := (cfg.servers.elems.take cfg.serverCount).map NpServerConfig.view

/-- The variables of the loop without their arrays. -/
def Loader.view (st : Loader) : Reading := ⟨st.cfg.view, st.sect.str 0, st.seenServer⟩

end Nproxy
