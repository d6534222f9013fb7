import Nproxy.Core.Settings

/-!
The loader of `core/config.c` stays inside its arrays, and computes the settings of
`Core/Settings.lean`.

* `Wf` of the records: every count is at most the size of its table, the last byte of
  every string array is NUL, and a server block that no header has begun is all zero.
* `ServerRefines` is the step lemma for a change of a server block: from a well
  formed block it succeeds, gives a well formed block, and does to the settings what
  the edit says. Each key has one, and `NpConfig.exists_onServer` takes it to the
  configuration.
* `Loader.exists_readLine` is one turn of the loop, `Loader.exists_readLines` the
  loop.
-/

namespace Nproxy

open FixedArray (Chars)

/-! ### Well-formed records -/

/-- A table of paths that end, as many as it has room for. -/
structure PathTable.Wf {n : ℕ} (t : PathTable n) : Prop where
  count_le : t.count ≤ n
  paths : ∀ p ∈ t.paths.elems, p.Closed

/-- A table of rules whose texts end, as many as it has room for. -/
structure RewriteTable.Wf (t : RewriteTable) : Prop where
  count_le : t.count ≤ configMaxRewrites
  patterns : ∀ r ∈ t.rules.elems, r.pattern.Closed
  replacements : ∀ r ∈ t.rules.elems, r.replacement.Closed

/-- A server block whose strings end and whose tables are not overfull. -/
structure NpServerConfig.Wf (srv : NpServerConfig) : Prop where
  serverName : srv.serverName.Closed
  staticRoot : srv.staticRoot.Closed
  modules : srv.modules.Wf
  rewrite : srv.rewrite.Wf
  tryFiles : srv.tryFiles.Wf
  certFile : srv.tls.certFile.Closed
  keyFile : srv.tls.keyFile.Closed
  backendCount_le : srv.proxy.backendCount ≤ configMaxBackends
  hosts : ∀ b ∈ srv.proxy.backends.elems, b.host.Closed
  cacheRoot : srv.cache.root.Closed

/-- A configuration whose strings end, with at least one server block, and zeros in the records that
are not in use. -/
structure NpConfig.Wf (cfg : NpConfig) : Prop where
  listenAddr : cfg.listenAddr.Closed
  one_le : 1 ≤ cfg.serverCount
  serverCount_le : cfg.serverCount ≤ configMaxServers
  servers : ∀ srv ∈ cfg.servers.elems, srv.Wf
  unused : ∀ i, cfg.serverCount ≤ i → ∀ srv, cfg.servers.get? i = some srv → srv = .zero
  accessLog : cfg.log.accessLog.Closed
  errorLog : cfg.log.errorLog.Closed
  metricsPath : cfg.metrics.path.Closed
  pidFile : cfg.process.pidFile.Closed

/-- The variables of the loop in `config_load`: the configuration so far, and the name of the
section. -/
structure Loader.Wf (st : Loader) : Prop where
  cfg : st.cfg.Wf
  sect : st.sect.Closed

/-! ### Tables -/

lemma PathTable.length_view {n : ℕ} {t : PathTable n} (h : t.Wf) : t.view.length = t.count := by
  rw [view, List.length_map, List.length_take, t.paths.length_eq, Nat.min_eq_left h.count_le]

lemma PathTable.exists_push {n : ℕ} {t : PathTable n} (h : t.Wf) (hroom : t.count < n)
    {s : List UInt8} (h0 : 0 ∉ s) :
    ∃ t', t.push s = some t' ∧ t'.Wf ∧ t'.view = t.view ++ [s.take 511] := by
  obtain ⟨slot, hslot⟩ := t.paths.get?_of_lt hroom
  obtain ⟨str, hstr, hview, hclosed⟩ :=
    FixedArray.exists_strncpy (h.paths slot (FixedArray.mem_of_get? hslot)) (m := 511) rfl h0
  obtain ⟨paths, hpaths, -⟩ := t.paths.exists_store hroom str
  refine ⟨⟨paths, t.count + 1⟩, by simp [push, hslot, hstr, hpaths], ⟨hroom, ?_⟩, ?_⟩
  · intro p hp
    cases FixedArray.mem_of_store hpaths hp with
    | inl h' => exact h.paths p h'
    | inr h' => exact h' ▸ hclosed
  · rw [view, FixedArray.take_succ_of_store hpaths, List.map_append, view, List.map_singleton,
      hview]

lemma RewriteTable.length_view {t : RewriteTable} (h : t.Wf) : t.view.length = t.count := by
  rw [view, List.length_map, List.length_take, t.rules.length_eq, Nat.min_eq_left h.count_le]

/-- A rule behind the last one, if its pattern compiles. -/
lemma RewriteTable.exists_push {t : RewriteTable} (h : t.Wf) (hroom : t.count < configMaxRewrites)
    (re : List UInt8 → Bool) {pattern repl : List UInt8} (h0 : 0 ∉ pattern) (h0' : 0 ∉ repl) :
    ∃ t', t.push re pattern repl = some t' ∧ t'.Wf ∧
      t'.view = if re (pattern.take 511) = true then t.view ++ [(pattern.take 511, repl.take 511)]
        else t.view := by
  obtain ⟨slot, hslot⟩ := t.rules.get?_of_lt hroom
  have hmem := FixedArray.mem_of_get? hslot
  obtain ⟨pat, hpat, hpatv, hpatc⟩ :=
    FixedArray.exists_strncpy (h.patterns slot hmem) (m := 511) rfl h0
  obtain ⟨rep, hrep, hrepv, hrepc⟩ :=
    FixedArray.exists_strncpy (h.replacements slot hmem) (m := 511) rfl h0'
  obtain ⟨rules, hrules, -⟩ := t.rules.exists_store hroom ⟨pat, rep⟩
  refine ⟨⟨rules, if re (pattern.take 511) = true then t.count + 1 else t.count⟩,
    by simp [push, hslot, hpat, hrep, hrules, hpatv], ⟨?_, ?_, ?_⟩, ?_⟩
  · dsimp only
    split
    · exact hroom
    · exact hroom.le
  · intro r hr
    cases FixedArray.mem_of_store hrules hr with
    | inl h' => exact h.patterns r h'
    | inr h' => exact h' ▸ hpatc
  · intro r hr
    cases FixedArray.mem_of_store hrules hr with
    | inl h' => exact h.replacements r h'
    | inr h' => exact h' ▸ hrepc
  · rw [view]
    dsimp only
    split
    · rw [FixedArray.take_succ_of_store hrules, List.map_append, view, List.map_singleton, hpatv,
        hrepv]
    · rw [FixedArray.take_of_store hrules, view]

namespace PathTable

/-- The loop over the tokens of `try_files` adds as many as the table takes. -/
lemma exists_tryFilesTokens (fuel : ℕ) {t : PathTable configMaxTryFiles} (h : t.Wf)
    {line : Chars 512} {i : ℕ} (hi : line.Ends i) (hfuel : configMaxTryFiles - t.count ≤ fuel) :
    ∃ tok, line.strtok 32 i = some tok ∧ ∃ t', tryFilesTokens fuel tok t = some t' ∧ t'.Wf ∧
      t'.view = t.view ++
        ((FixedArray.tokens 32 (line.str i)).map (·.take 511)).take
          (configMaxTryFiles - t.count) := by
  induction fuel generalizing t line i with
  | zero =>
    have hfull : configMaxTryFiles - t.count = 0 := by omega
    cases FixedArray.strtok_cases (d := 32) hi with
    | inl hnone => exact ⟨none, hnone.2, t, rfl, h, by simp [hfull]⟩
    | inr hsome =>
      obtain ⟨s, e, b, htok, -, -⟩ := hsome
      exact ⟨_, htok, t, rfl, h, by simp [hfull]⟩
  | succ fuel ih =>
    cases FixedArray.strtok_cases (d := 32) hi with
    | inl hnone => exact ⟨none, hnone.2, t, rfl, h, by simp [hnone.1]⟩
    | inr hsome =>
      obtain ⟨s, e, b, htok, hsplit, hends⟩ := hsome
      refine ⟨_, htok, ?_⟩
      by_cases hroom : t.count < configMaxTryFiles
      · obtain ⟨t₁, hpush, hwf, hview⟩ := t.exists_push h hroom (b.zero_notMem_str s)
        have hcount : t₁.count = t.count + 1 := by
          rw [← length_view hwf, hview, List.length_append, length_view h,
            List.length_singleton]
        obtain ⟨tok, hnext, t', ht', hwf', hview'⟩ := ih hwf hends (by omega)
        refine ⟨t', ?_, hwf', ?_⟩
        · simp [tryFilesTokens, hroom, hpush, hnext, ht']
        · rw [hview', hview, hsplit, hcount,
            show configMaxTryFiles - t.count = configMaxTryFiles - (t.count + 1) + 1 by omega]
          simp
      · refine ⟨t, by simp [tryFilesTokens, hroom], h, ?_⟩
        rw [show configMaxTryFiles - t.count = 0 by omega]
        simp

end PathTable

/-! ### Server blocks -/

/-- A change of a server block does what an edit says. -/
def ServerRefines (re : List UInt8 → Bool) (f : NpServerConfig → Option NpServerConfig)
    (e : Option ServerEdit) : Prop :=
  ∀ srv : NpServerConfig, srv.Wf → ∃ srv', f srv = some srv' ∧ srv'.Wf ∧
    srv'.view = e.elim srv.view (ServerEdit.apply re srv.view)

variable {re : List UInt8 → Bool} {key v : List UInt8}

lemma serverRefines_tls (h0 : 0 ∉ v) : ServerRefines re (setTlsKey key v) (tlsSection key v) := by
  intro srv h
  rw [setTlsKey, tlsSection]
  split_ifs
  · exact ⟨_, rfl, { h with }, rfl⟩
  · exact ⟨_, rfl, { h with }, rfl⟩
  · obtain ⟨a, ha, hstr, hc⟩ := FixedArray.exists_strncpy h.certFile (m := 511) rfl h0
    rw [ha]
    refine ⟨_, rfl, { h with certFile := hc }, ?_⟩
    simp [NpServerConfig.view, ServerEdit.apply, hstr]
  · obtain ⟨a, ha, hstr, hc⟩ := FixedArray.exists_strncpy h.keyFile (m := 511) rfl h0
    rw [ha]
    refine ⟨_, rfl, { h with keyFile := hc }, ?_⟩
    simp [NpServerConfig.view, ServerEdit.apply, hstr]
  · exact ⟨_, rfl, h, rfl⟩

lemma serverRefines_proxy : ServerRefines re (setProxyKey key v) (proxySection key v) := by
  intro srv h
  rw [setProxyKey, proxySection]
  split_ifs
  all_goals exact ⟨_, rfl, { h with }, rfl⟩

lemma NpBackendEntry.exists_fill {be : NpBackendEntry} (h : be.host.Closed) (h0 : 0 ∉ v) :
    ∃ be', be.fill v = some be' ∧ be'.host.Closed ∧ be'.view = backendOf v := by
  rw [fill, backendOf]
  cases hcolon : strrchr v 58 with
  | none =>
    obtain ⟨a, ha, hstr, hc⟩ := FixedArray.exists_strncpy h (m := 255) rfl h0
    simp only [ha]
    exact ⟨_, rfl, hc, by simp [view, hstr]⟩
  | some colon =>
    have hle : min colon 255 ≤ v.length := by
      rw [strrchr, Option.map_eq_some_iff] at hcolon
      obtain ⟨i, -, rfl⟩ := hcolon
      omega
    obtain ⟨a, ha, hstr, hc⟩ :=
      FixedArray.exists_copyStr h (min colon 255) (by omega) v h0 hle
    simp only [ha]
    exact ⟨_, rfl, hc, by simp [view, hstr]⟩

lemma NpServerConfig.length_backends {srv : NpServerConfig} (h : srv.Wf) :
    srv.view.backends.length = srv.proxy.backendCount := by
  rw [view, ProxyConfig.backendsView, List.length_map, List.length_take,
    srv.proxy.backends.length_eq, Nat.min_eq_left h.backendCount_le]

lemma serverRefines_upstream (h0 : 0 ∉ v) :
    ServerRefines re (setUpstreamKey key v) (upstreamSection key v) := by
  intro srv h
  rw [setUpstreamKey, upstreamSection]
  by_cases hkey : key = bytes "backend"
  · rw [if_pos hkey]
    by_cases hroom : srv.proxy.backendCount < configMaxBackends
    · rw [if_pos ⟨hkey, hroom⟩]
      obtain ⟨be, hbe⟩ := srv.proxy.backends.get?_of_lt hroom
      obtain ⟨be', hfill, hc, hview⟩ :=
        be.exists_fill (h.hosts be (FixedArray.mem_of_get? hbe)) h0
      obtain ⟨backends, hstore, -⟩ := srv.proxy.backends.exists_store hroom be'
      simp only [hbe, hfill, hstore, Option.bind_eq_bind, Option.bind_some]
      refine ⟨_, rfl, { h with backendCount_le := hroom, hosts := ?_ }, ?_⟩
      · intro b hb
        cases FixedArray.mem_of_store hstore hb with
        | inl h' => exact h.hosts b h'
        | inr h' => exact h' ▸ hc
      · rw [Option.elim_some, ServerEdit.apply, NpServerConfig.length_backends h, if_pos hroom]
        simp [NpServerConfig.view, ProxyConfig.backendsView, hview,
          FixedArray.take_succ_of_store hstore]
    · rw [if_neg fun h' => hroom h'.2]
      refine ⟨_, rfl, h, ?_⟩
      rw [Option.elim_some, ServerEdit.apply, NpServerConfig.length_backends h, if_neg hroom]
  · rw [if_neg fun h' => hkey h'.1, if_neg hkey]
    exact ⟨_, rfl, h, rfl⟩

lemma serverRefines_cache (h0 : 0 ∉ v) :
    ServerRefines re (setCacheKey key v) (cacheSection key v) := by
  intro srv h
  rw [setCacheKey, cacheSection]
  split_ifs
  · exact ⟨_, rfl, { h with }, rfl⟩
  · obtain ⟨a, ha, hstr, hc⟩ := FixedArray.exists_strncpy h.cacheRoot (m := 511) rfl h0
    rw [ha]
    refine ⟨_, rfl, { h with cacheRoot := hc }, ?_⟩
    simp [NpServerConfig.view, ServerEdit.apply, hstr]
  · exact ⟨_, rfl, { h with }, rfl⟩
  · exact ⟨_, rfl, { h with }, rfl⟩
  · exact ⟨_, rfl, h, rfl⟩

lemma serverRefines_gzip : ServerRefines re (setGzipKey key v) (gzipSection key v) := by
  intro srv h
  rw [setGzipKey, gzipSection]
  split_ifs
  all_goals exact ⟨_, rfl, { h with }, rfl⟩

/-- The key `rewrite` of `[server]`, in a table with room. -/
lemma serverRefines_rewrite {line : Chars 512} {val : ℕ} (hval : line.Ends val) :
    ServerRefines re
      (fun srv => if srv.rewrite.count < configMaxRewrites then setRewriteKey re line val srv
        else some srv) (rewriteEdit (line.str val)) := by
  intro srv h
  have hlen : srv.view.rewrite.length = srv.rewrite.count := srv.rewrite.length_view h.rewrite
  rw [rewriteEdit]
  by_cases hblank : 32 ∈ line.str val
  · rw [if_pos hblank, Option.elim_some, ServerEdit.apply, hlen]
    by_cases hroom : srv.rewrite.count < configMaxRewrites
    · obtain ⟨space, hspace⟩ := FixedArray.exists_strchr hblank
      obtain ⟨line', hline', -, -, hrest, hpat, hrepl, -⟩ := FixedArray.exists_cutAt hval hspace
      obtain ⟨t, ht, hwf, hview⟩ := srv.rewrite.exists_push h.rewrite hroom re
        (line'.zero_notMem_str val) (line'.zero_notMem_str (line'.skip isspace (space + 1)))
      rw [FixedArray.str_skip, hpat, hrepl] at hview
      simp only [if_pos hroom, setRewriteKey, hspace, hline', Option.bind_eq_bind,
        Option.bind_some, ht]
      refine ⟨_, rfl, { h with rewrite := hwf }, ?_⟩
      rw [NpServerConfig.view, hview]
      by_cases hre : re (((line.str val).takeWhile (· != 32)).take 511) = true
      · rw [if_pos hre, if_pos ⟨hroom, hre⟩]
        rfl
      · rw [if_neg hre, if_neg fun h' => hre h'.2]
        rfl
    · rw [if_neg fun h' => hroom h'.1]
      simp only [if_neg hroom]
      exact ⟨_, rfl, h, rfl⟩
  · rw [if_neg hblank]
    simp only [setRewriteKey, FixedArray.strchr_eq_none_iff.mpr hblank, ite_self]
    exact ⟨_, rfl, h, rfl⟩

/-! ### The configuration -/

/-- A change of the configuration does what an edit says. -/
def Follows (re : List UInt8 → Bool) (cfg : NpConfig) (r : Option NpConfig) (e : Option Edit) :
    Prop :=
  ∃ cfg', r = some cfg' ∧ cfg'.Wf ∧ cfg'.view = e.elim cfg.view (cfg.view.edit re)

variable {cfg : NpConfig}

lemma NpConfig.length_servers (h : cfg.Wf) : cfg.view.servers.length = cfg.serverCount := by
  rw [view, List.length_map, List.length_take, cfg.servers.length_eq,
    Nat.min_eq_left h.serverCount_le]

/-- A change of the server block the loader is in. -/
lemma NpConfig.exists_onServer (h : cfg.Wf) {f : NpServerConfig → Option NpServerConfig}
    {g : ServerSettings → ServerSettings}
    (hf : ∀ srv : NpServerConfig, srv.Wf → ∃ srv', f srv = some srv' ∧ srv'.Wf ∧
      srv'.view = g srv.view) :
    ∃ cfg', cfg.onServer f = some cfg' ∧ cfg'.Wf ∧ cfg'.view = cfg.view.onServer g := by
  have hlt : cfg.serverCount - 1 < configMaxServers := by
    have := h.one_le
    have := h.serverCount_le
    omega
  obtain ⟨srv, hsrv⟩ := cfg.servers.get?_of_lt hlt
  obtain ⟨srv', hsrv', hwf, hview⟩ := hf srv (h.servers srv (FixedArray.mem_of_get? hsrv))
  obtain ⟨servers, hstore, helems⟩ := cfg.servers.exists_store hlt srv'
  refine ⟨{ cfg with servers := servers }, by simp [onServer, hsrv, hsrv', hstore], ?_, ?_⟩
  · refine { h with servers := fun s hs => ?_, unused := fun i hi s hs => ?_ }
    · cases FixedArray.mem_of_store hstore hs with
      | inl h' => exact h.servers s h'
      | inr h' => exact h' ▸ hwf
    · have := h.one_le
      rw [FixedArray.get?_of_store hstore, if_neg (by dsimp only at hi; omega)] at hs
      exact h.unused i hi s hs
  · rw [Settings.onServer, length_servers h]
    have hservers : (servers.elems.take cfg.serverCount).map NpServerConfig.view
        = ((cfg.servers.elems.take cfg.serverCount).map NpServerConfig.view).modify
          (cfg.serverCount - 1) g := by
      refine List.ext_getElem? fun i => ?_
      rw [helems, List.getElem?_map, List.getElem?_take, List.getElem?_modify, List.getElem?_map,
        List.getElem?_take]
      by_cases hi : i < cfg.serverCount
      · rw [if_pos hi, if_pos hi, List.getElem?_set]
        by_cases hlast : cfg.serverCount - 1 = i
        · subst hlast
          have : cfg.servers.elems[cfg.serverCount - 1]? = some srv := hsrv
          rw [if_pos rfl, if_pos (by rw [cfg.servers.length_eq]; exact hlt), this]
          simp [hview]
        · rw [if_neg hlast]
          simp [hlast]
      · rw [if_neg hi, if_neg hi]
        rfl
    rw [view, hservers]
    rfl

/-- A change of the server block, as an edit. -/
lemma ServerRefines.follows {f : NpServerConfig → Option NpServerConfig} {e : Option ServerEdit}
    (hf : ServerRefines re f e) (h : cfg.Wf) :
    Follows re cfg (cfg.onServer f) (e.map .server) := by
  cases e with
  | none =>
    obtain ⟨cfg', hcfg', hwf, hview⟩ := NpConfig.exists_onServer (g := id) h hf
    refine ⟨cfg', hcfg', hwf, hview.trans ?_⟩
    rw [Settings.onServer, List.modify_id]
    rfl
  | some e => exact NpConfig.exists_onServer (g := fun s => e.apply re s) h hf

lemma follows_ite {P : Prop} [Decidable P] {r r' : Option NpConfig} {e e' : Option Edit}
    (hpos : P → Follows re cfg r e) (hneg : ¬P → Follows re cfg r' e') :
    Follows re cfg (if P then r else r') (if P then e else e') := by
  by_cases hP : P
  · rw [if_pos hP, if_pos hP]
    exact hpos hP
  · rw [if_neg hP, if_neg hP]
    exact hneg hP

lemma serverRefines_serverName (h0 : 0 ∉ v) :
    ServerRefines re
      (fun srv => do return { srv with serverName := ← srv.serverName.strncpy v 511 })
      (some (.serverName (v.take 511))) := by
  intro srv h
  obtain ⟨a, ha, hstr, hc⟩ := FixedArray.exists_strncpy h.serverName (m := 511) rfl h0
  simp only [ha]
  refine ⟨_, rfl, { h with serverName := hc }, ?_⟩
  simp [NpServerConfig.view, ServerEdit.apply, hstr]

lemma serverRefines_staticRoot (h0 : 0 ∉ v) :
    ServerRefines re
      (fun srv => do return { srv with staticRoot := ← srv.staticRoot.strncpy v 511 })
      (some (.staticRoot (v.take 511))) := by
  intro srv h
  obtain ⟨a, ha, hstr, hc⟩ := FixedArray.exists_strncpy h.staticRoot (m := 511) rfl h0
  simp only [ha]
  refine ⟨_, rfl, { h with staticRoot := hc }, ?_⟩
  simp [NpServerConfig.view, ServerEdit.apply, hstr]

lemma serverRefines_loadModule (h0 : 0 ∉ v) :
    ServerRefines re
      (fun srv => do
        if srv.modules.count < configMaxModules then
          return { srv with modules := ← srv.modules.push v }
        else return srv)
      (some (.loadModule (v.take 511))) := by
  intro srv h
  have hlen : srv.view.modules.length = srv.modules.count := srv.modules.length_view h.modules
  rw [Option.elim_some, ServerEdit.apply, hlen]
  by_cases hroom : srv.modules.count < configMaxModules
  · obtain ⟨t, ht, hwf, hview⟩ := srv.modules.exists_push h.modules hroom h0
    simp only [if_pos hroom, ht]
    refine ⟨_, rfl, { h with modules := hwf }, ?_⟩
    simp [NpServerConfig.view, hview]
  · simp only [if_neg hroom]
    exact ⟨_, rfl, h, rfl⟩

lemma serverRefines_tryFiles {line : Chars 512} {val : ℕ} (hval : line.Ends val) :
    ServerRefines re
      (fun srv => do
        return { srv with
          tryFiles := ← tryFilesTokens configMaxTryFiles (← line.strtok 32 val) srv.tryFiles })
      (some (.tryFiles ((FixedArray.tokens 32 (line.str val)).map (·.take 511)))) := by
  intro srv h
  have hlen : srv.view.tryFiles.length = srv.tryFiles.count := srv.tryFiles.length_view h.tryFiles
  obtain ⟨tok, htok, t, ht, hwf, hview⟩ :=
    PathTable.exists_tryFilesTokens configMaxTryFiles h.tryFiles hval (Nat.sub_le _ _)
  rw [Option.elim_some, ServerEdit.apply, hlen]
  simp only [htok, Option.bind_eq_bind, Option.bind_some, ht]
  refine ⟨_, rfl, { h with tryFiles := hwf }, ?_⟩
  simp [NpServerConfig.view, hview]

/-- The keys of `[server]`. -/
lemma follows_server {line : Chars 512} {val : ℕ} (hval : line.Ends val) (h : cfg.Wf) :
    Follows re cfg (setServerKey re key line val cfg) (serverSection key (line.str val)) := by
  have h0 := line.zero_notMem_str val
  rw [setServerKey, serverSection]
  refine follows_ite (fun _ => ?_) fun _ => ?_
  · exact ServerRefines.follows (e := some (.listenPort (portOf (line.str val))))
      (fun srv h => ⟨_, rfl, { h with }, rfl⟩) h
  refine follows_ite (fun _ => (serverRefines_serverName h0).follows h) fun _ => ?_
  refine follows_ite (fun _ => ?_) fun _ => ?_
  · obtain ⟨a, ha, hstr, hc⟩ := FixedArray.exists_strncpy h.listenAddr (m := 63) rfl h0
    simp only [ha]
    refine ⟨_, rfl, { h with listenAddr := hc }, ?_⟩
    simp [NpConfig.view, NpConfig.globals, Settings.edit, GlobalEdit.apply, hstr]
  refine follows_ite (fun _ => ⟨_, rfl, { h with }, rfl⟩) fun _ => ?_
  refine follows_ite (fun _ => ⟨_, rfl, { h with }, rfl⟩) fun _ => ?_
  refine follows_ite (fun _ => ⟨_, rfl, { h with }, rfl⟩) fun _ => ?_
  refine follows_ite (fun _ => ⟨_, rfl, { h with }, rfl⟩) fun _ => ?_
  refine follows_ite (fun _ => ⟨_, rfl, { h with }, rfl⟩) fun _ => ?_
  refine follows_ite (fun _ => ⟨_, rfl, { h with }, rfl⟩) fun _ => ?_
  refine follows_ite (fun _ => (serverRefines_staticRoot h0).follows h) fun _ => ?_
  refine follows_ite (fun _ => (serverRefines_loadModule h0).follows h) fun _ => ?_
  refine follows_ite (fun _ => (serverRefines_rewrite hval).follows h) fun _ => ?_
  exact follows_ite (fun _ => (serverRefines_tryFiles hval).follows h) fun _ => ⟨_, rfl, h, rfl⟩

lemma follows_rateLimit (h : cfg.Wf) :
    Follows re cfg (some (setRateLimitKey key v cfg))
      ((rateLimitSection key v).map .globals) := by
  rw [setRateLimitKey, rateLimitSection]
  split_ifs
  all_goals exact ⟨_, rfl, { h with }, rfl⟩

lemma follows_log (h0 : 0 ∉ v) (h : cfg.Wf) :
    Follows re cfg (setLogKey key v cfg) ((logSection key v).map .globals) := by
  rw [setLogKey, logSection]
  split_ifs
  · exact ⟨_, rfl, { h with }, rfl⟩
  · obtain ⟨a, ha, hstr, hc⟩ := FixedArray.exists_strncpy h.accessLog (m := 511) rfl h0
    rw [ha]
    refine ⟨_, rfl, { h with accessLog := hc }, ?_⟩
    simp [NpConfig.view, NpConfig.globals, Settings.edit, GlobalEdit.apply, hstr]
  · obtain ⟨a, ha, hstr, hc⟩ := FixedArray.exists_strncpy h.errorLog (m := 511) rfl h0
    rw [ha]
    refine ⟨_, rfl, { h with errorLog := hc }, ?_⟩
    simp [NpConfig.view, NpConfig.globals, Settings.edit, GlobalEdit.apply, hstr]
  · exact ⟨_, rfl, h, rfl⟩

lemma follows_metrics (h0 : 0 ∉ v) (h : cfg.Wf) :
    Follows re cfg (setMetricsKey key v cfg) ((metricsSection key v).map .globals) := by
  rw [setMetricsKey, metricsSection]
  split_ifs
  · exact ⟨_, rfl, { h with }, rfl⟩
  · obtain ⟨a, ha, hstr, hc⟩ := FixedArray.exists_strncpy h.metricsPath (m := 511) rfl h0
    rw [ha]
    refine ⟨_, rfl, { h with metricsPath := hc }, ?_⟩
    simp [NpConfig.view, NpConfig.globals, Settings.edit, GlobalEdit.apply, hstr]
  · exact ⟨_, rfl, h, rfl⟩

lemma follows_process (h0 : 0 ∉ v) (h : cfg.Wf) :
    Follows re cfg (setProcessKey key v cfg) ((processSection key v).map .globals) := by
  rw [setProcessKey, processSection]
  split_ifs
  · exact ⟨_, rfl, { h with }, rfl⟩
  · obtain ⟨a, ha, hstr, hc⟩ := FixedArray.exists_strncpy h.pidFile (m := 511) rfl h0
    rw [ha]
    refine ⟨_, rfl, { h with pidFile := hc }, ?_⟩
    simp [NpConfig.view, NpConfig.globals, Settings.edit, GlobalEdit.apply, hstr]
  · exact ⟨_, rfl, h, rfl⟩

/-- The sections. `[global]`, which the source tests on its own, is none of the
others. -/
lemma follows_assign (re : List UInt8 → Bool) (sect key : List UInt8) {line : Chars 512} {val : ℕ}
    (hval : line.Ends val) (h : cfg.Wf) :
    Follows re cfg
      ((assignKey re sect key line val cfg).map (setGlobalKey sect key (line.str val)))
      (editOf sect key (line.str val)) := by
  have h0 := line.zero_notMem_str val
  have hmap : ∀ {r : Option NpConfig} {e : Option Edit}, sect ≠ bytes "global" →
      Follows re cfg r e → Follows re cfg (r.map (setGlobalKey sect key (line.str val))) e := by
    rintro r e hne ⟨cfg', hr, hwf, hview⟩
    refine ⟨cfg', ?_, hwf, hview⟩
    rw [hr, Option.map_some, setGlobalKey, if_neg fun h' => hne h'.1]
  by_cases hglobal : sect = bytes "global"
  · subst hglobal
    have hother : ∀ t ∈ [bytes "server", bytes "tls", bytes "proxy", bytes "upstream",
        bytes "rate_limit", bytes "log", bytes "metrics", bytes "cache", bytes "process",
        bytes "gzip"], bytes "global" ≠ t := by decide
    simp only [List.forall_mem_cons, ne_eq] at hother
    simp only [assignKey, editOf, hother, if_false, Option.map_some, setGlobalKey, true_and]
    split_ifs
    · exact ⟨_, rfl, { h with }, rfl⟩
    · exact ⟨_, rfl, h, rfl⟩
  · refine hmap hglobal ?_
    rw [assignKey, editOf]
    refine follows_ite (fun _ => follows_server hval h) fun _ => ?_
    refine follows_ite (fun _ => (serverRefines_tls h0).follows h) fun _ => ?_
    refine follows_ite (fun _ => serverRefines_proxy.follows h) fun _ => ?_
    refine follows_ite (fun _ => (serverRefines_upstream h0).follows h) fun _ => ?_
    refine follows_ite (fun _ => follows_rateLimit h) fun _ => ?_
    refine follows_ite (fun _ => follows_log h0 h) fun _ => ?_
    refine follows_ite (fun _ => follows_metrics h0 h) fun _ => ?_
    refine follows_ite (fun _ => (serverRefines_cache h0).follows h) fun _ => ?_
    refine follows_ite (fun _ => follows_process h0 h) fun _ => ?_
    refine follows_ite (fun _ => serverRefines_gzip.follows h) fun _ => ?_
    rw [if_neg fun h' => hglobal h'.1]
    exact ⟨_, rfl, h, rfl⟩

/-! ### Lines -/

lemma exists_fgetsLine {piece : List UInt8} (hlen : piece.length ≤ 511) :
    ∃ line, fgetsLine piece = some line ∧ line.str 0 = cstr piece ∧ line.Ends 0 := by
  obtain ⟨line, hline, helems⟩ := (zeros 512).exists_storeAll 0 (piece ++ [0])
    (by rw [List.length_append, List.length_singleton]; omega)
  have hstr : line.str 0 = cstr piece := by
    rw [FixedArray.str, List.drop_zero, helems, List.take_zero, List.nil_append,
      List.append_assoc, List.singleton_append, FixedArray.takeWhile_inString_append]
    rfl
  refine ⟨line, hline, hstr, ?_⟩
  rw [FixedArray.Ends, hstr, Nat.zero_add]
  exact lt_of_le_of_lt (length_cstr_le piece) (by omega)

lemma exists_cutComment {line : Chars 512} (h : line.Ends 0) :
    ∃ line', cutComment line = some line' ∧ line'.str 0 = (line.str 0).takeWhile (· != 35) ∧
      line'.Ends 0 := by
  rw [cutComment]
  cases hchr : line.strchr 0 35 with
  | none =>
    refine ⟨line, rfl, ?_, h⟩
    rw [eq_comm, List.takeWhile_eq_self_iff]
    intro c hc
    rw [bne_iff_ne]
    rintro rfl
    exact FixedArray.strchr_eq_none_iff.mp hchr hc
  | some p =>
    obtain ⟨b, hb, -, hends, -, hfront, -, -⟩ := FixedArray.exists_cutAt h hchr
    exact ⟨b, hb, hfront, hends⟩

lemma exists_stripComment {line : Chars 512} (h : line.Ends 0) :
    ∃ line', stripComment line = some line' ∧
      line'.str 0 = ((line.str 0).takeWhile (· != 35)).rdropWhile isspace ∧ line'.Ends 0 := by
  obtain ⟨mid, hmid, hstr, hends⟩ := exists_cutComment h
  have hback := FixedArray.backOver_eq (p := isspace) (a := mid) (i := 0) (m := (mid.str 0).length)
    le_rfl
  rw [Nat.zero_add, Nat.zero_add, List.take_length] at hback
  have hpre := List.rdropWhile_prefix isspace (mid.str 0)
  obtain ⟨line', hline'⟩ := hends.exists_store
    (k := ((mid.str 0).rdropWhile isspace).length) (by have := hpre.length_le; omega) 0
  refine ⟨line', ?_, ?_, FixedArray.ends_of_store_zero hline' (Nat.zero_le _)⟩
  · simp only [stripComment, hmid, Option.bind_eq_bind, Option.bind_some, hback, hline']
  · rw [FixedArray.str_of_store_zero hline' (Nat.zero_le _), Nat.sub_zero,
      ← List.prefix_iff_eq_take.mp hpre, hstr]

variable {st : Loader} {line : Chars 512} {p : ℕ}

lemma NpServerConfig.Wf.exists_begin {srv : NpServerConfig} (h : srv.Wf) :
    ∃ srv', srv.begin = some srv' ∧ srv'.Wf ∧
      srv'.view = { srv.view with listenPort := 8080, staticRoot := bytes "./www" } := by
  have h0 : 0 ∉ bytes "./www" := by decide
  obtain ⟨a, ha, hstr, hc⟩ := FixedArray.exists_strncpy h.staticRoot (m := 511) rfl h0
  rw [NpServerConfig.begin, ha]
  refine ⟨_, rfl, { h with staticRoot := hc }, ?_⟩
  rw [List.take_of_length_le (by decide)] at hstr
  simp [view, hstr]

lemma NpServerConfig.wf_zero : NpServerConfig.zero.Wf := by
  have h512 : (zeros 512).Closed := FixedArray.closed_replicate (m := 511) rfl
  have h256 : (zeros 256).Closed := FixedArray.closed_replicate (m := 255) rfl
  refine ⟨h512, h512, ⟨Nat.zero_le _, fun p hp => ?_⟩,
    ⟨Nat.zero_le _, fun r hr => ?_, fun r hr => ?_⟩, ⟨Nat.zero_le _, fun p hp => ?_⟩, h512, h512,
    Nat.zero_le _, fun b hb => ?_, h512⟩
  · exact (List.eq_of_mem_replicate hp) ▸ h512
  · exact (List.eq_of_mem_replicate hr) ▸ h512
  · exact (List.eq_of_mem_replicate hr) ▸ h512
  · exact (List.eq_of_mem_replicate hp) ▸ h512
  · exact (List.eq_of_mem_replicate hb) ▸ h256

lemma NpServerConfig.view_begin_zero :
    { NpServerConfig.zero.view with listenPort := 8080, staticRoot := bytes "./www" }
      = ServerSettings.later := by
  simp [view, zero, zeros, ServerSettings.later, PathTable.view, RewriteTable.view,
    ProxyConfig.backendsView]

lemma Loader.Wf.exists_serverHeader (h : st.Wf) :
    ∃ st', st.serverHeader = some st' ∧ st'.Wf ∧ st'.seenServer = true ∧
      st'.cfg.view = st.cfg.view.beginServer st.seenServer := by
  rw [Loader.serverHeader, Settings.beginServer, NpConfig.length_servers h.cfg]
  by_cases hseen : st.seenServer = true
  · rw [if_pos hseen]
    by_cases hroom : st.cfg.serverCount < configMaxServers
    · rw [if_pos hroom, if_pos ⟨hseen, hroom⟩]
      obtain ⟨srv, hsrv⟩ := st.cfg.servers.get?_of_lt hroom
      have hzero := h.cfg.unused _ le_rfl srv hsrv
      have hwf : NpConfig.Wf { st.cfg with serverCount := st.cfg.serverCount + 1 } :=
        { h.cfg with
          one_le := Nat.le_add_left _ _
          serverCount_le := hroom
          unused := fun i hi => h.cfg.unused i (by dsimp only at hi; omega) }
      obtain ⟨cfg', hcfg', hwf', hview⟩ := NpConfig.exists_onServer hwf (f := (·.begin))
        (g := fun s => { s with listenPort := 8080, staticRoot := bytes "./www" })
        fun srv hsrv => hsrv.exists_begin
      have hservers : NpConfig.view { st.cfg with serverCount := st.cfg.serverCount + 1 }
          = ⟨st.cfg.globals, st.cfg.view.servers ++ [NpServerConfig.zero.view]⟩ := by
        have htake : st.cfg.servers.elems.take (st.cfg.serverCount + 1)
            = st.cfg.servers.elems.take st.cfg.serverCount ++ [.zero] := by
          rw [List.take_add_one,
            show st.cfg.servers.elems[st.cfg.serverCount]? = some srv from hsrv, hzero]
          rfl
        simp only [NpConfig.view, htake, List.map_append, List.map_singleton]
        rfl
      simp only [hcfg']
      refine ⟨_, rfl, ⟨hwf', h.sect⟩, hseen, hview.trans ?_⟩
      rw [hservers, Settings.onServer_concat, NpServerConfig.view_begin_zero]
      rfl
    · rw [if_neg hroom, if_neg fun h' => hroom h'.2]
      exact ⟨st, rfl, h, hseen, rfl⟩
  · rw [if_neg hseen, if_neg fun h' => hseen h'.1]
    exact ⟨_, rfl, ⟨h.cfg, h.sect⟩, rfl, rfl⟩

/-- A name begins a server block when the text behind the bracket does. -/
lemma isServerHeader_takeWhile (rest : List UInt8) :
    isServerHeader (rest.takeWhile (· != 93)) = true ↔ rest.take 6 = bytes "server" := by
  rw [isServerHeader, decide_eq_true_eq]
  constructor
  · intro h
    obtain ⟨t, ht⟩ := List.takeWhile_prefix (p := (· != 93)) (l := rest)
    have hlen : 6 ≤ (rest.takeWhile (· != 93)).length := by
      have := congrArg List.length h
      rw [List.length_take, show (bytes "server").length = 6 by decide] at this
      omega
    rw [← ht, List.take_append_of_le_length hlen, h]
  · intro h
    have hpos : ∀ c ∈ bytes "server", (c != 93) = true :=
      List.all_eq_true.mp (show (bytes "server").all (· != 93) = true by decide)
    rw [← List.take_append_drop 6 rest, h, List.takeWhile_append_of_pos hpos, ← h,
      List.take_append_of_le_length, List.take_take, Nat.min_self]
    rw [h]
    decide

lemma Loader.Wf.exists_noteServer (h : st.Wf) (rest : List UInt8) :
    ∃ st', st.noteServer rest = some st' ∧ st'.Wf ∧
      st'.cfg.view = (if isServerHeader (rest.takeWhile (· != 93)) then
        st.cfg.view.beginServer st.seenServer else st.cfg.view) ∧
      st'.seenServer = (st.seenServer || isServerHeader (rest.takeWhile (· != 93))) := by
  rw [Loader.noteServer]
  by_cases hserver : rest.take 6 = bytes "server"
  · obtain ⟨st₁, hst₁, hwf, hseen, hview⟩ := h.exists_serverHeader
    refine ⟨st₁, by rw [if_pos hserver, hst₁], hwf, ?_⟩
    simp [(isServerHeader_takeWhile rest).mpr hserver, hseen, hview]
  · refine ⟨st, if_neg hserver, h, ?_⟩
    simp [Bool.eq_false_iff.mpr fun h' => hserver ((isServerHeader_takeWhile rest).mp h')]

lemma Loader.exists_headerLine (h : st.Wf) (hp : line.Ends p) {rest : List UInt8}
    (hline : line.str p = 91 :: rest) :
    ∃ st', st.headerLine line p = some st' ∧ st'.Wf ∧
      st'.view = st.view.step re (parseText (91 :: rest)) := by
  have hrest : line.str (p + 1) = rest := by
    rw [FixedArray.str_add (by rw [hline]; simp), hline]
    rfl
  rw [headerLine, parseText, if_pos rfl]
  by_cases hclose : 93 ∈ rest
  · obtain ⟨close, hchr⟩ := FixedArray.exists_strchr (a := line) (i := p) (c := 93)
      (by rw [hline]; simp [hclose])
    have hlen : min (close - p - 1) 63 = min (rest.takeWhile (· != 93)).length 63 := by
      obtain ⟨b, -, -, -, -, hfront, -, hk⟩ := FixedArray.exists_cutAt hp hchr
      rw [hfront, hline, List.takeWhile_cons_of_pos (by decide), List.length_cons] at hk
      omega
    have hpre := List.takeWhile_prefix (p := (· != 93)) (l := rest)
    obtain ⟨st₁, hst₁, hwf, hcfg, hseen⟩ := h.exists_noteServer rest
    obtain ⟨sect, hsectCopy, hstr, hclosed⟩ := FixedArray.exists_copyStr hwf.sect
      (min (rest.takeWhile (· != 93)).length 63) (by omega) rest
      (by rw [← hrest]; exact line.zero_notMem_str _)
      ((Nat.min_le_left _ _).trans hpre.length_le)
    rw [hchr, if_pos hclose]
    simp only [hrest, hst₁, hlen, hsectCopy, Option.bind_eq_bind, Option.bind_some]
    refine ⟨_, rfl, ⟨hwf.cfg, hclosed⟩, ?_⟩
    have hname : rest.take (min (rest.takeWhile (· != 93)).length 63)
        = (rest.takeWhile (· != 93)).take 63 := by
      rw [Nat.min_comm, ← List.take_take, ← List.prefix_iff_eq_take.mp hpre]
    simp only [Loader.view, Reading.step, hstr, hname, hcfg, hseen]
  · have hnone : line.strchr p 93 = none := by
      rw [FixedArray.strchr_eq_none_iff, hline]
      simpa using hclose
    rw [hnone, if_neg hclose]
    exact ⟨st, rfl, h, rfl⟩

lemma Loader.exists_keyLine (h : st.Wf) (hp : line.Ends p) {c : UInt8} {rest : List UInt8}
    (hline : line.str p = c :: rest) (hc : c ≠ 91) :
    ∃ st', st.keyLine re line p = some st' ∧ st'.Wf ∧
      st'.view = st.view.step re (parseText (c :: rest)) := by
  rw [keyLine, parseText, if_neg hc, ← hline]
  by_cases heq : 61 ∈ line.str p
  · rw [if_pos heq]
    obtain ⟨eq, hchr⟩ := FixedArray.exists_strchr heq
    obtain ⟨l₁, hl₁, -, hends, hends', hfront, hrest, hk⟩ := FixedArray.exists_cutAt hp hchr
    obtain ⟨l₂, hl₂, hkey, -, hbehind, -⟩ := FixedArray.exists_cutBack (p := isspace) hends
    have hval : l₂.str (l₂.skip isspace (eq + 1))
        = (((line.str p).dropWhile (· != 61)).drop 1).dropWhile isspace := by
      rw [FixedArray.str_skip, hbehind (eq + 1) (by omega), hrest]
    have hends₂ : l₂.Ends (l₂.skip isspace (eq + 1)) := by
      refine FixedArray.Ends.skip ?_ isspace
      rw [FixedArray.Ends, hbehind (eq + 1) (by omega)]
      exact hends'
    obtain ⟨l₃, hl₃, hval₃, hends₃, -, hbefore⟩ :=
      FixedArray.exists_cutBack (p := isspace) hends₂
    have hkey₃ : l₃.str p = ((line.str p).takeWhile (· != 61)).rdropWhile isspace := by
      have hle : (l₂.str p).length ≤ (l₁.str p).length := by
        rw [hkey]
        exact (List.rdropWhile_prefix _ _).length_le
      have hskip := l₂.le_skip isspace (eq + 1)
      rw [hbefore p (by omega), hkey, hfront]
    obtain ⟨cfg', hassign, hwf, hview⟩ := follows_assign re (st.sect.str 0) (l₃.str p)
      hends₃ h.cfg
    obtain ⟨cfg₁, hcfg₁, rfl⟩ := Option.map_eq_some_iff.mp hassign
    simp only [hchr, hl₁, hl₂, hl₃, hcfg₁, Option.bind_eq_bind, Option.bind_some]
    refine ⟨_, rfl, ⟨hwf, h.sect⟩, ?_⟩
    rw [Loader.view, hview, hkey₃, hval₃, hval]
    simp only [Reading.step, Loader.view]
    cases editOf (st.sect.str 0) (((line.str p).takeWhile (· != 61)).rdropWhile isspace)
      (((((line.str p).dropWhile (· != 61)).drop 1).dropWhile isspace).rdropWhile isspace) with
    | none => rfl
    | some e => rfl
  · rw [if_neg heq, FixedArray.strchr_eq_none_iff.mpr heq]
    exact ⟨st, rfl, h, rfl⟩

lemma Loader.exists_readLine (re : List UInt8 → Bool) (h : st.Wf) {piece : List UInt8}
    (hlen : piece.length ≤ 511) :
    ∃ st', st.readLine re piece = some st' ∧ st'.Wf ∧
      st'.view = st.view.step re (parseLine piece) := by
  obtain ⟨l₀, hl₀, hstr₀, hends₀⟩ := exists_fgetsLine hlen
  obtain ⟨l₁, hl₁, hstr₁, hends₁⟩ := exists_stripComment hends₀
  have htext : l₁.str (l₁.skip isspace 0) = lineText piece := by
    rw [FixedArray.str_skip, hstr₁, hstr₀, lineText]
  have hp := hends₁.skip isspace
  rw [readLine, parseLine, ← htext]
  simp only [hl₀, hl₁, Option.bind_eq_bind, Option.bind_some]
  cases hl : l₁.str (l₁.skip isspace 0) with
  | nil => exact ⟨st, rfl, h, rfl⟩
  | cons c rest =>
    by_cases hc : c = 91
    · subst hc
      simpa using exists_headerLine h hp hl
    · simpa [hc] using exists_keyLine h hp hl hc

/-- The loop stays inside its arrays, whatever `regcomp` does each time. -/
lemma Loader.exists_readLines (re : ℕ → List UInt8 → Bool) {pieces : List (List UInt8)}
    (hlen : ∀ p ∈ pieces, p.length ≤ 511) (h : st.Wf) (k : ℕ) :
    ∃ st', st.readLines re k pieces = some st' ∧ st'.Wf := by
  induction pieces generalizing st k with
  | nil => exact ⟨st, rfl, h⟩
  | cons p pieces ih =>
    obtain ⟨st₁, hst₁, hwf, -⟩ := exists_readLine (re k) h (hlen p (by simp))
    obtain ⟨st', hst', hwf'⟩ := ih (fun q hq => hlen q (by simp [hq])) hwf (k + 1)
    exact ⟨st', by rw [readLines, hst₁, Option.bind_some, hst'], hwf'⟩

/-- With a `regcomp` that looks at the pattern only, the loop reads line by line what
`Reading.step` says. -/
lemma Loader.view_readLines (re : List UInt8 → Bool) {pieces : List (List UInt8)}
    (hlen : ∀ p ∈ pieces, p.length ≤ 511) (h : st.Wf) (k : ℕ) :
    ∃ st', st.readLines (fun _ => re) k pieces = some st' ∧
      st'.view = (pieces.map parseLine).foldl (Reading.step re) st.view := by
  induction pieces generalizing st k with
  | nil => exact ⟨st, rfl, rfl⟩
  | cons p pieces ih =>
    obtain ⟨st₁, hst₁, hwf, hview⟩ := exists_readLine re h (hlen p (by simp))
    obtain ⟨st', hst', hview'⟩ := ih (fun q hq => hlen q (by simp [hq])) hwf (k + 1)
    refine ⟨st', by rw [readLines, hst₁, Option.bind_some, hst'], ?_⟩
    rw [hview', hview, List.map_cons, List.foldl_cons]

/-! ### The file -/

lemma length_le_of_mem_configLines (file : List UInt8) {p : List UInt8}
    (h : p ∈ configLines file) : p.length ≤ 511 :=
  Pieces.length_le_of_mem_cut (by simp) h

/-- A literal of the source copied into an array of NULs. -/
lemma exists_strncpy_zeros {n m : ℕ} (hm : m + 1 = n) {s : List UInt8} (h0 : 0 ∉ s)
    (hlen : s.length ≤ m) :
    ∃ a : Chars n, (zeros n).strncpy s m = some a ∧ a.str 0 = s ∧ a.Closed := by
  obtain ⟨a, ha, hstr, hc⟩ :=
    FixedArray.exists_strncpy (FixedArray.closed_replicate hm) hm h0
  rw [List.take_of_length_le hlen] at hstr
  exact ⟨a, ha, hstr, hc⟩

lemma NpServerConfig.exists_beginFirst :
    ∃ srv, NpServerConfig.zero.beginFirst = some srv ∧ srv.Wf ∧ srv.view = .first := by
  obtain ⟨srv, hsrv, hwf, hview⟩ := NpServerConfig.wf_zero.exists_begin
  rw [NpServerConfig.beginFirst, hsrv]
  refine ⟨_, rfl, { hwf with }, ?_⟩
  rw [NpServerConfig.view_begin_zero] at hview
  rw [ServerSettings.first, ← hview]
  have hmode : srv.proxy.mode = .roundRobin := congrArg ServerSettings.mode hview
  simp [NpServerConfig.view, hmode]
  rfl

lemma exists_configDefaults : ∃ cfg, configDefaults = some cfg ∧ cfg.Wf ∧ cfg.view = .defaults := by
  obtain ⟨addr, haddr, haddrs, haddrc⟩ := exists_strncpy_zeros (n := 64) (m := 63) rfl
    (s := bytes "0.0.0.0") (by decide) (by decide)
  obtain ⟨acc, hacc, haccs, haccc⟩ := exists_strncpy_zeros (n := 512) (m := 511) rfl
    (s := bytes "./logs/access.log") (by decide) (by decide)
  obtain ⟨err, herr, herrs, herrc⟩ := exists_strncpy_zeros (n := 512) (m := 511) rfl
    (s := bytes "./logs/error.log") (by decide) (by decide)
  obtain ⟨met, hmet, hmets, hmetc⟩ := exists_strncpy_zeros (n := 512) (m := 511) rfl
    (s := bytes "/metrics") (by decide) (by decide)
  obtain ⟨srv, hsrv, hwf, hview⟩ := NpServerConfig.exists_beginFirst
  obtain ⟨servers, hservers, helems⟩ := (FixedArray.replicate configMaxServers
    NpServerConfig.zero).exists_store (i := 0) (by decide) srv
  have hget : (FixedArray.replicate configMaxServers NpServerConfig.zero).get? 0 = some .zero :=
    FixedArray.get?_replicate (by decide)
  rw [configDefaults, NpConfig.zero]
  simp only [haddr, hacc, herr, hmet, NpConfig.onServer, hget, hsrv, hservers, Nat.sub_self,
    Option.bind_eq_bind, Option.bind_some, Option.pure_def]
  refine ⟨_, rfl, ?_, ?_⟩
  · refine ⟨haddrc, le_rfl, show 1 ≤ 16 by decide, fun s hs => ?_, fun i hi s hs => ?_, haccc,
      herrc, hmetc, FixedArray.closed_replicate rfl⟩
    · cases FixedArray.mem_of_store hservers hs with
      | inl h => exact List.eq_of_mem_replicate h ▸ NpServerConfig.wf_zero
      | inr h => exact h ▸ hwf
    · rw [FixedArray.get?_of_store hservers, if_neg (by dsimp only at hi; omega)] at hs
      exact List.eq_of_mem_replicate (FixedArray.mem_of_get? hs)
  · have htake : servers.elems.take 1 = [srv] := by
      rw [FixedArray.take_succ_of_store hservers]
      rfl
    simp [NpConfig.view, NpConfig.globals, Settings.defaults, htake, hview, haddrs, haccs, herrs,
      hmets, zeros]

/-- The variables of the loop before the first line. -/
lemma Loader.exists_start : ∃ st, Loader.start = some st ∧ st.Wf ∧ st.view = .start := by
  obtain ⟨cfg, hcfg, hwf, hview⟩ := exists_configDefaults
  rw [Loader.start, hcfg]
  refine ⟨_, rfl, ⟨hwf, FixedArray.closed_replicate rfl⟩, ?_⟩
  simp [Loader.view, Reading.start, hview, zeros]

/-- The loader computes the settings of the file. -/
theorem configLoad_view (re : List UInt8 → Bool) (file : List UInt8) :
    (configLoad (fun _ => re) file).map NpConfig.view = some (Settings.load re file) := by
  obtain ⟨st₀, hst₀, hwf, hview⟩ := Loader.exists_start
  obtain ⟨st, hst, hstview⟩ := Loader.view_readLines re
    (fun p => length_le_of_mem_configLines file) hwf 0
  simp only [configLoad, hst₀, hst, Option.bind_eq_bind, Option.bind_some, Option.pure_def,
    Option.map_some, Settings.load, readFile, fileLines, ← hview, ← hstview]
  rfl

/-- A file gives a configuration, and it is well formed. -/
lemma exists_configLoad (re : ℕ → List UInt8 → Bool) (file : List UInt8) :
    ∃ cfg, configLoad re file = some cfg ∧ cfg.Wf := by
  obtain ⟨st₀, hst₀, hwf, -⟩ := Loader.exists_start
  obtain ⟨st, hst, hstwf⟩ := Loader.exists_readLines re
    (fun p => length_le_of_mem_configLines file) hwf 0
  refine ⟨st.cfg, ?_, hstwf.cfg⟩
  simp only [configLoad, hst₀, hst, Option.bind_eq_bind, Option.bind_some, Option.pure_def]

lemma configLoad_wf {re : ℕ → List UInt8 → Bool} {file : List UInt8} {cfg : NpConfig}
    (h : configLoad re file = some cfg) : cfg.Wf := by
  obtain ⟨cfg', hcfg', hwf⟩ := exists_configLoad re file
  obtain rfl : cfg' = cfg := Option.some.inj (hcfg'.symm.trans h)
  exact hwf

/-- **The loader stays inside its arrays.** Whatever the file holds, and whatever
`regcomp` says of the patterns in it, every turn of the loop ends with well-formed
variables, and the configuration that is returned is well formed. -/
theorem configLoad_stays_inside (re : ℕ → List UInt8 → Bool) (file : List UInt8) :
    (∃ cfg, configLoad re file = some cfg ∧ cfg.Wf) ∧
      ∀ turns, ∃ st, (Loader.start.bind fun st =>
        st.readLines re 0 ((configLines file).take turns)) = some st ∧ st.Wf := by
  obtain ⟨st₀, hst₀, hwf, -⟩ := Loader.exists_start
  refine ⟨exists_configLoad re file, fun turns => ?_⟩
  obtain ⟨st, hst, hstwf⟩ := Loader.exists_readLines re
    (fun p hp => length_le_of_mem_configLines file (List.mem_of_mem_take hp)) hwf 0
  exact ⟨st, by rw [hst₀, Option.bind_some, hst], hstwf⟩

end Nproxy
