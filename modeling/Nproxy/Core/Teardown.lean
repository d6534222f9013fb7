import Nproxy.Core.ConfigWf

/-!
`config_destroy`: the compiled rewrite rules of all servers are to be freed.

The inner loop counts `i` up and tests `s`, the counter of the outer loop. So it does not end for
a server that has more rules than its index, and does nothing for the others.

* `Teardown`: where the loops are, and the rules that `regfree` was called for. A rule outside
  the array gives `none`.
* `configDestroy cfg n`: the loops after `n` tests.
* `TearsDown`: the loops end, and each compiled rule was freed once and no other.
* `tearsDown_iff`: they end exactly if no server has more rules than its index, and all is freed
  exactly if there is nothing to free.
-/

namespace Nproxy

/-- A place in `config_destroy`, with the counters. -/
inductive DestroyPoint where
  /-- at the test of the outer loop -/
  | server (s : ℕ)
  /-- at the test of the inner loop -/
  | rule (s i : ℕ)
  | done
  deriving DecidableEq, Repr

/-- Where the loops are, and the rules that were freed, by server and index. -/
structure Teardown where
  point : DestroyPoint
  freed : List (ℕ × ℕ)
  deriving DecidableEq, Repr

/-- One test of a loop, with what follows it. -/
def Teardown.step (cfg : NpConfig) (t : Teardown) : Option Teardown :=
  match t.point with
  | .server s => some { t with point := if s < cfg.serverCount then .rule s 0 else .done }
  | .rule s i =>
    (cfg.servers.get? s).bind fun srv =>
      -- `s < …rewrite.count`, where `i` was meant
      if s < srv.rewrite.count then
        (srv.rewrite.rules.get? i).map fun _ => ⟨.rule s (i + 1), t.freed ++ [(s, i)]⟩
      else some { t with point := .server (s + 1) }
  | .done => some t

/-- `config_destroy`, after `n` tests. -/
def configDestroy (cfg : NpConfig) : ℕ → Option Teardown
  | 0 => some ⟨.server 0, []⟩
  | n + 1 => (configDestroy cfg n).bind (Teardown.step cfg)

/-- `cfg->servers[s].rewrite.count`. -/
def NpConfig.ruleCount (cfg : NpConfig) (s : ℕ) : ℕ :=
  ((cfg.servers.get? s).map (·.rewrite.count)).getD 0

/-- `config_destroy` returns. -/
def DestroyEnds (cfg : NpConfig) : Prop := ∃ n freed, configDestroy cfg n = some ⟨.done, freed⟩

/-- `config_destroy` returns, and has freed each compiled rule once and no other. -/
def TearsDown (cfg : NpConfig) : Prop :=
  ∃ n freed, configDestroy cfg n = some ⟨.done, freed⟩ ∧
    ∀ s i, freed.count (s, i) = if s < cfg.serverCount ∧ i < cfg.ruleCount s then 1 else 0

variable {cfg : NpConfig}

/-! ### What a run that ends has done -/

/-- The loops have come past servers with no more rules than their index, and have freed nothing
for them. -/
def Teardown.Passed (cfg : NpConfig) (t : Teardown) : Prop :=
  match t.point with
  | .server s => (∀ r < s, cfg.ruleCount r ≤ r) ∧ t.freed = []
  | .rule s _ => (∀ r < s, cfg.ruleCount r ≤ r) ∧ (cfg.ruleCount s ≤ s → t.freed = [])
  | .done => (∀ r < cfg.serverCount, cfg.ruleCount r ≤ r) ∧ t.freed = []

lemma Teardown.Passed.step {t t' : Teardown} (h : t.Passed cfg) (ht : t.step cfg = some t') :
    t'.Passed cfg := by
  obtain ⟨point, freed⟩ := t
  cases point with
  | server s =>
    obtain rfl := Option.some.inj ht
    by_cases hs : s < cfg.serverCount
    · rw [if_pos hs]
      exact ⟨h.1, fun _ => h.2⟩
    · rw [if_neg hs]
      exact ⟨fun r hr => h.1 r (by omega), h.2⟩
  | rule s i =>
    obtain ⟨srv, hsrv, ht⟩ := Option.bind_eq_some_iff.mp ht
    have hcount : cfg.ruleCount s = srv.rewrite.count := by
      rw [NpConfig.ruleCount, hsrv, Option.map_some, Option.getD_some]
    split_ifs at ht with hs
    · obtain ⟨-, -, rfl⟩ := Option.map_eq_some_iff.mp ht
      exact ⟨h.1, fun hle => absurd hs (by omega)⟩
    · obtain rfl := Option.some.inj ht
      refine ⟨fun r hr => ?_, h.2 (by omega)⟩
      rcases Nat.lt_succ_iff_lt_or_eq.mp hr with hr | rfl
      · exact h.1 r hr
      · omega
  | done =>
    obtain rfl := Option.some.inj ht
    exact h

lemma passed_configDestroy {n : ℕ} {t : Teardown} (h : configDestroy cfg n = some t) :
    t.Passed cfg := by
  induction n generalizing t with
  | zero =>
    obtain rfl := Option.some.inj h
    exact ⟨fun r hr => absurd hr (Nat.not_lt_zero r), rfl⟩
  | succ n ih =>
    obtain ⟨t₀, ht₀, ht⟩ := Option.bind_eq_some_iff.mp h
    exact (ih ht₀).step ht

/-! ### Runs that end -/

/-- Two tests for each server that has no more rules than its index. -/
lemma configDestroy_servers (hservers : cfg.serverCount ≤ configMaxServers) {s : ℕ}
    (hs : s ≤ cfg.serverCount) (h : ∀ r < s, cfg.ruleCount r ≤ r) :
    configDestroy cfg (2 * s) = some ⟨.server s, []⟩ := by
  induction s with
  | zero => rfl
  | succ s ih =>
    obtain ⟨srv, hsrv⟩ := cfg.servers.get?_of_lt (lt_of_lt_of_le hs hservers)
    have hcount : srv.rewrite.count ≤ s := by
      have := h s (Nat.lt_succ_self s)
      rwa [NpConfig.ruleCount, hsrv] at this
    rw [Nat.mul_succ, configDestroy, configDestroy,
      ih (Nat.le_of_succ_le hs) fun r hr => h r (Nat.lt_succ_of_lt hr)]
    simp only [Option.bind_some, Teardown.step, if_pos (Nat.lt_of_succ_le hs), hsrv,
      if_neg (Nat.not_lt.mpr hcount)]

lemma configDestroy_done (hservers : cfg.serverCount ≤ configMaxServers)
    (h : ∀ s < cfg.serverCount, cfg.ruleCount s ≤ s) :
    configDestroy cfg (2 * cfg.serverCount + 1) = some ⟨.done, []⟩ := by
  rw [configDestroy, configDestroy_servers hservers le_rfl h]
  simp [Teardown.step]

/-- **`config_destroy` returns exactly if no server has more rules than its index, and does its
work exactly if there are no rules at all**, for every configuration that is loaded. -/
theorem tearsDown_iff (re : ℕ → List UInt8 → Bool) (file : List UInt8) (cfg : NpConfig)
    (hcfg : configLoad re file = some cfg) :
    (DestroyEnds cfg ↔ ∀ s < cfg.serverCount, cfg.ruleCount s ≤ s) ∧
      (TearsDown cfg ↔ ∀ s < cfg.serverCount, cfg.ruleCount s = 0) := by
  have hwf := configLoad_wf hcfg
  refine ⟨⟨?_, fun h => ⟨_, _, configDestroy_done hwf.serverCount_le h⟩⟩, ?_, fun h => ?_⟩
  · rintro ⟨n, freed, hn⟩
    exact (passed_configDestroy hn).1
  · rintro ⟨n, freed, hn, hcount⟩ s hs
    have hnil : freed = [] := (passed_configDestroy hn).2
    by_contra hne
    have hfirst := hcount s 0
    rw [hnil, if_pos ⟨hs, Nat.pos_of_ne_zero hne⟩] at hfirst
    exact absurd hfirst (by simp)
  · refine ⟨_, [], configDestroy_done hwf.serverCount_le fun s hs => by rw [h s hs]; omega, ?_⟩
    intro s i
    rw [if_neg]
    · rfl
    · rintro ⟨hs, hi⟩
      rw [h s hs] at hi
      exact absurd hi (Nat.not_lt_zero i)

/-! ### Two files -/

/-- The rules of a loaded configuration, in the settings of its file. -/
lemma ruleCount_of_load {re : List UInt8 → Bool} {file : List UInt8} {cfg : NpConfig}
    (hcfg : configLoad (fun _ => re) file = some cfg) (s : ℕ) :
    cfg.serverCount = (Settings.load re file).servers.length ∧
      (s < cfg.serverCount →
        ((Settings.load re file).servers[s]?).map (·.rewrite.length) = some (cfg.ruleCount s)) := by
  have hwf := configLoad_wf hcfg
  have hview := configLoad_view re file
  rw [hcfg, Option.map_some] at hview
  rw [← Option.some.inj hview, NpConfig.view]
  constructor
  · rw [List.length_map, List.length_take, cfg.servers.length_eq, min_eq_left hwf.serverCount_le]
  · intro hs
    obtain ⟨srv, hsrv⟩ := cfg.servers.get?_of_lt (lt_of_lt_of_le hs hwf.serverCount_le)
    have hle := (hwf.servers srv (FixedArray.mem_of_get? hsrv)).rewrite.count_le
    have hrules : srv.rewrite.rules.elems.length = configMaxRewrites := srv.rewrite.rules.length_eq
    rw [List.getElem?_map, List.getElem?_take_of_lt hs, ← FixedArray.get?, hsrv,
      NpConfig.ruleCount, hsrv]
    simp [NpServerConfig.view, RewriteTable.view, hrules, hle]

/-- Two servers, of which the second one has a rewrite rule. -/
def secondRuleFile : List UInt8 :=
  List.flatten [bytes "[server]", [lf], bytes "[server]", [lf], bytes "rewrite = ^/a /b"]

/-- The inner loop compares the index of the server with the number of rules. The second server
has one rule and the index 1, so `config_destroy` returns, and the rule is never freed. -/
theorem tearsDown_secondRule : ∃ cfg, configLoad (fun _ _ => true) secondRuleFile = some cfg ∧
    cfg.serverCount = 2 ∧ DestroyEnds cfg ∧ ¬TearsDown cfg := by
  obtain ⟨cfg, hcfg, -⟩ := exists_configLoad (fun _ _ => true) secondRuleFile
  have htwo : cfg.serverCount = 2 := (ruleCount_of_load hcfg 0).1.trans (by decide +kernel)
  have hfirst : cfg.ruleCount 0 = 0 :=
    Option.some.inj (((ruleCount_of_load hcfg 0).2 (by omega)).symm.trans (by decide +kernel))
  have hsecond : cfg.ruleCount 1 = 1 :=
    Option.some.inj (((ruleCount_of_load hcfg 1).2 (by omega)).symm.trans (by decide +kernel))
  obtain ⟨hends, htears⟩ := tearsDown_iff (fun _ _ => true) secondRuleFile cfg hcfg
  refine ⟨cfg, hcfg, htwo, hends.mpr fun s hs => ?_, fun h => ?_⟩
  · obtain rfl | rfl : s = 0 ∨ s = 1 := by omega
    · exact hfirst.le
    · exact hsecond.le
  · have hnone := htears.mp h 1 (by omega)
    omega

/-- A server with one rewrite rule. -/
def oneRuleFile : List UInt8 := bytes "[server]" ++ lf :: bytes "rewrite = ^/a /b"

/-- **A server with one rule**: the rule behind it, which was never compiled, is freed next, and
the loop does not end. -/
theorem exists_not_tearsDown : ∃ cfg, configLoad (fun _ _ => true) oneRuleFile = some cfg ∧
    cfg.serverCount = 1 ∧ cfg.ruleCount 0 = 1 ∧
    configDestroy cfg 3 = some ⟨.rule 0 2, [(0, 0), (0, 1)]⟩ ∧
    ¬DestroyEnds cfg ∧ ¬TearsDown cfg := by
  obtain ⟨cfg, hcfg, -⟩ := exists_configLoad (fun _ _ => true) oneRuleFile
  obtain ⟨hcount, hrules⟩ := ruleCount_of_load hcfg 0
  have hone : cfg.serverCount = 1 := hcount.trans (by decide +kernel)
  have hrule : cfg.ruleCount 0 = 1 :=
    Option.some.inj ((hrules (by omega)).symm.trans (by decide +kernel))
  have hnever : ¬DestroyEnds cfg := by
    rintro ⟨n, freed, hn⟩
    have hle := (passed_configDestroy hn).1 0 (by omega)
    omega
  refine ⟨cfg, hcfg, hone, hrule, ?_, hnever, fun ⟨n, freed, hn, _⟩ => hnever ⟨n, freed, hn⟩⟩
  obtain ⟨srv, hsrv⟩ := cfg.servers.get?_of_lt (i := 0) (by decide)
  obtain ⟨rule₀, hrule₀⟩ := srv.rewrite.rules.get?_of_lt (i := 0) (by decide)
  obtain ⟨rule₁, hrule₁⟩ := srv.rewrite.rules.get?_of_lt (i := 1) (by decide)
  rw [NpConfig.ruleCount, hsrv, Option.map_some, Option.getD_some] at hrule
  simp [configDestroy, Teardown.step, hone, hsrv, hrule, hrule₀, hrule₁]

end Nproxy
