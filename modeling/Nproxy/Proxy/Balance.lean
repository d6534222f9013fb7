import Nproxy.Lib.Cycle
import Nproxy.Lib.Run
import Nproxy.Proxy.Upstream

/-!
Which backend gets the next request.

* `PoolOp`: the calls that change a pool; `rrIndex` names a backend after any of them
  (`rrWf_run`).
* `upstreamSelect_eq_serve`: in mode `round_robin`, `upstream_select` is a scan of the
  circle of backends that starts at `rrIndex`, and `roundRobin_fair` is what follows for
  any number of consecutive calls.
* `balancerLeastConn_spec`: in mode `least_conn` it is a healthy backend with the least
  `active_conns`.
-/

namespace Nproxy

open Cycle (serve serves)

/-! ### The calls that change a pool -/

/-- A call of one of the functions of `proxy/upstream.c`. -/
inductive PoolOp where
  | select
  | release (i : ℕ) (error : Bool)
  | get (i : ℕ) (connect : Option ℤ)
  | put (keepaliveConns : ℤ) (i : ℕ) (fd : ℤ)

namespace UpstreamPool

variable {p : UpstreamPool} {i j : ℕ} {f : Backend → Backend}

/-- The pool after a call. -/
def step (p : UpstreamPool) : PoolOp → UpstreamPool
  | .select => (upstreamSelect p).2
  | .release i error => upstreamRelease p i error
  | .get i connect => (upstreamGetConnection p i connect).2.1
  | .put keepaliveConns i fd => (upstreamPutConnection keepaliveConns p i fd).1

/-- `rr_index` is the index of a backend, if there is one. -/
def RrWf (p : UpstreamPool) : Prop := p.backends ≠ [] → p.rrIndex < p.backends.length

instance (p : UpstreamPool) : Decidable p.RrWf :=
  inferInstanceAs (Decidable (p.backends ≠ [] → p.rrIndex < p.backends.length))

/-- Is backend `i` healthy? -/
def healthyAt (p : UpstreamPool) (i : ℕ) : Bool := (p.backend i).healthy

@[simp] lemma length_modify (p : UpstreamPool) (i : ℕ) (f : Backend → Backend) :
    (p.modify i f).backends.length = p.backends.length := List.length_modify ..

@[simp] lemma rrIndex_modify (p : UpstreamPool) (i : ℕ) (f : Backend → Backend) :
    (p.modify i f).rrIndex = p.rrIndex := rfl

lemma backend_modify_of_ne (h : j ≠ i) : (p.modify i f).backend j = p.backend j := by
  simp only [modify, backend, List.getD_eq_getElem?_getD, List.getElem?_modify, if_neg (Ne.symm h)]
  simp

lemma backend_modify_self (h : i < p.backends.length) :
    (p.modify i f).backend i = f (p.backend i) := by
  simp [modify, backend, h]

/-- A change of a backend that leaves a part of it alone leaves that part alone in all. -/
lemma backend_modify_field {β : Type*} (g : Backend → β) (hg : ∀ be, g (f be) = g be) (j : ℕ) :
    g ((p.modify i f).backend j) = g (p.backend j) := by
  by_cases hj : j = i
  · subst hj
    by_cases hlen : j < p.backends.length
    · rw [backend_modify_self hlen, hg]
    · simp [modify, backend, hlen]
  · rw [backend_modify_of_ne hj]

lemma RrWf.modify (h : p.RrWf) (i : ℕ) (f : Backend → Backend) : (p.modify i f).RrWf := by
  intro hne
  rw [length_modify]
  refine h fun hnil => hne ?_
  simp [UpstreamPool.modify, hnil]

end UpstreamPool

/-! ### `balancer_round_robin` -/

namespace UpstreamPool

variable {p : UpstreamPool}

/-- The backends in the order in which the scan meets them: from `rr_index` on, around the
circle. -/
def order (p : UpstreamPool) : List ℕ := (List.range p.backends.length).rotate p.rrIndex

lemma order_eq (p : UpstreamPool) : p.order =
    (List.range p.backends.length).map fun i => (p.rrIndex + i) % p.backends.length := by
  refine List.ext_getElem (by simp [order]) fun i h1 h2 => ?_
  simp [order, List.getElem_rotate, Nat.add_comm]

lemma mem_order {i : ℕ} : i ∈ p.order ↔ i < p.backends.length := by
  rw [order, List.mem_rotate, List.mem_range]

lemma nodup_order (p : UpstreamPool) : p.order.Nodup :=
  List.nodup_rotate.mpr List.nodup_range

/-- A hit at distance `i` from `rr_index`. -/
lemma order_set (p : UpstreamPool) (i : ℕ) :
    { p with rrIndex := ((p.rrIndex + i) % p.backends.length + 1) % p.backends.length }.order =
      p.order.rotate (i + 1) := by
  simp only [order]
  rw [List.rotate_rotate, Nat.mod_add_mod, ← Nat.add_assoc]
  conv_rhs => rw [← List.rotate_mod, List.length_range]

@[simp] lemma length_order (p : UpstreamPool) : p.order.length = p.backends.length := by
  simp [order]

lemma getElem_order (p : UpstreamPool) {i : ℕ} (h : i < p.order.length) :
    p.order[i] = (p.rrIndex + i) % p.backends.length := by
  simp [order_eq]

/-- **The scan of `balancer_round_robin`** serves the first healthy backend on the circle. -/
lemma balancerRoundRobin_eq_serve (p : UpstreamPool) :
    (balancerRoundRobin p).1 = (serve p.healthyAt p.order).1 ∧
      (balancerRoundRobin p).2.order = (serve p.healthyAt p.order).2 := by
  have hfind : p.order.find? p.healthyAt = ((List.range p.backends.length).find? fun i =>
      (p.backend ((p.rrIndex + i) % p.backends.length)).healthy).map
        fun i => (p.rrIndex + i) % p.backends.length := by
    rw [p.order_eq, List.find?_map]
    rfl
  rw [balancerRoundRobin, serve, hfind]
  cases hhit : (List.range p.backends.length).find? fun i =>
      (p.backend ((p.rrIndex + i) % p.backends.length)).healthy with
  | none => exact ⟨rfl, rfl⟩
  | some i =>
    -- the distance of the hit from `rr_index` is its position on the circle
    have hidx : p.order.findIdx p.healthyAt = i := by
      obtain ⟨hi, hmem, hbefore⟩ := List.find?_range_eq_some.mp hhit
      rw [List.mem_range] at hmem
      rw [List.findIdx_eq (by simpa using hmem)]
      refine ⟨?_, fun j hj => ?_⟩
      · rw [getElem_order]
        exact hi
      · rw [getElem_order]
        simpa [healthyAt] using hbefore j hj
    simp only [Option.map_some, hidx]
    exact ⟨trivial, p.order_set i⟩

lemma balancerRoundRobin_cases (p : UpstreamPool) :
    balancerRoundRobin p = (none, p) ∨ ∃ i idx, i < p.backends.length ∧
      idx < p.backends.length ∧ balancerRoundRobin p = (some i, { p with rrIndex := idx }) := by
  rw [balancerRoundRobin]
  simp only
  split
  · exact Or.inl rfl
  · rename_i i hhit
    have hi := (List.find?_range_eq_some.mp hhit).2.1
    rw [List.mem_range] at hi
    have hpos : 0 < p.backends.length := by omega
    exact Or.inr ⟨_, _, Nat.mod_lt _ hpos, Nat.mod_lt _ hpos, rfl⟩

/-! ### `balancer_least_conn` -/

/-- One turn of the loop of `balancer_least_conn`. -/
def leastConnTurn (p : UpstreamPool) (best : Option ℕ × ℤ) (i : ℕ) : Option ℕ × ℤ :=
  let be := p.backend i
  if be.healthy = false then best
  else if be.activeConns < best.2 then (some i, be.activeConns)
  else best

/-- What the loop has found among the backends `l`. -/
structure Best (p : UpstreamPool) (l : List ℕ) (best : Option ℕ × ℤ) : Prop where
  found : ∀ i, best.1 = some i →
    i ∈ l ∧ p.healthyAt i = true ∧ best.2 = (p.backend i).activeConns
  least : ∀ j ∈ l, p.healthyAt j = true → best.2 ≤ (p.backend j).activeConns
  start : best.1 = none → best.2 = 2 ^ 31 - 1

/-- A backend that is out of the rotation, or has no fewer connections, changes nothing. -/
lemma Best.skip {l : List ℕ} {best : Option ℕ × ℤ} (h : p.Best l best) {j : ℕ}
    (hj : p.healthyAt j = true → best.2 ≤ (p.backend j).activeConns) : p.Best (l ++ [j]) best := by
  refine ⟨fun i hi => ?_, fun k hk hhealthy => ?_, h.start⟩
  · obtain ⟨hmem, hrest⟩ := h.found i hi
    exact ⟨List.mem_append_left _ hmem, hrest⟩
  · rcases List.mem_append.mp hk with hk | hk
    · exact h.least k hk hhealthy
    · obtain rfl := List.mem_singleton.mp hk
      exact hj hhealthy

lemma Best.turn {l : List ℕ} {best : Option ℕ × ℤ} (h : p.Best l best) (j : ℕ) :
    p.Best (l ++ [j]) (p.leastConnTurn best j) := by
  rw [leastConnTurn]
  split
  · rename_i hsick
    exact h.skip fun hhealthy => by simp [healthyAt, hsick] at hhealthy
  · rename_i hwell
    split
    · rename_i hless
      refine ⟨fun i hi => ?_, fun k hk hhealthy => ?_, fun hnone => by simp at hnone⟩
      · obtain rfl := Option.some.inj hi
        exact ⟨by simp, by simpa [healthyAt] using hwell, rfl⟩
      · rcases List.mem_append.mp hk with hk | hk
        · exact hless.le.trans (h.least k hk hhealthy)
        · obtain rfl := List.mem_singleton.mp hk
          exact le_rfl
    · rename_i hmore
      exact h.skip fun _ => not_lt.mp hmore

lemma best_foldl (p : UpstreamPool) (l : List ℕ) :
    p.Best l (l.foldl p.leastConnTurn (none, 2 ^ 31 - 1)) := by
  induction l using List.reverseRecOn with
  | nil => exact ⟨by simp, by simp, fun _ => rfl⟩
  | append_singleton l j ih =>
    rw [List.foldl_append]
    exact ih.turn j

/-- **`balancer_least_conn` finds a healthy backend with the least load**, unless each of
them has the load `INT_MAX` or more. -/
lemma balancerLeastConn_spec (p : UpstreamPool) :
    (∀ i, balancerLeastConn p = some i → i < p.backends.length ∧ p.healthyAt i = true ∧
        ∀ j < p.backends.length, p.healthyAt j = true →
          (p.backend i).activeConns ≤ (p.backend j).activeConns) ∧
      (balancerLeastConn p = none → ∀ j < p.backends.length, p.healthyAt j = true →
        2 ^ 31 - 1 ≤ (p.backend j).activeConns) := by
  have hbest := p.best_foldl (List.range p.backends.length)
  refine ⟨fun i hi => ?_, fun hnone j hj hhealthy => ?_⟩
  · obtain ⟨hmem, hhealthy, hload⟩ := hbest.found i hi
    refine ⟨List.mem_range.mp hmem, hhealthy, fun j hj hj' => ?_⟩
    rw [← hload]
    exact hbest.least j (List.mem_range.mpr hj) hj'
  · rw [← hbest.start hnone]
    exact hbest.least j (List.mem_range.mpr hj) hhealthy

/-! ### `upstream_select` -/

lemma upstreamSelect_roundRobin (hmode : p.mode = .roundRobin) : upstreamSelect p =
    match balancerRoundRobin p with
    | (none, p') => (none, p')
    | (some i, p') => (some i, p'.modify i fun be =>
      { be with activeConns := be.activeConns + 1 }) := by
  rw [upstreamSelect, hmode]
  split
  · rename_i hnil
    simp [balancerRoundRobin, hnil]
  · rcases balancerRoundRobin p with ⟨_ | i, p'⟩ <;> rfl

lemma upstreamSelect_leastConn (hmode : p.mode = .leastConn) : upstreamSelect p =
    match balancerLeastConn p with
    | none => (none, p)
    | some i => (some i, p.modify i fun be => { be with activeConns := be.activeConns + 1 }) := by
  rw [upstreamSelect, hmode]
  split
  · rename_i hnil
    simp [balancerLeastConn, hnil]
  · rcases balancerLeastConn p with _ | i <;> rfl

/-- What `upstream_select` can do: nothing, or it takes a backend, and moves `rr_index` in
mode `round_robin`. -/
lemma upstreamSelect_cases (p : UpstreamPool) : upstreamSelect p = (none, p) ∨
    ∃ i idx, i < p.backends.length ∧ (idx = p.rrIndex ∨ idx < p.backends.length) ∧
      upstreamSelect p = (some i, { p with rrIndex := idx }.modify i fun be =>
        { be with activeConns := be.activeConns + 1 }) := by
  have hmode : p.mode = .leastConn ∨ p.mode = .roundRobin := by cases p.mode <;> simp
  rcases hmode with hmode | hmode
  · rw [upstreamSelect_leastConn hmode]
    cases hbest : balancerLeastConn p with
    | none => exact Or.inl rfl
    | some i =>
      exact Or.inr ⟨i, p.rrIndex, (p.balancerLeastConn_spec.1 i hbest).1, Or.inl rfl, rfl⟩
  · rw [upstreamSelect_roundRobin hmode]
    rcases p.balancerRoundRobin_cases with heq | ⟨i, idx, hi, hidx, heq⟩ <;> rw [heq]
    · exact Or.inl rfl
    · exact Or.inr ⟨i, idx, hi, Or.inr hidx, rfl⟩

lemma healthyAt_upstreamSelect (p : UpstreamPool) :
    (upstreamSelect p).2.healthyAt = p.healthyAt := by
  funext j
  rcases p.upstreamSelect_cases with heq | ⟨i, idx, -, -, heq⟩ <;> rw [heq]
  exact backend_modify_field (p := { p with rrIndex := idx })
    (f := fun be => { be with activeConns := be.activeConns + 1 }) Backend.healthy
    (fun _ => rfl) j

lemma length_upstreamSelect (p : UpstreamPool) :
    (upstreamSelect p).2.backends.length = p.backends.length := by
  rcases p.upstreamSelect_cases with heq | ⟨i, idx, -, -, heq⟩ <;> rw [heq]
  exact length_modify ..

lemma mode_upstreamSelect (p : UpstreamPool) : (upstreamSelect p).2.mode = p.mode := by
  rcases p.upstreamSelect_cases with heq | ⟨i, idx, -, -, heq⟩ <;> rw [heq]
  rfl

lemma RrWf.upstreamSelect (h : p.RrWf) : (upstreamSelect p).2.RrWf := by
  rcases p.upstreamSelect_cases with heq | ⟨i, idx, -, hidx, heq⟩ <;> rw [heq]
  · exact h
  · refine RrWf.modify (fun hne => ?_) i _
    rcases hidx with rfl | hidx
    · exact h hne
    · exact hidx

/-- **`rr_index` stays in range**, whatever is called. -/
lemma RrWf.step (h : p.RrWf) (op : PoolOp) : (p.step op).RrWf := by
  cases op with
  | select => exact h.upstreamSelect
  | release i error => exact h.modify i _
  | get i connect =>
    rw [UpstreamPool.step, upstreamGetConnection]
    split
    · exact h.modify i _
    · exact h
  | put keepaliveConns i fd =>
    rw [UpstreamPool.step, upstreamPutConnection]
    split
    · exact h.modify i _
    · exact h

lemma rrWf_create (cfg : ServerConfig) : (upstreamPoolCreate cfg).RrWf := fun hne =>
  List.length_pos_of_ne_nil hne

lemma rrWf_run (cfg : ServerConfig) (ops : List PoolOp) :
    (Run.run step (upstreamPoolCreate cfg) ops).RrWf :=
  Run.run_invariant (fun _ op h => h.step op) (rrWf_create cfg) ops

/-! ### Consecutive calls -/

/-- So many calls of `upstream_select`: what they return, and the pool after them. -/
def selects : ℕ → UpstreamPool → List (Option ℕ) × UpstreamPool
  | 0, p => ([], p)
  | k + 1, p =>
    let r := upstreamSelect p
    let rest := selects k r.2
    (r.1 :: rest.1, rest.2)

lemma RrWf.selects (h : p.RrWf) (k : ℕ) : (p.selects k).2.RrWf := by
  induction k generalizing p with
  | zero => exact h
  | succ k ih => exact ih h.upstreamSelect

/-- A call of `upstream_select` as a turn on the circle. -/
lemma upstreamSelect_eq_serve (hmode : p.mode = .roundRobin) :
    (Nproxy.upstreamSelect p).1 = (serve p.healthyAt p.order).1 ∧
      (Nproxy.upstreamSelect p).2.order = (serve p.healthyAt p.order).2 := by
  obtain ⟨hfst, hsnd⟩ := p.balancerRoundRobin_eq_serve
  rw [← hfst, ← hsnd, upstreamSelect_roundRobin hmode]
  rcases balancerRoundRobin p with ⟨_ | i, p'⟩
  · exact ⟨rfl, rfl⟩
  · exact ⟨rfl, by simp [order]⟩

lemma selects_eq_serves (hmode : p.mode = .roundRobin) (k : ℕ) :
    (p.selects k).1 = (serves p.healthyAt k p.order).1 := by
  induction k generalizing p with
  | zero => rfl
  | succ k ih =>
    obtain ⟨hfst, hsnd⟩ := upstreamSelect_eq_serve hmode
    have hrest := ih (p.mode_upstreamSelect.trans hmode)
    rw [p.healthyAt_upstreamSelect, hsnd] at hrest
    rw [selects, serves]
    simp only
    rw [hfst, hrest]

/-- The healthy backends, counted along the circle. -/
lemma length_filter_order (p : UpstreamPool) :
    (p.order.filter p.healthyAt).length = (p.backends.filter (·.healthy)).length := by
  have hmap : (List.range p.backends.length).map p.backend = p.backends := by
    refine List.ext_getElem (by simp) fun i h1 h2 => ?_
    simp [backend, h2]
  have hperm : p.order.Perm (List.range p.backends.length) := List.rotate_perm _ _
  calc (p.order.filter p.healthyAt).length
      = ((List.range p.backends.length).filter p.healthyAt).length := (hperm.filter _).length_eq
    _ = (((List.range p.backends.length).map p.backend).filter (·.healthy)).length := by
        rw [List.filter_map, List.length_map]
        rfl
    _ = (p.backends.filter (·.healthy)).length := by rw [hmap]

/-- A healthy backend is met once on the way around. -/
lemma count_filter_order (p : UpstreamPool) (i : ℕ) :
    ((p.order.filter p.healthyAt).map some).count (some i) =
      if i < p.backends.length ∧ p.healthyAt i = true then 1 else 0 := by
  rw [List.count_map_of_injective _ some (Option.some_injective ℕ)]
  by_cases hi : i < p.backends.length ∧ p.healthyAt i = true
  · rw [if_pos hi]
    refine List.count_eq_one_of_mem (p.nodup_order.filter _) ?_
    exact List.mem_filter.mpr ⟨mem_order.mpr hi.1, hi.2⟩
  · rw [if_neg hi, List.count_eq_zero]
    intro hmem
    rw [List.mem_filter, mem_order] at hmem
    exact hi hmem

lemma upstreamSelect_eq_none_iff (hmode : p.mode = .roundRobin) :
    (Nproxy.upstreamSelect p).1 = none ↔ ∀ be ∈ p.backends, be.healthy = false := by
  rw [(upstreamSelect_eq_serve hmode).1, Cycle.serve_fst, List.head?_eq_none_iff,
    ← List.length_eq_zero_iff, length_filter_order, List.length_eq_zero_iff,
    List.filter_eq_nil_iff]
  simp

lemma upstreamSelect_of_none (h : (Nproxy.upstreamSelect p).1 = none) :
    (Nproxy.upstreamSelect p).2 = p := by
  rcases p.upstreamSelect_cases with heq | ⟨i, idx, -, -, heq⟩ <;> rw [heq] at h ⊢
  simp at h

end UpstreamPool

open UpstreamPool in
/-- **Round-robin is fair**: from any pool, as many calls of `upstream_select` as there are
healthy backends return each of them once, in the order of their indices from `rr_index` on
around the circle; `rr_index` stays in range along any number of calls; and nothing is
returned exactly when no backend is healthy, and then nothing changes. -/
theorem roundRobin_fair (p : UpstreamPool) (hmode : p.mode = .roundRobin) (hrr : p.RrWf) :
    let h := (p.backends.filter (·.healthy)).length
    ((p.selects h).1 = (((List.range p.backends.length).rotate p.rrIndex).filter p.healthyAt).map
        some ∧
      ∀ i, (p.selects h).1.count (some i) =
        if i < p.backends.length ∧ p.healthyAt i = true then 1 else 0) ∧
    (∀ k, (p.selects k).2.RrWf) ∧
    ((upstreamSelect p).1 = none ↔ ∀ be ∈ p.backends, be.healthy = false) ∧
    ((upstreamSelect p).1 = none → (upstreamSelect p).2 = p) := by
  intro h
  have hall : (p.selects h).1 = (p.order.filter p.healthyAt).map some := by
    rw [selects_eq_serves hmode, ← Cycle.serves_all, length_filter_order]
  refine ⟨⟨hall, fun i => ?_⟩, hrr.selects, upstreamSelect_eq_none_iff hmode,
    upstreamSelect_of_none⟩
  rw [hall]
  exact p.count_filter_order i

/-- A pool of four backends, the second out of the rotation, after the third was taken. -/
def fourBackends : UpstreamPool where
  backends := [true, false, true, true].map fun healthy =>
    { (default : Backend) with healthy := healthy }
  rrIndex := 3
  mode := .roundRobin
  keepaliveConns := 0

/-- Three selections take each of the three healthy backends once, and the unhealthy one never. -/
theorem roundRobin_fair_fourBackends :
    (fourBackends.selects 3).1 = [some 3, some 0, some 2] ∧
      ∀ i, (fourBackends.selects 3).1.count (some i) =
        if i < 4 ∧ fourBackends.healthyAt i = true then 1 else 0 :=
  ⟨by decide, (roundRobin_fair fourBackends rfl (by decide)).1.2⟩

end Nproxy
