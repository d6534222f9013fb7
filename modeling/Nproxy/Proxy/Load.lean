import Nproxy.Lib.Tally
import Nproxy.Proc.Backends

/-!
The load of the backends over whole runs of a worker.

`upstream_select` raises `active_conns` of the backend it takes. `upstream_release` lowers it,
and is called when there is no connection to the backend, and never again: when a response is
complete, or a connection fails, or the client leaves, the count stays.

* `LoadTracked`: `active_conns` is the number of connections that are proxied or tunnelled to
  the backend, and in mode `least_conn` the backend that is taken has the fewest.
* `Lasts`: the step ends no connection that is proxied or tunnelled, brings it no further
  request, and hands out no object that is one.
* `loadTracked_iff`: the load is tracked all along a run if and only if all of its steps are
  such.
* `completedRun_not_tracked`: a run with one request, whose response is complete.
-/

namespace Nproxy

open Tally (holders Finitary Balanced one)

/-! ### The counts of a pool -/

namespace UpstreamPool

variable {p : UpstreamPool} {b : ℕ}

/-- A backend that is selected has one more. -/
lemma activeConns_given (hb : (upstreamSelect p).1 = some b) (connect : Option ℤ) (j : ℕ) :
    ((p.given b connect).backend j).activeConns =
      (p.backend j).activeConns + if j = b then 1 else 0 := by
  have hget : ((p.given b connect).backend j).activeConns =
      ((upstreamSelect p).2.backend j).activeConns := by
    rw [given, upstreamGetConnection]
    simp only
    split
    · exact backend_modify_field Backend.activeConns (by intro be; rfl) j
    · rfl
  rw [hget]
  rcases p.upstreamSelect_cases with heq | ⟨i, idx, hi, -, heq⟩ <;> rw [heq] at hb ⊢
  · cases hb
  · obtain rfl := Option.some.inj hb
    by_cases hj : j = i
    · subst hj
      rw [if_pos rfl, backend_modify_self (p := { p with rrIndex := idx }) hi]
      rfl
    · rw [if_neg hj, backend_modify_of_ne hj, add_zero]
      rfl

/-- `upstream_release` lowers what is not zero. -/
lemma activeConns_release (hb : b < p.backends.length) (h0 : 0 < (p.backend b).activeConns)
    (error : Bool) :
    ((upstreamRelease p b error).backend b).activeConns = (p.backend b).activeConns - 1 := by
  rw [upstreamRelease, backend_modify_self hb]
  generalize p.backend b = be at h0
  cases error with
  | true =>
    simp only [if_true, if_pos h0]
    split <;> rfl
  | false =>
    simp only [Bool.false_eq_true, if_false, if_pos h0]
    split <;> rfl

/-- One that cannot be connected to has as many as before. -/
lemma activeConns_refused (hb : (upstreamSelect p).1 = some b)
    (h0 : 0 ≤ (p.backend b).activeConns) (connect : Option ℤ) (j : ℕ) :
    ((p.refused b connect).backend j).activeConns = (p.backend j).activeConns := by
  have hgiven := activeConns_given hb connect
  have hlt : b < (p.given b connect).backends.length := by
    rw [length_given]
    exact lt_of_upstreamSelect hb
  rw [refused]
  by_cases hj : j = b
  · subst hj
    have hself := hgiven j
    rw [if_pos rfl] at hself
    rw [activeConns_release hlt (by omega)]
    omega
  · rw [upstreamRelease, backend_modify_of_ne hj, hgiven, if_neg hj, add_zero]

/-- The connections that are kept do not count. -/
lemma activeConns_put (keepalive : ℤ) (p : UpstreamPool) (b : ℕ) (fd : ℤ) (j : ℕ) :
    ((upstreamPutConnection keepalive p b fd).1.backend j).activeConns =
      (p.backend j).activeConns := by
  rw [upstreamPutConnection]
  split
  · exact backend_modify_field Backend.activeConns (by intro be; rfl) j
  · rfl

end UpstreamPool

/-- `active_conns` of the backend, zero if there is none. -/
def HandlerCtx.load (ctx : HandlerCtx) (k : ℕ × ℕ) : ℤ :=
  ((ctx.pool k.1).map fun p => (p.backend k.2).activeConns).getD 0

lemma HandlerCtx.load_of_pool {ctx : HandlerCtx} {i : ℕ} {p : UpstreamPool}
    (hp : ctx.pool i = some p) (b : ℕ) : ctx.load (i, b) = (p.backend b).activeConns := by
  rw [HandlerCtx.load, hp, Option.map_some, Option.getD_some]

lemma load_of_set {ctx ctx' : HandlerCtx} {i : ℕ} {p p' : UpstreamPool} (hp : ctx.pool i = some p)
    (hpools : ctx'.upstreamPools = ctx.upstreamPools.set i (some p')) {taken : Option (ℕ × ℕ)}
    (htaken : ∀ k, taken = some k → k.1 = i)
    (h : ∀ b, (p'.backend b).activeConns = (p.backend b).activeConns + one taken (i, b))
    (k : ℕ × ℕ) : ctx'.load k = ctx.load k + one taken k := by
  obtain ⟨j, b⟩ := k
  by_cases hji : j = i
  · subst hji
    have hp' : ctx'.pool j = some p' := by rw [pool_of_set hp hpools, if_pos rfl]
    rw [HandlerCtx.load_of_pool hp', HandlerCtx.load_of_pool hp, h]
  · have hnot : one taken (j, b) = 0 := if_neg fun heq => hji (htaken _ heq)
    rw [HandlerCtx.load, HandlerCtx.load, pool_of_set hp hpools, if_neg hji, hnot, add_zero]

namespace St

variable {st st' : St}

/-- The counts rise by the backend that the connection is proxied to now, if there is one. -/
def Raises (st st' : St) : Prop :=
  ∀ k, st'.ws.hctx.load k = st.ws.hctx.load k + one st'.conn.serving k

lemma raises_of_eq (hpools : st'.ws.hctx.upstreamPools = st.ws.hctx.upstreamPools)
    (hserving : st'.conn.serving = none) : Raises st st' := fun k => by
  rw [HandlerCtx.load, HandlerCtx.load, pool_of_eq hpools, hserving, Tally.one_none, add_zero]

/-- A client's handler raises the count of what it starts, and of nothing else. -/
lemma Moves.raises (h : Moves st st') (h0 : ∀ k, 0 ≤ st.ws.hctx.load k) : Raises st st' := by
  cases h with
  | leaves hpools htls hserving => exact raises_of_eq hpools hserving
  | fails i b p connect hp hb hpools htls hserving =>
    have hnonneg : 0 ≤ (p.backend b).activeConns := by
      rw [← HandlerCtx.load_of_pool hp]
      exact h0 (i, b)
    rw [Raises, hserving]
    refine load_of_set hp hpools (by simp) fun j => ?_
    rw [UpstreamPool.activeConns_refused hb hnonneg, Tally.one_none, add_zero]
  | starts i b p connect hp hb hpools htls hserving =>
    rw [Raises, hserving]
    refine load_of_set hp hpools (by rintro k hk; cases hk; rfl) fun j => ?_
    rw [UpstreamPool.activeConns_given hb, one]
    simp only [Option.some.injEq, Prod.mk.injEq, true_and, eq_comm]

/-- **No count changes when a response is complete.** -/
lemma Finished.raises {n : Ret} {fd : ℤ} (h : Finished st n fd st') : Raises st st' := by
  rcases h.pools with ⟨i, b, p, hdone, hpools⟩ | ⟨-, hpools⟩
  · rw [Raises, h.serving]
    refine load_of_set hdone.pool hpools (by simp) fun j => ?_
    rw [UpstreamPool.activeConns_put, Tally.one_none, add_zero]
  · exact raises_of_eq hpools h.serving

lemma Drops.raises {fd : ℤ} (h : Drops st fd st') (h0 : ∀ k, 0 ≤ st.ws.hctx.load k) :
    Raises st st' := by
  rcases h with h | ⟨n, h⟩
  · exact h.raises h0
  · exact h.raises

end St

/-! ### The worker -/

namespace Worker

/-- Which backend each connection is proxied or tunnelled to. -/
def serving (w : Worker) (c : ConnId) : Option (ℕ × ℕ) := (w.heap c).serving

/-- The number of connections that are proxied or tunnelled to a backend of server `i`. -/
noncomputable def inProgress (w : Worker) (i b : ℕ) : ℕ := holders w.serving (i, b)

/-- **The load is tracked.** -/
structure LoadTracked (w : Worker) : Prop where
  activeConns : ∀ i p, w.ws.hctx.pool i = some p → ∀ b < p.backends.length,
    (p.backend b).activeConns = w.inProgress i b
  fewest : ∀ i p, w.ws.hctx.pool i = some p → p.mode = .leastConn →
    (∀ b, (upstreamSelect p).1 = some b → b < p.backends.length ∧ p.healthyAt b = true ∧
      ∀ b' < p.backends.length, p.healthyAt b' = true → w.inProgress i b ≤ w.inProgress i b') ∧
    ((upstreamSelect p).1 = none → ∀ b < p.backends.length, p.healthyAt b = true →
      2 ^ 31 - 1 ≤ w.inProgress i b)

/-- The count is right, and finitely many connections are proxied. -/
structure Counts (w : Worker) : Prop where
  finitary : Finitary w.serving
  balanced : Balanced w.ws.hctx.load w.serving

variable {w : Worker} {c : ConnId} {env : Env} {f : St → St}

/-- The second part follows from the first. -/
lemma loadTracked_of_activeConns (h : ∀ i p, w.ws.hctx.pool i = some p →
    ∀ b < p.backends.length, (p.backend b).activeConns = w.inProgress i b) : w.LoadTracked := by
  refine ⟨h, fun i p hp hmode => ?_⟩
  have hselect : (upstreamSelect p).1 = balancerLeastConn p := by
    rw [UpstreamPool.upstreamSelect_leastConn hmode]
    cases balancerLeastConn p <;> rfl
  obtain ⟨hsome, hnone⟩ := p.balancerLeastConn_spec
  rw [hselect]
  refine ⟨fun b hb => ?_, fun hb b hlt hhealthy => ?_⟩
  · obtain ⟨hlt, hhealthy, hleast⟩ := hsome b hb
    refine ⟨hlt, hhealthy, fun b' hlt' hhealthy' => ?_⟩
    have hle := hleast b' hlt' hhealthy'
    rw [h i p hp b hlt, h i p hp b' hlt'] at hle
    exact_mod_cast hle
  · have hle := hnone hb b hlt hhealthy
    rw [h i p hp b hlt] at hle
    omega

lemma Counts.loadTracked (h : w.Counts) : w.LoadTracked :=
  loadTracked_of_activeConns fun i p hp b _ => by
    rw [← HandlerCtx.load_of_pool hp]
    exact h.balanced (i, b)

/-- For backends that are not there the count is zero, and so is the number. -/
lemma LoadTracked.counts (h : w.LoadTracked) (hback : w.Backed) (hfin : Finitary w.serving) :
    w.Counts := by
  refine ⟨hfin, fun k => ?_⟩
  obtain ⟨i, b⟩ := k
  by_cases hk : HasBackend w.ws.hctx i b
  · obtain ⟨p, hp, hb⟩ := hk
    rw [HandlerCtx.load_of_pool hp]
    exact h.activeConns i p hp b hb
  · have hload : w.ws.hctx.load (i, b) = 0 := by
      rw [HandlerCtx.load]
      cases hp : w.ws.hctx.pool i with
      | none => rfl
      | some p =>
        have hb : p.backends.length ≤ b := not_lt.mp fun hlt => hk ⟨p, hp, hlt⟩
        simp only [Option.map_some, Option.getD_some, UpstreamPool.backend]
        rw [List.getD_eq_getElem?_getD, List.getElem?_eq_none hb]
        rfl
    have hnone : {c | w.serving c = some (i, b)} = ∅ := by
      refine Set.eq_empty_of_forall_notMem fun c hc => hk (hback c i b ?_)
      have hserving : (w.heap c).serving = some (i, b) := hc
      rw [Conn.serving] at hserving
      split at hserving
      · exact hserving
      · cases hserving
    rw [hload, holders, hnone, Set.ncard_empty]
    rfl

lemma BackendsStart.counts (h : w.BackendsStart) : w.Counts := by
  have hserving : w.serving = fun _ => none := by
    funext c
    rw [serving, Conn.serving, h.conns c, ite_self]
  refine ⟨by rw [hserving]; exact Tally.finitary_none, fun k => ?_⟩
  have hnone : {c | w.serving c = some k} = ∅ := by
    rw [hserving]
    exact Set.eq_empty_of_forall_notMem fun c hc => by cases hc
  rw [holders, hnone, Set.ncard_empty, HandlerCtx.load]
  cases hp : w.ws.hctx.pool k.1 with
  | none => rfl
  | some p =>
    obtain ⟨cfg, rfl⟩ := h.pools k.1 p hp
    simp only [Option.map_some, Option.getD_some, UpstreamPool.backend, upstreamPoolCreate]
    rw [List.getD_eq_getElem?_getD, List.getElem?_map]
    cases cfg.backends[k.2]? <;> rfl

/-! ### Steps -/

lemma serving_runOn : (w.runOn c env f).serving =
    Function.update w.serving c (f (w.handlerState c env)).conn.serving := by
  funext d
  by_cases hdc : d = c
  · subst hdc
    rw [Function.update_self, serving, runOn_heap_self]
  · rw [Function.update_of_ne hdc, serving, runOn_heap_of_ne hdc]
    rfl

lemma finitary_runOn (h : Finitary w.serving) (c : ConnId) (env : Env) (f : St → St) :
    Finitary (w.runOn c env f).serving := by
  rw [serving_runOn]
  exact h.update c _

lemma Counts.nonneg (h : w.Counts) (k : ℕ × ℕ) : 0 ≤ w.ws.hctx.load k := by
  rw [h.balanced k]
  exact Int.natCast_nonneg _

/-- **A handler keeps the count if and only if it leaves its connection alone, if that one is
proxied.** -/
lemma Counts.runOn_iff (h : w.Counts) {lasts : Prop}
    (hf : (lasts ∧ St.Quiet (w.handlerState c env) (f (w.handlerState c env))) ∨
      (¬lasts ∧ St.Raises (w.handlerState c env) (f (w.handlerState c env)))) :
    (w.runOn c env f).Counts ↔ (w.serving c ≠ none → lasts) := by
  have hfin : Finitary (w.runOn c env f).serving := finitary_runOn h.finitary c env f
  have hcounts : (w.runOn c env f).Counts ↔ Balanced (f (w.handlerState c env)).ws.hctx.load
      (Function.update w.serving c (f (w.handlerState c env)).conn.serving) := by
    rw [← serving_runOn]
    exact ⟨fun h => h.balanced, fun h => ⟨hfin, h⟩⟩
  rw [hcounts]
  rcases hf with ⟨hlasts, hquiet⟩ | ⟨hnot, hraises⟩
  · have hload : ∀ k, (f (w.handlerState c env)).ws.hctx.load k =
        w.ws.hctx.load k + one none k := by
      intro k
      rw [HandlerCtx.load, hquiet.pool, Tally.one_none, add_zero]
      rfl
    rw [h.balanced.update_iff h.finitary hload]
    exact iff_of_true (Or.inl ⟨rfl, hquiet.serving⟩) fun _ => hlasts
  · rw [h.balanced.update_iff h.finitary hraises]
    constructor
    · rintro (⟨hnone, hsame⟩ | ⟨hnone, -⟩) hne
      · exact absurd (hsame.symm.trans hnone) hne
      · exact absurd hnone hne
    · intro hlasts
      exact Or.inr ⟨not_not.mp fun hne => hnot (hlasts hne), rfl⟩

/-- None of the objects that are handed out is proxied. -/
def HandsOutFree : List SysAccept → Worker → Prop
  | [], _ => True
  | .err :: _, _ => True
  | .conn fd peer alloc :: accepts, w =>
    0 ≤ fd ∧ fd ∉ w.ws.openFds →
      (match w.connPoolGet fd peer alloc with
        | some (c, _) => w.serving c = none
        | none => True) ∧
      HandsOutFree accepts (w.acceptOne fd peer alloc)

/-- The step ends no connection that is proxied or tunnelled, brings it no further request,
and hands out no object that is one. -/
def Lasts (w : Worker) : Input → Prop
  | .wait _ => True
  | .handle env accepts =>
    match w.pending with
    | [] => True
    | (h, ev) :: pending =>
      match h.fn with
      | .accept => HandsOutFree accepts { w with pending := pending }
      | .signal => True
      | .client c => w.serving c ≠ none → (w.handlerState c env).ClientLasts ev
      | .upstream c => w.serving c ≠ none → (w.handlerState c env).UpstreamLasts h.fd ev

lemma serving_acceptOne (w : Worker) (fd : ℤ) (peer : InAddr) (alloc : Option ℕ) :
    (w.acceptOne fd peer alloc).ws.hctx = w.ws.hctx ∧
      (w.acceptOne fd peer alloc).serving =
        match w.connPoolGet fd peer alloc with
        | some (c, _) => Function.update w.serving c none
        | none => w.serving := by
  rcases acceptOne_cases w fd peer alloc with ⟨hget, heq⟩ | ⟨c, w', hget, hctx, conn, hheap, htls⟩
  · rw [heq, hget]
    exact ⟨rfl, rfl⟩
  · refine ⟨hctx, ?_⟩
    rw [hget]
    funext d
    by_cases hdc : d = c
    · subst hdc
      simp only [Function.update_self]
      rw [serving, hheap, Function.update_self, Conn.serving, htls, ite_self]
    · simp only [Function.update_of_ne hdc]
      rw [serving, hheap, Function.update_of_ne hdc]
      rfl

lemma finitary_acceptOne (h : Finitary w.serving) (fd : ℤ) (peer : InAddr) (alloc : Option ℕ) :
    Finitary (w.acceptOne fd peer alloc).serving := by
  rw [(serving_acceptOne w fd peer alloc).2]
  split
  · exact h.update _ none
  · exact h

/-- The number of connections of a backend does not grow when clients are accepted. -/
lemma holders_onAcceptEvent_le (accepts : List SysAccept) (h : Finitary w.serving)
    (k : ℕ × ℕ) : holders (onAcceptEvent accepts w).serving k ≤ holders w.serving k := by
  refine (onAcceptEvent_invariant (P := fun w' => Finitary w'.serving ∧
    holders w'.serving k ≤ holders w.serving k) ?_ accepts ⟨h, le_rfl⟩).2
  rintro w' fd peer alloc - ⟨hfin, hle⟩
  refine ⟨finitary_acceptOne hfin fd peer alloc, le_trans ?_ hle⟩
  rw [(serving_acceptOne w' fd peer alloc).2]
  split
  · exact Tally.holders_update_none_le hfin k
  · exact le_rfl

/-- An object that is not proxied is handed out, or none is. -/
lemma Counts.acceptOne (h : w.Counts) {fd : ℤ} {peer : InAddr} {alloc : Option ℕ}
    (hfree : match w.connPoolGet fd peer alloc with
      | some (c, _) => w.serving c = none
      | none => True) : (w.acceptOne fd peer alloc).Counts := by
  obtain ⟨hctx, hserving⟩ := serving_acceptOne w fd peer alloc
  have hsame : (w.acceptOne fd peer alloc).serving = w.serving := by
    rw [hserving]
    cases hget : w.connPoolGet fd peer alloc with
    | none => rfl
    | some r =>
      rw [hget] at hfree
      simp only at hfree ⊢
      rw [← hfree, Function.update_eq_self]
  refine ⟨hsame ▸ h.finitary, ?_⟩
  rw [hctx, hsame]
  exact h.balanced

/-- One that is proxied is handed out: its backend has one connection less, and gets none back
from the clients that come after. -/
lemma Counts.not_onAcceptEvent (h : w.Counts) {fd : ℤ} {peer : InAddr} {alloc : Option ℕ}
    {w' : Worker} (hget : w.connPoolGet fd peer alloc = some (c, w'))
    (hbusy : w.serving c ≠ none) (accepts : List SysAccept) :
    ¬(onAcceptEvent accepts (w.acceptOne fd peer alloc)).Counts := by
  intro hcounts
  obtain ⟨hctx, hserving⟩ := serving_acceptOne w fd peer alloc
  obtain ⟨k, hk⟩ := Option.ne_none_iff_exists'.mp hbusy
  have hle := holders_onAcceptEvent_le accepts (finitary_acceptOne h.finitary fd peer alloc) k
  have hload := hcounts.balanced k
  have hless := Tally.holders_update h.finitary c none k
  rw [hget] at hserving
  rw [hctx_onAcceptEvent, hctx, h.balanced k] at hload
  rw [hk, Tally.one_some_self, Tally.one_none] at hless
  rw [hserving] at hle
  simp only at hle
  omega

/-- **Accepting clients keeps the count if and only if no object that is handed out is
proxied.** -/
lemma Counts.onAcceptEvent_iff (accepts : List SysAccept) (h : w.Counts) :
    (onAcceptEvent accepts w).Counts ↔ HandsOutFree accepts w := by
  induction accepts generalizing w with
  | nil => exact iff_of_true h trivial
  | cons a accepts ih =>
    cases a with
    | err => exact iff_of_true h trivial
    | conn fd peer alloc =>
      rw [Worker.onAcceptEvent, HandsOutFree]
      split
      · rename_i hfd
        rw [imp_iff_right hfd]
        constructor
        · intro hcounts
          have hfree : match w.connPoolGet fd peer alloc with
              | some (c, _) => w.serving c = none
              | none => True := by
            cases hget : w.connPoolGet fd peer alloc with
            | none => trivial
            | some r =>
              exact by_contra fun hbusy => h.not_onAcceptEvent hget hbusy accepts hcounts
          exact ⟨hfree, (ih (h.acceptOne hfree)).mp hcounts⟩
        · rintro ⟨hfree, hrest⟩
          exact (ih (h.acceptOne hfree)).mpr hrest
      · rename_i hfd
        exact iff_of_true h fun hyes => absurd hyes hfd

/-- **A step keeps the count if and only if it is one of those.** -/
lemma Counts.step_iff (h : w.Counts) (i : Input) : (w.step i).Counts ↔ w.Lasts i := by
  cases i with
  | wait events =>
    rw [Worker.step]
    refine iff_of_true ?_ trivial
    split <;> exact ⟨h.finitary, h.balanced⟩
  | handle env accepts =>
    rw [Worker.step, Lasts]
    cases w.pending with
    | nil => exact iff_of_true h trivial
    | cons e pending =>
      obtain ⟨⟨fn, fd⟩, ev⟩ := e
      have h' : Counts { w with pending := pending } := ⟨h.finitary, h.balanced⟩
      cases fn with
      | accept => exact h'.onAcceptEvent_iff accepts
      | signal => exact iff_of_true h' trivial
      | client c =>
        refine h'.runOn_iff (f := fun st => st.onClientEvent ev) ?_
        exact (St.onClientEvent_quiet_or_moves _ ev).imp_right
          (And.imp_right fun hmoves => hmoves.raises h'.nonneg)
      | upstream c =>
        refine h'.runOn_iff (f := fun st => st.proxyOnUpstreamEvent fd ev) ?_
        exact (St.proxyOnUpstreamEvent_quiet_or_drops _ fd ev).imp_right
          (And.imp_right fun hdrops => hdrops.raises h'.nonneg)

lemma finitary_step (h : Finitary w.serving) (i : Input) : Finitary (w.step i).serving :=
  step_invariant (P := fun w => Finitary w.serving) (fun _ _ h => h)
    (fun _ fd peer alloc _ h => finitary_acceptOne h fd peer alloc)
    (fun _ c env _ h => finitary_runOn h c env _) (fun _ c env _ _ h => finitary_runOn h c env _)
    h i

lemma serving_step_upstream {fd : ℤ} {ev : Events} {pending : List (EvHandler × Events)}
    (hpending : w.pending = (⟨.upstream c, fd⟩, ev) :: pending) (env : Env)
    (accepts : List SysAccept) : (w.step (.handle env accepts)).serving =
      Function.update w.serving c
        ((w.handlerState c env).proxyOnUpstreamEvent fd ev).conn.serving := by
  rw [Worker.step, hpending]
  exact serving_runOn (w := { w with pending := pending })
    (f := fun st => st.proxyOnUpstreamEvent fd ev)

/-! ### Runs -/

/-- After any other step it is not. -/
lemma Counts.not_loadTracked_step (h : w.Counts) (hback : w.Backed) {i : Input}
    (hi : ¬w.Lasts i) : ¬(w.step i).LoadTracked := fun htracked =>
  hi ((h.step_iff i).mp (htracked.counts (hback.step i) (finitary_step h.finitary i)))

/-- **The load of the backends is tracked all along a run if and only if no step of it ends a
connection that is proxied or tunnelled**, brings it another request, or hands out its object. -/
theorem loadTracked_iff (w : Worker) (hw : w.BackendsStart) (is : List Input) :
    (∀ js, js <+: is → (w.run js).LoadTracked) ↔ Run.Along Worker.step Lasts w is :=
  Run.forall_prefix_iff_along (Q := fun w => w.Backed ∧ w.Counts)
    (fun _ h => h.2.loadTracked) (fun _ i h hi => ⟨h.1.step i, (h.2.step_iff i).mpr hi⟩)
    (fun _ _ h hi => h.2.not_loadTracked_step h.1 hi) ⟨hw.backed, hw.counts⟩ is

/-- Two backends of a server with `least_conn`. -/
def pairServer : ServerConfig :=
  { backendServer with
    mode := .leastConn
    backends := [⟨bytes "10.0.0.1", 80⟩, ⟨bytes "10.0.0.2", 80⟩] }

/-- A client asks for a page; another one does, while the first is proxied. -/
def pairRun : List Input :=
  List.flatten [clientComes, clientAsks "/",
    oneEvent .accept 3 inEvent idleEnv [.conn 6 ⟨127, 0, 0, 1⟩ (some 4096)],
    oneEvent (.client 1) 6 inEvent { idleEnv with
      clientReads := [.data (List.flatten [bytes "GET / HTTP/1.1", crlf, crlf])]
      connects := [some 7] } [],
    oneEvent (.upstream 0) 5 inEvent { idleEnv with
      upstreamReads := [.data (bytes "HTTP/1.1 200 OK")]
      clientWrites := [.wrote 65536] } []]

/-- While two clients are served by two backends, each backend's `active_conns` is the number of its
requests. -/
theorem loadTracked_iff_pairRun : (ofServer pairServer).BackendsStart ∧
    ((ofServer pairServer).run pairRun).serving 0 = some (0, 0) ∧
    ((ofServer pairServer).run pairRun).serving 1 = some (0, 1) ∧
    Run.Along Worker.step Lasts (ofServer pairServer) pairRun ∧
    ∀ js, js <+: pairRun → ((ofServer pairServer).run js).LoadTracked := by
  have hstart := ofServer_start pairServer
  have hlasts : Run.Along Worker.step Lasts (ofServer pairServer) pairRun := by
    refine ⟨trivial, ?_, trivial, ?_, trivial, ?_, trivial, ?_, trivial, ?_, trivial⟩
    · exact fun _ => ⟨rfl, trivial⟩
    · exact fun hne => absurd (by decide +kernel) hne
    · exact fun _ => ⟨rfl, trivial⟩
    · exact fun hne => absurd (by decide +kernel) hne
    · exact fun _ => by decide +kernel
  exact ⟨hstart, by decide +kernel, by decide +kernel, hlasts,
    (loadTracked_iff _ hstart pairRun).mpr hlasts⟩

/-- **A request that is complete, and still counts**: no connection is proxied, and
`active_conns` is one. -/
theorem completedRun_not_tracked : (ofServer pairServer).BackendsStart ∧
    ((ofServer pairServer).run (askedRun ++ [.handle answered []])).inProgress 0 0 = 0 ∧
    ((ofServer pairServer).run (askedRun ++ [.handle answered []])).ws.hctx.load (0, 0) = 1 ∧
    ¬((ofServer pairServer).run (askedRun ++ [.handle answered []])).LoadTracked := by
  have hstart := ofServer_start pairServer
  -- until the backend closes, the count is right
  have hcounts : ((ofServer pairServer).run askedRun).Counts := by
    have hlasts : Run.Along Worker.step Lasts (ofServer pairServer) askedRun :=
      ⟨trivial, fun _ => ⟨rfl, trivial⟩, trivial,
        fun hne => absurd (by decide +kernel) hne, trivial, trivial⟩
    exact hlasts.invariant (fun _ i h hi => (h.step_iff i).mpr hi) hstart.counts
  have hback : ((ofServer pairServer).run askedRun).Backed :=
    Run.run_invariant (fun _ i h => h.step i) hstart.backed askedRun
  have hserving : ((ofServer pairServer).run askedRun).serving 0 = some (0, 0) := by
    decide +kernel
  have hnone : ((ofServer pairServer).run (askedRun ++ [.handle answered []])).inProgress 0 0 =
      0 := by
    have hload : ((ofServer pairServer).run askedRun).ws.hctx.load (0, 0) = 1 := by
      decide +kernel
    have hstep : ((ofServer pairServer).run (askedRun ++ [.handle answered []])).serving =
        Function.update ((ofServer pairServer).run askedRun).serving 0 none := by
      rw [run, Run.run_append]
      have hevent : ((ofServer pairServer).run askedRun).pending =
          [(⟨.upstream 0, 5⟩, inEvent)] := by decide +kernel
      refine (serving_step_upstream hevent answered []).trans ?_
      exact congrArg _ (by decide +kernel)
    have hless := Tally.holders_update hcounts.finitary 0 none (0, 0)
    rw [← hcounts.balanced, hload, hserving, Tally.one_some_self, Tally.one_none] at hless
    rw [inProgress, hstep]
    omega
  have hnot : ¬((ofServer pairServer).run askedRun).Lasts (.handle answered []) := by
    intro hlasts
    have hclosed : ¬(((ofServer pairServer).run askedRun).handlerState 0 answered).UpstreamLasts
        5 inEvent := by decide +kernel
    exact hclosed (hlasts (by rw [hserving]; exact Option.some_ne_none _))
  refine ⟨hstart, hnone, by decide +kernel, ?_⟩
  rw [run, Run.run_append]
  exact hcounts.not_loadTracked_step hback hnot

end Worker

end Nproxy
