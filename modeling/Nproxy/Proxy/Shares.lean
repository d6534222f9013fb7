import Nproxy.Proc.Outcomes
import Nproxy.Proxy.Load

/-!
How many requests each backend has been given.

A request that is handed to a backend is counted in `active_conns`, and the count stays after
the response is complete. So `least_conn` does not compare the connections that are open: it
compares all the requests of the past, and what it keeps even is those.

* `UpstreamPool.Even`: no healthy backend is ahead of another by more than one.
* `Worker.hands`: the backend that a step hands a request to.
* `dealt_run`: the count of a backend is the number of its requests over the whole run, as long as
  that fits into an `int`, and in mode `least_conn` the numbers of two healthy backends differ by at
  most one.
-/

namespace Nproxy

namespace UpstreamPool

variable {p : UpstreamPool} {b : ℕ}

/-- In mode `least_conn` no healthy backend is ahead of another by more than one. -/
def Even (p : UpstreamPool) : Prop :=
  p.mode = .leastConn → ∀ b b', p.healthyAt b = true → p.healthyAt b' = true →
    (p.backend b).activeConns ≤ (p.backend b').activeConns + 1

lemma lt_of_healthyAt (h : p.healthyAt b = true) : b < p.backends.length := by
  by_contra hb
  rw [healthyAt, backend, List.getD_eq_getElem?_getD,
    List.getElem?_eq_none (not_lt.mp hb)] at h
  cases h

lemma mode_given (p : UpstreamPool) (b : ℕ) (connect : Option ℤ) :
    (p.given b connect).mode = p.mode := by
  rw [given, upstreamGetConnection]
  simp only
  split <;> exact p.mode_upstreamSelect

lemma healthyAt_given (p : UpstreamPool) (b : ℕ) (connect : Option ℤ) :
    (p.given b connect).healthyAt = p.healthyAt := by
  rw [← p.healthyAt_upstreamSelect, given, upstreamGetConnection]
  simp only
  split
  · exact funext (backend_modify_field Backend.healthy (by intro be; rfl))
  · rfl

/-- A failure makes no backend healthy. -/
lemma healthyAt_of_refused {connect : Option ℤ} {j : ℕ}
    (h : (p.refused b connect).healthyAt j = true) : p.healthyAt j = true := by
  rw [← p.healthyAt_given b connect]
  have hlt := lt_of_healthyAt h
  rw [refused, upstreamRelease, length_modify] at hlt
  rw [refused, upstreamRelease, healthyAt] at h
  rcases eq_or_ne j b with rfl | hj
  · rw [backend_modify_self hlt] at h
    rw [healthyAt]
    generalize (p.given j connect).backend j = be at h
    by_contra hbe
    revert h
    simp only [if_true]
    split_ifs <;> simp [hbe]
  · rwa [backend_modify_of_ne hj] at h

/-- Where the counts and the mode stay and no backend becomes healthy, they stay even. -/
lemma Even.mono {p' : UpstreamPool} (h : p.Even) (hmode : p'.mode = p.mode)
    (hhealthy : ∀ j, p'.healthyAt j = true → p.healthyAt j = true)
    (hactive : ∀ j, (p'.backend j).activeConns = (p.backend j).activeConns) : p'.Even := by
  intro hleast b b' hb hb'
  rw [hactive, hactive]
  exact h (hmode ▸ hleast) b b' (hhealthy b hb) (hhealthy b' hb')

/-- The backend that is taken has the fewest, so one more puts it ahead by one at most. -/
lemma Even.given (h : p.Even) (hb : (upstreamSelect p).1 = some b) (connect : Option ℤ) :
    (p.given b connect).Even := by
  intro hmode j j' hj hj'
  rw [mode_given] at hmode
  rw [healthyAt_given] at hj hj'
  have hbest : balancerLeastConn p = some b := by
    rw [upstreamSelect_leastConn hmode] at hb
    cases hleast : balancerLeastConn p <;> rw [hleast] at hb
    · cases hb
    · exact hb
  have hfewest := (p.balancerLeastConn_spec.1 b hbest).2.2 j' (lt_of_healthyAt hj') hj'
  have hbefore := h hmode j j' hj hj'
  rw [activeConns_given hb, activeConns_given hb]
  split_ifs with hjb hjb'
  · omega
  · subst hjb
    omega
  · omega
  · omega

lemma Even.refused (h : p.Even) (hb : (upstreamSelect p).1 = some b)
    (h0 : 0 ≤ (p.backend b).activeConns) (connect : Option ℤ) : (p.refused b connect).Even :=
  h.mono (p.mode_given b connect) (fun _ => healthyAt_of_refused)
    (activeConns_refused hb h0 connect)

lemma Even.put (h : p.Even) (keepalive : ℤ) (b : ℕ) (fd : ℤ) :
    (upstreamPutConnection keepalive p b fd).1.Even := by
  refine h.mono ?_ (fun j hj => ?_) (activeConns_put keepalive p b fd)
  · rw [upstreamPutConnection]
    split <;> rfl
  · rw [upstreamPutConnection] at hj
    split at hj
    · rw [healthyAt, backend_modify_field Backend.healthy (by intro be; rfl)] at hj
      exact hj
    · exact hj

lemma activeConns_upstreamPoolCreate (cfg : ServerConfig) (j : ℕ) :
    ((upstreamPoolCreate cfg).backend j).activeConns = 0 := by
  simp only [backend, upstreamPoolCreate]
  rw [List.getD_eq_getElem?_getD, List.getElem?_map]
  cases cfg.backends[j]? <;> rfl

lemma even_upstreamPoolCreate (cfg : ServerConfig) : (upstreamPoolCreate cfg).Even := by
  intro _ b b' _ _
  rw [activeConns_upstreamPoolCreate, activeConns_upstreamPoolCreate]
  exact zero_le_one

end UpstreamPool

/-- The counts are those of the requests that were handed out, and they are even. -/
structure HandlerCtx.Dealt (ctx : HandlerCtx) (out : List (ℕ × ℕ)) : Prop where
  load : ∀ k, ctx.load k = out.count k
  even : ∀ i p, ctx.pool i = some p → p.Even

namespace HandlerCtx.Dealt

variable {ctx ctx' : HandlerCtx} {out : List (ℕ × ℕ)}

lemma nonneg (h : ctx.Dealt out) (k : ℕ × ℕ) : 0 ≤ ctx.load k := by
  rw [h.load]
  exact Int.natCast_nonneg _

lemma of_eq (h : ctx.Dealt out) (hpools : ctx'.upstreamPools = ctx.upstreamPools) :
    ctx'.Dealt out := by
  have hpool : ctx'.pool = ctx.pool := funext (pool_of_eq hpools)
  refine ⟨fun k => ?_, by rw [hpool]; exact h.even⟩
  rw [HandlerCtx.load, hpool]
  exact h.load k

/-- One of the pools changes, and the count of one backend rises, or none. -/
lemma set {i : ℕ} {p p' : UpstreamPool} {taken : Option (ℕ × ℕ)} (h : ctx.Dealt out)
    (hp : ctx.pool i = some p)
    (hpools : ctx'.upstreamPools = ctx.upstreamPools.set i (some p'))
    (hload : ∀ k, ctx'.load k = ctx.load k + Tally.one taken k) (hp' : p'.Even) :
    ctx'.Dealt (out ++ taken.toList) := by
  refine ⟨fun k => ?_, fun j q hq => ?_⟩
  · have hone : Tally.one taken k = (taken.toList.count k : ℕ) := by
      cases taken with
      | none => rfl
      | some k' => by_cases hk : k' = k <;> simp [Tally.one, hk]
    rw [hload, h.load, hone, List.count_append, Nat.cast_add]
  · rw [pool_of_set hp hpools] at hq
    split_ifs at hq
    · rwa [← Option.some.inj hq]
    · exact h.even j q hq

end HandlerCtx.Dealt

namespace St

variable {st st' : St} {out : List (ℕ × ℕ)}

instance (st : St) (ev : Events) : Decidable (st.ClientLasts ev) :=
  inferInstanceAs (Decidable (¬_ ∧ (_ → ¬_ ∧ (_ → _))))

/-- A client's handler hands a request to a backend, or to none. -/
lemma Moves.dealt (hmoves : Moves st st') (h : st.ws.hctx.Dealt out) :
    st'.ws.hctx.Dealt (out ++ st'.conn.serving.toList) := by
  have hraises := hmoves.raises h.nonneg
  cases hmoves with
  | leaves hpools _ hserving =>
    rw [hserving, Option.toList_none, List.append_nil]
    exact h.of_eq hpools
  | fails i b p connect hp hb hpools =>
    have hnonneg := h.nonneg (i, b)
    rw [HandlerCtx.load_of_pool hp] at hnonneg
    exact h.set hp hpools hraises ((h.even i p hp).refused hb hnonneg connect)
  | starts i b p connect hp hb hpools =>
    exact h.set hp hpools hraises ((h.even i p hp).given hb connect)

lemma Finished.dealt {n : Ret} {fd : ℤ} (hfinished : Finished st n fd st')
    (h : st.ws.hctx.Dealt out) : st'.ws.hctx.Dealt out := by
  rcases hfinished.pools with ⟨i, b, p, hdone, hpools⟩ | ⟨-, hpools⟩
  · have hset := h.set hdone.pool hpools hfinished.raises ((h.even i p hdone.pool).put _ b fd)
    rwa [hfinished.serving, Option.toList_none, List.append_nil] at hset
  · exact h.of_eq hpools

/-- A backend's handler hands out nothing. -/
lemma dealt_proxyOnUpstreamEvent (st : St) (h : st.ws.hctx.Dealt out) (fd : ℤ) (ev : Events) :
    (st.proxyOnUpstreamEvent fd ev).ws.hctx.Dealt out := by
  rcases proxyOnUpstreamEvent_backing st fd ev with ⟨-, hrests⟩ | ⟨-, hback, -⟩ |
    ⟨-, -, -, hfinished⟩
  · exact h.of_eq hrests.quiet.pools
  · exact h.of_eq (congrArg Prod.fst hback)
  · exact hfinished.dealt h

end St

namespace Worker

variable {w : Worker} {out : List (ℕ × ℕ)}

/-- The backend that the step hands a request to: that to which the connection is proxied after
an event that has ended what it did before. -/
def hands (w : Worker) : Input → Option (ℕ × ℕ)
  | .wait _ => none
  | .handle env _ =>
    match w.pending with
    | (⟨.client c, _⟩, ev) :: _ =>
      if (w.handlerState c env).ClientLasts ev then none
      else ((w.handlerState c env).onClientEvent ev).conn.serving
    | _ => none

lemma BackendsStart.dealt (h : w.BackendsStart) : w.ws.hctx.Dealt [] := by
  refine ⟨fun k => ?_, fun i p hp => ?_⟩
  · obtain ⟨i, b⟩ := k
    cases hp : w.ws.hctx.pool i with
    | none =>
      rw [HandlerCtx.load, hp]
      rfl
    | some p =>
      obtain ⟨cfg, rfl⟩ := h.pools i p hp
      rw [HandlerCtx.load_of_pool hp, UpstreamPool.activeConns_upstreamPoolCreate]
      rfl
  · obtain ⟨cfg, rfl⟩ := h.pools i p hp
    exact UpstreamPool.even_upstreamPoolCreate cfg

/-- **One step** deals out one request, or none. -/
lemma dealt_step (h : w.ws.hctx.Dealt out) (i : Input) :
    (w.step i).ws.hctx.Dealt (out ++ (w.hands i).toList) := by
  cases i with
  | wait events =>
    rw [hands, Option.toList_none, List.append_nil, Worker.step]
    split <;> exact h
  | handle env accepts =>
    rw [hands, Worker.step]
    cases w.pending with
    | nil =>
      rw [Option.toList_none, List.append_nil]
      exact h
    | cons e pending =>
      obtain ⟨⟨fn, fd⟩, ev⟩ := e
      cases fn with
      | accept =>
        rw [Option.toList_none, List.append_nil]
        exact (hctx_onAcceptEvent accepts { w with pending := pending }).symm ▸ h
      | signal =>
        rw [Option.toList_none, List.append_nil]
        exact h
      | client c =>
        dsimp only
        rcases St.onClientEvent_quiet_or_moves (w.handlerState c env) ev with
          ⟨hlasts, hquiet⟩ | ⟨hlasts, hmoves⟩
        · rw [if_pos hlasts, Option.toList_none, List.append_nil]
          exact h.of_eq hquiet.pools
        · rw [if_neg hlasts]
          exact hmoves.dealt h
      | upstream c =>
        rw [Option.toList_none, List.append_nil]
        exact St.dealt_proxyOnUpstreamEvent (w.handlerState c env) h fd ev

/-- **`least_conn` evens out the requests of the past**: over any run that hands out fewer than
`2 ^ 31 - 1` requests, `active_conns` of a backend is the number of requests that it was handed, and
two healthy backends of a pool in this mode differ by at most one. The counter is an `int` that only
grows; up to that number the next increment of `upstream_select` still fits into it. -/
theorem dealt_run (w : Worker) (hw : w.BackendsStart) (is : List Input)
    (hfew : (Run.emitted Worker.step hands w is).length < 2 ^ 31 - 1) (i : ℕ)
    (p : UpstreamPool) (hp : (w.run is).ws.hctx.pool i = some p) :
    let handed := Run.emitted Worker.step hands w is
    (∀ b, (p.backend b).activeConns = handed.count (i, b) ∧
        (p.backend b).activeConns + 1 < 2 ^ 31) ∧
      (p.mode = .leastConn → ∀ b b', p.healthyAt b = true → p.healthyAt b' = true →
        handed.count (i, b) ≤ handed.count (i, b') + 1) := by
  intro handed
  have h : (w.run is).ws.hctx.Dealt handed :=
    Run.Along.emitted_invariant (P := fun w out => w.ws.hctx.Dealt out)
      (fun _ i _ h _ => dealt_step h i) (Run.along_true w is) hw.dealt
  have hcount : ∀ b, (p.backend b).activeConns = handed.count (i, b) := fun b => by
    rw [← HandlerCtx.load_of_pool hp]
    exact h.load (i, b)
  refine ⟨fun b => ⟨hcount b, ?_⟩, fun hmode b b' hb hb' => ?_⟩
  · have hlt : handed.count (i, b) < 2 ^ 31 - 1 := List.count_le_length.trans_lt hfew
    rw [hcount]
    omega
  have heven := h.even i p hp hmode b b' hb hb'
  rw [hcount, hcount] at heven
  exact_mod_cast heven

/-- Two clients ask, and each of the two backends has been handed one of the requests. -/
theorem dealt_run_pairRun : (ofServer pairServer).BackendsStart ∧
    Run.emitted Worker.step hands (ofServer pairServer) pairRun = [(0, 0), (0, 1)] ∧
    ∃ p, ((ofServer pairServer).run pairRun).ws.hctx.pool 0 = some p ∧ p.mode = .leastConn ∧
      p.healthyAt 0 = true ∧ p.healthyAt 1 = true ∧
      (p.backend 0).activeConns = 1 ∧ (p.backend 1).activeConns = 1 := by
  have hhands : Run.emitted Worker.step hands (ofServer pairServer) pairRun =
      [(0, 0), (0, 1)] := by decide +kernel
  have hpool : (((ofServer pairServer).run pairRun).ws.hctx.pool 0).map
      (fun p => (p.mode, p.healthyAt 0, p.healthyAt 1)) = some (.leastConn, true, true) := by
    decide +kernel
  obtain ⟨p, hp, hmode⟩ := Option.map_eq_some_iff.mp hpool
  simp only [Prod.mk.injEq] at hmode
  have hrun := (dealt_run (ofServer pairServer) (ofServer_start pairServer) pairRun
    (by rw [hhands]; decide) 0 p hp).1
  refine ⟨ofServer_start pairServer, hhands, p, hp, hmode.1, hmode.2.1, hmode.2.2, ?_⟩
  rw [(hrun 0).1, (hrun 1).1, hhands]
  exact ⟨rfl, rfl⟩

end Worker

end Nproxy
