import Nproxy.Proc.Moves

/-!
What an upstream's event does to the backends.

An upstream's handler may finish (`Finished`): the connection is no longer proxied, and if the
upstream has ended its response, its pool gets the descriptor back.

* `settleUpstream_backing`: what the end of a response does to the pools.
* `proxyOnUpstreamEvent_quiet_or_drops`: an upstream's event is quiet if no write fails and the
  upstream has neither closed nor failed (`UpstreamLasts`), and any other ends the connection.
-/

namespace Nproxy

namespace St

variable {st st' st'' : St}

/-! ### The upstream's events -/

/-- The write to the upstream fails. -/
def WriteFails (st : St) (fd : ℤ) : Prop :=
  (st.forwardOnce fd).1 = .err ∨ (st.forwardOnce fd).1 = .closed

/-- The state in which an event comes to read. -/
def atRead (st : St) (fd : ℤ) (ev : Events) : St :=
  if ev.write then (st.upstreamWritePart fd).2 else st

/-- What the last read of the loop returns. -/
def readRet (st : St) (fd : ℤ) : Ret := (upstreamLoop (onFd fd .err st.env.upstreamReads) st).1

/-- No write fails, and the upstream has neither closed nor failed. -/
def UpstreamLasts (st : St) (fd : ℤ) (ev : Events) : Prop :=
  (ev.write = true → ¬st.WriteFails fd) ∧ (ev.read = true →
    ¬((st.atRead fd ev).readRet fd = .closed ∨ (st.atRead fd ev).readRet fd = .err))

instance (st : St) (fd : ℤ) : Decidable (st.WriteFails fd) :=
  inferInstanceAs (Decidable ((st.forwardOnce fd).1 = .err ∨ (st.forwardOnce fd).1 = .closed))

instance (st : St) (fd : ℤ) (ev : Events) : Decidable (st.UpstreamLasts fd ev) :=
  inferInstanceAs (Decidable (_ ∧ _))

/-- The event comes to read, and the upstream has closed. -/
def UpstreamEnds (st : St) (fd : ℤ) (ev : Events) : Prop :=
  (ev.write = true → ¬st.WriteFails fd) ∧ ev.read = true ∧ (st.atRead fd ev).readRet fd = .closed

lemma backing_respondOnce (st : St) : st.respondOnce.backing = st.backing := rfl

lemma upstreamMod_rests (st : St) (fd : ℤ) (events : Events) :
    Rests st (st.upstreamMod fd events) := ⟨rfl, rfl⟩

lemma forwardOnce_rests (st : St) (fd : ℤ) : Rests st (st.forwardOnce fd).2 := ⟨rfl, rfl⟩

/-- The part that writes: it rests, or the connection is closed. -/
lemma upstreamWritePart_backing (st : St) (fd : ℤ) :
    (¬st.WriteFails fd ∧ (st.upstreamWritePart fd).1 = true ∧
      Rests st (st.upstreamWritePart fd).2) ∨
    (st.WriteFails fd ∧ (st.upstreamWritePart fd).1 = false ∧
      (st.upstreamWritePart fd).2.backing = st.backing ∧
      (st.upstreamWritePart fd).2.conn.serving = none) := by
  have hrests := forwardOnce_rests st fd
  rw [WriteFails, upstreamWritePart]
  rcases hforward : st.forwardOnce fd with ⟨n, st1⟩
  rw [hforward] at hrests
  simp only
  by_cases hn : n = .err ∨ n = .closed
  · rw [if_pos hn]
    obtain ⟨hback, hserving⟩ := workerConnClose_closed (st1.answerError 502 false).respondOnce
    have hanswer : (st1.answerError 502 false).respondOnce.backing = st1.backing :=
      (backing_respondOnce _).trans (backing_answerError st1 502 false)
    exact Or.inr ⟨hn, rfl, hback.trans (hanswer.trans hrests.backing), hserving⟩
  · rw [if_neg hn]
    refine Or.inl ⟨hn, ?_⟩
    split
    · exact ⟨rfl, hrests.trans (upstreamMod_rests _ _ _)⟩
    · exact ⟨rfl, hrests⟩

/-! ### The loop that reads -/

lemma readUpstream_rests (st : St) (tape : List SysRead) : Rests st (st.readUpstream tape).2 := by
  rw [readUpstream]
  simp only
  split <;> exact ⟨rfl, rfl⟩

lemma relayTurn_rests (st : St) : Rests st st.relayTurn := by
  have hstatus : Rests st st.captureStatus := by
    rcases captureStatus_cases st with heq | ⟨-, status, heq⟩ <;> rw [heq]
    · exact .refl st
    · exact ⟨rfl, rfl⟩
  have hcache : Rests st.captureStatus st.captureStatus.captureCache := by
    rcases captureCache_cases st.captureStatus with heq | ⟨-, buf, len, cap, reallocs, -, heq⟩ <;>
      rw [heq]
    · exact .refl _
    · exact ⟨rfl, rfl⟩
  have hrelay : Rests st.captureStatus.captureCache st.captureStatus.captureCache.relay :=
    ⟨rfl, rfl⟩
  exact (hstatus.trans hcache).trans hrelay

lemma upstreamLoop_rests (tape : List SysRead) (st : St) : Rests st (upstreamLoop tape st).2 := by
  induction tape generalizing st with
  | nil => exact readUpstream_rests st []
  | cons r tape ih =>
    have hread := readUpstream_rests st (r :: tape)
    rw [upstreamLoop]
    split <;> rename_i heq <;> rw [heq] at hread
    · exact (hread.trans (relayTurn_rests _)).trans (ih _)
    · exact hread

/-- The limit that `upstream_put_connection` is given. -/
def keepaliveConns (st : St) : ℤ :=
  ((st.conn.proxyPool.bind st.ws.hctx.pool).map (·.keepaliveConns)).getD 0

lemma Quiet.keepaliveConns (h : Quiet st st') : st'.keepaliveConns = st.keepaliveConns := by
  have hpool : st'.ws.hctx.pool = st.ws.hctx.pool := funext h.pool
  rw [St.keepaliveConns, St.keepaliveConns, h.proxyPool, hpool]

lemma storeCache_rests (st : St) : Rests st st.storeCache := by
  rw [storeCache]
  split
  · split <;> exact ⟨rfl, rfl⟩
  · exact .refl st

lemma logProxied_rests (st : St) : Rests st st.logProxied := by
  rw [logProxied]
  split
  · exact ⟨rfl, rfl⟩
  · exact .refl st

/-- The read has ended a response, and its backend is known. -/
structure Completed (st : St) (n : Ret) (i b : ℕ) (p : UpstreamPool) : Prop where
  closed : n = .closed
  state : st.conn.state ≠ .tunnel
  tlsConn : st.conn.tlsConn = some (i, b)
  pool : st.ws.hctx.pool i = some p

/-- **What the end of a response does to the pools**: a backend gets its connection back if that
has ended the response, and nothing happens otherwise. -/
lemma settleUpstream_backing (st : St) (n : Ret) (fd : ℤ) :
    (st.settleUpstream n fd).conn.tlsConn = st.conn.tlsConn ∧
      ((∃ i b p, st.Completed n i b p ∧ (st.settleUpstream n fd).ws.hctx.upstreamPools =
          st.ws.hctx.upstreamPools.set i
            (some (upstreamPutConnection st.keepaliveConns p b fd).1)) ∨
        ((∀ i b p, ¬st.Completed n i b p) ∧
          (st.settleUpstream n fd).ws.hctx.upstreamPools = st.ws.hctx.upstreamPools)) := by
  have hclose := (close_rests st fd).quiet
  rw [settleUpstream]
  split
  · rename_i hn
    have hstore := storeCache_rests st
    simp only
    cases htls : st.storeCache.conn.tlsConn with
    | none =>
      -- no backend is known: the descriptor is closed
      have hquiet := (hstore.trans (close_rests _ fd)).quiet
      refine ⟨hquiet.tlsConn, Or.inr ⟨fun i b p h => ?_, hquiet.pools⟩⟩
      exact Option.some_ne_none _ ((hstore.quiet.tlsConn.trans h.tlsConn).symm.trans htls)
    | some ib =>
      obtain ⟨i, b⟩ := ib
      have hlog := (hstore.trans (logProxied_rests st.storeCache)).quiet
      simp only
      -- neither the cache nor the log touches the pools
      generalize st.storeCache.logProxied = st1 at hlog
      rw [hstore.quiet.tlsConn] at htls
      have hkeep := hlog.keepaliveConns
      rw [St.keepaliveConns] at hkeep
      rw [putUpstream, hkeep, hlog.pool i]
      cases hpool : st.ws.hctx.pool i with
      | none =>
        refine ⟨hlog.tlsConn, Or.inr ⟨fun i' b' p h => ?_, hlog.pools⟩⟩
        obtain ⟨rfl, rfl⟩ := Prod.mk.inj (Option.some.inj (htls.symm.trans h.tlsConn))
        exact Option.some_ne_none _ (h.pool.symm.trans hpool)
      | some p =>
        refine ⟨?_, Or.inl ⟨i, b, p, ⟨hn.1, hn.2, htls, hpool⟩, ?_⟩⟩
        · simp only
          split <;> exact hlog.tlsConn
        · simp only
          rw [← hlog.pools]
          split <;> rename_i heq <;> rw [heq] <;> rfl
  · rename_i hn
    exact ⟨hclose.tlsConn, Or.inr ⟨fun i b p h => hn ⟨h.closed, h.state⟩, hclose.pools⟩⟩

lemma Rests.completed_iff (h : Rests st st') {n : Ret} {i b : ℕ} {p : UpstreamPool} :
    st'.Completed n i b p ↔ st.Completed n i b p := by
  constructor
  · intro hdone
    exact ⟨hdone.closed, h.state ▸ hdone.state, h.quiet.tlsConn ▸ hdone.tlsConn,
      h.quiet.pool i ▸ hdone.pool⟩
  · intro hdone
    exact ⟨hdone.closed, h.state.symm ▸ hdone.state, h.quiet.tlsConn.trans hdone.tlsConn,
      (h.quiet.pool i).trans hdone.pool⟩

/-- The connection is closed; a backend gets its connection back if it has ended a response. -/
structure Finished (st : St) (n : Ret) (fd : ℤ) (st' : St) : Prop where
  tlsConn : st'.conn.tlsConn = st.conn.tlsConn
  serving : st'.conn.serving = none
  pools : (∃ i b p, st.Completed n i b p ∧ st'.ws.hctx.upstreamPools =
      st.ws.hctx.upstreamPools.set i (some (upstreamPutConnection st.keepaliveConns p b fd).1)) ∨
    ((∀ i b p, ¬st.Completed n i b p) ∧ st'.ws.hctx.upstreamPools = st.ws.hctx.upstreamPools)

/-- What an upstream's event may do besides. -/
def Drops (st : St) (fd : ℤ) (st' : St) : Prop := Moves st st' ∨ ∃ n, Finished st n fd st'

lemma Rests.finished {n : Ret} {fd : ℤ} (h : Rests st st') (h' : Finished st' n fd st'') :
    Finished st n fd st'' := by
  refine ⟨h'.tlsConn.trans h.quiet.tlsConn, h'.serving, ?_⟩
  have hpools := h'.pools
  simp only [h.completed_iff, h.quiet.pools, h.quiet.keepaliveConns] at hpools
  exact hpools

/-- The end of `proxy_on_upstream_event`. -/
lemma finishProxy_finished (st : St) (n : Ret) (fd : ℤ) :
    Finished st n fd (st.finishProxy n fd) := by
  obtain ⟨htls, hpools⟩ := settleUpstream_backing (st.unlinkUpstream fd) n fd
  obtain ⟨hback, hserving⟩ := workerConnClose_closed ((st.unlinkUpstream fd).settleUpstream n fd)
  have hclosed : (st.finishProxy n fd).ws.hctx.upstreamPools =
      ((st.unlinkUpstream fd).settleUpstream n fd).ws.hctx.upstreamPools := congrArg Prod.fst hback
  refine ⟨(congrArg (fun x => x.2.2) hback).trans htls, hserving, ?_⟩
  rw [hclosed]
  rcases hpools with ⟨i, b, p, hdone, heq⟩ | ⟨hnot, heq⟩
  · exact Or.inl ⟨i, b, p, ⟨hdone.closed, hdone.state, hdone.tlsConn, hdone.pool⟩, heq⟩
  · exact Or.inr ⟨fun i b p h => hnot i b p ⟨h.closed, h.state, h.tlsConn, h.pool⟩, heq⟩

/-- The part that reads: it rests, or the connection is closed. -/
lemma upstreamReadPart_backing (st : St) (fd : ℤ) :
    (¬(st.readRet fd = .closed ∨ st.readRet fd = .err) ∧ Rests st (st.upstreamReadPart fd)) ∨
      ((st.readRet fd = .closed ∨ st.readRet fd = .err) ∧
        Finished st (st.readRet fd) fd (st.upstreamReadPart fd)) := by
  obtain ⟨n, st1, st2, hloop, hst2, hend⟩ := upstreamReadPart_cases st fd
  have hrests := upstreamLoop_rests (onFd fd .err st.env.upstreamReads) st
  have hret : st.readRet fd = n := by rw [readRet, hloop]
  rw [hloop] at hrests
  have hmod : Rests st st2 := by
    rcases hst2 with rfl | rfl
    · exact hrests
    · exact hrests.trans ⟨rfl, rfl⟩
  rw [hret]
  rcases hend with ⟨hn, heq⟩ | ⟨hn, heq⟩ <;> rw [heq]
  · exact Or.inr ⟨hn, hmod.finished (finishProxy_finished st2 n fd)⟩
  · exact Or.inl ⟨hn, hmod⟩

/-- If no write fails, the event comes to read. -/
lemma proxyOnUpstreamEvent_atRead {fd : ℤ} {ev : Events}
    (h : ev.write = true → ¬st.WriteFails fd) :
    Rests st (st.atRead fd ev) ∧ st.proxyOnUpstreamEvent fd ev =
      if ev.read then (st.atRead fd ev).upstreamReadPart fd else st.atRead fd ev := by
  by_cases hwrite : ev.write = true
  · have hst1 : st.atRead fd ev = (st.upstreamWritePart fd).2 := if_pos hwrite
    rw [hst1, proxyOnUpstreamEvent, if_pos hwrite]
    have hpart := upstreamWritePart_backing st fd
    generalize st.upstreamWritePart fd = r at hpart
    obtain ⟨go, st1⟩ := r
    rcases hpart with ⟨-, rfl, hrests⟩ | ⟨hfails, -⟩
    · exact ⟨hrests, rfl⟩
    · exact absurd hfails (h hwrite)
  · have hst1 : st.atRead fd ev = st := if_neg hwrite
    rw [hst1, proxyOnUpstreamEvent, if_neg hwrite]
    exact ⟨.refl st, rfl⟩

/-- **What `proxy_on_upstream_event` does to the backends**: nothing, or a write fails, or it
comes to read and the upstream has closed or failed. -/
lemma proxyOnUpstreamEvent_backing (st : St) (fd : ℤ) (ev : Events) :
    (st.UpstreamLasts fd ev ∧ Rests st (st.proxyOnUpstreamEvent fd ev)) ∨
    ((ev.write = true ∧ st.WriteFails fd) ∧
      (st.proxyOnUpstreamEvent fd ev).backing = st.backing ∧
      (st.proxyOnUpstreamEvent fd ev).conn.serving = none) ∨
    ((ev.write = true → ¬st.WriteFails fd) ∧ ev.read = true ∧
      ((st.atRead fd ev).readRet fd = .closed ∨ (st.atRead fd ev).readRet fd = .err) ∧
      Finished st ((st.atRead fd ev).readRet fd) fd (st.proxyOnUpstreamEvent fd ev)) := by
  by_cases hfails : ev.write = true ∧ st.WriteFails fd
  · -- the handler returns before it comes to read
    refine Or.inr (Or.inl ⟨hfails, ?_⟩)
    have hpart := upstreamWritePart_backing st fd
    rw [proxyOnUpstreamEvent, if_pos hfails.1]
    generalize st.upstreamWritePart fd = r at hpart
    obtain ⟨go, st1⟩ := r
    rcases hpart with ⟨hok, -⟩ | ⟨-, rfl, hback, hserving⟩
    · exact absurd hfails.2 hok
    · exact ⟨hback, hserving⟩
  · have hok : ev.write = true → ¬st.WriteFails fd := not_and.mp hfails
    obtain ⟨hrests, heq⟩ := proxyOnUpstreamEvent_atRead hok
    rw [heq]
    by_cases hread : ev.read = true
    · rw [if_pos hread]
      rcases upstreamReadPart_backing (st.atRead fd ev) fd with ⟨hret, hpart⟩ | ⟨hret, hpart⟩
      · exact Or.inl ⟨⟨hok, fun _ => hret⟩, hrests.trans hpart⟩
      · exact Or.inr (Or.inr ⟨hok, hread, hret, hrests.finished hpart⟩)
    · rw [if_neg hread]
      exact Or.inl ⟨⟨hok, fun hr => absurd hr hread⟩, hrests⟩

/-- **It is quiet exactly if no write fails and the upstream goes on.** -/
lemma proxyOnUpstreamEvent_quiet_or_drops (st : St) (fd : ℤ) (ev : Events) :
    (st.UpstreamLasts fd ev ∧ Quiet st (st.proxyOnUpstreamEvent fd ev)) ∨
      (¬st.UpstreamLasts fd ev ∧ Drops st fd (st.proxyOnUpstreamEvent fd ev)) := by
  rcases proxyOnUpstreamEvent_backing st fd ev with ⟨hlasts, hrests⟩ |
    ⟨⟨hwrite, hfails⟩, hback, hserving⟩ | ⟨-, hread, hret, hfinished⟩
  · exact Or.inl ⟨hlasts, hrests.quiet⟩
  · exact Or.inr ⟨fun h => h.1 hwrite hfails, Or.inl (.of_backing hback hserving)⟩
  · exact Or.inr ⟨fun h => h.2 hread hret, Or.inr ⟨_, hfinished⟩⟩

end St

end Nproxy
