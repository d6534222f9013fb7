import Nproxy.Net.Records
import Nproxy.Proc.Worker

/-!
Two events of one connection in one batch.

`conn_close` deletes the registrations of both descriptors of a connection, and
`event_loop_run` does not look at the table again before it calls the next handler.

* `Conn.closeOps`: what `conn_close` does to the registrations.
* `hangup_freed`: in every batch in which a client hangs up in front of an event of its
  upstream, a handler is called through a record that was freed.
* `hangupBatch_stale`: a worker that does so.
-/

namespace Nproxy

/-- What `conn_close` does to the registrations. -/
def Conn.closeOps (c : Conn) : List (LoopOp EvFn) :=
  (if 0 ≤ c.fd then [.del c.fd, .close c.fd] else []) ++
    (if 0 ≤ c.upstreamFd then [.del c.upstreamFd, .close c.upstreamFd] else []) ++
    (if 0 ≤ c.fileFd then [.close c.fileFd] else [])

namespace St

lemma closeClient_loop (st : St) :
    st.closeClient.ws.loop =
        (if 0 ≤ st.conn.fd then [.del st.conn.fd, .close st.conn.fd] else []).foldl
          LoopOp.onLoop st.ws.loop ∧
      st.closeClient.conn.upstreamFd = st.conn.upstreamFd ∧
      st.closeClient.conn.fileFd = st.conn.fileFd := by
  rw [closeClient]
  split <;> exact ⟨rfl, rfl, rfl⟩

lemma closeUpstream_loop (st : St) :
    st.closeUpstream.ws.loop =
        (if 0 ≤ st.conn.upstreamFd then [.del st.conn.upstreamFd, .close st.conn.upstreamFd]
          else []).foldl LoopOp.onLoop st.ws.loop ∧
      st.closeUpstream.conn.fileFd = st.conn.fileFd := by
  rw [closeUpstream]
  split <;> exact ⟨rfl, rfl⟩

lemma closeFile_loop (st : St) :
    st.closeFile.ws.loop =
      (if 0 ≤ st.conn.fileFd then [.close st.conn.fileFd] else []).foldl
        LoopOp.onLoop st.ws.loop := by
  rw [closeFile]
  split <;> rfl

lemma connClose_loop (st : St) :
    st.connClose.ws.loop = st.conn.closeOps.foldl LoopOp.onLoop st.ws.loop := by
  obtain ⟨h1, h2, h3⟩ := closeClient_loop st
  obtain ⟨h4, h5⟩ := closeUpstream_loop st.closeClient
  have h6 := closeFile_loop st.closeClient.closeUpstream
  rw [Conn.closeOps, List.foldl_append, List.foldl_append, ← h1, ← h2, ← h4, ← h3, ← h5, ← h6]
  rfl

lemma connPoolPut_loop (st : St) :
    st.connPoolPut.ws.loop = st.conn.closeOps.foldl LoopOp.onLoop st.ws.loop := by
  rw [← connClose_loop, connPoolPut]
  simp only
  split <;> rfl

lemma closeOps_served (c : Conn) : ∀ op ∈ c.closeOps, op.served = true := by
  intro op hop
  rw [Conn.closeOps] at hop
  split_ifs at hop <;> simp at hop <;> rcases hop with rfl | rfl | rfl | rfl | rfl <;> rfl

/-- **A client that hangs up**: what `on_client_event` does to the loop is what `closeOps`
does to its records. -/
theorem hangup_view (st : St) {ev : Events} (hev : ev.hup ∨ ev.err) {l : RecordLoop EvFn}
    (hwf : l.Wf) (hl : l.view = st.ws.loop) :
    (l.applyAll st.conn.closeOps).view = (st.onClientEvent ev).ws.loop := by
  rw [hwf.view_applyAll (closeOps_served st.conn), hl, onClientEvent, if_pos hev,
    connPoolPut_loop]

end St

/-- **An event behind a hangup.** If in a batch the client of a connection hangs up, and an
event of its upstream comes behind it, then a handler is called through a record that was
freed. -/
theorem hangup_freed {l : RecordLoop EvFn} (hwf : l.Wf) (c : Conn) (hup : 0 ≤ c.upstreamFd)
    {es pre rest : List (BatchEvent EvFn)} (hes : l.Harvested es) {e e' : BatchEvent EvFn}
    (heq : es = pre ++ e :: rest) (hops : e.ops = c.closeOps) (he' : e' ∈ rest)
    (hfd : e'.fd = c.upstreamFd) : ∃ p ∈ l.calls es, p.1.record p.2.ptr = none := by
  have hdel : .del e'.fd ∈ e.ops := by
    rw [hops, hfd, Conn.closeOps]
    simp [hup]
  have hnot : ¬∀ p ∈ l.calls es, p.1.Current p.2 := by
    have hptr : ∀ e ∈ es, e.ptr < l.fresh := by
      intro e he
      obtain ⟨events, hevents⟩ := hes e he
      exact hwf.named _ _ (hwf.watched _ _ _ hevents)
    rw [RecordLoop.calls_current_iff hwf hptr]
    rintro ⟨-, hpair⟩
    rw [heq, List.pairwise_append, List.pairwise_cons] at hpair
    exact hpair.2.1.1 e' he' hdel
  simp only [not_forall] at hnot
  obtain ⟨p, hp, hcurrent⟩ := hnot
  refine ⟨p, hp, ?_⟩
  by_contra hsome
  exact hcurrent ((RecordLoop.current_iff_allocated hwf hes hp).mpr hsome)

/-! ### A worker -/

/-- The client of a proxied connection hangs up, and in the same batch its upstream has
something to read. -/
def hangupBatch : List Input :=
  [.wait [(⟨.client 0, 4⟩, ⟨false, false, true, false, false⟩), (⟨.upstream 0, 5⟩, inEvent)],
    .handle idleEnv [], .handle { idleEnv with upstreamReads := [.data (bytes "HTTP")] } []]

/-- **A stale event that is dispatched.** When the client's event was handled, there is no
handler for descriptor 5 any more, and its record was freed; it is called all the same, and
reads into the buffers of a connection that was given back. -/
theorem hangupBatch_stale :
    let w := backendWorker.run (clientComes ++ clientAsks "/")
    let es := [⟨4, 0, (w.heap 0).closeOps⟩, ⟨5, 1, []⟩]
    ((RecordLoop.create.applyAll pairOps).calls es).map (fun p => p.1.record p.2.ptr) =
        [some (.client 0, 4), none] ∧
      ¬(∀ p ∈ (RecordLoop.create.applyAll pairOps).calls es, p.1.Current p.2) ∧
      w.ws.loop.handlers 5 = some ⟨.upstream 0, 5⟩ ∧
      (w.run (hangupBatch.take 2)).ws.loop.handlers 5 = none ∧
      (0, .poolPut false) ∈ (w.run (hangupBatch.take 2)).log ∧
      (0, .upstreamRead [] (bytes "HTTP")) ∉ (w.run (hangupBatch.take 2)).log ∧
      (0, .upstreamRead [] (bytes "HTTP")) ∈ (w.run hangupBatch).log :=
  ⟨by decide +kernel, by decide +kernel, by decide +kernel, by decide +kernel, by decide +kernel,
    by decide +kernel, by decide +kernel⟩

end Nproxy
