import Nproxy.Proc.Frame

/-!
What the handlers are made of.

Every path through `on_client_event` is a chain of operations that leave the connection
in its place (`Stays`) and of a few others: the client takes bytes of the upstream, an
upstream is started, the client's bytes are read, taken out of `rbuf` or sent on, the
connection is given back. `proxy_on_upstream_event` also reads from the upstream and lets
go of it.

* `CoversAnswer R`: the transitive relation `R` holds along the operations that route a
  request and write an answer. `Covers R`: and along those that move the client's bytes;
  `CoversUpstream R`: and along those on the upstream's descriptor.
* `Covers.onClientEvent`, `CoversUpstream.proxyOnUpstreamEvent`: then it holds along the
  handlers.
-/

namespace Nproxy

namespace St

/-- A relation that holds along the operations that answer a request. -/
structure CoversAnswer (R : St → St → Prop) : Prop where
  trans : ∀ {st st' st''}, R st st' → R st' st'' → R st st''
  stays : ∀ {st st'}, Stays st st' → R st st'
  mapLoop : ∀ st f, R st (st.mapLoop f)
  relay : ∀ st, R st st.relay
  startProxy : ∀ st req i b ufd, R st (st.startProxy req i b ufd)
  connPoolPut : ∀ st, R st st.connPoolPut
  workerConnClose : ∀ st, R st st.workerConnClose

/-- A relation that holds along every operation of `on_client_event`. -/
structure Covers (R : St → St → Prop) : Prop extends CoversAnswer R where
  readClient : ∀ st, R st st.readClient.2
  takeRequest : ∀ st ps req, R st (st.takeRequest ps req)
  readTunnel : ∀ st, R st st.readTunnel.2
  forwardAll : ∀ st fd, R st (st.forwardAll fd)

/-- A relation that holds along every operation of `proxy_on_upstream_event`. -/
structure CoversUpstream (R : St → St → Prop) : Prop extends CoversAnswer R where
  forwardOnce : ∀ st fd, R st (st.forwardOnce fd).2
  readUpstream : ∀ st tape, R st (st.readUpstream tape).2
  unlinkUpstream : ∀ st fd, R st (st.unlinkUpstream fd)

variable {R : St → St → Prop} {st st' : St}

/-! ### Answers -/

namespace CoversAnswer

lemma refl (h : CoversAnswer R) (st : St) : R st st := h.stays (.refl st)

lemma put_of_stays (h : CoversAnswer R) (hs : Stays st st') : R st st'.connPoolPut :=
  h.trans (h.stays hs) (h.connPoolPut st')

lemma dispatched (h : CoversAnswer R) (hd : Dispatched st st') : R st st' := by
  rcases hd with hs | ⟨st1, req, i, b, ufd, hs, -, rfl⟩
  · exact h.stays hs
  · exact h.trans (h.stays hs) (h.startProxy _ _ _ _ _)

lemma writeFile (h : CoversAnswer R) (st : St) : R st st.writeFile := by
  have hloop : Stays st (if st.conn.fileRemaining > 0 then
      sendfileLoop (onFd st.conn.fd .err st.env.sendfiles) st else (false, st)).2 := by
    split
    · exact .sendfileLoop _ _
    · exact .refl st
  rw [St.writeFile]
  split <;> rename_i heq <;> rw [heq] at hloop
  · exact h.put_of_stays hloop
  · split
    · simp only
      split
      · exact h.put_of_stays (hloop.trans .endFile)
      · exact h.stays ((hloop.trans .endFile).trans .nextRequest)
    · exact h.stays (hloop.trans (.clientMod _))

lemma handleWrite (h : CoversAnswer R) (st : St) : R st st.handleWrite := by
  rw [St.handleWrite]
  split
  · have hhead : Stays st st.respondHead := .respondHead
    simp only
    split
    · exact h.stays (hhead.trans (.clientMod _))
    · exact h.trans (h.stays hhead) (h.writeFile _)
  · refine h.trans (h.relay st) ?_
    simp only
    split <;> exact h.stays (.clientMod _)
  · refine h.trans (h.relay st) ?_
    simp only
    split <;> exact h.stays (.clientMod _)
  · simp only
    split
    · split
      · exact h.put_of_stays .respond
      · exact h.stays (Stays.respond.trans .nextRequest)
    · exact h.stays .respond

lemma afterDispatch (h : CoversAnswer R) (st : St) : R st st.afterDispatch := by
  rw [St.afterDispatch]
  split
  · exact h.refl st
  · simp only
    split
    · split
      · exact h.put_of_stays .respond
      · exact h.stays (Stays.respond.trans .nextRequest)
    · exact h.stays ((Stays.respond.trans (.setState (by decide))).trans (.clientMod _))

end CoversAnswer

/-! ### The client's events -/

namespace Covers

lemma tunnelRead (h : Covers R) (st : St) : R st st.tunnelRead := by
  have hread := h.readTunnel st
  rw [St.tunnelRead]
  split
  rename_i n st1 heq
  rw [heq] at hread
  split
  · exact h.trans hread (h.workerConnClose _)
  · split
    · simp only
      split <;> exact h.trans (h.trans hread (h.forwardAll _ _)) (h.mapLoop _ _)
    · exact hread

lemma acceptRequest (h : Covers R) (st : St) (ps : HttpParseState) :
    R st (st.acceptRequest ps) := by
  have halloc : Stays st (st.alloc requestSize 8).2 := .alloc _ _
  rw [St.acceptRequest]
  split <;> rename_i heq <;> rw [heq] at halloc
  · exact h.put_of_stays halloc
  · refine h.trans ?_ (h.afterDispatch _)
    refine h.trans ?_ (h.dispatched (handlerDispatch_dispatched _ _))
    exact h.trans (h.stays halloc) (h.takeRequest _ _ _)

lemma handleRead (h : Covers R) (st : St) : R st st.handleRead := by
  have hread := h.readClient st
  rw [St.handleRead]
  split
  · exact h.tunnelRead st
  · split
    rename_i n st1 heq
    rw [heq] at hread
    split
    · exact h.trans hread (h.connPoolPut _)
    · rw [parseRequests]
      refine h.trans hread ?_
      split
      · exact h.refl _
      · split
        · exact h.refl _
        · exact h.stays (.reject _ _ _)
        · exact h.acceptRequest _ _

/-- **`on_client_event`** does nothing but what the relation covers. -/
lemma onClientEvent (h : Covers R) (st : St) (ev : Events) : R st (st.onClientEvent ev) := by
  rw [St.onClientEvent]
  split
  · exact h.connPoolPut st
  · have hread : R st (if ev.read then st.handleRead else st) := by
      split
      · exact h.handleRead st
      · exact h.refl st
    simp only
    split
    · exact h.trans hread (h.handleWrite _)
    · exact hread

end Covers

/-! ### The upstream's events -/

namespace CoversUpstream

lemma upstreamLoop (h : CoversUpstream R) (tape : List SysRead) (st : St) :
    R st (St.upstreamLoop tape st).2 := by
  induction tape generalizing st with
  | nil => exact h.readUpstream st []
  | cons r tape ih =>
    have hread := h.readUpstream st (r :: tape)
    rw [St.upstreamLoop]
    split <;> rename_i heq <;> rw [heq] at hread
    · refine h.trans (h.trans hread (h.stays (Stays.captureStatus.trans .captureCache))) ?_
      exact h.trans (h.relay _) (ih _)
    · exact hread

lemma finishProxy (h : CoversUpstream R) (st : St) (n : Ret) (fd : ℤ) :
    R st (st.finishProxy n fd) :=
  h.trans (h.trans (h.unlinkUpstream st fd) (h.stays (.settleUpstream n fd)))
    (h.workerConnClose _)

lemma upstreamReadPart (h : CoversUpstream R) (st : St) (fd : ℤ) :
    R st (st.upstreamReadPart fd) := by
  have hread := h.upstreamLoop (onFd fd .err st.env.upstreamReads) st
  obtain ⟨n, st1, st2, hloop, hst2, hend⟩ := upstreamReadPart_cases st fd
  rw [hloop] at hread
  have hmod : R st st2 := by
    rcases hst2 with rfl | rfl
    · exact hread
    · exact h.trans hread (h.stays (.clientMod _))
  rcases hend with ⟨-, heq⟩ | ⟨-, heq⟩ <;> rw [heq]
  · exact h.trans hmod (h.finishProxy _ _ _)
  · exact hmod

/-- **`proxy_on_upstream_event`** does nothing but what the relation covers. -/
lemma proxyOnUpstreamEvent (h : CoversUpstream R) (st : St) (fd : ℤ) (ev : Events) :
    R st (st.proxyOnUpstreamEvent fd ev) := by
  have hfwd := h.forwardOnce st fd
  rcases proxyOnUpstreamEvent_parts st fd ev with heq | ⟨st1, -, hst1, heq⟩ <;> rw [heq]
  · refine h.trans (h.trans hfwd ?_) (h.workerConnClose _)
    exact h.stays ((Stays.answerError _ _).trans .respondOnce)
  · have h1 : R st st1 := by
      rcases hst1 with ⟨-, rfl⟩ | ⟨-, rfl | rfl⟩
      · exact h.refl _
      · exact hfwd
      · exact h.trans hfwd (h.mapLoop _ _)
    split
    · exact h.trans h1 (h.upstreamReadPart _ _)
    · exact h1

end CoversUpstream

end St

end Nproxy
