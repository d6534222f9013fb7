import Nproxy.Proc.Reuse

/-!
Requests that wait in `rbuf`.

`handle_read` reads the client's socket until it would block, and takes at most one
request out of what it has then. The bytes behind it stay in `rbuf`, and they are looked at
again when the socket has more.

* `Drains`: no other operation puts anything in `rbuf`.
* `handleRead_waiting`: what `handle_read` leaves in `rbuf`.
* `notStranded_run`: as long as every read brings at most one complete request, none is
  ever left in `rbuf` when a handler returns.
* `pipelinedHealth_stranded`: two requests in one read; the second is left, and the
  connection waits for the client.
-/

namespace Nproxy

namespace St

/-- The client's bytes stay in `rbuf`, or they are gone with the connection. -/
def Drains (st st' : St) : Prop :=
  (st.conn.rbuf.Wf → st'.conn.rbuf.Wf) ∧
    (bufBytes st'.conn.rbuf = bufBytes st.conn.rbuf ∨ bufBytes st'.conn.rbuf = [])

namespace Drains

variable {st st' st'' : St}

lemma trans (h1 : Drains st st') (h2 : Drains st' st'') : Drains st st'' := by
  refine ⟨h2.1 ∘ h1.1, ?_⟩
  rcases h2.2 with heq | hnil
  · rw [heq]
    exact h1.2
  · exact Or.inr hnil

lemma of_rbuf_eq (h : st'.conn.rbuf = st.conn.rbuf) : Drains st st' := by
  rw [Drains, h]
  exact ⟨id, Or.inl rfl⟩

lemma connPoolPut_rbuf (st : St) : bufBytes st.connPoolPut.conn.rbuf = [] := by
  rcases connPoolPut_conn st with hput | ⟨next, hput⟩ <;> rw [hput]
  · rfl
  · exact bufBytes_reset st.connClose.conn.rbuf

lemma connPoolPut (st : St) : Drains st st.connPoolPut := by
  refine ⟨fun h => ?_, Or.inr (connPoolPut_rbuf st)⟩
  obtain ⟨fd, upstreamFd, fileFd, hclose⟩ := connClose_conn st
  rcases connPoolPut_conn st with hput | ⟨next, hput⟩ <;> rw [hput, hclose]
  · exact bufFree_wf st.conn.rbuf
  · exact bufReset_wf h

lemma workerConnClose (st : St) : Drains st st.workerConnClose :=
  connPoolPut { st with ws := { st.ws with activeConns := st.ws.activeConns - 1 } }

lemma readUpstream_rbuf (st : St) (tape : List SysRead) :
    (st.readUpstream tape).2.conn.rbuf = st.conn.rbuf := by
  rw [readUpstream]
  simp only
  split <;> rfl

/-- **Nothing else moves the client's bytes.** -/
lemma covers : CoversUpstream Drains where
  trans := trans
  stays h := of_rbuf_eq h.rbuf
  mapLoop _ _ := of_rbuf_eq rfl
  relay _ := of_rbuf_eq rfl
  startProxy _ _ _ _ _ := of_rbuf_eq rfl
  connPoolPut := connPoolPut
  workerConnClose := workerConnClose
  forwardOnce _ _ := of_rbuf_eq rfl
  readUpstream st tape := of_rbuf_eq (readUpstream_rbuf st tape)
  unlinkUpstream _ _ := of_rbuf_eq rfl

lemma tunnelRead (st : St) : Drains st st.tunnelRead := by
  have hread : Drains st st.readTunnel.2 := of_rbuf_eq rfl
  rw [St.tunnelRead]
  split
  rename_i n st1 heq
  rw [heq] at hread
  split
  · exact hread.trans (workerConnClose st1)
  · split
    · simp only
      split <;> exact hread.trans (of_rbuf_eq rfl)
    · exact hread

end Drains

/-- What the client has sent and was not taken yet, once its socket is read. -/
def inbox (st : St) : List UInt8 :=
  bufBytes st.conn.rbuf ++ (bufReadLoop st.conn.rbuf (onFd st.conn.fd .err st.env.clientReads)).got

/-- The bytes at hand hold at most one complete request. -/
def OneRequest (st : St) : Prop :=
  (parseFresh st.inbox).1 = .done →
    (parseFresh (st.inbox.drop (parseFresh st.inbox).2.parsedBytes)).1 ≠ .done

instance (st : St) : Decidable st.OneRequest := inferInstanceAs (Decidable (_ → _))

variable {st : St}

lemma parseFresh_nil : (parseFresh []).1 = .incomplete := rfl

/-- A request is taken: its bytes are gone, or all are. -/
lemma acceptRequest_waiting (hwf : st.conn.rbuf.Wf) {ps : HttpParseState}
    (hle : ps.parsedBytes ≤ bufReadable st.conn.rbuf) :
    (st.acceptRequest ps).conn.rbuf.Wf ∧
      (bufBytes (st.acceptRequest ps).conn.rbuf = [] ∨
        bufBytes (st.acceptRequest ps).conn.rbuf
          = (bufBytes st.conn.rbuf).drop ps.parsedBytes) := by
  have halloc : Stays st (st.alloc requestSize 8).2 := .alloc _ _
  rw [acceptRequest]
  split <;> rename_i heq <;> rw [heq] at halloc
  · exact ⟨(Drains.connPoolPut _).1 (halloc.rbuf ▸ hwf), Or.inl (Drains.connPoolPut_rbuf _)⟩
  · rename_i st1
    simp only
    generalize requestPopulate requestCreate ps (bufBytes st1.conn.rbuf) = req
    have htake : (st1.takeRequest ps req).conn.rbuf = bufConsume st.conn.rbuf ps.parsedBytes := by
      rw [← halloc.rbuf]
      rfl
    have hrest := Drains.trans
      (Drains.covers.dispatched (handlerDispatch_dispatched (st1.takeRequest ps req) req))
      (Drains.covers.afterDispatch _)
    rw [Drains, htake, bufBytes_consume] at hrest
    exact ⟨hrest.1 (bufConsume_wf hwf hle), hrest.2.symm⟩

/-- **What `handle_read` leaves in `rbuf`**: all that it has, if that is not a request, or
what stands behind the first request. -/
lemma handleRead_waiting (hstate : st.conn.state ≠ .tunnel) (hwf : st.conn.rbuf.Wf) :
    st.handleRead.conn.rbuf.Wf ∧
      (bufBytes st.handleRead.conn.rbuf = [] ∨
        (bufBytes st.handleRead.conn.rbuf = st.inbox ∧ (parseFresh st.inbox).1 ≠ .done) ∨
        ((parseFresh st.inbox).1 = .done ∧ bufBytes st.handleRead.conn.rbuf =
          st.inbox.drop (parseFresh st.inbox).2.parsedBytes)) := by
  obtain ⟨hwf1, hbytes⟩ := bufReadLoop_spec hwf (onFd st.conn.fd .err st.env.clientReads)
  have hread : st.readClient.2.conn.rbuf.Wf ∧ bufBytes st.readClient.2.conn.rbuf = st.inbox :=
    ⟨hwf1, hbytes⟩
  rw [handleRead, if_neg hstate]
  split
  rename_i n st1 heq
  rw [heq] at hread
  obtain ⟨hwf1, hbytes1⟩ := hread
  simp only at hwf1 hbytes1
  rw [← hbytes1]
  split
  · exact ⟨(Drains.connPoolPut st1).1 hwf1, Or.inl (Drains.connPoolPut_rbuf st1)⟩
  · rw [parseRequests]
    split
    · rename_i hzero
      exact ⟨hwf1, Or.inl ((bufReadable_eq_zero_iff hwf1).mp hzero)⟩
    · split <;> rename_i hparse
      · exact ⟨hwf1, Or.inr (Or.inl ⟨rfl, by simp [hparse]⟩)⟩
      · have hreject : Stays st1 (((st1.act .reject).answerError 400 false).clientMod evW) :=
          .reject _ _ _
        refine ⟨by rw [hreject.rbuf]; exact hwf1, Or.inr (Or.inl ⟨by rw [hreject.rbuf], ?_⟩)⟩
        simp [hparse]
      · rename_i ps
        have hdone : (parseFresh (bufBytes st1.conn.rbuf)).1 = .done := by rw [hparse]
        have hle := done_parsedBytes_le hdone
        rw [hparse, length_bufBytes hwf1] at hle
        -- one request is taken; what stands behind it is not looked at again
        obtain ⟨hwf2, hnil | hdrop⟩ := acceptRequest_waiting hwf1 hle
        · exact ⟨hwf2, Or.inl hnil⟩
        · exact ⟨hwf2, Or.inr (Or.inr ⟨hdone, by rw [hdrop, hparse]⟩)⟩

lemma handleRead_rbuf_wf (hwf : st.conn.rbuf.Wf) : st.handleRead.conn.rbuf.Wf := by
  by_cases hstate : st.conn.state = .tunnel
  · rw [handleRead, if_pos hstate]
    exact (Drains.tunnelRead st).1 hwf
  · exact (handleRead_waiting hstate hwf).1

/-- `handle_read` leaves no complete request behind. -/
lemma handleRead_notDone (hwf : st.conn.rbuf.Wf)
    (hnot : (parseFresh (bufBytes st.conn.rbuf)).1 ≠ .done)
    (hone : st.conn.state ≠ .tunnel → st.OneRequest) :
    st.handleRead.conn.rbuf.Wf ∧ (parseFresh (bufBytes st.handleRead.conn.rbuf)).1 ≠ .done := by
  refine ⟨handleRead_rbuf_wf hwf, ?_⟩
  by_cases hstate : st.conn.state = .tunnel
  · rw [handleRead, if_pos hstate]
    rcases (Drains.tunnelRead st).2 with heq | hnil
    · rwa [heq]
    · rw [hnil, parseFresh_nil]
      decide
  · obtain ⟨-, hleft⟩ := handleRead_waiting hstate hwf
    rcases hleft with hnil | ⟨heq, hno⟩ | ⟨hdone, heq⟩
    · rw [hnil, parseFresh_nil]
      decide
    · rwa [heq]
    · rw [heq]
      exact hone hstate hdone

lemma Drains.notDone {st' : St} (h : Drains st st') (hwf : st.conn.rbuf.Wf)
    (hnot : (parseFresh (bufBytes st.conn.rbuf)).1 ≠ .done) :
    st'.conn.rbuf.Wf ∧ (parseFresh (bufBytes st'.conn.rbuf)).1 ≠ .done := by
  refine ⟨h.1 hwf, ?_⟩
  rcases h.2 with heq | hnil
  · rwa [heq]
  · rw [hnil, parseFresh_nil]
    decide

/-- What the other operations keep, an event of the client keeps if `handle_read` does. -/
lemma onClientEvent_of_drains {P : Conn → Prop}
    (hP : ∀ {st st' : St}, Drains st st' → P st.conn → P st'.conn) (st : St) (ev : Events)
    (h : P st.conn)
    (hread : ev.hup = false → ev.err = false → ev.read = true → P st.handleRead.conn) :
    P (st.onClientEvent ev).conn := by
  rw [onClientEvent]
  split
  · exact hP (.connPoolPut st) h
  · rename_i hok
    simp only [not_or, Bool.not_eq_true] at hok
    have h1 : P (if ev.read then st.handleRead else st).conn := by
      split
      · rename_i hr
        exact hread hok.1 hok.2 hr
      · exact h
    simp only
    split
    · exact hP (Drains.covers.handleWrite _) h1
    · exact h1

end St

/-! ### Runs -/

namespace Life

/-- And so does every use of the object, if `conn_reset` does. -/
lemma step_of_drains {P : Conn → Prop}
    (hP : ∀ {st st' : St}, St.Drains st st' → P st.conn → P st'.conn)
    (hreset : ∀ conn fd peer, P conn → P (connReset conn fd peer)) {c : ConnId} {l : Life} {u : Use}
    (h : P l.conn) (hread : ∀ ws env ev, u = .client ws env ev → ev.hup = false → ev.err = false →
      ev.read = true → P (St.handleRead ⟨c, l.conn, ws, env, []⟩).conn) : P (l.step c u).conn := by
  cases u with
  | client ws env ev =>
    exact St.onClientEvent_of_drains hP ⟨c, l.conn, ws, env, []⟩ ev h (hread ws env ev rfl)
  | upstream ws env fd ev =>
    exact hP (St.Drains.covers.proxyOnUpstreamEvent ⟨c, l.conn, ws, env, []⟩ fd ev) h
  | get fd peer => exact hreset l.conn fd peer h

lemma rbuf_wf_step {c : ConnId} {l : Life} (h : l.conn.rbuf.Wf) (u : Use) :
    (l.step c u).conn.rbuf.Wf := by
  refine step_of_drains (P := fun conn => conn.rbuf.Wf) (fun hdrains => hdrains.1)
    (fun _ _ _ => bufReset_wf) h ?_
  rintro ws env ev rfl - - -
  exact St.handleRead_rbuf_wf h

/-- No event brings more than one complete request. -/
def OneAtATime (c : ConnId) (l : Life) : Use → Prop
  | .client ws env ev => ev.hup = false → ev.err = false → ev.read = true →
      l.conn.state ≠ .tunnel → St.OneRequest ⟨c, l.conn, ws, env, []⟩
  | _ => True

/-- There is no complete request in `rbuf`. -/
def NoneWaits (l : Life) : Prop :=
  l.conn.rbuf.Wf ∧ (parseFresh (bufBytes l.conn.rbuf)).1 ≠ .done

/-- **Every event leaves none behind.** -/
lemma NoneWaits.step {c : ConnId} {l : Life} (h : l.NoneWaits) {u : Use}
    (hu : OneAtATime c l u) : (l.step c u).NoneWaits := by
  refine step_of_drains
    (P := fun conn => conn.rbuf.Wf ∧ (parseFresh (bufBytes conn.rbuf)).1 ≠ .done)
    (fun hdrains hP => hdrains.notDone hP.1 hP.2) (fun conn fd peer hP => ?_) h ?_
  · refine ⟨bufReset_wf hP.1, ?_⟩
    change (parseFresh (bufBytes (bufReset conn.rbuf))).1 ≠ .done
    rw [bufBytes_reset, St.parseFresh_nil]
    decide
  · rintro ws env ev rfl hhup herr hread
    exact St.handleRead_notDone h.1 h.2 (hu hhup herr hread)

end Life

/-- **No request is stranded**, over the whole life of a connection object and every
pattern of reads and writes, as long as no read leaves two complete requests at hand:
whenever a handler returns, `CONN_READING_REQUEST` or not, there is none in `rbuf`. -/
theorem notStranded_run (c : ConnId) (addr : ℕ) (fd : ℤ) (peer : InAddr) (us : List Use)
    (hus : Run.Along (Life.step c) (Life.OneAtATime c) (Life.start addr fd peer) us) :
    (parseFresh (bufBytes (Run.run (Life.step c) (Life.start addr fd peer) us).conn.rbuf)).1
      ≠ .done := by
  have hstart : (Life.start addr fd peer).NoneWaits := by
    refine ⟨(connCreate_bufsWf addr fd peer).rbuf, ?_⟩
    change (parseFresh (bufBytes (bufReset (bufInit npReadBufSize)))).1 ≠ .done
    rw [bufBytes_reset, St.parseFresh_nil]
    decide
  exact (hus.invariant (fun _ _ h hu => h.step hu) hstart).2

/-- The client asks how the server is, so many times at once, and takes the answer. -/
def healthRun (texts : List (List UInt8)) : List Use :=
  [.client (backendWorker.run clientComes).ws { idleEnv with
    clientReads := [.data texts.flatten]
    clientWrites := [.wrote 65536] } inEvent]

/-- A request for the state of the server. -/
def healthText : List UInt8 := List.flatten [bytes "GET /healthz HTTP/1.1", crlf, crlf]

/-- One request is answered, and none is left. -/
theorem notStranded_run_healthRun :
    (Run.run (Life.step 0) (Life.start 4096 4 ⟨127, 0, 0, 1⟩) (healthRun [healthText])).conn.state
        = .readingRequest ∧
      (parseFresh (bufBytes (Run.run (Life.step 0) (Life.start 4096 4 ⟨127, 0, 0, 1⟩)
        (healthRun [healthText])).conn.rbuf)).1 ≠ .done := by
  have hstate : (Run.run (Life.step 0) (Life.start 4096 4 ⟨127, 0, 0, 1⟩)
      (healthRun [healthText])).conn.state = .readingRequest := by decide +kernel
  have hone : St.OneRequest ⟨0, (Life.start 4096 4 ⟨127, 0, 0, 1⟩).conn,
      (backendWorker.run clientComes).ws, { idleEnv with
        clientReads := [.data [healthText].flatten]
        clientWrites := [.wrote 65536] }, []⟩ := by decide +kernel
  exact ⟨hstate, notStranded_run 0 4096 4 _ _ ⟨fun _ _ _ _ => hone, trivial⟩⟩

/-- **A request that is stranded.** Two come in one read; the first is answered, and the
connection waits for the client with the second in `rbuf`. -/
theorem pipelinedHealth_stranded :
    (Run.run (Life.step 0) (Life.start 4096 4 ⟨127, 0, 0, 1⟩)
        (healthRun [healthText, healthText])).conn.state = .readingRequest ∧
      bufBytes (Run.run (Life.step 0) (Life.start 4096 4 ⟨127, 0, 0, 1⟩)
        (healthRun [healthText, healthText])).conn.rbuf = healthText ∧
      (parseFresh healthText).1 = .done :=
  ⟨by decide +kernel, by decide +kernel, by decide +kernel⟩

end Nproxy
