import Nproxy.Proc.Reuse

/-!
The delivery of a file, from `file_server_handle` on.

`file_server_handle` leaves the connection in `CONN_SENDFILE`; the rest of the file
would be sent by `handle_write`. But it is called by `handler_dispatch`, and
`handle_read` goes on after that as for any response that is in `wbuf`: when the head
is out the response counts as complete.

* `output`: what a connection writes, bytes of `wbuf` and bytes of the file by their
  offsets.
* `Whole`: what was written so far is the beginning of the response, and all of it
  when the connection is ready for the next request or given back.
* `delivered_whole_iff`: a file is delivered whole, whatever the sockets do, if and only
  if it is empty.
* `fiveBytes_not_whole`: a page of five bytes, none of which is sent.
-/

namespace Nproxy

/-- What is written to the client: a byte of `wbuf`, or the byte of the file at an
offset. -/
abbrev Cell := UInt8 ⊕ ℤ

/-- The cells that an action hands to the client: bytes of a buffer, or bytes of the file by their
offset. -/
def Act.out : Act → List Cell
  | .respond bs => bs.map .inl
  | .sendfile _ off n => (List.range n).map fun i : ℕ => .inr (off + i)
  | _ => []

/-- What is written over a run. -/
def output (as : List Act) : List Cell := as.flatMap Act.out

@[simp] lemma output_append (as bs : List Act) : output (as ++ bs) = output as ++ output bs :=
  List.flatMap_append

@[simp] lemma output_nil : output [] = [] := rfl

/-- The rest of a head, and a file of `n` bytes. -/
def response (head : List UInt8) (n : ℕ) : List Cell :=
  head.map .inl ++ (List.range n).map fun i : ℕ => .inr (i : ℤ)

lemma response_zero (head : List UInt8) : response head 0 = head.map .inl := by
  simp [response]

namespace St

variable {st st' st'' : St}

/-- What goes out comes from `wbuf`, and the file is left alone. -/
structure Sends (st st' : St) : Prop where
  wf : st'.conn.wbuf.Wf
  file : st'.conn.fileOffset = st.conn.fileOffset ∧ st'.conn.fileRemaining = st.conn.fileRemaining
  acts : ∃ as, st'.acts = st.acts ++ as ∧
    output as ++ (bufBytes st'.conn.wbuf).map .inl = (bufBytes st.conn.wbuf).map .inl

namespace Sends

lemma trans (h1 : Sends st st') (h2 : Sends st' st'') : Sends st st'' := by
  obtain ⟨as, has, hout⟩ := h1.acts
  obtain ⟨bs, hbs, hout'⟩ := h2.acts
  refine ⟨h2.wf, ⟨h2.file.1.trans h1.file.1, h2.file.2.trans h1.file.2⟩, as ++ bs,
    by rw [hbs, has, List.append_assoc], ?_⟩
  rw [output_append, List.append_assoc, hout', hout]

lemma empty (h : Sends st st') (hnil : bufBytes st.conn.wbuf = []) :
    bufBytes st'.conn.wbuf = [] := by
  obtain ⟨as, -, hout⟩ := h.acts
  rw [hnil, List.map_nil, List.append_eq_nil_iff, List.map_eq_nil_iff] at hout
  exact hout.2

/-- An operation that leaves `wbuf` alone. -/
lemma of_same (hwf : st.conn.wbuf.Wf) (hwbuf : st'.conn.wbuf = st.conn.wbuf)
    (hfile : st'.conn.fileOffset = st.conn.fileOffset ∧
      st'.conn.fileRemaining = st.conn.fileRemaining)
    (as : List Act) (hacts : st'.acts = st.acts ++ as) (hout : output as = []) : Sends st st' :=
  ⟨hwbuf ▸ hwf, hfile, as, hacts, by rw [hout, hwbuf, List.nil_append]⟩

lemma respond (hwf : st.conn.wbuf.Wf) : Sends st st.respond := by
  obtain ⟨hwf', hbytes⟩ := bufWriteLoop_spec hwf (onFd st.conn.fd .err st.env.clientWrites)
  refine ⟨hwf', ⟨rfl, rfl⟩, [_], rfl, ?_⟩
  rw [← hbytes]
  simp [output, Act.out, St.respond]

lemma nextRequest (hwf : st.conn.wbuf.Wf) : Sends st st.nextRequest :=
  of_same hwf rfl ⟨rfl, rfl⟩ [] (by simp [St.nextRequest, clientMod, mapLoop, mapConn]) rfl

lemma wait (hwf : st.conn.wbuf.Wf) : Sends st ((st.setState .writingResponse).clientMod evW) :=
  of_same hwf rfl ⟨rfl, rfl⟩ [] (by simp [setState, clientMod, mapLoop, mapConn]) rfl

/-- The connection is given back once `wbuf` is empty. -/
lemma connPoolPut (hwf : st.conn.wbuf.Wf) (hempty : bufBytes st.conn.wbuf = []) :
    Sends st st.connPoolPut := by
  obtain ⟨fds, freed, hacts⟩ := connPoolPut_acts st
  obtain ⟨fd, upstreamFd, fileFd, hclose⟩ := connClose_conn st
  have hout : output (fds.map .close ++ [.poolPut freed]) = [] := by
    simp [output, Act.out, List.flatMap_map]
  have hfile : st.connPoolPut.conn.fileOffset = st.conn.fileOffset ∧
      st.connPoolPut.conn.fileRemaining = st.conn.fileRemaining := by
    rcases connPoolPut_conn st with hput | ⟨next, hput⟩ <;> rw [hput, hclose] <;> exact ⟨rfl, rfl⟩
  have hnil : st.connPoolPut.conn.wbuf.Wf ∧ bufBytes st.connPoolPut.conn.wbuf = [] := by
    rcases connPoolPut_conn st with hput | ⟨next, hput⟩ <;> rw [hput, hclose]
    · exact ⟨bufFree_wf st.conn.wbuf, rfl⟩
    · exact ⟨bufReset_wf hwf, bufBytes_reset st.conn.wbuf⟩
  refine ⟨hnil.1, hfile, _, hacts, ?_⟩
  rw [hout, hnil.2, hempty]
  rfl

end Sends

/-! ### The response counts as complete -/

/-- What was left of `wbuf` went out. If some of it is still there, the connection waits;
otherwise it is ready for the next request or given back. -/
structure Concludes (st st' : St) : Prop where
  sends : Sends st st'
  state : st'.conn.state = .writingResponse ∨ st'.conn.state = .readingRequest ∨
    st'.conn.state = .closing
  waits : bufBytes st'.conn.wbuf ≠ [] → st'.conn.state = .writingResponse ∧
    ∀ freed, .poolPut freed ∈ st'.acts → .poolPut freed ∈ st.acts

/-- `wbuf` is empty, and the response counts as complete. -/
lemma concludes_of_empty (hwf : st.conn.wbuf.Wf) {p : Prop} [Decidable p]
    (hempty : bufReadable st.respond.conn.wbuf = 0) :
    Concludes st (if p then st.respond.connPoolPut else st.respond.nextRequest) := by
  have hsends := Sends.respond hwf
  have hnil := (bufReadable_eq_zero_iff hsends.wf).mp hempty
  split
  · have hput : Sends st.respond st.respond.connPoolPut := .connPoolPut hsends.wf hnil
    exact ⟨hsends.trans hput, Or.inr (Or.inr (connPoolPut_state _)),
      fun hne => absurd (hput.empty hnil) hne⟩
  · exact ⟨hsends.trans (.nextRequest hsends.wf), Or.inr (Or.inl rfl), fun hne => absurd hnil hne⟩

/-- **`handle_read` after `file_server_handle`.** -/
lemma afterDispatch_concludes (st : St) (hstate : st.conn.state = .sendfile)
    (hwf : st.conn.wbuf.Wf) : Concludes st st.afterDispatch := by
  have hsends := Sends.respond hwf
  rw [afterDispatch, if_neg (by simp [hstate])]
  simp only
  split
  · rename_i hempty
    exact concludes_of_empty hwf hempty
  · refine ⟨hsends.trans (.wait hsends.wf), Or.inl rfl, fun _ => ⟨rfl, fun freed hmem => ?_⟩⟩
    simpa [clientMod, mapLoop, setState, mapConn, respond] using hmem

/-- Once the head is out, the connection is through with the response. -/
lemma afterDispatch_through (st : St) (hstate : st.conn.state = .sendfile)
    (hempty : bufReadable st.respond.conn.wbuf = 0) :
    st.afterDispatch.conn.state = .readingRequest ∨
      ∃ freed, .poolPut freed ∈ st.afterDispatch.acts := by
  rw [afterDispatch, if_neg (by simp [hstate])]
  simp only [if_pos hempty]
  split
  · obtain ⟨fds, freed, hacts⟩ := connPoolPut_acts st.respond
    exact Or.inr ⟨freed, by simp [hacts]⟩
  · exact Or.inl rfl

/-- **`handle_write`** while a response is written, or between two requests. -/
lemma handleWrite_concludes (st : St) (hwf : st.conn.wbuf.Wf)
    (hstate : st.conn.state = .writingResponse ∨
      (st.conn.state = .readingRequest ∧ bufBytes st.conn.wbuf = [])) :
    Concludes st st.handleWrite := by
  have hsends := Sends.respond hwf
  have hdefault : st.handleWrite = if bufReadable st.respond.conn.wbuf = 0 then
      if st.respond.conn.state = .closing ∨ st.respond.conn.keepAlive = false then
        st.respond.connPoolPut
      else st.respond.nextRequest
    else st.respond := by
    rw [handleWrite]
    rcases hstate with h | ⟨h, -⟩ <;> rw [h]
  rw [hdefault]
  split
  · rename_i hempty
    exact concludes_of_empty hwf hempty
  · rename_i hleft
    obtain hstate | ⟨-, hnil⟩ := hstate
    · refine ⟨hsends, Or.inl hstate, fun _ => ⟨hstate, fun freed hmem => ?_⟩⟩
      simpa [respond] using hmem
    · exact absurd ((bufReadable_eq_zero_iff hsends.wf).mpr (hsends.empty hnil)) hleft

/-- What `file_server_handle` leaves when it answers 200. -/
lemma fileServerHandle_ok {st1 : St} {req : HttpRequest} {cfg : ServerConfig} {f : OpenFile}
    {name : List UInt8} (hfile : (st.findFile req cfg).1 = some (f, name))
    (h200 : st.fileServerHandle req cfg = (200, st1)) :
    st1 = (st.findFile req cfg).2.startFile req f name := by
  rw [fileServerHandle] at h200
  split at h200
  · simp at h200
  · split at h200 <;> rename_i heq <;> rw [heq] at hfile ⊢
    · simp at h200
    · obtain ⟨rfl, rfl⟩ : _ = f ∧ _ = name := by simpa using hfile
      split at h200
      · simp at h200
      · exact (congrArg Prod.snd h200).symm

end St

/-! ### Runs -/

/-- No error from the client's socket, nor from the file. -/
def Env.Healthy (env : Env) : Prop := .err ∉ env.clientWrites ∧ .err ∉ env.sendfiles

/-- `EPOLLOUT`. -/
def outEvent : Events := ⟨false, true, false, false, false⟩

namespace Life

/-- The rest of `handle_read` after `file_server_handle` has answered 200. -/
def dispatched (st : St) (env : Env) : Life :=
  handle ⟨st.conn, []⟩ st.self st.ws env fun st => (st.act (.accessLog 200)).afterDispatch

/-- The client's socket takes bytes again. -/
def Writing (l : Life) : Use → Prop
  | .client _ env ev => l.conn.state ≠ .closing ∧ ev = outEvent ∧ env.Healthy
  | _ => False

/-- So far a response is delivered as it should be, and all of it is if the connection
is through with it. -/
structure Whole (head : List UInt8) (n : ℕ) (l : Life) : Prop where
  sent : output l.acts <+: response head n
  account : l.conn.fileOffset + l.conn.fileRemaining = n
  done : l.conn.state = .readingRequest ∨ (∃ freed, .poolPut freed ∈ l.acts) →
    output l.acts = response head n

/-- The head goes out and nothing of the file, and then the connection is through. -/
structure HeadOnly (head : List UInt8) (n : ℕ) (l : Life) : Prop where
  wf : l.conn.wbuf.Wf
  file : l.conn.fileOffset = 0 ∧ l.conn.fileRemaining = n
  out : output l.acts ++ (bufBytes l.conn.wbuf).map .inl = head.map .inl
  state : l.conn.state = .writingResponse ∨ l.conn.state = .readingRequest ∨
    l.conn.state = .closing
  waits : bufBytes l.conn.wbuf ≠ [] → l.conn.state = .writingResponse ∧
    ∀ freed, .poolPut freed ∉ l.acts

variable {head : List UInt8} {n : ℕ} {l : Life} {c : ConnId}

/-- An empty file is delivered whole. -/
lemma HeadOnly.whole (h : l.HeadOnly head 0) : l.Whole head 0 := by
  have hout := h.out
  refine ⟨?_, by simp [h.file], fun hdone => ?_⟩
  · rw [response_zero, ← hout]
    exact List.prefix_append _ _
  · have hnil : bufBytes l.conn.wbuf = [] := by
      by_contra hne
      obtain ⟨hstate, hput⟩ := h.waits hne
      rcases hdone with hread | ⟨freed, hmem⟩
      · simp [hstate] at hread
      · exact hput freed hmem
    rw [response_zero, ← hout, hnil, List.map_nil, List.append_nil]

lemma headOnly_of_concludes {st st' : St} (h : St.Concludes st st') (pre : List Act)
    (hfile : st.conn.fileOffset = 0 ∧ st.conn.fileRemaining = n)
    (hout : output (pre ++ st.acts) ++ (bufBytes st.conn.wbuf).map .inl = head.map .inl)
    (hput : bufBytes st.conn.wbuf ≠ [] → ∀ freed, .poolPut freed ∉ pre ++ st.acts) :
    HeadOnly head n ⟨st'.conn, pre ++ st'.acts⟩ := by
  obtain ⟨as, has, hsent⟩ := h.sends.acts
  refine ⟨h.sends.wf, by simp [h.sends.file, hfile], ?_, h.state, fun hne => ?_⟩
  · rw [has, ← List.append_assoc, output_append, List.append_assoc, hsent, hout]
  · obtain ⟨hstate, hnew⟩ := h.waits hne
    refine ⟨hstate, fun freed hmem => hput (fun hnil => hne (h.sends.empty hnil)) freed ?_⟩
    rcases List.mem_append.mp hmem with hmem | hmem
    · exact List.mem_append_left _ hmem
    · exact List.mem_append_right _ (hnew freed hmem)

/-- **Right after `file_server_handle`** the head is in `wbuf`, and the file is not begun. -/
lemma headOnly_dispatched {st : St} (hwf : st.conn.wbuf.Wf) (hstate : st.conn.state = .sendfile)
    (hfile : st.conn.fileOffset = 0 ∧ st.conn.fileRemaining = n) (env : Env) :
    (dispatched st env).HeadOnly (bufBytes st.conn.wbuf) n := by
  have h := St.afterDispatch_concludes
    ((⟨st.self, st.conn, st.ws, env, []⟩ : St).act (.accessLog 200)) hstate hwf
  exact headOnly_of_concludes h [] hfile (by simp [St.act, output, Act.out]) (by simp [St.act])

/-- **A write event** sends more of the head, and nothing of the file. -/
lemma HeadOnly.step (h : l.HeadOnly head n) {u : Use} (hu : l.Writing u) :
    (l.step c u).HeadOnly head n := by
  cases u with
  | client ws env ev =>
    obtain ⟨hopen, rfl, -⟩ := hu
    have hstate : l.conn.state = .writingResponse ∨
        (l.conn.state = .readingRequest ∧ bufBytes l.conn.wbuf = []) := by
      rcases h.state with hstate | hstate | hstate
      · exact Or.inl hstate
      · refine Or.inr ⟨hstate, ?_⟩
        by_contra hne
        simp [(h.waits hne).1] at hstate
      · exact absurd hstate hopen
    have hwrite := St.handleWrite_concludes ⟨c, l.conn, ws, env, []⟩ h.wf hstate
    exact headOnly_of_concludes hwrite l.acts h.file (by simpa using h.out)
      (fun hne => by simpa using (h.waits hne).2)
  | upstream ws env fd ev => exact hu.elim
  | get fd peer => exact hu.elim

end Life

/-- **A file is delivered whole, whatever the sockets do, if and only if it is empty.** -/
theorem delivered_whole_iff (st st1 : St) (req : HttpRequest) (cfg : ServerConfig) (f : OpenFile)
    (name : List UInt8) (hwf : st.conn.BufsWf) (hfd : 0 ≤ st.conn.fd)
    (hfile : (st.findFile req cfg).1 = some (f, name))
    (h200 : st.fileServerHandle req cfg = (200, st1)) :
    (∀ env us, env.Healthy →
      Run.Along (Life.step st1.self) Life.Writing (Life.dispatched st1 env) us →
      (Run.run (Life.step st1.self) (Life.dispatched st1 env) us).Whole
        (bufBytes st1.conn.wbuf) f.size) ↔ f.size = 0 := by
  have hstart := St.fileServerHandle_ok hfile h200
  have hstays : St.Stays st st1 := by
    rw [hstart]
    exact (St.Stays.findFile req cfg).trans (.startFile req f name)
  have hwf1 : st1.conn.wbuf.Wf := (hstays.wf hwf).wbuf
  have hstate : st1.conn.state = .sendfile := by rw [hstart]; rfl
  have hfields : st1.conn.fileOffset = 0 ∧ st1.conn.fileRemaining = f.size := by
    rw [hstart]
    exact ⟨rfl, rfl⟩
  constructor
  · intro hwhole
    -- the client's socket takes the whole head at once
    let env : Env := { idleEnv with clientWrites := [.wrote (bufReadable st1.conn.wbuf)] }
    have hempty : bufReadable (St.respond ⟨st1.self, st1.conn, st1.ws, env, []⟩).conn.wbuf = 0 := by
      have hfd1 : ¬st1.conn.fd < 0 := by rw [hstays.fd]; omega
      simp only [St.respond, St.onFd, if_neg hfd1]
      exact bufWriteLoop_wrote hwf1 le_rfl []
    have hthrough := St.afterDispatch_through
      ((⟨st1.self, st1.conn, st1.ws, env, []⟩ : St).act (.accessLog 200)) hstate hempty
    have hdone := (hwhole env [] (by simp [Env.Healthy, env, idleEnv]) trivial).done hthrough
    have hout := (Life.headOnly_dispatched hwf1 hstate hfields env).out
    rw [Run.run_nil] at hdone
    rw [hdone] at hout
    have hlen := congrArg List.length hout
    simp only [response, List.length_append, List.length_map, List.length_range] at hlen
    omega
  · intro hzero env us _ hus
    rw [hzero] at hfields ⊢
    exact (hus.invariant (fun _ _ h hu => h.step hu)
      (Life.headOnly_dispatched hwf1 hstate hfields env)).whole

/-! ### Two files -/

/-- A server of the files under a directory. -/
def staticServer : ServerConfig :=
  { backendServer with
    staticRoot := bytes "/srv"
    proxyEnabled := false
    backends := []
    cacheEnabled := false }

/-- A client that keeps its connection has asked for a page, and the page has so many
bytes. -/
def pageState (size : ℕ) : St where
  self := 0
  conn := { connCreate 4096 4 ⟨127, 0, 0, 1⟩ with keepAlive := true }
  ws := backendWorker.ws
  env := { idleEnv with opens := [some ⟨5, true, size, 0⟩] }
  acts := []

/-- `file_server_handle` has answered. -/
def pageServed (size : ℕ) : St := ((pageState size).fileServerHandle pageRequest staticServer).2

/-- The head of an empty page fits in one write, and there is no body to send. -/
theorem delivered_whole_iff_emptyPage :
    (pageState 0).fileServerHandle pageRequest staticServer = (200, pageServed 0) ∧
      (Run.run (Life.step 0) (Life.dispatched (pageServed 0) idleEnv)
        [.client backendWorker.ws { idleEnv with clientWrites := [.wrote 4096] } outEvent]).Whole
          (bufBytes (pageServed 0).conn.wbuf) 0 := by
  have h200 : (pageState 0).fileServerHandle pageRequest staticServer = (200, pageServed 0) :=
    Prod.ext (by decide +kernel) rfl
  refine ⟨h200, (delivered_whole_iff (pageState 0) (pageServed 0) pageRequest staticServer
    ⟨5, true, 0, 0⟩ (bytes "/srv/index.html")
    ((connCreate_bufsWf 4096 4 ⟨127, 0, 0, 1⟩).of_bufs_eq rfl) (by decide) (by decide +kernel)
    h200).mpr rfl idleEnv _ ⟨by decide, by decide⟩ ⟨⟨by decide +kernel, rfl, ?_⟩, trivial⟩⟩
  exact ⟨by decide, by decide⟩

/-- **A page of five bytes.** The client's socket takes the whole head, and the connection
waits for the next request; no byte of the page was sent. -/
theorem fiveBytes_not_whole :
    ((pageState 5).fileServerHandle pageRequest staticServer).1 = 200 ∧
      (pageServed 5).conn.state = .sendfile ∧ (pageServed 5).conn.fileRemaining = 5 ∧
      (Life.dispatched (pageServed 5) { idleEnv with clientWrites := [.wrote 4096] }).conn.state =
        .readingRequest ∧
      output (Life.dispatched (pageServed 5) { idleEnv with clientWrites := [.wrote 4096] }).acts =
        response (bufBytes (pageServed 5).conn.wbuf) 0 ∧
      ¬(Life.dispatched (pageServed 5) { idleEnv with clientWrites := [.wrote 4096] }).Whole
        (bufBytes (pageServed 5).conn.wbuf) 5 := by
  have hout : output (Life.dispatched (pageServed 5)
      { idleEnv with clientWrites := [.wrote 4096] }).acts =
        response (bufBytes (pageServed 5).conn.wbuf) 0 := by decide +kernel
  have hstate : (Life.dispatched (pageServed 5)
      { idleEnv with clientWrites := [.wrote 4096] }).conn.state = .readingRequest := by
    decide +kernel
  refine ⟨by decide +kernel, by decide +kernel, by decide +kernel, hstate, hout, fun hwhole => ?_⟩
  have hdone := hwhole.done (Or.inl hstate)
  rw [hout] at hdone
  simpa [response] using congrArg List.length hdone

end Nproxy
