import Nproxy.Http.Segmentation
import Nproxy.Proc.Reuse

/-!
`handle_read` and the cut of the client's stream into reads.

* `verdict`: what the parser makes of a stream, a request or a rejection, if anything.
* `decision`: what `handle_read` did about the stream first.
* `Feed`: the life of a connection object together with the client's stream as far as
  it was read.
* `decision_eq_verdict`: however the stream is cut into reads, `handle_read` does what
  the parser makes of the whole, as long as no read ends right behind the request line
  or a header line; and those are all the texts on which the parser decides too early.
* `requestLine_not_stable`: a read that ends behind the request line.
-/

namespace Nproxy

/-- What the parser makes of a stream. -/
def verdict (stream : List UInt8) : Option Act :=
  match parseFresh stream with
  | (.incomplete, _) => none
  | (.error, _) => some .reject
  | (.done, ps) => some (.dispatch (requestPopulate requestCreate ps stream))

/-- Is this what `handle_read` does with a parsed stream? -/
def Act.decides : Act → Bool
  | .dispatch _ => true
  | .reject => true
  | _ => false

/-- What was done first about the stream. -/
def decision (as : List Act) : Option Act := as.find? Act.decides

lemma decision_append (as bs : List Act) :
    decision (as ++ bs) = (decision as).or (decision bs) := List.find?_append

lemma decision_cons {a : Act} (ha : a.decides = true) (as : List Act) :
    decision (a :: as) = some a := List.find?_cons_of_pos ha

/-- A verdict is final. -/
lemma verdict_append {b : List UInt8} (hb : ¬StopsBetweenLines b) (hv : verdict b ≠ none)
    (c : List UInt8) : verdict (b ++ c) = verdict b := by
  rcases hp : parseFresh b with ⟨r, ps⟩
  cases r with
  | incomplete => simp [verdict, hp] at hv
  | error =>
    have herr := parse_error_append c (congrArg Prod.fst hp)
    rcases hp' : parseFresh (b ++ c) with ⟨r', ps'⟩
    obtain rfl : r' = .error := by rw [hp'] at herr; exact herr
    rw [verdict, verdict, hp, hp']
  | done =>
    have hbody := done_body_le (congrArg Prod.fst hp)
    rw [hp] at hbody
    rw [verdict, verdict, parse_done_append c (congrArg Prod.fst hp) hb, hp]
    simp only [requestPopulate_append hbody]

namespace St

lemma handlerDispatch_acts (st : St) (req : HttpRequest) :
    ∃ as, (st.handlerDispatch req).acts = st.acts ++ .dispatch req :: as := by
  rw [handlerDispatch]
  obtain ⟨as, has, -⟩ := Carries.covers.dispatched
    (routeModules_dispatched ((st.act (.dispatch req)).setReq _) _ _)
  exact ⟨as, has.trans (by simp [setReq, mapConn, act])⟩

/-- The dispatch is the first thing that is done with a request. -/
lemma acceptRequest_acts (st : St) (ps : HttpParseState)
    (halloc : (st.alloc requestSize 8).1.isSome) :
    ∃ as, (st.acceptRequest ps).acts =
      st.acts ++ .dispatch (requestPopulate requestCreate ps (bufBytes st.conn.rbuf)) :: as := by
  have hrbuf : (st.alloc requestSize 8).2.conn.rbuf = st.conn.rbuf := rfl
  have hacts : (st.alloc requestSize 8).2.acts = st.acts := rfl
  rw [acceptRequest]
  split <;> rename_i st1 heq <;> rw [heq] at halloc hrbuf hacts
  · simp at halloc
  · simp only at hrbuf hacts
    rw [← hrbuf, ← hacts]
    generalize requestPopulate requestCreate ps (bufBytes st1.conn.rbuf) = req
    obtain ⟨as, has⟩ := handlerDispatch_acts (st1.takeRequest ps req) req
    obtain ⟨bs, hbs, -⟩ :=
      Carries.covers.afterDispatch ((st1.takeRequest ps req).handlerDispatch req)
    refine ⟨as ++ bs, ?_⟩
    rw [hbs, has]
    simp [takeRequest, mapConn]

/-- What is done with the text in `rbuf` is what the parser makes of it. -/
lemma parseRequests_decides (st : St) (hwf : st.conn.rbuf.Wf)
    (halloc : (st.alloc requestSize 8).1.isSome) :
    (st.parseRequests = st ∧ verdict (bufBytes st.conn.rbuf) = none) ∨
      ∃ a as, st.parseRequests.acts = st.acts ++ a :: as ∧
        verdict (bufBytes st.conn.rbuf) = some a ∧ a.decides := by
  rw [parseRequests]
  split
  · rename_i hempty
    rw [(bufReadable_eq_zero_iff hwf).mp hempty]
    exact Or.inl ⟨rfl, rfl⟩
  · rcases hp : parseFresh (bufBytes st.conn.rbuf) with ⟨r, ps⟩
    rw [verdict, hp]
    cases r with
    | incomplete => exact Or.inl ⟨rfl, rfl⟩
    | error => exact Or.inr ⟨.reject, [], rfl, rfl, rfl⟩
    | done =>
      obtain ⟨as, has⟩ := acceptRequest_acts st ps halloc
      exact Or.inr ⟨_, as, has, rfl, rfl⟩

/-- **`handle_read` does what the parser makes of `rbuf`.** -/
lemma handleRead_decides (st : St) (hwf : st.conn.rbuf.Wf) (hstate : st.conn.state ≠ .tunnel)
    (hret : st.readClient.1 ≠ .closed ∧ st.readClient.1 ≠ .err)
    (halloc : (st.alloc requestSize 8).1.isSome) :
    (st.handleRead = st.readClient.2 ∧ verdict (bufBytes st.readClient.2.conn.rbuf) = none) ∨
      ∃ a as, st.handleRead.acts = st.readClient.2.acts ++ a :: as ∧
        verdict (bufBytes st.readClient.2.conn.rbuf) = some a ∧ a.decides := by
  have hwf1 : st.readClient.2.conn.rbuf.Wf := (bufReadLoop_spec hwf _).1
  have halloc1 : (st.readClient.2.alloc requestSize 8).1.isSome := halloc
  rw [handleRead, if_neg hstate]
  split
  rename_i n st1 heq
  rw [heq] at hret hwf1 halloc1 ⊢
  rw [if_neg (by simp [hret])]
  exact parseRequests_decides st1 hwf1 halloc1

end St

/-! ### Runs -/

/-- What `handle_read` gets from the client. -/
def Conn.heard (c : Conn) (env : Env) : List UInt8 :=
  (bufReadLoop (if c.state = .tunnel then c.upstreamWbuf else c.rbuf)
    (St.onFd c.fd .err env.clientReads)).got

/-- The life of an object, and its client's stream as far as it was read. -/
structure Feed where
  life : Life
  stream : List UInt8

namespace Feed

/-- One use of the object. -/
def step (c : ConnId) (s : Feed) (u : Use) : Feed where
  life := s.life.step c u
  stream := s.stream ++ match u with
    | .client _ env _ => s.life.conn.heard env
    | _ => []

/-- More of the stream is read. So far it did not stop between two lines; it does not end
or fail now, and there is memory for a request. -/
def Reading (c : ConnId) (s : Feed) : Use → Prop
  | .client ws env ev =>
    let st : St := ⟨c, s.life.conn, ws, env, []⟩
    ev = inEvent ∧ ¬StopsBetweenLines s.stream ∧
      (st.readClient.1 ≠ .closed ∧ st.readClient.1 ≠ .err) ∧ (st.alloc requestSize 8).1.isSome
  | _ => False

/-- Nothing was done yet about the stream, which stands in `rbuf`. -/
structure Pending (s : Feed) : Prop where
  wf : s.life.conn.rbuf.Wf
  state : s.life.conn.state ≠ .tunnel
  bytes : bufBytes s.life.conn.rbuf = s.stream
  undecided : decision s.life.acts = none

/-- What was done is what the parser made of the stream up to some point, and more of the
stream came only if it did not stop between two lines there. -/
def Settled (s : Feed) : Prop :=
  ∃ seen more, s.stream = seen ++ more ∧ verdict seen ≠ none ∧
    decision s.life.acts = verdict seen ∧ (more = [] ∨ ¬StopsBetweenLines seen)

/-- What was done so far is right: nothing, while the stream has no verdict, or what the verdict
asks for. -/
def Right (s : Feed) : Prop := (s.Pending ∧ verdict s.stream = none) ∨ s.Settled

variable {s : Feed} {c : ConnId} {u : Use}

/-- **A read** while nothing was done yet: the parser decides about the whole stream, or waits. -/
lemma Pending.step (h : s.Pending) (hu : s.Reading c u) : (s.step c u).Right := by
  cases u with
  | client ws env ev =>
    obtain ⟨rfl, -, hret, halloc⟩ := hu
    have hread := bufReadLoop_spec h.wf (St.onFd s.life.conn.fd .err env.clientReads)
    have hstream : bufBytes (St.readClient ⟨c, s.life.conn, ws, env, []⟩).2.conn.rbuf =
        (s.step c (.client ws env inEvent)).stream := by
      simp only [Feed.step, Conn.heard, if_neg h.state, ← h.bytes]
      exact hread.2
    have hlife : (s.step c (.client ws env inEvent)).life =
        s.life.handle c ws env St.handleRead := by
      exact Life.step_read c s.life ws env
    have hdecides := St.handleRead_decides ⟨c, s.life.conn, ws, env, []⟩ h.wf h.state hret halloc
    rw [hstream] at hdecides
    rcases hdecides with ⟨heq, hv⟩ | ⟨a, as, hacts, hv, ha⟩
    · refine Or.inl ⟨?_, hv⟩
      rw [Life.handle, heq] at hlife
      refine ⟨by rw [hlife]; exact hread.1, by rw [hlife]; exact h.state,
        by rw [hlife]; exact hstream, ?_⟩
      rw [hlife]
      simp only [decision_append, h.undecided]
      rfl
    · refine Or.inr ⟨_, [], (List.append_nil _).symm, by simp [hv], ?_, Or.inl rfl⟩
      rw [hlife, hv, Life.handle]
      simp only [decision_append, h.undecided, hacts, decision_cons ha]
      rfl
  | upstream ws env fd ev => exact hu.elim
  | get fd peer => exact hu.elim

/-- What was done first stays what was done first. -/
lemma decision_step {a : Act} (h : decision s.life.acts = some a) :
    decision (s.step c u).life.acts = some a := by
  cases u <;> simp [Feed.step, Life.step, Life.handle, decision_append, h]

/-- **A read** after the decision does not change what was done first. -/
lemma Settled.step (h : s.Settled) (hu : s.Reading c u) : (s.step c u).Settled := by
  obtain ⟨seen, more, hstream, hne, hdecision, hmore⟩ := h
  cases u with
  | client ws env ev =>
    refine ⟨seen, more ++ s.life.conn.heard env, ?_, hne, ?_, Or.inr ?_⟩
    · rw [← List.append_assoc, ← hstream]
      rfl
    · obtain ⟨a, ha⟩ := Option.ne_none_iff_exists'.mp hne
      rw [ha] at hdecision ⊢
      exact decision_step hdecision
    · rcases hmore with rfl | hstop
      · rw [← List.append_nil seen, ← hstream]
        exact hu.2.1
      · exact hstop
  | upstream ws env fd ev => exact hu.elim
  | get fd peer => exact hu.elim

lemma Right.step (h : s.Right) (hu : s.Reading c u) : (s.step c u).Right :=
  h.elim (fun h => h.1.step hu) fun h => Or.inr (h.step hu)

lemma Right.decision_eq (h : s.Right) : decision s.life.acts = verdict s.stream := by
  rcases h with ⟨hpending, hnone⟩ | ⟨seen, more, hstream, hne, hdecision, hmore⟩
  · exact hpending.undecided.trans hnone.symm
  · rw [hdecision, hstream]
    rcases hmore with rfl | hstop
    · rw [List.append_nil]
    · exact (verdict_append hstop hne more).symm

end Feed

/-- **The parser decides too early exactly on the texts that stop between two lines; and
if none of a connection's reads ends so, `handle_read` does what the parser makes of the
whole stream**, whatever the reads are. -/
theorem decision_eq_verdict (b : List UInt8) :
    ((∀ more, Stable b more) ↔ ¬StopsBetweenLines b) ∧
      ∀ (c : ConnId) (conn : Conn) (u : Use) (us : List Use), conn.rbuf.Wf →
        conn.state ≠ .tunnel →
        Run.Along (Feed.step c) (Feed.Reading c) ⟨⟨conn, []⟩, bufBytes conn.rbuf⟩ (u :: us) →
        decision (Run.run (Feed.step c) ⟨⟨conn, []⟩, bufBytes conn.rbuf⟩ (u :: us)).life.acts =
          verdict (Run.run (Feed.step c) ⟨⟨conn, []⟩, bufBytes conn.rbuf⟩ (u :: us)).stream := by
  refine ⟨stable_iff b, fun c conn u us hwf hstate hus => ?_⟩
  have hstart : Feed.Pending ⟨⟨conn, []⟩, bufBytes conn.rbuf⟩ := ⟨hwf, hstate, rfl, rfl⟩
  exact (hus.2.invariant (fun _ _ h hu => h.step hu) (hstart.step hus.1)).decision_eq

/-! ### Two ways to cut a request -/

/-- A client that has just come. -/
def newClient : Feed := ⟨⟨connCreate 4096 4 ⟨127, 0, 0, 1⟩, []⟩, []⟩

/-- A piece of the client's stream comes. -/
def piece (seg : List UInt8) : Use :=
  .client backendWorker.ws { idleEnv with clientReads := [.data seg] } inEvent

/-- The first line of a request. -/
def requestLine : List UInt8 := bytes "GET / HTTP/1.1" ++ crlf

/-- What follows the first line: one header, and the blank line. -/
def hostLines : List UInt8 := bytes "Host: a" ++ crlf ++ crlf

lemma newClient_pending : newClient.Pending :=
  ⟨(connCreate_bufsWf 4096 4 _).rbuf, by decide, by decide +kernel, rfl⟩

lemma newClient_reading {seg : List UInt8}
    (hret : (bufReadLoop newClient.life.conn.rbuf [.data seg]).ret ≠ .closed ∧
      (bufReadLoop newClient.life.conn.rbuf [.data seg]).ret ≠ .err) :
    newClient.Reading 0 (piece seg) := by
  have hstream : ¬StopsBetweenLines [] := fun h =>
    absurd (stopsBetweenLines_spec h).1 (by decide +kernel)
  have harena : newClient.life.conn.arena = arenaCreate 65536 4096 := by decide +kernel
  refine ⟨rfl, hstream, hret, ?_⟩
  simp [St.alloc, harena, arenaAllocAligned, arenaCreate, blockCreate, arenaBlockHeader,
    requestSize]

/-- A request that is cut inside a header name is decided as if it had come in one piece. -/
theorem decision_eq_verdict_twoPieces :
    ((∀ more, Stable (requestLine ++ bytes "Ho") more) ↔
        ¬StopsBetweenLines (requestLine ++ bytes "Ho")) ∧
      decision (Run.run (Feed.step 0) newClient
          [piece (requestLine ++ bytes "Ho"), piece (bytes "st: a" ++ crlf ++ crlf)]).life.acts =
        verdict (requestLine ++ hostLines) := by
  have hcut : ¬StopsBetweenLines (requestLine ++ bytes "Ho") := fun h =>
    absurd (stopsBetweenLines_spec h).1 (by decide +kernel)
  have hstream : (Feed.step 0 newClient (piece (requestLine ++ bytes "Ho"))).stream =
      requestLine ++ bytes "Ho" := by decide +kernel
  have halong : Run.Along (Feed.step 0) (Feed.Reading 0) newClient
      [piece (requestLine ++ bytes "Ho"), piece (bytes "st: a" ++ crlf ++ crlf)] :=
    ⟨newClient_reading (by decide +kernel),
      ⟨rfl, hstream ▸ hcut, by decide +kernel, by decide +kernel⟩, trivial⟩
  obtain ⟨hstable, hdecision⟩ := decision_eq_verdict (requestLine ++ bytes "Ho")
  refine ⟨hstable, (hdecision 0 newClient.life.conn _ _ newClient_pending.wf
    newClient_pending.state halong).trans ?_⟩
  decide +kernel

/-- **A read that ends behind the request line.** What was read is taken for a whole
request, and the header that comes with the next read is not part of it. -/
theorem requestLine_not_stable :
    StopsBetweenLines requestLine ∧ (parseFresh requestLine).1 = .done ∧
      (parseFresh (requestLine ++ hostLines)).1 = .done ∧ ¬Stable requestLine hostLines ∧
      decision (Run.run (Feed.step 0) newClient [piece requestLine, piece hostLines]).life.acts ≠
        decision (Run.run (Feed.step 0) newClient [piece (requestLine ++ hostLines)]).life.acts := by
  have hdone : (parseFresh requestLine).1 = .done := by decide +kernel
  have hunstable : ¬Stable requestLine hostLines := fun h =>
    absurd (h.1 hdone).2.headers (by decide +kernel)
  refine ⟨?_, hdone, by decide +kernel, hunstable, ?_⟩
  · by_contra hstop
    exact hunstable ((stable_iff requestLine).mpr hstop hostLines)
  · have hone (seg : List UInt8) (hread : newClient.Reading 0 (piece seg)) :=
      (newClient_pending.step hread).decision_eq
    have hfirst := hone requestLine (newClient_reading (by decide +kernel))
    have hwhole := hone (requestLine ++ hostLines) (newClient_reading (by decide +kernel))
    rw [show (newClient.step 0 (piece requestLine)).stream = requestLine by decide +kernel]
      at hfirst
    rw [show (newClient.step 0 (piece (requestLine ++ hostLines))).stream =
      requestLine ++ hostLines by decide +kernel] at hwhole
    obtain ⟨a, ha⟩ := Option.ne_none_iff_exists'.mp
      (show verdict requestLine ≠ none by decide +kernel)
    have htwo := Feed.decision_step (u := piece hostLines) (c := 0) (hfirst.trans ha)
    rw [Run.run_cons, Run.run_cons, Run.run_cons, Run.run_nil, Run.run_nil, htwo, hwhole, ← ha]
    decide +kernel

end Nproxy
