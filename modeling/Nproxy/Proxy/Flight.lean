import Nproxy.Proc.Handover
import Nproxy.Proxy.Stream

/-!
A request in flight: what happens to it between `handler_dispatch` and the end of the
response.

The slices of `conn->request` point into the memory of `rbuf`, which the next read
overwrites, and a client that sends more is read and parsed as before.

* `Pumps`: what reading from the upstream leaves alone.
* `Conn.flight`: what makes up a request in flight.
* `flight_kept`: as long as the client is silent, nothing is dispatched again, the
  upstream's descriptor stays, and the slices denote the same bytes, up to the line of the
  access log.
* `talking_client`: a client that is not silent.
-/

namespace Nproxy

/-- A connection without the response that comes in. -/
def Conn.still (c : Conn) : Conn :=
  { c with
    upstreamRbuf := bufFree c.upstreamRbuf
    cacheBuf := none
    cacheLen := 0
    cacheCap := 0
    proxyStatus := 0 }

/-- An action on the response that comes in. -/
def Act.pumped : Act → Prop
  | .upstreamRead _ _ | .upstreamEof _ | .relay _ | .noteStatus _ => True
  | _ => False

namespace St

/-! ### What reading from the upstream leaves alone -/

/-- Only the response moves on. -/
structure Pumps (st st' : St) : Prop where
  still : st'.conn.still = st.conn.still
  acts : Adds Act.pumped st st'

namespace Pumps

variable {st st' st'' : St}

lemma refl (st : St) : Pumps st st := ⟨rfl, .of_acts_eq rfl⟩

lemma trans (h1 : Pumps st st') (h2 : Pumps st' st'') : Pumps st st'' :=
  ⟨h2.still.trans h1.still, h1.acts.trans h2.acts⟩

lemma of_acts_eq (hstill : st'.conn.still = st.conn.still) (hacts : st'.acts = st.acts) :
    Pumps st st' := ⟨hstill, .of_acts_eq hacts⟩

lemma of_act {a : Act} (hstill : st'.conn.still = st.conn.still) (hacts : st'.acts = st.acts ++ [a])
    (ha : a.pumped) : Pumps st st' :=
  ⟨hstill, [a], hacts, by simpa using ha⟩

lemma relay (st : St) : Pumps st st.relay := of_act rfl rfl trivial

lemma mapLoop (f : EventLoop → EventLoop) : Pumps st (st.mapLoop f) := of_acts_eq rfl rfl

lemma readUpstream (tape : List SysRead) : Pumps st (st.readUpstream tape).2 := by
  rw [St.readUpstream]
  simp only
  split
  · exact of_act rfl rfl trivial
  · exact of_act rfl rfl trivial
  · exact of_acts_eq rfl rfl

lemma captureStatus : Pumps st st.captureStatus := by
  rcases captureStatus_cases st with heq | ⟨-, status, heq⟩ <;> rw [heq]
  · exact refl st
  · exact of_act rfl rfl trivial

lemma captureCache : Pumps st st.captureCache := by
  rcases captureCache_cases st with heq | ⟨-, buf, len, cap, reallocs, -, heq⟩ <;> rw [heq]
  · exact refl st
  · exact of_acts_eq rfl rfl

/-- **The read loop** changes nothing of the flight, however many turns it takes. -/
lemma upstreamLoop (tape : List SysRead) (st : St) : Pumps st (St.upstreamLoop tape st).2 := by
  induction tape generalizing st with
  | nil => exact readUpstream []
  | cons r tape ih =>
    have hread : Pumps st (st.readUpstream (r :: tape)).2 := readUpstream _
    rw [St.upstreamLoop]
    split <;> rename_i heq <;> rw [heq] at hread
    · exact (hread.trans ((captureStatus.trans captureCache).trans (relay _))).trans (ih _)
    · exact hread

end Pumps

lemma upstreamReadPart_pumps (st : St) (fd : ℤ) : ∃ st1, Pumps st st1 ∧
    (st.upstreamReadPart fd = st1 ∨ ∃ n, st.upstreamReadPart fd = st1.finishProxy n fd) := by
  have hpumps := Pumps.upstreamLoop (onFd fd .err st.env.upstreamReads) st
  obtain ⟨n, st1, st2, hloop, hst2, hend⟩ := upstreamReadPart_cases st fd
  rw [hloop] at hpumps
  refine ⟨st2, ?_, ?_⟩
  · rcases hst2 with rfl | rfl
    · exact hpumps
    · exact hpumps.trans (.mapLoop _)
  · rcases hend with ⟨-, heq⟩ | ⟨-, heq⟩
    · exact Or.inr ⟨n, heq⟩
    · exact Or.inl heq

/-- **`proxy_on_upstream_event`, by its endings**: after a write to the upstream the
response moves on, and then the connection is kept or closed; or the write has failed. -/
lemma proxyOnUpstreamEvent_cases (st : St) (fd : ℤ) (ev : Events) :
    (st.proxyOnUpstreamEvent fd ev =
        (((st.forwardOnce fd).2.answerError 502 false).respondOnce).workerConnClose) ∨
      ∃ st1, Pumps (if ev.write then (st.forwardOnce fd).2 else st) st1 ∧
        (st.proxyOnUpstreamEvent fd ev = st1 ∨
          ∃ n, st.proxyOnUpstreamEvent fd ev = st1.finishProxy n fd) := by
  rcases proxyOnUpstreamEvent_parts st fd ev with heq | ⟨st0, -, hst0, heq⟩ <;> rw [heq]
  · exact Or.inl rfl
  · right
    have hfwd : Pumps (if ev.write then (st.forwardOnce fd).2 else st) st0 := by
      rcases hst0 with ⟨hwrite, rfl⟩ | ⟨hwrite, rfl | rfl⟩ <;> rw [hwrite]
      · exact .refl _
      · exact .refl _
      · exact .mapLoop _
    by_cases hread : ev.read = true
    · rw [if_pos hread]
      obtain ⟨st1, hpumps, hend⟩ := upstreamReadPart_pumps st0 fd
      exact ⟨st1, hfwd.trans hpumps, hend⟩
    · rw [if_neg hread]
      exact ⟨st0, hfwd, Or.inl rfl⟩

/-! ### What a request in flight is -/

end St

/-- The request in flight: its state, where it was sent, the request and the memory that
its slices point into. -/
def Conn.flight (c : Conn) : ConnState × ℤ × Option HttpRequest × List UInt8 :=
  (c.state, c.upstreamFd, c.request, c.rbuf.data)

/-- Neither a call of `handler_dispatch` nor a line of the access log. -/
def Act.calm : Act → Prop
  | .dispatch _ | .accessLog _ => False
  | _ => True

lemma Act.calm_of_pumped {a : Act} (h : a.pumped) : a.calm := by
  cases a <;> simp_all [Act.pumped, Act.calm]

namespace St

variable {st st' : St}

lemma Pumps.flight (h : Pumps st st') : st'.conn.flight = st.conn.flight := by
  have hstate := congrArg Conn.state h.still
  have hfd := congrArg Conn.upstreamFd h.still
  have hreq := congrArg Conn.request h.still
  have hrbuf := congrArg Conn.rbuf h.still
  simp only [Conn.still] at hstate hfd hreq hrbuf
  rw [Conn.flight, Conn.flight, hstate, hfd, hreq, hrbuf]

lemma Pumps.calm (h : Pumps st st') : Adds Act.calm st st' := by
  obtain ⟨as, has, hp⟩ := h.acts
  exact ⟨as, has, fun a ha => Act.calm_of_pumped (hp a ha)⟩

/-- What an event does to the request in flight: it stays, or the connection is given
back. -/
def Flies (st st' : St) : Prop :=
  Adds Act.calm st st' ∧ (st'.conn.flight = st.conn.flight ∨
    (st'.conn.state = .closing ∧ ∃ freed, .poolPut freed ∈ st'.acts))

/-- **An event of the upstream**, up to the end of the response, which is logged as the
request is then. -/
lemma proxyOnUpstreamEvent_flies (st : St) (fd : ℤ) (ev : Events) :
    Flies st (st.proxyOnUpstreamEvent fd ev) ∨
      ∃ st1 n, Adds Act.calm st st1 ∧ st1.conn.flight = st.conn.flight ∧
        st.proxyOnUpstreamEvent fd ev = st1.finishProxy n fd := by
  have hfwd : Adds Act.calm st (st.forwardOnce fd).2 := ⟨[_], rfl, by simp [Act.calm]⟩
  have hstart : Adds Act.calm st (if ev.write then (st.forwardOnce fd).2 else st) ∧
      (if ev.write then (st.forwardOnce fd).2 else st).conn.flight = st.conn.flight := by
    split
    · exact ⟨hfwd, rfl⟩
    · exact ⟨.of_acts_eq rfl, rfl⟩
  rcases proxyOnUpstreamEvent_cases st fd ev with heq | ⟨st1, hpumps, heq | ⟨n, heq⟩⟩
  · rw [heq]
    refine Or.inl ⟨(hfwd.trans ?_).trans (workerConnClose_adds (fun _ => trivial)
      (fun _ => trivial) _), Or.inr ⟨workerConnClose_state _, workerConnClose_put _⟩⟩
    exact ⟨[_], rfl, by simp [Act.calm]⟩
  · rw [heq]
    exact Or.inl ⟨hstart.1.trans hpumps.calm, Or.inl (hpumps.flight.trans hstart.2)⟩
  · exact Or.inr ⟨st1, n, hstart.1.trans hpumps.calm, hpumps.flight.trans hstart.2, heq⟩

/-- The end of the response gives the connection back and dispatches nothing. -/
lemma finishProxy_undispatched (st : St) (n : Ret) (fd : ℤ) :
    (∃ freed, .poolPut freed ∈ (st.finishProxy n fd).acts) ∧
      Adds (fun a => ∀ r, a ≠ .dispatch r) st (st.finishProxy n fd) := by
  refine ⟨workerConnClose_put _, ?_⟩
  rw [finishProxy]
  refine Adds.trans ?_ (workerConnClose_adds (fun _ _ => by simp) (fun _ _ => by simp) _)
  have hunlink : Adds (fun a => ∀ r, a ≠ .dispatch r) st (st.unlinkUpstream fd) := .of_acts_eq rfl
  refine hunlink.trans ?_
  have hclose : ∀ st : St, Adds (fun a => ∀ r, a ≠ .dispatch r) st (st.close fd) := fun st =>
    ⟨[_], rfl, by simp⟩
  have hstore : ∀ st : St, Adds (fun a => ∀ r, a ≠ .dispatch r) st st.storeCache := by
    intro st
    rw [storeCache]
    split
    · split
      · exact ⟨[_], rfl, by simp⟩
      · exact .of_acts_eq rfl
    · exact .of_acts_eq rfl
  have hlog : ∀ st : St, Adds (fun a => ∀ r, a ≠ .dispatch r) st st.logProxied := by
    intro st
    rw [logProxied]
    split
    · exact ⟨[_], rfl, by simp⟩
    · exact .of_acts_eq rfl
  have hput : ∀ (st : St) (i b : ℕ),
      Adds (fun a => ∀ r, a ≠ .dispatch r) st (st.putUpstream i b fd) := by
    intro st i b
    rw [putUpstream]
    split
    · exact .of_acts_eq rfl
    · split
      · exact ⟨[_], rfl, by simp⟩
      · exact .of_acts_eq rfl
  rw [settleUpstream]
  split
  · simp only
    split
    · exact (hstore _).trans ((hlog _).trans (hput _ _ _))
    · exact (hstore _).trans (hclose _)
  · exact hclose _

/-! ### The client's events -/

/-- A read that gets nothing where nothing was. -/
lemma bufReadLoop_silent {b : NpBuf} (hempty : bufReadable b = 0) {tape : List SysRead}
    (htape : ∀ bs, tape.head? = some (.data bs) → bs = []) :
    (bufReadLoop b tape).buf = bufReset b := by
  have hcompact : bufCompact b = bufReset b := by rw [bufCompact, if_pos hempty]
  cases tape with
  | nil =>
    simp only [bufReadLoop, bufReadFd, hcompact]
    split <;> rfl
  | cons r tape =>
    simp only [bufReadLoop, bufReadFd, hcompact]
    by_cases hspace : bufWritable (bufReset b) = 0
    · simp only [if_pos hspace]
    · simp only [if_neg hspace]
      cases r with
      | data bs =>
        obtain rfl := htape bs rfl
        simp
      | again => rfl
      | err => rfl

/-- A read of a silent client leaves the request alone, or ends the connection. -/
lemma handleRead_flies (hstate : st.conn.state = .proxying) (hempty : bufReadable st.conn.rbuf = 0)
    (htape : ∀ bs, st.env.clientReads.head? = some (.data bs) → bs = []) :
    Flies st st.handleRead := by
  have hread : st.readClient.2.conn.rbuf = bufReset st.conn.rbuf := by
    refine bufReadLoop_silent hempty fun bs hbs => ?_
    rw [onFd] at hbs
    split at hbs
    · simp at hbs
    · exact htape bs hbs
  have hadds : Adds Act.calm st st.readClient.2 := ⟨[_], rfl, by simp [Act.calm]⟩
  have hflight : st.readClient.2.conn.flight = st.conn.flight := by
    rw [Conn.flight, hread]
    rfl
  rw [handleRead, if_neg (by rw [hstate]; decide)]
  simp only
  split
  · exact ⟨hadds.trans (connPoolPut_adds (fun _ => trivial) (fun _ => trivial) _),
      Or.inr ⟨connPoolPut_state _, connPoolPut_put _⟩⟩
  · rw [parseRequests, if_pos (by rw [hread]; rfl)]
    exact ⟨hadds, Or.inl hflight⟩

/-- A write to the client, while its request is in flight or when it was given back. -/
lemma Flies.handleWrite (h : Flies st st') (hstate : st.conn.state = .proxying) :
    Flies st st'.handleWrite := by
  obtain ⟨hadds, hflight | ⟨hclosing, freed, hput⟩⟩ := h
  · have hrelay : Adds Act.calm st' st'.relay := ⟨[_], rfl, by simp [Act.calm]⟩
    have hstate' : st'.conn.state = .proxying := (congrArg Prod.fst hflight).trans hstate
    rw [St.handleWrite, hstate']
    simp only
    split <;> exact ⟨hadds.trans hrelay, Or.inl hflight⟩
  · have hrespond : Adds Act.calm st' st'.respond := ⟨[_], rfl, by simp [Act.calm]⟩
    have hclosing' : st'.respond.conn.state = .closing := hclosing
    rw [St.handleWrite, hclosing]
    simp only
    split
    · rw [if_pos (Or.inl hclosing')]
      exact ⟨(hadds.trans hrespond).trans
        (connPoolPut_adds (fun _ => trivial) (fun _ => trivial) _),
        Or.inr ⟨connPoolPut_state _, connPoolPut_put _⟩⟩
    · exact ⟨hadds.trans hrespond, Or.inr ⟨hclosing', freed, List.mem_append_left _ hput⟩⟩

/-- **An event of a silent client** leaves the request in flight, or ends the connection. -/
lemma onClientEvent_flies (hstate : st.conn.state = .proxying) (ev : Events)
    (hsilent : ev.hup = false → ev.err = false → ev.read = true →
      bufReadable st.conn.rbuf = 0 ∧ ∀ bs, st.env.clientReads.head? = some (.data bs) → bs = []) :
    Flies st (st.onClientEvent ev) := by
  rw [onClientEvent]
  split
  · exact ⟨connPoolPut_adds (fun _ => trivial) (fun _ => trivial) _,
      Or.inr ⟨connPoolPut_state _, connPoolPut_put _⟩⟩
  · rename_i hok
    simp only [not_or, Bool.not_eq_true] at hok
    have hread : Flies st (if ev.read then st.handleRead else st) := by
      split
      · rename_i hr
        obtain ⟨hempty, htape⟩ := hsilent hok.1 hok.2 hr
        exact handleRead_flies hstate hempty htape
      · exact ⟨.of_acts_eq rfl, Or.inl rfl⟩
    simp only
    split
    · exact hread.handleWrite hstate
    · exact hread

end St

/-! ### Runs -/

namespace Life

/-- The client is silent: nothing stands in `rbuf` when its socket is read, and nothing
comes in. -/
def Silent (l : Life) : Use → Prop
  | .client _ env ev => l.Held ∧ (ev.hup = false → ev.err = false → ev.read = true →
      bufReadable l.conn.rbuf = 0 ∧ ∀ bs, env.clientReads.head? = some (.data bs) → bs = [])
  | .upstream _ _ _ _ => l.Held
  | .get _ _ => False

/-- The request that was in flight at first still is, unless the connection was given
back, and nothing was dispatched. -/
structure Airborne (conn : Conn) (l : Life) : Prop where
  undispatched : ∀ r, .dispatch r ∉ l.acts
  flight : l.Held → l.conn.flight = conn.flight

variable {conn : Conn} {c : ConnId} {l : Life}

lemma Airborne.flies (h : l.Airborne conn) (hheld : l.Held) (ws : WorkerState) (env : Env)
    (f : St → St) (hf : St.Flies ⟨c, l.conn, ws, env, []⟩ (f ⟨c, l.conn, ws, env, []⟩)) :
    (l.handle c ws env f).Airborne conn := by
  obtain ⟨⟨as, has, hcalm⟩, hflight⟩ := hf
  rw [List.nil_append] at has
  refine ⟨fun r hmem => ?_, fun hheld' => ?_⟩
  · simp only [Life.handle, has] at hmem
    rcases List.mem_append.mp hmem with hmem | hmem
    · exact h.undispatched r hmem
    · exact hcalm _ hmem
  · rcases hflight with hflight | ⟨-, freed, hput⟩
    · exact hflight.trans (h.flight hheld)
    · exact absurd (List.mem_append_right _ hput) (hheld' freed)

lemma Airborne.finishes (h : l.Airborne conn) (ws : WorkerState) (env : Env) (f : St → St)
    {st1 : St} {n : Ret} {fd : ℤ} (hadds : St.Adds Act.calm ⟨c, l.conn, ws, env, []⟩ st1)
    (heq : f ⟨c, l.conn, ws, env, []⟩ = st1.finishProxy n fd) :
    (l.handle c ws env f).Airborne conn := by
  obtain ⟨as, has, hcalm⟩ := hadds
  obtain ⟨⟨freed, hput⟩, bs, hbs, hno⟩ := St.finishProxy_undispatched st1 n fd
  rw [List.nil_append] at has
  refine ⟨fun r hmem => ?_, fun hheld' => ?_⟩
  · simp only [Life.handle, heq, hbs, has, List.mem_append] at hmem
    rcases hmem with hmem | hmem | hmem
    · exact h.undispatched r hmem
    · exact hcalm _ hmem
    · exact hno _ hmem r rfl
  · exact absurd (List.mem_append_right _ (heq ▸ hput)) (hheld' freed)

/-- **Every event of a silent client and of the upstream keeps the request in flight.** -/
lemma Airborne.step (h : l.Airborne conn) (hconn : conn.state = .proxying) {u : Use}
    (hu : l.Silent u) : (l.step c u).Airborne conn := by
  cases u with
  | client ws env ev =>
    have hstate : l.conn.state = .proxying := (congrArg Prod.fst (h.flight hu.1)).trans hconn
    exact h.flies hu.1 ws env (fun st => st.onClientEvent ev)
      (St.onClientEvent_flies hstate ev hu.2)
  | upstream ws env fd ev =>
    rcases St.proxyOnUpstreamEvent_flies ⟨c, l.conn, ws, env, []⟩ fd ev with
      hflies | ⟨st1, n, hadds, -, heq⟩
    · exact h.flies hu ws env (fun st => st.proxyOnUpstreamEvent fd ev) hflies
    · exact h.finishes ws env (fun st => st.proxyOnUpstreamEvent fd ev) hadds heq
  | get fd peer => exact hu.elim

end Life

/-- The path and the headers of a request denote the bytes that were parsed. -/
def HttpRequest.Intact (req : HttpRequest) (base : ℕ) (mem : List UInt8) : Prop :=
  req.path.denotes base mem = req.path.bytes ∧
    ∀ h ∈ req.headers, h.name.denotes base mem = h.name.bytes ∧
      h.value.denotes base mem = h.value.bytes

/-- What a line of the access log says of a request; the path is read through its slice,
from the memory as it is then. -/
def accessLogRequest (req : HttpRequest) (base : ℕ) (mem : List UInt8) : List UInt8 :=
  List.flatten [cstr req.remoteIp, bytes " - - \"", httpMethodStr req.method, bytes " ",
    cstr (req.path.denotes base mem), bytes " HTTP/1.",
    if req.version = .http11 then bytes "1" else bytes "0", bytes "\""]

/-- **A request in flight stays as it was**, as long as the client is silent: from the
moment `handler_dispatch` has handed it over, nothing is dispatched, and until the
connection is given back the upstream's descriptor and the request are the same, and its
path, names and values denote the bytes that were parsed; and when a line of the access
log is written, it is that of this request. -/
theorem flight_kept (c : ConnId) (st0 st : St) (data : List UInt8) (req : HttpRequest)
    (hcalls : St.Calls st0 data req st) (hstate : (st.handlerDispatch req).conn.state = .proxying)
    (us : List Use)
    (hus : Run.Along (Life.step c) Life.Silent ⟨(st.handlerDispatch req).conn, []⟩ us) :
    let base := st0.readClient.2.conn.rbuf.readPos
    let st1 := st.handlerDispatch req
    let l := Run.run (Life.step c) ⟨st1.conn, []⟩ us
    ∃ req1, req.Routed req1 ∧ (∃ st2 i b ufd, st1 = St.startProxy st2 req1 i b ufd) ∧
      (∀ r, .dispatch r ∉ l.acts) ∧
      (l.Held → l.conn.state = .proxying ∧ l.conn.upstreamFd = st1.conn.upstreamFd ∧
        l.conn.request = some req1 ∧ req1.Intact base l.conn.rbuf.data ∧
        ∀ ws env fd ev status,
          .accessLog status ∈ (St.proxyOnUpstreamEvent ⟨c, l.conn, ws, env, []⟩ fd ev).acts →
          ∃ (st2 : St) (n : Ret),
            St.proxyOnUpstreamEvent ⟨c, l.conn, ws, env, []⟩ fd ev = st2.finishProxy n fd ∧
            st2.conn.request = some req1 ∧ accessLogRequest req1 base st2.conn.rbuf.data =
              accessLogRequest req1 base st1.conn.rbuf.data) := by
  obtain ⟨req1, i, hrouted, hanswers | ⟨st2, b, ufd, hover, -, heq⟩⟩ :=
    St.handlerDispatch_settles st req
  · rcases hanswers with h | h <;> simp [h] at hstate
  · have hreq : (st.handlerDispatch req).conn.request = some req1 := by
      rw [heq]
      exact hover.request
    have hrbuf : (st.handlerDispatch req).conn.rbuf = st.conn.rbuf := by
      rw [heq]
      exact hover.stays.rbuf
    intro base st1 l
    -- the flight is an invariant of the events of a silent client
    have hairborne : l.Airborne st1.conn :=
      hus.invariant (fun _ _ h hu => h.step hstate hu) ⟨by simp, fun _ => rfl⟩
    refine ⟨req1, hrouted, ⟨st2, i, b, ufd, heq⟩, hairborne.undispatched, fun hheld => ?_⟩
    have hflight := hairborne.flight hheld
    simp only [Conn.flight, Prod.mk.injEq] at hflight
    obtain ⟨h1, h2, h3, h4⟩ := hflight
    have hdata := hcalls.data_eq
    rw [← hrbuf, ← h4] at hdata
    obtain ⟨hpath, hheaders⟩ := hrouted.pointsInto hcalls.pointsInto
    rw [← hdata] at hpath hheaders
    refine ⟨h1.trans hstate, h2, h3.trans hreq, ⟨hpath.denotes_eq,
      fun h hh => ⟨(hheaders h hh).1.denotes_eq, (hheaders h hh).2.denotes_eq⟩⟩, ?_⟩
    intro ws env fd ev status hlog
    -- only the end of the response writes a line, and the request is still there then
    rcases St.proxyOnUpstreamEvent_flies ⟨c, l.conn, ws, env, []⟩ fd ev with
      ⟨⟨as, has, hcalm⟩, -⟩ | ⟨st3, n, -, hflight3, heq3⟩
    · rw [has, List.nil_append] at hlog
      exact (hcalm _ hlog).elim
    · simp only [Conn.flight, Prod.mk.injEq] at hflight3
      obtain ⟨-, -, g3, g4⟩ := hflight3
      exact ⟨st3, n, heq3, g3.trans (h3.trans hreq), by rw [g4, h4]⟩

/-- The backend begins to answer. -/
def answerBegins : List Use :=
  [.upstream backendWorker.ws { idleEnv with
    upstreamReads := [.data (bytes "HTTP/1.1 200 OK")]
    clientWrites := [.wrote 65536] } 5 inEvent]

/-- The page is on its way, and the request is what it was. -/
theorem flight_kept_answerBegins :
    (Run.run (Life.step 0) ⟨((askedCall pageText).handlerDispatch (askedRequest pageText)).conn, []⟩
      answerBegins).Held ∧
    let base := (asked pageText).readClient.2.conn.rbuf.readPos
    let st1 := (askedCall pageText).handlerDispatch (askedRequest pageText)
    let l := Run.run (Life.step 0) ⟨st1.conn, []⟩ answerBegins
    ∃ req1, (askedRequest pageText).Routed req1 ∧
      (∃ st2 i b ufd, st1 = St.startProxy st2 req1 i b ufd) ∧ (∀ r, .dispatch r ∉ l.acts) ∧
      (l.Held → l.conn.state = .proxying ∧ l.conn.upstreamFd = st1.conn.upstreamFd ∧
        l.conn.request = some req1 ∧ req1.Intact base l.conn.rbuf.data ∧
        ∀ ws env fd ev status,
          .accessLog status ∈ (St.proxyOnUpstreamEvent ⟨0, l.conn, ws, env, []⟩ fd ev).acts →
          ∃ (st2 : St) (n : Ret),
            St.proxyOnUpstreamEvent ⟨0, l.conn, ws, env, []⟩ fd ev = st2.finishProxy n fd ∧
            st2.conn.request = some req1 ∧ accessLogRequest req1 base st2.conn.rbuf.data =
              accessLogRequest req1 base st1.conn.rbuf.data) :=
  ⟨by decide +kernel, flight_kept 0 (asked pageText) (askedCall pageText) pageText
    (askedRequest pageText) pageText_calls (by decide +kernel) answerBegins
    ⟨fun _ => List.not_mem_nil, trivial⟩⟩

/-! ### A client that is not silent -/

/-- The life of a connection whose client asks for the page, and then sends this. -/
def talkingRun (text : List UInt8) : Life :=
  Run.run (Life.step 0) (Life.start 4096 4 ⟨127, 0, 0, 1⟩)
    [clientSays pageText 5, clientSays text 6]

/-- **A request in flight that is lost.** The client sends a few bytes more, and the path
of its request is overwritten; it sends another request, which is dispatched and gets an
upstream of its own, and the first one's descriptor is neither closed nor known any
more. -/
theorem talking_client :
    ((Run.run (Life.step 0) (Life.start 4096 4 ⟨127, 0, 0, 1⟩) [clientSays pageText 5]).conn.state
        = .proxying ∧
      (Run.run (Life.step 0) (Life.start 4096 4 ⟨127, 0, 0, 1⟩)
        [clientSays pageText 5]).conn.upstreamFd = 5) ∧
    ((talkingRun (bytes "XXXXXX")).conn.state = .proxying ∧
      (talkingRun (bytes "XXXXXX")).conn.request.map (·.path.bytes) = some (bytes "/a") ∧
      (talkingRun (bytes "XXXXXX")).conn.request.map
          (·.path.denotes 0 (talkingRun (bytes "XXXXXX")).conn.rbuf.data) = some (bytes "XX")) ∧
    ((talkingRun pageText).conn.state = .proxying ∧ (talkingRun pageText).conn.upstreamFd = 6 ∧
      .close 5 ∉ (talkingRun pageText).acts ∧
      (talkingRun pageText).acts.countP (· = .dispatch (askedRequest pageText)) = 2) :=
  ⟨⟨by decide +kernel, by decide +kernel⟩,
    ⟨by decide +kernel, by decide +kernel, by decide +kernel⟩,
    by decide +kernel, by decide +kernel, by decide +kernel, by decide +kernel⟩

end Nproxy
