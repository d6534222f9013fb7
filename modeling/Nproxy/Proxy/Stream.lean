import Nproxy.Lib.Queue
import Nproxy.Proc.Reuse

/-!
The response of an upstream on its way to the client.

* `upstreamMoves`: the bytes that entered and left `upstream_rbuf`, as the actions of a
  run record them.
* `Streams`, `Passes`: what the upstream's events and the client's events do to the
  stream.
* `relayed_at_end_iff`: when the upstream's end is read, the client has got every byte if
  and only if nothing is left in `upstream_rbuf`.
* `answeredRun_truncated`: a response that is cut off. The client's socket is full when
  the upstream closes.
-/

namespace Nproxy

open Queue (Flow)

/-- What an action does to the content of `upstream_rbuf`. -/
def Act.move : Act → Option (Queue.Move UInt8)
  | .upstreamRead _ bs => some (.enter bs)
  | .relay bs => some (.leave bs)
  | _ => none

/-- What is left in `upstream_rbuf` when the upstream's end is read. -/
def Act.eof : Act → Option (List UInt8)
  | .upstreamEof left => some left
  | _ => none

/-- The bytes that entered and left `upstream_rbuf`. -/
def upstreamMoves (as : List Act) : List (Queue.Move UInt8) := as.filterMap Act.move

/-- The ends that were read. -/
def eofs (as : List Act) : List (List UInt8) := as.filterMap Act.eof

@[simp] lemma upstreamMoves_append (as bs : List Act) :
    upstreamMoves (as ++ bs) = upstreamMoves as ++ upstreamMoves bs := List.filterMap_append

@[simp] lemma eofs_append (as bs : List Act) : eofs (as ++ bs) = eofs as ++ eofs bs :=
  List.filterMap_append

@[simp] lemma upstreamMoves_nil : upstreamMoves [] = [] := rfl

@[simp] lemma eofs_nil : eofs [] = [] := rfl

/-- An action that does not concern the upstream's stream. -/
def Act.still (a : Act) : Prop := a.move = none ∧ a.eof = none

lemma Act.still_of_quiet {a : Act} (h : a.quiet = true) : a.still := by
  cases a <;> simp_all [Act.quiet, Act.still, Act.move, Act.eof]

lemma upstreamMoves_of_still {as : List Act} (h : ∀ a ∈ as, a.still) : upstreamMoves as = [] :=
  List.filterMap_eq_nil_iff.mpr fun a ha => (h a ha).1

lemma eofs_of_still {as : List Act} (h : ∀ a ∈ as, a.still) : eofs as = [] :=
  List.filterMap_eq_nil_iff.mpr fun a ha => (h a ha).2

namespace St

/-- The stream from the one state to the other: bytes enter and leave `upstream_rbuf`,
and `ends` are the ends that were read. -/
structure Streams (st st' : St) (ends : List (List UInt8)) : Prop where
  state : st'.conn.state = st.conn.state
  upstreamFd : st'.conn.upstreamFd = st.conn.upstreamFd
  wf : st'.conn.upstreamRbuf.Wf
  acts : ∃ as, st'.acts = st.acts ++ as ∧ eofs as = ends ∧
    Flow (bufBytes st.conn.upstreamRbuf) (upstreamMoves as) (bufBytes st'.conn.upstreamRbuf)

namespace Streams

variable {st st' st'' : St} {ends ends' : List (List UInt8)}

lemma trans (h1 : Streams st st' ends) (h2 : Streams st' st'' ends') :
    Streams st st'' (ends ++ ends') := by
  obtain ⟨as, has, hends, hflow⟩ := h1.acts
  obtain ⟨bs, hbs, hends', hflow'⟩ := h2.acts
  refine ⟨h2.state.trans h1.state, h2.upstreamFd.trans h1.upstreamFd, h2.wf, as ++ bs,
    by rw [hbs, has, List.append_assoc], by rw [eofs_append, hends, hends'], ?_⟩
  rw [upstreamMoves_append]
  exact hflow.trans hflow'

lemma of_steady (hwf : st.conn.upstreamRbuf.Wf) (h : Steady st st')
    (hstate : st'.conn.state = st.conn.state) : Streams st st' [] := by
  obtain ⟨as, has, hq, -⟩ := h.acts
  have hstill : ∀ a ∈ as, a.still := fun a ha => Act.still_of_quiet (hq a ha)
  refine ⟨hstate, h.upstreamFd, h.upstreamRbuf ▸ hwf, as, has, eofs_of_still hstill, ?_⟩
  rw [upstreamMoves_of_still hstill, h.upstreamRbuf]
  exact .refl _

lemma refl (hwf : st.conn.upstreamRbuf.Wf) : Streams st st [] :=
  of_steady hwf (Stays.refl st).toSteady rfl

lemma relay (hwf : st.conn.upstreamRbuf.Wf) : Streams st st.relay [] := by
  obtain ⟨hwf', hbytes⟩ := bufWriteLoop_spec hwf
    (onFd st.conn.fd .err st.env.clientWrites)
  refine ⟨rfl, rfl, hwf', [_], rfl, rfl, ?_⟩
  rw [← hbytes]
  exact .leave _ _

/-- The upstream gives some bytes, or ends. -/
lemma readUpstream (hwf : st.conn.upstreamRbuf.Wf) (tape : List SysRead) :
    Streams st (st.readUpstream tape).2 (if (st.readUpstream tape).1 = .closed then
      [bufBytes (st.readUpstream tape).2.conn.upstreamRbuf] else []) := by
  obtain ⟨hwf', hbytes⟩ := bufReadFd_spec hwf tape
  rw [St.readUpstream]
  simp only
  split
  · rename_i heq
    refine ⟨rfl, rfl, hwf', [_], rfl, by simp [eofs, Act.eof, heq], ?_⟩
    simp only [act, hbytes]
    exact .enter _ _
  · rename_i heq
    rw [bufReadFd_got_eq_nil (by simp [heq]), List.append_nil] at hbytes
    refine ⟨rfl, rfl, hwf', [_], rfl, by simp [eofs, Act.eof, heq, act, hbytes], ?_⟩
    simp only [act, hbytes]
    exact .refl _
  · rename_i hok hclosed
    rw [bufReadFd_got_eq_nil hok, List.append_nil] at hbytes
    refine ⟨rfl, rfl, hwf', [], by simp, by rw [if_neg hclosed, eofs_nil], ?_⟩
    simp only [hbytes]
    exact .refl _

lemma mapLoop (hwf : st.conn.upstreamRbuf.Wf) (f : EventLoop → EventLoop) :
    Streams st (st.mapLoop f) [] :=
  ⟨rfl, rfl, hwf, [], by simp [St.mapLoop], rfl, .refl _⟩

lemma upstreamMod (hwf : st.conn.upstreamRbuf.Wf) (fd : ℤ) (events : Events) :
    Streams st (st.upstreamMod fd events) [] := mapLoop hwf _

lemma clientMod (hwf : st.conn.upstreamRbuf.Wf) (events : Events) :
    Streams st (st.clientMod events) [] := mapLoop hwf _

/-- What follows a read. -/
lemma relayTurn (hwf : st.conn.upstreamRbuf.Wf) : Streams st st.relayTurn [] := by
  have hstays : Stays st st.captureStatus.captureCache := Stays.captureStatus.trans .captureCache
  exact (of_steady hwf hstays.toSteady (by simp)).trans (relay (hstays.upstreamRbuf ▸ hwf))

/-- **The read loop.** If it ends because the upstream does, what is left is in
`upstream_rbuf`. -/
lemma upstreamLoop (tape : List SysRead) {st : St} (hwf : st.conn.upstreamRbuf.Wf) :
    Streams st (St.upstreamLoop tape st).2 (if (St.upstreamLoop tape st).1 = .closed then
      [bufBytes (St.upstreamLoop tape st).2.conn.upstreamRbuf] else []) := by
  induction tape generalizing st with
  | nil => exact readUpstream hwf []
  | cons r tape ih =>
    have hread := readUpstream hwf (r :: tape)
    rw [St.upstreamLoop]
    split <;> rename_i heq <;> rw [heq] at hread
    · have hturn := hread.trans (relayTurn hread.wf)
      simpa using hturn.trans (ih hturn.wf)
    · exact hread

end Streams

/-! ### The end of the stream -/

/-- What is done is of a kind. -/
def Adds (P : Act → Prop) (st st' : St) : Prop := ∃ as, st'.acts = st.acts ++ as ∧ ∀ a ∈ as, P a

variable {P : Act → Prop} {st st' st'' : St}

lemma Adds.trans (h1 : Adds P st st') (h2 : Adds P st' st'') : Adds P st st'' := by
  obtain ⟨as, has, hs⟩ := h1
  obtain ⟨bs, hbs, hs'⟩ := h2
  refine ⟨as ++ bs, by rw [hbs, has, List.append_assoc], fun a ha => ?_⟩
  rcases List.mem_append.mp ha with ha | ha
  · exact hs a ha
  · exact hs' a ha

lemma Adds.of_acts_eq (h : st'.acts = st.acts) : Adds P st st' := ⟨[], by simp [h], by simp⟩

lemma Steady.adds (h : Steady st st') : Adds Act.still st st' := by
  obtain ⟨as, has, hq, -⟩ := h.acts
  exact ⟨as, has, fun a ha => Act.still_of_quiet (hq a ha)⟩

lemma connPoolPut_adds (hclose : ∀ fd, P (.close fd)) (hput : ∀ freed, P (.poolPut freed))
    (st : St) : Adds P st st.connPoolPut := by
  obtain ⟨fds, freed, hacts⟩ := connPoolPut_acts st
  refine ⟨_, hacts, fun a ha => ?_⟩
  rcases List.mem_append.mp ha with ha | ha
  · obtain ⟨fd, -, rfl⟩ := List.mem_map.mp ha
    exact hclose fd
  · obtain rfl := List.mem_singleton.mp ha
    exact hput freed

lemma workerConnClose_adds (hclose : ∀ fd, P (.close fd)) (hput : ∀ freed, P (.poolPut freed))
    (st : St) : Adds P st st.workerConnClose :=
  connPoolPut_adds hclose hput
    { st with ws := { st.ws with activeConns := st.ws.activeConns - 1 } }

lemma workerConnClose_still (st : St) : Adds Act.still st st.workerConnClose :=
  workerConnClose_adds (fun _ => ⟨rfl, rfl⟩) (fun _ => ⟨rfl, rfl⟩) st

lemma workerConnClose_state (st : St) : st.workerConnClose.conn.state = .closing :=
  connPoolPut_state _

lemma connPoolPut_put (st : St) : ∃ freed, .poolPut freed ∈ st.connPoolPut.acts := by
  obtain ⟨fds, freed, hacts⟩ := connPoolPut_acts st
  exact ⟨freed, by simp [hacts]⟩

lemma workerConnClose_put (st : St) : ∃ freed, .poolPut freed ∈ st.workerConnClose.acts :=
  connPoolPut_put _

lemma finishProxy_state (st : St) (n : Ret) (fd : ℤ) :
    (st.finishProxy n fd).conn.state = .closing := workerConnClose_state _

lemma finishProxy_still (st : St) (n : Ret) (fd : ℤ) :
    Adds Act.still st (st.finishProxy n fd) := by
  have hunlink : Adds Act.still st (st.unlinkUpstream fd) := .of_acts_eq rfl
  exact (hunlink.trans (Stays.settleUpstream n fd).adds).trans (workerConnClose_still _)

/-! ### Events -/

/-- What an event does to the stream: it goes on, or it is over, and if the upstream's
end was read, what is left is what was in `upstream_rbuf` then. -/
def StreamsOn (st st' : St) : Prop :=
  Streams st st' [] ∨
    ((st'.conn.state = .closing ∧ ∃ freed, .poolPut freed ∈ st'.acts) ∧
      ∃ st1 ends, Streams st st1 ends ∧ (ends = [] ∨ ends = [bufBytes st1.conn.upstreamRbuf]) ∧
        Adds Act.still st1 st')

lemma upstreamReadPart_streamsOn (hwf : st.conn.upstreamRbuf.Wf) (fd : ℤ) :
    StreamsOn st (st.upstreamReadPart fd) := by
  have hread := Streams.upstreamLoop (onFd fd .err st.env.upstreamReads) hwf
  obtain ⟨n, st1, st2, hloop, hst2, hend⟩ := upstreamReadPart_cases st fd
  rw [hloop] at hread
  have hmod : Stays st1 st2 := by
    rcases hst2 with rfl | rfl
    · exact .refl _
    · exact .clientMod _
  rcases hend with ⟨-, heq⟩ | ⟨hn, heq⟩ <;> rw [heq]
  · refine Or.inr ⟨⟨finishProxy_state _ _ _, workerConnClose_put _⟩, st1, _, hread, ?_,
      hmod.adds.trans (finishProxy_still _ _ _)⟩
    split
    · exact Or.inr rfl
    · exact Or.inl rfl
  · rw [if_neg fun h => hn (Or.inl h)] at hread
    rcases hst2 with rfl | rfl
    · exact Or.inl hread
    · exact Or.inl (hread.trans (.clientMod hread.wf _))

lemma Streams.streamsOn (h1 : Streams st st' []) (h2 : StreamsOn st' st'') : StreamsOn st st'' := by
  rcases h2 with h2 | ⟨hstate, st1, ends, h2, hends, hstill⟩
  · exact Or.inl (h1.trans h2)
  · exact Or.inr ⟨hstate, st1, ends, h1.trans h2, hends, hstill⟩

lemma Forwards.streams {fd : ℤ} {ev : Events} (h : st.Forwards fd ev st')
    (hwf : st.conn.upstreamRbuf.Wf) : Streams st st' [] := by
  have hfwd : Streams st (st.forwardOnce fd).2 [] := .of_steady hwf (.forwardOnce fd) rfl
  rcases h with ⟨-, rfl⟩ | ⟨-, rfl | rfl⟩
  · exact .refl hwf
  · exact hfwd
  · exact hfwd.trans (.upstreamMod hfwd.wf _ _)

/-- **`proxy_on_upstream_event`** passes the response on in order, or gives the connection back. -/
lemma proxyOnUpstreamEvent_streamsOn (hwf : st.conn.upstreamRbuf.Wf) (fd : ℤ) (ev : Events) :
    StreamsOn st (st.proxyOnUpstreamEvent fd ev) := by
  have hfwd : Streams st (st.forwardOnce fd).2 [] := .of_steady hwf (.forwardOnce fd) rfl
  rcases proxyOnUpstreamEvent_parts st fd ev with heq | ⟨st1, -, hst1, heq⟩ <;> rw [heq]
  · refine Or.inr ⟨⟨workerConnClose_state _, workerConnClose_put _⟩, _, [], hfwd, Or.inl rfl, ?_⟩
    exact ((Stays.answerError _ _).trans .respondOnce).adds.trans (workerConnClose_still _)
  · have h1 := hst1.streams hwf
    split
    · exact h1.streamsOn (upstreamReadPart_streamsOn h1.wf fd)
    · exact Or.inl h1

/-! ### The client's events -/

/-- What a client's event does to the stream: unless the connection is given back, bytes
leave `upstream_rbuf`. -/
def Passes (st st' : St) : Prop :=
  ∃ as, st'.acts = st.acts ++ as ∧ eofs as = [] ∧
    ((∀ freed, .poolPut freed ∉ as) → st.conn.upstreamRbuf.Wf → st'.conn.upstreamRbuf.Wf ∧
      Flow (bufBytes st.conn.upstreamRbuf) (upstreamMoves as) (bufBytes st'.conn.upstreamRbuf))

namespace Passes

lemma trans (h1 : Passes st st') (h2 : Passes st' st'') : Passes st st'' := by
  obtain ⟨as, has, hends, hflow⟩ := h1
  obtain ⟨bs, hbs, hends', hflow'⟩ := h2
  refine ⟨as ++ bs, by rw [hbs, has, List.append_assoc], by rw [eofs_append, hends, hends']; rfl,
    fun hput hwf => ?_⟩
  simp only [List.mem_append, not_or] at hput
  obtain ⟨hwf', hflow⟩ := hflow (fun freed => (hput freed).1) hwf
  obtain ⟨hwf'', hflow'⟩ := hflow' (fun freed => (hput freed).2) hwf'
  rw [upstreamMoves_append]
  exact ⟨hwf'', hflow.trans hflow'⟩

/-- An operation that leaves `upstream_rbuf` alone. -/
lemma of_same (h : Adds Act.still st st') (hrbuf : st'.conn.upstreamRbuf = st.conn.upstreamRbuf) :
    Passes st st' := by
  obtain ⟨as, has, hstill⟩ := h
  refine ⟨as, has, eofs_of_still hstill, fun _ hwf => ?_⟩
  rw [upstreamMoves_of_still hstill, hrbuf]
  exact ⟨hwf, .refl _⟩

lemma relay (st : St) : Passes st st.relay :=
  ⟨[_], rfl, rfl, fun _ hwf => by
    obtain ⟨hwf', hbytes⟩ := bufWriteLoop_spec hwf (onFd st.conn.fd .err st.env.clientWrites)
    refine ⟨hwf', ?_⟩
    rw [← hbytes]
    exact .leave _ _⟩

lemma connPoolPut (st : St) : Passes st st.connPoolPut := by
  obtain ⟨fds, freed, hacts⟩ := connPoolPut_acts st
  refine ⟨_, hacts, by simp [eofs, List.filterMap_map, Act.eof], fun hput => ?_⟩
  exact absurd (by simp) (hput freed)

/-- **What an event does is the same for all handlers of the client.** -/
lemma covers : Covers Passes where
  trans := trans
  stays h := of_same h.adds h.upstreamRbuf
  readClient _ := of_same Steady.readClient.adds rfl
  readTunnel _ := of_same Steady.readTunnel.adds rfl
  forwardAll _ fd := of_same (Steady.forwardAll fd).adds rfl
  mapLoop _ _ := of_same (.of_acts_eq rfl) rfl
  relay := relay
  startProxy _ _ _ _ _ := of_same (.of_acts_eq rfl) rfl
  takeRequest _ _ _ := of_same (.of_acts_eq rfl) rfl
  connPoolPut := connPoolPut
  workerConnClose _ := connPoolPut _

end Passes

end St

/-! ### Runs -/

namespace Life

/-- The object was not given back so far. -/
def Held (l : Life) : Prop := ∀ freed, .poolPut freed ∉ l.acts

instance (l : Life) : Decidable l.Held :=
  inferInstanceAs (Decidable (∀ freed, .poolPut freed ∉ l.acts))

/-- The object serves its client: any event of the client or of the upstream. -/
def Serving (l : Life) : Use → Prop
  | .get _ _ => False
  | _ => l.Held

/-- While the object serves, what was there, or was read, and was not relayed is in
`upstream_rbuf`; when the upstream's end is read, it is what was left. -/
structure InFlight (old : List UInt8) (l : Life) : Prop where
  pending : l.Held → l.conn.upstreamRbuf.Wf ∧ eofs l.acts = [] ∧
    Flow old (upstreamMoves l.acts) (bufBytes l.conn.upstreamRbuf)
  ended : ∀ left ∈ eofs l.acts, Flow old (upstreamMoves l.acts) left

variable {l : Life} {c : ConnId} {old : List UInt8}

lemma inFlight_start {conn : Conn} (hwf : conn.upstreamRbuf.Wf) :
    InFlight (bufBytes conn.upstreamRbuf) ⟨conn, []⟩ :=
  ⟨fun _ => ⟨hwf, rfl, .refl _⟩, by simp⟩

lemma InFlight.passes (h : l.InFlight old) (hheld : l.Held) (ws : WorkerState) (env : Env)
    (f : St → St) (hf : St.Passes ⟨c, l.conn, ws, env, []⟩ (f ⟨c, l.conn, ws, env, []⟩)) :
    (l.handle c ws env f).InFlight old := by
  obtain ⟨hwf, heofs, hflow⟩ := h.pending hheld
  obtain ⟨as, has, hends, hflow'⟩ := hf
  rw [List.nil_append] at has
  have hall : eofs (l.handle c ws env f).acts = [] := by
    simp [Life.handle, has, heofs, hends]
  refine ⟨fun hheld' => ?_, by simp [hall]⟩
  have hput : ∀ freed, .poolPut freed ∉ as := fun freed hmem =>
    hheld' freed (by simp [Life.handle, has, hmem])
  obtain ⟨hwf', hflow'⟩ := hflow' hput hwf
  refine ⟨hwf', hall, ?_⟩
  simp only [Life.handle, has, upstreamMoves_append]
  exact hflow.trans hflow'

lemma InFlight.streamsOn (h : l.InFlight old) (hheld : l.Held) (ws : WorkerState) (env : Env)
    (f : St → St) (hf : St.StreamsOn ⟨c, l.conn, ws, env, []⟩ (f ⟨c, l.conn, ws, env, []⟩)) :
    (l.handle c ws env f).InFlight old := by
  obtain ⟨hwf, heofs, hflow⟩ := h.pending hheld
  rcases hf with hs | ⟨⟨-, freed, hput⟩, st1, ends, hs, hends, bs, hbs, hstill⟩
  · obtain ⟨as, has, hends, hflow'⟩ := hs.acts
    rw [List.nil_append] at has
    have hall : eofs (l.handle c ws env f).acts = [] := by
      simp [Life.handle, has, heofs, hends]
    refine ⟨fun _ => ⟨hs.wf, hall, ?_⟩, by simp [hall]⟩
    simp only [Life.handle, has, upstreamMoves_append]
    exact hflow.trans hflow'
  · obtain ⟨as, has, heofs', hflow'⟩ := hs.acts
    rw [List.nil_append] at has
    refine ⟨fun hheld' => ?_, fun left hleft => ?_⟩
    · exact absurd (List.mem_append_right _ hput) (hheld' freed)
    · simp only [Life.handle, hbs, has, eofs_append, heofs, heofs', eofs_of_still hstill,
        upstreamMoves_append, upstreamMoves_of_still hstill, List.append_nil, List.nil_append]
        at hleft ⊢
      rcases hends with rfl | rfl
      · simp at hleft
      · obtain rfl := List.mem_singleton.mp hleft
        exact hflow.trans hflow'

/-- **Every event keeps the bytes in flight.** -/
lemma InFlight.step (h : l.InFlight old) {u : Use} (hu : l.Serving u) :
    (l.step c u).InFlight old := by
  cases u with
  | client ws env ev =>
    exact h.passes hu ws env (fun st => st.onClientEvent ev)
      (St.Passes.covers.onClientEvent _ ev)
  | upstream ws env fd ev =>
    exact h.streamsOn hu ws env (fun st => st.proxyOnUpstreamEvent fd ev)
      (St.proxyOnUpstreamEvent_streamsOn (h.pending hu).1 fd ev)
  | get fd peer => exact hu.elim

end Life

/-- The bytes that were read from the upstream. -/
def readBytes (as : List Act) : List UInt8 := Queue.entered (upstreamMoves as)

/-- The bytes of the upstream that were written to the client. -/
def relayedBytes (as : List Act) : List UInt8 := Queue.left (upstreamMoves as)

/-- **When the upstream's end is read, the client has got every byte of the response, in
order and once, behind what was in `upstream_rbuf` before, if and only if nothing is left
there.** -/
theorem relayed_at_end_iff (c : ConnId) (conn : Conn) (hwf : conn.upstreamRbuf.Wf) (us : List Use)
    (hus : Run.Along (Life.step c) Life.Serving ⟨conn, []⟩ us) (left : List UInt8)
    (hleft : left ∈ eofs (Run.run (Life.step c) ⟨conn, []⟩ us).acts) :
    relayedBytes (Run.run (Life.step c) ⟨conn, []⟩ us).acts =
        bufBytes conn.upstreamRbuf ++ readBytes (Run.run (Life.step c) ⟨conn, []⟩ us).acts ↔
      left = [] := by
  have hrun := hus.invariant (fun _ _ h hu => h.step hu) (Life.inFlight_start hwf)
  exact (hrun.ended left hleft).left_eq_iff

/-! ### Two runs -/

/-- A connection whose request was handed to the backend, on descriptor 5. -/
def proxiedConn : Conn :=
  (((⟨0, connCreate 4096 4 ⟨127, 0, 0, 1⟩, backendWorker.ws, idleEnv, []⟩ : St).noteCache
    pageRequest 0).startProxy pageRequest 0 0 5).conn

lemma proxiedConn_wf : proxiedConn.upstreamRbuf.Wf := by
  have hnote : St.Stays ⟨0, connCreate 4096 4 ⟨127, 0, 0, 1⟩, backendWorker.ws, idleEnv, []⟩ _ :=
    .noteCache pageRequest 0
  exact hnote.upstreamRbuf ▸ (connCreate_bufsWf 4096 4 ⟨127, 0, 0, 1⟩).upstreamRbuf

/-- The backend answers and closes; the client's socket takes so many writes. -/
def answeredRun (writes : List SysWrite) : List Use :=
  [.upstream backendWorker.ws { idleEnv with
    upstreamReads := [.data (bytes "HTTP/1.1 200 OK"), .data []]
    clientWrites := writes
    reallocs := [true, true] } 5 inEvent]

lemma answeredRun_serving (writes : List SysWrite) :
    Run.Along (Life.step 0) Life.Serving ⟨proxiedConn, []⟩ (answeredRun writes) :=
  ⟨fun _ => List.not_mem_nil, trivial⟩

/-- The client takes the response at once, and all that was read from the upstream is relayed. -/
theorem relayed_at_end_iff_answeredRun :
    relayedBytes (Run.run (Life.step 0) ⟨proxiedConn, []⟩ (answeredRun [.wrote 65536])).acts =
      bufBytes proxiedConn.upstreamRbuf ++
        readBytes (Run.run (Life.step 0) ⟨proxiedConn, []⟩ (answeredRun [.wrote 65536])).acts :=
  (relayed_at_end_iff 0 proxiedConn proxiedConn_wf _ (answeredRun_serving _) []
    (by decide +kernel)).mpr rfl

/-- **A response that is cut off.** The client's socket is full when the upstream closes,
and the connection is closed with the bytes that wait for it. -/
theorem answeredRun_truncated :
    Run.Along (Life.step 0) Life.Serving ⟨proxiedConn, []⟩ (answeredRun [.again]) ∧
      bufBytes proxiedConn.upstreamRbuf = [] ∧
      eofs (Run.run (Life.step 0) ⟨proxiedConn, []⟩ (answeredRun [.again])).acts =
        [bytes "HTTP/1.1 200 OK"] ∧
      relayedBytes (Run.run (Life.step 0) ⟨proxiedConn, []⟩ (answeredRun [.again])).acts ≠
        readBytes (Run.run (Life.step 0) ⟨proxiedConn, []⟩ (answeredRun [.again])).acts :=
  ⟨answeredRun_serving _, by decide +kernel, by decide +kernel, by decide +kernel⟩

end Nproxy
