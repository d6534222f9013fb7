import Nproxy.Proc.Outcomes
import Nproxy.Proc.Segments

/-!
A connection between two events, and what its client was told last.

* `heard`: what the last head of the program's own said about the connection, after an event.
  A request that an upstream or the cache answers leaves nothing to say.
* `Calm`: what holds of a connection between two events. What was said is what `keep_alive`
  is; after `Connection: close` there is a response to be written; and while there is one, the
  loop does not ask for reads.
* `onClientEvent_told`: an event of the client keeps that, or the connection is given back,
  and then not in spite of what was said, unless the event cuts the connection short
  (`Interrupts`).
-/

namespace Nproxy

/-- An action that neither takes a request, nor rejects one, nor looks in the cache. -/
def Act.mute (a : Act) : Bool := !a.decides && !a.looksUp

/-- The connection `c` between two events. -/
structure Calm (l : EventLoop) (c : ConnId) (conn : Conn) (said : Option Bool) : Prop where
  settled : conn.state.Settled
  sound : conn.wbuf.Sound
  linked : conn.state.Relayed → 0 ≤ conn.upstreamFd
  word : ∀ b, said = some b → conn.keepAlive = b ∧ conn.upstreamFd < 0
  due : said = some false → 0 < bufReadable conn.wbuf
  busy : 0 < bufReadable conn.wbuf → conn.upstreamFd < 0
  deaf : 0 < bufReadable conn.wbuf → ∀ m, l.handlers conn.fd = some ⟨.client c, conn.fd⟩ →
    l.interest conn.fd = some m → m.read = false

/-- The loop spares the registrations of the connection. -/
lemma Calm.spared {l l' : EventLoop} {c : ConnId} {conn : Conn} {said : Option Bool}
    (h : Calm l c conn said)
    (hspared : ∀ fd, l'.handlers fd = some ⟨.client c, fd⟩ → l.Spared l' fd ⟨.client c, fd⟩) :
    Calm l' c conn said := by
  refine ⟨h.settled, h.sound, h.linked, h.word, h.due, h.busy, fun hleft m hm hi => ?_⟩
  obtain ⟨hreg, hsame⟩ := hspared _ hm
  cases hsame with
  | inl hsame => exact h.deaf hleft m hreg (hsame ▸ hi)
  | inr hnone => simp [hnone] at hi

namespace St

variable {st st1 st' st'' : St} {said : Option Bool} {ev : Events}

/-! ### What an event says -/

/-- What the last head said, after a client's event that has led to `st'`. -/
def heard (st st' : St) (said : Option Bool) : Option Bool :=
  match decision st'.acts with
  | some .reject => some false
  | some (.dispatch req) =>
    if st'.conn.state.Relayed ∨ FromCache st st' then none else some req.keepAlive
  | _ => said

/-- Nothing is done about the client's stream. -/
def Mute (st st' : St) : Prop := ∃ as, st'.acts = st.acts ++ as ∧ as.all Act.mute = true

lemma Mute.refl (st : St) : Mute st st := ⟨[], by simp, rfl⟩

lemma Mute.trans (h1 : Mute st st') (h2 : Mute st' st'') : Mute st st'' := by
  obtain ⟨as, has, hmute⟩ := h1
  obtain ⟨bs, hbs, hmute'⟩ := h2
  exact ⟨as ++ bs, by rw [hbs, has, List.append_assoc], by rw [List.all_append, hmute, hmute']; rfl⟩

lemma Mute.put (st : St) : Mute st st.connPoolPut := by
  obtain ⟨fds, freed, hacts⟩ := connPoolPut_acts st
  refine ⟨_, hacts, ?_⟩
  simp [Act.mute, Act.decides, Act.looksUp]

lemma Mute.close (st : St) : Mute st st.workerConnClose :=
  Mute.put { st with ws := { st.ws with activeConns := st.ws.activeConns - 1 } }

lemma Mute.handleWrite (hstate : st.conn.state ≠ .sendfile) : Mute st st.handleWrite := by
  have hrespond : Mute st st.respond := ⟨[.respond _], rfl, rfl⟩
  have houtcome := handleWrite_outcome hstate
  generalize st.handleWrite = st' at houtcome ⊢
  cases houtcome with
  | relay events _ => exact ⟨[.relay _], rfl, rfl⟩
  | last _ _ _ => exact hrespond.trans (.put _)
  | next _ _ _ => exact hrespond
  | waits _ _ => exact hrespond

lemma Mute.afterDispatch (st : St) : Mute st st.afterDispatch := by
  have hrespond : Mute st st.respond := ⟨[.respond _], rfl, rfl⟩
  have houtcome := afterDispatch_outcome st
  generalize st.afterDispatch = st' at houtcome ⊢
  cases houtcome with
  | handed _ => exact .refl st
  | last _ _ _ => exact hrespond.trans (.put _)
  | next _ _ _ => exact hrespond
  | waits _ _ => exact hrespond

lemma Mute.tunnelRead (st : St) : Mute st st.tunnelRead := by
  have hread : Mute st st.readTunnel.2 := ⟨[.clientRead _], rfl, rfl⟩
  rw [St.tunnelRead]
  split
  rename_i n st1 heq
  rw [heq] at hread
  split
  · exact hread.trans (.close _)
  · split
    · have hfwd : Mute st1 (st1.forwardAll st1.conn.upstreamFd) := ⟨[.forward _], rfl, rfl⟩
      simp only
      split <;> exact hread.trans hfwd
    · exact hread

/-- What follows does not change what was decided. -/
lemma Mute.decision_eq (h : Mute st st') : decision st'.acts = decision st.acts := by
  obtain ⟨as, has, hmute⟩ := h
  have hnone : decision as = none := by
    rw [decision, List.find?_eq_none]
    intro a ha
    have hmute := List.all_eq_true.mp hmute a ha
    rw [Act.mute, Bool.and_eq_true, Bool.not_eq_true'] at hmute
    simp [hmute.1]
  rw [has, decision_append, hnone, Option.or_none]

lemma Mute.mem_dispatch (h : Mute st st') {req : HttpRequest} (hreq : .dispatch req ∈ st'.acts) :
    .dispatch req ∈ st.acts := by
  obtain ⟨as, has, hmute⟩ := h
  rw [has] at hreq
  refine (List.mem_append.mp hreq).resolve_right fun hmem => ?_
  exact absurd (List.all_eq_true.mp hmute _ hmem) Bool.false_ne_true

lemma Mute.looked_eq (h : Mute st st') : st'.looked = st.looked := by
  obtain ⟨as, has, hmute⟩ := h
  refine looked_append as has ?_
  rw [List.any_eq_false]
  intro a ha
  have hmute := List.all_eq_true.mp hmute a ha
  rw [Act.mute, Bool.and_eq_true, Bool.not_eq_true', Bool.not_eq_true'] at hmute
  simp [hmute.2]

/-- An event in which nothing is done says nothing. -/
lemma Mute.heard_eq (h : Mute st st') (hacts : st.acts = []) : heard st st' said = said := by
  rw [heard, h.decision_eq, hacts]
  rfl

/-- What is done afterwards is not heard, if no request was taken. -/
lemma Mute.heard_trans (h : Mute st' st'')
    (hnot : ∀ req, decision st'.acts ≠ some (.dispatch req)) :
    heard st st'' said = heard st st' said := by
  rw [heard, heard, h.decision_eq]
  split
  · rfl
  · rename_i req hreq
    exact absurd hreq (hnot req)
  · rfl

/-! ### Steps that keep the calm -/

/-- The connection goes on, and is calm again. -/
structure Lives (st st' : St) (said : Option Bool) : Prop where
  kept : Kept st st'
  spares : Spares st st'
  calm : Calm st'.ws.loop st'.self st'.conn said

lemma Lives.trans {said' : Option Bool} (h1 : Lives st st' said') (h2 : Lives st' st'' said) :
    Lives st st'' said :=
  ⟨h1.kept.trans h2.kept, h1.spares.trans h2.spares, h2.calm⟩

/-- The response is left alone, and there is none to be written. -/
lemma Idles.lives (h : Idles st st') (hcalm : Calm st.ws.loop st.self st.conn said)
    (hempty : bufReadable st.conn.wbuf = 0) : Lives st st' said := by
  have hempty' : ¬0 < bufReadable st'.conn.wbuf := by
    rw [h.wbuf, hempty]
    exact lt_irrefl 0
  refine ⟨h.kept, h.tends.toSpares, ?_, h.tends.wbuf hcalm.sound, ?_, ?_, ?_, ?_, ?_⟩
  · rw [h.state]
    exact hcalm.settled
  · rw [h.state, h.upstreamFd]
    exact hcalm.linked
  · rw [h.tends.keepAlive, h.upstreamFd]
    exact hcalm.word
  · rw [h.wbuf]
    exact hcalm.due
  · exact fun hleft => absurd hleft hempty'
  · exact fun hleft => absurd hleft hempty'

/-- A buffer with nothing to write has nothing to write afterwards. -/
lemma bufReadable_respond (h : st.conn.wbuf.Sound)
    (hleft : 0 < bufReadable st.respond.conn.wbuf) : 0 < bufReadable st.conn.wbuf := by
  obtain ⟨hwf, hbytes⟩ := bufWriteLoop_spec h.wf (onFd st.conn.fd .err st.env.clientWrites)
  rw [← length_bufBytes h.wf, ← hbytes, List.length_append]
  rw [respond, ← length_bufBytes hwf] at hleft
  exact Nat.lt_add_left _ hleft

/-- While there is a response to be written, no upstream answers. -/
lemma Calm.not_relayed {l : EventLoop} {c : ConnId} {conn : Conn} (h : Calm l c conn said)
    (hleft : 0 < bufReadable conn.wbuf) : ¬conn.state.Relayed := by
  intro hrelayed
  have h0 := h.linked hrelayed
  have hneg := h.busy hleft
  omega

/-- **`handle_write`**: the connection is calm again, or its last response is out. -/
lemma handleWrite_calm (hfd : 0 ≤ st.conn.fd) (hcalm : Calm st.ws.loop st.self st.conn said) :
    Lives st st.handleWrite said ∨
      (GivesBack st st.handleWrite ∧ st.conn.keepAlive = false) := by
  have hsound : st.respond.conn.wbuf.Sound := Tends.respond.wbuf hcalm.sound
  have houtcome := handleWrite_outcome hcalm.settled.2
  generalize st.handleWrite = st' at houtcome ⊢
  cases houtcome with
  | relay events hstate =>
    refine Or.inl ((Idles.relay.trans (.clientMod events)).lives hcalm ?_)
    exact Nat.eq_zero_of_not_pos fun hleft => Calm.not_relayed hcalm hleft hstate
  | last hstate hout hkeep =>
    exact Or.inr ⟨Serves.respond.put hfd, hkeep.resolve_left hcalm.settled.1⟩
  | next hstate hout hkeep =>
    have hserves : Serves st st.respond.nextRequest := Serves.respond.trans .nextRequest
    have hempty : ¬0 < bufReadable st.respond.nextRequest.conn.wbuf := by
      rw [not_lt, Nat.le_zero]
      exact hout
    refine Or.inl ⟨hserves.kept, hserves.tends.toSpares, ?_, hsound, ?_, hcalm.word, ?_,
      fun hleft => absurd hleft hempty, fun hleft => absurd hleft hempty⟩
    · rw [nextRequest_state]
      decide
    · intro hrelayed
      rw [nextRequest_state] at hrelayed
      exact absurd hrelayed (by decide)
    · intro hsaid
      exact absurd ((hcalm.word false hsaid).1.symm.trans hkeep) (by decide)
  | waits hstate hleft =>
    have hbefore := bufReadable_respond hcalm.sound hleft
    exact Or.inl ⟨Serves.respond.kept, Tends.respond.toSpares, hcalm.settled, hsound,
      hcalm.linked, hcalm.word, fun _ => hleft, fun _ => hcalm.busy hbefore,
      fun _ => hcalm.deaf hbefore⟩

/-! ### `handle_read` -/

/-- A loop that has a record for the client's descriptor reaches that far. -/
def InRange (st : St) : Prop :=
  ∀ h, st.ws.loop.handlers st.conn.fd = some h → st.conn.fd < st.ws.loop.maxFd

lemma InRange.kept (h : st.InRange) (hkept : Kept st st') : st'.InRange := by
  intro r hr
  rcases hkept.handlers _ r hr with hr | hown
  · rw [hkept.fd, hkept.maxFd]
    exact h r (hkept.fd ▸ hr)
  · exact hown.1

/-- Once the loop is to wait for writes, it does not report reads. -/
lemma clientMod_deaf (h : st.InRange) {m : Events}
    (hm : (st.clientMod evW).ws.loop.handlers st.conn.fd = some ⟨.client st.self, st.conn.fd⟩)
    (hi : (st.clientMod evW).ws.loop.interest st.conn.fd = some m) : m.read = false := by
  simp only [clientMod, mapLoop, eventLoopMod] at hm hi
  by_cases hmax : st.conn.fd ≥ st.ws.loop.maxFd
  · rw [if_pos hmax] at hm
    exact absurd hmax (not_le.mpr (h _ hm))
  · rw [if_neg hmax] at hi
    split at hi <;> rename_i hsome
    · simp only [Function.update_self] at hi
      rw [← Option.some.inj hi]
      rfl
    · rw [hi] at hsome
      simp at hsome

/-- A response is left to be written, and the loop is to wait for that. -/
lemma calm_of_waits (hrange : st.InRange) (hstate : st.conn.state = .writingResponse)
    (hsound : st.conn.wbuf.Sound) (hleft : 0 < bufReadable st.conn.wbuf)
    (hfd : st.conn.upstreamFd < 0) (hword : ∀ b, said = some b → st.conn.keepAlive = b) :
    Calm (st.clientMod evW).ws.loop (st.clientMod evW).self (st.clientMod evW).conn said := by
  have hstate' : (st.clientMod evW).conn.state = .writingResponse := hstate
  refine ⟨?_, hsound, ?_, fun b hb => ⟨hword b hb, hfd⟩, fun _ => hleft, fun _ => hfd,
    fun _ m hm hi => clientMod_deaf hrange hm hi⟩
  · rw [hstate']
    decide
  · rw [hstate']
    exact fun h => absurd h (by decide)

/-- The client's buffers take the answer to a request that cannot be parsed. -/
lemma bufReadable_badRequest {b : NpBuf} (h : b.Ready) :
    0 < bufReadable (responseWriteError b 400 false) := by
  have hpage : (errorPage 400).length ≤ 2047 := by decide +kernel
  have hreason : (decimal 400).length + (bytes (statusReason 400)).length ≤ 24 := by decide +kernel
  have hhead := length_responseHead_le 400 (bytes (statusReason 400)) (bytes "text/html")
    (show (errorPage 400).length < 2 ^ 63 by omega) false
  have htype : (bytes "text/html").length = 9 := rfl
  have hsize : npWriteBufSize = 131072 := rfl
  have hsound : (responseWriteError b 400 false).Sound := h.toSound.error 400 false
  rw [← length_bufBytes hsound.wf, responseWriteError, h.bufBytes_put_put (by omega), responseHead,
    responseHeadText]
  exact Nat.lt_of_lt_of_le (by decide : 0 < (bytes "HTTP/1.1 ").length) (by simp)

/-- **What is no request** is answered with an error that says `close`. -/
lemma rejected_calm {status : ℕ}
    (hpage : ∀ b : NpBuf, b.Ready → 0 < bufReadable (responseWriteError b status false))
    (hrange : st.InRange) (hcalm : Calm st.ws.loop st.self st.conn said)
    (hempty : bufReadable st.conn.wbuf = 0) (hkeep : st.conn.keepAlive = false)
    (hfd : st.conn.upstreamFd < 0) :
    Lives st (((st.readClient.2.act .reject).answerError status false).clientMod evW)
      (some false) := by
  have hread : Idles st st.readClient.2 := .readClient
  have hanswer : Serves st ((st.readClient.2.act .reject).answerError status false) :=
    ⟨hread.kept.trans ((Stays.act rfl rfl).trans (.answerError _ _)).kept,
      hread.tends.trans ((Tends.act _).trans (.answerError _ _))⟩
  refine ⟨hanswer.kept.trans (Stays.clientMod _).kept,
    (hanswer.tends.trans (.clientMod _)).toSpares, ?_⟩
  refine calm_of_waits (hrange.kept hanswer.kept) rfl (hanswer.tends.wbuf hcalm.sound) ?_ hfd ?_
  · exact hpage _ ⟨hcalm.sound, hempty⟩
  · intro b hb
    rw [← Option.some.inj hb]
    exact hkeep

lemma rejected_state (st : St) (status : ℕ) :
    (((st.readClient.2.act .reject).answerError status false).clientMod evW).conn.state =
      .writingResponse := rfl

lemma rejected_acts (st : St) (status : ℕ) :
    (((st.readClient.2.act .reject).answerError status false).clientMod evW).acts =
      st.acts ++ [.clientRead (bufReadLoop st.conn.rbuf
        (onFd st.conn.fd .err st.env.clientReads)).got, .reject] := by
  simp [clientMod, mapLoop, answerError, onWbuf, setState, mapConn, act, readClient]

lemma rejected_decision (hacts : st.acts = []) (status : ℕ) :
    decision (((st.readClient.2.act .reject).answerError status false).clientMod evW).acts =
      some .reject := by
  rw [rejected_acts, hacts]
  rfl

/-- What was decided about the client's stream, in an event that takes a request. -/
lemma served_decision (hacts : st.acts = []) :
    decision st.served.acts = some (.dispatch st.parsedRequest) := by
  obtain ⟨as, has⟩ := handlerDispatch_acts st.taking st.parsedRequest
  have htaking : st.taking.acts = st.acts ++ [.clientRead (bufReadLoop st.conn.rbuf
    (onFd st.conn.fd .err st.env.clientReads)).got] := rfl
  rw [served, has, decision_append, htaking, hacts]
  rfl

/-- The head of a request that the program answers itself says what the request asks for. -/
lemma heard_of_served (hacts : st.acts = []) (hmute : Mute st.served st') :
    heard st st' said =
      if st'.conn.state.Relayed ∨ FromCache st.taking st.served then none
      else some st.parsedRequest.keepAlive := by
  have hcache : FromCache st st' ↔ FromCache st.taking st.served := by
    rw [FromCache, FromCache, hmute.looked_eq]
    rfl
  rw [heard, hmute.decision_eq, served_decision hacts]
  simp only [hcache]

lemma served_disposes (hacts : st.acts = []) :
    Disposes st.parsedRequest.keepAlive st.taking st.served := by
  have htaking : st.taking.acts = st.acts ++ [.clientRead (bufReadLoop st.conn.rbuf
    (onFd st.conn.fd .err st.env.clientReads)).got] := rfl
  refine handlerDispatch_disposes ?_ _
  rw [looked, htaking, hacts]
  rfl

/-- How a request is disposed of: there is an upstream if one answers, and otherwise there is
none, as before. -/
lemma served_upstreamFd (hacts : st.acts = []) (hup : st.conn.upstreamFd < 0) :
    (st.served.conn.state.Relayed → 0 ≤ st.served.conn.upstreamFd ∧
      st.served.conn.wbuf = st.conn.wbuf) ∧
    (¬st.served.conn.state.Relayed → st.served.conn.upstreamFd < 0) := by
  cases served_disposes hacts with
  | own _ hstate hfd _ =>
    exact ⟨fun h => absurd h hstate, fun _ => by rw [hfd]; exact hup⟩
  | cached hstate hfd _ =>
    exact ⟨fun h => absurd h hstate, fun _ => by rw [hfd]; exact hup⟩
  | handed hstate hfd hwbuf => exact ⟨fun _ => ⟨hfd, hwbuf⟩, fun h => absurd hstate h⟩

/-- **A request is taken**, and the connection goes on as its client was told, or is given back. -/
lemma served_calm (hacts : st.acts = []) (hfd : 0 ≤ st.conn.fd) (hrange : st.InRange)
    (hcalm : Calm st.ws.loop st.self st.conn said) (hempty : bufReadable st.conn.wbuf = 0)
    (hup : st.conn.upstreamFd < 0) :
    Lives st st.served.afterDispatch (heard st st.served.afterDispatch said) ∨
      (GivesBack st st.served.afterDispatch ∧
        heard st st.served.afterDispatch said ≠ some true) := by
  have hkept := served_kept hup
  have haside := served_aside st
  have hsound := served_wbuf hcalm.sound
  obtain ⟨hhanded, hown⟩ := served_upstreamFd hacts hup
  have hheard : ∀ said, heard st st.served.afterDispatch said = _ := fun _ =>
    heard_of_served hacts (.afterDispatch st.served)
  have hword : ∀ b, heard st st.served.afterDispatch said = some b →
      st.served.conn.keepAlive = b := by
    intro b hb
    rw [hheard] at hb
    split at hb
    · simp at hb
    · rw [served_keepAlive]
      exact Option.some.inj hb
  have hnone : st.served.afterDispatch.conn.state.Relayed →
      heard st st.served.afterDispatch said = none := by
    intro hrelayed
    rw [hheard, if_pos (Or.inl hrelayed)]
  -- from here on it does not matter how the word was given
  generalize heard st st.served.afterDispatch said = said' at hword hnone ⊢
  clear hheard
  have houtcome := afterDispatch_outcome st.served
  generalize st.served.afterDispatch = st' at houtcome hnone ⊢
  cases houtcome with
  | handed hstate =>
    obtain ⟨h0, hwbuf⟩ := hhanded hstate
    have hempty' : ¬0 < bufReadable st.served.conn.wbuf := by
      rw [hwbuf, hempty]
      exact lt_irrefl 0
    have hsaid := hnone hstate
    exact Or.inl ⟨hkept, haside.toSpares, hstate.settled, hsound, fun _ => h0,
      by simp [hsaid], by simp [hsaid], fun hleft => absurd hleft hempty',
      fun hleft => absurd hleft hempty'⟩
  | last hstate hout hkeep =>
    refine Or.inr ⟨.of_put hfd (hkept.trans Serves.respond.kept)
      (haside.trans Tends.respond.toAside) fun _ => Tends.respond.wbuf hsound, fun htrue => ?_⟩
    exact absurd ((hword true htrue).symm.trans hkeep) (by decide)
  | next hstate hout hkeep =>
    have hserves : Serves st.served st.served.respond.nextRequest :=
      Serves.respond.trans .nextRequest
    have hempty' : ¬0 < bufReadable st.served.respond.nextRequest.conn.wbuf := by
      rw [not_lt, Nat.le_zero]
      exact hout
    refine Or.inl ⟨hkept.trans hserves.kept, haside.toSpares.trans hserves.tends.toSpares, ?_,
      hserves.tends.wbuf hsound, ?_, fun b hb => ⟨hword b hb, hown hstate⟩, ?_,
      fun hleft => absurd hleft hempty', fun hleft => absurd hleft hempty'⟩
    · rw [nextRequest_state]
      decide
    · rw [nextRequest_state]
      exact fun h => absurd h (by decide)
    · intro hfalse
      exact absurd ((hword false hfalse).symm.trans hkeep) (by decide)
  | waits hstate hleft =>
    have hkept' : Kept st (st.served.respond.setState .writingResponse) :=
      hkept.trans (Stays.respond.trans (.setState (by decide))).kept
    have htends : Tends st.served ((st.served.respond.setState .writingResponse).clientMod evW) :=
      (Tends.respond.trans (.setState _)).trans (.clientMod _)
    refine Or.inl ⟨hkept'.trans (Stays.clientMod _).kept, haside.toSpares.trans htends.toSpares,
      calm_of_waits (hrange.kept hkept') rfl ?_ hleft (hown hstate) hword⟩
    exact Tends.respond.wbuf hsound

/-- **`handle_read`**, when there is no response to be written. If what is read is no request,
the connection must not be one that is kept, nor have an upstream. -/
lemma handleRead_calm (hacts : st.acts = []) (hfd : 0 ≤ st.conn.fd) (hrange : st.InRange)
    (hcalm : Calm st.ws.loop st.self st.conn said) (hempty : bufReadable st.conn.wbuf = 0)
    (hup : st.Completes → st.conn.upstreamFd < 0)
    (hrejects : st.Rejects → st.conn.keepAlive = false ∧ st.conn.upstreamFd < 0) :
    Lives st st.handleRead (heard st st.handleRead said) ∨
      (GivesBack st st.handleRead ∧ (st.ReadFails ∨ st.Completes) ∧
        (heard st st.handleRead said = some true →
          st.ReadFails ∨ (st.Completes ∧ st.NoMemory))) := by
  have hread : Idles st st.readClient.2 := .readClient
  have hreadMute : Mute st st.readClient.2 := ⟨[.clientRead _], rfl, rfl⟩
  have houtcome := handleRead_outcome st
  generalize st.handleRead = st' at houtcome ⊢
  cases houtcome with
  | tunnel hstate =>
    rw [(Mute.tunnelRead st).heard_eq hacts]
    rcases tunnelRead_goes hfd hstate (hcalm.linked (Or.inr hstate)) with h | ⟨hfails, h⟩
    · exact Or.inl (h.lives hcalm hempty)
    · exact Or.inr ⟨h.toGivesBack, Or.inl hfails, fun _ => Or.inl hfails⟩
  | fails hstate hfails =>
    exact Or.inr ⟨hread.toServes.put hfd, Or.inl hfails, fun _ => Or.inl hfails⟩
  | idle hstate =>
    rw [hreadMute.heard_eq hacts]
    exact Or.inl (hread.lives hcalm hempty)
  | rejects hrej =>
    obtain ⟨hkeep, hneg⟩ := hrejects hrej
    have hheard : heard st (((st.readClient.2.act .reject).answerError 400 false).clientMod evW)
        said = some false := by
      rw [heard, rejected_decision hacts]
    rw [hheard]
    exact Or.inl (rejected_calm (fun _ => bufReadable_badRequest) hrange hcalm hempty hkeep hneg)
  | noMemory hcompletes hmem =>
    refine Or.inr ⟨?_, Or.inr hcompletes, fun _ => Or.inr ⟨hcompletes, hmem⟩⟩
    exact .of_put hfd (hread.kept.trans (Stays.alloc _ _).kept)
      (hread.tends.trans (.alloc _ _)).toAside fun h => h
  | takes hcompletes hmem =>
    refine (served_calm hacts hfd hrange hcalm hempty (hup hcompletes)).imp_right fun h => ?_
    exact ⟨h.1, Or.inr hcompletes, fun htrue => absurd htrue h.2⟩

/-! ### `on_client_event` -/

/-- The connection may be given back in spite of what was said. -/
def Interrupts (st : St) (ev : Events) : Prop :=
  (ev.hup = true ∨ ev.err = true) ∨
    (ev.read = true ∧ (st.ReadFails ∨ (st.Completes ∧ st.NoMemory)))

/-- An event that is no read does nothing about the client's stream. -/
lemma Mute.onClientEvent (hstate : st.conn.state ≠ .sendfile) (hread : ev.read = false) :
    Mute st (st.onClientEvent ev) := by
  rw [St.onClientEvent]
  split
  · exact .put st
  · simp only [hread, Bool.false_eq_true, if_false]
    split
    · exact .handleWrite hstate
    · exact .refl st

/-- A request is dispatched in one place. -/
lemma handleRead_takes (hacts : st.acts = []) {req : HttpRequest}
    (hreq : .dispatch req ∈ st.handleRead.acts) :
    st.Completes ∧ st.handleRead = st.served.afterDispatch := by
  have hread : Mute st st.readClient.2 := ⟨[.clientRead _], rfl, rfl⟩
  have hmute (st' : St) (h : Mute st st') (hmem : .dispatch req ∈ st'.acts) : False := by
    have hmem := h.mem_dispatch hmem
    simp [hacts] at hmem
  have houtcome := handleRead_outcome st
  generalize st.handleRead = st' at houtcome hreq ⊢
  cases houtcome with
  | tunnel hstate => exact (hmute _ (.tunnelRead st) hreq).elim
  | fails hstate hfails => exact (hmute _ (hread.trans (.put _)) hreq).elim
  | idle hstate => exact (hmute _ hread hreq).elim
  | rejects hrej =>
    rw [rejected_acts, hacts] at hreq
    simp at hreq
  | noMemory _ _ =>
    have halloc : Mute st (st.readClient.2.alloc requestSize 8).2 := hread
    exact (hmute _ (halloc.trans (.put _)) hreq).elim
  | takes hcompletes _ => exact ⟨hcompletes, rfl⟩

/-- `handle_read` leaves no connection in `CONN_SENDFILE`. -/
lemma handleRead_state (hstate : st.conn.state ≠ .sendfile) :
    st.handleRead.conn.state ≠ .sendfile := by
  have hclosing (st' : St) : st'.connPoolPut.conn.state ≠ .sendfile := by
    rw [connPoolPut_state]
    decide
  have houtcome := handleRead_outcome st
  generalize st.handleRead = st' at houtcome ⊢
  cases houtcome with
  | tunnel _ =>
    rw [tunnelRead]
    split
    rename_i n st1 heq
    obtain rfl : st.readTunnel.2 = st1 := by rw [heq]
    split
    · exact hclosing _
    · split
      · simp only
        split <;> exact hstate
      · exact hstate
  | fails _ _ => exact hclosing _
  | idle _ => exact hstate
  | rejects _ =>
    rw [rejected_state]
    decide
  | noMemory _ _ => exact hclosing _
  | takes _ _ =>
    have houtcome := afterDispatch_outcome st.served
    generalize st.served.afterDispatch = st' at houtcome ⊢
    cases houtcome with
    | handed hrelayed => exact hrelayed.settled.2
    | last _ _ _ => exact hclosing _
    | next _ _ _ =>
      rw [nextRequest_state]
      decide
    | waits _ _ =>
      change ConnState.writingResponse ≠ .sendfile
      decide

/-- **`on_client_event`**. While a response is to be written there is no read, and the event is
orderly; a text that is no request comes on a connection that is not kept. -/
lemma onClientEvent_told (hacts : st.acts = []) (hfd : 0 ≤ st.conn.fd) (hrange : st.InRange)
    (hcalm : Calm st.ws.loop st.self st.conn said)
    (hquiet : 0 < bufReadable st.conn.wbuf → ev.read = false)
    (hboth : ev.read = true → ev.write = true → ¬st.ReadFails ∧ ¬st.Completes)
    (hup : ev.read = true → st.Completes → st.conn.upstreamFd < 0)
    (hrejects : ev.read = true → st.Rejects →
      st.conn.keepAlive = false ∧ st.conn.upstreamFd < 0) :
    Lives st (st.onClientEvent ev) (heard st (st.onClientEvent ev) said) ∨
      (GivesBack st (st.onClientEvent ev) ∧
        (heard st (st.onClientEvent ev) said = some true → st.Interrupts ev)) := by
  -- what `handle_write` ends with is not heard; it gives back only what is not to be kept
  have hwrite (st1 : St) (said1 : Option Bool) (h1 : Lives st st1 said1) :
      Lives st st1.handleWrite said1 ∨ (GivesBack st st1.handleWrite ∧ said1 ≠ some true) := by
    have hfd1 : 0 ≤ st1.conn.fd := by
      rw [h1.kept.fd]
      exact hfd
    rcases handleWrite_calm hfd1 h1.calm with h | ⟨h, hkeep⟩
    · exact Or.inl (h1.trans h)
    · refine Or.inr ⟨⟨h1.kept.released hfd h.released, h1.spares.trans h.spares, ?_⟩, ?_⟩
      · exact fun _ => h.shelved h1.calm.sound
      · exact fun htrue => absurd ((h1.calm.word true htrue).1.symm.trans hkeep) (by decide)
  rw [onClientEvent]
  split
  · rename_i hcut
    exact Or.inr ⟨(Idles.refl st).toServes.put hfd, fun _ => Or.inl hcut⟩
  · simp only
    by_cases hread : ev.read = true
    · have hempty : bufReadable st.conn.wbuf = 0 :=
        Nat.eq_zero_of_not_pos fun hleft => absurd (hquiet hleft) (by simp [hread])
      rw [if_pos hread]
      have hcases := handleRead_calm hacts hfd hrange hcalm hempty (hup hread) (hrejects hread)
      by_cases hboth' : ev.write = true
      · obtain ⟨hfails, hcompletes⟩ := hboth hread hboth'
        rw [if_pos hboth']
        rcases hcases with h | ⟨-, hends, -⟩
        · have hnot (req : HttpRequest) : decision st.handleRead.acts ≠ some (.dispatch req) :=
            fun heq => hcompletes (handleRead_takes hacts (List.mem_of_find?_eq_some heq)).1
          rw [(Mute.handleWrite h.calm.settled.2).heard_trans hnot]
          exact (hwrite _ _ h).imp_right fun h => ⟨h.1, fun htrue => absurd htrue h.2⟩
        · exact absurd hends (not_or.mpr ⟨hfails, hcompletes⟩)
      · rw [if_neg hboth']
        exact hcases.imp_right fun h => ⟨h.1, fun htrue => Or.inr ⟨hread, h.2.2 htrue⟩⟩
    · rw [if_neg hread]
      split
      · rw [(Mute.handleWrite hcalm.settled.2).heard_eq hacts]
        have hrefl : Lives st st said := ⟨.refl st, (Aside.refl st).toSpares, hcalm⟩
        exact (hwrite st said hrefl).imp_right fun h => ⟨h.1, fun htrue => absurd htrue h.2⟩
      · rw [(Mute.refl st).heard_eq hacts]
        exact Or.inl ⟨.refl st, (Aside.refl st).toSpares, hcalm⟩

/-- **The head that is heard of is in the buffer.** In an event that takes a request and says
something, the program has put a head of its own in the write buffer that says so. -/
lemma onClientEvent_announces (hacts : st.acts = []) (hstate : st.conn.state ≠ .sendfile)
    (hboth : ev.read = true → ev.write = true → ¬st.ReadFails ∧ ¬st.Completes) {req : HttpRequest}
    (hreq : .dispatch req ∈ (st.onClientEvent ev).acts) {b : Bool}
    (hb : heard st (st.onClientEvent ev) said = some b) : Announces st.taking st.served b := by
  have hnone : .dispatch req ∉ st.acts := by simp [hacts]
  by_cases hread : ev.read = true
  · by_cases hcut : ev.hup = true ∨ ev.err = true
    · rw [onClientEvent, if_pos hcut] at hreq
      exact absurd ((Mute.put st).mem_dispatch hreq) hnone
    · rw [onClientEvent, if_neg hcut, if_pos hread] at hreq hb
      simp only at hreq hb
      split at hreq <;> rename_i hwrite
      · -- with both bits no request is completed
        have hmem := (Mute.handleWrite (handleRead_state hstate)).mem_dispatch hreq
        exact absurd (handleRead_takes hacts hmem).1 (hboth hread hwrite).2
      · rw [if_neg hwrite] at hb
        obtain ⟨-, heq⟩ := handleRead_takes hacts hreq
        rw [heq, heard_of_served hacts (.afterDispatch st.served)] at hb
        split at hb
        · simp at hb
        · rename_i hown
          obtain ⟨hrelayed, hcache⟩ := not_or.mp hown
          rw [← Option.some.inj hb]
          cases served_disposes hacts with
          | own htold _ _ _ => exact htold
          | cached _ _ hhit => exact absurd hhit hcache
          | handed hstate' _ _ =>
            have hsame : st.served.afterDispatch = st.served := if_pos hstate'
            rw [hsame] at hrelayed
            exact absurd hstate' hrelayed
  · have hmute := Mute.onClientEvent hstate (Bool.eq_false_of_not_eq_true hread)
    exact absurd (hmute.mem_dispatch hreq) hnone

end St

end Nproxy
