import Nproxy.Http.Segmentation
import Nproxy.Proc.Outcomes
import Nproxy.Proc.Pipeline

/-!
Requests that do not fit in `rbuf`.

`handle_read` reads until the socket would block or `rbuf` is full, and returns if what it has is
not a whole request. A full buffer is not told from a socket that has no more, so a request that
is longer than the buffer is never answered, and the client's next bytes are never read.

* `Unfinished`: the texts on which the parser waits for more, by their lines and the length of the
  body they announce (`incomplete_iff`).
* `Conn.Stuck`: a connection that waits for a request with a full buffer. `stuck_handleRead_iff`
  says when `handle_read` leaves one, by what was in `rbuf` and what has arrived.
* `served_iff_requestsFit`: over the whole life of a connection object, `handle_read` leaves it
  stuck exactly where the first 64 KiB at hand are unfinished.
* `longLine_stuck`: a request line of 64 KiB; no later read changes anything.
-/

namespace Nproxy

open Lines (findPair)

/-! ### Texts that end too early -/

/-- The text ends before the request does: no line is complete, or acceptable lines are followed
by a part of a line, or by less of a body than was announced. -/
def Unfinished (b : List UInt8) : Prop :=
  findCrlf b = none ∨ ∃ line ls rest, Head b line ls rest ∧ Acceptable line ls ∧
    (rest ≠ [] ∧ findPair cr lf rest = none ∨
      ((rest.length - 2 : ℕ) : ℤ) < declaredLength (-1) (lineHeaders (line.length + 2) ls))

lemma finishParse_incomplete_iff (s : HttpParseState) (cur len : ℕ) :
    (finishParse s cur len).1 = .incomplete ↔ ((len - cur : ℕ) : ℤ) < s.contentLength := by
  rw [finishParse_eq]
  split_ifs with hpos hshort
  · exact iff_of_true rfl (by omega)
  · exact iff_of_false (by simp) (by omega)
  · exact iff_of_false (by simp) (by omega)

/-- A text with a head is unfinished in one of two ways. -/
lemma Head.incomplete_iff {b line rest : List UInt8} {ls : List (List UInt8)}
    (h : Head b line ls rest) :
    (parseFresh b).1 = .incomplete ↔ Acceptable line ls ∧
      (rest ≠ [] ∧ findPair cr lf rest = none ∨
        ((rest.length - 2 : ℕ) : ℤ) < declaredLength (-1) (lineHeaders (line.length + 2) ls)) := by
  by_cases hacc : Acceptable line ls
  · have hlen := h.length_eq
    rw [h.parse hacc, ← hacc.headState_fields.2.1]
    by_cases hnil : rest = []
    · subst hnil
      rw [if_pos rfl, finishParse_incomplete_iff, hlen]
      simp [hacc]
    · rw [if_neg hnil]
      by_cases hblank : findPair cr lf rest = some 0
      · rw [if_pos hblank, finishParse_incomplete_iff, hlen,
          show headLength line ls + rest.length - (headLength line ls + 2) = rest.length - 2 by
            omega]
        simp [hacc, hblank]
      · rw [if_neg hblank]
        have hnone : findPair cr lf rest = none := h.stop.resolve_right hblank
        exact iff_of_true rfl ⟨hacc, Or.inl ⟨hnil, hnone⟩⟩
  · rw [h.parse_error hacc]
    exact iff_of_false (by simp) fun hacc' => hacc hacc'.1

/-- **The texts on which the parser waits** are those whose head or body is not complete. -/
lemma incomplete_iff (b : List UInt8) : (parseFresh b).1 = .incomplete ↔ Unfinished b := by
  cases hf : findCrlf b with
  | none => exact iff_of_true (by simp [parseFresh, httpParseRequest, hf]) (Or.inl hf)
  | some n =>
    obtain ⟨ls, rest, hhead⟩ := exists_head hf
    constructor
    · intro hb
      exact Or.inr ⟨_, ls, rest, hhead, hhead.incomplete_iff.mp hb⟩
    · rintro (hnone | ⟨line, ls', rest', hhead', hends⟩)
      · rw [hf] at hnone
        exact absurd hnone (by simp)
      · exact hhead'.incomplete_iff.mpr hends

lemma le_parsedBytes_finishParse (s : HttpParseState) (cur len : ℕ) :
    cur ≤ (finishParse s cur len).2.parsedBytes := by
  rw [finishParse_eq]
  split_ifs <;> simp [settle]

/-- A request has at least the end of its first line. -/
lemma done_parsedBytes_pos {b : List UInt8} (hd : (parseFresh b).1 = .done) :
    0 < (parseFresh b).2.parsedBytes := by
  cases hf : findCrlf b with
  | none => simp [parseFresh, httpParseRequest, hf] at hd
  | some n =>
    obtain ⟨ls, rest, hhead⟩ := exists_head hf
    have hacc : Acceptable (b.take n) ls := by
      by_contra hacc
      rw [hhead.parse_error hacc] at hd
      exact absurd hd (by simp)
    have htwo : 0 < headLength (b.take n) ls := by
      rw [headLength]
      omega
    rw [hhead.parse hacc] at hd ⊢
    split_ifs at hd ⊢ with hnil hblank
    · exact htwo.trans_le (le_parsedBytes_finishParse _ _ _)
    · exact (Nat.add_pos_left htwo 2).trans_le (le_parsedBytes_finishParse _ _ _)

/-! ### A connection that waits with a full buffer -/

/-- The connection waits for the rest of a request, and there is no room for it. -/
structure Conn.Stuck (c : Conn) : Prop where
  state : c.state = .readingRequest
  full : bufReadable c.rbuf = c.rbuf.cap
  incomplete : (parseFresh (bufBytes c.rbuf)).1 = .incomplete

/-- What is in `rbuf`, with what the socket has. -/
def Conn.atHand (c : Conn) (env : Env) : List UInt8 :=
  bufBytes c.rbuf ++ arriving (St.onFd c.fd .err env.clientReads)

namespace St

variable {st : St}

/-- `handle_read` of a tunnel does not wait for a request. -/
lemma tunnelRead_state (hstate : st.conn.state = .tunnel) :
    st.tunnelRead.conn.state ≠ .readingRequest := by
  have hread : st.readTunnel.2.conn.state = .tunnel := hstate
  rw [tunnelRead]
  split
  rename_i n st1 heq
  rw [heq] at hread
  split
  · rw [workerConnClose, connPoolPut_state]
    decide
  · have hne : st1.conn.state ≠ .readingRequest := by
      rw [hread]
      decide
    split
    · simp only
      split <;> exact hne
    · exact hne

/-- `handle_read` waits for the rest of a request. -/
lemma handleRead_of_incomplete (hstate : st.conn.state ≠ .tunnel) (hret : st.readClient.1 = .ok 0)
    (hparse : (parseFresh (bufBytes st.readClient.2.conn.rbuf)).1 = .incomplete) :
    st.handleRead = st.readClient.2 := by
  rw [handleRead, if_neg hstate]
  split
  rename_i n st1 heq
  rw [heq] at hret hparse
  obtain rfl : n = .ok 0 := hret
  rw [heq, if_neg (by simp), parseRequests]
  split
  · rfl
  · rcases hp : parseFresh (bufBytes st1.conn.rbuf) with ⟨r, ps⟩
    rw [hp] at hparse
    obtain rfl : r = .incomplete := hparse
    rfl

/-- A request that is taken makes room. -/
lemma served_rbuf (hwf : st.conn.rbuf.Wf) (hcompletes : st.Completes) :
    bufReadable st.served.conn.rbuf < st.served.conn.rbuf.cap := by
  have hwf1 : st.readClient.2.conn.rbuf.Wf := (bufReadLoop_spec hwf _).1
  have hrbuf : st.served.conn.rbuf =
      bufConsume st.readClient.2.conn.rbuf st.parsed.parsedBytes := by
    rcases handlerDispatch_dispatched st.taking st.parsedRequest with
      hstays | ⟨st1, req, i, k, ufd, hstays, -, heq⟩
    · exact hstays.rbuf
    · rw [served, heq]
      exact hstays.rbuf
  have hpos : 0 < st.parsed.parsedBytes := done_parsedBytes_pos hcompletes.2
  have hle : st.parsed.parsedBytes ≤ bufReadable st.readClient.2.conn.rbuf := by
    rw [← length_bufBytes hwf1]
    exact done_parsedBytes_le hcompletes.2
  have hroom := hwf1.readable_le
  rw [hrbuf, ← length_bufBytes (bufConsume_wf hwf1 hle), bufBytes_consume, List.length_drop,
    length_bufBytes hwf1, bufConsume_cap]
  omega

/-- A connection that was put back waits for nothing. -/
lemma connPoolPut_not_stuck (st : St) : ¬st.connPoolPut.conn.Stuck := by
  intro hstuck
  have hclosing := hstuck.state
  rw [connPoolPut_state] at hclosing
  exact absurd hclosing (by decide)

/-- A connection that is stuck behind `handle_read` has waited for the request before. -/
lemma eq_readClient_of_stuck (hwf : st.conn.rbuf.Wf) (hstuck : st.handleRead.conn.Stuck) :
    st.handleRead = st.readClient.2 := by
  have houtcome := handleRead_outcome st
  generalize st.handleRead = st' at houtcome hstuck
  cases houtcome with
  | tunnel hstate => exact absurd hstuck.state (tunnelRead_state hstate)
  | fails hstate hfails => exact absurd hstuck (connPoolPut_not_stuck _)
  | idle hstate => rfl
  | rejects hrejects =>
    have hparse := hstuck.incomplete
    rw [(Stays.reject 400 false evW).rbuf, hrejects.2] at hparse
    exact absurd hparse (by decide)
  | noMemory hcompletes hmem => exact absurd hstuck (connPoolPut_not_stuck _)
  | takes hcompletes hmem =>
    have hserved := served_rbuf hwf hcompletes
    have hafter := afterDispatch_outcome st.served
    generalize st.served.afterDispatch = st' at hafter hstuck
    cases hafter with
    | handed hstate =>
      rw [hstuck.state] at hstate
      exact absurd hstate (by decide)
    | last hstate hout hkeep => exact absurd hstuck (connPoolPut_not_stuck _)
    | next hstate hout hkeep => exact absurd hstuck.full hserved.ne
    | waits hstate hleft =>
      have hwriting : ConnState.writingResponse = .readingRequest := hstuck.state
      exact absurd hwriting (by decide)

/-- **`handle_read` leaves a connection stuck exactly if** it waited for a request, and what is at
hand fills `rbuf` and is unfinished up to there. -/
lemma stuck_handleRead_iff (hwf : st.conn.rbuf.Wf) :
    st.handleRead.conn.Stuck ↔ st.conn.state = .readingRequest ∧
      st.conn.rbuf.cap ≤ (st.conn.atHand st.env).length ∧
      Unfinished ((st.conn.atHand st.env).take st.conn.rbuf.cap) := by
  have hwf1 : st.readClient.2.conn.rbuf.Wf := (bufReadLoop_spec hwf _).1
  have hbytes : bufBytes st.readClient.2.conn.rbuf =
      (st.conn.atHand st.env).take st.conn.rbuf.cap := (getsWhatFits hwf _).1
  have hcap : st.readClient.2.conn.rbuf.cap = st.conn.rbuf.cap := bufReadLoop_cap _ _
  have hlen : bufReadable st.readClient.2.conn.rbuf =
      min st.conn.rbuf.cap (st.conn.atHand st.env).length := by
    rw [← length_bufBytes hwf1, hbytes, List.length_take]
  constructor
  · intro hstuck
    have heq := eq_readClient_of_stuck hwf hstuck
    rw [heq] at hstuck
    have hfull := hstuck.full
    have hparse := (incomplete_iff _).mp hstuck.incomplete
    rw [hlen, hcap, min_eq_left_iff] at hfull
    rw [hbytes] at hparse
    exact ⟨hstuck.state, hfull, hparse⟩
  · rintro ⟨hstate, hfull, hparse⟩
    have hinc : (parseFresh (bufBytes st.readClient.2.conn.rbuf)).1 = .incomplete := by
      rw [hbytes]
      exact (incomplete_iff _).mpr hparse
    have hret : st.readClient.1 = .ok 0 := (getsWhatFits hwf _).2 hfull
    rw [handleRead_of_incomplete (by rw [hstate]; decide) hret hinc]
    exact ⟨hstate, by rw [hlen, hcap, min_eq_left hfull], hinc⟩

end St

/-! ### Runs -/

namespace Life

/-- Where `handle_read` is called, it does not leave the connection stuck. -/
def Served (c : ConnId) (l : Life) : Use → Prop
  | .client ws env ev => ev.hup = false → ev.err = false → ev.read = true →
      ¬(St.handleRead ⟨c, l.conn, ws, env, []⟩).conn.Stuck
  | _ => True

/-- Where a connection that waits for a request has as much at hand as `rbuf` holds, the request
ends in there, or it is no request. -/
def RequestsFit (l : Life) : Use → Prop
  | .client _ env ev => ev.hup = false → ev.err = false → ev.read = true →
      l.conn.state = .readingRequest → l.conn.rbuf.cap ≤ (l.conn.atHand env).length →
      ¬Unfinished ((l.conn.atHand env).take l.conn.rbuf.cap)
  | _ => True

lemma served_iff {c : ConnId} {l : Life} (hwf : l.conn.rbuf.Wf) (u : Use) :
    l.Served c u ↔ l.RequestsFit u := by
  cases u with
  | client ws env ev =>
    rw [Served, RequestsFit, @St.stuck_handleRead_iff ⟨c, l.conn, ws, env, []⟩ hwf]
    simp only [not_and]
  | upstream ws env fd ev => rfl
  | get fd peer => rfl

end Life

/-- **A connection is never left stuck exactly if its requests fit**, over the whole life of a
connection object and every way in which its bytes arrive; as long as the object is not freed,
`rbuf` holds 64 KiB. -/
theorem served_iff_requestsFit (c : ConnId) (addr : ℕ) (fd : ℤ) (peer : InAddr) (us : List Use) :
    (.poolPut true ∉ (Run.run (Life.step c) (Life.start addr fd peer) us).acts →
      (Run.run (Life.step c) (Life.start addr fd peer) us).conn.rbuf.cap = 64 * 1024) ∧
    (Run.Along (Life.step c) (Life.Served c) (Life.start addr fd peer) us ↔
      Run.Along (Life.step c) Life.RequestsFit (Life.start addr fd peer) us) := by
  constructor
  · intro hfreed
    exact congrArg (·.1) ((Life.run_recorded c addr fd peer us).lives hfreed).caps
  · exact Run.along_congr_of_invariant (P := fun l : Life => l.conn.rbuf.Wf)
      (fun _ u hwf => Life.rbuf_wf_step hwf u) (fun _ u hwf => Life.served_iff hwf u)
      (connCreate_bufsWf addr fd peer).rbuf us

/-- A request that fits in the read buffer leaves the connection free to go on. -/
theorem served_healthRun :
    Run.Along (Life.step 0) (Life.Served 0) (Life.start 4096 4 ⟨127, 0, 0, 1⟩)
      (healthRun [healthText]) := by
  refine (served_iff_requestsFit 0 4096 4 ⟨127, 0, 0, 1⟩ (healthRun [healthText])).2.mpr
    ⟨fun _ _ _ _ hfull => absurd hfull ?_, trivial⟩
  decide +kernel

variable {conn : Conn}

/-- A stuck connection stays stuck, whatever its client sends. -/
lemma Conn.Stuck.handleRead (hwf : conn.rbuf.Wf) (h : conn.Stuck) (c : ConnId) (ws : WorkerState)
    (env : Env) : (St.handleRead ⟨c, conn, ws, env, []⟩).conn.Stuck := by
  have hlen := length_bufBytes hwf
  have hfull := h.full
  have hle : conn.rbuf.cap ≤ (conn.atHand env).length := by
    rw [Conn.atHand, List.length_append]
    omega
  have htake : (conn.atHand env).take conn.rbuf.cap = bufBytes conn.rbuf := by
    rw [Conn.atHand, List.take_append_of_le_length (by omega), List.take_of_length_le (by omega)]
  have hparse := (incomplete_iff _).mp h.incomplete
  rw [← htake] at hparse
  exact (St.stuck_handleRead_iff hwf).mpr ⟨h.state, hle, hparse⟩

/-- The environment in which the client sends a text. -/
def sending (text : List UInt8) : Env := { idleEnv with clientReads := [.data text] }

/-- As much of a longer request as the buffer holds: all of it is read, and nothing else is
done. -/
lemma stuck_of_unfinished {text : List UInt8} (htext : Unfinished text) (hwf : conn.rbuf.Wf)
    (hstate : conn.state = .readingRequest) (hfd : 0 ≤ conn.fd) (hempty : bufBytes conn.rbuf = [])
    (hcap : conn.rbuf.cap = text.length) (c : ConnId) (ws : WorkerState) :
    (St.handleRead ⟨c, conn, ws, sending text, []⟩).conn.Stuck ∧
      (St.handleRead ⟨c, conn, ws, sending text, []⟩).acts = [.clientRead text] := by
  have htape : St.onFd conn.fd .err (sending text).clientReads = [.data text] := by
    rw [St.onFd, if_neg (by omega)]
    rfl
  have harrives : arriving [.data text] = text := by
    cases text with
    | nil => rfl
    | cons x xs => exact List.append_nil _
  have hhand : conn.atHand (sending text) = text := by
    rw [Conn.atHand, htape, harrives, hempty, List.nil_append]
  have hgot : (bufReadLoop conn.rbuf [.data text]).got = text := by
    have hbytes := (getsWhatFits hwf [.data text]).1
    rwa [(bufReadLoop_spec hwf _).2, harrives, hempty, List.nil_append, List.nil_append, hcap,
      List.take_length] at hbytes
  have hstuck : (St.handleRead ⟨c, conn, ws, sending text, []⟩).conn.Stuck := by
    refine (St.stuck_handleRead_iff hwf).mpr ⟨hstate, ?_, ?_⟩
    · rw [hhand, hcap]
    · rw [hhand, hcap, List.take_length]
      exact htext
  refine ⟨hstuck, ?_⟩
  rw [St.eq_readClient_of_stuck hwf hstuck, St.readClient]
  simp only [htape, hgot, List.nil_append]

/-- The first event of a client: a text comes. -/
def textRun (text : List UInt8) : List Use :=
  [.client (backendWorker.run clientComes).ws (sending text) inEvent]

/-- 64 KiB of a request that is longer, and what comes of it. -/
lemma textRun_stuck {text : List UInt8} (htext : Unfinished text)
    (hlen : text.length = 64 * 1024) :
    (Run.run (Life.step 0) (Life.start 4096 4 ⟨127, 0, 0, 1⟩) (textRun text)).acts =
        [.poolGet, .clientRead text] ∧
      (Run.run (Life.step 0) (Life.start 4096 4 ⟨127, 0, 0, 1⟩) (textRun text)).conn.Stuck ∧
      ∀ (ws : WorkerState) (env : Env), (St.handleRead
        ⟨0, (Run.run (Life.step 0) (Life.start 4096 4 ⟨127, 0, 0, 1⟩) (textRun text)).conn, ws,
          env, []⟩).conn.Stuck := by
  have hwf := (connCreate_bufsWf 4096 4 ⟨127, 0, 0, 1⟩).rbuf
  have hstart : (Life.start 4096 4 ⟨127, 0, 0, 1⟩).acts = [.poolGet] := rfl
  obtain ⟨hstuck, hacts⟩ := stuck_of_unfinished htext hwf rfl (by decide) (bufBytes_reset _)
    hlen.symm 0 (backendWorker.run clientComes).ws
  rw [textRun, Run.run_cons, Run.run_nil, Life.step_read, Life.handle]
  simp only [hstart]
  refine ⟨?_, hstuck, hstuck.handleRead (St.handleRead_rbuf_wf hwf) 0⟩
  exact congrArg (List.cons Act.poolGet) hacts

/-- The start of a request with a long path: 64 KiB, and no end of the line. -/
def longLine : List UInt8 := bytes "GET /" ++ List.replicate 65531 97

lemma length_longLine : longLine.length = 64 * 1024 := by
  rw [longLine, List.length_append, List.length_replicate]
  rfl

lemma unfinished_longLine : Unfinished longLine := by
  refine Or.inl ?_
  have hcr : cr ∉ longLine := by
    rw [longLine, List.mem_append, List.mem_replicate]
    decide
  cases hfind : findCrlf longLine with
  | none => rfl
  | some n =>
    refine absurd ?_ hcr
    rw [(Lines.eq_of_findPair hfind).1]
    simp

/-- **A request line that is too long.** The connection is neither answered nor closed, and no
later read changes that. -/
theorem longLine_stuck :
    (Run.run (Life.step 0) (Life.start 4096 4 ⟨127, 0, 0, 1⟩) (textRun longLine)).acts =
        [.poolGet, .clientRead longLine] ∧
      (Run.run (Life.step 0) (Life.start 4096 4 ⟨127, 0, 0, 1⟩) (textRun longLine)).conn.Stuck ∧
      ∀ (ws : WorkerState) (env : Env), (St.handleRead
        ⟨0, (Run.run (Life.step 0) (Life.start 4096 4 ⟨127, 0, 0, 1⟩) (textRun longLine)).conn, ws,
          env, []⟩).conn.Stuck :=
  textRun_stuck unfinished_longLine length_longLine

end Nproxy
