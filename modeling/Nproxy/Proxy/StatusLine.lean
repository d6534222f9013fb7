import Nproxy.Proxy.CacheFill

/-!
The status of an upstream's response.

`proxy_on_upstream_event` looks for the status line at the front of `upstream_rbuf`, after each
read and as long as no status is noted. What the client has taken is not there any more, and
`atoi` reads on behind the bytes that were read.

* `RelayOp`: one turn of the read loop, or a write to the client. The read loop is a run of them
  (`exists_run_upstreamLoop`).
* `openingLine`, `statusCode`: the first 13 bytes of a response, and the number in them.
* `noted_iff_timely`: once the line is read the number is noted for good, exactly if nothing was
  sent to the client before, or the number was noted with its last digit.
-/

namespace Nproxy

open Queue (Flow)

/-- What happens to a response on its way to the client. -/
inductive RelayOp where
  /-- a turn of the read loop, with the results of its system calls -/
  | turn (reads : List SysRead) (writes : List SysWrite) (reallocs : List Bool)
  /-- `handle_write` -/
  | write (writes : List SysWrite)

namespace St

/-- One turn of the read loop: a read, and what follows it if it got something. -/
def readTurn (st : St) (reads : List SysRead) : St :=
  match st.readUpstream reads with
  | (.ok (_ + 1), st) => st.relayTurn
  | (_, st) => st

/-- One operation on a response: a turn of the read loop, or a write of `handle_write`, each with
its own results of the system calls. -/
def relayOp (st : St) : RelayOp → St
  | .turn reads writes reallocs =>
    readTurn { st with env := { st.env with clientWrites := writes, reallocs := reallocs } } reads
  | .write writes => relay { st with env := { st.env with clientWrites := writes } }

/-- A turn with the results that are there. -/
lemma relayOp_turn (st : St) (reads : List SysRead) :
    st.relayOp (.turn reads st.env.clientWrites st.env.reallocs) = st.readTurn reads := rfl

/-- The read loop of `proxy_on_upstream_event` takes turns. -/
lemma exists_run_upstreamLoop (tape : List SysRead) (st : St) :
    ∃ ops, (upstreamLoop tape st).2 = Run.run relayOp st ops := by
  induction tape generalizing st with
  | nil =>
    have hret := readUpstream_ret st []
    refine ⟨[.turn [] st.env.clientWrites st.env.reallocs], ?_⟩
    rw [upstreamLoop, Run.run_cons, Run.run_nil, relayOp_turn, readTurn]
    split <;> rename_i heq <;> rw [heq] at hret ⊢
    exact absurd hret.symm (bufReadFd_nil_ret _ _)
  | cons r tape ih =>
    rw [upstreamLoop]
    rcases hread : st.readUpstream (r :: tape) with ⟨n, st1⟩
    have hlast (heq : st.relayOp (.turn (r :: tape) st.env.clientWrites st.env.reallocs) = st1) :
        ∃ ops, st1 = Run.run relayOp st ops :=
      ⟨[.turn (r :: tape) st.env.clientWrites st.env.reallocs], heq.symm⟩
    rw [relayOp_turn, readTurn, hread] at hlast
    cases n with
    | ok n =>
      cases n with
      | zero => exact hlast rfl
      | succ k =>
        obtain ⟨ops, hops⟩ := ih st1.relayTurn
        refine ⟨.turn (r :: tape) st.env.clientWrites st.env.reallocs :: ops, ?_⟩
        rw [Run.run_cons, relayOp_turn, readTurn, hread]
        exact hops
    | closed => exact hlast rfl
    | again => exact hlast rfl
    | err => exact hlast rfl

end St

/-! ### The status line -/

/-- A decimal digit. -/
def digitByte (d : Fin 10) : UInt8 := 48 + UInt8.ofNat d

/-- `HTTP/1.x abc `. -/
def openingLine (x a b c : Fin 10) : List UInt8 :=
  bytes "HTTP/1." ++ [digitByte x, 32, digitByte a, digitByte b, digitByte c, 32]

lemma bytes_http1 : bytes "HTTP/1." = [72, 84, 84, 80, 47, 49, 46] := rfl

/-- The number in it. -/
def statusCode (a b c : Fin 10) : ℤ := 100 * (a : ℕ) + 10 * (b : ℕ) + (c : ℕ)

variable {x a b c : Fin 10}

lemma length_openingLine : (openingLine x a b c).length = 13 := rfl

lemma isdigit_digitByte (d : Fin 10) : isdigit (digitByte d) = true := by
  revert d
  decide

lemma isspace_digitByte (d : Fin 10) : isspace (digitByte d) = false := by
  revert d
  decide

lemma digitByte_toNat (d : Fin 10) : (digitByte d).toNat - 48 = d := by
  revert d
  decide

lemma digitByte_ne {n : UInt8} (hn : isdigit n = false) (d : Fin 10) : digitByte d ≠ n := by
  rintro rfl
  rw [isdigit_digitByte] at hn
  exact absurd hn (by decide)

lemma atoi_digits (mem : List UInt8) :
    atoi (digitByte a :: digitByte b :: digitByte c :: 32 :: mem) = statusCode a b c := by
  have hdigits : (digitByte a :: digitByte b :: digitByte c :: 32 :: mem).takeWhile isdigit =
      [digitByte a, digitByte b, digitByte c] := by
    rw [List.takeWhile_cons_of_pos (isdigit_digitByte a),
      List.takeWhile_cons_of_pos (isdigit_digitByte b),
      List.takeWhile_cons_of_pos (isdigit_digitByte c), List.takeWhile_cons_of_neg (by decide)]
  have hspaces : (digitByte a :: digitByte b :: digitByte c :: 32 :: mem).takeWhile isspace = [] :=
    List.takeWhile_cons_of_neg (by rw [isspace_digitByte]; decide)
  have hminus := digitByte_ne (show isdigit 45 = false by decide) a
  have hplus := digitByte_ne (show isdigit 43 = false by decide) a
  have hval : decVal [digitByte a, digitByte b, digitByte c] =
      10 * (10 * (a : ℕ) + b) + c := by
    simp [decVal, digitByte_toNat]
  rw [atoi, strtoll]
  simp only [hspaces, List.length_nil, List.drop_zero, List.head?_cons, Option.some.injEq, hminus,
    hplus, or_self, if_false, hdigits, hval, List.cons_ne_nil]
  have ha := a.isLt
  have hb := b.isLt
  have hc := c.isLt
  rw [statusCode, llongMin, llongMax, Int.bmod]
  push_cast
  omega

/-- The front of a stream that begins with the line is no second line. -/
lemma take_drop_openingLine_ne {stream : List UInt8} (h : openingLine x a b c <+: stream) {k : ℕ}
    (hpos : 0 < k) (hk : k ≤ 12) : (stream.drop k).take 4 ≠ bytes "HTTP" := by
  obtain ⟨rest, rfl⟩ := h
  intro heq
  have hfirst : (openingLine x a b c)[k]? = some 72 := by
    have hhead := congrArg (·[0]?) heq
    simp only [List.getElem?_take_of_lt (show 0 < 4 by decide), List.getElem?_drop, Nat.add_zero]
      at hhead
    rwa [List.getElem?_append_left (by rw [length_openingLine]; omega)] at hhead
  have hne := digitByte_ne (show isdigit 72 = false by decide)
  rw [openingLine, bytes_http1] at hfirst
  interval_cases k <;> simp [hne] at hfirst

/-! ### Looking for it -/

/-- The memory of a buffer from a readable byte on. -/
lemma drop_data {buf : NpBuf} (hwf : buf.Wf) {n : ℕ} (hn : n ≤ (bufBytes buf).length) :
    buf.data.drop (buf.readPos + n) = (bufBytes buf).drop n ++ buf.data.drop buf.writePos := by
  have hle := hwf.le
  have hsplit : buf.data.drop buf.readPos = bufBytes buf ++ buf.data.drop buf.writePos := by
    rw [bufBytes, Memory.slice]
    nth_rewrite 1 [← List.take_append_drop (buf.writePos - buf.readPos) (buf.data.drop buf.readPos)]
    rw [List.drop_drop, Nat.add_sub_of_le hle]
  rw [← List.drop_drop, hsplit, List.drop_append_of_le_length hn]

namespace St

variable {st : St}

lemma captureStatus_of_noted (h : st.conn.proxyStatus ≠ 0) : st.captureStatus = st := if_pos h

/-- There is no status line at the front. -/
lemma captureStatus_of_other (h : (bufBytes st.conn.upstreamRbuf).length < 12 ∨
    (bufBytes st.conn.upstreamRbuf).take 4 ≠ bytes "HTTP") : st.captureStatus = st := by
  rw [captureStatus]
  split
  · rfl
  · simp only
    rw [if_neg]
    rintro ⟨hlen, hhead⟩
    rcases h with hshort | hne
    · omega
    · exact hne hhead

lemma captureStatus_of_line (hwf : st.conn.upstreamRbuf.Wf) (hstatus : st.conn.proxyStatus = 0)
    (hline : openingLine x a b c <+: bufBytes st.conn.upstreamRbuf) :
    st.captureStatus = st.noteStatus (statusCode a b c) := by
  obtain ⟨rest, hrest⟩ := hline
  have hlen : 13 ≤ (bufBytes st.conn.upstreamRbuf).length := by
    rw [← hrest, List.length_append, length_openingLine]
    omega
  have hhttp : (bufBytes st.conn.upstreamRbuf).take 4 = bytes "HTTP" := by
    rw [← hrest]
    rfl
  have hblank : memchr (bufBytes st.conn.upstreamRbuf) 32 = some 8 := by
    have hx := digitByte_ne (show isdigit 32 = false by decide) x
    rw [← hrest, openingLine, bytes_http1]
    simp [memchr, List.findIdx?_cons, hx]
  have hdrop : st.conn.upstreamRbuf.data.drop (st.conn.upstreamRbuf.readPos + 8 + 1) =
      digitByte a :: digitByte b :: digitByte c :: 32 ::
        (rest ++ st.conn.upstreamRbuf.data.drop st.conn.upstreamRbuf.writePos) := by
    rw [Nat.add_assoc, drop_data hwf (by omega), ← hrest]
    rfl
  rw [captureStatus, if_neg (not_not.mpr hstatus)]
  simp only [if_pos (show (bufBytes st.conn.upstreamRbuf).length ≥ 12 ∧
    (bufBytes st.conn.upstreamRbuf).take 4 = bytes "HTTP" from ⟨by omega, hhttp⟩), hblank,
    if_pos (show 8 + 4 ≤ (bufBytes st.conn.upstreamRbuf).length by omega), hdrop, atoi_digits]

/-! ### One turn -/

lemma readBytes_append (as bs : List Act) :
    readBytes (as ++ bs) = readBytes as ++ readBytes bs := by
  rw [readBytes, upstreamMoves_append, Queue.entered_append, readBytes, readBytes]

/-- What follows a read: no more is read, and the status is what is found at the front. -/
lemma relayTurn_status (st : St) : readBytes st.relayTurn.acts = readBytes st.acts ∧
    st.relayTurn.conn.proxyStatus = st.captureStatus.conn.proxyStatus := by
  have hrelay : st.relayTurn.acts = st.captureStatus.captureCache.acts ++ [.relay _] := rfl
  constructor
  · rw [hrelay, captureCache_acts, readBytes_append]
    rcases captureStatus_cases st with heq | ⟨-, status, heq⟩ <;> rw [heq]
    · exact List.append_nil _
    · change readBytes (st.acts ++ [.noteStatus status]) ++ [] = _
      rw [readBytes_append, List.append_nil]
      exact List.append_nil _
  · change st.captureStatus.captureCache.conn.proxyStatus = _
    rcases captureCache_cases st.captureStatus with heq | ⟨-, buf, len, cap, reallocs, -, heq⟩ <;>
      rw [heq]

lemma readUpstream_status (st : St) (tape : List SysRead) :
    (st.readUpstream tape).2.conn.proxyStatus = st.conn.proxyStatus := by
  rw [readUpstream]
  simp only
  split <;> rfl

lemma readUpstream_idle {tape : List SysRead} (h : ∀ k, (st.readUpstream tape).1 ≠ .ok (k + 1)) :
    readBytes (st.readUpstream tape).2.acts = readBytes st.acts := by
  rw [readUpstream] at h ⊢
  simp only at h ⊢
  split at h
  · rename_i k heq
    exact absurd heq (h k)
  · rw [act, readBytes_append]
    exact List.append_nil _
  · rfl

/-- The status after an operation that leads to `st'`: it is left alone if nothing is read, and
looked for at the front of the buffer otherwise. -/
def Watches (st st' : St) : Prop :=
  (readBytes st'.acts = readBytes st.acts ∧ st'.conn.proxyStatus = st.conn.proxyStatus) ∨
  ∃ (st1 : St) (got : List UInt8), st1.conn.upstreamRbuf.Wf ∧
    st1.conn.proxyStatus = st.conn.proxyStatus ∧
    bufBytes st1.conn.upstreamRbuf = bufBytes st.conn.upstreamRbuf ++ got ∧
    readBytes st'.acts = readBytes st.acts ++ got ∧
    st'.conn.proxyStatus = st1.captureStatus.conn.proxyStatus

lemma Watches.of_noted {st' : St} (h : Watches st st') (hnoted : st.conn.proxyStatus ≠ 0) :
    st'.conn.proxyStatus = st.conn.proxyStatus := by
  rcases h with ⟨-, hsame⟩ | ⟨st1, got, -, hst1, -, -, hcapture⟩
  · exact hsame
  · rw [hcapture, captureStatus_of_noted (by rwa [hst1]), hst1]

lemma readTurn_watches (hwf : st.conn.upstreamRbuf.Wf) (reads : List SysRead) :
    Watches st (st.readTurn reads) := by
  have hstatus := readUpstream_status st reads
  have hwf1 := (Streams.readUpstream hwf reads).wf
  by_cases hok : ∃ k, (st.readUpstream reads).1 = .ok (k + 1)
  · obtain ⟨k, hok⟩ := hok
    obtain ⟨got, hgot, hbytes, -⟩ := readUpstream_of_ok hwf hok
    rw [readTurn]
    split <;> rename_i heq <;> rw [heq] at hstatus hwf1 hgot hbytes
    · rename_i st1
      obtain ⟨hread, hnoted⟩ := relayTurn_status st1
      refine Or.inr ⟨st1, got, hwf1, hstatus, hbytes, ?_, hnoted⟩
      rw [hread, hgot, readBytes_append]
      exact congrArg _ (List.append_nil _)
    · rename_i n st1 hno
      rw [heq] at hok
      exact absurd hok (hno k)
  · rw [not_exists] at hok
    have hidle := readUpstream_idle hok
    rw [readTurn]
    split <;> rename_i heq
    · rename_i k st1
      exact absurd (congrArg Prod.fst heq) (hok k)
    · rw [heq] at hstatus hidle
      exact Or.inl ⟨hidle, hstatus⟩

lemma relayOp_watches (hwf : st.conn.upstreamRbuf.Wf) (op : RelayOp) :
    Watches st (st.relayOp op) := by
  cases op with
  | turn reads writes reallocs =>
    exact @readTurn_watches { st with env := { st.env with
      clientWrites := writes, reallocs := reallocs } } hwf reads
  | write writes =>
    refine Or.inl ⟨?_, rfl⟩
    rw [relayOp, relay, readBytes_append]
    exact List.append_nil _

lemma readTurn_streams (hwf : st.conn.upstreamRbuf.Wf) (reads : List SysRead) :
    ∃ ends, Streams st (st.readTurn reads) ends := by
  have hread := Streams.readUpstream hwf reads
  rw [readTurn]
  split <;> rename_i heq <;> rw [heq] at hread
  · exact ⟨_, hread.trans (.relayTurn hread.wf)⟩
  · exact ⟨_, hread⟩

/-- Bytes enter and leave the buffer. -/
lemma relayOp_streams (hwf : st.conn.upstreamRbuf.Wf) (op : RelayOp) :
    (st.relayOp op).conn.upstreamRbuf.Wf ∧ ∃ as, (st.relayOp op).acts = st.acts ++ as ∧
      Flow (bufBytes st.conn.upstreamRbuf) (upstreamMoves as)
        (bufBytes (st.relayOp op).conn.upstreamRbuf) := by
  cases op with
  | turn reads writes reallocs =>
    obtain ⟨ends, hturn⟩ := @readTurn_streams { st with env := { st.env with
      clientWrites := writes, reallocs := reallocs } } hwf reads
    obtain ⟨as, has, -, hmoves⟩ := hturn.acts
    exact ⟨hturn.wf, as, has, hmoves⟩
  | write writes =>
    have hrelay := @Streams.relay { st with env := { st.env with clientWrites := writes } } hwf
    obtain ⟨as, has, -, hmoves⟩ := hrelay.acts
    exact ⟨hrelay.wf, as, has, hmoves⟩

/-- What was read before a run is in front of what was read behind it. -/
lemma readBytes_prefix_run (hwf : st.conn.upstreamRbuf.Wf) (ops : List RelayOp) :
    readBytes st.acts <+: readBytes (Run.run relayOp st ops).acts := by
  induction ops generalizing st with
  | nil => exact List.prefix_refl _
  | cons op ops ih =>
    obtain ⟨hwf', as, has, -⟩ := relayOp_streams hwf op
    have hstep : readBytes st.acts <+: readBytes (st.relayOp op).acts := by
      rw [has, readBytes_append]
      exact List.prefix_append _ _
    exact hstep.trans (ih hwf')

lemma run_wf (hwf : st.conn.upstreamRbuf.Wf) (ops : List RelayOp) :
    (Run.run relayOp st ops).conn.upstreamRbuf.Wf :=
  Run.run_invariant (P := fun st : St => st.conn.upstreamRbuf.Wf)
    (fun _ op hwf => (relayOp_streams hwf op).1) hwf ops

/-! ### Runs -/

/-- Until the status line is read no status is noted, but for one with its last digit; then it is
the one of the line. -/
structure Watching (code : ℤ) (st : St) : Prop where
  wf : st.conn.upstreamRbuf.Wf
  flow : Flow [] (upstreamMoves st.acts) (bufBytes st.conn.upstreamRbuf)
  early : (readBytes st.acts).length < 12 → st.conn.proxyStatus = 0
  late : 13 ≤ (readBytes st.acts).length → st.conn.proxyStatus = code

/-- When the status line becomes complete, it is noted already, or it stands at the front of the
buffer and nothing is noted. -/
def Timely (code : ℤ) (st : St) (op : RelayOp) : Prop :=
  (readBytes st.acts).length < 13 → 13 ≤ (readBytes (st.relayOp op).acts).length →
    st.conn.proxyStatus = code ∨ st.conn.proxyStatus = 0 ∧ relayedBytes st.acts = []

lemma Watching.eq_append {code : ℤ} (h : st.Watching code) :
    readBytes st.acts = relayedBytes st.acts ++ bufBytes st.conn.upstreamRbuf := h.flow

/-- What is at the front of the buffer behind a read. -/
lemma Watching.front {code : ℤ} (h : st.Watching code) (got : List UInt8) :
    bufBytes st.conn.upstreamRbuf ++ got =
      (readBytes st.acts ++ got).drop (relayedBytes st.acts).length := by
  rw [h.eq_append, List.append_assoc, List.drop_left]

variable {stream : List UInt8} {op : RelayOp}

/-- A turn in time. -/
lemma Watching.step (h : st.Watching (statusCode a b c)) (hcode : statusCode a b c ≠ 0)
    (hline : openingLine x a b c <+: stream) (hread : readBytes (st.relayOp op).acts <+: stream)
    (htimely : st.Timely (statusCode a b c) op) :
    (st.relayOp op).Watching (statusCode a b c) := by
  obtain ⟨hwf, as, has, hmoves⟩ := relayOp_streams h.wf op
  have hflow : Flow [] (upstreamMoves (st.relayOp op).acts)
      (bufBytes (st.relayOp op).conn.upstreamRbuf) := by
    rw [has, upstreamMoves_append]
    exact h.flow.trans hmoves
  have hkeeps (hright : st.conn.proxyStatus = statusCode a b c) :
      (st.relayOp op).conn.proxyStatus = statusCode a b c := by
    rw [(relayOp_watches h.wf op).of_noted (by rwa [hright]), hright]
  rcases relayOp_watches h.wf op with
    ⟨hsame, hstatus⟩ | ⟨st1, got, hwf1, hst1, hbytes, hgot, hnoted⟩
  · refine ⟨hwf, hflow, ?_, ?_⟩ <;> rw [hsame, hstatus]
    · exact h.early
    · exact h.late
  · refine ⟨hwf, hflow, fun hshort => ?_, fun hlong => ?_⟩
    · rw [hgot, List.length_append] at hshort
      have hfew : (bufBytes st1.conn.upstreamRbuf).length < 12 := by
        rw [hbytes, h.front, List.length_drop, List.length_append]
        omega
      rw [hnoted, captureStatus_of_other (Or.inl hfew), hst1]
      exact h.early (by omega)
    · have hprefix : openingLine x a b c <+: readBytes (st.relayOp op).acts :=
        List.prefix_of_prefix_length_le hline hread hlong
      -- the turn that completes the line is the one in which it has to be found
      rcases Nat.lt_or_ge (readBytes st.acts).length 13 with hbefore | hafter
      · rcases htimely hbefore hlong with hright | ⟨hzero, hnone⟩
        · exact hkeeps hright
        · have hfront : openingLine x a b c <+: bufBytes st1.conn.upstreamRbuf := by
            rw [hbytes, h.front, hnone, ← hgot]
            exact hprefix
          rw [hnoted, captureStatus_of_line hwf1 (hst1.trans hzero) hfront]
          rfl
      · exact hkeeps (h.late hafter)

/-- A turn that comes too late. -/
lemma Watching.missed (h : st.Watching (statusCode a b c)) (hline : openingLine x a b c <+: stream)
    (hread : readBytes (st.relayOp op).acts <+: stream)
    (hlate : ¬st.Timely (statusCode a b c) op) :
    13 ≤ (readBytes (st.relayOp op).acts).length ∧
      (st.relayOp op).conn.proxyStatus ≠ statusCode a b c := by
  rw [Timely] at hlate
  push Not at hlate
  obtain ⟨hbefore, hlong, hne, hsent⟩ := hlate
  refine ⟨hlong, ?_⟩
  rcases relayOp_watches h.wf op with
    ⟨hsame, -⟩ | ⟨st1, got, hwf1, hst1, hbytes, hgot, hnoted⟩
  · rw [hsame] at hlong
    omega
  · have hkept : st1.captureStatus = st1 := by
      by_cases hzero : st.conn.proxyStatus = 0
      · -- a part of the line was sent, and what is left of it is no line
        have hprefix : openingLine x a b c <+: readBytes (st.relayOp op).acts :=
          List.prefix_of_prefix_length_le hline hread hlong
        have hpos : 0 < (relayedBytes st.acts).length := List.length_pos_iff.mpr (hsent hzero)
        have hle : (relayedBytes st.acts).length ≤ 12 := by
          have hlen := congrArg List.length h.eq_append
          rw [List.length_append] at hlen
          omega
        refine captureStatus_of_other (Or.inr ?_)
        rw [hbytes, h.front, ← hgot]
        exact take_drop_openingLine_ne hprefix hpos hle
      · exact captureStatus_of_noted (by rwa [hst1])
    rw [hnoted, hkept, hst1]
    exact hne

instance (code : ℤ) (st : St) (op : RelayOp) : Decidable (st.Timely code op) :=
  inferInstanceAs (Decidable (_ → _ → _))

end St

/-- **The status is noted for good once its line is read, exactly if nothing was sent to the client
before the line was complete**, or the number was noted with its last digit; for a response that
begins with a status line, any cut of it into reads and any writes to the client. -/
theorem noted_iff_timely (st : St) (x a b c : Fin 10) (stream : List UInt8) (ops : List RelayOp)
    (hacts : st.acts = []) (hstatus : st.conn.proxyStatus = 0)
    (hwf : st.conn.upstreamRbuf.Wf) (hempty : bufBytes st.conn.upstreamRbuf = [])
    (hline : openingLine x a b c <+: stream)
    (hread : readBytes (Run.run St.relayOp st ops).acts <+: stream)
    (hcode : statusCode a b c ≠ 0) :
    (∀ js, js <+: ops → 13 ≤ (readBytes (Run.run St.relayOp st js).acts).length →
      (Run.run St.relayOp st js).conn.proxyStatus = statusCode a b c) ↔
    Run.Along St.relayOp (St.Timely (statusCode a b c)) st ops := by
  have hstart : st.Watching (statusCode a b c) := by
    refine ⟨hwf, ?_, fun _ => hstatus, fun hlong => ?_⟩
    · rw [hacts, hempty]
      exact .refl []
    · rw [hacts] at hlong
      exact absurd hlong (by decide)
  have hreads : ∀ js, js <+: ops → readBytes (Run.run St.relayOp st js).acts <+: stream := by
    rintro js ⟨ks, rfl⟩
    rw [Run.run_append] at hread
    exact (St.readBytes_prefix_run (St.run_wf hwf js) ks).trans hread
  exact Run.forall_prefix_iff_along_of
    (P := fun st => 13 ≤ (readBytes st.acts).length → st.conn.proxyStatus = statusCode a b c)
    (Q := St.Watching (statusCode a b c)) (fun _ h => h.late)
    (fun _ _ h hknown htimely => h.step hcode hline hknown htimely)
    (fun _ _ h hknown hlate hP => (h.missed hline hknown hlate).2
      (hP (h.missed hline hknown hlate).1))
    hstart (Run.along_of_forall_prefix (P := fun st : St => readBytes st.acts <+: stream) hreads)

/-! ### Four responses -/

/-- A proxied connection whose buffer has held some bytes before. -/
def relaying (stale : List UInt8) : St :=
  ⟨0, { proxiedConn with upstreamRbuf := bufReset (bufAppend proxiedConn.upstreamRbuf stale) },
    backendWorker.ws, idleEnv, []⟩

/-- Some bytes arrive, and the client's socket takes them all. -/
def passes (text : List UInt8) : RelayOp := .turn [.data text] [.wrote 65536] [true, true]

/-- Some bytes arrive, and the client's socket takes none. -/
def waits (text : List UInt8) : RelayOp := .turn [.data text] [] [true, true]

/-- The status line comes with the first read. -/
theorem noted_iff_timely_passes :
    13 ≤ (readBytes (Run.run St.relayOp (relaying [])
        [passes (bytes "HTTP/1.1 200 OK"), passes (bytes "HTTP/1.1 404 ")]).acts).length ∧
      (Run.run St.relayOp (relaying [])
        [passes (bytes "HTTP/1.1 200 OK"), passes (bytes "HTTP/1.1 404 ")]).conn.proxyStatus
          = 200 := by
  have hlong : 13 ≤ (readBytes (Run.run St.relayOp (relaying [])
      [passes (bytes "HTTP/1.1 200 OK"), passes (bytes "HTTP/1.1 404 ")]).acts).length := by
    decide +kernel
  refine ⟨hlong, ?_⟩
  exact (noted_iff_timely (relaying []) 1 2 0 0 (bytes "HTTP/1.1 200 OKHTTP/1.1 404 ") _ rfl
    (by decide +kernel) (bufReset_wf (bufAppend_wf proxiedConn_wf (Nat.zero_le _)))
    (bufBytes_reset _) (by decide +kernel) (by decide +kernel) (by decide)).mpr
    (by decide +kernel) _ (List.prefix_refl _) hlong

/-- **A status that is missed**, as the client has taken the first bytes of the line; one that is
read wrong, as the digits of an earlier response follow in the buffer; and one that is not told
from no status, so that the text of the response replaces it. -/
theorem exists_status_missed :
    (openingLine 1 2 0 0 <+: readBytes (Run.run St.relayOp (relaying [])
          [passes (bytes "HTTP/"), passes (bytes "1.1 200 OK")]).acts ∧
        (Run.run St.relayOp (relaying [])
          [passes (bytes "HTTP/"), passes (bytes "1.1 200 OK")]).conn.proxyStatus = 0) ∧
      (openingLine 1 2 0 0 <+: readBytes (Run.run St.relayOp (relaying (bytes "HTTP/1.1 2000"))
          [waits (bytes "HTTP/1.1 200"), waits (bytes " OK")]).acts ∧
        (Run.run St.relayOp (relaying (bytes "HTTP/1.1 2000"))
          [waits (bytes "HTTP/1.1 200"), waits (bytes " OK")]).conn.proxyStatus = 2000) ∧
      (openingLine 1 0 0 0 <+: readBytes (Run.run St.relayOp (relaying [])
          [passes (bytes "HTTP/1.1 000 "), passes (bytes "HTTP/1.1 200 OK")]).acts ∧
        (Run.run St.relayOp (relaying [])
          [passes (bytes "HTTP/1.1 000 "), passes (bytes "HTTP/1.1 200 OK")]).conn.proxyStatus
            = 200) :=
  ⟨⟨by decide +kernel, by decide +kernel⟩, ⟨by decide +kernel, by decide +kernel⟩,
    by decide +kernel, by decide +kernel⟩

end Nproxy
