import Nproxy.Proxy.Flight

/-!
The read loop of `proxy_on_upstream_event`, and what it leaves in the upstream's socket.

The loop ends when a read would block, at the upstream's end and with an error, but also when
`upstream_rbuf` is full: `buf_read_fd` then asks for nothing and returns 0.

* `St.honest`: the results that a kernel can give to the reads, for what waits in the socket.
* `St.upstreamLoop_drains`: a loop that never meets a full buffer reads all there is.
* `St.neverFull_of_fits`, `St.neverFull_of_takes`: it meets none if the buffer has room for all
  that waits, or if the client's socket takes whatever it is offered.
-/

namespace Nproxy

@[simp] lemma readBytes_append (as bs : List Act) :
    readBytes (as ++ bs) = readBytes as ++ readBytes bs := by
  simp [readBytes]

namespace St

/-! ### What the kernel answers -/

/-- Can the reads of the read loop have these results, if `cells` wait in the socket? They
get them from the front, `EAGAIN` only when none are left, and the end only behind them. -/
def honest (ended : Bool) : List SysRead → St → List UInt8 → Bool
  | [], st, cells => decide ((st.readUpstream []).1 = .again → cells = [] ∧ ended = false)
  | r :: tape, st, cells =>
    match st.readUpstream (r :: tape) with
    | (.ok (k + 1), st') =>
      decide ((bufReadFd st.conn.upstreamRbuf (r :: tape)).got <+: cells) &&
        honest ended tape st'.relayTurn (cells.drop (k + 1))
    | (.again, _) => decide (cells = [] ∧ ended = false)
    | (.closed, _) => decide (cells = [] ∧ ended = true)
    | _ => true

/-- The read loop never meets a full buffer. -/
def NeverFull : List SysRead → St → Prop
  | [], st => bufReadable st.conn.upstreamRbuf < st.conn.upstreamRbuf.cap
  | r :: tape, st => bufReadable st.conn.upstreamRbuf < st.conn.upstreamRbuf.cap ∧
      ∀ k st', st.readUpstream (r :: tape) = (.ok (k + 1), st') → NeverFull tape st'.relayTurn

/-! ### One turn of the read loop -/

/-- The response is looked at, and nothing of it moves. -/
structure Looks (st st' : St) : Prop where
  ws : st'.ws = st.ws
  fd : st'.conn.fd = st.conn.fd
  rbuf : st'.conn.upstreamRbuf = st.conn.upstreamRbuf
  writes : st'.env.clientWrites = st.env.clientWrites
  reads : readBytes st'.acts = readBytes st.acts

namespace Looks

variable {st st' st'' : St}

lemma refl (st : St) : Looks st st := ⟨rfl, rfl, rfl, rfl, rfl⟩

lemma trans (h1 : Looks st st') (h2 : Looks st' st'') : Looks st st'' :=
  ⟨h2.ws.trans h1.ws, h2.fd.trans h1.fd, h2.rbuf.trans h1.rbuf, h2.writes.trans h1.writes,
    h2.reads.trans h1.reads⟩

lemma captureStatus : Looks st st.captureStatus := by
  rcases captureStatus_cases st with heq | ⟨-, status, heq⟩ <;> rw [heq]
  · exact refl st
  · exact ⟨rfl, rfl, rfl, rfl, (readBytes_append _ _).trans (List.append_nil _)⟩

lemma captureCache : Looks st st.captureCache := by
  rcases captureCache_cases st with heq | ⟨-, buf, len, cap, reallocs, -, heq⟩ <;> rw [heq]
  · exact refl st
  · exact ⟨rfl, rfl, rfl, rfl, rfl⟩

end Looks

variable {st st' : St}

/-- What a turn does after a read is to write to the client. -/
lemma relayTurn_looks (st : St) :
    ∃ st0, Looks st st0 ∧ st.relayTurn = st0.relay :=
  ⟨_, Looks.captureStatus.trans .captureCache, rfl⟩

lemma relay_reads (st : St) : readBytes st.relay.acts = readBytes st.acts :=
  (readBytes_append _ _).trans (List.append_nil _)

lemma readUpstream_spec (st : St) (tape : List SysRead) :
    (st.readUpstream tape).1 = (bufReadFd st.conn.upstreamRbuf tape).ret ∧
      (st.readUpstream tape).2.conn =
        { st.conn with upstreamRbuf := (bufReadFd st.conn.upstreamRbuf tape).buf } ∧
      (st.readUpstream tape).2.ws = st.ws ∧
      (st.readUpstream tape).2.env.clientWrites = st.env.clientWrites ∧
      readBytes (st.readUpstream tape).2.acts =
        readBytes st.acts ++ (bufReadFd st.conn.upstreamRbuf tape).got := by
  rw [readUpstream]
  simp only
  split
  · refine ⟨rfl, rfl, rfl, rfl, ?_⟩
    simp [act, readBytes, upstreamMoves, Act.move, Queue.entered]
  · rename_i heq
    rw [bufReadFd_got_eq_nil (by simp [heq])]
    exact ⟨rfl, rfl, rfl, rfl, readBytes_append _ _⟩
  · rename_i hok hclosed
    rw [bufReadFd_got_eq_nil hok]
    exact ⟨rfl, rfl, rfl, rfl, (List.append_nil _).symm⟩

lemma relayTurn_reads (st : St) : readBytes st.relayTurn.acts = readBytes st.acts := by
  obtain ⟨st0, hlooks, heq⟩ := relayTurn_looks st
  rw [heq, relay_reads, hlooks.reads]

lemma relayTurn_ws (st : St) : st.relayTurn.ws = st.ws := by
  obtain ⟨st0, hlooks, heq⟩ := relayTurn_looks st
  rw [heq]
  exact hlooks.ws

/-- The read loop changes nothing in the worker. -/
lemma upstreamLoop_ws (tape : List SysRead) (st : St) : (upstreamLoop tape st).2.ws = st.ws := by
  induction tape generalizing st with
  | nil => exact (readUpstream_spec st []).2.2.1
  | cons r tape ih =>
    have hread := (readUpstream_spec st (r :: tape)).2.2.1
    rw [upstreamLoop]
    split <;> rename_i heq <;> rw [heq] at hread
    · rw [ih, relayTurn_ws, hread]
    · exact hread

/-- A read that would block brings nothing. -/
lemma readUpstream_again (st : St) (tape : List SysRead) (h : (st.readUpstream tape).1 = .again) :
    readBytes (st.readUpstream tape).2.acts = readBytes st.acts := by
  obtain ⟨hret, -, -, -, hreads⟩ := readUpstream_spec st tape
  rw [hreads, bufReadFd_got_eq_nil (by simp [← hret, h]), List.append_nil]

/-- **A read loop that never meets a full buffer reads all there is**: it ends because
nothing is left, or at the upstream's end, or with an error. -/
lemma upstreamLoop_drains {ended : Bool} (tape : List SysRead) {st : St} {cells : List UInt8}
    (hwf : st.conn.upstreamRbuf.Wf) (hhonest : honest ended tape st cells = true)
    (hfull : NeverFull tape st) :
    (upstreamLoop tape st).1 = .closed ∨ (upstreamLoop tape st).1 = .err ∨
      ended = false ∧ (readBytes (upstreamLoop tape st).2.acts).length =
        (readBytes st.acts).length + cells.length := by
  induction tape generalizing st cells with
  | nil =>
    have hret := (readUpstream_spec st []).1
    have hzero := bufReadFd_ne_zero hwf hfull []
    have hpos := bufReadFd_nil_ret st.conn.upstreamRbuf
    rw [← hret] at hzero hpos
    simp only [honest, decide_eq_true_eq] at hhonest
    rw [upstreamLoop]
    cases hn : (st.readUpstream []).1 with
    | closed => exact Or.inl rfl
    | err => exact Or.inr (Or.inl rfl)
    | again =>
      obtain ⟨rfl, hended⟩ := hhonest hn
      exact Or.inr (Or.inr ⟨hended, by rw [readUpstream_again st [] hn]; rfl⟩)
    | ok n =>
      cases n with
      | zero => exact absurd hn hzero
      | succ k => exact absurd hn (hpos k)
  | cons r tape ih =>
    obtain ⟨hret, -, -, -, hreads⟩ := readUpstream_spec st (r :: tape)
    have hagain := readUpstream_again st (r :: tape)
    have hzero := bufReadFd_ne_zero hwf hfull.1 (r :: tape)
    have hwf' := (Streams.readUpstream hwf (r :: tape)).wf
    rw [← hret] at hzero
    rw [honest] at hhonest
    rw [upstreamLoop]
    rcases hn : st.readUpstream (r :: tape) with ⟨n, st1⟩
    rw [hn] at hhonest hreads hagain hzero hwf'
    cases n with
    | closed => exact Or.inl rfl
    | err => exact Or.inr (Or.inl rfl)
    | again =>
      simp only [decide_eq_true_eq] at hhonest
      obtain ⟨rfl, hended⟩ := hhonest
      exact Or.inr (Or.inr ⟨hended, by simp only [hagain rfl, List.length_nil, add_zero]⟩)
    | ok n =>
      cases n with
      | zero => exact absurd rfl hzero
      | succ k =>
        -- the turn goes on, with `k + 1` bytes fewer in the socket
        simp only [Bool.and_eq_true, decide_eq_true_eq] at hhonest
        have hlen : (bufReadFd st.conn.upstreamRbuf (r :: tape)).got.length = k + 1 :=
          bufReadFd_count _ (by rw [← hret, hn])
        have hle := hhonest.1.length_le
        rcases ih (Streams.relayTurn hwf').wf hhonest.2 (hfull.2 k st1 hn) with h | h | h
        · exact Or.inl h
        · exact Or.inr (Or.inl h)
        · refine Or.inr (Or.inr ⟨h.1, ?_⟩)
          simp only [h.2, relayTurn_reads, hreads, List.length_append, List.length_drop, hlen]
          omega

/-! ### When the buffer never fills -/

/-- Does the client's socket take whatever it is offered, so many times? -/
def takes (cap : ℕ) : ℕ → List SysWrite → Bool
  | 0, _ => true
  | n + 1, .wrote k :: tape => decide (cap ≤ k) && takes cap n tape
  | _ + 1, _ => false

/-- A read that got something. -/
lemma readUpstream_grows {tape : List SysRead} {k : ℕ} (hwf : st.conn.upstreamRbuf.Wf)
    (h : st.readUpstream tape = (.ok k, st')) :
    st'.conn.upstreamRbuf.Wf ∧ st'.conn.upstreamRbuf.cap = st.conn.upstreamRbuf.cap ∧
      bufReadable st'.conn.upstreamRbuf = bufReadable st.conn.upstreamRbuf + k := by
  obtain ⟨hret, hconn, -, -, -⟩ := readUpstream_spec st tape
  obtain ⟨hwf', hbytes⟩ := bufReadFd_spec hwf tape
  rw [h] at hret hconn
  have hcount := bufReadFd_count tape hret.symm
  simp only at hconn
  rw [hconn]
  refine ⟨hwf', bufReadFd_cap _ _, ?_⟩
  rw [← length_bufBytes hwf', hbytes, List.length_append, length_bufBytes hwf, hcount]

/-- Writing to the client leaves no more in the buffer. -/
lemma relayTurn_shrinks (hwf : st.conn.upstreamRbuf.Wf) :
    st.relayTurn.conn.upstreamRbuf.Wf ∧
      st.relayTurn.conn.upstreamRbuf.cap = st.conn.upstreamRbuf.cap ∧
      bufReadable st.relayTurn.conn.upstreamRbuf ≤ bufReadable st.conn.upstreamRbuf := by
  obtain ⟨st0, hlooks, heq⟩ := relayTurn_looks st
  rw [heq, ← hlooks.rbuf]
  rw [← hlooks.rbuf] at hwf
  obtain ⟨hwf', hbytes⟩ := bufWriteLoop_spec hwf (onFd st0.conn.fd .err st0.env.clientWrites)
  refine ⟨hwf', bufWriteLoop_cap _ _, ?_⟩
  calc bufReadable st0.relay.conn.upstreamRbuf
      = (bufBytes st0.relay.conn.upstreamRbuf).length := (length_bufBytes hwf').symm
    _ ≤ (bufBytes st0.conn.upstreamRbuf).length := by
        rw [← hbytes, List.length_append]
        exact Nat.le_add_left _ _
    _ = bufReadable st0.conn.upstreamRbuf := length_bufBytes hwf

lemma neverFull_of_fits {ended : Bool} (tape : List SysRead) {st : St} {cells : List UInt8}
    (hwf : st.conn.upstreamRbuf.Wf) (hhonest : honest ended tape st cells = true)
    (hfits : bufReadable st.conn.upstreamRbuf + cells.length < st.conn.upstreamRbuf.cap) :
    NeverFull tape st := by
  induction tape generalizing st cells with
  | nil => exact (Nat.le_add_right _ _).trans_lt hfits
  | cons r tape ih =>
    refine ⟨(Nat.le_add_right _ _).trans_lt hfits, fun k st1 hread => ?_⟩
    obtain ⟨hwf1, hcap1, hgrows⟩ := readUpstream_grows hwf hread
    obtain ⟨hwf2, hcap2, hshrinks⟩ := relayTurn_shrinks hwf1
    have hcount : (bufReadFd st.conn.upstreamRbuf (r :: tape)).got.length = k + 1 :=
      bufReadFd_count _ (by rw [← (readUpstream_spec st (r :: tape)).1, hread])
    rw [honest, hread] at hhonest
    simp only [Bool.and_eq_true, decide_eq_true_eq] at hhonest
    have hle := hhonest.1.length_le
    refine ih hwf2 hhonest.2 ?_
    rw [hcap2, hcap1, List.length_drop]
    omega

/-- One result of a socket that takes whatever it is offered. -/
lemma takes_succ {cap n : ℕ} {fd : ℤ} {writes : List SysWrite}
    (h : takes cap (n + 1) (onFd fd .err writes) = true) :
    ¬fd < 0 ∧ ∃ k rest, writes = .wrote k :: rest ∧ cap ≤ k ∧ takes cap n rest = true := by
  have h0 : ¬fd < 0 := by
    intro hneg
    rw [onFd, if_pos hneg] at h
    simp [takes] at h
  rw [onFd, if_neg h0] at h
  refine ⟨h0, ?_⟩
  rcases writes with _ | ⟨w, rest⟩
  · simp [takes] at h
  · cases w with
    | wrote k =>
      simp only [takes, Bool.and_eq_true, decide_eq_true_eq] at h
      exact ⟨k, rest, rfl, h⟩
    | again => simp [takes] at h
    | err => simp [takes] at h

/-- A write that is offered less than the client's socket takes empties the buffer. -/
lemma relayTurn_empties {k : ℕ} {writes : List SysWrite} (hwf : st.conn.upstreamRbuf.Wf)
    (hne : bufReadable st.conn.upstreamRbuf ≠ 0) (hk : bufReadable st.conn.upstreamRbuf ≤ k)
    (h0 : ¬st.conn.fd < 0) (hw : st.env.clientWrites = .wrote k :: writes) :
    bufReadable st.relayTurn.conn.upstreamRbuf = 0 ∧ st.relayTurn.conn.fd = st.conn.fd ∧
      st.relayTurn.env.clientWrites = writes := by
  obtain ⟨st0, hlooks, heq⟩ := relayTurn_looks st
  have hloop := bufWriteLoop_wrote_eq hwf hne hk writes
  have hgone := bufWriteLoop_wrote hwf hk writes
  rw [heq, relay, hlooks.rbuf, hlooks.writes, hlooks.fd, hw, onFd, if_neg h0]
  exact ⟨hgone, rfl, by rw [hloop]⟩

/-- The client's socket takes everything. -/
lemma neverFull_of_takes (tape : List SysRead) {st : St} (hwf : st.conn.upstreamRbuf.Wf)
    (hroom : bufReadable st.conn.upstreamRbuf < st.conn.upstreamRbuf.cap)
    (htakes : takes st.conn.upstreamRbuf.cap tape.length
      (onFd st.conn.fd .err st.env.clientWrites) = true) :
    NeverFull tape st := by
  induction tape generalizing st with
  | nil => exact hroom
  | cons r tape ih =>
    refine ⟨hroom, fun k st1 hread => ?_⟩
    obtain ⟨h0, n, writes, hw, hle, hrest⟩ := takes_succ htakes
    obtain ⟨hwf1, hcap1, hgrows⟩ := readUpstream_grows hwf hread
    obtain ⟨hwf2, hcap2, -⟩ := relayTurn_shrinks hwf1
    obtain ⟨-, hconn, -, hwrites, -⟩ := readUpstream_spec st (r :: tape)
    rw [hread] at hconn hwrites
    have hfd1 : st1.conn.fd = st.conn.fd := by rw [hconn]
    have hk : bufReadable st1.conn.upstreamRbuf ≤ n := by
      have := hwf1.room
      rw [bufReadable]
      omega
    -- the first result is used up by what was just read
    obtain ⟨hgone, hfd2, hwrites2⟩ :=
      relayTurn_empties hwf1 (by omega) hk (hfd1 ▸ h0) (hwrites.trans hw)
    refine ih hwf2 ?_ ?_
    · rw [hgone, hcap2, hcap1]
      exact Nat.zero_lt_of_lt hroom
    · rw [hcap2, hcap1, hfd2, hfd1, hwrites2, onFd, if_neg h0]
      exact hrest

end St

end Nproxy
