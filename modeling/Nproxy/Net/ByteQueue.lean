import Nproxy.Lib.Queue
import Nproxy.Lib.Run
import Nproxy.Net.Buffer

/-!
`np_buf_t` is a bounded queue of bytes.

The abstract side is `Queue.Pending`: the bytes that came in since the last reset, and
how many of them were taken. `BufOp` are the ways in which the program works on a
buffer, with whatever the kernel answers; `BufOp.apply` is what the source does and
`BufOp.onQueue` what that is for. `HoldsQueue.step` goes through the operations, and
`npBuf_refines_queue` through the runs.
-/

namespace Nproxy

open Queue (Pending)

/-! ### The operations -/

/-- What is done to a buffer. -/
inductive BufOp where
  /-- `memcpy` to `buf_write_ptr`, and `buf_produce` -/
  | append (bs : List UInt8)
  /-- `buf_consume` -/
  | consume (n : ℕ)
  /-- `buf_compact` -/
  | compact
  /-- `buf_reset` -/
  | reset
  /-- `buf_read_fd`, with what `read` gives -/
  | read (r : SysRead)
  /-- `buf_write_fd`, with what `write` gives -/
  | write (w : SysWrite)
  deriving DecidableEq, Repr

namespace BufOp

/-- The operation on the buffer. -/
def apply (b : NpBuf) : BufOp → NpBuf
  | .append bs => bufAppend b bs
  | .consume n => bufConsume b n
  | .compact => bufCompact b
  | .reset => bufReset b
  | .read r => (bufReadFd b [r]).buf
  | .write w => (bufWriteFd b [w]).buf

/-- A caller appends no more than is writable, and consumes no more than is readable. -/
def Allowed (b : NpBuf) : BufOp → Prop
  | .append bs => bs.length ≤ bufWritable b
  | .consume n => n ≤ bufReadable b
  | .compact | .reset | .read _ | .write _ => True

instance (b : NpBuf) : ∀ op : BufOp, Decidable (Allowed b op)
  | .append _ => inferInstanceAs (Decidable (_ ≤ _))
  | .consume _ => inferInstanceAs (Decidable (_ ≤ _))
  | .compact | .reset | .read _ | .write _ => isTrue trivial

/-- The operation on the queue. A read brings in what there is room for; the end of the stream,
`EAGAIN` and errors do nothing. -/
def onQueue (cap : ℕ) (q : Pending UInt8) : BufOp → Pending UInt8
  | .append bs => q.enter bs
  | .consume n => q.leave n
  | .compact => q
  | .reset => .empty
  | .read (.data bs) => q.enter (bs.take (cap - q.content.length))
  | .read .again | .read .err => q
  | .write (.wrote n) => q.leave n
  | .write .again | .write .err => q

end BufOp

/-- What `buf_write_fd` gives to `write`: `buf_readable(b)` bytes from `buf_read_ptr(b)`. -/
def bufOffered (b : NpBuf) : List UInt8 := (b.data.drop b.readPos).take (bufReadable b)

lemma bufOffered_eq (b : NpBuf) : bufOffered b = bufBytes b := rfl

/-! ### One operation -/

/-- The buffer is in order, and what can be read from it is what is in the queue. -/
structure HoldsQueue (cap : ℕ) (b : NpBuf) (q : Pending UInt8) : Prop where
  ordered : b.Ordered
  cap_eq : b.cap = cap
  content : bufBytes b = q.content

variable {cap : ℕ} {b : NpBuf} {q : Pending UInt8}

/-- What a read brings in is cut to the room that compacting makes. -/
lemma HoldsQueue.read (h : HoldsQueue cap b q) (r : SysRead) :
    HoldsQueue cap (bufReadFd b [r]).buf (BufOp.onQueue cap q (.read r)) := by
  obtain ⟨hordered, hbytes⟩ := h.ordered.bufReadFd [r]
  refine ⟨hordered, (bufReadFd_cap b [r]).trans h.cap_eq, ?_⟩
  have hspace : bufWritable (bufCompact b) = cap - q.content.length := by
    rw [h.ordered.bufWritable_compact, h.cap_eq, h.content]
  rw [hbytes, h.content]
  unfold bufReadFd
  simp only [hspace]
  split_ifs with hfull
  · -- there is no room, and nothing is read
    cases r with
    | data bs => simp [BufOp.onQueue, hfull]
    | again => simp [BufOp.onQueue]
    | err => simp [BufOp.onQueue]
  · cases r with
    | data bs =>
      simp only [BufOp.onQueue, Pending.content_enter]
      split_ifs with hnone
      · rw [hnone]
      · rfl
    | again => simp [BufOp.onQueue]
    | err => simp [BufOp.onQueue]

/-- What a write takes goes out at the front. -/
lemma HoldsQueue.write (h : HoldsQueue cap b q) (w : SysWrite) :
    HoldsQueue cap (bufWriteFd b [w]).buf (BufOp.onQueue cap q (.write w)) := by
  refine ⟨(h.ordered.bufWriteFd [w]).1, (bufWriteFd_cap b [w]).trans h.cap_eq, ?_⟩
  unfold bufWriteFd
  split_ifs with hempty
  · have hnil : q.content = [] := by
      rw [← h.content]
      exact List.eq_nil_of_length_eq_zero (h.ordered.length_bufBytes.trans hempty)
    cases w with
    | wrote n => simp [BufOp.onQueue, h.content, hnil]
    | again => exact h.content
    | err => exact h.content
  · cases w with
    | wrote n =>
      simp only [BufOp.onQueue, Pending.content_leave]
      split_ifs with hpos
      · rw [bufBytes_consume, h.content, ← h.ordered.length_bufBytes, h.content,
          ← List.drop_eq_drop_min]
      · have hzero : n = 0 := by omega
        rw [h.content, hzero, List.drop_zero]
    | again => exact h.content
    | err => exact h.content

/-- **One operation** does to the queue what it does to the buffer. -/
lemma HoldsQueue.step (h : HoldsQueue cap b q) {op : BufOp} (hop : op.Allowed b) :
    HoldsQueue cap (op.apply b) (op.onQueue cap q) := by
  cases op with
  | append bs =>
    refine ⟨h.ordered.append hop, h.cap_eq, ?_⟩
    rw [BufOp.apply, h.ordered.bufBytes_append hop, h.content, BufOp.onQueue,
      Pending.content_enter]
  | consume n =>
    refine ⟨h.ordered.consume hop, (bufConsume_cap b n).trans h.cap_eq, ?_⟩
    rw [BufOp.apply, bufBytes_consume, h.content, BufOp.onQueue, Pending.content_leave]
  | compact =>
    exact ⟨h.ordered.compact, (bufCompact_cap b).trans h.cap_eq,
      h.ordered.bufBytes_compact.trans h.content⟩
  | reset => exact ⟨h.ordered.reset, h.cap_eq, bufBytes_reset b⟩
  | read r => exact h.read r
  | write w => exact h.write w

/-! ### Every run -/

lemma HoldsQueue.run (h : HoldsQueue cap b q) {ops : List BufOp}
    (hops : Run.Along BufOp.apply BufOp.Allowed b ops) :
    HoldsQueue cap (Run.run BufOp.apply b ops) (Run.run (BufOp.onQueue cap) q ops) := by
  induction ops generalizing b q with
  | nil => exact h
  | cons op ops ih => exact ih (h.step hops.1) hops.2

/-- The buffer is the queue, as far as a caller can see. -/
structure RefinesQueue (cap : ℕ) (b : NpBuf) (q : Pending UInt8) : Prop where
  readPos_le : b.readPos ≤ b.writePos
  writePos_le : b.writePos ≤ b.cap
  cap_eq : b.cap = cap
  /-- the readable bytes came in since the last reset and were not taken yet, in their order -/
  content : bufBytes b = q.content
  readable : bufReadable b = q.content.length
  /-- what does not bring bytes in or out leaves the content alone -/
  read_none : ∀ r, (bufReadFd b [r]).got = [] → bufBytes (bufReadFd b [r]).buf = q.content
  write_none : ∀ w, (bufWriteFd b [w]).sent = [] → bufBytes (bufWriteFd b [w]).buf = q.content
  /-- `write` is given, and takes, what stands at the front -/
  offered : bufOffered b <+: q.content
  sent : ∀ w, (bufWriteFd b [w]).sent <+: q.content
  compact : bufWritable (bufCompact b) = cap - q.content.length

lemma HoldsQueue.refines (h : HoldsQueue cap b q) : RefinesQueue cap b q where
  readPos_le := h.ordered.le
  writePos_le := h.ordered.room
  cap_eq := h.cap_eq
  content := h.content
  readable := by rw [← h.content, h.ordered.length_bufBytes]
  read_none r hgot := by rw [(h.ordered.bufReadFd [r]).2, hgot, List.append_nil, h.content]
  write_none w hsent := by
    have hrest := (h.ordered.bufWriteFd [w]).2
    rwa [hsent, List.nil_append, h.content] at hrest
  offered := by rw [bufOffered_eq, h.content]
  sent w := ⟨_, (h.ordered.bufWriteFd [w]).2.trans h.content⟩
  compact := by rw [h.ordered.bufWritable_compact, h.cap_eq, h.content]

/-- **`np_buf_t` refines a bounded byte queue**, for every capacity and after every run of
operations. -/
theorem npBuf_refines_queue (cap : ℕ) (ops : List BufOp)
    (h : Run.Along BufOp.apply BufOp.Allowed (bufInit cap) ops) :
    RefinesQueue cap (Run.run BufOp.apply (bufInit cap) ops)
      (Run.run (BufOp.onQueue cap) .empty ops) := by
  have hinit : HoldsQueue cap (bufInit cap) .empty := ⟨.init cap, rfl, bufBytes_init cap⟩
  exact (hinit.run h).refines

/-- Eight bytes: six come in, two go out, and a read finds room for four. -/
def shortTraffic : List BufOp :=
  [.append (bytes "abcdef"), .write (.wrote 2), .read (.data (bytes "ghijkl")), .write .again,
    .consume 5]

/-- Along this traffic the buffer holds what the queue holds, in the end `hij`. The last two bytes
of the read did not fit. -/
theorem npBuf_refines_queue_shortTraffic :
    Run.Along BufOp.apply BufOp.Allowed (bufInit 8) shortTraffic ∧
      (Run.run (BufOp.onQueue 8) .empty shortTraffic).content = bytes "hij" ∧
      RefinesQueue 8 (Run.run BufOp.apply (bufInit 8) shortTraffic)
        (Run.run (BufOp.onQueue 8) .empty shortTraffic) := by
  have halong : Run.Along BufOp.apply BufOp.Allowed (bufInit 8) shortTraffic := by
    decide +kernel
  exact ⟨halong, by decide +kernel, npBuf_refines_queue 8 shortTraffic halong⟩

end Nproxy
