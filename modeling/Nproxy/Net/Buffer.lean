import Nproxy.Core.StringUtil
import Nproxy.Lib.Memory

/-!
`net/buffer.c`: the byte buffers `np_buf_t`, and the system calls on them.

A buffer is a block of memory with two cursors; `bufBytes` is what stands between
them, which is what every user of a buffer works on. The operations are those of
the source; each has one lemma that says what it does to `bufBytes`, and one that
says it keeps the cursors in order (`NpBuf.Wf`).

The results of `read(2)` and `write(2)` are inputs: an event handler is run on a
list of the results that its calls will get, in order (`SysRead`, `SysWrite`), and
a list that has run out stands for a socket that would block.
-/

namespace Nproxy

open Memory (slice blit)

/-! ### Buffers -/

/-- `np_buf_t`. -/
structure NpBuf where
  data : List UInt8
  cap : ℕ
  readPos : ℕ
  writePos : ℕ
  deriving DecidableEq, Repr

/-- `buf_init`, on a block that `malloc` gave; its cells hold anything, `0` here. -/
def bufInit (cap : ℕ) : NpBuf := ⟨List.replicate cap 0, cap, 0, 0⟩

/-- `buf_free`. -/
def bufFree (_b : NpBuf) : NpBuf := ⟨[], 0, 0, 0⟩

/-- `buf_reset`. -/
def bufReset (b : NpBuf) : NpBuf := { b with readPos := 0, writePos := 0 }

/-- `buf_readable`. -/
def bufReadable (b : NpBuf) : ℕ := b.writePos - b.readPos

/-- `buf_writable`. -/
def bufWritable (b : NpBuf) : ℕ := b.cap - b.writePos

/-- The readable bytes: `buf_readable(b)` bytes from `buf_read_ptr(b)`. -/
def bufBytes (b : NpBuf) : List UInt8 := slice b.data b.readPos b.writePos

/-- `buf_consume`. -/
def bufConsume (b : NpBuf) (n : ℕ) : NpBuf :=
  let b := { b with readPos := b.readPos + n }
  if b.readPos = b.writePos then { b with readPos := 0, writePos := 0 } else b

/-- `buf_produce`. -/
def bufProduce (b : NpBuf) (n : ℕ) : NpBuf := { b with writePos := b.writePos + n }

/-- `memcpy` to `buf_write_ptr(b)` and `buf_produce`, which the source always
writes together. -/
def bufAppend (b : NpBuf) (src : List UInt8) : NpBuf :=
  bufProduce { b with data := blit b.data b.writePos src } src.length

/-- `buf_compact`. -/
def bufCompact (b : NpBuf) : NpBuf :=
  let readable := bufReadable b
  if readable = 0 then bufReset b
  else if b.readPos > 0 then
    { b with
      data := blit b.data 0 (slice b.data b.readPos b.writePos)
      readPos := 0
      writePos := readable }
  else b

/-! ### System calls -/

/-- The result of a `read(2)`: data (none of it is end of file), `EAGAIN`, or
another error. -/
inductive SysRead where
  | data (bs : List UInt8)
  | again
  | err
  deriving DecidableEq, Repr

/-- The result of a `write(2)`: so many bytes are taken, `EAGAIN`, or another
error. -/
inductive SysWrite where
  | wrote (n : ℕ)
  | again
  | err
  deriving DecidableEq, Repr

/-- What `buf_read_fd` and `buf_write_fd` return: a count, `NP_ERR_CLOSED`,
`NP_ERR_AGAIN` or `NP_ERR`. -/
inductive Ret where
  | ok (n : ℕ)
  | closed
  | again
  | err
  deriving DecidableEq, Repr

/-- A `buf_read_fd` or a loop of them: the value returned last, the bytes that
came in, the buffer, and the results left for later calls. -/
structure ReadOut where
  ret : Ret
  got : List UInt8
  buf : NpBuf
  tape : List SysRead

/-- A `buf_write_fd` or a loop of them, with the bytes that went out. -/
structure WriteOut where
  ret : Ret
  sent : List UInt8
  buf : NpBuf
  tape : List SysWrite

/-- `buf_read_fd`. The kernel gives at most the space that is asked for. -/
def bufReadFd (b : NpBuf) (tape : List SysRead) : ReadOut :=
  let b := bufCompact b
  let space := bufWritable b
  if space = 0 then ⟨.ok 0, [], b, tape⟩
  else
    match tape with
    | [] => ⟨.again, [], b, []⟩
    | .data bs :: tape =>
      let bs := bs.take space
      if bs = [] then ⟨.closed, [], b, tape⟩
      else ⟨.ok bs.length, bs, bufAppend b bs, tape⟩
    | .again :: tape => ⟨.again, [], b, tape⟩
    | .err :: tape => ⟨.err, [], b, tape⟩

/-- `buf_write_fd`. The kernel takes at most the bytes that are offered. -/
def bufWriteFd (b : NpBuf) (tape : List SysWrite) : WriteOut :=
  if bufReadable b = 0 then ⟨.ok 0, [], b, tape⟩
  else
    match tape with
    | [] => ⟨.again, [], b, []⟩
    | .wrote k :: tape =>
      let n := min k (bufReadable b)
      if n > 0 then ⟨.ok n, (bufBytes b).take n, bufConsume b n, tape⟩
      else ⟨.ok 0, [], b, tape⟩
    | .again :: tape => ⟨.again, [], b, tape⟩
    | .err :: tape => ⟨.err, [], b, tape⟩

/-- `do { n = buf_read_fd(b, fd); } while (n > 0);` -/
def bufReadLoop (b : NpBuf) : List SysRead → ReadOut
  | [] => bufReadFd b []
  | r :: tape =>
    let o := bufReadFd b (r :: tape)
    match o.ret with
    | .ok (_ + 1) =>
      let o' := bufReadLoop o.buf tape
      { o' with got := o.got ++ o'.got }
    | _ => o

/-- `do { n = buf_write_fd(b, fd); } while (n > 0);` -/
def bufWriteLoop (b : NpBuf) : List SysWrite → WriteOut
  | [] => bufWriteFd b []
  | w :: tape =>
    let o := bufWriteFd b (w :: tape)
    match o.ret with
    | .ok (_ + 1) =>
      let o' := bufWriteLoop o.buf tape
      { o' with sent := o.sent ++ o'.sent }
    | _ => o

/-! ### The cursors stay in order -/

/-- The block has its capacity, and the cursors stand in it one behind the other. -/
structure NpBuf.Ordered (b : NpBuf) : Prop where
  size : b.data.length = b.cap
  le : b.readPos ≤ b.writePos
  room : b.writePos ≤ b.cap

/-- A buffer in order whose block has the size of a C object. -/
structure NpBuf.Wf (b : NpBuf) : Prop extends b.Ordered where
  object : b.cap < 2 ^ 63

variable {b : NpBuf}

namespace NpBuf.Ordered

lemma init (cap : ℕ) : (bufInit cap).Ordered :=
  ⟨by simp [bufInit], by simp [bufInit], by simp [bufInit]⟩

lemma reset (h : b.Ordered) : (bufReset b).Ordered := ⟨h.size, le_rfl, Nat.zero_le _⟩

/-- `buf_readable` is the number of readable bytes. -/
lemma length_bufBytes (h : b.Ordered) : (bufBytes b).length = bufReadable b := by
  rw [bufBytes, Memory.length_slice (by rw [h.size]; exact h.room), bufReadable]

lemma append (h : b.Ordered) {src : List UInt8} (hs : src.length ≤ bufWritable b) :
    (bufAppend b src).Ordered := by
  have hroom := h.room
  rw [bufWritable] at hs
  refine ⟨?_, ?_, ?_⟩
  · exact (Memory.length_blit (by rw [h.size]; omega)).trans h.size
  · exact h.le.trans (Nat.le_add_right _ _)
  · change b.writePos + src.length ≤ b.cap
    omega

lemma bufBytes_append (h : b.Ordered) {src : List UInt8} (hs : src.length ≤ bufWritable b) :
    bufBytes (bufAppend b src) = bufBytes b ++ src := by
  have hroom := h.room
  rw [bufWritable] at hs
  exact Memory.slice_blit h.le (by rw [h.size]; omega)

lemma consume (h : b.Ordered) {n : ℕ} (hn : n ≤ bufReadable b) : (bufConsume b n).Ordered := by
  have hle := h.le
  rw [bufReadable] at hn
  rw [bufConsume]
  split
  · exact ⟨h.size, le_rfl, Nat.zero_le _⟩
  · exact ⟨h.size, by change b.readPos + n ≤ b.writePos; omega, h.room⟩

lemma compact (h : b.Ordered) : (bufCompact b).Ordered := by
  have hroom := h.room
  rw [bufCompact]
  split
  · exact h.reset
  · split
    · have hlen : (slice b.data b.readPos b.writePos).length = b.writePos - b.readPos :=
        Memory.length_slice (by rw [h.size]; exact h.room)
      refine ⟨?_, Nat.zero_le _, ?_⟩
      · refine (Memory.length_blit ?_).trans h.size
        rw [hlen, h.size]
        omega
      · change bufReadable b ≤ b.cap
        rw [bufReadable]
        omega
    · exact h

/-- Compacting leaves the readable bytes alone. -/
lemma bufBytes_compact (h : b.Ordered) : bufBytes (bufCompact b) = bufBytes b := by
  have hroom := h.room
  have hlen : (slice b.data b.readPos b.writePos).length = bufReadable b := h.length_bufBytes
  rw [bufCompact]
  split
  · rename_i h0
    rw [h0] at hlen
    rw [bufBytes, bufBytes, List.eq_nil_of_length_eq_zero hlen]
    exact Memory.slice_self _ _
  · split
    · have hle : (slice b.data b.readPos b.writePos).length ≤ b.data.length := by
        rw [hlen, h.size, bufReadable]
        omega
      have hfront := Memory.slice_blit_zero hle
      rw [hlen] at hfront
      exact hfront
    · rfl

/-- After compacting, everything that holds no readable byte is writable. -/
lemma bufWritable_compact (h : b.Ordered) :
    bufWritable (bufCompact b) = b.cap - (bufBytes b).length := by
  have hle := h.le
  rw [h.length_bufBytes, bufCompact]
  split
  · rename_i h0
    rw [h0]
    rfl
  · split
    · rfl
    · rename_i hr
      rw [bufWritable, bufReadable]
      omega

end NpBuf.Ordered

lemma bufInit_wf {cap : ℕ} (h : cap < 2 ^ 63) : (bufInit cap).Wf := ⟨.init cap, h⟩

@[simp] lemma bufBytes_init (cap : ℕ) : bufBytes (bufInit cap) = [] := by
  simp [bufBytes, bufInit]

lemma bufReset_wf (h : b.Wf) : (bufReset b).Wf := ⟨h.reset, h.object⟩

@[simp] lemma bufBytes_reset (b : NpBuf) : bufBytes (bufReset b) = [] := by
  simp [bufBytes, bufReset]

@[simp] lemma bufReset_cap (b : NpBuf) : (bufReset b).cap = b.cap := rfl

lemma bufFree_wf (b : NpBuf) : (bufFree b).Wf :=
  ⟨⟨rfl, le_rfl, le_rfl⟩, by simp [bufFree]⟩

lemma length_bufBytes (h : b.Wf) : (bufBytes b).length = bufReadable b :=
  h.toOrdered.length_bufBytes

lemma bufReadable_eq_zero_iff (h : b.Wf) : bufReadable b = 0 ↔ bufBytes b = [] := by
  rw [← length_bufBytes h, List.length_eq_zero_iff]

@[simp] lemma bufAppend_cap (b : NpBuf) (src : List UInt8) : (bufAppend b src).cap = b.cap := rfl

lemma bufAppend_wf (h : b.Wf) {src : List UInt8} (hs : src.length ≤ bufWritable b) :
    (bufAppend b src).Wf := ⟨h.append hs, h.object⟩

lemma bufBytes_append (h : b.Wf) {src : List UInt8} (hs : src.length ≤ bufWritable b) :
    bufBytes (bufAppend b src) = bufBytes b ++ src := h.toOrdered.bufBytes_append hs

@[simp] lemma bufConsume_cap (b : NpBuf) (n : ℕ) : (bufConsume b n).cap = b.cap := by
  rw [bufConsume]
  split <;> rfl

lemma bufConsume_wf (h : b.Wf) {n : ℕ} (hn : n ≤ bufReadable b) : (bufConsume b n).Wf :=
  ⟨h.consume hn, by rw [bufConsume_cap]; exact h.object⟩

lemma bufBytes_consume (b : NpBuf) (n : ℕ) : bufBytes (bufConsume b n) = (bufBytes b).drop n := by
  rw [bufConsume, bufBytes, bufBytes, Memory.drop_slice]
  split
  · rename_i heq
    change b.readPos + n = b.writePos at heq
    rw [← heq]
    simp
  · rfl

@[simp] lemma bufCompact_cap (b : NpBuf) : (bufCompact b).cap = b.cap := by
  rw [bufCompact]
  split
  · rfl
  · split <;> rfl

lemma bufCompact_wf (h : b.Wf) : (bufCompact b).Wf :=
  ⟨h.compact, by rw [bufCompact_cap]; exact h.object⟩

lemma bufBytes_compact (h : b.Wf) : bufBytes (bufCompact b) = bufBytes b :=
  h.toOrdered.bufBytes_compact

lemma bufWritable_compact (h : b.Wf) :
    bufWritable (bufCompact b) = b.cap - (bufBytes b).length := h.toOrdered.bufWritable_compact

/-! ### What the system calls do -/

@[simp] lemma bufReadFd_cap (b : NpBuf) (tape : List SysRead) :
    (bufReadFd b tape).buf.cap = b.cap := by
  unfold bufReadFd
  simp only
  split
  · simp
  · split
    · simp
    · split <;> simp
    · simp
    · simp

@[simp] lemma bufWriteFd_cap (b : NpBuf) (tape : List SysWrite) :
    (bufWriteFd b tape).buf.cap = b.cap := by
  unfold bufWriteFd
  split
  · rfl
  · split
    · rfl
    · simp only
      split <;> simp
    · rfl
    · rfl

@[simp] lemma bufReadLoop_cap (b : NpBuf) (tape : List SysRead) :
    (bufReadLoop b tape).buf.cap = b.cap := by
  induction tape generalizing b with
  | nil => simp [bufReadLoop]
  | cons r tape ih =>
    rw [bufReadLoop]
    split
    · simp only [ih, bufReadFd_cap]
    · simp

@[simp] lemma bufWriteLoop_cap (b : NpBuf) (tape : List SysWrite) :
    (bufWriteLoop b tape).buf.cap = b.cap := by
  induction tape generalizing b with
  | nil => simp [bufWriteLoop]
  | cons w tape ih =>
    rw [bufWriteLoop]
    split
    · simp only [ih, bufWriteFd_cap]
    · simp

/-- `buf_read_fd`: what came in stands behind what was there. -/
lemma NpBuf.Ordered.bufReadFd (h : b.Ordered) (tape : List SysRead) :
    (bufReadFd b tape).buf.Ordered ∧
    bufBytes (bufReadFd b tape).buf = bufBytes b ++ (bufReadFd b tape).got := by
  have hc := h.compact
  have hb := h.bufBytes_compact
  unfold Nproxy.bufReadFd
  simp only
  split
  · exact ⟨hc, by simp [hb]⟩
  · cases tape with
    | nil => exact ⟨hc, by simp [hb]⟩
    | cons r tape =>
      cases r with
      | data bs =>
        simp only
        split
        · exact ⟨hc, by simp [hb]⟩
        · have hle : (bs.take (bufWritable (bufCompact b))).length
              ≤ bufWritable (bufCompact b) := by
            rw [List.length_take]
            omega
          exact ⟨hc.append hle, by rw [hc.bufBytes_append hle, hb]⟩
      | again => exact ⟨hc, by simp [hb]⟩
      | err => exact ⟨hc, by simp [hb]⟩

lemma bufReadFd_spec (h : b.Wf) (tape : List SysRead) :
    (bufReadFd b tape).buf.Wf ∧
    bufBytes (bufReadFd b tape).buf = bufBytes b ++ (bufReadFd b tape).got := by
  obtain ⟨hordered, hbytes⟩ := h.toOrdered.bufReadFd tape
  exact ⟨⟨hordered, by rw [bufReadFd_cap]; exact h.object⟩, hbytes⟩

lemma bufReadFd_got (b : NpBuf) (tape : List SysRead) :
    (bufReadFd b tape).ret = .ok (bufReadFd b tape).got.length ∨ (bufReadFd b tape).got = [] := by
  unfold bufReadFd
  simp only
  split
  · exact Or.inr rfl
  · split
    · exact Or.inr rfl
    · split
      · exact Or.inr rfl
      · exact Or.inl rfl
    · exact Or.inr rfl
    · exact Or.inr rfl

/-- A read that does not return a positive count got nothing. -/
lemma bufReadFd_got_eq_nil {tape : List SysRead}
    (h : ∀ k, (bufReadFd b tape).ret ≠ .ok (k + 1)) : (bufReadFd b tape).got = [] := by
  rcases bufReadFd_got b tape with hret | hnil
  · cases hlen : (bufReadFd b tape).got.length with
    | zero => exact List.eq_nil_of_length_eq_zero hlen
    | succ k => exact absurd (hret.trans (by rw [hlen])) (h k)
  · exact hnil

/-- The count that a read returns is that of the bytes it got. -/
lemma bufReadFd_count (tape : List SysRead) {n : ℕ} (h : (bufReadFd b tape).ret = .ok n) :
    (bufReadFd b tape).got.length = n := by
  unfold bufReadFd at h ⊢
  simp only at h ⊢
  split at h
  · rename_i hspace
    simp only [if_pos hspace]
    simpa using h
  · rename_i hspace
    simp only [if_neg hspace]
    cases tape with
    | nil => simp at h
    | cons r tape =>
      cases r with
      | data bs =>
        simp only at h ⊢
        split at h
        · simp at h
        · rename_i hne
          rw [if_neg hne]
          simpa using h
      | again => simp at h
      | err => simp at h

/-- A buffer that is not full is read into. -/
lemma bufReadFd_ne_zero (hwf : b.Wf) (hroom : bufReadable b < b.cap) (tape : List SysRead) :
    (bufReadFd b tape).ret ≠ .ok 0 := by
  have hspace : bufWritable (bufCompact b) ≠ 0 := by
    rw [bufWritable_compact hwf, length_bufBytes hwf]
    omega
  unfold bufReadFd
  simp only [if_neg hspace]
  split
  · simp
  · split
    · simp
    · rename_i hne
      simpa using hne
  · simp
  · simp

lemma bufReadFd_nil_ret (b : NpBuf) (k : ℕ) : (bufReadFd b []).ret ≠ .ok (k + 1) := by
  unfold bufReadFd
  simp only
  split <;> simp

/-- `buf_write_fd`: what went out and what is left are what was there. -/
lemma NpBuf.Ordered.bufWriteFd (h : b.Ordered) (tape : List SysWrite) :
    (bufWriteFd b tape).buf.Ordered ∧
    (bufWriteFd b tape).sent ++ bufBytes (bufWriteFd b tape).buf = bufBytes b := by
  unfold Nproxy.bufWriteFd
  split
  · exact ⟨h, by simp⟩
  · cases tape with
    | nil => exact ⟨h, by simp⟩
    | cons w tape =>
      cases w with
      | wrote k =>
        simp only
        split
        · refine ⟨h.consume (Nat.min_le_right _ _), ?_⟩
          rw [bufBytes_consume, List.take_append_drop]
        · exact ⟨h, by simp⟩
      | again => exact ⟨h, by simp⟩
      | err => exact ⟨h, by simp⟩

lemma bufWriteFd_spec (h : b.Wf) (tape : List SysWrite) :
    (bufWriteFd b tape).buf.Wf ∧
    (bufWriteFd b tape).sent ++ bufBytes (bufWriteFd b tape).buf = bufBytes b := by
  obtain ⟨hordered, hbytes⟩ := h.toOrdered.bufWriteFd tape
  exact ⟨⟨hordered, by rw [bufWriteFd_cap]; exact h.object⟩, hbytes⟩

/-- A loop of reads does what one read does. -/
lemma bufReadLoop_spec (h : b.Wf) (tape : List SysRead) :
    (bufReadLoop b tape).buf.Wf ∧
    bufBytes (bufReadLoop b tape).buf = bufBytes b ++ (bufReadLoop b tape).got := by
  induction tape generalizing b with
  | nil => exact bufReadFd_spec h []
  | cons r tape ih =>
    obtain ⟨h1, h2⟩ := bufReadFd_spec h (r :: tape)
    rw [bufReadLoop]
    split
    · obtain ⟨i1, i2⟩ := ih h1
      exact ⟨i1, by rw [i2, h2, List.append_assoc]⟩
    · exact ⟨h1, h2⟩

/-- A loop of writes does what one write does. -/
lemma bufWriteLoop_spec (h : b.Wf) (tape : List SysWrite) :
    (bufWriteLoop b tape).buf.Wf ∧
    (bufWriteLoop b tape).sent ++ bufBytes (bufWriteLoop b tape).buf = bufBytes b := by
  induction tape generalizing b with
  | nil => exact bufWriteFd_spec h []
  | cons w tape ih =>
    obtain ⟨h1, h2⟩ := bufWriteFd_spec h (w :: tape)
    rw [bufWriteLoop]
    split
    · obtain ⟨i1, i2⟩ := ih h1
      exact ⟨i1, by rw [List.append_assoc, i2, h2]⟩
    · exact ⟨h1, h2⟩

lemma bufWriteLoop_of_empty (h : bufReadable b = 0) (tape : List SysWrite) :
    bufWriteLoop b tape = ⟨.ok 0, [], b, tape⟩ := by
  cases tape with
  | nil => rw [bufWriteLoop, bufWriteFd, if_pos h]
  | cons w tape => simp [bufWriteLoop, bufWriteFd, h]

/-- A socket that takes all it is offered. -/
lemma bufWriteLoop_wrote_eq (h : b.Wf) (hne : bufReadable b ≠ 0) {k : ℕ} (hk : bufReadable b ≤ k)
    (tape : List SysWrite) : bufWriteLoop b (.wrote k :: tape) =
      ⟨.ok 0, bufBytes b, bufConsume b (bufReadable b), tape⟩ := by
  have hmin : min k (bufReadable b) = bufReadable b := min_eq_right hk
  have hgone : bufReadable (bufConsume b (bufReadable b)) = 0 := by
    rw [bufReadable_eq_zero_iff (bufConsume_wf h le_rfl), bufBytes_consume,
      ← length_bufBytes h, List.drop_length]
  obtain ⟨n, hn⟩ := Nat.exists_eq_succ_of_ne_zero hne
  have hfd : bufWriteFd b (.wrote k :: tape) =
      ⟨.ok (n + 1), bufBytes b, bufConsume b (bufReadable b), tape⟩ := by
    rw [bufWriteFd, if_neg hne]
    simp only [hmin, if_pos (Nat.pos_of_ne_zero hne)]
    rw [← length_bufBytes h, List.take_length, length_bufBytes h, hn]
  rw [bufWriteLoop, hfd]
  simp only [bufWriteLoop_of_empty hgone, List.append_nil]

/-- Nothing is left then. -/
lemma bufWriteLoop_wrote (h : b.Wf) {k : ℕ} (hk : bufReadable b ≤ k) (tape : List SysWrite) :
    bufReadable (bufWriteLoop b (.wrote k :: tape)).buf = 0 := by
  by_cases hempty : bufReadable b = 0
  · rw [bufWriteLoop_of_empty hempty]
    exact hempty
  · rw [bufWriteLoop_wrote_eq h hempty hk, bufReadable_eq_zero_iff (bufConsume_wf h le_rfl),
      bufBytes_consume, ← length_bufBytes h, List.drop_length]

/-! ### Empty buffers -/

/-- The cursors of an empty buffer stand at its start: `buf_consume` puts them there with
the last byte. -/
def NpBuf.Tidy (b : NpBuf) : Prop := b.readPos = b.writePos → b.writePos = 0

lemma bufReset_tidy (b : NpBuf) : (bufReset b).Tidy := fun _ => rfl

lemma bufAppend_tidy (h : b.Wf) {src : List UInt8} (hsrc : 0 < src.length) :
    (bufAppend b src).Tidy := by
  intro heq
  have hle := h.le
  change b.readPos = b.writePos + src.length at heq
  omega

lemma bufConsume_tidy (b : NpBuf) (n : ℕ) : (bufConsume b n).Tidy := by
  rw [bufConsume]
  split
  · exact fun _ => rfl
  · rename_i hne
    exact fun heq => absurd heq hne

lemma bufWriteFd_tidy (h : b.Tidy) (tape : List SysWrite) : (bufWriteFd b tape).buf.Tidy := by
  unfold bufWriteFd
  split
  · exact h
  · split
    · exact h
    · simp only
      split
      · exact bufConsume_tidy _ _
      · exact h
    · exact h
    · exact h

lemma bufWriteLoop_tidy (h : b.Tidy) (tape : List SysWrite) : (bufWriteLoop b tape).buf.Tidy := by
  induction tape generalizing b with
  | nil => exact bufWriteFd_tidy h []
  | cons w tape ih =>
    rw [bufWriteLoop]
    split
    · exact ih (bufWriteFd_tidy h _)
    · exact bufWriteFd_tidy h _

/-- All of an empty buffer can be written. -/
lemma NpBuf.Tidy.bufWritable_eq (h : b.Tidy) (hwf : b.Wf) (hempty : bufReadable b = 0) :
    bufWritable b = b.cap := by
  have hle := hwf.le
  rw [bufReadable] at hempty
  rw [bufWritable, h (by omega), Nat.sub_zero]

/-! ### What a loop of reads gets -/

/-- What comes before the end of the stream, an error, or a pause. -/
def arriving : List SysRead → List UInt8
  | .data (x :: xs) :: tape => x :: xs ++ arriving tape
  | _ => []

lemma NpBuf.Wf.readable_le (h : b.Wf) : bufReadable b ≤ b.cap := by
  have hroom := h.room
  rw [bufReadable]
  omega

/-- A buffer that is full is not read into. -/
lemma bufReadFd_full (hwf : b.Wf) (hfull : bufReadable b = b.cap)
    (tape : List SysRead) : bufReadFd b tape = ⟨.ok 0, [], bufCompact b, tape⟩ := by
  have hspace : bufWritable (bufCompact b) = 0 := by
    rw [bufWritable_compact hwf, length_bufBytes hwf, hfull, Nat.sub_self]
  unfold bufReadFd
  simp only [if_pos hspace]

lemma bufReadFd_data (h : b.Wf) (hroom : bufReadable b < b.cap) (x : UInt8) (xs : List UInt8)
    (tape : List SysRead) :
    (∃ k, (bufReadFd b (.data (x :: xs) :: tape)).ret = .ok (k + 1)) ∧
      (bufReadFd b (.data (x :: xs) :: tape)).got = (x :: xs).take (b.cap - bufReadable b) := by
  have hspace : bufWritable (bufCompact b) = b.cap - bufReadable b := by
    rw [bufWritable_compact h, length_bufBytes h]
  obtain ⟨k, hk⟩ := Nat.exists_eq_succ_of_ne_zero (show b.cap - bufReadable b ≠ 0 by omega)
  unfold bufReadFd
  simp only [hspace, hk, Nat.succ_ne_zero, if_false, Nat.succ_eq_add_one, List.take_succ_cons,
    List.cons_ne_nil, List.length_cons, Ret.ok.injEq, Nat.add_right_cancel_iff, exists_eq',
    and_self]

/-- The bytes of a buffer are cut off where it ends. -/
lemma take_bufBytes_append (h : b.Wf) (bs cs : List UInt8) :
    (bufBytes b ++ bs.take (b.cap - bufReadable b) ++ cs).take b.cap =
      (bufBytes b ++ (bs ++ cs)).take b.cap := by
  have hlen := length_bufBytes h
  rcases le_total bs.length (b.cap - bufReadable b) with hle | hge
  · rw [List.take_of_length_le hle, List.append_assoc]
  · have hcut : (bs.take (b.cap - bufReadable b)).length = b.cap - bufReadable b := by
      rw [List.length_take, min_eq_left hge]
    have htake (ds : List UInt8) : (bufBytes b ++ ds).take b.cap =
        (bufBytes b).take b.cap ++ ds.take (b.cap - bufReadable b) := by
      rw [List.take_append, hlen]
    rw [List.append_assoc, htake, htake, List.take_append_of_le_length hcut.ge,
      List.take_append_of_le_length hge, List.take_take, min_self]

/-- What a loop of reads gets, and the value that ends it at a full buffer. -/
def GetsWhatFits (b : NpBuf) (tape : List SysRead) : Prop :=
  bufBytes (bufReadLoop b tape).buf = (bufBytes b ++ arriving tape).take b.cap ∧
    (b.cap ≤ (bufBytes b ++ arriving tape).length → (bufReadLoop b tape).ret = .ok 0)

/-- Nothing is read into a full buffer. -/
lemma getsWhatFits_of_full (h : b.Wf) (hfull : bufReadable b = b.cap) (tape : List SysRead) :
    GetsWhatFits b tape := by
  have hlen := length_bufBytes h
  have hstop : bufReadLoop b tape = ⟨.ok 0, [], bufCompact b, tape⟩ := by
    cases tape with
    | nil => exact bufReadFd_full h hfull []
    | cons r tape => rw [bufReadLoop, bufReadFd_full h hfull]
  rw [GetsWhatFits, hstop, List.take_append_of_le_length (by omega),
    List.take_of_length_le (by omega)]
  exact ⟨bufBytes_compact h, fun _ => rfl⟩

/-- Nothing comes, and the buffer is not full. -/
lemma getsWhatFits_of_pause (h : b.Wf) (hroom : bufReadable b < b.cap) {tape : List SysRead}
    (hnone : arriving tape = []) : GetsWhatFits b tape := by
  have hlen := length_bufBytes h
  have hspace : bufWritable (bufCompact b) ≠ 0 := by
    rw [bufWritable_compact h, hlen]
    omega
  have hgot : (bufReadLoop b tape).got = [] := by
    rcases tape with _ | ⟨_ | _ | _, tape⟩
    · simp [bufReadLoop, bufReadFd, hspace]
    · rename_i bs
      cases bs with
      | nil => simp [bufReadLoop, bufReadFd, hspace]
      | cons x xs => simp [arriving] at hnone
    · simp [bufReadLoop, bufReadFd, hspace]
    · simp [bufReadLoop, bufReadFd, hspace]
  rw [GetsWhatFits, (bufReadLoop_spec h tape).2, hgot, hnone, List.append_nil,
    List.take_of_length_le (by omega)]
  exact ⟨rfl, fun hcap => absurd hcap (by omega)⟩

/-- **A loop of reads gets what fits.** -/
lemma getsWhatFits (h : b.Wf) (tape : List SysRead) : GetsWhatFits b tape := by
  induction tape generalizing b with
  | nil =>
    rcases h.readable_le.eq_or_lt with hfull | hroom
    · exact getsWhatFits_of_full h hfull []
    · exact getsWhatFits_of_pause h hroom rfl
  | cons r tape ih =>
    rcases h.readable_le.eq_or_lt with hfull | hroom
    · exact getsWhatFits_of_full h hfull (r :: tape)
    · cases r with
      | data bs =>
        cases bs with
        | nil => exact getsWhatFits_of_pause h hroom rfl
        | cons x xs =>
          obtain ⟨⟨k, hret⟩, hgot⟩ := bufReadFd_data h hroom x xs tape
          obtain ⟨hwf, hbytes⟩ := bufReadFd_spec h (.data (x :: xs) :: tape)
          obtain ⟨htake, hzero⟩ := ih hwf
          rw [bufReadFd_cap, hbytes, hgot] at htake hzero
          rw [GetsWhatFits, bufReadLoop, hret, arriving, ← take_bufBytes_append h]
          refine ⟨htake, fun hcap => hzero ?_⟩
          have hlen := length_bufBytes h
          simp only [List.length_append, List.length_take] at hcap ⊢
          omega
      | again => exact getsWhatFits_of_pause h hroom rfl
      | err => exact getsWhatFits_of_pause h hroom rfl

end Nproxy
