import Nproxy.Proxy.ProxyConn

/-!
What `atoi` finds behind the bytes of `upstream_rbuf`.

`proxy_on_upstream_event` reads the status of a response with `atoi`, which does not know where the
bytes end that were read: it goes on in the memory behind `write_pos`, in which the bytes of earlier
responses still stand.

* `statusIn`: the status that is found, by the memory and by what is readable of it; `captureStatus`
  looks for no other (`captureStatus_eq`).
* `NpBuf.FindsAlike`: two buffers in which the same status is found, whatever is read into them.
* `findsAlike_bufInit_iff`: a buffer finds what a new one finds exactly if there is no digit in its
  memory behind the twelfth byte.
-/

namespace Nproxy

/-- The status that is found if `p` is readable and `mem` is the memory from its first byte on. -/
def statusIn (mem p : List UInt8) : Option ℤ :=
  if p.length ≥ 12 ∧ p.take 4 = bytes "HTTP" then
    match memchr p 32 with
    | none => none
    | some sp => if sp + 4 ≤ p.length then some (atoi (mem.drop (sp + 1))) else none
  else none

/-- `captureStatus` notes what is found, where nothing is noted yet. -/
lemma St.captureStatus_eq (st : St) : st.captureStatus =
    if st.conn.proxyStatus ≠ 0 then st
    else match statusIn (st.conn.upstreamRbuf.data.drop st.conn.upstreamRbuf.readPos)
      (bufBytes st.conn.upstreamRbuf) with
    | none => st
    | some status => st.noteStatus status := by
  rw [captureStatus, statusIn]
  split_ifs with hnoted hline
  · rfl
  · cases hsp : memchr (bufBytes st.conn.upstreamRbuf) 32 with
    | none => simp [hline, hsp]
    | some sp =>
      simp only [if_pos hline, hsp, List.drop_drop, Nat.add_assoc]
      split_ifs <;> rfl
  · simp [hline]

/-- Whatever is read into two buffers, the same status is found in both. `r` is `read_pos`, `p` is
what is readable, and `old` is what else was read since the buffers were handed out and still stands
behind it; then comes the memory that they were handed out with. -/
def NpBuf.FindsAlike (b b' : NpBuf) : Prop :=
  ∀ (r : ℕ) (p old : List UInt8),
    statusIn (p ++ old ++ b.data.drop (r + (p ++ old).length)) p =
      statusIn (p ++ old ++ b'.data.drop (r + (p ++ old).length)) p

/-! ### Memory without digits -/

lemma takeWhile_append_of_forall_neg {p : UInt8 → Bool} {s : List UInt8}
    (h : ∀ x ∈ s, p x = false) (l : List UInt8) : (l ++ s).takeWhile p = l.takeWhile p := by
  have hs : s.takeWhile p = [] := List.takeWhile_eq_nil_iff.mpr fun hpos => by
    simp [h _ (List.getElem_mem hpos)]
  rw [List.takeWhile_append, hs, List.append_nil]
  split_ifs with hall
  · exact ((List.takeWhile_prefix p).eq_of_length hall).symm
  · rfl

/-- **`atoi` is not moved by what follows** if there is no digit in it: neither a number that has
begun goes on there, nor does one begin. -/
lemma atoi_append_of_forall_not_isdigit {s : List UInt8} (h : ∀ x ∈ s, isdigit x = false)
    (l : List UInt8) : atoi (l ++ s) = atoi l := by
  rw [atoi, atoi]
  congr 1
  by_cases hspace : ∀ x ∈ l, isspace x = true
  · -- the number would have to begin in `s`
    have hnone : ∀ t : List UInt8, (∀ x ∈ t, isdigit x = false) → t.takeWhile isdigit = [] :=
      fun t ht => takeWhile_append_of_forall_neg ht []
    have hl : l.takeWhile isspace = l := List.takeWhile_eq_self_iff.mpr hspace
    have hls : (l ++ s).takeWhile isspace = l ++ s.takeWhile isspace :=
      List.takeWhile_append_of_pos hspace
    have hdrop : (l ++ s).drop (l ++ s.takeWhile isspace).length =
        s.drop (s.takeWhile isspace).length := by
      rw [List.length_append, ← List.drop_drop, List.drop_left]
    rw [strtoll, strtoll, hls, hl, hdrop]
    simp only [List.drop_length, List.drop_nil, List.takeWhile_nil, if_true]
    rw [if_pos]
    exact hnone _ fun x hx => h x (List.mem_of_mem_drop (List.mem_of_mem_drop hx))
  · -- it begins in `l`, and ends there at the latest
    have hls : (l ++ s).takeWhile isspace = l.takeWhile isspace := by
      rw [List.takeWhile_append, if_neg]
      intro hlen
      have hself := (List.takeWhile_prefix isspace).eq_of_length hlen
      exact hspace (List.takeWhile_eq_self_iff.mp hself)
    have hlt : (l.takeWhile isspace).length < l.length := by
      refine lt_of_le_of_ne (List.takeWhile_prefix isspace).length_le fun hlen => ?_
      exact hspace (List.takeWhile_eq_self_iff.mp
        ((List.takeWhile_prefix isspace).eq_of_length hlen))
    obtain ⟨c, t, hrest⟩ := List.exists_cons_of_ne_nil
      (List.ne_nil_of_length_pos (by rw [List.length_drop]; omega) :
        l.drop (l.takeWhile isspace).length ≠ [])
    have hdrop : (l ++ s).drop (l.takeWhile isspace).length = c :: (t ++ s) := by
      rw [List.drop_append_of_le_length hlt.le, hrest, List.cons_append]
    rw [strtoll, strtoll, hls, hdrop, hrest]
    by_cases hsign : c = 45 ∨ c = 43 <;>
      simp [hsign, List.takeWhile_cons, takeWhile_append_of_forall_neg h]

/-- The last digit of a text, if there is one. -/
lemma exists_last_digit {l : List UInt8} (h : ¬∀ x ∈ l, isdigit x = false) :
    ∃ xs d ys, l = xs ++ d :: ys ∧ isdigit d = true ∧ ∀ y ∈ ys, isdigit y = false := by
  induction l with
  | nil => simp at h
  | cons x l ih =>
    by_cases hl : ∀ y ∈ l, isdigit y = false
    · refine ⟨[], x, l, rfl, ?_, hl⟩
      by_contra hx
      exact h (List.forall_mem_cons.mpr ⟨Bool.eq_false_of_not_eq_true hx, hl⟩)
    · obtain ⟨xs, d, ys, rfl, hd⟩ := ih hl
      exact ⟨x :: xs, d, ys, rfl, hd⟩

/-- The beginning of a response of which the first `n + 12` bytes have come: the last three are
`200`. -/
def cutLine (n : ℕ) : List UInt8 :=
  bytes "HTTP" ++ List.replicate (n + 4) 120 ++ bytes " 200"

lemma length_cutLine (n : ℕ) : (cutLine n).length = n + 12 := by
  have hends : (bytes "HTTP").length = 4 ∧ (bytes " 200").length = 4 := by decide
  simp only [cutLine, List.length_append, List.length_replicate, hends]
  omega

/-- `atoi` reads on behind its last byte. -/
lemma statusIn_cutLine (n : ℕ) (mem : List UInt8) :
    statusIn (cutLine n ++ mem) (cutLine n) = some (atoi (bytes "200" ++ mem)) := by
  have hsp : memchr (cutLine n) 32 = some (n + 8) := by
    rw [memchr, cutLine, List.append_assoc, List.findIdx?_append, List.findIdx?_append,
      show (bytes "HTTP").findIdx? (· == 32) = none by decide]
    simp [List.findIdx?_replicate, show (bytes " 200").findIdx? (· == 32) = some 0 by decide,
      show (bytes "HTTP").length = 4 by decide]
  have hdrop : (cutLine n ++ mem).drop (n + 8 + 1) = bytes "200" ++ mem := by
    rw [List.drop_append_of_le_length (by rw [length_cutLine]; omega), cutLine,
      show bytes " 200" = [32] ++ bytes "200" by decide, ← List.append_assoc,
      List.drop_left' (by simp [show (bytes "HTTP").length = 4 by decide]; omega)]
  have hhttp : (cutLine n).take 4 = bytes "HTTP" := by
    rw [cutLine, List.append_assoc, List.take_left' (by decide)]
  rw [statusIn, if_pos ⟨by rw [length_cutLine]; omega, hhttp⟩, hsp]
  simp only [length_cutLine, hdrop]
  rw [if_pos (by omega)]

lemma atoi_200 : atoi (bytes "200") = 200 := by decide

/-- A digit behind makes another number of it. -/
lemma atoi_200_digit {d : UInt8} (hd : isdigit d = true) : atoi (bytes "200" ++ [d]) ≠ 200 := by
  have hall : ∀ n : Fin 256, isdigit (.ofNat n) = true →
      atoi (bytes "200" ++ [.ofNat n]) ≠ 200 := by decide +kernel
  have hd' := hall ⟨d.toNat, d.toNat_lt⟩
  rw [UInt8.ofNat_toNat] at hd'
  exact hd' hd

/-- **A buffer finds what a new one finds**, whatever is read into it, exactly if there is no digit
in its memory behind the first twelve bytes: fewer bytes are no status line, and behind more than
that only a digit is seen by `atoi`. -/
lemma findsAlike_bufInit_iff {b : NpBuf} {cap : ℕ} :
    b.FindsAlike (bufInit cap) ↔ ∀ x ∈ b.data.drop 12, isdigit x = false := by
  have hblank : ∀ n, ∀ x ∈ (bufInit cap).data.drop n, isdigit x = false := by
    intro n x hx
    rw [(List.mem_replicate.mp (List.mem_of_mem_drop hx)).2]
    decide
  constructor
  · intro h
    by_contra hdigit
    obtain ⟨xs, d, ys, hsplit, hd, hys⟩ := exists_last_digit hdigit
    -- a response that was cut in front of this digit
    have hfound := h 0 (cutLine xs.length) []
    have hdrop : b.data.drop (xs.length + 12) = d :: ys := by
      rw [Nat.add_comm, ← List.drop_drop, hsplit, List.drop_left]
    rw [List.append_nil, length_cutLine, Nat.zero_add, hdrop, statusIn_cutLine, statusIn_cutLine,
      atoi_append_of_forall_not_isdigit (hblank _), List.append_cons,
      atoi_append_of_forall_not_isdigit hys, atoi_200] at hfound
    exact atoi_200_digit hd (Option.some.inj hfound)
  · intro h r p old
    rw [statusIn, statusIn]
    split_ifs with hline
    · cases memchr p 32 with
      | none => rfl
      | some sp =>
        dsimp only
        split_ifs with hsp
        · have hmem : ∀ x ∈ b.data.drop (r + (p ++ old).length), isdigit x = false := by
            intro x hx
            rw [show r + (p ++ old).length = 12 + (r + (p ++ old).length - 12) by
              rw [List.length_append]; omega, ← List.drop_drop] at hx
            exact h x (List.mem_of_mem_drop hx)
          have hle : sp + 1 ≤ (p ++ old).length := by rw [List.length_append]; omega
          rw [List.drop_append_of_le_length hle, List.drop_append_of_le_length hle,
            atoi_append_of_forall_not_isdigit hmem,
            atoi_append_of_forall_not_isdigit (hblank _)]
        · rfl
    · rfl

end Nproxy
