import Nproxy.Http.Response

/-!
Whole responses, or none.

Both writers of `http/response.c` look for room twice, first for the head and then for
the body. So a buffer may take the one and not the other, and a head that is longer
than the array it is printed to is copied with what lies behind the array.

* `WholeOrNothing`: the response is in the buffer behind what was there, or the buffer
  is as it was.
* `wholeOrNothing_put_put_iff`: when two copies make a whole, for any head and body.
* `responseWriters_whole_iff`: when the writers do.
-/

namespace Nproxy

/-- The buffer has taken the text, or it is as it was. -/
def WholeOrNothing (b b' : NpBuf) (text : List UInt8) : Prop :=
  b' = b ∨ bufBytes b' = bufBytes b ++ text

/-! ### Two copies -/

section

variable {b : NpBuf} {src : List UInt8}

lemma bufPut_of_room (hne : src ≠ []) (hroom : src.length ≤ bufWritable b) :
    bufPut b src = bufAppend b src := by
  rw [bufPut, if_pos ⟨List.length_pos_iff.mpr hne, hroom⟩]

lemma bufPut_of_no_room (h : src = [] ∨ bufWritable b < src.length) : bufPut b src = b := by
  rw [bufPut, if_neg]
  rintro ⟨hpos, hroom⟩
  rcases h with rfl | hlt
  · exact absurd hpos (lt_irrefl 0)
  · exact absurd hroom (not_le.mpr hlt)

lemma bufWritable_append (b : NpBuf) (src : List UInt8) :
    bufWritable (bufAppend b src) = bufWritable b - src.length := by
  change b.cap - (b.writePos + src.length) = b.cap - b.writePos - src.length
  omega

/-- What was appended to cannot be as it was. -/
lemma bufAppend_ne (hne : src ≠ []) : bufAppend b src ≠ b := by
  intro heq
  have hpos : b.writePos + src.length = b.writePos := congrArg NpBuf.writePos heq
  have hlen := List.length_pos_iff.mpr hne
  omega

/-- One copy: nothing less than the text will do. -/
lemma wholeOrNothing_append_iff (hb : b.Ordered) (hne : src ≠ [])
    (hroom : src.length ≤ bufWritable b) (text : List UInt8) :
    WholeOrNothing b (bufAppend b src) text ↔ src = text := by
  rw [WholeOrNothing, hb.bufBytes_append hroom, List.append_cancel_left_eq]
  exact or_iff_right (bufAppend_ne hne)

end

/-- **Head and body.** `copied` is what is copied for the head: they make a whole if both fit and
the copy is true, and they leave the buffer alone if neither fits. -/
lemma wholeOrNothing_put_put_iff {b : NpBuf} (hb : b.Ordered) {copied head : List UInt8}
    (hlen : copied.length = head.length) (hne : head ≠ []) (body : List UInt8) :
    WholeOrNothing b (bufPut (bufPut b copied) body) (head ++ body) ↔
      (copied = head ∧ head.length + body.length ≤ bufWritable b) ∨
        (bufWritable b < head.length ∧ (body = [] ∨ bufWritable b < body.length)) := by
  have hpos := List.length_pos_iff.mpr hne
  have hcopied : copied ≠ [] := List.length_pos_iff.mp (hlen ▸ hpos)
  rcases Nat.lt_or_ge (bufWritable b) head.length with hhead | hhead
  · -- no room for the head: the body must not fit either
    have hfirst : bufPut b copied = b := bufPut_of_no_room (.inr (by rw [hlen]; exact hhead))
    rw [hfirst]
    by_cases hbody : body = [] ∨ bufWritable b < body.length
    · rw [bufPut_of_no_room hbody]
      exact iff_of_true (.inl rfl) (.inr ⟨hhead, hbody⟩)
    · obtain ⟨hbody, hroom⟩ := not_or.mp hbody
      rw [bufPut_of_room hbody (not_lt.mp hroom),
        wholeOrNothing_append_iff hb hbody (not_lt.mp hroom)]
      refine iff_of_false (fun heq => ?_) (fun h => ?_)
      · have := congrArg List.length heq
        rw [List.length_append] at this
        omega
      · rcases h with ⟨-, hle⟩ | ⟨-, hnone⟩
        · omega
        · exact absurd hnone (not_or.mpr ⟨hbody, hroom⟩)
  · have hroom : copied.length ≤ bufWritable b := hlen ▸ hhead
    rw [bufPut_of_room hcopied hroom]
    have hfree := bufWritable_append b copied
    have hsecond : ¬(bufWritable b < head.length ∧ (body = [] ∨ bufWritable b < body.length)) :=
      fun h => absurd h.1 (not_lt.mpr hhead)
    rw [or_iff_left hsecond]
    by_cases hbody : body = [] ∨ bufWritable (bufAppend b copied) < body.length
    · rw [bufPut_of_no_room hbody, wholeOrNothing_append_iff hb hcopied hroom]
      rcases hbody with rfl | hfull
      · simp [hhead]
      · -- the head is there without the body
        refine iff_of_false (fun heq => ?_) (fun h => ?_)
        · have := congrArg List.length heq
          rw [List.length_append] at this
          omega
        · omega
    · obtain ⟨hbody, hfit⟩ := not_or.mp hbody
      have hfit := not_lt.mp hfit
      rw [bufPut_of_room hbody hfit, WholeOrNothing,
        (hb.append hroom).bufBytes_append hfit, hb.bufBytes_append hroom, List.append_assoc,
        List.append_cancel_left_eq, List.append_cancel_right_eq]
      have hmoved : bufAppend (bufAppend b copied) body ≠ b := by
        intro heq
        have hat : b.writePos + copied.length + body.length = b.writePos :=
          congrArg NpBuf.writePos heq
        omega
      rw [or_iff_right hmoved]
      exact ⟨fun heq => ⟨heq, by omega⟩, And.left⟩

/-! ### The heads -/

lemma zero_notMem_responseHeadText {num reason contentType : List UInt8} (hnum : 0 ∉ num)
    (hreason : 0 ∉ reason) (htype : 0 ∉ contentType) (bodyLen : ℕ) (keepAlive : Bool) :
    0 ∉ responseHeadText num reason contentType bodyLen keepAlive := by
  have hdec : (0 : UInt8) ∉ decimal bodyLen :=
    fun h => absurd (isdigit_of_mem_decimal h) (by decide)
  have hconn : (0 : UInt8) ∉ connectionText keepAlive := by cases keepAlive <;> decide
  have htexts : (0 : UInt8) ∉ bytes "HTTP/1.1 " ∧ (0 : UInt8) ∉ bytes " " ∧
      (0 : UInt8) ∉ bytes "Content-Type: " ∧ (0 : UInt8) ∉ bytes "Content-Length: " ∧
      (0 : UInt8) ∉ bytes "Connection: " ∧ (0 : UInt8) ∉ crlf := by decide
  simp [responseHeadText, hdec, hconn, htexts, hnum, hreason, htype]

lemma zero_notMem_decimalInt (n : ℤ) : 0 ∉ decimalInt n := by
  intro h
  rcases mem_decimalInt h with h | h
  · exact absurd h (by decide)
  · exact absurd h (by decide)

lemma responseHeadText_ne_nil (num reason contentType : List UInt8) (bodyLen : ℕ)
    (keepAlive : Bool) : responseHeadText num reason contentType bodyLen keepAlive ≠ [] := by
  have hfront : bytes "HTTP/1.1 " ≠ [] := by decide
  simp [responseHeadText, hfront]

lemma length_decimalInt_int32_le (status : Int32) : (decimalInt status.toInt).length ≤ 11 := by
  have hle := status.le_toInt
  have hlt := status.toInt_lt
  exact length_decimalInt_le (by norm_num) (by omega)

lemma length_statusReason_le (status : ℕ) : (bytes (statusReason status)).length ≤ 21 := by
  unfold statusReason
  split <;> decide

lemma length_errorPageInt_le (status : Int32) :
    591 ≤ (errorPageInt status).length ∧ (errorPageInt status).length ≤ 655 := by
  have hnum := length_decimalInt_int32_le status
  have hreason : (statusReasonInt status).length ≤ 21 := length_statusReason_le _
  rw [errorPageInt, length_errorPageText]
  omega

lemma length_errorHead_le (status : Int32) (keepAlive : Bool) :
    (errorHead status keepAlive).length ≤ 180 := by
  have hnum := length_decimalInt_int32_le status
  have hreason : (statusReasonInt status).length ≤ 21 := length_statusReason_le _
  have hpage := (length_errorPageInt_le status).2
  have hconn : (connectionText keepAlive).length ≤ 10 := by cases keepAlive <;> decide
  have hdec : (decimal (errorPageInt status).length).length ≤ 4 :=
    length_decimal_le_of_lt (by norm_num) (by linarith)
  have htexts : (bytes "HTTP/1.1 ").length = 9 ∧ (bytes " ").length = 1 ∧
      (bytes "Content-Type: ").length = 14 ∧ (bytes "text/html").length = 9 ∧
      (bytes "Content-Length: ").length = 16 ∧ (bytes "Connection: ").length = 12 ∧
      crlf.length = 2 := by decide
  simp only [errorHead, responseHeadText, List.flatten_cons, List.flatten_nil, List.length_append,
    List.length_nil, htexts]
  linarith

/-- The head and the page of an error fit their arrays. -/
lemma length_error_lt (status : Int32) (keepAlive : Bool) :
    (errorHead status keepAlive).length < 512 ∧ (errorPageInt status).length < 2048 :=
  ⟨(length_errorHead_le status keepAlive).trans_lt (by norm_num),
    (length_errorPageInt_le status).2.trans_lt (by norm_num)⟩

/-! ### The writers -/

lemma decimalInt_natCast (n : ℕ) : decimalInt n = decimal n := by
  rw [decimalInt, if_neg (by omega), Int.toNat_natCast]

/-- The statuses that the program itself uses are natural numbers. -/
lemma responseWriteInt_eq (junk : ℕ → UInt8) (b : NpBuf) {status : ℕ} (h : status < 2 ^ 31)
    (reason contentType body : Option (List UInt8)) (keepAlive : Bool) :
    responseWriteSimpleInt junk b (.ofNat status) reason contentType body keepAlive =
        responseWriteSimple junk b status reason contentType body keepAlive ∧
      responseWriteErrorInt junk b (.ofNat status) keepAlive =
        responseWriteError b status keepAlive := by
  have hint : (Int32.ofNat status).toInt = status := Int32.toInt_ofNat_of_lt h
  have hreason : statusReasonInt (.ofNat status) = bytes (statusReason status) := by
    rw [statusReasonInt, hint, Int.toNat_natCast]
  have hpage : errorPageInt (.ofNat status) = errorPage status := by
    rw [errorPageInt, hint, hreason, decimalInt_natCast, errorPage]
  obtain ⟨hhead, hlt⟩ := length_error_lt (.ofNat status) keepAlive
  constructor
  · rw [responseWriteSimpleInt, simpleHead, hint, hreason, decimalInt_natCast]
    rfl
  · rw [responseWriteErrorInt, snprintfRead, if_pos hhead, snprintfRead, if_pos hlt, errorHead,
      hpage, hint, hreason, decimalInt_natCast]
    rfl

/-- What two lengths must be, so that a buffer with `free` bytes takes both or none. -/
def BothOrNeither (free head body : ℕ) : Prop :=
  head + body ≤ free ∨ (free < head ∧ (body = 0 ∨ free < body))

instance (free head body : ℕ) : Decidable (BothOrNeither free head body) :=
  inferInstanceAs (Decidable (_ ∨ _))

lemma simple_whole_iff (junk : ℕ → UInt8) {b : NpBuf} (hb : b.Ordered) (status : Int32)
    (reason contentType body : Option (List UInt8)) (keepAlive : Bool) :
    WholeOrNothing b (responseWriteSimpleInt junk b status reason contentType body keepAlive)
        (simpleHead status reason contentType body keepAlive ++ cstr (body.getD [])) ↔
      BothOrNeither (bufWritable b) (simpleHead status reason contentType body keepAlive).length
          (cstr (body.getD [])).length ∧
        ((simpleHead status reason contentType body keepAlive).length < 512 ∨
          bufWritable b < (simpleHead status reason contentType body keepAlive).length) := by
  have h0 : 0 ∉ simpleHead status reason contentType body keepAlive :=
    zero_notMem_responseHeadText (zero_notMem_decimalInt _) (zero_notMem_cstr _)
      (zero_notMem_cstr _) _ _
  have hne : simpleHead status reason contentType body keepAlive ≠ [] :=
    responseHeadText_ne_nil _ _ _ _ _
  rw [responseWriteSimpleInt,
    wholeOrNothing_put_put_iff hb (length_snprintfRead (by norm_num) junk _) hne,
    snprintfRead_eq_iff junk h0, BothOrNeither, ← List.length_eq_zero_iff]
  omega

lemma error_whole_iff (junk : ℕ → UInt8) {b : NpBuf} (hb : b.Ordered) (status : Int32)
    (keepAlive : Bool) :
    WholeOrNothing b (responseWriteErrorInt junk b status keepAlive)
        (errorHead status keepAlive ++ errorPageInt status) ↔
      BothOrNeither (bufWritable b) (errorHead status keepAlive).length
        (errorPageInt status).length := by
  obtain ⟨hhead, hpage⟩ := length_error_lt status keepAlive
  have hne : errorHead status keepAlive ≠ [] := responseHeadText_ne_nil _ _ _ _ _
  rw [responseWriteErrorInt, show snprintfRead 2048 junk (errorPageInt status) = _ from
    if_pos hpage, show snprintfRead 512 junk (errorHead status keepAlive) = _ from if_pos hhead,
    wholeOrNothing_put_put_iff hb rfl hne, BothOrNeither, ← List.length_eq_zero_iff]
  simp

/-- **Whole responses.** The writers append a complete response or leave the buffer alone exactly
if it takes head and body both or takes neither, and a head that it takes fits its array. -/
theorem responseWriters_whole_iff (junk : ℕ → UInt8) (b : NpBuf) (hb : b.Ordered) (status : Int32)
    (reason contentType body : Option (List UInt8)) (keepAlive : Bool) :
    (WholeOrNothing b (responseWriteSimpleInt junk b status reason contentType body keepAlive)
        (simpleHead status reason contentType body keepAlive ++ cstr (body.getD [])) ↔
      BothOrNeither (bufWritable b) (simpleHead status reason contentType body keepAlive).length
          (cstr (body.getD [])).length ∧
        ((simpleHead status reason contentType body keepAlive).length < 512 ∨
          bufWritable b < (simpleHead status reason contentType body keepAlive).length)) ∧
    (WholeOrNothing b (responseWriteErrorInt junk b status keepAlive)
        (errorHead status keepAlive ++ errorPageInt status) ↔
      BothOrNeither (bufWritable b) (errorHead status keepAlive).length
        (errorPageInt status).length) :=
  ⟨simple_whole_iff junk hb status reason contentType body keepAlive,
    error_whole_iff junk hb status keepAlive⟩

/-- A buffer of 1000 bytes takes a 404 page with its head. -/
theorem responseWriters_whole_roomy : (bufInit 1000).Ordered ∧
    WholeOrNothing (bufInit 1000) (responseWriteErrorInt (fun _ => 0) (bufInit 1000) 404 true)
      (errorHead 404 true ++ errorPageInt 404) := by
  have hhead := length_errorHead_le 404 true
  have hpage := (length_errorPageInt_le 404).2
  have hroom : (errorHead 404 true).length + (errorPageInt 404).length ≤ 1000 := by linarith
  exact ⟨.init 1000, (responseWriters_whole_iff (fun _ => 0) (bufInit 1000) (.init 1000) 404 none
    none none true).2.mpr (.inl hroom)⟩

/-- **A head without its body**, and a body without its head. -/
theorem exists_torn_response :
    (¬∀ (junk : ℕ → UInt8) (b : NpBuf), b.Ordered → ∀ (status : Int32)
      (reason contentType body : Option (List UInt8)) (keepAlive : Bool),
      WholeOrNothing b (responseWriteSimpleInt junk b status reason contentType body keepAlive)
        (simpleHead status reason contentType body keepAlive ++ cstr (body.getD []))) ∧
    ¬∀ (junk : ℕ → UInt8) (b : NpBuf), b.Ordered → ∀ (status : Int32) (keepAlive : Bool),
      WholeOrNothing b (responseWriteErrorInt junk b status keepAlive)
        (errorHead status keepAlive ++ errorPageInt status) := by
  constructor
  · intro h
    have hwhole := h (fun _ => 0) (bufInit 10) (.init 10) 200 none none (some (bytes "hello")) true
    rw [simple_whole_iff (fun _ => 0) (.init 10)] at hwhole
    exact absurd hwhole.1 (by decide +kernel)
  · intro h
    have hwhole := h (fun _ => 0) (bufInit 400) (.init 400) 404 true
    rw [error_whole_iff (fun _ => 0) (.init 400)] at hwhole
    have hhead := length_errorHead_le 404 true
    have hpage := (length_errorPageInt_le 404).1
    have hfree : bufWritable (bufInit 400) = 400 := rfl
    rcases hwhole with hboth | ⟨hneither, -⟩
    · linarith
    · linarith

end Nproxy
