import Nproxy.Http.RoundTrip
import Nproxy.Http.Segmentation

/-!
Where a message ends: chunked bodies, and heads that announce a length.

The parser sets the flag `chunked` and never looks at it again when it computes
`parsed_bytes`; the length it waits for and consumes is that of the last
`Content-Length` it could read, or nothing.

* `chunked_framing_iff`: a chunked message is taken off the connection as a whole
  only if it happens to carry a `Content-Length` that is the length of its
  chunked body, or one that the bytes at hand do not reach. Without any, the next
  parse starts at the first chunk (`ChunkedRequest.decodeOne_body`).
* `unambiguousLength_iff`: an accepted head has one readable length, the one that
  is used, exactly when its lines already agree: the parser itself rejects no
  sign, no blank or overlong value, no repetition and no `chunked` next to it.
-/

namespace Nproxy

open Lines (IsLine joinLines findPair)

/-! ### Chunked bodies -/

/-- The value of a hexadecimal digit. -/
def hexDigit (c : UInt8) : ℕ :=
  if isdigit c then c.toNat - 48 else (tolower c).toNat - 87

/-- `isxdigit`. -/
def isxdigit (c : UInt8) : Bool := isdigit c || (97 ≤ tolower c && tolower c ≤ 102)

/-- The value of a string of hexadecimal digits. -/
def hexVal (l : List UInt8) : ℕ := l.foldl (fun acc c => 16 * acc + hexDigit c) 0

/-- A chunk: data that is not empty, and its length in hexadecimal digits. -/
structure Chunk where
  size : List UInt8
  data : List UInt8
  size_xdigit : ∀ c ∈ size, isxdigit c = true
  size_eq : hexVal size = data.length
  data_ne : data ≠ []

/-- A chunk as it is sent. -/
def Chunk.render (c : Chunk) : List UInt8 := c.size ++ crlf ++ c.data ++ crlf

/-- A chunked body: the chunks, the zero chunk and the final CRLF. -/
def chunkedBody (cs : List Chunk) : List UInt8 :=
  cs.flatMap Chunk.render ++ (bytes "0" ++ crlf ++ crlf)

/-- A header that announces the chunked coding. -/
def Field.chunked (f : Field) : Bool :=
  f.named "Transfer-Encoding" && strIeq ⟨.mem, f.value⟩ (.lit "chunked")

/-- A request of HTTP/1.1 with a chunked body. -/
structure ChunkedRequest extends RequestHead where
  chunks : List Chunk
  version_eq : version = .http11
  has_chunked : ∃ f ∈ fields, f.chunked = true

/-- The body of a chunked request. -/
def ChunkedRequest.body (r : ChunkedRequest) : List UInt8 := chunkedBody r.chunks

/-- The text of a chunked request. -/
def ChunkedRequest.render (r : ChunkedRequest) : List UInt8 :=
  r.toRequestHead.render ++ r.body

/-- The numbers that the `Content-Length` fields of a head spell. -/
def RequestHead.lengths (h : RequestHead) : List ℤ :=
  (h.fields.filter (Field.named "Content-Length")).filterMap fun f => strToInt ⟨.mem, f.value⟩

/-- The length a head announces is the last one it spells. -/
lemma RequestHead.contentLength_state (h : RequestHead) :
    h.state.contentLength = h.lengths.getLastD (-1) := by
  rw [RequestHead.state, h.acceptable.headState_fields.2.1, declaredLength_eq,
    map_field_lineHeaders_of_wf h.fields_wf, lengths]

lemma ChunkedRequest.body_pos (r : ChunkedRequest) : 0 < r.body.length := by
  simp [body, chunkedBody, crlf]

/-- The parser on a chunked request: only the announced length counts. -/
lemma ChunkedRequest.parse (r : ChunkedRequest) (t : List UInt8) :
    parseFresh (r.render ++ t) =
      let n := r.lengths.getLastD (-1)
      if 0 < n then
        if ((r.body ++ t).length : ℤ) < n then
          (.incomplete, settle r.state r.toRequestHead.render.length)
        else (.done, { settle r.state r.toRequestHead.render.length with
          parsedBytes := r.toRequestHead.render.length + n.toNat })
      else (.done, settle r.state r.toRequestHead.render.length) := by
  rw [ChunkedRequest.render, List.append_assoc, r.toRequestHead.parse, finishParse_eq,
    r.toRequestHead.contentLength_state]
  have hlen : (r.toRequestHead.render ++ (r.body ++ t)).length - r.toRequestHead.render.length
      = (r.body ++ t).length := by
    simp
  rw [hlen]
  simp only
  split
  · have hiff : (r.body ++ t).length < (r.lengths.getLastD (-1)).toNat ↔
        ((r.body ++ t).length : ℤ) < r.lengths.getLastD (-1) := by omega
    simp only [hiff]
  · rfl

/-- **Without a `Content-Length`, the body of a chunked request is left on the
connection**, where the next parse starts. -/
lemma ChunkedRequest.decodeOne_body (r : ChunkedRequest) (t : List UInt8) {b : NpBuf}
    (h : bufBytes b = r.render ++ t) (hnone : r.lengths = []) :
    (decodeOne b).1.1 = .done ∧ bufBytes (decodeOne b).2 = r.body ++ t := by
  have hp := r.parse t
  rw [hnone] at hp
  simp only [List.getLastD_nil, Int.reduceNeg, Left.neg_pos_iff, Int.reduceLT, if_false] at hp
  rw [decodeOne]
  simp only [h, hp, bufBytes_consume]
  refine ⟨trivial, ?_⟩
  rw [ChunkedRequest.render, List.append_assoc]
  simp [settle]

/-- **Framing of chunked requests**: an accepted chunked request is consumed as a
whole, so that the next parse starts behind it, exactly when the last length it
spells is the length of its chunked body, or is one that the bytes at hand do not
reach (and then it is not accepted yet). -/
theorem chunked_framing_iff (r : ChunkedRequest) (t : List UInt8) (b : NpBuf)
    (h : bufBytes b = r.render ++ t) :
    ((decodeOne b).1.1 = .done →
      (parseFresh (bufBytes b)).2.parsedBytes = r.toRequestHead.render.length + r.body.length ∧
        bufBytes (decodeOne b).2 = t) ↔
    (r.lengths.getLastD (-1) = r.body.length ∨
      ((r.body ++ t).length : ℤ) < r.lengths.getLastD (-1)) := by
  have hp := r.parse t
  have hpos := r.body_pos
  have hdrop : (r.render ++ t).drop (r.toRequestHead.render.length + r.body.length) = t := by
    rw [← List.length_append]
    exact List.drop_left
  rw [decodeOne]
  simp only [h, bufBytes_consume] at hp ⊢
  generalize r.lengths.getLastD (-1) = n at hp ⊢
  by_cases hn : 0 < n
  · by_cases hshort : ((r.body ++ t).length : ℤ) < n
    · rw [if_pos hn, if_pos hshort] at hp
      simp only [hp, hshort, reduceCtorEq, false_implies, or_true]
    · rw [if_pos hn, if_neg hshort] at hp
      simp only [hp, true_implies, hshort, or_false]
      constructor
      · intro hx
        omega
      · intro hx
        subst hx
        exact ⟨by simp, by simpa using hdrop⟩
  · rw [if_neg hn] at hp
    have hne : ¬n = (r.body.length : ℤ) := by omega
    have hnot : ¬((r.body ++ t).length : ℤ) < n := by omega
    simp only [hp, true_implies, hne, hnot, or_self, iff_false, not_and]
    intro hx
    simp only [settle] at hx
    omega

/-- A request with the chunked body of two bytes, `hi`. -/
def chunkedPost : ChunkedRequest :=
  { postMessage with
    version := .http11
    fields := [⟨bytes "Transfer-Encoding", bytes "chunked"⟩]
    chunks := [⟨bytes "2", bytes "hi", by decide +kernel, by decide, by decide⟩]
    fields_le := by decide
    fields_wf := by decide +kernel
    version_eq := rfl
    has_chunked := by decide }

/-- A read buffer with that request alone. -/
def chunkedBuf : NpBuf := bufAppend (bufInit 128) chunkedPost.render

lemma bufBytes_chunkedBuf : bufBytes chunkedBuf = chunkedPost.render ++ [] :=
  (bufBytes_append (bufInit_wf (by norm_num)) (by decide)).trans (by simp)

/-- The request is accepted, and its chunks are what the next parse sees. -/
theorem chunkedPost_not_framed :
    bufBytes chunkedBuf = chunkedPost.render ++ [] ∧
    (decodeOne chunkedBuf).1.1 = .done ∧
    (parseFresh (bufBytes chunkedBuf)).2.parsedBytes
      ≠ chunkedPost.toRequestHead.render.length + chunkedPost.body.length ∧
    bufBytes (decodeOne chunkedBuf).2 = bytes "2" ++ crlf ++ bytes "hi" ++ crlf ++
      (bytes "0" ++ crlf ++ crlf) := by
  obtain ⟨hdone, hrest⟩ := chunkedPost.decodeOne_body [] bufBytes_chunkedBuf (by decide)
  refine ⟨bufBytes_chunkedBuf, hdone, ?_, ?_⟩
  · rw [bufBytes_chunkedBuf]
    decide
  · rw [hrest]
    decide

/-- A request with one chunk and no `Content-Length` meets neither condition: it is accepted, and
its body stays in the buffer. -/
theorem chunked_framing_iff_chunkedPost :
    bufBytes chunkedBuf = chunkedPost.render ++ [] ∧
    ¬((decodeOne chunkedBuf).1.1 = .done →
      (parseFresh (bufBytes chunkedBuf)).2.parsedBytes
        = chunkedPost.toRequestHead.render.length + chunkedPost.body.length ∧
          bufBytes (decodeOne chunkedBuf).2 = []) :=
  ⟨bufBytes_chunkedBuf,
    mt (chunked_framing_iff chunkedPost [] chunkedBuf bufBytes_chunkedBuf).mp (by decide)⟩

/-! ### Lengths that agree -/

/-- A string of decimal digits. -/
def Digits (v : List UInt8) : Prop := v ≠ [] ∧ ∀ c ∈ v, isdigit c = true

instance (v : List UInt8) : Decidable (Digits v) := inferInstanceAs (Decidable (_ ∧ _))

/-- The parsed request has one length: every `Content-Length` header is a decimal
number, namely the one in use, and the request is not chunked as well. -/
structure UnambiguousLength (ps : HttpParseState) : Prop where
  number : ∀ h ∈ ps.headers, isContentLength h = true →
    Digits h.value.bytes ∧ (decVal h.value.bytes : ℤ) = ps.contentLength
  not_chunked : ps.chunked = false

/-- The `Content-Length` fields among lines of text. -/
def lengthFields (ls : List (List UInt8)) : List Field :=
  (ls.map textField).filter (Field.named "Content-Length")

/-- Lines of a head that agree on the length `n`: all their `Content-Length`
fields spell it in digits, none announces the chunked coding, and one of the
spellings is short enough for `str_to_int`, unless the length is the one that is
taken for granted. -/
structure AgreeingLines (line : List UInt8) (ls : List (List UInt8)) (n : ℕ) : Prop where
  spelled : ∀ f ∈ lengthFields ls, Digits f.value ∧ decVal f.value = n
  not_chunked : ∀ l ∈ ls, (textField l).chunked = false
  readable : (∃ f ∈ lengthFields ls, f.value.length < 32) ∨
    (n = 0 ∧ bytes "HTTP/1.1" <:+ line)

/-- The `Content-Length` headers stored for lines are the fields they spell. -/
lemma mem_lengthFields {cur : ℕ} {ls : List (List UInt8)} {f : Field} :
    f ∈ lengthFields ls ↔
      ∃ h ∈ lineHeaders cur ls, isContentLength h = true ∧ h.field = f := by
  rw [lengthFields, ← map_field_lineHeaders cur ls, List.mem_filter, List.mem_map]
  constructor
  · rintro ⟨⟨h, hh, rfl⟩, hn⟩
    exact ⟨h, hh, hn, rfl⟩
  · rintro ⟨h, hh, hn, rfl⟩
    exact ⟨⟨h, hh, rfl⟩, hn⟩

lemma any_isChunked (hs : List HttpHeader) :
    hs.any isChunked = (hs.map HttpHeader.field).any Field.chunked := by
  rw [List.any_map]
  rfl

/-- The flag `chunked` says that a line announces the chunked coding. -/
lemma any_isChunked_eq_false {cur : ℕ} {ls : List (List UInt8)} :
    (lineHeaders cur ls).any isChunked = false ↔ ∀ l ∈ ls, (textField l).chunked = false := by
  rw [any_isChunked, map_field_lineHeaders]
  simp

/-- `str_to_int` on digits: it reads up to 31 of them. -/
lemma strToInt_of_digits {v : List UInt8} (h : Digits v) :
    strToInt ⟨.mem, v⟩ = if v.length < 32 then some (min llongMax (decVal v)) else none := by
  split
  · rename_i hlen
    exact strToInt_digits h.2 h.1 hlen .mem
  · rename_i hlen
    have h0 : v.length ≠ 0 := by simpa using h.1
    rw [strToInt, Str.len_mk, if_neg h0, if_pos (by omega)]

lemma getLastD_of_forall {α : Type*} {l : List α} {x : α} (h : ∀ y ∈ l, y = x) (d : α) :
    l.getLastD d = if l = [] then d else x := by
  split
  · rename_i hnil
    rw [hnil]
    rfl
  · rename_i hne
    rw [List.getLastD_eq_getLast?, List.getLast?_eq_getLast_of_ne_nil hne]
    exact h _ (List.getLast_mem hne)

/-- The length that lines announce when they all spell `n` in digits. -/
lemma declaredLength_of_spelled {cur : ℕ} {ls : List (List UInt8)} {n : ℕ}
    (h : ∀ f ∈ lengthFields ls, Digits f.value ∧ decVal f.value = n) :
    declaredLength (-1) (lineHeaders cur ls) =
      if ∃ f ∈ lengthFields ls, f.value.length < 32 then min llongMax n else -1 := by
  rw [declaredLength_eq, map_field_lineHeaders]
  change ((lengthFields ls).filterMap fun f => strToInt ⟨.mem, f.value⟩).getLastD (-1) = _
  have hval : ∀ f ∈ lengthFields ls, strToInt ⟨.mem, f.value⟩
      = if f.value.length < 32 then some (min llongMax (n : ℤ)) else none := by
    intro f hf
    obtain ⟨hdig, hn⟩ := h f hf
    rw [strToInt_of_digits hdig, hn]
  rw [getLastD_of_forall (x := min llongMax (n : ℤ))]
  · by_cases hex : ∃ f ∈ lengthFields ls, f.value.length < 32
    · obtain ⟨f, hf, hlen⟩ := hex
      rw [if_neg, if_pos ⟨f, hf, hlen⟩]
      intro hnil
      have hnone := List.filterMap_eq_nil_iff.mp hnil f hf
      rw [hval f hf, if_pos hlen] at hnone
      simp at hnone
    · rw [if_pos, if_neg hex]
      rw [List.filterMap_eq_nil_iff]
      intro f hf
      rw [hval f hf, if_neg fun hlen => hex ⟨f, hf, hlen⟩]
  · intro y hy
    obtain ⟨f, hf, hfy⟩ := List.mem_filterMap.mp hy
    rw [hval f hf] at hfy
    split at hfy
    · exact (Option.some.inj hfy).symm
    · simp at hfy

/-- The length in use when the lines agree, if its body is there. -/
lemma AgreeingLines.settledLength_eq {line : List UInt8} {ls : List (List UInt8)} {n : ℕ}
    (h : AgreeingLines line ls n) (hacc : Acceptable line ls)
    (hbody : (settledLength (headState line ls)).toNat + 1 < 2 ^ 63) :
    settledLength (headState line ls) = n := by
  obtain ⟨-, hcl, hch⟩ := hacc.headState_fields
  rw [declaredLength_of_spelled h.spelled] at hcl
  have hfalse : (headState line ls).chunked = false := by
    rw [hch]
    exact any_isChunked_eq_false.mpr h.not_chunked
  rw [settledLength, hcl, hfalse] at hbody ⊢
  by_cases hex : ∃ f ∈ lengthFields ls, f.value.length < 32
  · -- a saturated length would need more bytes than there are
    simp only [if_pos hex] at hbody ⊢
    have hpos : ¬min llongMax (n : ℤ) < 0 := by
      rw [llongMax]
      omega
    simp only [hpos, and_false, if_false] at hbody ⊢
    rw [llongMax] at hbody ⊢
    omega
  · obtain ⟨rfl, hver⟩ := h.readable.resolve_left hex
    simp [hex, hacc.headState_version.mpr hver]

/-- Headers that agree come from lines that agree. -/
lemma exists_agreeingLines {line : List UInt8} {ls : List (List UInt8)}
    (hacc : Acceptable line ls) (hne : lengthFields ls ≠ [])
    (hnum : ∀ f ∈ lengthFields ls,
      Digits f.value ∧ (decVal f.value : ℤ) = settledLength (headState line ls))
    (hch : ∀ l ∈ ls, (textField l).chunked = false) :
    ∃ n, AgreeingLines line ls n := by
  obtain ⟨f, hf⟩ := List.exists_mem_of_ne_nil _ hne
  obtain ⟨-, hn⟩ := hnum f hf
  have hspelled : ∀ g ∈ lengthFields ls, Digits g.value ∧ decVal g.value = decVal f.value := by
    intro g hg
    obtain ⟨hdig, hg'⟩ := hnum g hg
    exact ⟨hdig, by omega⟩
  refine ⟨decVal f.value, hspelled, hch, ?_⟩
  by_cases hex : ∃ g ∈ lengthFields ls, g.value.length < 32
  · exact Or.inl hex
  · -- no value was read, so the length is the default
    right
    obtain ⟨-, hcl, -⟩ := hacc.headState_fields
    rw [declaredLength_of_spelled hspelled, if_neg hex] at hcl
    rw [settledLength, hcl] at hn
    split at hn
    · rename_i hdefault
      exact ⟨by omega, hacc.headState_version.mp hdefault.1⟩
    · omega

/-- **Unambiguous length**: an accepted request with `Content-Length` headers has
one length, and the one in use, exactly when the lines of its head agree on it. -/
theorem unambiguousLength_iff (data : List UInt8) (hlen : data.length < 2 ^ 63)
    (hdone : (parseFresh data).1 = .done)
    (hcl : ∃ h ∈ (parseFresh data).2.headers, isContentLength h = true) :
    UnambiguousLength (parseFresh data).2 ↔
      ∃ line ls rest n, Head data line ls rest ∧ AgreeingLines line ls n := by
  cases hf : findCrlf data with
  | none => simp [parseFresh, httpParseRequest, hf] at hdone
  | some k =>
    obtain ⟨ls, rest, hhead⟩ := exists_head hf
    obtain ⟨hacc, cur, m, hcur, -, hstate, hbody⟩ := hhead.of_done hdone
    obtain ⟨hheaders, -, hchunked⟩ := hacc.headState_fields
    have hnum : (∀ h ∈ (parseFresh data).2.headers, isContentLength h = true →
        Digits h.value.bytes ∧ (decVal h.value.bytes : ℤ) = (parseFresh data).2.contentLength) ↔
        ∀ f ∈ lengthFields ls, Digits f.value ∧
          (decVal f.value : ℤ) = settledLength (headState (data.take k) ls) := by
      rw [hstate]
      simp only [settle, hheaders]
      constructor
      · intro hall f hf'
        obtain ⟨h, hh, hn, rfl⟩ := mem_lengthFields.mp hf'
        exact hall h hh hn
      · intro hall h hh hn
        exact hall _ (mem_lengthFields.mpr ⟨h, hh, hn, rfl⟩)
    have hch : (parseFresh data).2.chunked = false ↔
        ∀ l ∈ ls, (textField l).chunked = false := by
      rw [hstate]
      simp only [settle, hchunked]
      exact any_isChunked_eq_false
    constructor
    · rintro ⟨h1, h2⟩
      have hne : lengthFields ls ≠ [] := by
        obtain ⟨h, hh, hn⟩ := hcl
        rw [hstate] at hh
        simp only [settle, hheaders] at hh
        exact List.ne_nil_of_mem (mem_lengthFields.mpr ⟨h, hh, hn, rfl⟩)
      obtain ⟨n, hn⟩ := exists_agreeingLines hacc hne (hnum.mp h1) (hch.mp h2)
      exact ⟨_, ls, rest, n, hhead, hn⟩
    · rintro ⟨line, ls', rest', n, hhead', hagree⟩
      -- a text has one head, so these are the lines that the parser went through
      obtain ⟨rfl, rfl, rfl⟩ := hhead.unique hhead'
      have hset := hagree.settledLength_eq hacc (by omega)
      refine ⟨hnum.mpr ?_, hch.mpr hagree.not_chunked⟩
      intro f hf'
      obtain ⟨hdig, hn⟩ := hagree.spelled f hf'
      exact ⟨hdig, by rw [hset, hn]⟩

/-- A request that announces two lengths. -/
def twoLengths : List UInt8 :=
  bytes "POST / HTTP/1.1" ++ crlf ++ bytes "Content-Length: 0" ++ crlf ++
    bytes "Content-Length: 2" ++ crlf ++ crlf ++ bytes "hi"

/-- It is accepted with the second length, and both headers are stored. -/
theorem twoLengths_accepted :
    (parseFresh twoLengths).1 = .done ∧
    (parseFresh twoLengths).2.contentLength = 2 ∧
    (parseFresh twoLengths).2.headers.map HttpHeader.field =
      [⟨bytes "Content-Length", bytes "0"⟩, ⟨bytes "Content-Length", bytes "2"⟩] ∧
    ¬UnambiguousLength (parseFresh twoLengths).2 := by
  refine ⟨by decide +kernel, by decide +kernel, by decide +kernel, fun h => ?_⟩
  have hall : ∀ h ∈ (parseFresh twoLengths).2.headers, isContentLength h = true →
      (decVal h.value.bytes : ℤ) = (parseFresh twoLengths).2.contentLength :=
    fun x hx hn => (h.number x hx hn).2
  exact absurd hall (by decide +kernel)

/-- A request that announces its length once. -/
def oneLength : List UInt8 :=
  bytes "POST / HTTP/1.1" ++ crlf ++ bytes "Content-Length: 2" ++ crlf ++ crlf ++ bytes "hi"

/-- One `Content-Length` of one digit leaves no doubt about the length. -/
theorem unambiguousLength_iff_oneLength : UnambiguousLength (parseFresh oneLength).2 := by
  have hhead : Head oneLength (bytes "POST / HTTP/1.1") [bytes "Content-Length: 2"]
      (crlf ++ bytes "hi") := ⟨by decide, by decide, by decide, by decide⟩
  have hagree : AgreeingLines (bytes "POST / HTTP/1.1") [bytes "Content-Length: 2"] 2 :=
    ⟨by decide +kernel, by decide +kernel, by decide +kernel⟩
  exact (unambiguousLength_iff oneLength (by decide +kernel) (by decide +kernel)
    (by decide +kernel)).mpr ⟨_, _, _, 2, hhead, hagree⟩

end Nproxy
