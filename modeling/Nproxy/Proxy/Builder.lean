import Nproxy.Http.RoundTrip

/-!
`build_proxy_request` of `proxy/proxy_conn.c`: the head of the forwarded request,
printed piece by piece into a buffer of `NP_MAX_HEADER_LEN` bytes on the stack.

`HeadBuf` is that buffer with the running offset `n`. Its memory is addressed
from the start of the array and goes on behind its end, so that a write that
strays is a write like any other; a cell that was never written holds `none`.
`snprintf` gets the size `sizeof(buf) - (usize)n`, computed modulo `2^64`.

`headText` is what the pieces say, without any buffer. `HeadBuf.Prints` relates
the two: it holds along the whole loop, however long the text gets, and says what
the first 8192 cells hold. `inBounds_iff` reads off it for which requests the
function stays in its buffer.
-/

namespace Nproxy

/-! ### The function -/

/-- The stack buffer `buf`, the offset `n`, and the offsets at which `snprintf`
was called so far. -/
structure HeadBuf where
  cells : ℕ → Option UInt8
  n : ℕ
  calls : List ℕ

/-- The uninitialised buffer. -/
def HeadBuf.empty : HeadBuf := ⟨fun _ => none, 0, []⟩

/-- `sizeof(buf) - (usize)n`. -/
def roomAt (n : ℕ) : ℕ := (npMaxHeaderLen + 2 ^ 64 - n) % 2 ^ 64

/-- The bytes that `snprintf` writes when it is given `size` bytes for `text`: as
much of the text as fits, and a NUL. -/
def snprintfOut (size : ℕ) (text : List UInt8) : List UInt8 :=
  if size = 0 then [] else text.take (size - 1) ++ [0]

/-- One `snprintf(buf + n, sizeof(buf) - (usize)n, ...)` and `n += hn`: the value
returned is the length of the text, written or not. -/
def HeadBuf.printf (b : HeadBuf) (text : List UInt8) : HeadBuf :=
  let out := snprintfOut (roomAt b.n) text
  { cells := fun i => if b.n ≤ i ∧ i < b.n + out.length then out[i - b.n]? else b.cells i
    n := b.n + text.length
    calls := b.calls ++ [b.n] }

/-- What the first call prints. -/
def requestText (req : HttpRequest) : List UInt8 :=
  List.flatten [
    httpMethodStr req.method, bytes " ", cstr req.path.bytes, bytes " HTTP/1.1", crlf,
    bytes "Host: ", cstr (requestHeader req (.lit "Host")).bytes, crlf,
    bytes "X-Real-IP: ", cstr req.remoteIp, crlf,
    bytes "X-Forwarded-For: ", cstr req.remoteIp, crlf,
    bytes "Connection: ", if req.upgrade then bytes "Upgrade" else bytes "keep-alive", crlf]

/-- What a call in the loop prints. -/
def headerText (h : HttpHeader) : List UInt8 :=
  List.flatten [cstr h.name.bytes, bytes ": ", cstr h.value.bytes, crlf]

/-- The headers that the loop skips. -/
def isSkipped (h : HttpHeader) : Bool :=
  strIeq h.name (.lit "Host") || strIeq h.name (.lit "Connection")

/-- `build_proxy_request` up to the last `snprintf`. The test `hn > 0` always
holds: a header line has four bytes at least. -/
def printHead (req : HttpRequest) : HeadBuf :=
  let b := HeadBuf.empty.printf (requestText req)
  let b := req.headers.foldl (fun b h => if isSkipped h then b else b.printf (headerText h)) b
  b.printf crlf

/-- The bytes that the `memcpy` reads; `junk` is what stands in the cells that
were never written and behind the buffer. -/
def HeadBuf.read (junk : ℕ → UInt8) (b : HeadBuf) : List UInt8 :=
  (List.range b.n).map fun i => (b.cells i).getD (junk i)

/-- Is there room for the head in `upstream_wbuf`? -/
def headFits (wbuf : NpBuf) (b : HeadBuf) : Prop := b.n > 0 ∧ bufWritable wbuf ≥ b.n

instance (wbuf : NpBuf) (b : HeadBuf) : Decidable (headFits wbuf b) :=
  inferInstanceAs (Decidable (_ ∧ _))

/-- `build_proxy_request`: what becomes of `upstream_wbuf`. -/
def buildProxyRequest (junk : ℕ → UInt8) (wbuf : NpBuf) (req : HttpRequest) : NpBuf :=
  let b := printHead req
  let wbuf := if headFits wbuf b then bufAppend wbuf (b.read junk) else wbuf
  if req.body.len > 0 ∧ bufWritable wbuf ≥ req.body.len then bufAppend wbuf req.body.bytes
  else wbuf

/-! ### What is printed -/

/-- The head of the forwarded request. -/
def headText (req : HttpRequest) : List UInt8 :=
  requestText req ++ (req.headers.filter fun h => !isSkipped h).flatMap headerText ++ crlf

/-- The buffer after the pieces of `text` were printed: `n` is the length of the
text, no call was made behind it, and the cells of the array hold the text, but
for the NUL that takes the last cell when the text does not fit. -/
structure HeadBuf.Prints (b : HeadBuf) (text : List UInt8) : Prop where
  length : b.n = text.length
  calls : ∀ c ∈ b.calls, c ≤ b.n
  text : ∀ i < npMaxHeaderLen - 1, i < b.n → b.cells i = text[i]?
  written : ∀ i < npMaxHeaderLen, i < b.n → (b.cells i).isSome

lemma HeadBuf.empty_prints : HeadBuf.empty.Prints [] :=
  ⟨rfl, by simp [empty], by simp [empty], by simp [empty]⟩

lemma roomAt_eq {n : ℕ} (h : n ≤ npMaxHeaderLen) : roomAt n = npMaxHeaderLen - n := by
  rw [npMaxHeaderLen] at h
  rw [roomAt, npMaxHeaderLen]
  omega

/-- What `snprintf` writes covers the text as far as the array goes. -/
lemma length_snprintfOut {n : ℕ} (h : n < npMaxHeaderLen) (text : List UInt8) :
    (snprintfOut (roomAt n) text).length = min text.length (npMaxHeaderLen - 1 - n) + 1 := by
  rw [roomAt_eq h.le, snprintfOut, if_neg (by omega), List.length_append, List.length_take,
    List.length_singleton]
  omega

lemma getElem?_snprintfOut {n i : ℕ} (h : n + i < npMaxHeaderLen - 1) (text : List UInt8)
    (hi : i < text.length) : (snprintfOut (roomAt n) text)[i]? = text[i]? := by
  rw [npMaxHeaderLen] at h
  rw [roomAt_eq (by rw [npMaxHeaderLen]; omega), snprintfOut, npMaxHeaderLen, if_neg (by omega),
    List.getElem?_append_left (by rw [List.length_take]; omega),
    List.getElem?_take_of_lt (by omega)]

/-- **One call**: it prints its text behind the text so far. -/
lemma HeadBuf.Prints.printf {b : HeadBuf} {text : List UInt8} (h : b.Prints text)
    (t : List UInt8) : (b.printf t).Prints (text ++ t) := by
  have hn := h.length
  refine ⟨?_, ?_, ?_, ?_⟩
  · simp [HeadBuf.printf, hn]
  · intro c hc
    simp only [HeadBuf.printf, List.mem_append, List.mem_singleton] at hc ⊢
    rcases hc with hc | rfl
    · exact (h.calls c hc).trans (Nat.le_add_right _ _)
    · exact Nat.le_add_right _ _
  · intro i hi hin
    simp only [HeadBuf.printf] at hin ⊢
    by_cases hold : i < b.n
    · rw [if_neg (by omega), h.text i hi hold, List.getElem?_append_left (by omega)]
    · have hout := length_snprintfOut (n := b.n) (by omega) t
      rw [if_pos ⟨by omega, by omega⟩, getElem?_snprintfOut (by omega) t (by omega),
        List.getElem?_append_right (by omega), hn]
  · intro i hi hin
    simp only [HeadBuf.printf] at hin ⊢
    by_cases hold : i < b.n
    · rw [if_neg (by omega)]
      exact h.written i hi hold
    · have hout := length_snprintfOut (n := b.n) (by omega) t
      rw [if_pos ⟨by omega, by omega⟩, List.getElem?_eq_getElem (by omega)]
      rfl

/-- The loop over the headers prints those that are not skipped. -/
lemma HeadBuf.Prints.foldl {b : HeadBuf} {text : List UInt8} (h : b.Prints text)
    (hs : List HttpHeader) :
    (hs.foldl (fun b h => if isSkipped h then b else b.printf (headerText h)) b).Prints
      (text ++ (hs.filter fun h => !isSkipped h).flatMap headerText) := by
  induction hs generalizing b text with
  | nil => simpa using h
  | cons x hs ih =>
    rw [List.foldl_cons]
    by_cases hx : isSkipped x = true
    · simpa [hx] using ih h
    · simpa [hx] using ih (h.printf (headerText x))

/-- **The head is printed**, as far as the buffer goes. -/
lemma printHead_prints (req : HttpRequest) : (printHead req).Prints (headText req) :=
  ((HeadBuf.empty_prints.printf (requestText req)).foldl req.headers).printf crlf

@[simp] lemma HeadBuf.length_read (junk : ℕ → UInt8) (b : HeadBuf) :
    (b.read junk).length = b.n := by
  simp [HeadBuf.read]

/-- What is copied is the text, up to the last byte of the buffer. -/
lemma HeadBuf.Prints.take_read {b : HeadBuf} {text : List UInt8} (h : b.Prints text) {k : ℕ}
    (hk : k ≤ npMaxHeaderLen - 1) (junk : ℕ → UInt8) : (b.read junk).take k = text.take k := by
  have hn := h.length
  apply List.ext_getElem?
  intro i
  by_cases hik : i < k
  · rw [List.getElem?_take_of_lt hik, List.getElem?_take_of_lt hik]
    by_cases hin : i < b.n
    · have hi : i < text.length := by omega
      have hcell := h.text i (by omega) hin
      rw [List.getElem?_eq_getElem hi] at hcell ⊢
      simp [HeadBuf.read, hin, hcell]
    · rw [List.getElem?_eq_none (by rw [length_read]; omega), List.getElem?_eq_none (by omega)]
  · rw [List.getElem?_take_eq_none (by omega), List.getElem?_take_eq_none (by omega)]

/-- Whatever is printed, `upstream_wbuf` stays in order: both copies check for
room. -/
lemma buildProxyRequest_wf (junk : ℕ → UInt8) {wbuf : NpBuf} (h : wbuf.Wf) (req : HttpRequest) :
    (buildProxyRequest junk wbuf req).Wf := by
  have h1 : (if headFits wbuf (printHead req) then bufAppend wbuf ((printHead req).read junk)
      else wbuf).Wf := by
    split
    · rename_i hfits
      exact bufAppend_wf h (by simpa using hfits.2)
    · exact h
  rw [buildProxyRequest]
  generalize (if headFits wbuf (printHead req) then bufAppend wbuf ((printHead req).read junk)
    else wbuf) = w at h1 ⊢
  split
  · rename_i hbody
    exact bufAppend_wf h1 hbody.2
  · exact h1

/-- What was in `upstream_wbuf` stays in front. -/
lemma bufBytes_prefix_buildProxyRequest (junk : ℕ → UInt8) {wbuf : NpBuf} (h : wbuf.Wf)
    (req : HttpRequest) : bufBytes wbuf <+: bufBytes (buildProxyRequest junk wbuf req) := by
  rw [buildProxyRequest]
  by_cases hfits : headFits wbuf (printHead req)
  · have hlen : ((printHead req).read junk).length ≤ bufWritable wbuf := by simpa using hfits.2
    rw [if_pos hfits]
    split
    · rename_i hbody
      rw [bufBytes_append (bufAppend_wf h hlen) hbody.2, bufBytes_append h hlen, List.append_assoc]
      exact List.prefix_append _ _
    · rw [bufBytes_append h hlen]
      exact List.prefix_append _ _
  · rw [if_neg hfits]
    split
    · rename_i hbody
      rw [bufBytes_append h hbody.2]
      exact List.prefix_append _ _
    · exact List.prefix_rfl

@[simp] lemma buildProxyRequest_cap (junk : ℕ → UInt8) (wbuf : NpBuf) (req : HttpRequest) :
    (buildProxyRequest junk wbuf req).cap = wbuf.cap := by
  rw [buildProxyRequest]
  split <;> split <;> simp

/-- The last call is the one for the blank line, and it is made at the largest
offset. -/
lemma mem_calls_printHead (req : HttpRequest) :
    (headText req).length - 2 ∈ (printHead req).calls ∧
      ∀ c ∈ (printHead req).calls, c ≤ (headText req).length - 2 := by
  have hp := (HeadBuf.empty_prints.printf (requestText req)).foldl req.headers
  have hlen : (headText req).length - 2 = (requestText req ++
      (req.headers.filter fun h => !isSkipped h).flatMap headerText).length := by
    rw [headText, List.length_append]
    exact Nat.add_sub_cancel _ 2
  rw [hlen, ← List.nil_append (requestText req), ← hp.length]
  refine ⟨by simp [printHead, HeadBuf.printf], ?_⟩
  intro c hc
  simp only [printHead, HeadBuf.printf, List.mem_append, List.mem_singleton] at hc
  rcases hc with hc | rfl
  · exact hp.calls c hc
  · exact le_rfl

/-! ### Staying inside the buffer -/

/-- What keeps `build_proxy_request` inside its buffer: no call is made behind
its last byte, and the bytes that are copied were all written into it. -/
structure InBounds (wbuf : NpBuf) (req : HttpRequest) : Prop where
  offsets : ∀ c ∈ (printHead req).calls, c ≤ npMaxHeaderLen - 1
  copied : headFits wbuf (printHead req) →
    ∀ i < (printHead req).n, i < npMaxHeaderLen ∧ ((printHead req).cells i).isSome

/-- The length of the forwarded head, from the lengths of its parts. -/
def forwardedLength (req : HttpRequest) : ℕ :=
  (httpMethodStr req.method).length + (cstr req.path.bytes).length +
  (cstr (requestHeader req (.lit "Host")).bytes).length + 2 * (cstr req.remoteIp).length +
  (if req.upgrade then 7 else 10) +
  ((req.headers.filter fun h => !isSkipped h).map fun h =>
    (cstr h.name.bytes).length + (cstr h.value.bytes).length + 4).sum + 68

lemma length_headerText (h : HttpHeader) : (headerText h).length
    = (cstr h.name.bytes).length + (cstr h.value.bytes).length + 4 := by
  have hcolon : (bytes ": ").length = 2 := rfl
  have hcrlf : crlf.length = 2 := rfl
  simp only [headerText, List.length_flatten, List.map_cons, List.map_nil, List.sum_cons,
    List.sum_nil, hcolon, hcrlf]
  omega

lemma length_requestText (req : HttpRequest) : (requestText req).length
    = (httpMethodStr req.method).length + (cstr req.path.bytes).length +
      (cstr (requestHeader req (.lit "Host")).bytes).length + 2 * (cstr req.remoteIp).length +
      (if req.upgrade then 7 else 10) + 66 := by
  have hconn : (if req.upgrade then bytes "Upgrade" else bytes "keep-alive").length
      = if req.upgrade then 7 else 10 := by
    split <;> rfl
  simp only [requestText, List.length_flatten, List.map_cons, List.map_nil, List.sum_cons,
    List.sum_nil, hconn, show crlf.length = 2 from rfl, show (bytes " ").length = 1 from rfl,
    show (bytes " HTTP/1.1").length = 9 from rfl, show (bytes "Host: ").length = 6 from rfl,
    show (bytes "X-Real-IP: ").length = 11 from rfl,
    show (bytes "X-Forwarded-For: ").length = 17 from rfl,
    show (bytes "Connection: ").length = 12 from rfl]
  ring

lemma length_headText (req : HttpRequest) : (headText req).length = forwardedLength req := by
  have hcrlf : crlf.length = 2 := rfl
  rw [headText, List.length_append, List.length_append, length_requestText, List.length_flatMap,
    hcrlf, forwardedLength]
  simp only [length_headerText]
  omega

/-- A head that leaves room for the final NUL is copied as it is. -/
lemma read_printHead {req : HttpRequest} (h : forwardedLength req ≤ npMaxHeaderLen - 1)
    (junk : ℕ → UInt8) : (printHead req).read junk = headText req := by
  have hp := printHead_prints req
  rw [← length_headText] at h
  have htake := hp.take_read h junk
  rwa [List.take_of_length_le (by rw [HeadBuf.length_read, hp.length]), List.take_length] at htake

/-- What `build_proxy_request` appends when there is room for the head. -/
lemma bufBytes_buildProxyRequest {wbuf : NpBuf} (hwf : wbuf.Wf) {req : HttpRequest}
    (hroom : forwardedLength req ≤ bufWritable wbuf) (junk : ℕ → UInt8) :
    bufBytes (buildProxyRequest junk wbuf req) = bufBytes wbuf ++ ((printHead req).read junk ++
      if forwardedLength req + req.body.len ≤ bufWritable wbuf then req.body.bytes else []) := by
  have hn : (printHead req).n = forwardedLength req := by
    rw [(printHead_prints req).length, length_headText]
  have hpos : 68 ≤ forwardedLength req := Nat.le_add_left _ _
  have hlen : ((printHead req).read junk).length = forwardedLength req := by
    rw [HeadBuf.length_read, hn]
  have hfits : headFits wbuf (printHead req) := ⟨by omega, by omega⟩
  have hroom' : ((printHead req).read junk).length ≤ bufWritable wbuf := by omega
  have hwf' := bufAppend_wf hwf hroom'
  have hbytes := bufBytes_append hwf hroom'
  have hleft : bufWritable (bufAppend wbuf ((printHead req).read junk))
      = bufWritable wbuf - forwardedLength req := by
    simp only [bufWritable, bufAppend, bufProduce, hlen]
    omega
  rw [buildProxyRequest]
  simp only [if_pos hfits]
  by_cases hbody : forwardedLength req + req.body.len ≤ bufWritable wbuf
  · rw [if_pos hbody]
    by_cases hzero : req.body.len > 0
    · have hbody' : req.body.bytes.length ≤ bufWritable wbuf - forwardedLength req := by
        rw [Str.len] at hbody
        omega
      rw [if_pos ⟨hzero, by omega⟩, bufBytes_append hwf' (hleft ▸ hbody'), hbytes,
        List.append_assoc]
    · have hnil : req.body.bytes = [] := by
        rw [Str.len] at hzero
        exact List.eq_nil_of_length_eq_zero (by omega)
      rw [if_neg (fun h => hzero h.1), hbytes, hnil, List.append_nil]
  · rw [if_neg hbody, if_neg (fun h => hbody (by omega)), hbytes, List.append_nil]

/-- **Where the builder stays in bounds**: exactly for heads that fit the buffer,
and for those one byte too long that find no room in `upstream_wbuf`. -/
lemma inBounds_iff (wbuf : NpBuf) (req : HttpRequest) :
    InBounds wbuf req ↔ forwardedLength req ≤ npMaxHeaderLen ∨
      (forwardedLength req = npMaxHeaderLen + 1 ∧ bufWritable wbuf < npMaxHeaderLen + 1) := by
  have hp := printHead_prints req
  obtain ⟨hlast, hall⟩ := mem_calls_printHead req
  have hn := hp.length
  rw [length_headText] at hlast hall hn
  have hpos : 68 ≤ forwardedLength req := Nat.le_add_left _ _
  have hmax : npMaxHeaderLen = 8192 := rfl
  constructor
  · rintro ⟨hoff, hcopy⟩
    have h1 := hoff _ hlast
    by_cases hfit : forwardedLength req ≤ npMaxHeaderLen
    · exact Or.inl hfit
    · refine Or.inr ⟨by omega, ?_⟩
      by_contra hroom
      -- the last byte that is copied lies behind the buffer
      have := (hcopy ⟨by omega, by omega⟩ npMaxHeaderLen (by omega)).1
      omega
  · intro h
    refine ⟨fun c hc => ?_, fun hfits i hi => ?_⟩
    · have := hall c hc
      omega
    · have hi' : i < npMaxHeaderLen := by
        rcases h with h | ⟨h, hroom⟩
        · omega
        · have := hfits.2
          omega
      exact ⟨hi', hp.written i hi' hi⟩

/-! ### Requests from the read buffer -/

/-- The request that `handle_read` and `handler_dispatch` make of accepted bytes
of a client at `peer`. -/
def parsedRequest (data : List UInt8) (peer : InAddr) : HttpRequest :=
  { requestPopulate requestCreate (parseFresh data).2 data with remoteIp := inetNtop peer }

/-- The head forwarded for bytes of the read buffer is far shorter than an `int`
can count. -/
lemma forwardedLength_lt {data : List UInt8} (hlen : data.length ≤ npReadBufSize)
    (hd : (parseFresh data).1 = .done) (peer : InAddr) :
    forwardedLength (parsedRequest data peer) < 2 ^ 31 := by
  obtain ⟨hcount, hsize, huri⟩ := done_sizes hd
  obtain ⟨-, -, hheaders⟩ := requestPopulate_fields requestCreate (parseFresh data).2 data
  obtain ⟨hpath, -, -⟩ := requestPopulate_target requestCreate (parseFresh data).2 data
  have hbuf : npReadBufSize = 65536 := rfl
  set req := parsedRequest data peer with hreq
  have hh : req.headers = (parseFresh data).2.headers := hheaders
  have hmethod : (httpMethodStr req.method).length ≤ 7 := by
    cases req.method <;> decide
  have hp : (cstr req.path.bytes).length ≤ npReadBufSize := by
    have h1 := length_cstr_le req.path.bytes
    have h2 : req.path.bytes.length ≤ (parseFresh data).2.uri.bytes.length := by
      change (requestPopulate requestCreate (parseFresh data).2 data).path.bytes.length ≤ _
      rw [hpath]
      exact (List.takeWhile_prefix _).length_le
    omega
  have hhost : (cstr (requestHeader req (.lit "Host")).bytes).length ≤ npReadBufSize := by
    refine (length_cstr_le _).trans ?_
    rcases requestHeader_mem req (.lit "Host") with h0 | ⟨x, hx, heq⟩
    · rw [h0]
      exact Nat.zero_le _
    · rw [hh] at hx
      rw [heq]
      exact (hsize x hx).2.trans hlen
  have hip : (cstr req.remoteIp).length ≤ 15 :=
    (length_cstr_le _).trans (length_inetNtop_le peer)
  -- at most 64 headers, with a name and a value of at most 65536 bytes each
  have hsum : ((req.headers.filter fun h => !isSkipped h).map fun h =>
      (cstr h.name.bytes).length + (cstr h.value.bytes).length + 4).sum ≤ 64 * 131076 := by
    have h1 : (req.headers.filter fun h => !isSkipped h).length ≤ 64 :=
      (List.length_filter_le _ _).trans (by rw [hh]; exact hcount)
    have h2 := List.sum_le_card_nsmul ((req.headers.filter fun h => !isSkipped h).map fun h =>
      (cstr h.name.bytes).length + (cstr h.value.bytes).length + 4) 131076 (by
        intro x hx
        obtain ⟨h, hmem, rfl⟩ := List.mem_map.mp hx
        have hmem' := (List.mem_filter.mp hmem).1
        rw [hh] at hmem'
        have h3 := hsize h hmem'
        have h4 := length_cstr_le h.name.bytes
        have h5 := length_cstr_le h.value.bytes
        omega)
    rw [List.length_map, smul_eq_mul] at h2
    exact h2.trans (Nat.mul_le_mul_right _ h1)
  rw [forwardedLength]
  split <;> omega

/-- **The head builder and its buffer**: for every request that the parser accepts
from the read buffer, the count `n` is an `int`, and the function stays in its
buffer exactly when the head is at most 8192 bytes long, or is one byte longer
and not copied. -/
theorem buildProxyRequest_inBounds_iff (data : List UInt8) (hlen : data.length ≤ npReadBufSize)
    (hdone : (parseFresh data).1 = .done) (peer : InAddr) (wbuf : NpBuf) :
    (printHead (parsedRequest data peer)).n < 2 ^ 31 ∧
    (InBounds wbuf (parsedRequest data peer) ↔
      forwardedLength (parsedRequest data peer) ≤ npMaxHeaderLen ∨
      (forwardedLength (parsedRequest data peer) = npMaxHeaderLen + 1 ∧
        bufWritable wbuf < npMaxHeaderLen + 1)) := by
  refine ⟨?_, inBounds_iff _ _⟩
  rw [(printHead_prints _).length, length_headText]
  exact forwardedLength_lt hlen hdone peer

/-- The forwarded head of a short request stays inside `hdr_buf`. -/
theorem buildProxyRequest_inBounds_iff_getMessage :
    (parseFresh getMessage.render).1 = .done ∧
    (printHead (parsedRequest getMessage.render ⟨127, 0, 0, 1⟩)).n < 2 ^ 31 ∧
    InBounds (bufInit npWriteBufSize) (parsedRequest getMessage.render ⟨127, 0, 0, 1⟩) := by
  have hdone : (parseFresh getMessage.render).1 = .done := by decide +kernel
  obtain ⟨hcount, hbounds⟩ := buildProxyRequest_inBounds_iff getMessage.render (by decide) hdone
    ⟨127, 0, 0, 1⟩ (bufInit npWriteBufSize)
  exact ⟨hdone, hcount, hbounds.mpr (Or.inl (by decide +kernel))⟩

/-- The path that is forwarded is as long as the target. -/
lemma le_forwardedLength_pathRequest (n : ℕ) (peer : InAddr) :
    n ≤ forwardedLength (parsedRequest (pathRequest n).render peer) := by
  have hpath : (parsedRequest (pathRequest n).render peer).path.bytes = List.replicate n 97 :=
    path_pathRequest n
  rw [forwardedLength, hpath, cstr_replicate, List.length_replicate]
  omega

/-- A request for a path of 9000 letters is accepted from the read buffer, and
the call that prints the blank line is made behind the end of the stack buffer. -/
theorem pathRequest_out_of_bounds :
    (pathRequest 9000).render.length ≤ npReadBufSize ∧
    (parseFresh (pathRequest 9000).render).1 = .done ∧
    (∃ c ∈ (printHead (parsedRequest (pathRequest 9000).render ⟨127, 0, 0, 1⟩)).calls,
      npMaxHeaderLen < c) ∧
    ¬InBounds (bufInit npWriteBufSize) (parsedRequest (pathRequest 9000).render ⟨127, 0, 0, 1⟩) := by
  have hlong := le_forwardedLength_pathRequest 9000 ⟨127, 0, 0, 1⟩
  have hmax : npMaxHeaderLen = 8192 := rfl
  refine ⟨by rw [length_pathRequest]; decide, parse_pathRequest 9000, ?_, ?_⟩
  · refine ⟨_, (mem_calls_printHead _).1, ?_⟩
    rw [length_headText]
    omega
  · rw [inBounds_iff]
    omega

end Nproxy
