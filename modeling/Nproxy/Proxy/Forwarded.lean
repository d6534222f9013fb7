import Nproxy.Http.Framing
import Nproxy.Proxy.Builder

/-!
What the upstream reads: the forwarded head, taken apart again.

`headText` is one long text. `headText_eq` writes it as a request line and header
lines, and `Sendable.head` says that it is read with just these lines: what the
parser stores has no line break inside, so that nothing a client sends can start
a line of its own.

* `forwarded_reparses`: a request that is forwarded is read back as the request
  it was, with the headers of the proxy in front.
* `requestLine_kept_iff`: for which requests the request line asks for the same.
* `realIps_headText`: which `X-Real-IP` fields the upstream finds. The copy loop
  skips `Host` and `Connection` only, so a client's own are among them.
-/

namespace Nproxy

open Lines (IsLine joinLines findPair frontLines)

/-! ### The lines of the head -/

/-- The request line that is sent. -/
def sentLine (req : HttpRequest) : List UInt8 :=
  httpMethodStr req.method ++ 32 :: (cstr req.path.bytes ++ 32 :: Version.http11.text)

/-- The fields that the proxy adds. -/
def ownFields (req : HttpRequest) : List Field :=
  [⟨bytes "Host", cstr (requestHeader req (.lit "Host")).bytes⟩,
    ⟨bytes "X-Real-IP", cstr req.remoteIp⟩,
    ⟨bytes "X-Forwarded-For", cstr req.remoteIp⟩,
    ⟨bytes "Connection", if req.upgrade then bytes "Upgrade" else bytes "keep-alive"⟩]

/-- The field that is printed for a header. -/
def HttpHeader.printed (h : HttpHeader) : Field := ⟨cstr h.name.bytes, cstr h.value.bytes⟩

/-- The headers that are copied. -/
def copiedHeaders (req : HttpRequest) : List HttpHeader := req.headers.filter fun h => !isSkipped h

/-- All fields of the head. -/
def sentFields (req : HttpRequest) : List Field :=
  ownFields req ++ (copiedHeaders req).map HttpHeader.printed

lemma headerText_eq (h : HttpHeader) : headerText h = h.printed.line ++ [cr, lf] := by
  have hcolon : bytes ": " = [58, 32] := rfl
  simp [headerText, HttpHeader.printed, Field.line, hcolon, crlf]

lemma requestText_eq (req : HttpRequest) : requestText req
    = sentLine req ++ cr :: lf :: joinLines cr lf ((ownFields req).map Field.line) := by
  have h1 : bytes " " = [32] := rfl
  have h2 : bytes " HTTP/1.1" = 32 :: bytes "HTTP/1.1" := rfl
  have h3 : bytes "Host: " = bytes "Host" ++ [58, 32] := rfl
  have h4 : bytes "X-Real-IP: " = bytes "X-Real-IP" ++ [58, 32] := rfl
  have h5 : bytes "X-Forwarded-For: " = bytes "X-Forwarded-For" ++ [58, 32] := rfl
  have h6 : bytes "Connection: " = bytes "Connection" ++ [58, 32] := rfl
  simp [requestText, sentLine, ownFields, Field.line, Version.text, crlf, h1, h2, h3, h4, h5, h6]

/-- **The head, line by line.** -/
lemma headText_eq (req : HttpRequest) :
    headText req = sentLine req ++
      cr :: lf :: (joinLines cr lf ((sentFields req).map Field.line) ++ [cr, lf]) := by
  have hcopied : (copiedHeaders req).flatMap headerText
      = joinLines cr lf (((copiedHeaders req).map HttpHeader.printed).map Field.line) := by
    rw [joinLines, List.map_map, List.flatMap_map]
    exact List.flatMap_congr fun h _ => headerText_eq h
  rw [headText, requestText_eq, sentFields, List.map_append, Lines.joinLines_append, ← hcopied]
  simp only [copiedHeaders, crlf, List.append_assoc, List.cons_append]

/-- A request whose parts stay on their lines. -/
structure Sendable (req : HttpRequest) : Prop where
  path_isLine : IsLine cr lf req.path.bytes
  ip_isLine : IsLine cr lf req.remoteIp
  stored : ∀ h ∈ req.headers, h.Stored

lemma isLine_cstr {l : List UInt8} (h : IsLine cr lf l) : IsLine cr lf (cstr l) :=
  h.of_infix cr_ne_lf (cstr_isPrefix l).isInfix

lemma Field.isLine_line {name value : List UInt8} (hname : IsLine cr lf name)
    (hvalue : IsLine cr lf value) : IsLine cr lf (Field.line ⟨name, value⟩) := by
  refine hname.append cr_ne_lf ?_ (by simp [lf])
  exact (hvalue.cons cr_ne_lf (by decide)).cons cr_ne_lf (by decide)

namespace Sendable

variable {req : HttpRequest}

lemma isLine_sentLine (h : Sendable req) : IsLine cr lf (sentLine req) := by
  have hmethod : IsLine cr lf (httpMethodStr req.method) := by
    cases req.method <;> decide
  refine hmethod.append cr_ne_lf (IsLine.cons cr_ne_lf (by decide) ?_) (by simp [lf])
  exact (isLine_cstr h.path_isLine).append cr_ne_lf (by decide) (by simp [lf])

lemma isLine_host (h : Sendable req) : IsLine cr lf (requestHeader req (.lit "Host")).bytes := by
  rcases requestHeader_mem req (.lit "Host") with h0 | ⟨x, hx, heq⟩
  · rw [h0]
    exact Lines.isLine_nil
  · rw [heq]
    exact (h.stored x hx).value_isLine

/-- Every field stays on its line, and its name in front of the colon. -/
lemma of_mem_sentFields (h : Sendable req) {f : Field} (hf : f ∈ sentFields req) :
    58 ∉ f.name ∧ IsLine cr lf f.line := by
  rcases List.mem_append.mp hf with hf | hf
  · have hip := isLine_cstr h.ip_isLine
    simp only [ownFields, List.mem_cons, List.not_mem_nil, or_false] at hf
    have hconn : IsLine cr lf (if req.upgrade then bytes "Upgrade" else bytes "keep-alive") := by
      split <;> decide
    rcases hf with rfl | rfl | rfl | rfl
    · exact ⟨show 58 ∉ bytes "Host" by decide,
        Field.isLine_line (by decide) (isLine_cstr h.isLine_host)⟩
    · exact ⟨show 58 ∉ bytes "X-Real-IP" by decide, Field.isLine_line (by decide) hip⟩
    · exact ⟨show 58 ∉ bytes "X-Forwarded-For" by decide, Field.isLine_line (by decide) hip⟩
    · exact ⟨show 58 ∉ bytes "Connection" by decide, Field.isLine_line (by decide) hconn⟩
  · obtain ⟨x, hx, rfl⟩ := List.mem_map.mp hf
    have hst := h.stored x (List.mem_filter.mp hx).1
    exact ⟨fun hmem => hst.name_colon ((cstr_isPrefix _).subset hmem),
      Field.isLine_line (isLine_cstr hst.name_isLine) (isLine_cstr hst.value_isLine)⟩

/-- **The head is read with the lines it was written with**, whatever follows. -/
lemma head (h : Sendable req) (rest : List UInt8) :
    Head (headText req ++ rest) (sentLine req) ((sentFields req).map Field.line)
      (cr :: lf :: rest) := by
  refine ⟨h.isLine_sentLine, ?_, ?_, Or.inr (by simp)⟩
  · simp [headText_eq]
  · intro l hl
    obtain ⟨f, hf, rfl⟩ := List.mem_map.mp hl
    exact ⟨by simp [Field.line], (h.of_mem_sentFields hf).2⟩

lemma map_textField (h : Sendable req) :
    ((sentFields req).map Field.line).map textField = (sentFields req).map Field.trim := by
  rw [List.map_map]
  exact List.map_congr_left fun f hf => textField_line (h.of_mem_sentFields hf).1

end Sendable

/-- **Requests that are parsed can be sent**, the path rewritten or not. -/
lemma parsedRequest_sendable {data : List UInt8} (hd : (parseFresh data).1 = .done) (peer : InAddr)
    {path : Str} (hpath : IsLine cr lf path.bytes) :
    Sendable { parsedRequest data peer with path := path } := by
  obtain ⟨method, target, hacc⟩ := accepted_of_done hd
  obtain ⟨-, -, hheaders⟩ := requestPopulate_fields requestCreate (parseFresh data).2 data
  refine ⟨hpath, Lines.isLine_of_notMem (notMem_inetNtop peer (by decide) (by decide)), ?_⟩
  intro h hh
  refine hacc.stored h ?_
  rw [← hheaders]
  exact hh

/-! ### Reading the forwarded request back -/

/-- The headers that the upstream is meant to get: those of the proxy, and the
client's but for `Host` and `Connection`. -/
def forwardedFields (req : HttpRequest) : List Field :=
  [⟨bytes "Host", (requestHeader req (.lit "Host")).bytes⟩,
    ⟨bytes "X-Real-IP", req.remoteIp⟩,
    ⟨bytes "X-Forwarded-For", req.remoteIp⟩,
    ⟨bytes "Connection", if req.upgrade then bytes "Upgrade" else bytes "keep-alive"⟩] ++
  (req.headers.filter fun h =>
    !(strIeq h.name (.lit "Host") || strIeq h.name (.lit "Connection"))).map HttpHeader.field

/-- The forwarded bytes `sent` are read as the request that they were made of. -/
structure Reparses (req : HttpRequest) (sent : List UInt8) : Prop where
  done : (parseFresh sent).1 = .done
  consumed : (parseFresh sent).2.parsedBytes = sent.length
  version : (parseFresh sent).2.version = .http11
  uri : (parseFresh sent).2.uri.bytes = req.path.bytes
  headers : (parseFresh sent).2.headers.map HttpHeader.field = forwardedFields req
  chunked : (parseFresh sent).2.chunked = req.chunked
  body : (requestPopulate requestCreate (parseFresh sent).2 sent).body.bytes = req.body.bytes

/-- Fields of a name that the proxy neither adds nor skips are the client's. -/
lemma filter_forwardedFields {p : Field → Bool} {s : String} (hs : 0 ∉ bytes s)
    (hp : ∀ f, p f = true → f.named s = true)
    (hown : ∀ n ∈ ["Host", "X-Real-IP", "X-Forwarded-For", "Connection"],
      strIeq (.lit n) (.lit s) = false) (req : HttpRequest) :
    (forwardedFields req).filter p = (req.headers.map HttpHeader.field).filter p := by
  have hname : ∀ n ∈ ["Host", "X-Real-IP", "X-Forwarded-For", "Connection"], ∀ v,
      p ⟨bytes n, v⟩ = false := by
    intro n hn v
    rw [Bool.eq_false_iff]
    intro h
    exact absurd (hp _ h) (by rw [Field.named]; simpa [Str.lit] using hown n hn)
  -- a header that is skipped has one of the names that the proxy sets itself
  have hskip : ∀ h : HttpHeader, isSkipped h = true → p h.field = false := by
    intro h hh
    rw [Bool.eq_false_iff]
    intro hph
    have hnamed := (strIeq_iff (by simpa [Str.lit] using hs)).mp (hp _ hph)
    have hboth : ∀ n ∈ ["Host", "X-Real-IP", "X-Forwarded-For", "Connection"], 0 ∉ bytes n →
        strIeq h.name (.lit n) = false := by
      intro n hn h0
      rw [Bool.eq_false_iff]
      intro hx
      have hmap := (strIeq_iff (by simpa [Str.lit] using h0)).mp hx
      have : strIeq (.lit n) (.lit s) = true :=
        (strIeq_iff (by simpa [Str.lit] using hs)).mpr (hmap.symm.trans hnamed)
      simp [hown n hn] at this
    rw [isSkipped, hboth "Host" (by simp) (by decide),
      hboth "Connection" (by simp) (by decide)] at hh
    simp at hh
  have hcopied : ((req.headers.filter fun h => !isSkipped h).map HttpHeader.field).filter p
      = (req.headers.map HttpHeader.field).filter p := by
    rw [List.filter_map, List.filter_map, List.filter_filter]
    congr 1
    refine List.filter_congr fun h _ => ?_
    by_cases hh : isSkipped h = true
    · simp [hh, hskip h hh]
    · simp [hh]
  rw [forwardedFields, List.filter_append]
  rw [List.filter_eq_nil_iff.mpr, List.nil_append]
  · exact hcopied
  · intro f hf
    simp only [List.mem_cons, List.not_mem_nil, or_false] at hf
    rcases hf with rfl | rfl | rfl | rfl <;> simp [hname]

namespace Sendable

variable {req : HttpRequest}

/-- Without NULs, and with a trimmed address, the fields are read as they were
meant. -/
lemma map_trim_sentFields (h : Sendable req)
    (hnul : ∀ x ∈ req.headers, 0 ∉ x.name.bytes ∧ 0 ∉ x.value.bytes)
    (hip : 0 ∉ req.remoteIp) (htrim : Trimmed req.remoteIp) :
    (sentFields req).map Field.trim = forwardedFields req := by
  have hhost : Trimmed (requestHeader req (.lit "Host")).bytes ∧
      0 ∉ (requestHeader req (.lit "Host")).bytes := by
    rcases requestHeader_mem req (.lit "Host") with h0 | ⟨x, hx, heq⟩
    · rw [h0]
      decide +kernel
    · rw [heq]
      exact ⟨(h.stored x hx).value_trimmed, (hnul x hx).2⟩
  have hconn : Trimmed (if req.upgrade then bytes "Upgrade" else bytes "keep-alive") := by
    split <;> decide +kernel
  rw [sentFields, ownFields, forwardedFields, List.map_append, cstr_eq_self_iff.mpr hip,
    cstr_eq_self_iff.mpr hhost.2]
  congr 1
  · simp only [List.map_cons, List.map_nil]
    rw [Field.trim_of_trimmed (by decide +kernel) hhost.1,
      Field.trim_of_trimmed (by decide +kernel) htrim,
      Field.trim_of_trimmed (by decide +kernel) htrim,
      Field.trim_of_trimmed (by decide +kernel) hconn]
  · rw [List.map_map]
    refine List.map_congr_left fun x hx => ?_
    have hmem := (List.mem_filter.mp hx).1
    have hst := h.stored x hmem
    change Field.trim x.printed = x.field
    rw [HttpHeader.printed, cstr_eq_self_iff.mpr (hnul x hmem).1,
      cstr_eq_self_iff.mpr (hnul x hmem).2]
    exact Field.trim_of_trimmed hst.name_trimmed hst.value_trimmed

end Sendable

/-- The parser state at the end of the forwarded head. -/
def sentState (req : HttpRequest) : HttpParseState :=
  headState (sentLine req) ((sentFields req).map Field.line)

section SentState

variable {req : HttpRequest} (h : Sendable req) (hsp : 32 ∉ req.path.bytes)
  (hcount : (sentFields req).length ≤ npMaxHeaders)

include hsp in
lemma parse_sentLine (s : HttpParseState) : parseRequestLine s (sentLine req) = some { s with
      method := parseMethod (httpMethodStr req.method)
      uri := ⟨.buf ((httpMethodStr req.method).length + 1), cstr req.path.bytes⟩
      version := .http11 } := by
  have hmethod : 32 ∉ httpMethodStr req.method := by
    cases req.method <;> decide
  exact parseRequestLine_parts hmethod (fun hmem => hsp ((cstr_isPrefix _).subset hmem)) .http11 s

include hsp hcount

lemma sent_acceptable : Acceptable (sentLine req) ((sentFields req).map Field.line) := by
  refine ⟨by simp [parse_sentLine hsp], ?_, by simpa using hcount⟩
  intro l hl
  obtain ⟨f, -, rfl⟩ := List.mem_map.mp hl
  simp [Field.line]

include h

/-- **The parser on the forwarded head, whatever follows it.** -/
lemma parse_sent (rest : List UInt8) : parseFresh (headText req ++ rest)
    = finishParse (sentState req) (headText req).length (headText req ++ rest).length := by
  have hp := (h.head rest).parse (sent_acceptable hsp hcount)
  have hlen : headLength (sentLine req) ((sentFields req).map Field.line) + 2
      = (headText req).length := by
    simp only [headLength, headText_eq, List.length_append, List.length_cons, List.length_nil]
    omega
  rw [if_neg (by simp), if_pos (by simp), hlen] at hp
  exact hp

lemma sentState_fields :
    (sentState req).version = .http11 ∧
    (sentState req).uri.bytes = cstr req.path.bytes ∧
    (sentState req).headers.map HttpHeader.field = (sentFields req).map Field.trim := by
  have hacc := sent_acceptable hsp hcount
  have hline := parse_sentLine hsp httpParseStateInit
  obtain ⟨-, -, -, -, i5, i6⟩ := storeHeaders_fields
    { httpParseStateInit with
      method := parseMethod (httpMethodStr req.method)
      uri := ⟨.buf ((httpMethodStr req.method).length + 1), cstr req.path.bytes⟩
      version := .http11 }
    (lineHeaders ((sentLine req).length + 2) ((sentFields req).map Field.line))
  refine ⟨?_, ?_, ?_⟩
  · rw [sentState, headState, hline]
    exact i6
  · rw [sentState, headState, hline]
    exact congrArg Str.bytes i5
  · rw [sentState, hacc.headState_fields.1, map_field_lineHeaders, h.map_textField]

/-- The framing is that of the client's headers. -/
lemma sentState_framing (hfields : (sentFields req).map Field.trim = forwardedFields req) :
    (sentState req).contentLength = declaredLength (-1) req.headers ∧
    (sentState req).chunked = req.headers.any isChunked := by
  obtain ⟨hheaders, hlength, hchunked⟩ := (sent_acceptable hsp hcount).headState_fields
  obtain ⟨-, -, hread⟩ := sentState_fields h hsp hcount
  rw [hfields] at hread
  rw [← hheaders] at hlength hchunked
  constructor
  · rw [sentState, hlength, declaredLength_eq, declaredLength_eq]
    change (((sentState req).headers.map HttpHeader.field).filter _ |>.filterMap _).getLastD _ = _
    rw [hread, filter_forwardedFields (s := "Content-Length") (by decide) (fun _ hf => hf)
      (by decide)]
  · have hany : ∀ fs : List Field, fs.any Field.chunked
        = (fs.filter Field.chunked).any fun _ => true := by
      intro fs
      simp [List.any_filter]
    rw [sentState, hchunked, any_isChunked, any_isChunked]
    change ((sentState req).headers.map HttpHeader.field).any _ = _
    rw [hread, hany, hany, filter_forwardedFields (s := "Transfer-Encoding") (by decide) ?_
      (by decide)]
    intro f hf
    rw [Field.chunked, Bool.and_eq_true] at hf
    exact hf.1

end SentState

/-- The body of a parsed request has the length that its headers announce. -/
lemma length_body_parsedRequest {data : List UInt8} (hd : (parseFresh data).1 = .done)
    (peer : InAddr) : (parsedRequest data peer).body.bytes.length
      = (declaredLength (-1) (parsedRequest data peer).headers).toNat := by
  obtain ⟨method, target, hacc⟩ := accepted_of_done hd
  obtain ⟨-, -, hheaders⟩ := requestPopulate_fields requestCreate (parseFresh data).2 data
  have hle := done_body_le hd
  have hbody := requestPopulate_body requestCreate (parseFresh data).2 data
  change (requestPopulate requestCreate (parseFresh data).2 data).body.bytes.length
    = (declaredLength (-1) (requestPopulate requestCreate (parseFresh data).2 data).headers).toNat
  rw [hheaders, ← hacc.length, hbody]
  split
  · rw [List.length_take, List.length_drop]
    omega
  · rename_i hneg
    change 0 = (parseFresh data).2.contentLength.toNat
    omega

/-- What makes a request one that is read back whole. -/
structure Clean (req : HttpRequest) : Prop extends Sendable req where
  path_sp : 32 ∉ req.path.bytes
  path_nul : 0 ∉ req.path.bytes
  fields : (sentFields req).map Field.trim = forwardedFields req
  count : (sentFields req).length ≤ npMaxHeaders
  length : req.body.bytes.length = (declaredLength (-1) req.headers).toNat
  chunked : req.chunked = req.headers.any isChunked

/-- **The forwarded head and the body are read as the request.** -/
lemma Clean.reparses {req : HttpRequest} (h : Clean req) :
    Reparses req (headText req ++ req.body.bytes) := by
  obtain ⟨hversion, huri, hheaders⟩ := sentState_fields h.toSendable h.path_sp h.count
  obtain ⟨hlength, hchunked⟩ := sentState_framing h.toSendable h.path_sp h.count h.fields
  have hlen := h.length
  have htotal : (headText req ++ req.body.bytes).length
      = (headText req).length + req.body.bytes.length := List.length_append
  -- the head is settled, and all bytes behind it are the body
  have hparse : parseFresh (headText req ++ req.body.bytes) = (.done,
      { settle (sentState req) (headText req).length with
        parsedBytes := (headText req ++ req.body.bytes).length }) := by
    rw [parse_sent h.toSendable h.path_sp h.count, finishParse_eq, hlength, htotal]
    by_cases hpos : 0 < declaredLength (-1) req.headers
    · rw [if_pos hpos, if_neg (by omega), hlen]
    · have hzero : req.body.bytes.length = 0 := by omega
      rw [if_neg hpos, hzero]
      rfl
  refine ⟨by rw [hparse], by rw [hparse], by rw [hparse]; exact hversion, ?_, ?_, ?_, ?_⟩
  · rw [hparse]
    exact huri.trans (cstr_eq_self_iff.mpr h.path_nul)
  · rw [hparse]
    exact hheaders.trans h.fields
  · rw [hparse, h.chunked]
    exact hchunked
  · have hcl : (parseFresh (headText req ++ req.body.bytes)).2.contentLength
        = settledLength (sentState req) := by
      rw [hparse]
      rfl
    have hoff : (parseFresh (headText req ++ req.body.bytes)).2.bodyOffset
        = (headText req).length := by
      rw [hparse]
      rfl
    have hpos := settledLength_pos_iff (sentState req)
    rw [hlength] at hpos
    rw [requestPopulate_body, hcl, hoff]
    by_cases hp : 0 < declaredLength (-1) req.headers
    · have hset : settledLength (sentState req) = declaredLength (-1) req.headers := by
        rw [settledLength, hlength, if_neg (by omega)]
      rw [if_pos ⟨by omega, by omega⟩, hset, ← hlen, List.drop_left, List.take_length]
    · have hzero : req.body.bytes = [] := List.eq_nil_of_length_eq_zero (by omega)
      rw [if_neg (by omega), hzero]
      rfl

/-- Without its body a request that has one is not complete. -/
lemma Clean.incomplete {req : HttpRequest} (h : Clean req) (hbody : req.body.bytes ≠ []) :
    (parseFresh (headText req)).1 = .incomplete := by
  obtain ⟨hlength, -⟩ := sentState_framing h.toSendable h.path_sp h.count h.fields
  have hlen := h.length
  have hpos : 0 < req.body.bytes.length := List.length_pos_iff.mpr hbody
  have hparse := parse_sent h.toSendable h.path_sp h.count []
  rw [List.append_nil, finishParse_eq, hlength, if_pos (by omega), if_pos (by omega)] at hparse
  rw [hparse]

lemma length_forwardedFields (req : HttpRequest) :
    (forwardedFields req).length = (sentFields req).length := by
  simp only [forwardedFields, sentFields, ownFields, copiedHeaders, List.length_append,
    List.length_map, List.length_cons]
  rfl

/-- The path of a parsed request has no blank and stays on its line. -/
lemma path_parsedRequest {data : List UInt8} (hd : (parseFresh data).1 = .done) (peer : InAddr) :
    32 ∉ (parsedRequest data peer).path.bytes ∧
      IsLine cr lf (parsedRequest data peer).path.bytes := by
  obtain ⟨method, target, hacc⟩ := accepted_of_done hd
  obtain ⟨hpath, -, -⟩ := requestPopulate_target requestCreate (parseFresh data).2 data
  have hpre : (parsedRequest data peer).path.bytes <+: target := by
    change (requestPopulate requestCreate (parseFresh data).2 data).path.bytes <+: target
    rw [hpath, hacc.uri]
    exact List.takeWhile_prefix _
  exact ⟨fun hmem => hacc.target_sp (hpre.subset hmem),
    hacc.target_isLine.of_infix cr_ne_lf hpre.isInfix⟩

/-- Accepted requests without NULs, and with room for four more headers, are clean. -/
lemma parsedRequest_clean {data : List UInt8} (hd : (parseFresh data).1 = .done) {peer : InAddr}
    (hpath : 0 ∉ (parsedRequest data peer).path.bytes)
    (hnul : ∀ h ∈ (parsedRequest data peer).headers, 0 ∉ h.name.bytes ∧ 0 ∉ h.value.bytes)
    (hcount : (forwardedFields (parsedRequest data peer)).length ≤ npMaxHeaders) :
    Clean (parsedRequest data peer) := by
  obtain ⟨hsp, hline⟩ := path_parsedRequest hd peer
  have hsend : Sendable (parsedRequest data peer) := parsedRequest_sendable hd peer hline
  obtain ⟨method, target, hacc⟩ := accepted_of_done hd
  obtain ⟨-, -, hheaders⟩ := requestPopulate_fields requestCreate (parseFresh data).2 data
  refine ⟨hsend, hsp, hpath, ?_, ?_, length_body_parsedRequest hd peer, ?_⟩
  · exact hsend.map_trim_sentFields hnul (notMem_inetNtop peer (by decide) (by decide))
      (trimmed_inetNtop peer)
  · rwa [← length_forwardedFields]
  · change (requestPopulate requestCreate (parseFresh data).2 data).chunked
      = (requestPopulate requestCreate (parseFresh data).2 data).headers.any isChunked
    rw [hheaders, requestPopulate_chunked]
    exact hacc.chunked

/-- The body of a parsed request is a part of the bytes that were parsed. -/
lemma len_body_parsedRequest_le {data : List UInt8} (hd : (parseFresh data).1 = .done)
    (peer : InAddr) : (parsedRequest data peer).body.len ≤ data.length := by
  have hle := done_body_le hd
  change (requestPopulate requestCreate (parseFresh data).2 data).body.bytes.length ≤ data.length
  rw [requestPopulate_body]
  split
  · rw [List.length_take, List.length_drop]
    omega
  · exact Nat.zero_le _

/-- **The forwarded request is read back as the request it was**, when no part of
it has a NUL, its head leaves room for the NUL of `snprintf` and has at most 64
headers: the upstream's parser takes all of the bytes, and finds the request's
path, the headers of the proxy and then the client's, the same framing and the
same body. All that can go wrong is that the body does not fit `upstream_wbuf`
behind the head, and a body from the read buffer always does. -/
theorem forwarded_reparses (data : List UInt8) (hdone : (parseFresh data).1 = .done) (peer : InAddr)
    (hpath : 0 ∉ (parsedRequest data peer).path.bytes)
    (hnul : ∀ h ∈ (parsedRequest data peer).headers, 0 ∉ h.name.bytes ∧ 0 ∉ h.value.bytes)
    (hhead : forwardedLength (parsedRequest data peer) ≤ 8191)
    (hcount : (forwardedFields (parsedRequest data peer)).length ≤ npMaxHeaders)
    (junk : ℕ → UInt8) (wbuf : NpBuf) (hwf : wbuf.Wf) (hcap : wbuf.cap = npWriteBufSize)
    (hempty : wbuf.writePos = 0) :
    (data.length ≤ npReadBufSize → Reparses (parsedRequest data peer)
      (bufBytes (buildProxyRequest junk wbuf (parsedRequest data peer)))) ∧
    (Reparses (parsedRequest data peer)
        (bufBytes (buildProxyRequest junk wbuf (parsedRequest data peer))) ↔
      forwardedLength (parsedRequest data peer) + (parsedRequest data peer).body.len
        ≤ npWriteBufSize) := by
  have hsize : npWriteBufSize = 131072 ∧ npReadBufSize = 65536 := ⟨rfl, rfl⟩
  have hclean := parsedRequest_clean hdone hpath hnul hcount
  have hbody := len_body_parsedRequest_le hdone peer
  generalize parsedRequest data peer = req at *
  have hwritable : bufWritable wbuf = npWriteBufSize := by
    rw [bufWritable, hempty, hcap, Nat.sub_zero]
  have hnil : bufBytes wbuf = [] := by
    have hle := hwf.le
    rw [← List.length_eq_zero_iff, length_bufBytes hwf, bufReadable]
    omega
  have hfits : forwardedLength req ≤ bufWritable wbuf := by omega
  have hsent := bufBytes_buildProxyRequest hwf hfits junk
  rw [hnil, List.nil_append, read_printHead hhead, hwritable] at hsent
  have hiff : Reparses req (bufBytes (buildProxyRequest junk wbuf req)) ↔
      forwardedLength req + req.body.len ≤ npWriteBufSize := by
    rw [hsent]
    by_cases hfit : forwardedLength req + req.body.len ≤ npWriteBufSize
    · rw [if_pos hfit]
      exact iff_of_true hclean.reparses hfit
    · rw [if_neg hfit, List.append_nil]
      -- a body that does not fit is left out, and the upstream waits for it
      refine iff_of_false (fun h => ?_) hfit
      have hne : req.body.bytes ≠ [] := by
        intro h0
        rw [Str.len, h0, List.length_nil] at hfit
        omega
      have hdone := h.done
      rw [hclean.incomplete hne] at hdone
      simp at hdone
  exact ⟨fun hlen => hiff.mpr (by omega), hiff⟩

/-- The sample request, forwarded and read back. -/
theorem forwarded_reparses_getMessage :
    (parseFresh getMessage.render).1 = .done ∧
    Reparses (parsedRequest getMessage.render ⟨127, 0, 0, 1⟩)
      (bufBytes (buildProxyRequest (fun _ => 0) (bufInit npWriteBufSize)
        (parsedRequest getMessage.render ⟨127, 0, 0, 1⟩))) :=
  ⟨by decide +kernel, (forwarded_reparses getMessage.render (by decide +kernel) ⟨127, 0, 0, 1⟩
    (by decide +kernel) (by decide +kernel) (by decide +kernel) (by decide +kernel) (fun _ => 0)
    (bufInit npWriteBufSize) (bufInit_wf (by decide)) rfl rfl).1 (by decide)⟩

/-! ### The request line -/

/-- The method token: what stands in front of the first blank of a text. -/
def lineToken (text : List UInt8) : List UInt8 := text.takeWhile (· != 32)

/-- The request-target: what stands between the first two blanks of a text. -/
def lineTarget (text : List UInt8) : List UInt8 :=
  ((text.dropWhile (· != 32)).drop 1).takeWhile (· != 32)

lemma ne_of_notMem {l : List UInt8} {c : UInt8} (h : c ∉ l) : ∀ d ∈ l, (d != c) = true := by
  intro d hd
  rw [bne_iff_ne]
  rintro rfl
  exact h hd

lemma lineToken_eq {m : List UInt8} (hm : 32 ∉ m) (rest : List UInt8) :
    lineToken (m ++ 32 :: rest) = m := by
  rw [lineToken, List.takeWhile_append_of_pos (ne_of_notMem hm)]
  simp

lemma lineTarget_eq {m t : List UInt8} (hm : 32 ∉ m) (ht : 32 ∉ t) (rest : List UInt8) :
    lineTarget (m ++ 32 :: (t ++ 32 :: rest)) = t := by
  have hdrop : (m ++ 32 :: (t ++ 32 :: rest)).dropWhile (· != 32) = 32 :: (t ++ 32 :: rest) := by
    rw [List.dropWhile_append_of_pos (ne_of_notMem hm)]
    simp
  rw [lineTarget, hdrop, List.drop_one, List.tail_cons,
    List.takeWhile_append_of_pos (ne_of_notMem ht)]
  simp

/-- The tokens that `http_method_str` prints. -/
def methodTokens : List (List UInt8) :=
  [bytes "GET", bytes "POST", bytes "PUT", bytes "DELETE", bytes "HEAD", bytes "OPTIONS",
    bytes "PATCH", bytes "UNKNOWN"]

/-- A token is printed as it was read exactly when it is one of these. -/
lemma httpMethodStr_parseMethod_iff (m : List UInt8) :
    httpMethodStr (parseMethod m) = m ↔ m ∈ methodTokens := by
  constructor
  · intro h
    rw [← h]
    cases parseMethod m <;> simp [httpMethodStr, methodTokens]
  · intro h
    simp only [methodTokens, List.mem_cons, List.not_mem_nil, or_false] at h
    rcases h with rfl | rfl | rfl | rfl | rfl | rfl | rfl | rfl <;> decide

/-- The path is printed as the target exactly when the target has no query and no
NUL. -/
lemma cstr_path_iff (target : List UInt8) :
    cstr (target.takeWhile (· != 63)) = target ↔ 63 ∉ target ∧ 0 ∉ target := by
  constructor
  · intro h
    have hpre := (cstr_isPrefix (target.takeWhile (· != 63))).length_le
    have hall : target.takeWhile (· != 63) = target := by
      refine (List.takeWhile_prefix _).eq_of_length_le ?_
      rw [h] at hpre
      exact hpre
    rw [hall] at h
    refine ⟨fun hmem => ?_, cstr_eq_self_iff.mp h⟩
    simpa using List.takeWhile_eq_self_iff.mp hall 63 hmem
  · rintro ⟨hq, h0⟩
    rw [List.takeWhile_eq_self_iff.mpr (ne_of_notMem hq)]
    exact cstr_eq_self_iff.mpr h0

/-- The bytes that are appended start with the request line. -/
lemma exists_sent_eq {wbuf : NpBuf} (hwf : wbuf.Wf) {req : HttpRequest}
    (hfits : forwardedLength req ≤ npMaxHeaderLen) (hroom : forwardedLength req ≤ bufWritable wbuf)
    (junk : ℕ → UInt8) : ∃ rest, (bufBytes (buildProxyRequest junk wbuf req)).drop
      (bufBytes wbuf).length = sentLine req ++ rest := by
  have hmax : npMaxHeaderLen = 8192 := rfl
  have hlen : (sentLine req).length ≤ npMaxHeaderLen - 1 := by
    have h1 := length_headText req
    rw [headText_eq] at h1
    simp only [List.length_append, List.length_cons, List.length_nil] at h1
    omega
  have htake := (printHead_prints req).take_read hlen junk
  rw [headText_eq, List.take_left] at htake
  rw [bufBytes_buildProxyRequest hwf hroom, List.drop_left,
    ← List.take_append_drop (sentLine req).length ((printHead req).read junk), htake,
    List.append_assoc]
  exact ⟨_, rfl⟩

/-- **What is asked for is kept** in the request line that is sent, for a head
that fits the buffer, exactly when the method is one that the proxy has a name for
and the target has no query (and no NUL): the query is split off the path and
never sent. -/
theorem requestLine_kept_iff (data : List UInt8) (hdone : (parseFresh data).1 = .done)
    (peer : InAddr) (hfits : forwardedLength (parsedRequest data peer) ≤ npMaxHeaderLen)
    (junk : ℕ → UInt8) (wbuf : NpBuf) (hwf : wbuf.Wf)
    (hroom : forwardedLength (parsedRequest data peer) ≤ bufWritable wbuf) :
    (lineToken ((bufBytes (buildProxyRequest junk wbuf (parsedRequest data peer))).drop
        (bufBytes wbuf).length) = lineToken data ∧
      lineTarget ((bufBytes (buildProxyRequest junk wbuf (parsedRequest data peer))).drop
        (bufBytes wbuf).length) = lineTarget data) ↔
    lineToken data ∈ methodTokens ∧ 63 ∉ lineTarget data ∧ 0 ∉ lineTarget data := by
  obtain ⟨rest, hsent⟩ := exists_sent_eq hwf hfits hroom junk
  obtain ⟨hsp, -⟩ := path_parsedRequest hdone peer
  obtain ⟨method, target, hacc⟩ := accepted_of_done hdone
  obtain ⟨hm, -, -⟩ := requestPopulate_fields requestCreate (parseFresh data).2 data
  obtain ⟨hp, -, -⟩ := requestPopulate_target requestCreate (parseFresh data).2 data
  have hmethod : (parsedRequest data peer).method = parseMethod method := hm.trans hacc.method_eq
  have hpath : (parsedRequest data peer).path.bytes = target.takeWhile (· != 63) := by
    rw [← hacc.uri]
    exact hp
  have hmethod' : 32 ∉ httpMethodStr (parsedRequest data peer).method := by
    cases (parsedRequest data peer).method <;> decide
  have hpath' : 32 ∉ cstr (parsedRequest data peer).path.bytes :=
    fun hmem => hsp ((cstr_isPrefix _).subset hmem)
  obtain ⟨drest, hdata⟩ := hacc.text
  have htext : sentLine (parsedRequest data peer) ++ rest
      = httpMethodStr (parsedRequest data peer).method ++
        32 :: (cstr (parsedRequest data peer).path.bytes ++
          32 :: (Version.http11.text ++ rest)) := by
    simp [sentLine]
  have h1 : lineToken data = method := by
    rw [hdata]
    exact lineToken_eq hacc.method_sp _
  have h2 : lineTarget data = target := by
    rw [hdata]
    exact lineTarget_eq hacc.method_sp hacc.target_sp _
  rw [hsent, htext, lineToken_eq hmethod', lineTarget_eq hmethod' hpath', h1, h2, hmethod, hpath,
    httpMethodStr_parseMethod_iff, cstr_path_iff]

/-- The sample request with a body asks for the same. -/
theorem requestLine_kept_iff_postMessage :
    (parseFresh postMessage.render).1 = .done ∧
    lineToken ((bufBytes (buildProxyRequest (fun _ => 0) (bufInit npWriteBufSize)
        (parsedRequest postMessage.render ⟨127, 0, 0, 1⟩))).drop
      (bufBytes (bufInit npWriteBufSize)).length) = lineToken postMessage.render ∧
    lineTarget ((bufBytes (buildProxyRequest (fun _ => 0) (bufInit npWriteBufSize)
        (parsedRequest postMessage.render ⟨127, 0, 0, 1⟩))).drop
      (bufBytes (bufInit npWriteBufSize)).length) = lineTarget postMessage.render :=
  ⟨by decide +kernel, (requestLine_kept_iff postMessage.render (by decide +kernel) ⟨127, 0, 0, 1⟩
    (by decide +kernel) (fun _ => 0) (bufInit npWriteBufSize) (bufInit_wf (by decide))
    (by decide +kernel)).mpr (by decide +kernel)⟩

/-- `GET /a?b` is forwarded as `GET /a`, and `TRACE /` as `UNKNOWN /`. -/
theorem requestLine_not_kept :
    (parseFresh getMessage.render).1 = .done ∧
    lineTarget getMessage.render = bytes "/a?b" ∧
    lineTarget (bufBytes (buildProxyRequest (fun _ => 0) (bufInit 200)
      (parsedRequest getMessage.render ⟨127, 0, 0, 1⟩))) = bytes "/a" ∧
    (parseFresh (List.flatten [bytes "TRACE / HTTP/1.1", crlf, crlf])).1 = .done ∧
    lineToken (bufBytes (buildProxyRequest (fun _ => 0) (bufInit 200)
      (parsedRequest (List.flatten [bytes "TRACE / HTTP/1.1", crlf, crlf]) ⟨127, 0, 0, 1⟩)))
        = bytes "UNKNOWN" := by
  decide +kernel

/-! ### The client's address -/

/-- The fields of the head at the front of a text: those that its lines spell,
from the second line up to the blank one. -/
def headFields (text : List UInt8) : List Field :=
  match findCrlf text with
  | none => []
  | some k => (frontLines cr lf text.length (text.drop (k + 2))).map textField

/-- The values of the `X-Real-IP` fields of a head, in any case. -/
def realIps (text : List UInt8) : List (List UInt8) :=
  ((headFields text).filter (Field.named "X-Real-IP")).map Field.value

/-- A header that is read as `X-Real-IP` once it is printed. -/
def forges (h : HttpHeader) : Bool := h.printed.trim.named "X-Real-IP"

/-- The addresses that a client claims. -/
def forgedIps (req : HttpRequest) : List (List UInt8) :=
  (req.headers.filter forges).map fun h => h.printed.trim.value

lemma Head.headFields_eq {data line rest : List UInt8} {ls : List (List UInt8)}
    (h : Head data line ls rest) : headFields data = ls.map textField := by
  have hdrop : data.drop (line.length + 2) = joinLines cr lf ls ++ rest := by
    rw [h.eq, List.drop_append]
    simp
  have hlen : ls.length < data.length := by
    have h1 := h.length_eq
    have h2 := Lines.length_le_joinLines (x := cr) (y := lf) ls
    rw [headLength] at h1
    omega
  have hsplit : Lines.HeadSplit cr lf (joinLines cr lf ls ++ rest) ls rest :=
    ⟨rfl, h.lines, h.stop⟩
  rw [headFields, h.findCrlf_eq]
  simp only
  rw [hdrop, hsplit.frontLines_eq hlen]

/-- A header that is read as `X-Real-IP` is copied. -/
lemma not_isSkipped_of_forges {h : HttpHeader} (hst : h.Stored) (hf : forges h = true) :
    isSkipped h = false := by
  have hmap := (strIeq_iff (show 0 ∉ (Str.lit "X-Real-IP").bytes by decide)).mp hf
  -- a name that is skipped has no NUL, and is printed as it is
  have hother : ∀ s : String, 0 ∉ bytes s → 0 ∉ (bytes s).map tolower →
      (bytes s).map tolower ≠ (bytes "X-Real-IP").map tolower → strIeq h.name (.lit s) = false := by
    intro s h0 h0' hne
    rw [Bool.eq_false_iff]
    intro hs
    have hname := (strIeq_iff (by simpa [Str.lit] using h0)).mp hs
    have hnul : 0 ∉ h.name.bytes := by
      intro hmem
      apply h0'
      have hzero : tolower 0 = 0 := by decide
      rw [← hzero, show bytes s = (Str.lit s).bytes from rfl, ← hname]
      exact List.mem_map_of_mem hmem
    have hprint : h.printed.trim.name = h.name.bytes := by
      rw [HttpHeader.printed, Field.trim, cstr_eq_self_iff.mpr hnul]
      exact strTrim_of_trimmed hst.name_trimmed .mem
    have hmap' : h.name.bytes.map tolower = (bytes "X-Real-IP").map tolower := by
      rw [← hprint]
      exact hmap
    exact hne (hname.symm.trans hmap')
  rw [isSkipped, hother "Host" (by decide) (by decide) (by decide),
    hother "Connection" (by decide) (by decide) (by decide)]
  rfl

/-- **Which addresses the upstream finds**: the peer's, and then those that the
client claims. -/
lemma Sendable.realIps_headText {req : HttpRequest} (h : Sendable req) (hip : 0 ∉ req.remoteIp)
    (htrim : Trimmed req.remoteIp) : realIps (headText req) = req.remoteIp :: forgedIps req := by
  have hhead := h.head []
  rw [List.append_nil] at hhead
  have hown : ((ownFields req).map Field.trim).filter (Field.named "X-Real-IP")
      = [⟨bytes "X-Real-IP", req.remoteIp⟩] := by
    have hno : ∀ n ∈ ["Host", "X-Forwarded-For", "Connection"], ∀ v,
        (Field.trim ⟨bytes n, v⟩).named "X-Real-IP" = false := by
      intro n hn v
      change strIeq ⟨.mem, (strTrim ⟨.mem, bytes n⟩).bytes⟩ (.lit "X-Real-IP") = false
      revert n
      decide
    have hyes : Field.named "X-Real-IP" ⟨bytes "X-Real-IP", req.remoteIp⟩ = true := by
      change strIeq ⟨.mem, bytes "X-Real-IP"⟩ (.lit "X-Real-IP") = true
      decide
    have htrim' : Field.trim ⟨bytes "X-Real-IP", req.remoteIp⟩ =
        ⟨bytes "X-Real-IP", req.remoteIp⟩ := Field.trim_of_trimmed (by decide +kernel) htrim
    rw [ownFields, cstr_eq_self_iff.mpr hip]
    simp [hno, hyes, htrim']
  have hcopied : (((copiedHeaders req).map HttpHeader.printed).map Field.trim).filter
      (Field.named "X-Real-IP") = (req.headers.filter forges).map fun h => h.printed.trim := by
    rw [List.map_map, List.filter_map, copiedHeaders, List.filter_filter]
    congr 1
    refine List.filter_congr fun x hx => ?_
    change (forges x && !isSkipped x) = forges x
    cases hf : forges x with
    | false => rfl
    | true => rw [not_isSkipped_of_forges (h.stored x hx) hf]; rfl
  rw [realIps, hhead.headFields_eq, h.map_textField, sentFields, List.map_append,
    List.filter_append, hown, hcopied, List.map_append, List.map_map]
  rfl

/-- **The client's address**: for every accepted request, its path rewritten or
not, the forwarded head has one `X-Real-IP` field, with the address of the peer,
exactly when no header of the client is read as one; the heads for two requests
from one address say the same about it exactly when the clients claim the same.
The head is what is sent when it leaves room for the NUL of `snprintf`. -/
theorem realIp_iff (data data' : List UInt8) (hdone : (parseFresh data).1 = .done)
    (hdone' : (parseFresh data').1 = .done) (peer : InAddr) (path path' : Str)
    (hpath : IsLine cr lf path.bytes) (hpath' : IsLine cr lf path'.bytes) :
    (realIps (headText { parsedRequest data peer with path := path }) = [inetNtop peer] ↔
      ∀ h ∈ (parsedRequest data peer).headers, forges h = false) ∧
    (realIps (headText { parsedRequest data peer with path := path }) =
        realIps (headText { parsedRequest data' peer with path := path' }) ↔
      forgedIps (parsedRequest data peer) = forgedIps (parsedRequest data' peer)) ∧
    ∀ junk, forwardedLength { parsedRequest data peer with path := path } ≤ npMaxHeaderLen - 1 →
      (printHead { parsedRequest data peer with path := path }).read junk =
        headText { parsedRequest data peer with path := path } := by
  have hnul : 0 ∉ inetNtop peer := notMem_inetNtop peer (by decide) (by decide)
  have h1 := (parsedRequest_sendable hdone peer hpath).realIps_headText hnul (trimmed_inetNtop peer)
  have h2 := (parsedRequest_sendable hdone' peer hpath').realIps_headText hnul
    (trimmed_inetNtop peer)
  refine ⟨?_, ?_, fun junk hfits => read_printHead hfits junk⟩
  · rw [h1]
    change inetNtop peer :: forgedIps (parsedRequest data peer) = [inetNtop peer] ↔ _
    rw [List.cons.injEq, forgedIps, List.map_eq_nil_iff, List.filter_eq_nil_iff]
    simp
  · rw [h1, h2]
    change inetNtop peer :: forgedIps (parsedRequest data peer)
      = inetNtop peer :: forgedIps (parsedRequest data' peer) ↔ _
    rw [List.cons.injEq]
    simp

/-- The sample request does not claim an address. -/
theorem realIp_iff_getMessage :
    (parseFresh getMessage.render).1 = .done ∧
    realIps (headText { parsedRequest getMessage.render ⟨127, 0, 0, 1⟩ with
      path := ⟨.mem, bytes "/new"⟩ }) = [inetNtop ⟨127, 0, 0, 1⟩] :=
  ⟨by decide +kernel, (realIp_iff getMessage.render getMessage.render (by decide +kernel)
    (by decide +kernel) ⟨127, 0, 0, 1⟩ ⟨.mem, bytes "/new"⟩ ⟨.mem, bytes "/new"⟩
    (by decide +kernel) (by decide +kernel)).1.mpr (by decide +kernel)⟩

/-- The same request with other headers. -/
def Message.withFields (m : Message) (fields : List Field) (hle : fields.length ≤ npMaxHeaders)
    (hwf : ∀ f ∈ fields, f.Wf) (hte : ∀ f ∈ fields, f.named "Transfer-Encoding" = false)
    (hcl : (fields.filter (Field.named "Content-Length")).map Field.value
      = if m.body = [] then [] else [decimal m.body.length]) : Message :=
  { m with
    fields := fields
    fields_le := hle
    fields_wf := hwf
    no_transfer_encoding := hte
    content_length := hcl }

/-- A request that claims to come from `10.0.0.1`. -/
def forgingMessage : Message :=
  getMessage.withFields [⟨bytes "x-real-ip", bytes "10.0.0.1"⟩] (by decide) (by decide +kernel)
    (by decide +kernel) (by decide +kernel)

/-- Its head carries both addresses, and differs in that from the head of a
request that claims nothing. -/
theorem forgingMessage_forges :
    (parseFresh forgingMessage.render).1 = .done ∧
    realIps ((printHead (parsedRequest forgingMessage.render ⟨127, 0, 0, 1⟩)).read fun _ => 0)
      = [bytes "127.0.0.1", bytes "10.0.0.1"] ∧
    realIps ((printHead (parsedRequest getMessage.render ⟨127, 0, 0, 1⟩)).read fun _ => 0)
      = [bytes "127.0.0.1"] := by
  decide +kernel

end Nproxy
