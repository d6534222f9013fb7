import Nproxy.Http.Head
import Nproxy.Http.Request
import Nproxy.Net.Buffer

/-!
Decoding undoes encoding, on whole pipelined streams.

`Message` is a request as its sender means it, with the conditions under which
its text is unambiguous carried as fields; `Message.render` writes it. `decode`
is what `handle_read` does with a buffer, request after request: parse with a
fresh state, populate, consume `parsed_bytes`.

`Message.head` is the bridge to the parser: the text of a message has exactly the
lines it was written with. `parse_render` reads one message off the front of any
text, and `decode_render` a whole stream by induction on its messages.
-/

namespace Nproxy

open Lines (IsLine joinLines findPair)

/-! ### Fields and request lines -/

/-- A header as its sender means it. -/
structure Field where
  name : List UInt8
  value : List UInt8
  deriving DecidableEq, Repr

/-- The header line `Name: value`. -/
def Field.line (f : Field) : List UInt8 := f.name ++ 58 :: 32 :: f.value

/-- The field without white space at the ends of its name and its value. -/
def Field.trim (f : Field) : Field :=
  ⟨(strTrim ⟨.mem, f.name⟩).bytes, (strTrim ⟨.mem, f.value⟩).bytes⟩

/-- A header that can be written on one line and read back: no colon in the name,
no CR or LF, no white space at the ends. -/
structure Field.Wf (f : Field) : Prop where
  name_colon : 58 ∉ f.name
  name_cr : cr ∉ f.name
  name_lf : lf ∉ f.name
  value_cr : cr ∉ f.value
  value_lf : lf ∉ f.value
  name_trimmed : Trimmed f.name
  value_trimmed : Trimmed f.value

instance (f : Field) : Decidable f.Wf :=
  decidable_of_iff (58 ∉ f.name ∧ cr ∉ f.name ∧ lf ∉ f.name ∧ cr ∉ f.value ∧ lf ∉ f.value ∧
      Trimmed f.name ∧ Trimmed f.value)
    ⟨fun ⟨h1, h2, h3, h4, h5, h6, h7⟩ => ⟨h1, h2, h3, h4, h5, h6, h7⟩,
      fun ⟨h1, h2, h3, h4, h5, h6, h7⟩ => ⟨h1, h2, h3, h4, h5, h6, h7⟩⟩

/-- Is this header the one that `str_ieq` takes for `s`? -/
def Field.named (s : String) (f : Field) : Bool := strIeq ⟨.mem, f.name⟩ (.lit s)

/-- The two versions a request line may carry. -/
inductive Version where
  | http10 | http11
  deriving DecidableEq, Repr

/-- The version as the request line has it. -/
def Version.text : Version → List UInt8
  | .http10 => bytes "HTTP/1.0"
  | .http11 => bytes "HTTP/1.1"

/-- The version as the parser has it. -/
def Version.toHttp : Version → HttpVersion
  | .http10 => .http10
  | .http11 => .http11

/-- A request line with these parts is read back. -/
lemma parseRequestLine_parts {m t : List UInt8} (hm : 32 ∉ m) (ht : 32 ∉ t) (v : Version)
    (s : HttpParseState) :
    parseRequestLine s (m ++ 32 :: (t ++ 32 :: v.text)) = some { s with
      method := parseMethod m
      uri := ⟨.buf (m.length + 1), t⟩
      version := v.toHttp } := by
  have hdrop : (m ++ 32 :: (t ++ 32 :: v.text)).drop (m.length + 1) = t ++ 32 :: v.text := by
    simp [List.drop_append]
  have hsp2 : memchr ((m ++ 32 :: (t ++ 32 :: v.text)).drop (m.length + 1)) 32 = some t.length := by
    rw [hdrop]
    exact memchr_append_cons ht _
  have hver : (m ++ 32 :: (t ++ 32 :: v.text)).drop (m.length + 1 + t.length + 1) = v.text := by
    rw [Nat.add_assoc, ← List.drop_drop, hdrop]
    simp [List.drop_append]
  rw [parseRequestLine, memchr_append_cons hm]
  simp only [hsp2, hver, List.take_left]
  rw [hdrop, List.take_left]
  cases v with
  | http10 =>
    rw [if_neg (by decide)]
    exact if_pos rfl
  | http11 => exact if_pos rfl

/-! ### Fields read back -/

/-- The field a stored header denotes. -/
def HttpHeader.field (h : HttpHeader) : Field := ⟨h.name.bytes, h.value.bytes⟩

/-- The field that a line of text spells: what stands before and behind its first
colon, without white space at the ends. -/
def textField (l : List UInt8) : Field :=
  let colon := l.findIdx (· == 58)
  ⟨(strTrim ⟨.mem, l.take colon⟩).bytes, (strTrim ⟨.mem, l.drop (colon + 1)⟩).bytes⟩

lemma field_lineHeader (cur : ℕ) (l : List UInt8) : (lineHeader cur l).field = textField l := rfl

/-- The headers stored for lines denote the fields that the lines spell. -/
lemma map_field_lineHeaders (cur : ℕ) (ls : List (List UInt8)) :
    (lineHeaders cur ls).map HttpHeader.field = ls.map textField := by
  induction ls generalizing cur with
  | nil => rfl
  | cons l ls ih => rw [lineHeaders, List.map_cons, List.map_cons, ih, field_lineHeader]

lemma textField_line {f : Field} (h : 58 ∉ f.name) : textField f.line = f.trim := by
  have hidx : f.line.findIdx (· == 58) = f.name.length := by
    have h1 := memchr_append_cons h (32 :: f.value)
    rw [memchr_eq (by simp)] at h1
    exact Option.some.inj h1
  have htake : f.line.take f.name.length = f.name := by simp [Field.line]
  have hdrop : f.line.drop (f.name.length + 1) = 32 :: f.value := by
    simp [Field.line, List.drop_append]
  rw [textField, Field.trim]
  simp only [hidx, htake, hdrop]
  rw [strTrim_cons_blank .mem .mem]

lemma Field.trim_of_trimmed {name value : List UInt8} (hname : Trimmed name)
    (hvalue : Trimmed value) : Field.trim ⟨name, value⟩ = ⟨name, value⟩ := by
  rw [Field.trim, strTrim_of_trimmed hname, strTrim_of_trimmed hvalue]

/-- Fields that can be written are read back as they are. -/
lemma map_field_lineHeaders_of_wf {fs : List Field} (h : ∀ f ∈ fs, f.Wf) (cur : ℕ) :
    (lineHeaders cur (fs.map Field.line)).map HttpHeader.field = fs := by
  rw [map_field_lineHeaders, List.map_map]
  refine (List.map_congr_left fun f hf => ?_).trans (List.map_id fs)
  exact (textField_line (h f hf).name_colon).trans
    (Field.trim_of_trimmed (h f hf).name_trimmed (h f hf).value_trimmed)

/-! ### Messages -/

/-- The parts of a request, before any condition on its body. -/
structure RequestHead where
  method : List UInt8
  target : List UInt8
  version : Version
  fields : List Field
  method_sp : 32 ∉ method
  method_cr : cr ∉ method
  method_lf : lf ∉ method
  target_sp : 32 ∉ target
  target_cr : cr ∉ target
  target_lf : lf ∉ target
  fields_le : fields.length ≤ npMaxHeaders
  fields_wf : ∀ f ∈ fields, f.Wf

/-- A well-formed request without a transfer encoding: a body that is not empty
is announced by exactly one `Content-Length`, its length in decimal, and an empty
one by none. -/
structure Message extends RequestHead where
  body : List UInt8
  no_transfer_encoding : ∀ f ∈ fields, f.named "Transfer-Encoding" = false
  content_length : (fields.filter (Field.named "Content-Length")).map Field.value
    = if body = [] then [] else [decimal body.length]

/-- The request line. -/
def RequestHead.line (h : RequestHead) : List UInt8 :=
  h.method ++ 32 :: (h.target ++ 32 :: h.version.text)

/-- The text of a head, up to and with the blank line. -/
def RequestHead.render (h : RequestHead) : List UInt8 :=
  h.line ++ cr :: lf :: (joinLines cr lf (h.fields.map Field.line) ++ [cr, lf])

/-- The text of a message. -/
def Message.render (m : Message) : List UInt8 := m.toRequestHead.render ++ m.body

/-! ### The lines of a text are the lines it was written with -/

lemma Field.Wf.isLine {f : Field} (h : f.Wf) : f.line ≠ [] ∧ IsLine cr lf f.line := by
  refine ⟨by simp [Field.line], Lines.isLine_of_notMem ?_⟩
  simp only [Field.line, List.mem_append, List.mem_cons, not_or]
  exact ⟨h.name_cr, by decide, by decide, h.value_cr⟩

namespace RequestHead

variable (h : RequestHead)

lemma isLine_line : IsLine cr lf h.line := by
  apply Lines.isLine_of_notMem
  have hv : cr ∉ h.version.text := by cases h.version <;> decide
  simp only [line, List.mem_append, List.mem_cons, not_or]
  exact ⟨h.method_cr, by decide, h.target_cr, by decide, hv⟩

/-- **The text of a head, whatever follows it, has the lines it was written
with**, and the blank line behind them. -/
lemma head (rest : List UInt8) :
    Head (h.render ++ rest) h.line (h.fields.map Field.line) (cr :: lf :: rest) := by
  refine ⟨h.isLine_line, ?_, ?_, Or.inr (by simp)⟩
  · simp [render]
  · intro l hl
    obtain ⟨f, hf, rfl⟩ := List.mem_map.mp hl
    exact (h.fields_wf f hf).isLine

lemma headLength_eq :
    headLength h.line (h.fields.map Field.line) + 2 = h.render.length := by
  simp only [headLength, render, List.length_append, List.length_cons, List.length_nil]
  omega

lemma parseRequestLine_line (s : HttpParseState) :
    parseRequestLine s h.line = some { s with
      method := parseMethod h.method
      uri := ⟨.buf (h.method.length + 1), h.target⟩
      version := h.version.toHttp } :=
  parseRequestLine_parts h.method_sp h.target_sp h.version s

lemma acceptable : Acceptable h.line (h.fields.map Field.line) := by
  refine ⟨by simp [h.parseRequestLine_line], ?_, by simpa using h.fields_le⟩
  intro l hl
  obtain ⟨f, -, rfl⟩ := List.mem_map.mp hl
  simp [Field.line]

/-- The parser state at the end of a head. -/
def state : HttpParseState := headState h.line (h.fields.map Field.line)

/-- The request line decides method, target and version. -/
lemma state_fields :
    h.state.method = parseMethod h.method ∧
    h.state.uri = ⟨.buf (h.method.length + 1), h.target⟩ ∧
    h.state.version = h.version.toHttp := by
  obtain ⟨-, -, -, h1, h2, h3⟩ := storeHeaders_fields
    { httpParseStateInit with
      method := parseMethod h.method
      uri := ⟨.buf (h.method.length + 1), h.target⟩
      version := h.version.toHttp }
    (lineHeaders (h.line.length + 2) (h.fields.map Field.line))
  rw [state, headState, h.parseRequestLine_line]
  exact ⟨h1, h2, h3⟩

/-- **The parser on a head, whatever follows it.** -/
lemma parse (rest : List UInt8) :
    parseFresh (h.render ++ rest)
      = finishParse h.state h.render.length (h.render ++ rest).length := by
  have hp := (h.head rest).parse h.acceptable
  rw [if_neg (by simp), if_pos (by simp), h.headLength_eq] at hp
  exact hp

end RequestHead

/-! ### The length that fields announce -/

/-- The length announced by stored headers, read off the fields they denote. -/
lemma declaredLength_eq (d : ℤ) (hs : List HttpHeader) :
    declaredLength d hs = (((hs.map HttpHeader.field).filter
      (Field.named "Content-Length")).filterMap fun f => strToInt ⟨.mem, f.value⟩).getLastD d := by
  rw [declaredLength, List.filter_map, List.filterMap_map]
  rfl

/-- A message announces the length of its body, and nothing when it has none. -/
lemma Message.contentLength_state (m : Message) (hlen : m.body.length < 2 ^ 63) :
    m.state.contentLength = if m.body = [] then -1 else (m.body.length : ℤ) := by
  have hmap := map_field_lineHeaders_of_wf m.fields_wf (m.line.length + 2)
  have hval : ((m.fields.filter (Field.named "Content-Length")).filterMap
      fun f => strToInt ⟨.mem, f.value⟩)
        = ((m.fields.filter (Field.named "Content-Length")).map Field.value).filterMap
            fun v => strToInt ⟨.mem, v⟩ := by
    rw [List.filterMap_map]
    rfl
  rw [RequestHead.state, m.acceptable.headState_fields.2.1, declaredLength_eq, hmap, hval,
    m.content_length]
  split
  · rfl
  · simp [strToInt_decimal hlen]

/-! ### One message -/

/-- The result of a decoding step is the message that was sent. -/
structure Decodes (m : Message) (r : ParseResult × HttpRequest) : Prop where
  done : r.1 = .done
  method : r.2.method = parseMethod m.method
  path : r.2.path.bytes = m.target.takeWhile (· != 63)
  query : r.2.query.bytes = (m.target.dropWhile (· != 63)).drop 1
  noQuery : 63 ∉ m.target → r.2.query = .null
  version : r.2.version = m.version.toHttp
  headers : r.2.headers.map HttpHeader.field = m.fields
  body : r.2.body.bytes = m.body

/-- **One message is read off the front of any text**: the parser accepts it and
consumes exactly its bytes. -/
lemma Message.parse (m : Message) (hlen : m.body.length < 2 ^ 63) (t : List UInt8) :
    parseFresh (m.render ++ t) = (.done,
      { settle m.state m.toRequestHead.render.length with parsedBytes := m.render.length }) := by
  have hcl := m.contentLength_state hlen
  rw [Message.render, List.append_assoc, m.toRequestHead.parse, finishParse_eq, hcl]
  by_cases hb : m.body = []
  · simp [hb, settle]
  · have hpos : 0 < m.body.length := List.length_pos_iff.mpr hb
    rw [if_neg hb, if_pos (by omega), if_neg]
    · simp
    · simp only [List.length_append, Int.toNat_natCast]
      omega

/-- What the parser and `request_populate` make of a message is the message. -/
lemma Message.decodes (m : Message) (hlen : m.body.length < 2 ^ 63) (t : List UInt8) :
    Decodes m ((parseFresh (m.render ++ t)).1,
      requestPopulate requestCreate (parseFresh (m.render ++ t)).2 (m.render ++ t)) := by
  rw [m.parse hlen t]
  set ps : HttpParseState :=
    { settle m.state m.toRequestHead.render.length with parsedBytes := m.render.length } with hps
  obtain ⟨hmethod, huri, hversion⟩ := m.state_fields
  obtain ⟨h1, h2, h3⟩ := requestPopulate_fields requestCreate ps (m.render ++ t)
  obtain ⟨hpath, hquery, hnone⟩ := requestPopulate_target requestCreate ps (m.render ++ t)
  have huri' : ps.uri.bytes = m.target := by
    change m.state.uri.bytes = m.target
    rw [huri]
  rw [huri'] at hpath hquery hnone
  refine ⟨rfl, h1.trans hmethod, hpath, hquery, hnone, h2.trans hversion, ?_, ?_⟩
  · rw [h3]
    change m.state.headers.map HttpHeader.field = m.fields
    rw [RequestHead.state, m.acceptable.headState_fields.1]
    exact map_field_lineHeaders_of_wf m.fields_wf _
  · have hcl : ps.contentLength = settledLength m.state := rfl
    have hpos := settledLength_pos_iff m.state
    change (requestPopulate requestCreate ps (m.render ++ t)).body.bytes = m.body
    rw [requestPopulate_body]
    by_cases hb : m.body = []
    · rw [m.contentLength_state hlen, if_pos hb] at hpos
      rw [if_neg (by rw [hcl]; omega), hb]
      rfl
    · have hcl' : ps.contentLength = m.body.length := by
        rw [hcl, settledLength, m.contentLength_state hlen, if_neg hb, if_neg (by omega)]
      have hoff : ps.bodyOffset = m.toRequestHead.render.length := rfl
      have hpos' : 0 < m.body.length := List.length_pos_iff.mpr hb
      have hlen' : (m.render ++ t).length
          = m.toRequestHead.render.length + m.body.length + t.length := by
        simp [Message.render]
        omega
      rw [if_pos ⟨by omega, by rw [hcl', hoff, hlen', Int.toNat_natCast]; omega⟩, hcl', hoff,
        Message.render, List.append_assoc]
      simp

/-! ### Streams of messages -/

/-- What `handle_read` does with the bytes it has: parse with a fresh state,
populate a request, consume what was parsed. -/
def decodeOne (b : NpBuf) : (ParseResult × HttpRequest) × NpBuf :=
  let raw := bufBytes b
  let p := parseFresh raw
  ((p.1, requestPopulate requestCreate p.2 raw), bufConsume b p.2.parsedBytes)

/-- So many requests are decoded, each from what the one before has left in the buffer. -/
def decode : ℕ → NpBuf → List (ParseResult × HttpRequest) × NpBuf
  | 0, b => ([], b)
  | n + 1, b =>
    let r := decodeOne b
    let rs := decode n r.2
    (r.1 :: rs.1, rs.2)

/-- One step takes the first message off the buffer. -/
lemma decodeOne_render {b : NpBuf} (hb : b.Wf) {m : Message} {t : List UInt8}
    (h : bufBytes b = m.render ++ t) :
    Decodes m (decodeOne b).1 ∧ (decodeOne b).2.Wf ∧ bufBytes (decodeOne b).2 = t := by
  have htotal := length_bufBytes hb
  have hsize : bufReadable b < 2 ^ 63 :=
    lt_of_le_of_lt ((Nat.sub_le _ _).trans hb.room) hb.object
  have hrender : m.render.length ≤ bufReadable b := by
    rw [← htotal, h, List.length_append]
    omega
  have hbody : m.body.length < 2 ^ 63 := by
    rw [Message.render, List.length_append] at hrender
    omega
  have hparsed : (parseFresh (bufBytes b)).2.parsedBytes = m.render.length := by
    rw [h, m.parse hbody t]
  rw [decodeOne]
  simp only [hparsed]
  refine ⟨?_, bufConsume_wf hb hrender, ?_⟩
  · rw [h]
    exact m.decodes hbody t
  · rw [bufBytes_consume, h, List.drop_left]

/-- **Decoding undoes encoding on pipelined streams**: messages one behind the
other, and any bytes behind them, are read back in order, and exactly those bytes
are left. -/
theorem decode_render (ms : List Message) (t : List UInt8) (b : NpBuf) (hb : b.Wf)
    (h : bufBytes b = ms.flatMap Message.render ++ t) :
    List.Forall₂ Decodes ms (decode ms.length b).1 ∧ bufBytes (decode ms.length b).2 = t := by
  induction ms generalizing b with
  | nil => exact ⟨.nil, h⟩
  | cons m ms ih =>
    rw [List.flatMap_cons, List.append_assoc] at h
    obtain ⟨h1, h2, h3⟩ := decodeOne_render hb h
    obtain ⟨i1, i2⟩ := ih _ h2 h3
    exact ⟨.cons h1 i1, i2⟩

/-- A request for `/a?b`. -/
def getMessage : Message where
  method := bytes "GET"
  target := bytes "/a?b"
  version := .http11
  fields := [⟨bytes "Host", bytes "h"⟩]
  body := []
  method_sp := by decide
  method_cr := by decide
  method_lf := by decide
  target_sp := by decide
  target_cr := by decide
  target_lf := by decide
  fields_le := by decide
  fields_wf := by decide +kernel
  no_transfer_encoding := by decide
  content_length := by decide

/-- A request with a body. -/
def postMessage : Message where
  method := bytes "POST"
  target := bytes "/"
  version := .http10
  fields := [⟨bytes "content-length", bytes "2"⟩]
  body := bytes "hi"
  method_sp := by decide
  method_cr := by decide
  method_lf := by decide
  target_sp := by decide
  target_cr := by decide
  target_lf := by decide
  fields_le := by decide
  fields_wf := by decide +kernel
  no_transfer_encoding := by decide
  content_length := by decide

/-- A request for a path of `n` letters. -/
def pathRequest (n : ℕ) : Message :=
  { getMessage with
    target := List.replicate n 97
    fields := []
    target_sp := by simp [List.mem_replicate]
    target_cr := by simp [List.mem_replicate, cr]
    target_lf := by simp [List.mem_replicate, lf]
    fields_le := by decide
    fields_wf := by simp
    no_transfer_encoding := by simp
    content_length := rfl }

lemma length_pathRequest (n : ℕ) : (pathRequest n).render.length = n + 17 := by
  simp [pathRequest, getMessage, Message.render, RequestHead.render, RequestHead.line, Version.text,
    bytes]

/-- It is accepted, and read as it was meant. -/
lemma pathRequest_decodes (n : ℕ) : Decodes (pathRequest n) ((parseFresh (pathRequest n).render).1,
    requestPopulate requestCreate (parseFresh (pathRequest n).render).2
      (pathRequest n).render) := by
  have hdecodes := (pathRequest n).decodes (Nat.two_pow_pos 63) []
  rwa [List.append_nil] at hdecodes

lemma parse_pathRequest (n : ℕ) : (parseFresh (pathRequest n).render).1 = .done :=
  (pathRequest_decodes n).done

/-- Nothing is cut off its path, neither at a question mark nor at a terminator. -/
lemma path_pathRequest (n : ℕ) :
    (requestPopulate requestCreate (parseFresh (pathRequest n).render).2
      (pathRequest n).render).path.bytes = List.replicate n 97 := by
  refine (pathRequest_decodes n).path.trans (List.takeWhile_eq_self_iff.mpr fun c hc => ?_)
  rw [List.eq_of_mem_replicate hc]
  rfl

lemma cstr_replicate (n : ℕ) : cstr (List.replicate n 97) = List.replicate n 97 :=
  cstr_eq_self_iff.mpr fun h0 => absurd (List.eq_of_mem_replicate h0) (by decide)

/-- A read buffer with two requests in it and the start of a third. -/
def pipelinedBuf : NpBuf :=
  bufAppend (bufInit 128) ([getMessage, postMessage].flatMap Message.render ++ bytes "GET")

/-- Two pipelined requests are decoded one after the other, and the start of the third stays in the
buffer. -/
theorem decode_render_pipelined :
    List.Forall₂ Decodes [getMessage, postMessage] (decode 2 pipelinedBuf).1 ∧
      bufBytes (decode 2 pipelinedBuf).2 = bytes "GET" :=
  have hinit : (bufInit 128).Wf := bufInit_wf (by norm_num)
  decode_render [getMessage, postMessage] (bytes "GET") pipelinedBuf
    (bufAppend_wf hinit (by decide))
    ((bufBytes_append hinit (by decide)).trans (by simp))

end Nproxy
