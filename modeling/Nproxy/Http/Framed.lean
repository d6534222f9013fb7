import Nproxy.Features.Histogram
import Nproxy.Proc.Worker

/-!
The responses that the server writes itself, as a client takes them apart.

* `Framed`: a status line, header lines and a blank line, and behind them a body of as
  many bytes as the one `Content-Length` header says.
* `framed_response`: what `response_write_simple` and `response_write_error` print is
  framed, since they count the body they print.
* `not_framed_healthz`: the constant of `health_handle` is not framed, it counts one byte
  too many.
* `answer_framed_iff`: the answers of `handler_dispatch`, all routes together.
-/

namespace Nproxy

open Lines (HeadSplit IsLine joinLines isLine_of_notMem)

/-! ### Framing -/

/-- The values of the `Content-Length` headers among these lines. -/
def contentLengths (lines : List (List UInt8)) : List (List UInt8) :=
  lines.filterMap fun l =>
    if (l.take 15).map tolower = bytes "content-length:" then
      some ((l.drop 15).dropWhile (· = 32))
    else none

/-- **A framed response**: a status line, headers with a colon each, and exactly one
`Content-Length`, which is the length of what follows the head. -/
def Framed (text : List UInt8) : Prop :=
  ∃ status headers body, HeadSplit cr lf text (status :: headers) (crlf ++ body) ∧
    bytes "HTTP/1.1 " <+: status ∧ (∀ l ∈ headers, 58 ∈ l) ∧
    contentLengths headers = [decimal body.length]

/-- The status line of a response. -/
def statusLine (status : ℕ) (reason : List UInt8) : List UInt8 :=
  bytes "HTTP/1.1 " ++ (decimal status ++ bytes " " ++ reason)

/-- The header lines both writers print. -/
def headLines (contentType : List UInt8) (bodyLen : ℕ) (keepAlive : Bool) : List (List UInt8) :=
  [bytes "Content-Type: " ++ contentType, bytes "Content-Length: " ++ decimal bodyLen,
    bytes "Connection: " ++ connectionText keepAlive]

lemma responseHead_eq (status : ℕ) (reason contentType : List UInt8) (bodyLen : ℕ)
    (keepAlive : Bool) :
    responseHead status reason contentType bodyLen keepAlive =
      joinLines cr lf (statusLine status reason :: headLines contentType bodyLen keepAlive)
        ++ crlf := by
  simp [responseHead, responseHeadText, statusLine, headLines, crlf]

lemma cr_notMem_decimal (n : ℕ) : cr ∉ decimal n :=
  fun h => absurd (isdigit_of_mem_decimal h) (by decide)

lemma contentLengths_headLines (contentType : List UInt8) (n : ℕ) (keepAlive : Bool) :
    contentLengths (headLines contentType n keepAlive) = [decimal n] := by
  have htype : ¬((bytes "Content-Type: " ++ contentType).take 15).map tolower
      = bytes "content-length:" := by
    intro h
    have hfront := congrArg (List.take 14) h
    have hname : (bytes "Content-Type: " ++ contentType).take 14 = bytes "Content-Type: " := rfl
    rw [← List.map_take, List.take_take, Nat.min_eq_left (by decide), hname] at hfront
    exact absurd hfront (by decide)
  have hlength : ((bytes "Content-Length: " ++ decimal n).take 15).map tolower
      = bytes "content-length:" := rfl
  have hvalue : ((bytes "Content-Length: " ++ decimal n).drop 15).dropWhile (· = 32)
      = decimal n := by
    have hspace : (bytes "Content-Length: " ++ decimal n).drop 15 = 32 :: decimal n := rfl
    rw [hspace, List.dropWhile_cons_of_pos (by decide), List.dropWhile_eq_self_iff]
    intro hlen hsp
    have hdigit := isdigit_of_mem_decimal (List.getElem_mem hlen)
    rw [of_decide_eq_true hsp] at hdigit
    exact absurd hdigit (by decide)
  have hconn : ¬((bytes "Connection: " ++ connectionText keepAlive).take 15).map tolower
      = bytes "content-length:" := by
    cases keepAlive <;> decide
  simp only [contentLengths, headLines, List.filterMap_cons, List.filterMap_nil, if_neg htype,
    if_pos hlength, if_neg hconn, hvalue]

/-- **What the two writers print is framed.** -/
lemma framed_response (status : ℕ) {reason contentType : List UInt8} (hreason : cr ∉ reason)
    (htype : cr ∉ contentType) (body : List UInt8) (keepAlive : Bool) :
    Framed (responseHead status reason contentType body.length keepAlive ++ body) := by
  refine ⟨statusLine status reason, headLines contentType body.length keepAlive, body,
    ⟨?_, ?_, ?_⟩, List.prefix_append _ _, ?_, contentLengths_headLines _ _ _⟩
  · rw [responseHead_eq, List.append_assoc]
  · have hdec := cr_notMem_decimal
    have hconn : cr ∉ connectionText keepAlive := by cases keepAlive <;> decide
    have hline : ∀ {name value : List UInt8}, name ≠ [] → cr ∉ name → cr ∉ value →
        name ++ value ≠ [] ∧ IsLine cr lf (name ++ value) := by
      intro name value hname hn hv
      exact ⟨List.append_ne_nil_of_left_ne_nil hname value,
        isLine_of_notMem (by simp [hn, hv])⟩
    intro l hl
    simp only [headLines, List.mem_cons, List.not_mem_nil, or_false] at hl
    rcases hl with rfl | rfl | rfl | rfl
    · refine hline (by decide) (by decide) ?_
      simp only [List.mem_append, not_or]
      exact ⟨⟨hdec status, by decide⟩, hreason⟩
    · exact hline (by decide) (by decide) htype
    · exact hline (by decide) (by decide) (hdec _)
    · exact hline (by decide) (by decide) hconn
  · exact Or.inr (Lines.findPair_pair body)
  · intro l hl
    simp only [headLines, List.mem_cons, List.not_mem_nil, or_false] at hl
    rcases hl with rfl | rfl | rfl <;> exact List.mem_append_left _ (by decide)

/-! ### The health page -/

/-- The body of the health page. -/
def healthzBody : List UInt8 := bytes "\x7b\"status\":\"ok\"\x7d"

lemma healthzResponse_split (keepAlive : Bool) :
    HeadSplit cr lf (healthzResponse keepAlive)
      (bytes "HTTP/1.1 200 OK" :: headLines (bytes "application/json") 16 keepAlive)
      (crlf ++ healthzBody) := by
  refine ⟨?_, ?_, Or.inr (by decide)⟩
  · cases keepAlive <;> decide
  · cases keepAlive <;> decide

/-- **The health page is not framed.** Its constant says 16 bytes, and has 15. -/
lemma not_framed_healthz (keepAlive : Bool) : ¬Framed (healthzResponse keepAlive) := by
  rintro ⟨status, headers, body, hsplit, -, -, hlength⟩
  obtain ⟨hlines, hrest⟩ := hsplit.unique (healthzResponse_split keepAlive)
  rw [(List.cons.inj hlines).2, contentLengths_headLines, List.append_cancel_left hrest] at hlength
  exact absurd hlength (by decide)

/-! ### The buffer -/

/-- A write buffer as `conn_alloc` makes it and the handlers leave it. -/
structure NpBuf.Sound (b : NpBuf) : Prop where
  wf : b.Wf
  cap : b.cap = npWriteBufSize
  tidy : b.Tidy

/-- A write buffer in which a response is begun: it is empty, so all of it can be
written. -/
structure NpBuf.Ready (b : NpBuf) : Prop extends NpBuf.Sound b where
  empty : bufReadable b = 0

variable {b : NpBuf}

lemma bufBytes_put (h : b.Wf) {src : List UInt8} (hroom : src.length ≤ bufWritable b) :
    bufBytes (bufPut b src) = bufBytes b ++ src := by
  rw [bufPut]
  split
  · exact bufBytes_append h hroom
  · rename_i hempty
    have hnil : src = [] := List.eq_nil_of_length_eq_zero (by omega)
    rw [hnil, List.append_nil]

lemma bufWritable_put {src : List UInt8} (hroom : src.length ≤ bufWritable b) :
    bufWritable (bufPut b src) = bufWritable b - src.length := by
  rw [bufPut]
  split
  · rw [bufWritable, bufWritable, Nat.sub_sub]
    rfl
  · omega

/-- A head and a body that fit the buffer are what it holds then. -/
lemma NpBuf.Ready.bufBytes_put_put (h : b.Ready) {head body : List UInt8}
    (hlen : head.length + body.length ≤ npWriteBufSize) :
    bufBytes (bufPut (bufPut b head) body) = head ++ body := by
  have hroom := h.tidy.bufWritable_eq h.wf h.empty
  rw [h.cap] at hroom
  have hhead : head.length ≤ bufWritable b := by omega
  have hbody : body.length ≤ bufWritable (bufPut b head) := by
    rw [bufWritable_put hhead]
    omega
  rw [bufBytes_put (bufPut_wf h.wf head) hbody, bufBytes_put h.wf hhead,
    (bufReadable_eq_zero_iff h.wf).mp h.empty, List.nil_append]

lemma length_responseHead_le (status : ℕ) (reason contentType : List UInt8) {bodyLen : ℕ}
    (hlen : bodyLen < 2 ^ 63) (keepAlive : Bool) :
    (responseHead status reason contentType bodyLen keepAlive).length
      ≤ (decimal status).length + reason.length + contentType.length + 103 := by
  have hdec := length_decimal_le hlen
  have hconn : (connectionText keepAlive).length ≤ 10 := by cases keepAlive <;> decide
  simp only [responseHead, responseHeadText, List.flatten_cons, List.flatten_nil,
    List.length_append, List.length_nil, show (bytes "HTTP/1.1 ").length = 9 from rfl,
    show (bytes " ").length = 1 from rfl, show crlf.length = 2 from rfl,
    show (bytes "Content-Type: ").length = 14 from rfl,
    show (bytes "Content-Length: ").length = 16 from rfl,
    show (bytes "Connection: ").length = 12 from rfl]
  omega

/-! ### The pages -/

lemma cr_notMem_statusReason (status : ℕ) : cr ∉ bytes (statusReason status) := by
  unfold statusReason
  split <;> decide

/-- The statuses of the errors that `handler_dispatch` answers. -/
def errorStatuses : List ℕ := [403, 404, 429, 502, 503]

lemma errorPage_length_le {status : ℕ} (hstatus : status ∈ errorStatuses) :
    (errorPage status).length ≤ 2047 ∧
      (decimal status).length + (bytes (statusReason status)).length ≤ 24 := by
  have hshort : (decimal status).length + (bytes (statusReason status)).length ≤ 24 := by
    revert status
    decide +kernel
  rw [errorPage, length_errorPageText]
  exact ⟨by linarith, hshort⟩

lemma framed_error (h : b.Ready) {status : ℕ} (hstatus : status ∈ errorStatuses)
    (keepAlive : Bool) : Framed (bufBytes (responseWriteError b status keepAlive)) := by
  obtain ⟨hpage, hreason⟩ := errorPage_length_le hstatus
  have hhead := length_responseHead_le status (bytes (statusReason status)) (bytes "text/html")
    (show (errorPage status).length < 2 ^ 63 by omega) keepAlive
  have htype : (bytes "text/html").length = 9 := rfl
  have hsize : npWriteBufSize = 131072 := rfl
  rw [responseWriteError, h.bufBytes_put_put (by omega)]
  exact framed_response status (cr_notMem_statusReason status) (by decide) _ keepAlive

/-- So is a response of `response_write_simple` whose head fits its array. -/
lemma framed_simple (h : b.Ready) (junk : ℕ → UInt8) {status : ℕ}
    {reason contentType body : Option (List UInt8)}
    (hreason : cr ∉ reason.getD (bytes (statusReason status)))
    (htype : cr ∉ contentType.getD (bytes "text/plain"))
    (hhead : (decimal status).length + (reason.getD (bytes (statusReason status))).length +
      (contentType.getD (bytes "text/plain")).length ≤ 400)
    (hbody : (body.getD []).length ≤ 4095) (keepAlive : Bool) :
    Framed (bufBytes (responseWriteSimple junk b status reason contentType body keepAlive)) := by
  rw [responseWriteSimple]
  generalize reason.getD (bytes (statusReason status)) = r at hreason hhead ⊢
  generalize contentType.getD (bytes "text/plain") = t at htype hhead ⊢
  have hr := length_cstr_le r
  have ht := length_cstr_le t
  have hb := length_cstr_le (body.getD [])
  have hlen := length_responseHead_le status (cstr r) (cstr t)
    (show (cstr (body.getD [])).length < 2 ^ 63 by omega) keepAlive
  have hsize : npWriteBufSize = 131072 := rfl
  rw [snprintfRead, if_pos (by omega), h.bufBytes_put_put (by omega)]
  exact framed_response status (fun hmem => hreason ((cstr_isPrefix r).subset hmem))
    (fun hmem => htype ((cstr_isPrefix t).subset hmem)) _ keepAlive

/-- The page of the metrics is framed, whatever the counters hold. -/
lemma framed_metrics (h : b.Ready) (junk : ℕ → UInt8) (m : Metrics) (req : HttpRequest) :
    Framed (bufBytes (metricsHandle junk m b req)) := by
  refine framed_simple h junk ?_ ?_ ?_ ?_ _
  · decide
  · decide
  · decide +kernel
  · exact Nat.le_of_lt_succ (length_metricsBody_lt m)

/-- An answer that the file has not changed is framed. -/
lemma framed_notModified (h : b.Ready) (junk : ℕ → UInt8) (keepAlive : Bool) :
    Framed (bufBytes (responseWriteSimple junk b 304 (some (bytes "Not Modified")) none none
      keepAlive)) := by
  refine framed_simple h junk ?_ ?_ ?_ (Nat.zero_le _) _
  · decide
  · decide
  · decide +kernel

/-- The pages that a request may be answered with, all but the health page. -/
inductive Page (keepAlive : Bool) : (NpBuf → NpBuf) → Prop
  | error {status : ℕ} (hstatus : status ∈ errorStatuses) :
      Page keepAlive (responseWriteError · status keepAlive)
  | notModified (junk : ℕ → UInt8) :
      Page keepAlive (responseWriteSimple junk · 304 (some (bytes "Not Modified")) none none
        keepAlive)
  | metrics (junk : ℕ → UInt8) (m : Metrics) {req : HttpRequest}
      (hreq : req.keepAlive = keepAlive) : Page keepAlive (metricsHandle junk m · req)

lemma Page.framed {keepAlive : Bool} {f : NpBuf → NpBuf} (hf : Page keepAlive f) (h : b.Ready) :
    Framed (bufBytes (f b)) := by
  cases hf with
  | error hstatus => exact framed_error h hstatus keepAlive
  | notModified junk => exact framed_notModified h junk keepAlive
  | metrics junk m _ => exact framed_metrics h junk m _

/-- The health page alone is not. -/
lemma not_framed_health (h : b.Ready) (req : HttpRequest) :
    ¬Framed (bufBytes (healthHandle b req)) := by
  have hroom := h.tidy.bufWritable_eq h.wf h.empty
  have hlen : (healthzResponse req.keepAlive).length ≤ npWriteBufSize := by
    cases req.keepAlive <;> decide
  rw [healthHandle, bufBytes_put h.wf (by rw [hroom, h.cap]; exact hlen),
    (bufReadable_eq_zero_iff h.wf).mp h.empty, List.nil_append]
  exact not_framed_healthz req.keepAlive

/-! ### The routes -/

namespace St

/-- If the request is answered from here on, it is with one of the pages. -/
def AnswersPage (st st' : St) (keepAlive : Bool) : Prop :=
  st'.conn.state = .writingResponse →
    ∃ f, Page keepAlive f ∧ st'.conn.wbuf = f st.conn.wbuf

/-- An error is put in the buffer, and the buffer is left alone before and after. -/
lemma AnswersPage.of_error {st st1 st' : St} {status : ℕ} {keepAlive : Bool}
    (hstatus : status ∈ errorStatuses) (hbefore : st1.conn.wbuf = st.conn.wbuf)
    (hafter : st'.conn.wbuf = (st1.onWbuf (responseWriteError · status keepAlive)).conn.wbuf) :
    AnswersPage st st' keepAlive :=
  fun _ => ⟨_, .error hstatus, by rw [hafter, ← hbefore]; rfl⟩

lemma AnswersPage.of_answerError {st st1 : St} {status : ℕ} {keepAlive : Bool}
    (hstatus : status ∈ errorStatuses) (hbefore : st1.conn.wbuf = st.conn.wbuf) :
    AnswersPage st (st1.answerError status keepAlive) keepAlive := .of_error hstatus hbefore rfl

/-- What is counted and logged does not matter. -/
lemma AnswersPage.mapCtx {st st' : St} {keepAlive : Bool} (h : AnswersPage st st' keepAlive)
    (f : HandlerCtx → HandlerCtx) : AnswersPage st (st'.mapCtx f) keepAlive := h

lemma AnswersPage.of_state {st st' : St} {keepAlive : Bool}
    (hstate : st'.conn.state ≠ .writingResponse) : AnswersPage st st' keepAlive :=
  fun h => absurd h hstate

lemma noteCache_wbuf (st : St) (req : HttpRequest) (i : ℕ) :
    (st.noteCache req i).conn.wbuf = st.conn.wbuf := by
  rw [noteCache]
  split <;> rfl

lemma proxyHandle_answersPage (st : St) (req : HttpRequest) (i : ℕ) (pool : UpstreamPool) :
    AnswersPage st (st.proxyHandle req i pool) req.keepAlive := by
  rw [proxyHandle]
  simp only
  split
  · exact (AnswersPage.of_answerError (by decide : 503 ∈ errorStatuses) rfl).mapCtx _
  · split
    · refine (AnswersPage.of_answerError (by decide : 502 ∈ errorStatuses) ?_).mapCtx _
      split
      · rw [connected]
        split <;> rfl
      · rfl
    · refine .of_state ?_
      rw [startProxy]
      change (if req.upgrade = true then ConnState.tunnel else .proxying) ≠ .writingResponse
      split <;> decide

lemma openRegular_conn (st : St) (name : List UInt8) : (st.openRegular name).2.conn = st.conn := by
  rw [openRegular]
  simp only
  split
  · rfl
  · split
    · rfl
    · split
      · rfl
      · split <;> rfl

lemma tryFilesLoop_conn (cfg : ServerConfig) (req : HttpRequest) (entries : List (List UInt8))
    (st : St) : (tryFilesLoop cfg req entries st).2.conn = st.conn := by
  induction entries generalizing st with
  | nil => rfl
  | cons entry entries ih =>
    have hopen := openRegular_conn st (tryFileName cfg req entry)
    rw [tryFilesLoop]
    split <;> rename_i heq <;> rw [heq] at hopen
    · exact hopen
    · exact (ih _).trans hopen

lemma findFile_conn (st : St) (req : HttpRequest) (cfg : ServerConfig) :
    (st.findFile req cfg).2.conn = st.conn := by
  rw [findFile]
  split
  · exact tryFilesLoop_conn _ _ _ _
  · have hopen := openRegular_conn st (plainFileName st.env.junk cfg req)
    simp only
    split <;> rename_i heq <;> rw [heq] at hopen <;> exact hopen

lemma fileServerHandle_answersPage (st : St) (req : HttpRequest) (cfg : ServerConfig) :
    AnswersPage st (st.fileServerHandle req cfg).2 req.keepAlive := by
  have hconn := findFile_conn st req cfg
  rw [fileServerHandle]
  split
  · exact .of_answerError (by decide : 403 ∈ errorStatuses) rfl
  · split <;> rename_i heq <;> rw [heq] at hconn
    · exact .of_answerError (by decide : 404 ∈ errorStatuses) (congrArg Conn.wbuf hconn)
    · split
      · exact fun _ => ⟨_, .notModified _, by rw [← hconn]; rfl⟩
      · refine .of_state ?_
        rw [startFile]
        change ConnState.sendfile ≠ .writingResponse
        decide

/-- An error that is counted and logged. -/
lemma countedError_answersPage (st : St) (status : ℕ) (hstatus : status ∈ errorStatuses)
    (keepAlive : Bool) :
    AnswersPage st ((((st.onWbuf (responseWriteError · status keepAlive)).countRequest status).act
      (.accessLog status)).setState .writingResponse) keepAlive := .of_error hstatus rfl rfl

lemma routeServer_answersPage (st : St) (req : HttpRequest) (i : ℕ) :
    AnswersPage st (st.routeServer req i) req.keepAlive := by
  rw [routeServer]
  simp only
  split
  · have hproxy := proxyHandle_answersPage (st.noteCache req i) req i ‹_›
    rwa [AnswersPage, noteCache_wbuf] at hproxy
  · split
    · exact fileServerHandle_answersPage st req _
    · exact countedError_answersPage st 404 (by decide) req.keepAlive

/-- The next lookup in a cache, if there is one, finds nothing. -/
def CacheMisses (st : St) : Prop :=
  ∀ entry, st.env.lookups.headD none = some entry → entry.data = []

lemma lookupCache_miss {st : St} (h : st.CacheMisses) (req : HttpRequest) (i : ℕ) :
    ∃ st1, st.lookupCache req i = (none, st1) ∧ st1.conn = st.conn := by
  rw [lookupCache]
  split
  · simp only
    split
    · rename_i entry hentry
      have hempty : ¬entry.data.length > 0 := by simp [h entry hentry]
      rw [if_neg hempty]
      exact ⟨_, rfl, rfl⟩
    · exact ⟨_, rfl, rfl⟩
  · exact ⟨_, rfl, rfl⟩

/-- A request that is answered with the health page, once it has come to the routes. -/
def ForHealth (st : St) (req : HttpRequest) : Prop :=
  ¬(pathMatches req.path st.ws.hctx.config.metricsPath = true ∧ st.ws.hctx.metrics.isSome = true) ∧
    pathMatches req.path (bytes "/healthz") = true

lemma answer_wbuf (st : St) (f : NpBuf → NpBuf) (a : Act) :
    ((st.answer f).act a).conn.wbuf = f st.conn.wbuf := rfl

lemma route_forHealth {st : St} {req : HttpRequest} (h : st.ForHealth req) (i : ℕ) :
    (st.route req i).conn.wbuf = healthHandle st.conn.wbuf req := by
  have hmetrics : (if pathMatches req.path st.ws.hctx.config.metricsPath then st.ws.hctx.metrics
      else none) = none := by
    split
    · rename_i hpath
      exact Option.not_isSome_iff_eq_none.mp fun hsome => h.1 ⟨hpath, hsome⟩
    · rfl
  rw [route, hmetrics]
  simp only
  rw [if_pos h.2]
  exact answer_wbuf st _ _

lemma route_answersPage {st : St} {req : HttpRequest} (h : ¬st.ForHealth req)
    (hmiss : st.CacheMisses) (i : ℕ) : AnswersPage st (st.route req i) req.keepAlive := by
  rw [route]
  split
  · rename_i m _
    exact fun _ => ⟨_, .metrics st.env.junk m rfl, answer_wbuf st _ _⟩
  · rename_i hmetrics
    split
    · rename_i hpath
      refine absurd ⟨?_, hpath⟩ h
      rintro ⟨hmatch, hsome⟩
      rw [if_pos hmatch] at hmetrics
      rw [hmetrics] at hsome
      exact absurd hsome (by decide)
    · obtain ⟨st1, heq, hconn⟩ := lookupCache_miss hmiss req i
      rw [heq]
      have hserver := routeServer_answersPage st1 req i
      rwa [AnswersPage, hconn] at hserver

/-! ### `handler_dispatch` -/

lemma rewrite_eq (st : St) (req : HttpRequest) (server : ServerConfig) :
    (st.rewrite req server).2.conn.wbuf = st.conn.wbuf ∧
      (st.rewrite req server).2.env.lookups = st.env.lookups := by
  rw [rewrite]
  split
  · exact ⟨rfl, rfl⟩
  · split <;> rename_i heq <;> rw [alloc] at heq <;> obtain ⟨-, rfl⟩ := Prod.mk.inj heq <;>
      exact ⟨rfl, rfl⟩

lemma checkRate_eq (st : St) (req : HttpRequest) :
    (st.checkRate req).2.conn = st.conn ∧ (st.checkRate req).2.env = st.env ∧
      (st.checkRate req).2.ws.hctx.config = st.ws.hctx.config ∧
      (st.checkRate req).2.ws.hctx.metrics = st.ws.hctx.metrics := by
  rw [checkRate]
  split <;> exact ⟨rfl, rfl, rfl, rfl⟩

/-- The request as it comes to the rate limit, after the rewrite rules, and the state. -/
def arrival (st : St) (req : HttpRequest) : HttpRequest × St :=
  let st := st.act (.dispatch req)
  let req := { req with remoteIp := inetNtop st.conn.peer }
  (st.setReq req).rewrite req (st.ws.hctx.config.server (selectServer st.ws.hctx.config req))

/-- The server block of a request. -/
def blockOf (st : St) (req : HttpRequest) : ℕ :=
  selectServer st.ws.hctx.config { req with remoteIp := inetNtop st.conn.peer }

/-- Where no module handles a request, the dispatcher goes on with the request that the
rewrite rules leave. -/
lemma handlerDispatch_of_declined {st : St} {req : HttpRequest}
    (h : moduleRunRequestHandlers st.ws.hctx.modules
      { req with remoteIp := inetNtop st.conn.peer } = none) :
    st.handlerDispatch req =
      (st.arrival req).2.routeLimited (st.arrival req).1 (st.blockOf req) := by
  rw [handlerDispatch, routeModules]
  split
  · rename_i hsome
    exact absurd (h.symm.trans hsome) (by simp)
  · rfl

/-- A request that is let through and is for the health page. -/
def HealthCheck (st : St) (req : HttpRequest) : Prop :=
  ((st.arrival req).2.checkRate (st.arrival req).1).1 = true ∧
    (st.arrival req).2.ForHealth (st.arrival req).1

/-- What `handler_dispatch` is given: an empty buffer, a request that no module handles and
that is not in a cache. -/
structure Unaided (st : St) (req : HttpRequest) : Prop where
  ready : st.conn.wbuf.Ready
  modules : moduleRunRequestHandlers st.ws.hctx.modules
    { req with remoteIp := inetNtop st.conn.peer } = none
  cache : st.CacheMisses

lemma Unaided.handlerDispatch_eq {st : St} {req : HttpRequest} (h : st.Unaided req) :
    st.handlerDispatch req =
      (st.arrival req).2.routeLimited (st.arrival req).1 (st.blockOf req) :=
  handlerDispatch_of_declined h.modules

lemma arrival_eq (st : St) (req : HttpRequest) :
    (st.arrival req).2.conn.wbuf = st.conn.wbuf ∧
      (st.arrival req).2.env.lookups = st.env.lookups := rewrite_eq _ _ _

/-- Behind the rewrite rules: a limit and the routes. -/
lemma routeLimited_framed_iff {st : St} {req : HttpRequest} {i : ℕ} (hready : st.conn.wbuf.Ready)
    (hmiss : st.CacheMisses) (hown : (st.routeLimited req i).conn.state = .writingResponse) :
    Framed (bufBytes (st.routeLimited req i).conn.wbuf) ↔
      ¬((st.checkRate req).1 = true ∧ st.ForHealth req) := by
  obtain ⟨hconn, henv, hconfig, hmetrics⟩ := checkRate_eq st req
  rw [routeLimited] at hown ⊢
  generalize st.checkRate req = r at hconn henv hconfig hmetrics hown ⊢
  obtain ⟨ok, st1⟩ := r
  cases ok with
  | false =>
    obtain ⟨f, hf, hwbuf⟩ := countedError_answersPage st1 429 (by decide) req.keepAlive hown
    have hframed := hf.framed (hconn ▸ hready : st1.conn.wbuf.Ready)
    rw [← hwbuf] at hframed
    exact iff_of_true hframed (by simp)
  | true =>
    have hhealth : st1.ForHealth req ↔ st.ForHealth req := by
      rw [ForHealth, ForHealth, hconfig, hmetrics]
    simp only [true_and, ← hhealth]
    by_cases hfor : st1.ForHealth req
    · rw [route_forHealth hfor]
      exact iff_of_false (not_framed_health (hconn ▸ hready) req) (not_not.mpr hfor)
    · have hmiss1 : st1.CacheMisses := by
        rw [CacheMisses, show st1.env = st.env from henv]
        exact hmiss
      obtain ⟨f, hf, hwbuf⟩ := route_answersPage hfor hmiss1 i hown
      rw [hwbuf]
      exact iff_of_true (hf.framed (hconn ▸ hready)) hfor

/-- **Locally generated responses.** A request that `handler_dispatch` answers itself gets a
framed response, unless it gets the health page. -/
theorem answer_framed_iff (st : St) (req : HttpRequest) (h : st.Unaided req)
    (hown : (st.handlerDispatch req).conn.state = .writingResponse) :
    Framed (bufBytes (st.handlerDispatch req).conn.wbuf) ↔ ¬st.HealthCheck req := by
  obtain ⟨hwbuf, hlookups⟩ := arrival_eq st req
  rw [h.handlerDispatch_eq] at hown ⊢
  refine routeLimited_framed_iff ?_ ?_ hown
  · rw [hwbuf]
    exact h.ready
  · rw [CacheMisses, hlookups]
    exact h.cache

end St

/-- A client of a server that has nothing to serve. -/
def bareClient : St where
  self := 0
  conn := connCreate 4096 4 ⟨127, 0, 0, 1⟩
  ws := { backendWorker.ws with
    hctx := ⟨⟨[{ backendServer with proxyEnabled := false, cacheEnabled := false }],
      bytes "/metrics"⟩, [], [none], [false], none, some metricsCreate⟩ }
  env := idleEnv
  acts := []

lemma bareClient_unaided (req : HttpRequest) : bareClient.Unaided req where
  ready := ⟨⟨(connCreate_bufsWf 4096 4 ⟨127, 0, 0, 1⟩).wbuf, rfl, fun _ => rfl⟩, rfl⟩
  modules := rfl
  cache := by
    intro entry hentry
    exact absurd hentry (by simp [bareClient, idleEnv])

/-- It is told that there is nothing, in a framed response. -/
theorem bareClient_answer_framed :
    Framed (bufBytes (bareClient.handlerDispatch pageRequest).conn.wbuf) :=
  (St.answer_framed_iff bareClient pageRequest (bareClient_unaided _) (by decide)).mpr
    fun h => absurd h.2.2 (by decide)

/-- A request for the health page. -/
def healthRequest : HttpRequest := { requestCreate with path := ⟨.mem, bytes "/healthz"⟩ }

/-- Its answer is not framed. -/
theorem exists_unframed_answer :
    ¬∀ (st : St) (req : HttpRequest), st.Unaided req →
      (st.handlerDispatch req).conn.state = .writingResponse →
      Framed (bufBytes (st.handlerDispatch req).conn.wbuf) := by
  intro h
  have hunaided := bareClient_unaided healthRequest
  have hframed := h bareClient healthRequest hunaided (by decide)
  obtain ⟨hwbuf, hlookups⟩ := bareClient.arrival_eq healthRequest
  rw [hunaided.handlerDispatch_eq, St.routeLimited_framed_iff] at hframed
  · exact hframed ⟨by decide, by decide, by decide⟩
  · rw [hwbuf]
    exact hunaided.ready
  · rw [St.CacheMisses, hlookups]
    exact hunaided.cache
  · decide

end Nproxy
