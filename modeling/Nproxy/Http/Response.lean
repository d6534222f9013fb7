import Nproxy.Net.Buffer

/-!
`http/response.c`: the responses that the server writes itself.

Both writers print head and body into arrays on the stack and copy each into the
buffer if it has the room. The head of `response_write_simple` may be longer than
its array, since reason and content type are the caller's; what is copied then is
what `snprintfRead` says. Neither `response_create`, `response_set_header` nor
`response_serialize` is called by the program.
-/

namespace Nproxy

/-- The bytes that stand at the start of a `char[size]` after an `snprintf` of
`text` into it, as many as that `snprintf` returned: a text that is too long is
cut, a NUL follows, and what lies behind the array is `junk`. -/
def snprintfRead (size : ℕ) (junk : ℕ → UInt8) (text : List UInt8) : List UInt8 :=
  if text.length < size then text
  else text.take (size - 1) ++ 0 :: (List.range (text.length - size)).map fun i => junk (size + i)

/-- Copy to the buffer if there is room. -/
def bufPut (buf : NpBuf) (src : List UInt8) : NpBuf :=
  if src.length > 0 ∧ bufWritable buf ≥ src.length then bufAppend buf src else buf

/-- `status_reason`. -/
def statusReason (status : ℕ) : String :=
  match status with
  | 200 => "OK"
  | 201 => "Created"
  | 204 => "No Content"
  | 206 => "Partial Content"
  | 301 => "Moved Permanently"
  | 302 => "Found"
  | 304 => "Not Modified"
  | 400 => "Bad Request"
  | 403 => "Forbidden"
  | 404 => "Not Found"
  | 405 => "Method Not Allowed"
  | 413 => "Payload Too Large"
  | 429 => "Too Many Requests"
  | 500 => "Internal Server Error"
  | 502 => "Bad Gateway"
  | 503 => "Service Unavailable"
  | 504 => "Gateway Timeout"
  | _ => "Unknown"

/-- The value of the `Connection` header. -/
def connectionText (keepAlive : Bool) : List UInt8 :=
  if keepAlive then bytes "keep-alive" else bytes "close"

/-- The head both writers print, by the text of the status. -/
def responseHeadText (num reason contentType : List UInt8) (bodyLen : ℕ) (keepAlive : Bool) :
    List UInt8 :=
  List.flatten [
    bytes "HTTP/1.1 ", num, bytes " ", reason, crlf,
    bytes "Content-Type: ", contentType, crlf,
    bytes "Content-Length: ", decimal bodyLen, crlf,
    bytes "Connection: ", connectionText keepAlive, crlf,
    crlf]

/-- The page that `response_write_error` prints, by the text of the status. -/
def errorPageText (num reason : List UInt8) : List UInt8 :=
  List.flatten [
    bytes "<!DOCTYPE html>\n<html>\n<head><title>", num, bytes " ", reason,
    bytes "</title></head>\n<body style=\"font-family:-apple-system,BlinkMacSystemFont,",
    bytes "'Segoe UI',Roboto,sans-serif;",
    bytes "display:flex;justify-content:center;align-items:center;min-height:100vh;margin:0;",
    bytes "background:#0f0f0f;color:#e0e0e0\">\n",
    bytes "<div style=\"text-align:center;padding:40px\">\n",
    bytes "<h1 style=\"font-size:72px;font-weight:200;margin:0;color:#ff6b6b\">",
    num, bytes "</h1>\n",
    bytes "<p style=\"font-size:20px;color:#888;margin:12px 0 32px\">", reason, bytes "</p>\n",
    bytes "<hr style=\"border:none;border-top:1px solid #333;width:280px;margin:0 auto 16px\">\n",
    bytes "<p style=\"font-size:13px;color:#555\">nproxy/1.0</p>\n",
    bytes "</div>\n</body>\n</html>\n"]

/-- The head of a response with a status that is a natural number, as all are that the program
itself passes. -/
def responseHead (status : ℕ) : List UInt8 → List UInt8 → ℕ → Bool → List UInt8 :=
  responseHeadText (decimal status)

/-- `response_write_simple`; `none` is a null pointer, and the strings are C
strings. -/
def responseWriteSimple (junk : ℕ → UInt8) (buf : NpBuf) (status : ℕ)
    (reason contentType body : Option (List UInt8)) (keepAlive : Bool) : NpBuf :=
  let body := cstr (body.getD [])
  let head := responseHead status (cstr (reason.getD (bytes (statusReason status))))
    (cstr (contentType.getD (bytes "text/plain"))) body.length keepAlive
  bufPut (bufPut buf (snprintfRead 512 junk head)) body

/-- The page for such a status. -/
def errorPage (status : ℕ) : List UInt8 :=
  errorPageText (decimal status) (bytes (statusReason status))

/-- `response_write_error`; page and head of every status fit their arrays. -/
def responseWriteError (buf : NpBuf) (status : ℕ) (keepAlive : Bool) : NpBuf :=
  let body := errorPage status
  let head := responseHead status (bytes (statusReason status)) (bytes "text/html") body.length
    keepAlive
  bufPut (bufPut buf head) body

/-! ### Any `int` for a status -/

/-- `status_reason` of an `int`. -/
def statusReasonInt (status : Int32) : List UInt8 := bytes (statusReason status.toInt.toNat)

/-- The head that `response_write_simple` prints. -/
def simpleHead (status : Int32) (reason contentType body : Option (List UInt8))
    (keepAlive : Bool) : List UInt8 :=
  responseHeadText (decimalInt status.toInt) (cstr (reason.getD (statusReasonInt status)))
    (cstr (contentType.getD (bytes "text/plain"))) (cstr (body.getD [])).length keepAlive

/-- `response_write_simple`, for any `int`. That `snprintf` fails if the head has more than
`INT_MAX` bytes is left out. -/
def responseWriteSimpleInt (junk : ℕ → UInt8) (buf : NpBuf) (status : Int32)
    (reason contentType body : Option (List UInt8)) (keepAlive : Bool) : NpBuf :=
  bufPut (bufPut buf (snprintfRead 512 junk (simpleHead status reason contentType body keepAlive)))
    (cstr (body.getD []))

/-- The page that `response_write_error` prints for any `int`. -/
def errorPageInt (status : Int32) : List UInt8 :=
  errorPageText (decimalInt status.toInt) (statusReasonInt status)

/-- The head that `response_write_error` prints. -/
def errorHead (status : Int32) (keepAlive : Bool) : List UInt8 :=
  responseHeadText (decimalInt status.toInt) (statusReasonInt status) (bytes "text/html")
    (errorPageInt status).length keepAlive

/-- `response_write_error`, for any `int`. -/
def responseWriteErrorInt (junk : ℕ → UInt8) (buf : NpBuf) (status : Int32) (keepAlive : Bool) :
    NpBuf :=
  bufPut (bufPut buf (snprintfRead 512 junk (errorHead status keepAlive)))
    (snprintfRead 2048 junk (errorPageInt status))

lemma length_errorPageText (num reason : List UInt8) :
    (errorPageText num reason).length = 2 * (num.length + reason.length) + 591 := by
  have htexts : (bytes "<!DOCTYPE html>\n<html>\n<head><title>").length = 36 ∧
      (bytes " ").length = 1 ∧
      (bytes "</title></head>\n<body style=\"font-family:-apple-system,BlinkMacSystemFont,").length
        = 74 ∧
      (bytes "'Segoe UI',Roboto,sans-serif;").length = 29 ∧
      (bytes
        "display:flex;justify-content:center;align-items:center;min-height:100vh;margin:0;").length
        = 81 ∧
      (bytes "background:#0f0f0f;color:#e0e0e0\">\n").length = 35 ∧
      (bytes "<div style=\"text-align:center;padding:40px\">\n").length = 45 ∧
      (bytes "<h1 style=\"font-size:72px;font-weight:200;margin:0;color:#ff6b6b\">").length = 66 ∧
      (bytes "</h1>\n").length = 6 ∧
      (bytes "<p style=\"font-size:20px;color:#888;margin:12px 0 32px\">").length = 56 ∧
      (bytes "</p>\n").length = 5 ∧
      (bytes (
        "<hr style=\"border:none;border-top:1px solid #333;width:280px;margin:0 auto 16px\">\n"
        )).length = 82 ∧
      (bytes "<p style=\"font-size:13px;color:#555\">nproxy/1.0</p>\n").length = 52 ∧
      (bytes "</div>\n</body>\n</html>\n").length = 23 :=
    ⟨length_bytes_ofList _, length_bytes_ofList _, length_bytes_ofList _, length_bytes_ofList _,
      length_bytes_ofList _, length_bytes_ofList _, length_bytes_ofList _, length_bytes_ofList _,
      length_bytes_ofList _, length_bytes_ofList _, length_bytes_ofList _, length_bytes_ofList _,
      length_bytes_ofList _, length_bytes_ofList _⟩
  simp only [errorPageText, List.flatten_cons, List.flatten_nil, List.length_append,
    List.length_nil, htexts]
  ring

/-! ### What `snprintf` leaves -/

/-- As many bytes are read as were to be printed. -/
lemma length_snprintfRead {size : ℕ} (hsize : 0 < size) (junk : ℕ → UInt8) (text : List UInt8) :
    (snprintfRead size junk text).length = text.length := by
  rw [snprintfRead]
  split_ifs with h
  · rfl
  · simp only [List.length_append, List.length_take, List.length_cons, List.length_map,
      List.length_range]
    omega

/-- A text without NUL is there in full exactly if it fits. -/
lemma snprintfRead_eq_iff {size : ℕ} (junk : ℕ → UInt8) {text : List UInt8} (h0 : 0 ∉ text) :
    snprintfRead size junk text = text ↔ text.length < size := by
  constructor
  · intro heq
    by_contra hlong
    rw [snprintfRead, if_neg hlong] at heq
    refine h0 ?_
    rw [← heq]
    simp
  · intro hlt
    rw [snprintfRead, if_pos hlt]

/-! ### The buffer afterwards -/

variable {buf : NpBuf}

lemma bufPut_wf (h : buf.Wf) (src : List UInt8) : (bufPut buf src).Wf := by
  rw [bufPut]
  split
  · rename_i hroom
    exact bufAppend_wf h hroom.2
  · exact h

@[simp] lemma bufPut_cap (src : List UInt8) : (bufPut buf src).cap = buf.cap := by
  rw [bufPut]
  split <;> simp

/-- A way to put something in a buffer: what is in order stays so, and the capacity
does not change. -/
structure Fills (f : NpBuf → NpBuf) : Prop where
  wf : ∀ b : NpBuf, b.Wf → (f b).Wf
  cap : ∀ b : NpBuf, (f b).cap = b.cap

lemma Fills.bufPut (src : List UInt8) : Fills (bufPut · src) :=
  ⟨fun _ h => bufPut_wf h src, fun _ => bufPut_cap src⟩

lemma Fills.responseWriteSimple (junk : ℕ → UInt8) (status : ℕ)
    (reason contentType body : Option (List UInt8)) (keepAlive : Bool) :
    Fills (responseWriteSimple junk · status reason contentType body keepAlive) :=
  ⟨fun _ h => bufPut_wf (bufPut_wf h _) _, fun _ => by simp [Nproxy.responseWriteSimple]⟩

lemma Fills.responseWriteError (status : ℕ) (keepAlive : Bool) :
    Fills (responseWriteError · status keepAlive) :=
  ⟨fun _ h => bufPut_wf (bufPut_wf h _) _, fun _ => by simp [Nproxy.responseWriteError]⟩

end Nproxy
