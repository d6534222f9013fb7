import Nproxy.Proc.State

/-!
`static/file_server.c` and `static/mime.c`: which file answers a request, and the
start of the response.

A response with a body is begun here and finished elsewhere: the head goes to
`wbuf`, the file is noted in the connection, and the connection is put in
`CONN_SENDFILE`; the bytes of the file are for `handle_write` to send.
-/

namespace Nproxy

/-! ### Paths -/

/-- The number `plen` of bytes of the path that are looked at. -/
def staticPlen (req : HttpRequest) : ℕ := min req.path.len 4095

/-- The array `path` as a C string: `strncpy` stops at a NUL. -/
def staticPath (req : HttpRequest) : List UInt8 := cstr (req.path.bytes.take (staticPlen req))

/-- `path_is_safe`. -/
def pathIsSafe (path : List UInt8) : Bool := !decide (bytes ".." <:+: path)

/-- `path[plen - 1] == '/'`; what stands before the array is `junk`. -/
def endsInSlash (junk : ℕ → UInt8) (req : HttpRequest) : Bool :=
  if staticPlen req = 0 then junk 0 = 47
  else (staticPath req).length = staticPlen req ∧ (staticPath req).getLast? = some 47

/-- The loop that replaces `$uri` in an entry of `try_files`: what `tmp_path`
holds, and the index `tgt - tmp_path`, which counts what was cut as well. -/
def expandTryFile (uri : List UInt8) : ℕ → List UInt8 → List UInt8 → ℕ → List UInt8 × ℕ
  | 0, _, out, n => (out, n)
  | fuel + 1, src, out, n =>
    if src = [] ∨ ¬n < 8191 then (out, n)
    else if src.take 4 = bytes "$uri" then
      expandTryFile uri fuel (src.drop 4) ((out ++ uri).take 8191) (n + uri.length)
    else expandTryFile uri fuel (src.drop 1) (out ++ src.take 1) (n + 1)

/-- The name of the file for an entry of `try_files`. -/
def tryFileName (cfg : ServerConfig) (req : HttpRequest) (entry : List UInt8) : List UInt8 :=
  (cfg.staticRoot ++ (expandTryFile (staticPath req) entry.length entry [] 0).1).take 8191

/-- The name of the file without `try_files`. -/
def plainFileName (junk : ℕ → UInt8) (cfg : ServerConfig) (req : HttpRequest) : List UInt8 :=
  (cfg.staticRoot ++ staticPath req ++
    if endsInSlash junk req then bytes "index.html" else []).take 8191

/-! ### Types and tags -/

/-- `file_extension`. -/
def fileExtension (path : List UInt8) : Option (List UInt8) :=
  let ext := path.rtakeWhile (· != 46)
  if 46 ∉ path ∨ ext.length + 1 = path.length then none else some ext

/-- `mime_table`. -/
def mimeTable : List (String × String) :=
  [("html", "text/html; charset=utf-8"), ("htm", "text/html; charset=utf-8"),
    ("css", "text/css; charset=utf-8"), ("js", "application/javascript"),
    ("mjs", "application/javascript"), ("json", "application/json"), ("xml", "application/xml"),
    ("txt", "text/plain; charset=utf-8"), ("md", "text/plain; charset=utf-8"),
    ("png", "image/png"), ("jpg", "image/jpeg"), ("jpeg", "image/jpeg"), ("gif", "image/gif"),
    ("webp", "image/webp"), ("svg", "image/svg+xml"), ("ico", "image/x-icon"),
    ("wasm", "application/wasm"), ("pdf", "application/pdf"), ("zip", "application/zip"),
    ("gz", "application/gzip"), ("mp4", "video/mp4"), ("webm", "video/webm"),
    ("mp3", "audio/mpeg"), ("ogg", "audio/ogg"), ("woff", "font/woff"), ("woff2", "font/woff2"),
    ("ttf", "font/ttf"), ("otf", "font/otf")]

/-- `mime_by_extension`. -/
def mimeByExtension (ext : Option (List UInt8)) : List UInt8 :=
  match ext with
  | none => bytes "application/octet-stream"
  | some ext =>
    match mimeTable.find? fun e => (bytes e.1).map tolower = ext.map tolower with
    | some e => bytes e.2
    | none => bytes "application/octet-stream"

/-- `%lx`. -/
def hexText (n : ℕ) : List UInt8 := (Nat.toDigits 16 n).map fun c => c.toNat.toUInt8

/-- `etag_from_stat`. -/
def etagFromStat (f : OpenFile) : List UInt8 :=
  List.flatten [bytes "\"", hexText f.mtime, bytes "-", hexText f.size, bytes "\""]

/-- The test of `If-None-Match`: 63 bytes of the header are compared. -/
def etagMatches (req : HttpRequest) (etag : List UInt8) : Bool :=
  let ims := requestHeader req (.lit "If-None-Match")
  ims.len > 0 ∧ cstr (ims.bytes.take 63) = etag

/-- The head of a response with a file. -/
def fileHead (name : List UInt8) (f : OpenFile) (keepAlive : Bool) : List UInt8 :=
  List.flatten [
    bytes "HTTP/1.1 200 OK", crlf,
    bytes "Content-Type: ", mimeByExtension (fileExtension name), crlf,
    bytes "Content-Length: ", decimal f.size, crlf,
    bytes "ETag: ", etagFromStat f, crlf,
    bytes "Connection: ", connectionText keepAlive, crlf,
    crlf]

/-! ### The handler -/

namespace St

/-- `response_write_error(&conn->wbuf, ...)` and `CONN_WRITING_RESPONSE`, which
always come together. -/
def answerError (st : St) (status : ℕ) (keepAlive : Bool) : St :=
  (st.onWbuf (responseWriteError · status keepAlive)).setState .writingResponse

/-- `open` and `fstat`: a regular file, or nothing is left open. -/
def openRegular (st : St) (name : List UInt8) : Option OpenFile × St :=
  let st := st.act (.openFile name)
  match st.env.opens with
  | [] => (none, st)
  | r :: opens =>
    let st := { st with env := { st.env with opens := opens } }
    match r with
    | none => (none, st)
    | some f =>
      match st.offer f.fd with
      | none => (none, st)
      | some fd =>
        let st := st.opened fd
        if f.regular then (some f, st) else (none, st.close fd)

/-- The loop over `try_files`: the first entry that names a regular file. -/
def tryFilesLoop (cfg : ServerConfig) (req : HttpRequest) :
    List (List UInt8) → St → Option (OpenFile × List UInt8) × St
  | [], st => (none, st)
  | entry :: entries, st =>
    let name := tryFileName cfg req entry
    match st.openRegular name with
    | (some f, st) => (some (f, name), st)
    | (none, st) => tryFilesLoop cfg req entries st

/-- The file for a request: the first of `try_files` that is one, or the plain file under the root
if there are no such entries. -/
def findFile (st : St) (req : HttpRequest) (cfg : ServerConfig) :
    Option (OpenFile × List UInt8) × St :=
  if cfg.tryFiles.length > 0 then tryFilesLoop cfg req cfg.tryFiles st
  else
    let name := plainFileName st.env.junk cfg req
    match st.openRegular name with
    | (some f, st) => (some (f, name), st)
    | (none, st) => (none, st)

/-- The end of `file_server_handle`: the head is written, as far as the socket
takes it at once, and the file is noted. -/
def startFile (st : St) (req : HttpRequest) (f : OpenFile) (name : List UInt8) : St :=
  let st := (st.onWbuf (bufPut · (fileHead name f req.keepAlive))).respondOnce
  let st := st.mapConn fun c => { c with
    fileFd := f.fd
    fileOffset := 0
    fileRemaining := f.size
    state := .sendfile }
  st.clientMod evRW

/-- `file_server_handle`: the status that is returned, and the state. -/
def fileServerHandle (st : St) (req : HttpRequest) (cfg : ServerConfig) : ℕ × St :=
  if pathIsSafe (staticPath req) = false then (403, st.answerError 403 req.keepAlive)
  else
    match st.findFile req cfg with
    | (none, st) => (404, st.answerError 404 req.keepAlive)
    | (some (f, name), st) =>
      if etagMatches req (etagFromStat f) then
        let st := (st.close f.fd).onWbuf fun b =>
          responseWriteSimple st.env.junk b 304 (some (bytes "Not Modified")) none none
            req.keepAlive
        (304, st.setState .writingResponse)
      else (200, st.startFile req f name)

end St

end Nproxy
