import Nproxy.Core.StringUtil

/-!
`http/parser.c`: the request parser.

`http_parse_request` walks over the buffer once. It is cut here along its own
stages: `parseRequestLine`, the loop `headerLoop` over the header lines with
`headerLine` for one line and `storeHeader` for what one header does to the
state, and `finishParse` for what follows the loop. `httpParseRequest` puts them
together.

The loop leaves in three ways, and so does `headerLoop`: it returns from the
function (`stop`), it meets the blank line, or `cur` reaches `end`; the last two
go on to `finishParse` alike. `headerLoop` counts its rounds down from the length
of the text, and a round takes two bytes at least, so the count does not run out.
-/

namespace Nproxy

/-! ### The data of `http/parser.h` -/

/-- `http_method_t`. -/
inductive HttpMethod where
  | get | post | put | delete | head | options | patch | unknown
  deriving DecidableEq, Repr

/-- `http_version_t`; `unset` is the zero that `http_parse_state_init` leaves. -/
inductive HttpVersion where
  | unset | http10 | http11
  deriving DecidableEq, Repr

/-- `http_header_t`. -/
structure HttpHeader where
  name : Str
  value : Str
  deriving DecidableEq, Repr

/-- `parse_result_t`. -/
inductive ParseResult where
  | incomplete | done | error
  deriving DecidableEq, Repr

/-- `http_parse_state_t`; the array `headers` with its `header_count` is a list. -/
structure HttpParseState where
  method : HttpMethod
  uri : Str
  version : HttpVersion
  headers : List HttpHeader
  contentLength : ℤ
  chunked : Bool
  keepAlive : Bool
  hasConnectionHeader : Bool
  upgrade : Bool
  upgradeProtocol : Str
  bodyOffset : ℕ
  parsedBytes : ℕ
  deriving DecidableEq, Repr

/-- `http_parse_state_init`. -/
def httpParseStateInit : HttpParseState where
  method := .get
  uri := .null
  version := .unset
  headers := []
  contentLength := -1
  chunked := false
  keepAlive := false
  hasConnectionHeader := false
  upgrade := false
  upgradeProtocol := .null
  bodyOffset := 0
  parsedBytes := 0

/-- `http_method_str`. -/
def httpMethodStr : HttpMethod → List UInt8
  | .get => bytes "GET"
  | .post => bytes "POST"
  | .put => bytes "PUT"
  | .delete => bytes "DELETE"
  | .head => bytes "HEAD"
  | .options => bytes "OPTIONS"
  | .patch => bytes "PATCH"
  | .unknown => bytes "UNKNOWN"

/-! ### The parser -/

/-- `parse_method`: length and `memcmp` are equality of byte strings. -/
def parseMethod (p : List UInt8) : HttpMethod :=
  if p = bytes "GET" then .get
  else if p = bytes "POST" then .post
  else if p = bytes "PUT" then .put
  else if p = bytes "DELETE" then .delete
  else if p = bytes "HEAD" then .head
  else if p = bytes "OPTIONS" then .options
  else if p = bytes "PATCH" then .patch
  else .unknown

/-- `find_crlf`. -/
def findCrlf (s : List UInt8) : Option ℕ := Lines.findPair cr lf s

/-- The request line, up to and with the version: `none` is `PARSE_ERROR`. -/
def parseRequestLine (s : HttpParseState) (line : List UInt8) : Option HttpParseState :=
  match memchr line 32 with
  | none => none
  | some sp1 =>
    let s := { s with method := parseMethod (line.take sp1) }
    let cur := sp1 + 1
    match memchr (line.drop cur) 32 with
    | none => none
    | some n =>
      let s := { s with uri := ⟨.buf cur, (line.drop cur).take n⟩ }
      let cur := cur + n + 1
      let ver := line.drop cur
      if ver = bytes "HTTP/1.1" then some { s with version := .http11 }
      else if ver = bytes "HTTP/1.0" then some { s with version := .http10 }
      else none

/-- What one header does to the state: it is stored, and the headers the proxy
itself reads set their fields. -/
def storeHeader (s : HttpParseState) (name value : Str) : HttpParseState :=
  let s := { s with headers := s.headers ++ [⟨name, value⟩] }
  if strIeq name (.lit "Content-Length") then
    match strToInt value with
    | some cl => { s with contentLength := cl }
    | none => s
  else if strIeq name (.lit "Transfer-Encoding") then
    if strIeq value (.lit "chunked") then { s with chunked := true } else s
  else if strIeq name (.lit "Connection") then
    let s := { s with
      hasConnectionHeader := true
      keepAlive := !strIeq value (.lit "close") }
    if strContainsI value (.lit "upgrade") then { s with upgrade := true } else s
  else if strIeq name (.lit "Upgrade") then { s with upgradeProtocol := value }
  else s

/-- One header line, which starts at offset `cur`: `none` is `PARSE_ERROR`. -/
def headerLine (s : HttpParseState) (cur : ℕ) (line : List UInt8) : Option HttpParseState :=
  match memchr line 58 with
  | none => none
  | some colon =>
    if s.headers.length ≥ npMaxHeaders then none
    else
      let name := strTrim ⟨.buf cur, line.take colon⟩
      let value := strTrim ⟨.buf (cur + colon + 1), line.drop (colon + 1)⟩
      some (storeHeader s name value)

/-- How the header loop ends: with a return from the function, or by leaving the
loop with `cur` where the body starts. -/
inductive LoopExit where
  | stop (r : ParseResult) (s : HttpParseState)
  | leave (s : HttpParseState) (cur : ℕ)
  deriving DecidableEq, Repr

/-- The loop over the header lines; `rest` is the text from `cur` to `end`. -/
def headerLoop : ℕ → HttpParseState → ℕ → List UInt8 → LoopExit
  | 0, s, _, _ => .stop .incomplete s
  | fuel + 1, s, cur, rest =>
    if rest = [] then .leave s cur
    else
      match findCrlf rest with
      | none => .stop .incomplete s
      | some 0 => .leave s (cur + 2)
      | some (n + 1) =>
        match headerLine s cur (rest.take (n + 1)) with
        | none => .stop .error s
        | some s' => headerLoop fuel s' (cur + (n + 1) + 2) (rest.drop (n + 1 + 2))

/-- What follows the loop: the defaults, and the body. -/
def finishParse (s : HttpParseState) (cur len : ℕ) : ParseResult × HttpParseState :=
  let s := if s.hasConnectionHeader then s
    else { s with keepAlive := s.version = .http11 }
  let s := if s.version = .http11 ∧ s.chunked = false ∧ s.contentLength < 0 then
    { s with contentLength := 0 } else s
  let s := { s with bodyOffset := cur, parsedBytes := cur }
  if s.contentLength > 0 then
    if len - s.bodyOffset < s.contentLength.toNat then (.incomplete, s)
    else (.done, { s with parsedBytes := s.parsedBytes + s.contentLength.toNat })
  else (.done, s)

/-- `http_parse_request`. -/
def httpParseRequest (s : HttpParseState) (data : List UInt8) : ParseResult × HttpParseState :=
  match findCrlf data with
  | none => (.incomplete, s)
  | some lineEnd =>
    match parseRequestLine s (data.take lineEnd) with
    | none => (.error, s)
    | some s =>
      match headerLoop (data.length + 1) s (lineEnd + 2) (data.drop (lineEnd + 2)) with
      | .stop r s => (r, s)
      | .leave s cur => finishParse s cur data.length

/-- A parse with a freshly initialised state, as `handle_read` makes it. -/
def parseFresh (data : List UInt8) : ParseResult × HttpParseState :=
  httpParseRequest httpParseStateInit data

end Nproxy
