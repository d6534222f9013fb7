import Nproxy.Http.Parser

/-!
`http/request.c`: the request that the handlers work on, filled from the parser
state. The time stamp `recv_ts_us` is written and never read; it is left out.
-/

namespace Nproxy

/-- `http_request_t`. -/
structure HttpRequest where
  method : HttpMethod
  path : Str
  query : Str
  version : HttpVersion
  headers : List HttpHeader
  contentLength : ℤ
  chunked : Bool
  keepAlive : Bool
  upgrade : Bool
  upgradeProtocol : Str
  body : Str
  remoteIp : List UInt8
  deriving DecidableEq, Repr

/-- `request_create`, on memory that the arena gave. -/
def requestCreate : HttpRequest where
  method := .get
  path := .null
  query := .null
  version := .unset
  headers := []
  contentLength := -1
  chunked := false
  keepAlive := false
  upgrade := false
  upgradeProtocol := .null
  body := .null
  remoteIp := []

/-- `request_populate`; `raw` are the `len` bytes that were parsed. -/
def requestPopulate (req : HttpRequest) (ps : HttpParseState) (raw : List UInt8) : HttpRequest :=
  let req := { req with
    method := ps.method
    version := ps.version
    contentLength := ps.contentLength
    chunked := ps.chunked
    keepAlive := ps.keepAlive
    upgrade := ps.upgrade
    upgradeProtocol := ps.upgradeProtocol }
  let uri := ps.uri
  let req :=
    match memchr uri.bytes 63 with
    | some q => { req with
        path := ⟨uri.ptr, uri.bytes.take q⟩
        query := ⟨uri.ptr.add (q + 1), uri.bytes.drop (q + 1)⟩ }
    | none => { req with path := uri, query := .null }
  let req := { req with headers := ps.headers }
  if ps.contentLength > 0 ∧ ps.bodyOffset + ps.contentLength.toNat ≤ raw.length then
    { req with
      body := ⟨.buf ps.bodyOffset, (raw.drop ps.bodyOffset).take ps.contentLength.toNat⟩ }
  else req

/-- What the parser decided is what the request has. -/
lemma requestPopulate_fields (req : HttpRequest) (ps : HttpParseState) (raw : List UInt8) :
    (requestPopulate req ps raw).method = ps.method ∧
    (requestPopulate req ps raw).version = ps.version ∧
    (requestPopulate req ps raw).headers = ps.headers := by
  rw [requestPopulate]
  cases memchr ps.uri.bytes 63 <;>
    by_cases hb : ps.contentLength > 0 ∧ ps.bodyOffset + ps.contentLength.toNat ≤ raw.length <;>
    simp [hb]

lemma requestPopulate_keepAlive (req : HttpRequest) (ps : HttpParseState) (raw : List UInt8) :
    (requestPopulate req ps raw).keepAlive = ps.keepAlive := by
  rw [requestPopulate]
  cases memchr ps.uri.bytes 63 <;>
    by_cases hb : ps.contentLength > 0 ∧ ps.bodyOffset + ps.contentLength.toNat ≤ raw.length <;>
    simp [hb]

/-- The target is split at its first `?`. -/
lemma requestPopulate_target (req : HttpRequest) (ps : HttpParseState) (raw : List UInt8) :
    (requestPopulate req ps raw).path.bytes = ps.uri.bytes.takeWhile (· != 63) ∧
    (requestPopulate req ps raw).query.bytes = (ps.uri.bytes.dropWhile (· != 63)).drop 1 ∧
    (63 ∉ ps.uri.bytes → (requestPopulate req ps raw).query = .null) := by
  rw [requestPopulate]
  by_cases hq : (63 : UInt8) ∈ ps.uri.bytes
  · rw [memchr_eq hq]
    simp only [List.takeWhile_eq_take_findIdx_not, List.dropWhile_eq_drop_findIdx_not,
      bne, Bool.not_not, List.drop_drop]
    split <;> simp [hq]
  · rw [memchr_eq_none_iff.mpr hq]
    have hne : ∀ c ∈ ps.uri.bytes, (c != 63) = true := by
      rintro c hc
      rw [bne_iff_ne]
      rintro rfl
      exact hq hc
    rw [List.takeWhile_eq_self_iff.mpr hne, List.dropWhile_eq_nil_iff.mpr hne]
    simp only
    split <;> simp [Str.null]

lemma requestPopulate_chunked (req : HttpRequest) (ps : HttpParseState) (raw : List UInt8) :
    (requestPopulate req ps raw).chunked = ps.chunked := by
  rw [requestPopulate]
  cases memchr ps.uri.bytes 63 <;>
    by_cases hb : ps.contentLength > 0 ∧ ps.bodyOffset + ps.contentLength.toNat ≤ raw.length <;>
    simp [hb]

/-- The body is there when all of its bytes are. -/
lemma requestPopulate_body (req : HttpRequest) (ps : HttpParseState) (raw : List UInt8) :
    (requestPopulate req ps raw).body =
      if ps.contentLength > 0 ∧ ps.bodyOffset + ps.contentLength.toNat ≤ raw.length then
        ⟨.buf ps.bodyOffset, (raw.drop ps.bodyOffset).take ps.contentLength.toNat⟩
      else req.body := by
  rw [requestPopulate]
  split
  · rfl
  · cases memchr ps.uri.bytes 63 <;> rfl

/-- Bytes behind the body do not matter. -/
lemma requestPopulate_append {req : HttpRequest} {ps : HttpParseState} {raw : List UInt8}
    (h : ps.bodyOffset + ps.contentLength.toNat ≤ raw.length) (c : List UInt8) :
    requestPopulate req ps (raw ++ c) = requestPopulate req ps raw := by
  have hbody : ((raw ++ c).drop ps.bodyOffset).take ps.contentLength.toNat =
      (raw.drop ps.bodyOffset).take ps.contentLength.toNat := by
    rw [List.drop_append_of_le_length (by omega),
      List.take_append_of_le_length (by rw [List.length_drop]; omega)]
  have hlen : ps.bodyOffset + ps.contentLength.toNat ≤ (raw ++ c).length := by
    rw [List.length_append]
    omega
  simp only [requestPopulate, hbody, h, hlen]

/-- `request_header`. -/
def requestHeader (req : HttpRequest) (name : Str) : Str :=
  match req.headers.find? fun h => strIeq h.name name with
  | some h => h.value
  | none => .null

/-- A header that is looked up is one of the list, or empty. -/
lemma requestHeader_mem (req : HttpRequest) (name : Str) :
    requestHeader req name = .null ∨ ∃ h ∈ req.headers, requestHeader req name = h.value := by
  rw [requestHeader]
  cases hf : req.headers.find? fun h => strIeq h.name name with
  | none => exact Or.inl rfl
  | some x => exact Or.inr ⟨x, List.mem_of_find?_eq_some hf, rfl⟩

end Nproxy
