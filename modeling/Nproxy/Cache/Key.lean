import Nproxy.Http.Request

/-!
`cache_key_from_request` of `cache/cache.c`, and when two requests get the same
key.

The key is `method:host:path`, cut off at the size of the buffer, with `_` for a
missing host. `cacheKey_eq_iff` says which requests share a key, and
`cacheKey_separates_iff` in which ways requests that ask for different things can
come to do so.
-/

namespace Nproxy

/-- `cache_key_from_request(req, out, max)`: the string that `out` holds. -/
def cacheKeyFromRequest (req : HttpRequest) (max : ℕ) : List UInt8 :=
  let host := requestHeader req (.lit "Host")
  let hostText := if host.ptr ≠ .null then cstr host.bytes else bytes "_"
  (List.flatten [httpMethodStr req.method, bytes ":", hostText, bytes ":",
    cstr req.path.bytes]).take (max - 1)

/-! ### What a request asks for -/

/-- The value of the `Host` header, if there is one. -/
def hostHeader (req : HttpRequest) : Option (List UInt8) :=
  let host := requestHeader req (.lit "Host")
  if host.ptr ≠ .null then some host.bytes else none

/-- The host as the key has it. -/
def hostText (req : HttpRequest) : List UInt8 :=
  match hostHeader req with
  | some host => cstr host
  | none => bytes "_"

/-- Two requests that ask for the same. -/
structure SameAsk (req req' : HttpRequest) : Prop where
  method : req.method = req'.method
  host : hostHeader req = hostHeader req'
  path : req.path.bytes = req'.path.bytes
  query : req.query.bytes = req'.query.bytes

/-- What stands behind the method in a key that is not cut off. -/
def askText (req : HttpRequest) : List UInt8 := hostText req ++ 58 :: cstr req.path.bytes

/-- A colon of the path of `req` is read as the one behind the host of `req'`. -/
def ColonShift (req req' : HttpRequest) : Prop :=
  ∃ m, hostText req' = hostText req ++ 58 :: m ∧
    cstr req.path.bytes = m ++ 58 :: cstr req'.path.bytes

/-- How requests of one method are kept apart by their keys of at most 1023
bytes: where hosts and paths look the same, so do the parts that the key leaves
out, no colon moves from one part to the other, and what is cut off makes no
difference. -/
structure KeptApart (req req' : HttpRequest) : Prop where
  parts : hostText req = hostText req' → cstr req.path.bytes = cstr req'.path.bytes →
    hostHeader req = hostHeader req' ∧ req.path.bytes = req'.path.bytes ∧
      req.query.bytes = req'.query.bytes
  colon : ¬ColonShift req req' ∧ ¬ColonShift req' req
  cut : askText req ≠ askText req' → (askText req).take (1022 - (httpMethodStr req.method).length)
    ≠ (askText req').take (1022 - (httpMethodStr req.method).length)

/-! ### Equal keys -/

/-- Two ways to read one text as two parts with a separator in between: the parts
are the same, or one separator stands in a part of the other reading. -/
lemma append_cons_eq_append_cons_iff {α : Type*} {a b c d : List α} {x : α} :
    a ++ x :: b = c ++ x :: d ↔ (a = c ∧ b = d) ∨ (∃ m, c = a ++ x :: m ∧ b = m ++ x :: d) ∨
      ∃ m, a = c ++ x :: m ∧ d = m ++ x :: b := by
  constructor
  · intro h
    rcases List.append_eq_append_iff.mp h with ⟨m, hc, hb⟩ | ⟨m, ha, hd⟩
    · cases m with
      | nil =>
        rw [List.nil_append, List.cons.injEq] at hb
        exact Or.inl ⟨by simpa using hc.symm, hb.2⟩
      | cons y m =>
        rw [List.cons_append, List.cons.injEq] at hb
        exact Or.inr (Or.inl ⟨m, by rw [hc, hb.1], hb.2⟩)
    · cases m with
      | nil =>
        rw [List.nil_append, List.cons.injEq] at hd
        exact Or.inl ⟨by simpa using ha, hd.2.symm⟩
      | cons y m =>
        rw [List.cons_append, List.cons.injEq] at hd
        exact Or.inr (Or.inr ⟨m, by rw [ha, hd.1], hd.2⟩)
  · rintro (⟨rfl, rfl⟩ | ⟨m, rfl, rfl⟩ | ⟨m, rfl, rfl⟩) <;> simp

lemma httpMethodStr_injective : Function.Injective httpMethodStr := by
  intro m m' h
  cases m <;> cases m' <;> first | rfl | exact absurd h (by decide)

lemma length_httpMethodStr_le (m : HttpMethod) : (httpMethodStr m).length ≤ 7 := by
  cases m <;> decide

lemma colon_notMem_httpMethodStr (m : HttpMethod) : 58 ∉ httpMethodStr m := by
  cases m <;> decide

/-- The key is the method, and as much of the rest as there is room for. -/
lemma cacheKey_eq (req : HttpRequest) : cacheKeyFromRequest req 1024
    = httpMethodStr req.method ++
      58 :: (askText req).take (1022 - (httpMethodStr req.method).length) := by
  have hhost : (if (requestHeader req (.lit "Host")).ptr ≠ .null
      then cstr (requestHeader req (.lit "Host")).bytes else bytes "_") = hostText req := by
    rw [hostText, hostHeader]
    by_cases hnull : (requestHeader req (.lit "Host")).ptr ≠ .null
    · simp only [if_pos hnull]
    · simp only [if_neg hnull]
  have hcolon : bytes ":" = [58] := rfl
  have hle := length_httpMethodStr_le req.method
  rw [cacheKeyFromRequest]
  simp only [hhost, hcolon, List.flatten_cons, List.flatten_nil, List.append_nil]
  rw [List.take_append, List.take_of_length_le (by omega),
    show 1024 - 1 - (httpMethodStr req.method).length
      = (1022 - (httpMethodStr req.method).length) + 1 by omega, List.singleton_append,
    List.take_succ_cons]
  rfl

/-- **Equal keys**: the method is the same, and the rest as far as it is kept. -/
lemma cacheKey_eq_iff (req req' : HttpRequest) :
    cacheKeyFromRequest req 1024 = cacheKeyFromRequest req' 1024 ↔ req.method = req'.method ∧
      (askText req).take (1022 - (httpMethodStr req.method).length)
        = (askText req').take (1022 - (httpMethodStr req.method).length) := by
  rw [cacheKey_eq, cacheKey_eq, append_cons_eq_append_cons_iff]
  constructor
  · rintro (⟨hm, ht⟩ | ⟨m, hm, -⟩ | ⟨m, hm, -⟩)
    · have hmethod := httpMethodStr_injective hm
      exact ⟨hmethod, by rwa [← hmethod] at ht⟩
    · exact absurd (by simp [hm]) (colon_notMem_httpMethodStr req'.method)
    · exact absurd (by simp [hm]) (colon_notMem_httpMethodStr req.method)
  · rintro ⟨hm, ht⟩
    exact Or.inl ⟨by rw [hm], by rwa [← hm]⟩

/-- What is behind the method is the same when host and path are, or when a colon
is read at another place. -/
lemma askText_eq_iff (req req' : HttpRequest) : askText req = askText req' ↔
    (hostText req = hostText req' ∧ cstr req.path.bytes = cstr req'.path.bytes) ∨
      ColonShift req req' ∨ ColonShift req' req :=
  append_cons_eq_append_cons_iff

lemma ColonShift.not_sameAsk {req req' : HttpRequest} (h : ColonShift req req') :
    hostHeader req ≠ hostHeader req' := by
  obtain ⟨m, hhost, -⟩ := h
  intro heq
  have hlen := congrArg List.length hhost
  rw [hostText, hostText, heq, List.length_append, List.length_cons] at hlen
  omega

/-- **When keys separate two requests**: exactly when the methods differ, or
neither the query and what a NUL or the placeholder hides, nor a colon inside a
part, nor the cut-off makes the difference. -/
theorem cacheKey_separates_iff (req req' : HttpRequest) :
    (cacheKeyFromRequest req 1024 = cacheKeyFromRequest req' 1024 → SameAsk req req') ↔
      (req.method = req'.method → KeptApart req req') := by
  rw [cacheKey_eq_iff]
  constructor
  · intro hsep hm
    have hask : askText req = askText req' → SameAsk req req' := fun h => hsep ⟨hm, by rw [h]⟩
    refine ⟨fun hhost hpath => ?_, ⟨fun hshift => ?_, fun hshift => ?_⟩, fun hne htake => ?_⟩
    · obtain ⟨-, h1, h2, h3⟩ := hask ((askText_eq_iff _ _).mpr (Or.inl ⟨hhost, hpath⟩))
      exact ⟨h1, h2, h3⟩
    · exact hshift.not_sameAsk (hask ((askText_eq_iff _ _).mpr (Or.inr (Or.inl hshift)))).host
    · exact hshift.not_sameAsk (hask ((askText_eq_iff _ _).mpr (Or.inr (Or.inr hshift)))).host.symm
    · -- what asks for the same has the same text
      have hsame := hsep ⟨hm, htake⟩
      exact hne (by rw [askText, askText, hostText, hostText, hsame.host, hsame.path])
  · rintro hapart ⟨hm, htake⟩
    have h := hapart hm
    have htext : askText req = askText req' := by
      by_contra hne
      exact h.cut hne htake
    rcases (askText_eq_iff _ _).mp htext with ⟨hhost, hpath⟩ | hshift | hshift
    · obtain ⟨h1, h2, h3⟩ := h.parts hhost hpath
      exact ⟨hm, h1, h2, h3⟩
    · exact absurd hshift h.colon.1
    · exact absurd hshift h.colon.2

/-- The request that the parser makes of a text. -/
def requestOf (text : List UInt8) : HttpRequest :=
  requestPopulate requestCreate (parseFresh text).2 text

/-- Are these two texts accepted, with one key for both? -/
def shareKey (text text' : List UInt8) : Bool :=
  (parseFresh text).1 = .done ∧ (parseFresh text').1 = .done ∧
    cacheKeyFromRequest (requestOf text) 1024 = cacheKeyFromRequest (requestOf text') 1024

/-- Requests that ask for different things and share a key: they differ in the
query, in where a colon stands, in whether there is a host, or behind the
cut-off. -/
theorem cacheKeys_collide :
    (let t := bytes "GET /a?x=1 HTTP/1.1" ++ crlf ++ crlf
     let t' := bytes "GET /a?x=2 HTTP/1.1" ++ crlf ++ crlf
     shareKey t t' = true ∧ (requestOf t).query.bytes ≠ (requestOf t').query.bytes) ∧
    (let t := bytes "GET /x:/y HTTP/1.1" ++ crlf ++ bytes "Host: h" ++ crlf ++ crlf
     let t' := bytes "GET /y HTTP/1.1" ++ crlf ++ bytes "Host: h:/x" ++ crlf ++ crlf
     shareKey t t' = true ∧ (requestOf t).path.bytes ≠ (requestOf t').path.bytes) ∧
    (let t := bytes "GET / HTTP/1.1" ++ crlf ++ bytes "Host: _" ++ crlf ++ crlf
     let t' := bytes "GET / HTTP/1.1" ++ crlf ++ crlf
     shareKey t t' = true ∧ hostHeader (requestOf t) ≠ hostHeader (requestOf t')) ∧
    (let t := bytes "GET " ++ List.replicate 1017 47 ++ bytes "a HTTP/1.1" ++ crlf ++ crlf
     let t' := bytes "GET " ++ List.replicate 1017 47 ++ bytes "b HTTP/1.1" ++ crlf ++ crlf
     shareKey t t' = true ∧ (requestOf t).path.bytes ≠ (requestOf t').path.bytes) := by
  decide +kernel

end Nproxy
