import Nproxy.Http.Parser

/-!
The head of a request as a list of lines: the abstract reading of
`http_parse_request`.

A text is a request line, header lines, and a rest. `headerLines` runs the
header lines through the parser state one after the other; `headerLoop_join`
says that the loop of the parser does just that, whatever follows the lines, and
`Head.parse` that the whole parser is the request line, the header lines and one
of three endings:

* the rest starts with the blank line: the body follows it;
* the rest is empty: the loop condition `cur < end` fails, and the parser goes
  on as if it had seen the blank line;
* the rest is an unfinished line: `PARSE_INCOMPLETE`.

What the header lines do to the state is said once, in `storeHeaders`: the
headers are appended, the last `Content-Length` that `str_to_int` accepts is the
length, and one `Transfer-Encoding: chunked` sets the flag.
-/

namespace Nproxy

open Lines (IsLine joinLines HeadSplit findPair)

/-- The header lines, each starting where the one before and its CRLF ended. -/
def headerLines : HttpParseState → ℕ → List (List UInt8) → Option (HttpParseState × ℕ)
  | s, cur, [] => some (s, cur)
  | s, cur, l :: ls =>
    match headerLine s cur l with
    | none => none
    | some s' => headerLines s' (cur + l.length + 2) ls

/-! ### What the header lines do to the state -/

/-- The header a line denotes, when it has a colon: name and value, trimmed. -/
def lineHeader (cur : ℕ) (line : List UInt8) : HttpHeader :=
  let colon := line.findIdx (· == 58)
  ⟨strTrim ⟨.buf cur, line.take colon⟩, strTrim ⟨.buf (cur + colon + 1), line.drop (colon + 1)⟩⟩

/-- The headers that lines denote. -/
def lineHeaders : ℕ → List (List UInt8) → List HttpHeader
  | _, [] => []
  | cur, l :: ls => lineHeader cur l :: lineHeaders (cur + l.length + 2) ls

@[simp] lemma length_lineHeaders (cur : ℕ) (ls : List (List UInt8)) :
    (lineHeaders cur ls).length = ls.length := by
  induction ls generalizing cur with
  | nil => rfl
  | cons l ls ih => simp [lineHeaders, ih]

/-- Storing headers one after the other. -/
def storeHeaders (s : HttpParseState) (hs : List HttpHeader) : HttpParseState :=
  hs.foldl (fun s h => storeHeader s h.name h.value) s

@[simp] lemma storeHeaders_nil (s : HttpParseState) : storeHeaders s [] = s := rfl

@[simp] lemma storeHeaders_cons (s : HttpParseState) (h : HttpHeader) (hs : List HttpHeader) :
    storeHeaders s (h :: hs) = storeHeaders (storeHeader s h.name h.value) hs := rfl

/-- A `Content-Length` header, in any case. -/
def isContentLength (h : HttpHeader) : Bool := strIeq h.name (.lit "Content-Length")

/-- A `Transfer-Encoding: chunked` header, in any case. -/
def isChunked (h : HttpHeader) : Bool :=
  strIeq h.name (.lit "Transfer-Encoding") && strIeq h.value (.lit "chunked")

/-- The length that headers announce: the value of the last `Content-Length` that
`str_to_int` accepts, and otherwise `d`. -/
def declaredLength (d : ℤ) (hs : List HttpHeader) : ℤ :=
  ((hs.filter isContentLength).filterMap fun h => strToInt h.value).getLastD d

lemma strIeq_lit_unique {a : Str} {s t : String} (hs : 0 ∉ bytes s) (ht : 0 ∉ bytes t)
    (hst : (bytes s).map tolower ≠ (bytes t).map tolower) (h : strIeq a (.lit s) = true) :
    strIeq a (.lit t) = false := by
  rw [Bool.eq_false_iff]
  intro h'
  rw [strIeq_iff (by simpa [Str.lit] using hs)] at h
  rw [strIeq_iff (by simpa [Str.lit] using ht)] at h'
  exact hst (h.symm.trans h')

/-- A `Transfer-Encoding` header is no `Content-Length` header. -/
lemma not_isContentLength_of_isChunked {h : HttpHeader} (hc : isChunked h = true) :
    isContentLength h = false := by
  rw [isChunked, Bool.and_eq_true] at hc
  exact strIeq_lit_unique (by decide) (by decide) (by decide) hc.1

/-- What one header does to the fields that the framing of the message rests on. -/
lemma storeHeader_fields (s : HttpParseState) (h : HttpHeader) :
    (storeHeader s h.name h.value).headers = s.headers ++ [h] ∧
    (storeHeader s h.name h.value).contentLength = declaredLength s.contentLength [h] ∧
    (storeHeader s h.name h.value).chunked = (s.chunked || isChunked h) ∧
    (storeHeader s h.name h.value).method = s.method ∧
    (storeHeader s h.name h.value).uri = s.uri ∧
    (storeHeader s h.name h.value).version = s.version := by
  by_cases hcl : isContentLength h = true
  · have hch : isChunked h = false := by
      by_contra hne
      have := not_isContentLength_of_isChunked (Bool.eq_true_of_not_eq_false hne)
      simp [hcl] at this
    have hcl' : strIeq h.name (.lit "Content-Length") = true := hcl
    rw [storeHeader, if_pos hcl']
    cases hv : strToInt h.value <;> simp [declaredLength, hcl, hv, hch]
  · have hcl' : ¬strIeq h.name (.lit "Content-Length") = true := hcl
    have hdl : declaredLength s.contentLength [h] = s.contentLength := by
      simp [declaredLength, hcl]
    rw [storeHeader, if_neg hcl', hdl]
    by_cases hte : strIeq h.name (.lit "Transfer-Encoding") = true
    · rw [if_pos hte]
      by_cases hval : strIeq h.value (.lit "chunked") = true <;> simp [isChunked, hte, hval]
    · have hch : isChunked h = false := by simp [isChunked, hte]
      rw [if_neg hte, hch]
      split
      · split <;> simp
      · split <;> simp

lemma declaredLength_cons (d : ℤ) (h : HttpHeader) (hs : List HttpHeader) :
    declaredLength d (h :: hs) = declaredLength (declaredLength d [h]) hs := by
  simp only [declaredLength, List.filter_cons, List.filter_nil]
  split
  · cases hv : strToInt h.value with
    | none => simp [hv]
    | some v => simp [hv, List.getLastD_eq_getLast?, List.getLast?_cons]
  · simp

/-- **The header lines as a whole**: the headers are appended in order, the last
`Content-Length` that is a number is the length, and `chunked` is set by any
`Transfer-Encoding: chunked`. -/
lemma storeHeaders_fields (s : HttpParseState) (hs : List HttpHeader) :
    (storeHeaders s hs).headers = s.headers ++ hs ∧
    (storeHeaders s hs).contentLength = declaredLength s.contentLength hs ∧
    (storeHeaders s hs).chunked = (s.chunked || hs.any isChunked) ∧
    (storeHeaders s hs).method = s.method ∧
    (storeHeaders s hs).uri = s.uri ∧
    (storeHeaders s hs).version = s.version := by
  induction hs generalizing s with
  | nil => simp [declaredLength]
  | cons h hs ih =>
    obtain ⟨h1, h2, h3, h4, h5, h6⟩ := storeHeader_fields s h
    obtain ⟨i1, i2, i3, i4, i5, i6⟩ := ih (storeHeader s h.name h.value)
    rw [storeHeaders_cons, declaredLength_cons, i1, i2, i3, i4, i5, i6, h1, h2, h3, h4, h5, h6]
    simp [Bool.or_assoc]

/-- One header line is accepted when it has a colon and there is room. -/
lemma headerLine_eq (s : HttpParseState) (cur : ℕ) (line : List UInt8) :
    headerLine s cur line =
      if 58 ∈ line ∧ s.headers.length < npMaxHeaders then
        some (storeHeader s (lineHeader cur line).name (lineHeader cur line).value)
      else none := by
  rw [headerLine]
  by_cases hc : (58 : UInt8) ∈ line
  · rw [memchr_eq hc]
    by_cases hn : s.headers.length < npMaxHeaders
    · simp [hc, hn, lineHeader]
    · simp [hn, Nat.not_lt.mp hn]
  · rw [memchr_eq_none_iff.mpr hc]
    simp [hc]

/-- The header lines are accepted when each has a colon and there is room for
them all. -/
lemma headerLines_eq (s : HttpParseState) (cur : ℕ) (ls : List (List UInt8)) :
    headerLines s cur ls =
      if (∀ l ∈ ls, 58 ∈ l) ∧ (ls = [] ∨ s.headers.length + ls.length ≤ npMaxHeaders) then
        some (storeHeaders s (lineHeaders cur ls), cur + (joinLines cr lf ls).length)
      else none := by
  induction ls generalizing s cur with
  | nil => simp [headerLines, lineHeaders]
  | cons l ls ih =>
    rw [headerLines, headerLine_eq]
    obtain ⟨hlen, -⟩ := storeHeader_fields s (lineHeader cur l)
    by_cases hl : 58 ∈ l ∧ s.headers.length < npMaxHeaders
    · rw [if_pos hl]
      simp only [ih, hlen, List.length_append, List.length_cons, List.length_nil]
      -- the line that is stored takes one place of the table
      have hcond : ((∀ k ∈ ls, 58 ∈ k) ∧
            (ls = [] ∨ s.headers.length + (0 + 1) + ls.length ≤ npMaxHeaders)) ↔
          ((∀ k ∈ l :: ls, 58 ∈ k) ∧
            (l :: ls = [] ∨ s.headers.length + (ls.length + 1) ≤ npMaxHeaders)) := by
        constructor
        · rintro ⟨h1, h2⟩
          refine ⟨by simpa using ⟨hl.1, h1⟩, Or.inr ?_⟩
          rcases h2 with rfl | h2
          · simpa using hl.2
          · omega
        · rintro ⟨h1, h2⟩
          refine ⟨fun k hk => h1 k (by simp [hk]), Or.inr ?_⟩
          rcases h2 with h2 | h2
          · simp at h2
          · omega
      by_cases hc : (∀ k ∈ ls, 58 ∈ k) ∧
          (ls = [] ∨ s.headers.length + (0 + 1) + ls.length ≤ npMaxHeaders)
      · rw [if_pos hc, if_pos (hcond.mp hc), lineHeaders, storeHeaders_cons,
          Lines.joinLines_cons, List.length_append, List.length_cons, List.length_cons,
          show cur + l.length + 2 + (joinLines cr lf ls).length
            = cur + (l.length + ((joinLines cr lf ls).length + 1 + 1)) by omega]
      · rw [if_neg hc, if_neg (fun h => hc (hcond.mpr h))]
    · rw [if_neg hl, if_neg]
      rintro ⟨h1, h2⟩
      apply hl
      refine ⟨h1 l (by simp), ?_⟩
      rcases h2 with h2 | h2
      · simp at h2
      · simp only [List.length_cons] at h2
        omega

/-! ### The loop over written lines -/

/-- One round of the loop, on a line that is there in full. -/
lemma headerLoop_line {l : List UInt8} (hl : l ≠ [] ∧ IsLine cr lf l) (fuel : ℕ)
    (s : HttpParseState) (cur : ℕ) (rest : List UInt8) :
    headerLoop (fuel + 1) s cur (l ++ cr :: lf :: rest)
      = match headerLine s cur l with
        | none => .stop .error s
        | some s' => headerLoop fuel s' (cur + l.length + 2) rest := by
  obtain ⟨n, hn⟩ : ∃ n, l.length = n + 1 :=
    Nat.exists_eq_succ_of_ne_zero fun h0 => hl.1 (List.eq_nil_of_length_eq_zero h0)
  have hf : findCrlf (l ++ cr :: lf :: rest) = some (n + 1) := by
    rw [findCrlf, hl.2.findPair, hn]
  have htake : (l ++ cr :: lf :: rest).take (n + 1) = l := by rw [← hn]; simp
  have hdrop : (l ++ cr :: lf :: rest).drop (n + 1 + 2) = rest := by
    rw [← hn, List.drop_append]
    simp
  rw [headerLoop, if_neg (by simp), hf]
  cases hline : headerLine s cur l <;> simp only [htake, hdrop, hn, hline]

/-- The loop runs through the lines in front of it, if it has rounds enough. -/
lemma headerLoop_join {ls : List (List UInt8)} (hls : ∀ l ∈ ls, l ≠ [] ∧ IsLine cr lf l)
    (fuel : ℕ) (s : HttpParseState) (cur : ℕ) (rest : List UInt8) :
    (headerLines s cur ls = none →
      ∃ s', headerLoop (ls.length + fuel) s cur (joinLines cr lf ls ++ rest) = .stop .error s') ∧
    (∀ s' cur', headerLines s cur ls = some (s', cur') →
      headerLoop (ls.length + fuel) s cur (joinLines cr lf ls ++ rest)
        = headerLoop fuel s' cur' rest) := by
  induction ls generalizing s cur with
  | nil => simp [headerLines]
  | cons l ls ih =>
    have hl := hls l (by simp)
    rw [Lines.joinLines_cons, List.append_assoc, List.cons_append, List.cons_append,
      List.length_cons, show ls.length + 1 + fuel = (ls.length + fuel) + 1 by omega,
      headerLoop_line hl, headerLines]
    cases headerLine s cur l with
    | none => exact ⟨fun _ => ⟨s, rfl⟩, fun _ _ h => by simp at h⟩
    | some s1 => exact ih (fun k hk => hls k (by simp [hk])) s1 _

/-- The end of the loop: `cur` has reached `end`, or the blank line is there, or
the last line is not. -/
lemma headerLoop_stop {rest : List UInt8}
    (h : findPair cr lf rest = none ∨ findPair cr lf rest = some 0) (fuel : ℕ)
    (s : HttpParseState) (cur : ℕ) :
    headerLoop (fuel + 1) s cur rest
      = if rest = [] then .leave s cur
        else if findPair cr lf rest = some 0 then .leave s (cur + 2)
        else .stop .incomplete s := by
  rw [headerLoop]
  split
  · rfl
  · rcases h with h | h <;> simp [findCrlf, h]

/-! ### The whole parser -/

/-- A text read as a head: the request line, the header lines and the rest. -/
structure Head (data line : List UInt8) (ls : List (List UInt8)) (rest : List UInt8) : Prop where
  isLine : IsLine cr lf line
  eq : data = line ++ cr :: lf :: (joinLines cr lf ls ++ rest)
  lines : ∀ l ∈ ls, l ≠ [] ∧ IsLine cr lf l
  stop : findPair cr lf rest = none ∨ findPair cr lf rest = some 0

/-- A text with a CRLF in it has a head. -/
lemma exists_head {data : List UInt8} {n : ℕ} (h : findCrlf data = some n) :
    ∃ ls rest, Head data (data.take n) ls rest := by
  obtain ⟨heq, -⟩ := Lines.eq_of_findPair h
  obtain ⟨ls, rest, hs⟩ := HeadSplit.exists_split (x := cr) (y := lf) (data.drop (n + 2))
  refine ⟨ls, rest, Lines.isLine_take h, ?_, hs.lines, hs.stop⟩
  rw [← hs.eq]
  exact heq

namespace Head

variable {data line rest : List UInt8} {ls : List (List UInt8)}

lemma findCrlf_eq (h : Head data line ls rest) : findCrlf data = some line.length := by
  rw [h.eq, findCrlf, h.isLine.findPair]

lemma unique {line' rest' : List UInt8} {ls' : List (List UInt8)}
    (h : Head data line ls rest) (h' : Head data line' ls' rest') :
    line = line' ∧ ls = ls' ∧ rest = rest' := by
  have hlen : line.length = line'.length := by
    have := h.findCrlf_eq
    rw [h'.findCrlf_eq] at this
    exact (Option.some.inj this).symm
  have heq := h.eq
  rw [h'.eq] at heq
  obtain ⟨hline, ht⟩ := List.append_inj heq hlen.symm
  have ht' : joinLines cr lf ls' ++ rest' = joinLines cr lf ls ++ rest := by simpa using ht
  obtain ⟨hls, hr⟩ := HeadSplit.unique
    (⟨rfl, h.lines, h.stop⟩ : HeadSplit cr lf (joinLines cr lf ls ++ rest) ls rest)
    (⟨ht'.symm, h'.lines, h'.stop⟩ : HeadSplit cr lf (joinLines cr lf ls ++ rest) ls' rest')
  exact ⟨hline.symm, hls, hr⟩

/-- The parser on a text with a head, once the request line is read: an error in
a header line is the result, and otherwise one of the three endings. -/
lemma parse_lines (h : Head data line ls rest) (s0 : HttpParseState) :
    (parseRequestLine s0 line = none → (httpParseRequest s0 data).1 = .error) ∧
    ∀ s1, parseRequestLine s0 line = some s1 →
      (headerLines s1 (line.length + 2) ls = none → (httpParseRequest s0 data).1 = .error) ∧
      ∀ s cur, headerLines s1 (line.length + 2) ls = some (s, cur) →
        httpParseRequest s0 data =
          if rest = [] then finishParse s cur data.length
          else if findPair cr lf rest = some 0 then finishParse s (cur + 2) data.length
          else (.incomplete, s) := by
  have htake : data.take line.length = line := by rw [h.eq]; simp
  have hdrop : data.drop (line.length + 2) = joinLines cr lf ls ++ rest := by
    rw [h.eq, List.drop_append]
    simp
  -- the rounds: one for each line, and at least one more
  have hfuel : ∃ f, data.length + 1 = ls.length + (f + 1) := by
    have h1 := Lines.length_le_joinLines (x := cr) (y := lf) ls
    have h2 := congrArg List.length h.eq
    simp only [List.length_append, List.length_cons] at h2
    exact ⟨data.length - ls.length, by omega⟩
  obtain ⟨f, hf⟩ := hfuel
  constructor
  · intro hnone
    simp [httpParseRequest, h.findCrlf_eq, htake, hnone]
  · intro s1 hs1
    obtain ⟨herr, hok⟩ := headerLoop_join h.lines (f + 1) s1 (line.length + 2) rest
    constructor
    · intro hnone
      obtain ⟨s', hs'⟩ := herr hnone
      simp [httpParseRequest, h.findCrlf_eq, htake, hs1, hdrop, hf, hs']
    · intro s cur hsome
      have hloop := hok s cur hsome
      rw [headerLoop_stop h.stop] at hloop
      simp only [httpParseRequest, h.findCrlf_eq, htake, hs1, hdrop, hf, hloop]
      by_cases hnil : rest = []
      · simp [hnil]
      · by_cases hblank : findPair cr lf rest = some 0 <;> simp [hnil, hblank]

end Head

/-- **What a request line that is read looks like, and what it sets.** -/
lemma parseRequestLine_eq_some {s s1 : HttpParseState} {line : List UInt8}
    (h : parseRequestLine s line = some s1) :
    ∃ method target ver ptr v, line = method ++ 32 :: (target ++ 32 :: ver) ∧
      32 ∉ method ∧ 32 ∉ target ∧
      s1 = { s with method := parseMethod method, uri := ⟨ptr, target⟩, version := v } ∧
      ((ver = bytes "HTTP/1.1" ∧ v = .http11) ∨ (ver = bytes "HTTP/1.0" ∧ v = .http10)) := by
  rw [parseRequestLine] at h
  cases hsp1 : memchr line 32 with
  | none => simp [hsp1] at h
  | some sp1 =>
    simp only [hsp1] at h
    cases hsp2 : memchr (line.drop (sp1 + 1)) 32 with
    | none => simp [hsp2] at h
    | some n =>
      obtain ⟨heq1, hmethod⟩ := eq_of_memchr hsp1
      obtain ⟨heq2, htarget⟩ := eq_of_memchr hsp2
      simp only [hsp2] at h
      rw [List.drop_drop, ← Nat.add_assoc] at heq2
      rw [heq2] at heq1
      split at h
      · rename_i hver
        exact ⟨_, _, _, _, _, heq1, hmethod, htarget, (Option.some.inj h).symm,
          Or.inl ⟨hver, rfl⟩⟩
      · split at h
        · rename_i hver
          exact ⟨_, _, _, _, _, heq1, hmethod, htarget, (Option.some.inj h).symm,
            Or.inr ⟨hver, rfl⟩⟩
        · simp at h

/-- A request line that is read leaves the headers and the framing alone, and
sets one of the two versions. -/
lemma parseRequestLine_fields {s s1 : HttpParseState} {line : List UInt8}
    (h : parseRequestLine s line = some s1) :
    s1.headers = s.headers ∧ s1.contentLength = s.contentLength ∧ s1.chunked = s.chunked ∧
      (s1.version = .http10 ∨ s1.version = .http11) := by
  obtain ⟨_, _, _, _, _, -, -, -, rfl, ⟨-, rfl⟩ | ⟨-, rfl⟩⟩ := parseRequestLine_eq_some h
  · exact ⟨rfl, rfl, rfl, Or.inr rfl⟩
  · exact ⟨rfl, rfl, rfl, Or.inl rfl⟩

/-- The version is read off the end of the request line. -/
lemma parseRequestLine_version {s s1 : HttpParseState} {line : List UInt8}
    (h : parseRequestLine s line = some s1) :
    s1.version = .http11 ↔ bytes "HTTP/1.1" <:+ line := by
  obtain ⟨method, target, ver, _, _, rfl, -, -, rfl, hver⟩ := parseRequestLine_eq_some h
  have hsuffix : ver <:+ method ++ 32 :: (target ++ 32 :: ver) :=
    ⟨method ++ 32 :: (target ++ [32]), by simp⟩
  rcases hver with ⟨rfl, rfl⟩ | ⟨rfl, rfl⟩
  · exact iff_of_true rfl hsuffix
  · refine iff_of_false (by simp) fun hother => ?_
    -- two suffixes of the same length are equal
    have hsame := (List.suffix_of_suffix_length_le hother hsuffix (by decide)).eq_of_length
      (by decide)
    exact absurd hsame (by decide)

/-- The lines of a head that the parser does not reject. -/
def Acceptable (line : List UInt8) (ls : List (List UInt8)) : Prop :=
  (parseRequestLine httpParseStateInit line).isSome ∧ (∀ l ∈ ls, 58 ∈ l) ∧
    ls.length ≤ npMaxHeaders

instance (line : List UInt8) (ls : List (List UInt8)) : Decidable (Acceptable line ls) :=
  inferInstanceAs (Decidable (_ ∧ _))

/-- The lines in front of acceptable lines are acceptable. -/
lemma Acceptable.of_append {line : List UInt8} {ls ms : List (List UInt8)}
    (h : Acceptable line (ls ++ ms)) : Acceptable line ls := by
  refine ⟨h.1, fun l hl => h.2.1 l (by simp [hl]), ?_⟩
  have := h.2.2
  rw [List.length_append] at this
  omega

/-- The parser state at the end of a head. -/
def headState (line : List UInt8) (ls : List (List UInt8)) : HttpParseState :=
  match parseRequestLine httpParseStateInit line with
  | none => httpParseStateInit
  | some s1 => storeHeaders s1 (lineHeaders (line.length + 2) ls)

/-- The length of a head without the blank line. -/
def headLength (line : List UInt8) (ls : List (List UInt8)) : ℕ :=
  line.length + 2 + (joinLines cr lf ls).length

/-- The framing at the end of a head: the headers are those of the lines. -/
lemma Acceptable.headState_fields {line : List UInt8} {ls : List (List UInt8)}
    (h : Acceptable line ls) :
    (headState line ls).headers = lineHeaders (line.length + 2) ls ∧
    (headState line ls).contentLength = declaredLength (-1) (lineHeaders (line.length + 2) ls) ∧
    (headState line ls).chunked = (lineHeaders (line.length + 2) ls).any isChunked := by
  obtain ⟨s1, hs1⟩ := Option.isSome_iff_exists.mp h.1
  obtain ⟨h1, h2, h3, -⟩ := parseRequestLine_fields hs1
  obtain ⟨i1, i2, i3, -⟩ := storeHeaders_fields s1 (lineHeaders (line.length + 2) ls)
  rw [headState, hs1]
  exact ⟨by rw [i1, h1]; rfl, by rw [i2, h2]; rfl, by rw [i3, h3]; rfl⟩

/-- The version at the end of a head is that of the request line. -/
lemma Acceptable.headState_version {line : List UInt8} {ls : List (List UInt8)}
    (h : Acceptable line ls) :
    (headState line ls).version = .http11 ↔ bytes "HTTP/1.1" <:+ line := by
  obtain ⟨s1, hs1⟩ := Option.isSome_iff_exists.mp h.1
  obtain ⟨-, -, -, -, -, i6⟩ := storeHeaders_fields s1 (lineHeaders (line.length + 2) ls)
  rw [headState, hs1, i6]
  exact parseRequestLine_version hs1

namespace Head

variable {data line rest : List UInt8} {ls : List (List UInt8)}

lemma length_eq (h : Head data line ls rest) :
    data.length = headLength line ls + rest.length := by
  rw [h.eq, headLength]
  simp only [List.length_append, List.length_cons]
  omega

/-- **The parser on acceptable lines**: one of the three endings. -/
lemma parse (h : Head data line ls rest) (hacc : Acceptable line ls) :
    parseFresh data =
      if rest = [] then finishParse (headState line ls) (headLength line ls) data.length
      else if findPair cr lf rest = some 0 then
        finishParse (headState line ls) (headLength line ls + 2) data.length
      else (.incomplete, headState line ls) := by
  obtain ⟨s1, hs1⟩ := Option.isSome_iff_exists.mp hacc.1
  obtain ⟨-, hok⟩ := (h.parse_lines httpParseStateInit).2 s1 hs1
  have hempty : s1.headers = [] := (parseRequestLine_fields hs1).1
  rw [parseFresh, headState, hs1]
  apply hok
  rw [headerLines_eq, if_pos, headLength]
  refine ⟨hacc.2.1, Or.inr ?_⟩
  simpa [hempty] using hacc.2.2

/-- **The parser on unacceptable lines**: an error. -/
lemma parse_error (h : Head data line ls rest) (hacc : ¬Acceptable line ls) :
    (parseFresh data).1 = .error := by
  obtain ⟨hline, hlines⟩ := h.parse_lines httpParseStateInit
  cases hs1 : parseRequestLine httpParseStateInit line with
  | none => exact hline hs1
  | some s1 =>
    have hempty : s1.headers = [] := (parseRequestLine_fields hs1).1
    apply (hlines s1 hs1).1
    rw [headerLines_eq, if_neg]
    rintro ⟨h1, h2⟩
    apply hacc
    refine ⟨by simp [hs1], h1, ?_⟩
    rcases h2 with rfl | h2
    · simp
    · simpa [hempty] using h2

end Head

/-! ### The endings of the parser -/

/-- The length that is left to decide by once the head is read. -/
def settledLength (s : HttpParseState) : ℤ :=
  if s.version = .http11 ∧ s.chunked = false ∧ s.contentLength < 0 then 0 else s.contentLength

lemma settledLength_pos_iff (s : HttpParseState) : 0 < settledLength s ↔ 0 < s.contentLength := by
  rw [settledLength]
  split <;> omega

/-- The state at the end of the head, before the body is looked at. -/
def settle (s : HttpParseState) (cur : ℕ) : HttpParseState :=
  { s with
    keepAlive := if s.hasConnectionHeader then s.keepAlive else s.version = .http11
    contentLength := settledLength s
    bodyOffset := cur
    parsedBytes := cur }

/-- `finishParse` in one expression: the head is settled, and a positive length
waits for that many bytes. -/
lemma finishParse_eq (s : HttpParseState) (cur len : ℕ) :
    finishParse s cur len =
      if 0 < s.contentLength then
        if len - cur < s.contentLength.toNat then (.incomplete, settle s cur)
        else (.done, { settle s cur with parsedBytes := cur + s.contentLength.toNat })
      else (.done, settle s cur) := by
  rw [finishParse, settle, settledLength]
  by_cases hc : s.hasConnectionHeader = true <;>
  by_cases hv : s.version = .http11 ∧ s.chunked = false ∧ s.contentLength < 0
  · have : ¬0 < s.contentLength := by omega
    simp [hc, hv, this]
  · by_cases hp : 0 < s.contentLength <;> simp [hc, hv, hp]
  · have : ¬0 < s.contentLength := by omega
    simp [hc, hv, this]
  · by_cases hp : 0 < s.contentLength <;> simp [hc, hv, hp]

/-- A head that is complete stays as it was decided when bytes follow. -/
lemma finishParse_mono {s : HttpParseState} {cur len len' : ℕ} (hle : len ≤ len')
    (h : (finishParse s cur len).1 = .done) :
    finishParse s cur len' = finishParse s cur len := by
  rw [finishParse_eq] at h ⊢
  rw [finishParse_eq]
  by_cases hp : 0 < s.contentLength
  · rw [if_pos hp] at h ⊢
    rw [if_pos hp]
    by_cases ha : len - cur < s.contentLength.toNat
    · rw [if_pos ha] at h
      exact absurd h (by simp)
    · rw [if_neg ha, if_neg (by omega)]
  · rw [if_neg hp, if_neg hp]

/-- What an accepted head leaves: the settled state, and a body that is there and
is what is consumed behind the head. -/
lemma finishParse_done {s : HttpParseState} {cur len : ℕ} (hle : cur ≤ len)
    (h : (finishParse s cur len).1 = .done) :
    (∃ k ≤ len, (finishParse s cur len).2 = { settle s cur with parsedBytes := k }) ∧
      cur + (settledLength s).toNat ≤ len := by
  have hpos := settledLength_pos_iff s
  rw [finishParse_eq] at h ⊢
  by_cases hp : 0 < s.contentLength
  · have heq : settledLength s = s.contentLength := by
      rw [settledLength, if_neg (by omega)]
    rw [if_pos hp] at h ⊢
    by_cases ha : len - cur < s.contentLength.toNat
    · rw [if_pos ha] at h
      exact absurd h (by simp)
    · rw [if_neg ha]
      exact ⟨⟨cur + s.contentLength.toNat, by omega, rfl⟩, by omega⟩
  · rw [if_neg hp]
    exact ⟨⟨cur, hle, rfl⟩, by omega⟩

lemma finishParse_ne_error (s : HttpParseState) (cur len : ℕ) :
    (finishParse s cur len).1 ≠ .error := by
  rw [finishParse_eq]
  split
  · split <;> simp
  · simp

/-- **What an accepted text leaves**: its lines are acceptable, the state is the
settled one of the lines, and the body is there. -/
lemma Head.of_done {data line rest : List UInt8} {ls : List (List UInt8)}
    (h : Head data line ls rest) (hd : (parseFresh data).1 = .done) :
    Acceptable line ls ∧ ∃ cur k, 2 ≤ cur ∧ k ≤ data.length ∧
      (parseFresh data).2 = { settle (headState line ls) cur with parsedBytes := k } ∧
      cur + (settledLength (headState line ls)).toNat ≤ data.length := by
  have hacc : Acceptable line ls := by
    by_contra hacc
    rw [h.parse_error hacc] at hd
    simp at hd
  have hlen := h.length_eq
  have htwo : 2 ≤ headLength line ls := by
    rw [headLength]
    omega
  have hp := h.parse hacc
  refine ⟨hacc, ?_⟩
  by_cases hnil : rest = []
  · rw [if_pos hnil] at hp
    rw [hp] at hd ⊢
    obtain ⟨⟨k, hle, hk⟩, hbody⟩ := finishParse_done (by omega) hd
    exact ⟨_, k, htwo, hle, hk, hbody⟩
  · rw [if_neg hnil] at hp
    by_cases hblank : findPair cr lf rest = some 0
    · have hrest : 2 ≤ rest.length := by
        have heq := (Lines.eq_of_findPair hblank).1
        rw [heq]
        simp
      rw [if_pos hblank] at hp
      rw [hp] at hd ⊢
      obtain ⟨⟨k, hle, hk⟩, hbody⟩ := finishParse_done (by omega) hd
      exact ⟨_, k, by omega, hle, hk, hbody⟩
    · rw [hp, if_neg hblank] at hd
      simp at hd

/-- A text that is accepted has a head. -/
lemma exists_head_of_done {data : List UInt8} (hd : (parseFresh data).1 = .done) :
    ∃ k ls rest, Head data (data.take k) ls rest := by
  cases hf : findCrlf data with
  | none => simp [parseFresh, httpParseRequest, hf] at hd
  | some k => exact ⟨k, exists_head hf⟩

lemma done_parsedBytes_le {data : List UInt8} (hd : (parseFresh data).1 = .done) :
    (parseFresh data).2.parsedBytes ≤ data.length := by
  obtain ⟨k, ls, rest, hhead⟩ := exists_head_of_done hd
  obtain ⟨-, cur, m, -, hle, hstate, -⟩ := hhead.of_done hd
  rw [hstate]
  exact hle

lemma done_body_le {data : List UInt8} (hd : (parseFresh data).1 = .done) :
    (parseFresh data).2.bodyOffset + (parseFresh data).2.contentLength.toNat ≤ data.length := by
  obtain ⟨k, ls, rest, hhead⟩ := exists_head_of_done hd
  obtain ⟨-, cur, m, -, -, hstate, hbody⟩ := hhead.of_done hd
  rw [hstate]
  exact hbody

/-! ### Sizes -/

/-- Name and value of a header are parts of a line. -/
lemma length_le_of_mem_lineHeaders {cur : ℕ} {ls : List (List UInt8)} {h : HttpHeader}
    (hh : h ∈ lineHeaders cur ls) :
    h.name.bytes.length ≤ (joinLines cr lf ls).length ∧
      h.value.bytes.length ≤ (joinLines cr lf ls).length := by
  induction ls generalizing cur with
  | nil => simp [lineHeaders] at hh
  | cons l ls ih =>
    rw [lineHeaders, List.mem_cons] at hh
    rw [Lines.joinLines_cons, List.length_append, List.length_cons, List.length_cons]
    rcases hh with rfl | hh
    · have h1 := (strTrim_isInfix ⟨.buf cur, l.take (l.findIdx (· == 58))⟩).length_le
      have h2 := (strTrim_isInfix
        ⟨.buf (cur + l.findIdx (· == 58) + 1), l.drop (l.findIdx (· == 58) + 1)⟩).length_le
      simp only [List.length_take, List.length_drop] at h1 h2
      rw [lineHeader]
      simp only
      omega
    · obtain ⟨h1, h2⟩ := ih hh
      omega

lemma parseRequestLine_uri_le {s s1 : HttpParseState} {line : List UInt8}
    (h : parseRequestLine s line = some s1) : s1.uri.bytes.length ≤ line.length := by
  obtain ⟨method, target, ver, _, _, rfl, -, -, rfl, -⟩ := parseRequestLine_eq_some h
  simp only [List.length_append, List.length_cons]
  omega

/-- **What is parsed is no longer than the text**: at most 64 headers, and the
target, every name and every value no longer than the text. -/
lemma done_sizes {data : List UInt8} (hd : (parseFresh data).1 = .done) :
    (parseFresh data).2.headers.length ≤ npMaxHeaders ∧
    (∀ h ∈ (parseFresh data).2.headers,
      h.name.bytes.length ≤ data.length ∧ h.value.bytes.length ≤ data.length) ∧
    (parseFresh data).2.uri.bytes.length ≤ data.length := by
  obtain ⟨k, ls, rest, hhead⟩ := exists_head_of_done hd
  obtain ⟨hacc, cur, m, -, -, hstate, -⟩ := hhead.of_done hd
  obtain ⟨hheaders, -, -⟩ := hacc.headState_fields
  have hlen := hhead.length_eq
  rw [headLength] at hlen
  rw [hstate]
  simp only [settle, hheaders]
  refine ⟨by simpa using hacc.2.2, ?_, ?_⟩
  · intro h hh
    obtain ⟨h1, h2⟩ := length_le_of_mem_lineHeaders hh
    omega
  · obtain ⟨s1, hs1⟩ := Option.isSome_iff_exists.mp hacc.1
    have huri := parseRequestLine_uri_le hs1
    obtain ⟨-, -, -, -, i5, -⟩ :=
      storeHeaders_fields s1 (lineHeaders ((data.take k).length + 2) ls)
    rw [headState, hs1]
    simp only [i5]
    omega

/-! ### What is stored -/

lemma cr_ne_lf : cr ≠ lf := by decide

/-- A header as the parser stores it: name and value are parts of one line, the name in
front of its first colon, and are trimmed. -/
structure HttpHeader.Stored (h : HttpHeader) : Prop where
  name_colon : 58 ∉ h.name.bytes
  name_isLine : IsLine cr lf h.name.bytes
  value_isLine : IsLine cr lf h.value.bytes
  name_trimmed : Trimmed h.name.bytes
  value_trimmed : Trimmed h.value.bytes

lemma lineHeader_stored {l : List UInt8} (hl : IsLine cr lf l) (cur : ℕ) :
    (lineHeader cur l).Stored := by
  have hname : (lineHeader cur l).name.bytes <:+: l :=
    (strTrim_isInfix _).trans (List.take_prefix _ _).isInfix
  have hvalue : (lineHeader cur l).value.bytes <:+: l :=
    (strTrim_isInfix _).trans (List.drop_suffix _ _).isInfix
  refine ⟨fun hmem => ?_, hl.of_infix cr_ne_lf hname, hl.of_infix cr_ne_lf hvalue,
    strTrim_trimmed _, strTrim_trimmed _⟩
  have hbefore : 58 ∈ l.takeWhile (· != 58) := by
    rw [List.takeWhile_eq_take_findIdx_not]
    simpa [bne] using (strTrim_isInfix _).subset hmem
  simpa using List.mem_takeWhile_imp hbefore

lemma stored_of_mem_lineHeaders {ls : List (List UInt8)} (hls : ∀ l ∈ ls, IsLine cr lf l) {cur : ℕ}
    {h : HttpHeader} (hh : h ∈ lineHeaders cur ls) : h.Stored := by
  induction ls generalizing cur with
  | nil => simp [lineHeaders] at hh
  | cons l ls ih =>
    rw [lineHeaders, List.mem_cons] at hh
    rcases hh with rfl | hh
    · exact lineHeader_stored (hls l (by simp)) cur
    · exact ih (fun m hm => hls m (by simp [hm])) hh

/-- **What is accepted**: a request line with a method and a target that have no blank,
and stored headers, which decide about the body. -/
structure Accepted (data method target : List UInt8) (ps : HttpParseState) : Prop where
  text : ∃ rest, data = method ++ 32 :: (target ++ 32 :: rest)
  method_sp : 32 ∉ method
  target_sp : 32 ∉ target
  target_isLine : IsLine cr lf target
  method_eq : ps.method = parseMethod method
  uri : ps.uri.bytes = target
  stored : ∀ h ∈ ps.headers, h.Stored
  chunked : ps.chunked = ps.headers.any isChunked
  length : ps.contentLength.toNat = (declaredLength (-1) ps.headers).toNat

lemma accepted_of_done {data : List UInt8} (hd : (parseFresh data).1 = .done) :
    ∃ method target, Accepted data method target (parseFresh data).2 := by
  obtain ⟨k, ls, rest, hhead⟩ := exists_head_of_done hd
  obtain ⟨hacc, cur, m, -, -, hstate, -⟩ := hhead.of_done hd
  obtain ⟨hheaders, hlength, hchunked⟩ := hacc.headState_fields
  obtain ⟨s1, hs1⟩ := Option.isSome_iff_exists.mp hacc.1
  obtain ⟨-, -, -, i4, i5, -⟩ :=
    storeHeaders_fields s1 (lineHeaders ((data.take k).length + 2) ls)
  have hline : (headState (data.take k) ls).method = s1.method ∧
      (headState (data.take k) ls).uri = s1.uri := by
    rw [headState, hs1]
    exact ⟨i4, i5⟩
  obtain ⟨method, target, ver, ptr, v, hsplit, hmethod, htarget, rfl, -⟩ :=
    parseRequestLine_eq_some hs1
  have hpos := settledLength_pos_iff (headState (data.take k) ls)
  refine ⟨method, target, ⟨ver ++ cr :: lf :: (joinLines cr lf ls ++ rest), ?_⟩, hmethod,
    htarget, ?_, ?_, ?_, ?_, ?_, ?_⟩
  · nth_rewrite 1 [hhead.eq, hsplit]
    simp
  · refine hhead.isLine.of_infix cr_ne_lf ?_
    rw [hsplit]
    exact ⟨method ++ [32], 32 :: ver, by simp⟩
  · rw [hstate]
    exact hline.1
  · rw [hstate]
    exact congrArg Str.bytes hline.2
  · rw [hstate]
    simp only [settle, hheaders]
    exact fun h hh => stored_of_mem_lineHeaders (fun l hl => (hhead.lines l hl).2) hh
  · rw [hstate]
    simp only [settle, hheaders, hchunked]
  · rw [hstate]
    simp only [settle, hheaders]
    rw [← hlength, settledLength]
    split <;> omega

end Nproxy
