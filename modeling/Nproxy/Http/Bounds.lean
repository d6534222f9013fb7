import Nproxy.Http.Head
import Nproxy.Http.Request
import Nproxy.Lib.Scan

/-!
The request parser stays inside the text.

`parseAt` is `http_parse_request` with its pointers as offsets: every byte is read through
a checked scan, every difference of pointers must not be negative, and the arithmetic of
the body is that of `usize`. It has a result for every text, and that is the result of
`parseFresh`, the parser over lists.

* `Str.Within s data`: a slice that is unset, or a range of the text.
* `Within data s`: so are all slices of a parser state, and there are at most 64 headers.
* `parser_stays_inside`: the parser never reads outside, all its slices are inside, and the
  body of an accepted request is the text from `body_offset` to `parsed_bytes`.
-/

namespace Nproxy

open Memory

/-! ### The parser with its pointers -/

/-- `str_trim` of the slice of `n` bytes at `off`. -/
def trimAt (data : List UInt8) (off n : ℕ) : Option Str := do
  let (off, n) ← skipFront data isspace n off
  let n ← skipBack data isspace off n
  let text ← load data off n
  return ⟨.buf off, text⟩

/-- The request line, which ends at `lineEnd`: `false` is `PARSE_ERROR`. -/
def requestLineAt (data : List UInt8) (s : HttpParseState) (lineEnd : ℕ) :
    Option (Bool × HttpParseState) := do
  match ← scan data (· == 32) lineEnd 0 with
  | none => return (false, s)
  | some sp1 =>
    let method ← load data 0 sp1
    let s := { s with method := parseMethod method }
    let cur := sp1 + 1
    match ← scan data (· == 32) (← diff lineEnd cur) cur with
    | none => return (false, s)
    | some sp2 =>
      let uri ← load data cur (← diff sp2 cur)
      let s := { s with uri := ⟨.buf cur, uri⟩ }
      let cur := sp2 + 1
      let ver ← load data cur (← diff lineEnd cur)
      if ver = bytes "HTTP/1.1" then return (true, { s with version := .http11 })
      else if ver = bytes "HTTP/1.0" then return (true, { s with version := .http10 })
      else return (false, s)

/-- A header line, from `cur` to `lineEnd`: `false` is `PARSE_ERROR`. -/
def headerLineAt (data : List UInt8) (s : HttpParseState) (cur lineEnd : ℕ) :
    Option (Bool × HttpParseState) := do
  match ← scan data (· == 58) (← diff lineEnd cur) cur with
  | none => return (false, s)
  | some colon =>
    if s.headers.length ≥ npMaxHeaders then return (false, s)
    else
      let name ← trimAt data cur (← diff colon cur)
      let value ← trimAt data (colon + 1) (← diff lineEnd (colon + 1))
      return (true, storeHeader s name value)

/-- The loop over the header lines; it has no result if its rounds run out. -/
def headerLoopAt (data : List UInt8) : ℕ → HttpParseState → ℕ → Option LoopExit
  | 0, _, _ => none
  | rounds + 1, s, cur =>
    if cur < data.length then do
      match ← scanPair data cr lf (← diff data.length cur) cur with
      | none => return .stop .incomplete s
      | some lineEnd =>
        if lineEnd = cur then return .leave s (cur + 2)
        else
          match ← headerLineAt data s cur lineEnd with
          | (false, s) => return .stop .error s
          | (true, s) => headerLoopAt data rounds s (lineEnd + 2)
    else some (.leave s cur)

/-- What follows the loop, in the arithmetic of `usize`. -/
def finishAt (s : HttpParseState) (cur len : UInt64) : ParseResult × HttpParseState :=
  let s := if s.hasConnectionHeader then s
    else { s with keepAlive := s.version = .http11 }
  let s := if s.version = .http11 ∧ s.chunked = false ∧ s.contentLength < 0 then
    { s with contentLength := 0 } else s
  let s := { s with bodyOffset := cur.toNat, parsedBytes := cur.toNat }
  if s.contentLength > 0 then
    let bodyAvail := len - cur
    if bodyAvail < UInt64.ofInt s.contentLength then (.incomplete, s)
    else (.done, { s with parsedBytes := (cur + UInt64.ofInt s.contentLength).toNat })
  else (.done, s)

/-- `http_parse_request`, on a state that `http_parse_state_init` has set. -/
def parseAt (data : List UInt8) : Option (ParseResult × HttpParseState) := do
  match ← scanPair data cr lf data.length 0 with
  | none => return (.incomplete, httpParseStateInit)
  | some lineEnd =>
    match ← requestLineAt data httpParseStateInit lineEnd with
    | (false, s) => return (.error, s)
    | (true, s) =>
      match ← headerLoopAt data (data.length + 1) s (lineEnd + 2) with
      | .stop r s => return (r, s)
      | .leave s cur => return finishAt s (UInt64.ofNat cur) (UInt64.ofNat data.length)

/-- The body that `request_populate` sets, with its check in the arithmetic of `usize`. -/
def bodyAt (s : HttpParseState) (data : List UInt8) : Option Str :=
  if s.contentLength > 0 ∧
      UInt64.ofNat s.bodyOffset + UInt64.ofInt s.contentLength ≤ UInt64.ofNat data.length then
    (load data s.bodyOffset s.contentLength.toNat).map fun text => ⟨.buf s.bodyOffset, text⟩
  else some .null

/-! ### Each stage is the one over lists -/

section Stages

variable {data : List UInt8}

/-- `str_trim` reads inside its slice, and leaves a part of it. -/
lemma trimAt_eq {off n : ℕ} (h : off + n ≤ data.length) :
    trimAt data off n = some (strTrim ⟨.buf off, slice data off (off + n)⟩) := by
  set text := slice data off (off + n) with htext
  have hfront : text = text.takeWhile isspace ++ text.dropWhile isspace ++ [] := by
    rw [List.append_nil, List.takeWhile_append_dropWhile]
  have hback : text = text.takeWhile isspace ++ (text.dropWhile isspace).rdropWhile isspace ++
      (text.dropWhile isspace).rtakeWhile isspace := by
    rw [List.append_assoc, List.rdropWhile_append_rtakeWhile, List.takeWhile_append_dropWhile]
  have hlen : text.length = n := by rw [htext, length_slice h, Nat.add_sub_cancel_left]
  have hend : off + (text.takeWhile isspace).length + (text.dropWhile isspace).length
      ≤ data.length := by
    have := congrArg List.length hfront
    rw [List.append_nil, List.length_append] at this
    omega
  have hdrop := slice_middle (htext.symm.trans hfront)
  have htrim := slice_middle (htext.symm.trans hback)
  have hle := (List.rdropWhile_prefix isspace (text.dropWhile isspace)).length_le
  rw [trimAt, skipFront_eq isspace h, ← htext]
  simp only [Option.bind_eq_bind, Option.bind_some]
  rw [skipBack_eq isspace hend, hdrop, Option.bind_some, load_eq (by omega), htrim]
  rfl

/-- The bytes of a line from an offset on. -/
lemma drop_take_eq_slice (a b : ℕ) : (data.take b).drop a = slice data a b := by
  rw [List.drop_take, slice]

lemma memchr_lt {l : List UInt8} {c : UInt8} {n : ℕ} (h : memchr l c = some n) : n < l.length :=
  (List.findIdx?_eq_some_iff_findIdx_eq.mp h).1

lemma scan_eq_memchr (c : UInt8) {cur stop : ℕ} (hcur : cur ≤ stop) (hstop : stop ≤ data.length) :
    scan data (· == c) (stop - cur) cur
      = some ((memchr (slice data cur stop) c).map (cur + ·)) := by
  rw [scan_eq _ (by omega), Nat.add_sub_cancel' hcur]
  rfl

lemma scanPair_eq_findCrlf {cur : ℕ} (hcur : cur ≤ data.length) :
    scanPair data cr lf (data.length - cur) cur
      = some ((findCrlf (data.drop cur)).map (cur + ·)) := by
  have hall : slice data cur data.length = data.drop cur := by
    rw [slice, List.take_of_length_le (by rw [List.length_drop])]
  rw [scanPair_eq _ _ (by omega), Nat.add_sub_cancel' hcur, hall]
  rfl

end Stages

/-! ### Slices inside the text -/

/-- A slice that is unset, or a range of the text. -/
def Str.Within (s : Str) (data : List UInt8) : Prop :=
  s = .null ∨ ∃ off, s.ptr = .buf off ∧ off + s.len ≤ data.length ∧
    s.bytes = slice data off (off + s.len)

/-- All slices of a parser state are inside the text, the headers are inside their array, and the
length of the body is one that `i64` has. -/
structure Within (data : List UInt8) (s : HttpParseState) : Prop where
  uri : s.uri.Within data
  headers : ∀ h ∈ s.headers, h.name.Within data ∧ h.value.Within data
  upgradeProtocol : s.upgradeProtocol.Within data
  headerCount : s.headers.length ≤ npMaxHeaders
  contentLength : s.contentLength < 2 ^ 63

section Stages

variable {data : List UInt8} {s : HttpParseState}

lemma within_init (data : List UInt8) : Within data httpParseStateInit where
  uri := .inl rfl
  headers := by simp [httpParseStateInit]
  upgradeProtocol := .inl rfl
  headerCount := Nat.zero_le _
  contentLength := by decide

lemma within_slice {off n : ℕ} (h : off + n ≤ data.length) :
    Str.Within ⟨.buf off, slice data off (off + n)⟩ data := by
  have hlen : (Str.mk (.buf off) (slice data off (off + n))).len = n := by
    rw [Str.len, length_slice h, Nat.add_sub_cancel_left]
  exact .inr ⟨off, rfl, by rw [hlen]; exact h, by rw [hlen]⟩

/-- A slice that was loaded is inside. -/
lemma within_of_trimAt {off n : ℕ} {x : Str} (h : trimAt data off n = some x) : x.Within data := by
  simp only [trimAt, Option.bind_eq_bind, Option.bind_eq_some_iff] at h
  obtain ⟨⟨o, _⟩, -, m, -, text, hload, hx⟩ := h
  obtain rfl := Option.some.inj hx
  rw [load] at hload
  split_ifs at hload with hle
  obtain rfl := Option.some.inj hload
  exact within_slice hle

/-- **The request line** is read inside the text, and its target is inside. -/
lemma requestLineAt_eq (hs : Within data s) {lineEnd : ℕ} (hend : lineEnd ≤ data.length) :
    ∃ ok s', requestLineAt data s lineEnd = some (ok, s') ∧ Within data s' ∧
      parseRequestLine s (data.take lineEnd) = if ok then some s' else none := by
  have hline : slice data 0 lineEnd = data.take lineEnd := by rw [slice]; rfl
  have hscan := scan_eq_memchr 32 (Nat.zero_le lineEnd) hend
  rw [hline, Nat.sub_zero] at hscan
  rw [requestLineAt, hscan, parseRequestLine]
  cases hsp1 : memchr (data.take lineEnd) 32 with
  | none => exact ⟨false, s, rfl, hs, rfl⟩
  | some sp1 =>
    have hlt := memchr_lt hsp1
    rw [List.length_take] at hlt
    have hcur : sp1 + 1 ≤ lineEnd := by omega
    have hmethod : load data 0 sp1 = some ((data.take lineEnd).take sp1) := by
      rw [load_eq (by omega), slice, Nat.zero_add, Nat.sub_zero, List.drop_zero, List.take_take,
        min_eq_left (by omega)]
    simp only [Option.map_some, Nat.zero_add, Option.bind_eq_bind, Option.bind_some, hmethod,
      diff_eq hcur, scan_eq_memchr 32 hcur hend, drop_take_eq_slice]
    cases hsp2 : memchr (slice data (sp1 + 1) lineEnd) 32 with
    | none => exact ⟨false, _, rfl, { hs with }, rfl⟩
    | some n =>
      have hlt2 := memchr_lt hsp2
      rw [length_slice hend] at hlt2
      have hver : sp1 + 1 + n + 1 ≤ lineEnd := by omega
      have huri : (slice data (sp1 + 1) lineEnd).take n = slice data (sp1 + 1) (sp1 + 1 + n) := by
        rw [slice, slice, List.take_take, Nat.add_sub_cancel_left, min_eq_left (by omega)]
      have hin : sp1 + 1 + n ≤ data.length := by omega
      have hwithin : ∀ v, Within data { s with
          method := parseMethod ((data.take lineEnd).take sp1)
          uri := ⟨.buf (sp1 + 1), slice data (sp1 + 1) (sp1 + 1 + n)⟩
          version := v } := fun v => { hs with uri := within_slice hin }
      simp only [Option.map_some, Option.bind_some, diff_eq (Nat.le_add_right (sp1 + 1) n),
        Nat.add_sub_cancel_left, load_eq hin, diff_eq hver, huri,
        load_eq (show sp1 + 1 + n + 1 + (lineEnd - (sp1 + 1 + n + 1)) ≤ data.length by omega),
        Nat.add_sub_cancel' hver]
      split_ifs
      · exact ⟨true, _, rfl, hwithin _, rfl⟩
      · exact ⟨true, _, rfl, hwithin _, rfl⟩
      · exact ⟨false, _, rfl, hwithin _, rfl⟩

lemma strtoll_lt (buf : List UInt8) : (strtoll buf).1 < 2 ^ 63 := by
  rw [strtoll]
  dsimp only
  generalize (List.takeWhile isdigit _ : List UInt8) = digits
  split_ifs
  · norm_num
  all_goals
    rw [max_lt_iff, llongMin, llongMax]
    exact ⟨by norm_num, lt_of_le_of_lt (min_le_left _ _) (by norm_num)⟩

/-- `str_to_int` gives an `i64`. -/
lemma strToInt_lt {v : Str} {n : ℤ} (h : strToInt v = some n) : n < 2 ^ 63 := by
  rw [strToInt] at h
  dsimp only at h
  split_ifs at h
  rw [← Option.some.inj h]
  exact strtoll_lt _

lemma Within.storeHeader (hs : Within data s) (hroom : s.headers.length < npMaxHeaders)
    {name value : Str} (hname : name.Within data) (hvalue : value.Within data) :
    Within data (storeHeader s name value) := by
  have hstored : Within data { s with headers := s.headers ++ [⟨name, value⟩] } := by
    refine { hs with headers := fun h hh => ?_, headerCount := ?_ }
    · rcases List.mem_append.mp hh with hold | hnew
      · exact hs.headers h hold
      · rw [List.mem_singleton.mp hnew]
        exact ⟨hname, hvalue⟩
    · rw [List.length_append, List.length_singleton]
      exact hroom
  rw [Nproxy.storeHeader]
  simp only
  split_ifs
  · cases hint : strToInt value with
    | none => exact hstored
    | some cl => exact { hstored with contentLength := strToInt_lt hint }
  · exact { hstored with }
  · exact hstored
  · exact { hstored with }
  · exact { hstored with }
  · exact { hstored with upgradeProtocol := hvalue }
  · exact hstored

/-- **A header line** is read inside the text, and its name and value are inside. -/
lemma headerLineAt_eq (hs : Within data s) {cur lineEnd : ℕ} (hcur : cur ≤ lineEnd)
    (hend : lineEnd ≤ data.length) :
    ∃ ok s', headerLineAt data s cur lineEnd = some (ok, s') ∧ Within data s' ∧
      headerLine s cur (slice data cur lineEnd) = (if ok then some s' else none) ∧
      (ok = false → s' = s) := by
  rw [headerLineAt, headerLine]
  simp only [diff_eq hcur, Option.bind_eq_bind, Option.bind_some, scan_eq_memchr 58 hcur hend]
  cases hcolon : memchr (slice data cur lineEnd) 58 with
  | none => exact ⟨false, s, rfl, hs, rfl, fun _ => rfl⟩
  | some n =>
    have hlt := memchr_lt hcolon
    rw [length_slice hend] at hlt
    by_cases hfull : s.headers.length ≥ npMaxHeaders
    · simp only [Option.map_some, if_pos hfull]
      exact ⟨false, s, rfl, hs, rfl, fun _ => rfl⟩
    · have hname : (slice data cur lineEnd).take n = slice data cur (cur + n) := by
        rw [slice, slice, List.take_take, Nat.add_sub_cancel_left, min_eq_left (by omega)]
      have hrest : cur + n + 1 + (lineEnd - (cur + n + 1)) ≤ data.length := by omega
      have htrim := trimAt_eq (show cur + n ≤ data.length by omega)
      have htrim' := trimAt_eq hrest
      rw [Nat.add_sub_cancel' (show cur + n + 1 ≤ lineEnd by omega)] at htrim'
      simp only [Option.map_some, if_neg hfull, diff_eq (Nat.le_add_right cur n),
        Nat.add_sub_cancel_left, Option.bind_some, htrim,
        diff_eq (show cur + n + 1 ≤ lineEnd by omega), htrim', hname, drop_slice,
        ← Nat.add_assoc]
      exact ⟨true, _, rfl, hs.storeHeader (not_le.mp hfull) (within_of_trimAt htrim)
        (within_of_trimAt htrim'), rfl, fun h => absurd h (by decide)⟩

/-- **The loop over the header lines** reads inside the text, ends, and is the one over lists. -/
lemma headerLoopAt_eq (rounds : ℕ) (hs : Within data s) {cur : ℕ} (hcur : cur ≤ data.length)
    (hrounds : data.length - cur < rounds) :
    headerLoopAt data rounds s cur = some (headerLoop rounds s cur (data.drop cur)) ∧
      match headerLoop rounds s cur (data.drop cur) with
      | .stop r s' => Within data s' ∧ r ≠ .done
      | .leave s' cur' => Within data s' ∧ cur' ≤ data.length := by
  induction rounds generalizing s cur with
  | zero => exact absurd hrounds (Nat.not_lt_zero _)
  | succ rounds ih =>
    rw [headerLoopAt, headerLoop]
    rcases Nat.eq_or_lt_of_le hcur with hend | hlt
    · rw [if_neg (by omega), if_pos (List.drop_eq_nil_of_le (by omega))]
      exact ⟨rfl, hs, hcur⟩
    · have hne : data.drop cur ≠ [] := by
        rw [Ne, List.drop_eq_nil_iff]
        omega
      rw [if_pos hlt, if_neg hne]
      simp only [diff_eq hcur, Option.bind_eq_bind, Option.bind_some, scanPair_eq_findCrlf hcur]
      cases hfind : findCrlf (data.drop cur) with
      | none => exact ⟨rfl, hs, by decide⟩
      | some n =>
        have hin := (Lines.eq_of_findPair hfind).2
        rw [List.length_drop] at hin
        simp only [Option.map_some]
        cases n with
        | zero =>
          rw [if_pos (Nat.add_zero cur)]
          exact ⟨rfl, hs, by omega⟩
        | succ n =>
          have hline : (data.drop cur).take (n + 1) = slice data cur (cur + (n + 1)) := by
            rw [slice, Nat.add_sub_cancel_left]
          obtain ⟨ok, s', hat, hs', hlist, herr⟩ := headerLineAt_eq hs
            (Nat.le_add_right cur (n + 1)) (show cur + (n + 1) ≤ data.length by omega)
          -- the line is read through pointers, and as a list, with the same result
          rw [if_neg (by omega), hat]
          simp only [Option.bind_some, hline, hlist]
          cases ok with
          | false =>
            obtain rfl := herr rfl
            exact ⟨rfl, hs, by decide⟩
          | true =>
            rw [List.drop_drop]
            exact ih hs' (by omega) (by omega)

/-- `(usize)s->content_length`, where it is positive. -/
lemma toNat_ofInt_of_pos {n : ℤ} (hpos : 0 < n) (h : n < 2 ^ 63) :
    (UInt64.ofInt n).toNat = n.toNat := by
  rw [UInt64.ofInt, UInt64.toNat_ofNat']
  omega

lemma finishAt_settle (s : HttpParseState) (cur len : UInt64) :
    finishAt s cur len =
      if 0 < s.contentLength then
        if len - cur < UInt64.ofInt s.contentLength then (.incomplete, settle s cur.toNat)
        else (.done, { settle s cur.toNat with
          parsedBytes := (cur + UInt64.ofInt s.contentLength).toNat })
      else (.done, settle s cur.toNat) := by
  rw [finishAt, settle, settledLength]
  by_cases hc : s.hasConnectionHeader = true <;>
  by_cases hv : s.version = .http11 ∧ s.chunked = false ∧ s.contentLength < 0
  · have : ¬0 < s.contentLength := by omega
    simp [hc, hv, this]
  · by_cases hp : 0 < s.contentLength <;> simp [hc, hv, hp]
  · have : ¬0 < s.contentLength := by omega
    simp [hc, hv, this]
  · by_cases hp : 0 < s.contentLength <;> simp [hc, hv, hp]

/-- **The end of the parse** does not wrap around. -/
lemma finishAt_eq (hs : s.contentLength < 2 ^ 63) {cur len : ℕ} (hcur : cur ≤ len)
    (hlen : len < 2 ^ 64) :
    finishAt s (UInt64.ofNat cur) (UInt64.ofNat len) = finishParse s cur len := by
  have hcur64 : (UInt64.ofNat cur).toNat = cur :=
    UInt64.toNat_ofNat_of_lt' (hcur.trans_lt hlen)
  have hlen64 : (UInt64.ofNat len).toNat = len := UInt64.toNat_ofNat_of_lt' hlen
  have havail : (UInt64.ofNat len - UInt64.ofNat cur).toNat = len - cur := by
    rw [UInt64.toNat_sub_of_le _ _ (by rw [UInt64.le_iff_toNat_le, hcur64, hlen64]; exact hcur),
      hcur64, hlen64]
  rw [finishAt_settle, finishParse_eq, hcur64]
  by_cases hpos : 0 < s.contentLength
  · have hcl := toNat_ofInt_of_pos hpos hs
    have hlt : UInt64.ofNat len - UInt64.ofNat cur < UInt64.ofInt s.contentLength ↔
        len - cur < s.contentLength.toNat := by rw [UInt64.lt_iff_toNat_lt, havail, hcl]
    rw [if_pos hpos, if_pos hpos]
    by_cases hshort : len - cur < s.contentLength.toNat
    · rw [if_pos hshort, if_pos (hlt.mpr hshort)]
    · rw [if_neg hshort, if_neg (mt hlt.mp hshort), UInt64.toNat_add, hcur64, hcl,
        Nat.mod_eq_of_lt (by omega)]
  · rw [if_neg hpos, if_neg hpos]

end Stages

/-! ### The whole parse -/

lemma Within.settle {data : List UInt8} {s : HttpParseState} (hs : Within data s) (cur k : ℕ) :
    Within data { settle s cur with parsedBytes := k } := by
  refine { hs with contentLength := ?_ }
  change settledLength s < 2 ^ 63
  rw [settledLength]
  split_ifs
  · norm_num
  · exact hs.contentLength

lemma Within.finishParse {data : List UInt8} {s : HttpParseState} (hs : Within data s)
    (cur len : ℕ) : Within data (finishParse s cur len).2 := by
  rw [finishParse_eq]
  split_ifs
  · exact hs.settle cur cur
  · exact hs.settle cur _
  · exact hs.settle cur cur

/-- An accepted text is parsed up to the end of its body. -/
lemma finishParse_parsedBytes {s : HttpParseState} {cur len : ℕ}
    (h : (finishParse s cur len).1 = .done) :
    (finishParse s cur len).2.parsedBytes =
      (finishParse s cur len).2.bodyOffset + (finishParse s cur len).2.contentLength.toNat := by
  have hpos := settledLength_pos_iff s
  rw [finishParse_eq] at h ⊢
  by_cases hp : 0 < s.contentLength
  · have heq : settledLength s = s.contentLength := by rw [settledLength, if_neg (by omega)]
    rw [if_pos hp] at h ⊢
    by_cases ha : len - cur < s.contentLength.toNat
    · rw [if_pos ha] at h
      exact absurd h (by simp)
    · rw [if_neg ha]
      change cur + s.contentLength.toNat = cur + (settledLength s).toNat
      rw [heq]
  · rw [if_neg hp]
    change cur = cur + (settledLength s).toNat
    omega

/-- The parser has a result for every text, with all slices inside, and it is the result of the
parser over lists. After an error the two leave different fields set. -/
lemma exists_parseAt {data : List UInt8} (hlen : data.length < 2 ^ 64) :
    ∃ r s, parseAt data = some (r, s) ∧ Within data s ∧ (parseFresh data).1 = r ∧
      (r ≠ .error → (parseFresh data).2 = s) ∧
      (r = .done → s.parsedBytes = s.bodyOffset + s.contentLength.toNat) := by
  have hscan := scanPair_eq_findCrlf (Nat.zero_le data.length)
  rw [Nat.sub_zero, List.drop_zero] at hscan
  rw [parseAt, hscan, parseFresh, httpParseRequest]
  simp only [Option.bind_eq_bind, Option.bind_some]
  cases hfind : findCrlf data with
  | none => exact ⟨_, _, rfl, within_init data, rfl, fun _ => rfl, fun h => absurd h (by decide)⟩
  | some lineEnd =>
    have hin := (Lines.eq_of_findPair hfind).2
    obtain ⟨ok, s, hat, hs, hlist⟩ := requestLineAt_eq (within_init data)
      (show lineEnd ≤ data.length by omega)
    simp only [Option.map_some, Nat.zero_add, hat, Option.bind_some, hlist]
    cases ok with
    | false => exact ⟨_, _, rfl, hs, rfl, fun h => absurd rfl h, fun h => absurd h (by decide)⟩
    | true =>
      obtain ⟨hloop, hafter⟩ := headerLoopAt_eq (data.length + 1) hs hin (by omega)
      simp only [hloop, Option.bind_some, if_true]
      cases hexit : headerLoop (data.length + 1) s (lineEnd + 2) (data.drop (lineEnd + 2)) with
      | stop r s' =>
        rw [hexit] at hafter
        exact ⟨_, _, rfl, hafter.1, rfl, fun _ => rfl, fun h => absurd h hafter.2⟩
      | leave s' cur =>
        rw [hexit] at hafter
        obtain ⟨hs', hcur⟩ := hafter
        simp only [finishAt_eq hs'.contentLength hcur hlen]
        exact ⟨_, _, rfl, hs'.finishParse _ _, rfl, fun _ => rfl, finishParse_parsedBytes⟩

/-- The body that is set is the text behind the head. -/
lemma bodyAt_eq {data : List UInt8} (hlen : data.length < 2 ^ 64) {s : HttpParseState}
    (hcl : s.contentLength < 2 ^ 63)
    (hbody : s.bodyOffset + s.contentLength.toNat ≤ data.length) :
    bodyAt s data = some (requestPopulate requestCreate s data).body ∧
      (requestPopulate requestCreate s data).body.bytes
        = slice data s.bodyOffset (s.bodyOffset + s.contentLength.toNat) := by
  rw [requestPopulate_body, bodyAt]
  by_cases hpos : s.contentLength > 0
  · have hoffset : s.bodyOffset < 2 ^ 64 := by omega
    have hfits : UInt64.ofNat s.bodyOffset + UInt64.ofInt s.contentLength
        ≤ UInt64.ofNat data.length := by
      rw [UInt64.le_iff_toNat_le, UInt64.toNat_add, UInt64.toNat_ofNat_of_lt' hoffset,
        toNat_ofInt_of_pos hpos hcl, UInt64.toNat_ofNat_of_lt' hlen, Nat.mod_eq_of_lt (by omega)]
      exact hbody
    rw [if_pos ⟨hpos, hfits⟩, if_pos ⟨hpos, hbody⟩, load_eq hbody, slice, Nat.add_sub_cancel_left]
    exact ⟨rfl, rfl⟩
  · rw [if_neg (fun h => hpos h.1), if_neg (fun h => hpos h.1),
      show s.contentLength.toNat = 0 by omega, Nat.add_zero, slice_self]
    exact ⟨rfl, rfl⟩

/-- **The parser stays inside the text.** For every text it has a result, so that it ends and
reads inside only; there are at most 64 headers, and all slices are inside. For an accepted text
`body_offset ≤ parsed_bytes ≤ len`, without a sum that wraps around, and the body of the request
is what stands between the two, which is nothing if `content_length` is not positive. -/
theorem parser_stays_inside (data : List UInt8) (hlen : data.length < 2 ^ 64) :
    ∃ r s, parseAt data = some (r, s) ∧
      (parseFresh data).1 = r ∧ (r ≠ .error → (parseFresh data).2 = s) ∧
      s.headers.length ≤ 64 ∧ s.uri.Within data ∧
      (∀ h ∈ s.headers, h.name.Within data ∧ h.value.Within data) ∧
      s.upgradeProtocol.Within data ∧
      (r = .done →
        s.bodyOffset ≤ s.parsedBytes ∧ s.parsedBytes ≤ data.length ∧
        s.parsedBytes = s.bodyOffset + s.contentLength.toNat ∧
        bodyAt s data = some (requestPopulate requestCreate s data).body ∧
        (requestPopulate requestCreate s data).body.bytes
          = slice data s.bodyOffset s.parsedBytes ∧
        (s.contentLength ≤ 0 → (requestPopulate requestCreate s data).body.bytes = [])) := by
  obtain ⟨r, s, hparse, hs, hr, hstate, hbytes⟩ := exists_parseAt hlen
  refine ⟨r, s, hparse, hr, hstate, hs.headerCount, hs.uri, hs.headers, hs.upgradeProtocol,
    fun hdone => ?_⟩
  obtain rfl := hstate (by rw [hdone]; decide)
  have hle := done_body_le (hr.trans hdone)
  have hsum := hbytes hdone
  obtain ⟨hbody, htext⟩ := bodyAt_eq hlen hs.contentLength hle
  rw [← hsum] at htext hle
  refine ⟨by omega, hle, hsum, hbody, htext, fun hneg => ?_⟩
  rw [htext, hsum, show (parseFresh data).2.contentLength.toNat = 0 by omega, Nat.add_zero,
    slice_self]

/-- A request with a body of two bytes. -/
def postText : List UInt8 :=
  List.flatten [bytes "POST / HTTP/1.1", crlf, bytes "Content-Length: 2", crlf, crlf, bytes "hi"]

/-- The parse of a request with a body ends inside the text. -/
theorem parser_stays_inside_postText :
    ∃ s, parseAt postText = some (.done, s) ∧ s.bodyOffset ≤ s.parsedBytes ∧
      s.parsedBytes ≤ postText.length := by
  have hlen : postText.length < 2 ^ 64 :=
    lt_trans (show postText.length < 64 by decide) (by norm_num)
  have hdone : (parseFresh postText).1 = .done := by decide +kernel
  obtain ⟨r, s, hparse, hr, -, -, -, -, -, hbody⟩ := parser_stays_inside postText hlen
  obtain rfl := hr.symm.trans hdone
  exact ⟨s, hparse, (hbody rfl).1, (hbody rfl).2.1⟩

end Nproxy
