import Nproxy.Http.Response
import Nproxy.Http.RoundTrip

/-!
`features/access_log.c`: the line that is logged for a request.

`access_log_write` formats the line in an array of 1024 bytes and hands as many bytes to
`write` as `snprintf` returned, which is the length of the whole line.

* `logLine` is the whole line, `accessLogWrite` what is handed to `write`.
* `OneLine text out`: what is written was formatted, and its one newline is its last byte.
* `accessLog_oneLine_iff`: so it is, where anything is written, exactly if the fields have
  at most 997 bytes together and no newline is in the path.
-/

namespace Nproxy

/-! ### The line -/

/-- `struct timespec`. -/
structure Timespec where
  sec : Int64
  nsec : Int64

/-- `latency_us`. -/
def latencyUs (start stop : Timespec) : Int64 :=
  (stop.sec - start.sec) * 1000000 + (stop.nsec - start.nsec) / 1000

/-- `struct tm`, in its ranges. -/
structure Tm where
  mday : Fin 32
  mon : Fin 12
  year : ℤ
  hour : Fin 24
  min : Fin 60
  sec : Fin 61

/-- `%d`, `%H`, `%M` and `%S` of `strftime`. -/
def twoDigits (n : ℕ) : List UInt8 := if n < 10 then 48 :: decimal n else decimal n

/-- `%b` of `strftime`. -/
def monthName (m : Fin 12) : List UInt8 :=
  bytes (["Jan", "Feb", "Mar", "Apr", "May", "Jun", "Jul", "Aug", "Sep", "Oct", "Nov",
    "Dec"].get m)

/-- The time, in the format of the line. -/
def timeText (tm : Tm) : List UInt8 :=
  List.flatten [twoDigits tm.mday, bytes "/", monthName tm.mon, bytes "/", decimalInt tm.year,
    bytes ":", twoDigits tm.hour, bytes ":", twoDigits tm.min, bytes ":", twoDigits tm.sec,
    bytes " +0000"]

/-- The string in `tsbuf`. If `gmtime_r` gives no time, or the text does not fit, it is what was
there before. -/
def tsbuf (tm : Option Tm) (stale : List UInt8) : List UInt8 :=
  match tm with
  | none => cstr stale
  | some tm => if (timeText tm).length < 32 then timeText tm else cstr stale

/-- What `%.*s` prints of a slice: the length goes through an `int`, and a negative one is no
limit, so that what stands behind the slice is printed as well. -/
def printedStr (s : Str) (behind : List UInt8) : List UInt8 :=
  if (Int32.ofNat s.len).toInt < 0 then cstr (s.bytes ++ behind)
  else cstr (s.bytes.take (Int32.ofNat s.len).toInt.toNat)

/-- What the line is made of. -/
structure LogEntry where
  req : HttpRequest
  /-- What stands behind the path in memory. -/
  behind : List UInt8
  status : Int32
  nbytes : UInt64
  start : Timespec
  stop : Timespec
  tm : Option Tm
  /-- What was in `tsbuf`. -/
  stale : List UInt8

namespace LogEntry

/-- The path that is printed. -/
def path (e : LogEntry) : List UInt8 := printedStr e.req.path e.behind

/-- The timestamp, or what `tsbuf` held before if `strftime` gives none. -/
def stamp (e : LogEntry) : List UInt8 := tsbuf e.tm e.stale

/-- The line without its newline. -/
def text (e : LogEntry) : List UInt8 :=
  List.flatten [cstr e.req.remoteIp, bytes " - - [", e.stamp, bytes "] \"",
    httpMethodStr e.req.method, bytes " ", e.path, bytes " HTTP/1.",
    [if e.req.version = .http11 then 49 else 48], bytes "\" ", decimalInt e.status.toInt,
    bytes " ", decimal e.nbytes.toNat, bytes " ",
    decimalInt (latencyUs e.start e.stop).toInt, bytes "us"]

/-- The bytes of the fields. -/
def fieldBytes (e : LogEntry) : ℕ :=
  (cstr e.req.remoteIp).length + e.stamp.length + (httpMethodStr e.req.method).length +
    e.path.length + (decimalInt e.status.toInt).length + (decimal e.nbytes.toNat).length +
    (decimalInt (latencyUs e.start e.stop).toInt).length

end LogEntry

/-- The line that the format of `access_log_write` describes. -/
def logLine (e : LogEntry) : List UInt8 := e.text ++ [lf]

/-- `access_log_write`: what is handed to `write`, if anything is. The log may be closed, and
`snprintf` fails for a line that is longer than an `int` can say. -/
def accessLogWrite (accessFd : ℤ) (junk : ℕ → UInt8) (e : LogEntry) : Option (List UInt8) :=
  if accessFd < 0 ∨ ¬(logLine e).length ≤ 2147483647 then none
  else some (snprintfRead 1024 junk (logLine e))

/-! ### One line -/

/-- What is written was formatted in the array, and has one newline, at its end. -/
structure OneLine (text out : List UInt8) : Prop where
  formatted : out <+: text.take 1023
  newline : ∃ l, out = l ++ [lf] ∧ lf ∉ l

/-- The format has 26 bytes besides its fields. -/
lemma length_logLine (e : LogEntry) : (logLine e).length = e.fieldBytes + 26 := by
  have h1 : (bytes " - - [").length = 6 := by decide
  have h2 : (bytes "] \"").length = 3 := by decide
  have h3 : (bytes " ").length = 1 := by decide
  have h4 : (bytes " HTTP/1.").length = 8 := by decide
  have h5 : (bytes "\" ").length = 2 := by decide
  have h6 : (bytes "us").length = 2 := by decide
  simp only [logLine, LogEntry.text, LogEntry.fieldBytes, List.length_append, List.flatten_cons,
    List.flatten_nil, List.length_nil, List.length_singleton, h1, h2, h3, h4, h5, h6]
  ring

lemma lf_notMem_decimalInt (n : ℤ) : lf ∉ decimalInt n := fun h => by
  rcases mem_decimalInt h with h | h
  · exact absurd h (by decide)
  · exact absurd h (by decide)

lemma lf_notMem_twoDigits (n : ℕ) : lf ∉ twoDigits n := by
  rw [twoDigits]
  split_ifs
  · rw [List.mem_cons, not_or]
    exact ⟨by decide, lf_notMem_decimal n⟩
  · exact lf_notMem_decimal n

lemma lf_notMem_timeText (tm : Tm) : lf ∉ timeText tm := by
  have hmonth : ∀ m, lf ∉ monthName m := by decide
  simp only [timeText, List.mem_flatten, List.mem_cons, List.not_mem_nil, or_false]
  rintro ⟨l, hl, hmem⟩
  rcases hl with rfl | rfl | rfl | rfl | rfl | rfl | rfl | rfl | rfl | rfl | rfl | rfl
  · exact lf_notMem_twoDigits _ hmem
  · exact absurd hmem (by decide)
  · exact hmonth _ hmem
  · exact absurd hmem (by decide)
  · exact lf_notMem_decimalInt _ hmem
  · exact absurd hmem (by decide)
  · exact lf_notMem_twoDigits _ hmem
  · exact absurd hmem (by decide)
  · exact lf_notMem_twoDigits _ hmem
  · exact absurd hmem (by decide)
  · exact lf_notMem_twoDigits _ hmem
  · exact absurd hmem (by decide)

/-- A newline can only come from the path, and from a timestamp that did not fit. -/
lemma lf_mem_text_iff {e : LogEntry} (hip : lf ∉ cstr e.req.remoteIp) :
    lf ∈ e.text ↔ lf ∈ e.path ∨ lf ∈ e.stamp := by
  have hmethod : ∀ m, lf ∉ httpMethodStr m := by intro m; cases m <;> decide
  have hversion : lf ∉ [if e.req.version = .http11 then 49 else (48 : UInt8)] := by
    split_ifs <;> decide
  have hformat : lf ∉ bytes " - - [" ∧ lf ∉ bytes "] \"" ∧ lf ∉ bytes " " ∧
      lf ∉ bytes " HTTP/1." ∧ lf ∉ bytes "\" " ∧ lf ∉ bytes "us" := by decide
  simp only [LogEntry.text, List.flatten_cons, List.flatten_nil, List.mem_append, hip, hmethod,
    hversion, hformat, lf_notMem_decimal, lf_notMem_decimalInt, List.not_mem_nil, false_or,
    or_false]
  exact or_comm

/-- A line that fits is one line exactly if the newline at its end is the only one. -/
lemma oneLine_logLine_iff {e : LogEntry} (hfits : (logLine e).length ≤ 1023) :
    OneLine (logLine e) (logLine e) ↔ lf ∉ e.text := by
  constructor
  · rintro ⟨-, l, hl, hmem⟩
    rwa [← (List.append_inj' hl rfl).1] at hmem
  · intro hmem
    exact ⟨by rw [List.take_of_length_le hfits], e.text, rfl, hmem⟩

/-- **One request, one line.** What is handed to `write` was formatted, with one newline at its
end, exactly if nothing is written at all, or the fields have at most 997 bytes together and
neither the path nor the timestamp brings a newline. -/
theorem accessLog_oneLine_iff (accessFd : ℤ) (junk : ℕ → UInt8) (e : LogEntry) (peer : InAddr)
    (hpeer : e.req.remoteIp = inetNtop peer) :
    (∀ out, accessLogWrite accessFd junk e = some out → OneLine (logLine e) out) ↔
      accessFd < 0 ∨ 2147483647 < e.fieldBytes + 26 ∨
        (e.fieldBytes ≤ 997 ∧ lf ∉ e.path ∧ lf ∉ e.stamp) := by
  have hip : lf ∉ cstr e.req.remoteIp := fun h => by
    rw [hpeer] at h
    exact notMem_inetNtop peer (by decide) (by decide) ((cstr_isPrefix _).subset h)
  have hlen := length_logLine e
  rw [accessLogWrite]
  by_cases hnone : accessFd < 0 ∨ ¬(logLine e).length ≤ 2147483647
  · rw [if_pos hnone]
    exact iff_of_true (by simp) (hnone.imp_right fun h => .inl (by omega))
  · rw [if_neg hnone]
    obtain ⟨hfd, hint⟩ := not_or.mp hnone
    rw [or_iff_right hfd, or_iff_right (by omega)]
    simp only [Option.some.injEq, forall_eq']
    by_cases hfits : (logLine e).length ≤ 1023
    · rw [snprintfRead, if_pos (by omega), oneLine_logLine_iff hfits, lf_mem_text_iff hip, not_or]
      exact ⟨fun h => ⟨by omega, h⟩, fun h => h.2⟩
    · -- more bytes are handed over than the array has
      refine iff_of_false (fun h => ?_) (fun h => by omega)
      have hle := h.formatted.length_le
      rw [length_snprintfRead (by decide), List.length_take] at hle
      omega

/-! ### A short request and a long one -/

/-- The entry for the request of a local client, with nothing odd about it. -/
def localEntry (data : List UInt8) : LogEntry where
  req := { requestPopulate requestCreate (parseFresh data).2 data with
    remoteIp := inetNtop ⟨127, 0, 0, 1⟩ }
  behind := []
  status := 200
  nbytes := 0
  start := ⟨0, 0⟩
  stop := ⟨0, 47000⟩
  tm := some ⟨24, 1, 2026, 19, 16, 50⟩
  stale := []

lemma localEntry_path {n : ℕ} (hn : n < 2 ^ 31) :
    (localEntry (pathRequest n).render).path = List.replicate n 97 := by
  have hpath : (localEntry (pathRequest n).render).req.path.bytes = List.replicate n 97 :=
    path_pathRequest n
  have hlen : (localEntry (pathRequest n).render).req.path.len = n := by
    rw [Str.len, hpath, List.length_replicate]
  have hint : (Int32.ofNat n).toInt = n := Int32.toInt_ofNat_of_lt hn
  rw [LogEntry.path, printedStr, hlen, hint, if_neg (by omega), Int.toNat_natCast, hpath,
    List.take_replicate, Nat.min_self, cstr_replicate]

lemma localEntry_stamp (data : List UInt8) :
    (localEntry data).stamp = timeText ⟨24, 1, 2026, 19, 16, 50⟩ := by
  rw [LogEntry.stamp, localEntry, tsbuf, if_pos (by decide)]

lemma localEntry_fieldBytes {n : ℕ} (hn : n < 2 ^ 31) :
    (localEntry (pathRequest n).render).fieldBytes = n + 44 := by
  have hmethod : (localEntry (pathRequest n).render).req.method = .get :=
    (pathRequest_decodes n).method
  have hip : (cstr (localEntry (pathRequest n).render).req.remoteIp).length = 9 := by
    change (cstr (inetNtop ⟨127, 0, 0, 1⟩)).length = 9
    decide
  have hstamp : (timeText ⟨24, 1, 2026, 19, 16, 50⟩).length = 26 := by decide
  have hstatus : (decimalInt (localEntry (pathRequest n).render).status.toInt).length = 3 := by
    change (decimalInt (200 : Int32).toInt).length = 3
    decide
  have hbytes : (decimal (localEntry (pathRequest n).render).nbytes.toNat).length = 1 := by
    change (decimal (0 : UInt64).toNat).length = 1
    decide
  have hlatency : (decimalInt (latencyUs (localEntry (pathRequest n).render).start
      (localEntry (pathRequest n).render).stop).toInt).length = 2 := by
    change (decimalInt (latencyUs ⟨0, 0⟩ ⟨0, 47000⟩).toInt).length = 2
    decide
  have hget : (httpMethodStr .get).length = 3 := by decide
  rw [LogEntry.fieldBytes, hip, localEntry_stamp, hstamp, hmethod, hget, localEntry_path hn,
    List.length_replicate, hstatus, hbytes, hlatency]
  omega

/-- The entry of a short request is written whole, as one line. -/
theorem accessLog_oneLine_short :
    accessLogWrite 1 (fun _ => 0) (localEntry (pathRequest 3).render)
      = some (logLine (localEntry (pathRequest 3).render)) ∧
    OneLine (logLine (localEntry (pathRequest 3).render))
      (logLine (localEntry (pathRequest 3).render)) := by
  have hlen : (logLine (localEntry (pathRequest 3).render)).length = 73 := by
    rw [length_logLine, localEntry_fieldBytes (by decide)]
  have hwritten : accessLogWrite 1 (fun _ => 0) (localEntry (pathRequest 3).render)
      = some (logLine (localEntry (pathRequest 3).render)) := by
    rw [accessLogWrite, if_neg (by rw [hlen]; norm_num), snprintfRead,
      if_pos (by rw [hlen]; norm_num)]
  refine ⟨hwritten, (accessLog_oneLine_iff 1 (fun _ => 0) _ ⟨127, 0, 0, 1⟩ rfl).mpr
    (.inr (.inr ⟨?_, ?_, ?_⟩)) _ hwritten⟩
  · rw [localEntry_fieldBytes (by decide)]
    decide
  · rw [localEntry_path (by decide)]
    decide
  · rw [localEntry_stamp]
    exact lf_notMem_timeText _

/-- **A line that is too long**: a request for 1000 bytes is accepted, and 1070 bytes are
written. -/
theorem exists_overlong_line :
    ¬∀ (data : List UInt8) (accessFd : ℤ) (junk : ℕ → UInt8) (e : LogEntry) (peer : InAddr),
      (parseFresh data).1 = .done →
      e.req = { requestPopulate requestCreate (parseFresh data).2 data with
        remoteIp := inetNtop peer } →
      ∀ out, accessLogWrite accessFd junk e = some out → OneLine (logLine e) out := by
  intro h
  have hlen : (logLine (localEntry (pathRequest 1000).render)).length = 1070 := by
    rw [length_logLine, localEntry_fieldBytes (by decide)]
  have hwritten : accessLogWrite 1 (fun _ => 0) (localEntry (pathRequest 1000).render)
      = some (snprintfRead 1024 (fun _ => 0)
        (logLine (localEntry (pathRequest 1000).render))) := by
    rw [accessLogWrite, if_neg]
    rw [hlen]
    norm_num
  have hle := (h (pathRequest 1000).render 1 (fun _ => 0) (localEntry (pathRequest 1000).render)
    ⟨127, 0, 0, 1⟩ (parse_pathRequest 1000) rfl _ hwritten).formatted.length_le
  rw [length_snprintfRead (by decide), List.length_take, hlen] at hle
  exact absurd hle (by decide)

end Nproxy
