import Nproxy.Features.Metrics
import Nproxy.Lib.Run

/-!
The latency histogram of `features/metrics.c`: `metrics_observe_latency` records a latency, and
`metrics_handle` prints what was recorded.

A latency is counted in the first bucket whose bound it does not exceed, and only there; the page
prints the counts as they are, under the labels of the bounds.

* `observed ls`: the metrics after the latencies `ls`; `latencyHist_observed` gives the counts.
* `length_metricsBody_lt`: whatever the counters hold, the page fits into its array.
* `scrape`: what a scraper reads on the page. `scrape_bucket` and `scrape_count` say what it finds.
* `PrintsHistogram`: the page is a histogram of the latencies, as a scraper takes it.
* `printsHistogram_iff`: it is one exactly if all latencies are above the last finite bound.
-/

namespace Nproxy

/-! ### Recording -/

/-- `hist_bounds`, in microseconds. -/
def histBounds : List UInt64 :=
  [100, 500, 1000, 2000, 5000, 10000, 20000, 50000, 100000, 200000, 500000, 1000000, 2000000,
    5000000, 10000000, 18446744073709551615]

/-- The bucket in which the loop over the bounds stops. -/
def bucketOf (latencyUs : UInt64) : Option ℕ := histBounds.findIdx? fun bound => latencyUs ≤ bound

/-- `metrics_observe_latency`; `none` is a null pointer. -/
def metricsObserveLatency (m : Option Metrics) (latencyUs : UInt64) : Option Metrics :=
  m.map fun m =>
    let m := { m with
      latencySumUs := m.latencySumUs + latencyUs
      latencyCount := m.latencyCount + 1 }
    match bucketOf latencyUs with
    | some i => { m with latencyHist := m.latencyHist.modify i (· + 1) }
    | none => m

/-- The metrics of a worker after some latencies. -/
def observed (ls : List UInt64) : Option Metrics :=
  Run.run metricsObserveLatency (some metricsCreate) ls

/-- Is the latency counted in bucket `i`? -/
def lands (i : ℕ) (latencyUs : UInt64) : Bool := bucketOf latencyUs = some i

lemma modify_map_range {α : Type*} (f : ℕ → α) (g : α → α) (n k : ℕ) :
    ((List.range n).map f).modify k g
      = (List.range n).map fun i => if i = k then g (f i) else f i := by
  refine List.ext_getElem? fun i => ?_
  rw [List.getElem?_modify, List.getElem?_map, List.getElem?_map]
  by_cases hi : i < n
  · rw [List.getElem?_range hi]
    by_cases hk : k = i <;> simp [hk, eq_comm]
  · rw [List.getElem?_eq_none (by simpa using hi)]
    rfl

lemma ofNat_succ (n : ℕ) : UInt64.ofNat (n + 1) = UInt64.ofNat n + 1 := by
  simp [UInt64.ofNat_add]

/-- **The counters after a run**: how many latencies landed in each bucket, and how many there
were. -/
lemma exists_observed (ls : List UInt64) : ∃ m, observed ls = some m ∧
    m.latencyHist = (List.range histBuckets).map (fun i => .ofNat (ls.countP (lands i))) ∧
    m.latencyCount = .ofNat ls.length := by
  induction ls using List.reverseRecOn with
  | nil => exact ⟨metricsCreate, rfl, by decide, rfl⟩
  | append_singleton ls l ih =>
    obtain ⟨m, hm, hhist, hcount⟩ := ih
    rw [observed] at hm ⊢
    rw [Run.run_append, hm, Run.run_cons, Run.run_nil, metricsObserveLatency, Option.map_some]
    have hlands (i : ℕ) : lands i l = decide (bucketOf l = some i) := rfl
    simp only [List.countP_append, List.countP_singleton, List.length_append,
      List.length_singleton, ofNat_succ, ← hcount, hlands]
    cases hbucket : bucketOf l with
    | none =>
      refine ⟨_, rfl, ?_, rfl⟩
      simp [hhist]
    | some k =>
      refine ⟨_, rfl, ?_, rfl⟩
      simp only [hhist, modify_map_range]
      refine List.map_congr_left fun i _ => ?_
      by_cases hk : i = k
      · simp [hk, ofNat_succ]
      · simp [hk, Ne.symm hk]

/-! ### Buckets -/

lemma histBounds_sorted : histBounds.Pairwise (· ≤ ·) := by decide

/-- The last bound is the largest number there is. -/
lemma le_lastBound (l : UInt64) : l ≤ 18446744073709551615 := by
  have hlt := l.toNat_lt
  exact UInt64.le_iff_toNat_le.mpr (by simpa using Nat.le_of_lt_succ hlt)

lemma exists_bucketOf (l : UInt64) : ∃ k, bucketOf l = some k := by
  refine Option.ne_none_iff_exists'.mp fun hnone => ?_
  have hall := List.findIdx?_eq_none_iff.mp hnone 18446744073709551615 (by decide)
  exact of_decide_eq_false hall (le_lastBound l)

/-- A latency is at most a bound exactly if it is counted there or before. -/
lemma le_bound_iff {l bound : UInt64} {k i : ℕ} (hk : bucketOf l = some k)
    (hi : histBounds[i]? = some bound) : l ≤ bound ↔ k ≤ i := by
  obtain ⟨hlt, hle, hfirst⟩ := List.findIdx?_eq_some_iff_getElem.mp hk
  obtain ⟨hi', rfl⟩ := List.getElem?_eq_some_iff.mp hi
  constructor
  · intro hl
    by_contra hki
    exact hfirst i (Nat.lt_of_not_le hki) (by simpa using hl)
  · intro hki
    have hsorted : histBounds[k] ≤ histBounds[i] := by
      rcases Nat.eq_or_lt_of_le hki with rfl | hki
      · exact UInt64.le_refl _
      · exact List.pairwise_iff_getElem.mp histBounds_sorted k i hlt hi' hki
    exact UInt64.le_trans (of_decide_eq_true hle) hsorted

/-- Two counts of a list, one of them for less. -/
lemma countP_eq_countP_iff {α : Type*} {p q : α → Bool} {l : List α}
    (h : ∀ x ∈ l, p x = true → q x = true) :
    l.countP p = l.countP q ↔ ∀ x ∈ l, q x = true → p x = true := by
  induction l with
  | nil => simp
  | cons x l ih =>
    have hle : l.countP p ≤ l.countP q :=
      List.countP_mono_left fun y hy => h y (List.mem_cons_of_mem x hy)
    have hih := ih fun y hy => h y (List.mem_cons_of_mem x hy)
    rw [List.forall_mem_cons, ← hih, List.countP_cons, List.countP_cons]
    by_cases hq : q x = true
    · by_cases hp : p x = true
      · simp [hp, hq]
      · simp only [hp, hq, Bool.false_eq_true, if_false, if_true, forall_const, false_and,
          iff_false]
        omega
    · have hp : ¬p x = true := fun hp => hq (h x (by simp) hp)
      simp [hp, hq]

/-- A bucket holds as many latencies as are at most its bound exactly if none of them is counted
before. -/
lemma countP_lands_eq_iff {ls : List UInt64} {i : ℕ} {bound : UInt64}
    (hi : histBounds[i]? = some bound) :
    ls.countP (lands i) = ls.countP (· ≤ bound) ↔
      ∀ l ∈ ls, ∀ k, bucketOf l = some k → k ≤ i → k = i := by
  have hle (l : UInt64) (hl : lands i l = true) : decide (l ≤ bound) = true :=
    decide_eq_true ((le_bound_iff (of_decide_eq_true hl) hi).mpr le_rfl)
  rw [countP_eq_countP_iff fun l _ => hle l]
  refine forall₂_congr fun l _ => ?_
  obtain ⟨k, hk⟩ := exists_bucketOf l
  simp only [decide_eq_true_eq, le_bound_iff hk hi, lands, hk, Option.some.injEq, forall_eq']

/-- **The counts are cumulative** only if every latency is in the last bucket. -/
lemma forall_countP_lands_iff (ls : List UInt64) :
    (∀ i bound, histBounds[i]? = some bound → ls.countP (lands i) = ls.countP (· ≤ bound)) ↔
      ∀ l ∈ ls, 10000000 < l := by
  have hlast (l : UInt64) (k : ℕ) (hk : bucketOf l = some k) : 10000000 < l ↔ ¬k ≤ 14 := by
    rw [← le_bound_iff hk (i := 14) rfl, UInt64.not_le]
  constructor
  · intro h l hl
    obtain ⟨k, hk⟩ := exists_bucketOf l
    rw [hlast l k hk]
    intro hk14
    have := (countP_lands_eq_iff rfl).mp (h 15 _ rfl) l hl k hk (by omega)
    omega
  · intro h i bound hi
    refine (countP_lands_eq_iff hi).mpr fun l hl k hk hki => ?_
    have hlt : i < 16 := (List.getElem?_eq_some_iff.mp hi).1
    have := (hlast l k hk).mp (h l hl)
    omega

/-! ### Printing -/

/-- The name of a bucket on the page. -/
def bucketSeries (label : String) : List UInt8 :=
  List.flatten [
    bytes "nproxy_request_duration_seconds_bucket\x7ble=\"", bytes label, bytes "\"\x7d"]

/-- The name of the number of latencies. -/
def countSeries : List UInt8 := bytes "nproxy_request_duration_seconds_count"

/-- A line for a series with its value. -/
def sampleLine (series : List UInt8) (value : UInt64) : List UInt8 :=
  series ++ 32 :: decimal value.toNat

/-- The value of a series, if the line has it. -/
def sampleValue (series line : List UInt8) : Option ℕ :=
  if (series ++ [32]).isPrefixOf line then some (decVal (line.drop (series.length + 1))) else none

/-- What a scraper reads for a series: the value on the first line that has one. -/
def scrape (text series : List UInt8) : Option ℕ :=
  (text.splitOn lf).findSome? (sampleValue series)

/-- The lines of the page before the histogram. -/
def pageHead (m : Metrics) : List (List UInt8) :=
  [bytes "# HELP nproxy_requests_total Total HTTP requests",
    bytes "# TYPE nproxy_requests_total counter",
    sampleLine (bytes "nproxy_requests_total") m.requestsTotal,
    sampleLine (bytes "nproxy_requests_2xx_total") m.requests2xx,
    sampleLine (bytes "nproxy_requests_4xx_total") m.requests4xx,
    sampleLine (bytes "nproxy_requests_5xx_total") m.requests5xx,
    bytes "# HELP nproxy_active_connections Active connections",
    bytes "# TYPE nproxy_active_connections gauge",
    sampleLine (bytes "nproxy_active_connections") m.activeConnections,
    bytes "# HELP nproxy_upstream_errors_total Upstream errors",
    bytes "# TYPE nproxy_upstream_errors_total counter",
    sampleLine (bytes "nproxy_upstream_errors_total") m.upstreamErrors,
    bytes "# HELP nproxy_request_duration_seconds Request duration histogram",
    bytes "# TYPE nproxy_request_duration_seconds histogram"]

/-- The lines of the buckets. -/
def bucketLines (m : Metrics) : List (List UInt8) :=
  (bucketLabels.zip m.latencyHist).map fun b => sampleLine (bucketSeries b.1) b.2

/-- The lines behind the buckets. -/
def tailLines (m : Metrics) : List (List UInt8) :=
  [sampleLine countSeries m.latencyCount,
    bytes "nproxy_request_duration_seconds_sum " ++ secondsText m.latencySumUs.toNat]

lemma bytes_newline : bytes "\n" = [lf] := by decide

/-- The bytes of a literal: it is `String.ofList` of its letters, so nothing has to be decoded. -/
def letterBytes (l : List Char) : List UInt8 := l.map fun c => c.toNat.toUInt8

lemma bytes_ofList (l : List Char) : bytes (String.ofList l) = letterBytes l := by
  rw [bytes, String.toList_ofList, letterBytes]

/-- A literal that ends with a newline. -/
lemma bytes_line {l k : List Char} (h : l = k ++ ['\n']) :
    bytes (String.ofList l) = bytes (String.ofList k) ++ [lf] := by
  rw [bytes_ofList, bytes_ofList, h, letterBytes, List.map_append]
  rfl

lemma lf_notMem_bytes {l : List Char} (h : (letterBytes l).elem lf = false) :
    lf ∉ bytes (String.ofList l) := by
  rw [bytes_ofList, ← List.elem_iff, h]
  exact Bool.false_ne_true

lemma bytes_isPrefix {l k : List Char} (h : (letterBytes l).isPrefixOf (letterBytes k) = true) :
    bytes (String.ofList l) <+: bytes (String.ofList k) := by
  rw [bytes_ofList, bytes_ofList]
  exact List.isPrefixOf_iff_prefix.mp h

lemma metricsBody_eq (m : Metrics) : metricsBody m =
    (pageHead m ++ bucketLines m ++ tailLines m).flatMap (· ++ [lf]) := by
  have hbuckets : metricsBuckets m = (bucketLines m).flatMap (· ++ [lf]) := by
    rw [metricsBuckets, bucketLines, List.flatMap_map]
    refine List.flatMap_congr fun b _ => ?_
    have hquote : bytes "\"\x7d " = bytes "\"\x7d" ++ [32] := by decide
    simp [sampleLine, bucketSeries, hquote, bytes_newline]
  have hline (name : String) (v : UInt64) :
      metricsLine name v = sampleLine (bytes name) v ++ [lf] := by
    have hblank : bytes " " = [32] := by decide
    simp [metricsLine, sampleLine, hblank, bytes_newline]
  have hhead : (pageHead m).flatMap (· ++ [lf]) = metricsCounters m := by
    refine congrArg List.flatten ?_
    simp only [pageHead, hline, List.map_cons, List.map_nil, List.cons.injEq, and_true, true_and]
    exact ⟨(bytes_line rfl).symm, (bytes_line rfl).symm, (bytes_line rfl).symm,
      (bytes_line rfl).symm, (bytes_line rfl).symm, (bytes_line rfl).symm, (bytes_line rfl).symm,
      (bytes_line rfl).symm⟩
  rw [List.flatMap_append, List.flatMap_append, hhead, ← hbuckets, metricsBody, tailLines]
  simp only [List.flatten_cons, List.flatten_nil, List.append_nil, List.append_assoc, hline,
    bytes_newline, List.flatMap_cons, List.flatMap_nil, countSeries]

lemma length_decimal_uint64 (v : UInt64) : (decimal v.toNat).length ≤ 20 :=
  length_decimal_le_of_lt (by norm_num) (v.toNat_lt.trans (by norm_num))

lemma length_secondsText_le (v : UInt64) : (secondsText v.toNat).length ≤ 21 := by
  have hlt := v.toNat_lt
  have hint : (decimal (v.toNat / 1000000)).length ≤ 14 :=
    length_decimal_le_of_lt (by norm_num) (by omega)
  have hfrac : (decimal (v.toNat % 1000000)).length ≤ 6 :=
    length_decimal_le_of_lt (by norm_num) (by omega)
  have hdot : (bytes ".").length = 1 := length_bytes_ofList _
  simp only [secondsText, List.flatten_cons, List.flatten_nil, List.length_append,
    List.length_replicate, List.length_nil, hdot]
  omega

lemma length_sampleLine_le {series : List UInt8} (h : series.length ≤ 79) (v : UInt64) :
    (sampleLine series v).length ≤ 100 := by
  have hdecimal := length_decimal_uint64 v
  rw [sampleLine, List.length_append, List.length_cons]
  omega

lemma length_bucketSeries_le {label : String} (h : label ∈ bucketLabels) :
    (bucketSeries label).length ≤ 79 := by
  have hname : (bytes "nproxy_request_duration_seconds_bucket\x7ble=\"").length = 43 :=
    length_bytes_ofList _
  have hquote : (bytes "\"\x7d").length = 2 := length_bytes_ofList _
  have hlabel : (bytes label).length ≤ 6 := by
    have hall : bucketLabels.all (fun label => decide ((bytes label).length ≤ 6)) = true := by
      decide
    exact of_decide_eq_true (List.all_eq_true.mp hall label h)
  simp only [bucketSeries, List.flatten_cons, List.flatten_nil, List.length_append,
    List.length_nil, hname, hquote]
  omega

lemma length_line_le (m : Metrics) :
    ∀ line ∈ pageHead m ++ bucketLines m ++ tailLines m, line.length ≤ 100 := by
  intro line hline
  have hbytes {l : List Char} (hl : l.length ≤ 79) : (bytes (String.ofList l)).length ≤ 79 :=
    (length_bytes_ofList l).trans_le hl
  have hcomment {l : List Char} (hl : l.length ≤ 79) : (bytes (String.ofList l)).length ≤ 100 :=
    (hbytes hl).trans (by norm_num)
  rw [List.mem_append, List.mem_append] at hline
  rcases hline with (hhead | hbucket) | htail
  · have hsample {l : List Char} (hl : l.length ≤ 79) (v : UInt64) :=
      length_sampleLine_le (hbytes hl) v
    revert line
    simp only [pageHead, List.forall_mem_cons]
    exact ⟨hcomment (by decide), hcomment (by decide), hsample (by decide) _, hsample (by decide) _,
      hsample (by decide) _, hsample (by decide) _, hcomment (by decide), hcomment (by decide),
      hsample (by decide) _, hcomment (by decide), hcomment (by decide), hsample (by decide) _,
      hcomment (by decide), hcomment (by decide), by simp⟩
  · obtain ⟨b, hb, rfl⟩ := List.mem_map.mp hbucket
    exact length_sampleLine_le (length_bucketSeries_le (List.of_mem_zip hb).1) _
  · simp only [tailLines, List.mem_cons, List.not_mem_nil, or_false] at htail
    rcases htail with rfl | rfl
    · exact length_sampleLine_le (hbytes (by decide)) _
    · have hsum : (bytes "nproxy_request_duration_seconds_sum ").length = 36 :=
        length_bytes_ofList _
      have hseconds := length_secondsText_le m.latencySumUs
      rw [List.length_append, hsum]
      omega

/-- The page fits into its array, so none of the `snprintf` calls cuts anything off. -/
lemma length_metricsBody_lt (m : Metrics) : (metricsBody m).length < 4096 := by
  have hlines : (pageHead m ++ bucketLines m ++ tailLines m).length ≤ 32 := by
    have hbuckets : (bucketLines m).length ≤ 16 := by
      rw [bucketLines, List.length_map, List.length_zip]
      exact min_le_left _ _
    have hhead : (pageHead m).length = 14 := rfl
    have htail : (tailLines m).length = 2 := rfl
    rw [List.length_append, List.length_append]
    omega
  calc (metricsBody m).length
      = ((pageHead m ++ bucketLines m ++ tailLines m).map fun l => l.length + 1).sum := by
        rw [metricsBody_eq, List.length_flatMap]
        simp only [List.length_append, List.length_singleton]
    _ ≤ (pageHead m ++ bucketLines m ++ tailLines m).length * 101 := by
        have hle := List.sum_le_card_nsmul
          ((pageHead m ++ bucketLines m ++ tailLines m).map fun l => l.length + 1) 101
          (List.forall_mem_map.mpr fun l hl => Nat.succ_le_succ (length_line_le m l hl))
        rwa [List.length_map, smul_eq_mul] at hle
    _ ≤ 32 * 101 := Nat.mul_le_mul_right 101 hlines
    _ < 4096 := by norm_num

/-! ### Reading the page -/

lemma lf_notMem_sampleLine {series : List UInt8} (h : lf ∉ series) (v : UInt64) :
    lf ∉ sampleLine series v := by
  have hblank : lf ≠ 32 := by decide
  simp [sampleLine, h, hblank, lf_notMem_decimal]

lemma lf_notMem_bucketSeries {label : String} (h : label ∈ bucketLabels) :
    lf ∉ bucketSeries label := by
  have hname : lf ∉ bytes "nproxy_request_duration_seconds_bucket\x7ble=\"" := lf_notMem_bytes rfl
  have hquote : lf ∉ bytes "\"\x7d" := by decide
  have hlabel : lf ∉ bytes label := by
    have hall : bucketLabels.all (fun label => decide (lf ∉ bytes label)) = true := by decide
    exact of_decide_eq_true (List.all_eq_true.mp hall label h)
  simp [bucketSeries, hname, hlabel, hquote]

lemma lf_notMem_secondsText (us : ℕ) : lf ∉ secondsText us := by
  have hdot : lf ∉ bytes "." := by decide
  have hzero : lf ≠ 48 := by decide
  simp [secondsText, lf_notMem_decimal, hdot, List.mem_replicate, hzero]

lemma lf_notMem_lines (m : Metrics) :
    ∀ line ∈ pageHead m ++ bucketLines m ++ tailLines m, lf ∉ line := by
  intro line hline
  rw [List.mem_append, List.mem_append] at hline
  rcases hline with (hhead | hbucket) | htail
  · have hsample {l : List Char} (hl : (letterBytes l).elem lf = false) (v : UInt64) :
        lf ∉ sampleLine (bytes (String.ofList l)) v := lf_notMem_sampleLine (lf_notMem_bytes hl) v
    revert line
    simp only [pageHead, List.forall_mem_cons]
    exact ⟨lf_notMem_bytes rfl, lf_notMem_bytes rfl, hsample rfl _, hsample rfl _, hsample rfl _,
      hsample rfl _, lf_notMem_bytes rfl, lf_notMem_bytes rfl, hsample rfl _, lf_notMem_bytes rfl,
      lf_notMem_bytes rfl, hsample rfl _, lf_notMem_bytes rfl, lf_notMem_bytes rfl, by simp⟩
  · obtain ⟨b, hb, rfl⟩ := List.mem_map.mp hbucket
    exact lf_notMem_sampleLine (lf_notMem_bucketSeries (List.of_mem_zip hb).1) _
  · simp only [tailLines, List.mem_cons, List.not_mem_nil, or_false] at htail
    rcases htail with rfl | rfl
    · exact lf_notMem_sampleLine (lf_notMem_bytes rfl) _
    · rw [List.mem_append, not_or]
      exact ⟨lf_notMem_bytes rfl, lf_notMem_secondsText _⟩

lemma splitOn_flatMap {lines : List (List UInt8)} (h : ∀ line ∈ lines, lf ∉ line) :
    (lines.flatMap (· ++ [lf])).splitOn lf = lines ++ [[]] := by
  induction lines with
  | nil => rfl
  | cons line lines ih =>
    rw [List.flatMap_cons, List.append_assoc, List.singleton_append,
      List.splitOn_append_cons_self_of_not_mem (h line (by simp)),
      ih fun l hl => h l (List.mem_cons_of_mem _ hl), List.cons_append]

lemma sampleValue_nil (series : List UInt8) : sampleValue series [] = none := by
  cases series <;> rfl

lemma scrape_metricsBody (m : Metrics) (series : List UInt8) :
    scrape (metricsBody m) series =
      (pageHead m ++ bucketLines m ++ tailLines m).findSome? (sampleValue series) := by
  rw [scrape, metricsBody_eq, splitOn_flatMap (lf_notMem_lines m), List.findSome?_append,
    List.findSome?_cons, sampleValue_nil, List.findSome?_nil, Option.or_none]

lemma sampleValue_sampleLine (series : List UInt8) (v : UInt64) :
    sampleValue series (sampleLine series v) = some v.toNat := by
  have hline : sampleLine series v = series ++ [32] ++ decimal v.toNat := by simp [sampleLine]
  have hlen : series.length + 1 = (series ++ [32]).length := by simp
  rw [sampleValue, hline, if_pos (by simp), hlen, List.drop_left, decVal_decimal]

/-- Neither label starts with the other one. -/
def LabelsApart (a b : String) : Prop :=
  ¬bytes a ++ bytes "\"\x7d " <+: bytes b ++ bytes "\"\x7d " ∧
    ¬bytes b ++ bytes "\"\x7d " <+: bytes a ++ bytes "\"\x7d "

instance : DecidableRel LabelsApart := fun _ _ => inferInstanceAs (Decidable (_ ∧ _))

lemma bucketLabels_apart : bucketLabels.Pairwise LabelsApart := by decide +kernel

/-- The line of a bucket is not taken for that of another one. -/
lemma sampleValue_of_apart {a b : String} (h : LabelsApart a b) (v : UInt64) :
    sampleValue (bucketSeries b) (sampleLine (bucketSeries a) v) = none := by
  have hquote : bytes "\"\x7d " = bytes "\"\x7d" ++ [32] := by decide
  have hseries (label : String) : bucketSeries label ++ [32] =
      bytes "nproxy_request_duration_seconds_bucket\x7ble=\"" ++
        (bytes label ++ bytes "\"\x7d ") := by
    simp [bucketSeries, hquote]
  refine if_neg fun hprefix => ?_
  have hline : bucketSeries a ++ [32] <+: sampleLine (bucketSeries a) v :=
    ⟨decimal v.toNat, by simp [sampleLine]⟩
  have hcases := List.prefix_or_prefix_of_prefix hline (List.isPrefixOf_iff_prefix.mp hprefix)
  rw [hseries, hseries, List.prefix_append_right_inj, List.prefix_append_right_inj] at hcases
  exact hcases.elim h.1 h.2

/-- A line is not taken for a series if they start with different literals. -/
lemma sampleValue_of_differ {l k : List Char} {series line : List UInt8}
    (hlk : (letterBytes l).isPrefixOf (letterBytes k) = false)
    (hkl : (letterBytes k).isPrefixOf (letterBytes l) = false)
    (hseries : bytes (String.ofList l) <+: series) (hline : bytes (String.ofList k) <+: line) :
    sampleValue series line = none := by
  rw [bytes_ofList] at hseries hline
  refine if_neg fun hprefix => ?_
  have hl : letterBytes l <+: line :=
    (hseries.trans (List.prefix_append _ _)).trans (List.isPrefixOf_iff_prefix.mp hprefix)
  rcases List.prefix_or_prefix_of_prefix hl hline with h | h <;>
    rw [← List.isPrefixOf_iff_prefix] at h
  · exact absurd (hlk.symm.trans h) Bool.false_ne_true
  · exact absurd (hkl.symm.trans h) Bool.false_ne_true

lemma findSome?_buckets {labels : List String} (h : labels.Pairwise LabelsApart)
    {values : List UInt64} {label : String} {v : UInt64} (hv : (label, v) ∈ labels.zip values) :
    ((labels.zip values).map fun b => sampleLine (bucketSeries b.1) b.2).findSome?
      (sampleValue (bucketSeries label)) = some v.toNat := by
  induction labels generalizing values with
  | nil => simp at hv
  | cons a labels ih =>
    cases values with
    | nil => simp at hv
    | cons w values =>
      obtain ⟨hapart, hlabels⟩ := List.pairwise_cons.mp h
      rw [List.zip_cons_cons, List.mem_cons] at hv
      rw [List.zip_cons_cons, List.map_cons, List.findSome?_cons]
      rcases hv with heq | hv
      · obtain ⟨rfl, rfl⟩ := Prod.mk.inj heq
        rw [sampleValue_sampleLine]
      · rw [sampleValue_of_apart (hapart label (List.of_mem_zip hv).1)]
        exact ih hlabels hv

/-- The lines in front of the histogram are not part of it. -/
lemma findSome?_headLines (m : Metrics) {series : List UInt8}
    (h : bytes "nproxy_request_duration_seconds_" <+: series) :
    (pageHead m).findSome? (sampleValue series) = none := by
  have hsample (name : List UInt8) (v : UInt64) : name <+: sampleLine name v :=
    List.prefix_append _ _
  rw [List.findSome?_eq_none_iff]
  simp only [pageHead, List.forall_mem_cons]
  have hcomment {k : List Char}
      (hdiffer : (letterBytes k).isPrefixOf (letterBytes "nproxy_request_duration_seconds_".toList)
        = false)
      (hdiffer' : (letterBytes "nproxy_request_duration_seconds_".toList).isPrefixOf (letterBytes k)
        = false) : sampleValue series (bytes (String.ofList k)) = none :=
    sampleValue_of_differ hdiffer' hdiffer h (List.prefix_refl _)
  exact ⟨hcomment rfl rfl, hcomment rfl rfl,
    sampleValue_of_differ rfl rfl h (hsample _ _), sampleValue_of_differ rfl rfl h (hsample _ _),
    sampleValue_of_differ rfl rfl h (hsample _ _), sampleValue_of_differ rfl rfl h (hsample _ _),
    hcomment rfl rfl, hcomment rfl rfl, sampleValue_of_differ rfl rfl h (hsample _ _),
    hcomment rfl rfl, hcomment rfl rfl, sampleValue_of_differ rfl rfl h (hsample _ _),
    hcomment rfl rfl, hcomment rfl rfl, by simp⟩

/-- **A bucket on the page** shows its own count. -/
lemma scrape_bucket {m : Metrics} {label : String} {v : UInt64}
    (hv : (label, v) ∈ bucketLabels.zip m.latencyHist) :
    scrape (metricsBody m) (bucketSeries label) = some v.toNat := by
  have hname : bytes "nproxy_request_duration_seconds_" <+: bucketSeries label :=
    (bytes_isPrefix rfl).trans (List.prefix_append _ _)
  rw [scrape_metricsBody, List.findSome?_append, List.findSome?_append,
    findSome?_headLines m hname, Option.none_or, bucketLines,
    findSome?_buckets bucketLabels_apart hv, Option.some_or]

/-- **The number of latencies on the page.** -/
lemma scrape_count (m : Metrics) :
    scrape (metricsBody m) countSeries = some m.latencyCount.toNat := by
  have hname : bytes "nproxy_request_duration_seconds_" <+: countSeries := bytes_isPrefix rfl
  have hbuckets : (bucketLines m).findSome? (sampleValue countSeries) = none := by
    refine List.findSome?_eq_none_iff.mpr fun line hline => ?_
    obtain ⟨b, -, rfl⟩ := List.mem_map.mp hline
    have hseries : bucketSeries b.1 <+: sampleLine (bucketSeries b.1) b.2 := List.prefix_append _ _
    exact sampleValue_of_differ rfl rfl (List.prefix_refl _)
      ((List.prefix_append _ _).trans hseries)
  rw [scrape_metricsBody, List.findSome?_append, List.findSome?_append,
    findSome?_headLines m hname, hbuckets, Option.or_none, Option.none_or, tailLines,
    List.findSome?_cons, sampleValue_sampleLine]

/-! ### A histogram -/

/-- The page is a histogram of the latencies: a bucket shows how many latencies are at most its
bound, the numbers do not decrease, and the last one is that of all latencies. -/
structure PrintsHistogram (text : List UInt8) (ls : List UInt64) : Prop where
  bucket : ∀ b ∈ bucketLabels.zip histBounds,
    scrape text (bucketSeries b.1) = some (ls.countP (· ≤ b.2))
  mono : (bucketLabels.map fun label => (scrape text (bucketSeries label)).getD 0).Pairwise (· ≤ ·)
  total : scrape text (bucketSeries "+Inf") = scrape text countSeries

variable {ls : List UInt64} {m : Metrics}

/-- What the buckets show after a run. -/
lemma scrape_observed (hlen : ls.length < 2 ^ 64) (hm : observed ls = some m) {i : ℕ}
    {label : String} (hi : bucketLabels[i]? = some label) :
    scrape (metricsBody m) (bucketSeries label) = some (ls.countP (lands i)) := by
  obtain ⟨m', hm', hhist, -⟩ := exists_observed ls
  obtain rfl : m = m' := Option.some.inj (hm.symm.trans hm')
  have hlt : i < histBuckets := (List.getElem?_eq_some_iff.mp hi).1
  have hcount : ls.countP (lands i) < UInt64.size := lt_of_le_of_lt List.countP_le_length hlen
  have hv : (label, UInt64.ofNat (ls.countP (lands i))) ∈ bucketLabels.zip m.latencyHist := by
    refine List.mem_iff_getElem?.mpr ⟨i, ?_⟩
    rw [List.getElem?_zip_eq_some, hhist, List.getElem?_map, List.getElem?_range hlt]
    exact ⟨hi, rfl⟩
  rw [scrape_bucket hv, UInt64.toNat_ofNat_of_lt' hcount]

/-- The page shows how many latencies there were. -/
lemma scrape_count_observed (hlen : ls.length < 2 ^ 64) (hm : observed ls = some m) :
    scrape (metricsBody m) countSeries = some ls.length := by
  obtain ⟨m', hm', -, hcount⟩ := exists_observed ls
  obtain rfl : m = m' := Option.some.inj (hm.symm.trans hm')
  rw [scrape_count, hcount, UInt64.toNat_ofNat_of_lt' hlen]

/-- A bucket of the page is right exactly if its own count is. -/
lemma forall_bucket_iff (hlen : ls.length < 2 ^ 64) (hm : observed ls = some m) :
    (∀ b ∈ bucketLabels.zip histBounds,
        scrape (metricsBody m) (bucketSeries b.1) = some (ls.countP (· ≤ b.2))) ↔
      ∀ i bound, histBounds[i]? = some bound → ls.countP (lands i) = ls.countP (· ≤ bound) := by
  constructor
  · intro h i bound hi
    have hlt : i < bucketLabels.length := (List.getElem?_eq_some_iff.mp hi).1
    obtain ⟨label, hlabel⟩ : ∃ label, bucketLabels[i]? = some label :=
      ⟨_, List.getElem?_eq_getElem hlt⟩
    have hb := h (label, bound)
      (List.mem_iff_getElem?.mpr ⟨i, List.getElem?_zip_eq_some.mpr ⟨hlabel, hi⟩⟩)
    rw [scrape_observed hlen hm hlabel] at hb
    exact Option.some.inj hb
  · rintro h ⟨label, bound⟩ hb
    obtain ⟨i, hi⟩ := List.mem_iff_getElem?.mp hb
    obtain ⟨hlabel, hbound⟩ := List.getElem?_zip_eq_some.mp hi
    rw [scrape_observed hlen hm hlabel, h i bound hbound]

/-- **The page is a histogram of the latencies exactly if all of them are above ten seconds**, the
last bound before infinity: no other bucket is ever counted in by a later one. -/
theorem printsHistogram_iff (ls : List UInt64) (hlen : ls.length < 2 ^ 64) (m : Metrics)
    (hm : observed ls = some m) :
    PrintsHistogram (metricsBody m) ls ↔ ∀ l ∈ ls, 10000000 < l := by
  rw [← forall_countP_lands_iff, ← forall_bucket_iff hlen hm]
  refine ⟨PrintsHistogram.bucket, fun hbucket => ⟨hbucket, ?_, ?_⟩⟩
  · -- a latency that is at most a bound is at most every later one
    have hcount (i : ℕ) (hi : i < bucketLabels.length) :
        scrape (metricsBody m) (bucketSeries bucketLabels[i])
          = some (ls.countP (· ≤ histBounds[i])) :=
      hbucket (bucketLabels[i], histBounds[i]) (List.mem_iff_getElem?.mpr ⟨i,
        List.getElem?_zip_eq_some.mpr
          ⟨List.getElem?_eq_getElem hi, List.getElem?_eq_getElem (l := histBounds) hi⟩⟩)
    rw [List.pairwise_map]
    refine List.pairwise_iff_getElem.mpr fun i j hi hj hij => ?_
    have hsorted : histBounds[i] ≤ histBounds[j] :=
      List.pairwise_iff_getElem.mp histBounds_sorted i j hi hj hij
    rw [hcount i hi, hcount j hj, Option.getD_some, Option.getD_some]
    exact List.countP_mono_left fun l _ hl =>
      decide_eq_true (UInt64.le_trans (of_decide_eq_true hl) hsorted)
  · have hinf := hbucket ("+Inf", 18446744073709551615) (by decide +kernel)
    have hall : ls.countP (· ≤ 18446744073709551615) = ls.length :=
      List.countP_eq_length.mpr fun l _ => decide_eq_true (le_lastBound l)
    rw [scrape_count_observed hlen hm, hinf, hall]

/-- Two latencies above ten seconds, one of them twenty: only the bucket of infinity has to count
them, and it does. -/
theorem printsHistogram_slow : ∃ m, observed [20000000, 11000000] = some m ∧
    PrintsHistogram (metricsBody m) [20000000, 11000000] := by
  obtain ⟨m, hm, -⟩ := exists_observed [20000000, 11000000]
  refine ⟨m, hm, (printsHistogram_iff _ (by decide) m hm).mpr fun l hl => ?_⟩
  simp only [List.mem_cons, List.not_mem_nil, or_false] at hl
  obtain rfl | rfl := hl <;> decide

/-- **Three latencies below a millisecond**: the second bucket shows less than the first one, and
the last one shows nothing at all. -/
theorem exists_not_histogram : ∃ m, observed [50, 60, 300] = some m ∧
    scrape (metricsBody m) (bucketSeries "0.0001") = some 2 ∧
    scrape (metricsBody m) (bucketSeries "0.0005") = some 1 ∧
    scrape (metricsBody m) (bucketSeries "+Inf") = some 0 ∧
    scrape (metricsBody m) countSeries = some 3 ∧
    ¬PrintsHistogram (metricsBody m) [50, 60, 300] := by
  obtain ⟨m, hm, -⟩ := exists_observed [50, 60, 300]
  have hlen : [50, 60, 300].length < 2 ^ 64 := by decide
  have hbucket {i : ℕ} {label : String} (hi : bucketLabels[i]? = some label) :=
    scrape_observed hlen hm hi
  have hinf := hbucket (i := 15) rfl
  have hcount := scrape_count_observed hlen hm
  refine ⟨m, hm, hbucket (i := 0) rfl, hbucket (i := 1) rfl, hinf, hcount, fun h => ?_⟩
  have htotal := h.total
  rw [hinf, hcount] at htotal
  exact absurd htotal (by decide)

end Nproxy
