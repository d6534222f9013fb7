import Nproxy.Core.Config

/-!
`features/metrics.c` and `features/health.c`: the counters of a worker, and the
two pages that the server answers from them.

The latency counters belong to `metrics_observe_latency`, which the program never
calls. The sum is printed in seconds with six decimals, the exact quotient here.
-/

namespace Nproxy

/-- `HIST_BUCKETS`. -/
def histBuckets : ℕ := 16

/-- `struct np_metrics`. -/
structure Metrics where
  requestsTotal : UInt64
  requests2xx : UInt64
  requests4xx : UInt64
  requests5xx : UInt64
  activeConnections : UInt64
  upstreamErrors : UInt64
  latencyHist : List UInt64
  latencySumUs : UInt64
  latencyCount : UInt64
  deriving DecidableEq, Repr

/-- `metrics_create`. -/
def metricsCreate : Metrics := ⟨0, 0, 0, 0, 0, 0, List.replicate histBuckets 0, 0, 0⟩

/-- `metrics_inc_requests`; `none` is a null pointer. -/
def metricsIncRequests (m : Option Metrics) (status : ℕ) : Option Metrics :=
  m.map fun m =>
    let m := { m with requestsTotal := m.requestsTotal + 1 }
    if status ≥ 200 ∧ status < 300 then { m with requests2xx := m.requests2xx + 1 }
    else if status ≥ 400 ∧ status < 500 then { m with requests4xx := m.requests4xx + 1 }
    else if status ≥ 500 then { m with requests5xx := m.requests5xx + 1 }
    else m

/-- `metrics_inc_upstream_errors`. -/
def metricsIncUpstreamErrors (m : Option Metrics) : Option Metrics :=
  m.map fun m => { m with upstreamErrors := m.upstreamErrors + 1 }

/-- `bucket_labels`. -/
def bucketLabels : List String :=
  ["0.0001", "0.0005", "0.001", "0.002", "0.005", "0.01", "0.02", "0.05", "0.1", "0.2", "0.5",
    "1.0", "2.0", "5.0", "10.0", "+Inf"]

/-- A line `name value`. -/
def metricsLine (name : String) (value : UInt64) : List UInt8 :=
  List.flatten [bytes name, bytes " ", decimal value.toNat, bytes "\n"]

/-- The lines of the histogram. -/
def metricsBuckets (m : Metrics) : List UInt8 :=
  (bucketLabels.zip m.latencyHist).flatMap fun (label, value) =>
    List.flatten [
      bytes "nproxy_request_duration_seconds_bucket\x7ble=\"", bytes label, bytes "\"\x7d ",
      decimal value.toNat, bytes "\n"]

/-- A number of microseconds in seconds, with six decimals. The digits are exact, where the source
prints a `double`, which has 53 bits. -/
def secondsText (us : ℕ) : List UInt8 :=
  let frac := decimal (us % 1000000)
  List.flatten [
    decimal (us / 1000000), bytes ".", List.replicate (6 - frac.length) 48, frac]

/-- What `metrics_handle` prints before the histogram. -/
def metricsCounters (m : Metrics) : List UInt8 :=
  List.flatten [
    bytes "# HELP nproxy_requests_total Total HTTP requests\n",
    bytes "# TYPE nproxy_requests_total counter\n",
    metricsLine "nproxy_requests_total" m.requestsTotal,
    metricsLine "nproxy_requests_2xx_total" m.requests2xx,
    metricsLine "nproxy_requests_4xx_total" m.requests4xx,
    metricsLine "nproxy_requests_5xx_total" m.requests5xx,
    bytes "# HELP nproxy_active_connections Active connections\n",
    bytes "# TYPE nproxy_active_connections gauge\n",
    metricsLine "nproxy_active_connections" m.activeConnections,
    bytes "# HELP nproxy_upstream_errors_total Upstream errors\n",
    bytes "# TYPE nproxy_upstream_errors_total counter\n",
    metricsLine "nproxy_upstream_errors_total" m.upstreamErrors,
    bytes "# HELP nproxy_request_duration_seconds Request duration histogram\n",
    bytes "# TYPE nproxy_request_duration_seconds histogram\n"]

/-- The text that `metrics_handle` prints. -/
def metricsBody (m : Metrics) : List UInt8 :=
  metricsCounters m ++ metricsBuckets m ++ List.flatten [
    metricsLine "nproxy_request_duration_seconds_count" m.latencyCount,
    bytes "nproxy_request_duration_seconds_sum ", secondsText m.latencySumUs.toNat, bytes "\n"]

/-- `metrics_handle`: the text is shorter than its array of 4096 bytes. -/
def metricsHandle (junk : ℕ → UInt8) (m : Metrics) (wbuf : NpBuf) (req : HttpRequest) : NpBuf :=
  responseWriteSimple junk wbuf 200 (some (bytes "OK"))
    (some (bytes "text/plain; version=0.0.4")) (some (metricsBody m)) req.keepAlive

/-- `HEALTHZ_RESPONSE_KA` and `HEALTHZ_RESPONSE_CLOSE`. -/
def healthzResponse (keepAlive : Bool) : List UInt8 :=
  List.flatten [
    bytes "HTTP/1.1 200 OK", crlf,
    bytes "Content-Type: application/json", crlf,
    bytes "Content-Length: 16", crlf,
    bytes "Connection: ", connectionText keepAlive, crlf,
    crlf,
    bytes "\x7b\"status\":\"ok\"\x7d"]

/-- `health_handle`. -/
def healthHandle (wbuf : NpBuf) (req : HttpRequest) : NpBuf :=
  bufPut wbuf (healthzResponse req.keepAlive)

lemma Fills.metricsHandle (junk : ℕ → UInt8) (m : Metrics) (req : HttpRequest) :
    Fills (metricsHandle junk m · req) := .responseWriteSimple _ _ _ _ _ _

lemma Fills.healthHandle (req : HttpRequest) : Fills (healthHandle · req) := .bufPut _

end Nproxy
