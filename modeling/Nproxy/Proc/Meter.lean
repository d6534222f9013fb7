import Nproxy.Http.Routes
import Nproxy.Proc.Backends
import Nproxy.Proc.Outcomes

/-!
The counters of requests over whole runs of a worker without modules.

`handler_dispatch` calls `metrics_inc_requests` for a request that is over the rate limit and
for one that nothing serves. The other exits do not call it, and neither does the proxy when
a response is complete.

* `Metered`: a worker, with the statuses of the requests that are complete: those that
  `handler_dispatch` has answered, and those that the proxy has carried to their end.
* `Right`: the counters are the numbers of these requests, in all and by class.
* `Tallies`: a request that is dispatched is over the limit, is not served by anything, or goes
  to a backend; and no request that is with a backend comes to its end.
* `right_iff_tallies`: the counters are right all along a run if and only if all of its steps
  are such.
* `exists_uncounted`: a request for the health page is answered, and not counted.
-/

namespace Nproxy

/-! ### What the counters should be -/

/-- The status is `k` hundred and something. -/
def inClass (k status : ℤ) : Bool := decide (100 * k ≤ status ∧ status < 100 * k + 100)

/-- The numbers of these statuses, in all and by class, as counters of 64 bits have them. -/
def RequestCounts.of (statuses : List ℤ) : RequestCounts where
  requestsTotal := .ofNat statuses.length
  requests2xx := .ofNat (statuses.countP (inClass 2))
  requests4xx := .ofNat (statuses.countP (inClass 4))
  requests5xx := .ofNat (statuses.countP (inClass 5))

namespace RequestCounts

/-- A counter of one class, with one status more. -/
lemma ofNat_countP_append (k : ℤ) (statuses : List ℤ) (status : ℤ) :
    UInt64.ofNat ((statuses ++ [status]).countP (inClass k)) =
      if inClass k status then UInt64.ofNat (statuses.countP (inClass k)) + 1
      else UInt64.ofNat (statuses.countP (inClass k)) := by
  rw [List.countP_append, List.countP_singleton]
  split
  · exact UInt64.ofNat_add _ _
  · rfl

/-- **`metrics_inc_requests` counts one request more.** -/
lemma of_append (statuses : List ℤ) {status : ℕ} (hstatus : status < 600) :
    of (statuses ++ [(status : ℤ)]) = (of statuses).inc status := by
  have htotal : UInt64.ofNat (statuses ++ [(status : ℤ)]).length =
      UInt64.ofNat statuses.length + 1 := by
    rw [List.length_append]
    exact UInt64.ofNat_add _ _
  simp only [of, inc, ofNat_countP_append, htotal, inClass, decide_eq_true_eq]
  split_ifs <;> first | rfl | omega

/-- The request makes a difference. -/
lemma of_append_ne (statuses : List ℤ) (status : ℤ) : of (statuses ++ [status]) ≠ of statuses := by
  intro h
  have htotal : UInt64.ofNat (statuses ++ [status]).length = UInt64.ofNat statuses.length :=
    congrArg requestsTotal h
  rw [List.length_append, List.length_singleton, UInt64.ofNat_add] at htotal
  simp at htotal

end RequestCounts

/-! ### Handlers that do not count -/

namespace St

variable {st : St} {fd : ℤ} {ev : Events}

lemma meter_closeClient (st : St) : st.closeClient.meter = st.meter := by
  rw [closeClient]
  split <;> rfl

lemma meter_closeUpstream (st : St) : st.closeUpstream.meter = st.meter := by
  rw [closeUpstream]
  split <;> rfl

lemma meter_closeFile (st : St) : st.closeFile.meter = st.meter := by
  rw [closeFile]
  split <;> rfl

lemma meter_connClose (st : St) : st.connClose.meter = st.meter :=
  calc st.connClose.meter
      = st.closeClient.closeUpstream.closeFile.meter := rfl
    _ = st.closeClient.closeUpstream.meter := meter_closeFile _
    _ = st.closeClient.meter := meter_closeUpstream _
    _ = st.meter := meter_closeClient st

lemma meter_connPoolPut (st : St) : st.connPoolPut.meter = st.meter := by
  rw [connPoolPut]
  simp only
  split <;> exact meter_connClose st

lemma meter_workerConnClose (st : St) : st.workerConnClose.meter = st.meter :=
  meter_connPoolPut _

lemma meter_sendfileLoop (tape : List SysSendfile) (st : St) :
    (sendfileLoop tape st).2.meter = st.meter := by
  induction tape generalizing st with
  | nil => rfl
  | cons r tape ih =>
    cases r with
    | again => rfl
    | err => rfl
    | sent k =>
      rw [sendfileLoop]
      simp only
      split
      · rfl
      · split
        · exact ih _
        · rfl

lemma meter_writeFile (st : St) : st.writeFile.meter = st.meter := by
  have hloop : (if st.conn.fileRemaining > 0 then
      sendfileLoop (onFd st.conn.fd .err st.env.sendfiles) st else (false, st)).2.meter =
        st.meter := by
    split
    · exact meter_sendfileLoop _ st
    · rfl
  rw [writeFile]
  split <;> rename_i heq <;> rw [heq] at hloop
  · exact (meter_connPoolPut _).trans hloop
  · split
    · simp only
      split
      · exact (meter_connPoolPut _).trans hloop
      · exact hloop
    · exact hloop

lemma meter_respondHead (st : St) : st.respondHead.meter = st.meter := by
  rw [respondHead]
  split <;> rfl

lemma meter_handleWrite (st : St) : st.handleWrite.meter = st.meter := by
  rw [handleWrite]
  split
  · have hhead := meter_respondHead st
    simp only
    split
    · exact hhead
    · exact (meter_writeFile _).trans hhead
  · simp only
    split <;> rfl
  · simp only
    split <;> rfl
  · simp only
    split
    · split
      · exact meter_connPoolPut _
      · rfl
    · rfl

lemma meter_afterDispatch (st : St) : st.afterDispatch.meter = st.meter := by
  have houtcome := afterDispatch_outcome st
  generalize st.afterDispatch = st' at houtcome ⊢
  cases houtcome with
  | handed hstate => rfl
  | last hstate hout hkeep => exact meter_connPoolPut _
  | next hstate hout hkeep => rfl
  | waits hstate hleft => rfl

lemma meter_tunnelRead (st : St) : st.tunnelRead.meter = st.meter := by
  have hread : st.readTunnel.2.meter = st.meter := rfl
  rw [tunnelRead]
  split
  rename_i n st1 heq
  rw [heq] at hread
  split
  · exact (meter_workerConnClose st1).trans hread
  · split
    · simp only
      split <;> exact hread
    · exact hread

lemma meter_answerError (st : St) (status : ℕ) (keepAlive : Bool) :
    (st.answerError status keepAlive).meter = st.meter := rfl

lemma meter_clientMod (st : St) (events : Events) : (st.clientMod events).meter = st.meter := rfl

lemma meter_respondOnce (st : St) : st.respondOnce.meter = st.meter := rfl

lemma meter_captureStatus (st : St) : st.captureStatus.meter = st.meter := by
  rcases captureStatus_cases st with heq | ⟨-, status, heq⟩ <;> rw [heq]
  rfl

lemma meter_captureCache (st : St) : st.captureCache.meter = st.meter := by
  rcases captureCache_cases st with heq | ⟨-, buf, len, cap, reallocs, -, heq⟩ <;> rw [heq]
  rfl

lemma meter_readUpstream (st : St) (tape : List SysRead) :
    (st.readUpstream tape).2.meter = st.meter := by
  rw [readUpstream]
  simp only
  split <;> rfl

lemma meter_relayTurn (st : St) : st.relayTurn.meter = st.meter :=
  calc st.relayTurn.meter
      = st.captureStatus.captureCache.meter := rfl
    _ = st.captureStatus.meter := meter_captureCache _
    _ = st.meter := meter_captureStatus st

lemma meter_upstreamLoop (tape : List SysRead) (st : St) :
    (upstreamLoop tape st).2.meter = st.meter := by
  induction tape generalizing st with
  | nil => exact meter_readUpstream st []
  | cons r tape ih =>
    have hread := meter_readUpstream st (r :: tape)
    rw [upstreamLoop]
    split <;> rename_i heq <;> rw [heq] at hread
    · exact ((ih _).trans (meter_relayTurn _)).trans hread
    · exact hread

lemma meter_storeCache (st : St) : st.storeCache.meter = st.meter := by
  rw [storeCache]
  split
  · split <;> rfl
  · rfl

lemma meter_putUpstream (st : St) (i b : ℕ) (fd : ℤ) :
    (st.putUpstream i b fd).meter = st.meter := by
  rw [putUpstream]
  split
  · rfl
  · split <;> rfl

lemma meter_logProxied (st : St) : st.logProxied.meter = st.meter := by
  rw [logProxied]
  split <;> rfl

lemma meter_settleUpstream (st : St) (n : Ret) (fd : ℤ) :
    (st.settleUpstream n fd).meter = st.meter := by
  rw [settleUpstream]
  split
  · have hstore := meter_storeCache st
    simp only
    split
    · exact ((meter_putUpstream _ _ _ fd).trans (meter_logProxied _)).trans hstore
    · exact hstore
  · rfl

lemma meter_finishProxy (st : St) (n : Ret) (fd : ℤ) : (st.finishProxy n fd).meter = st.meter :=
  (meter_workerConnClose _).trans (meter_settleUpstream _ n fd)

lemma meter_upstreamReadPart (st : St) (fd : ℤ) : (st.upstreamReadPart fd).meter = st.meter := by
  obtain ⟨n, st1, st2, hloop, hst2, hend⟩ := upstreamReadPart_cases st fd
  have hread := meter_upstreamLoop (onFd fd .err st.env.upstreamReads) st
  rw [hloop] at hread
  have hmod : st2.meter = st.meter := by
    rcases hst2 with rfl | rfl <;> exact hread
  rcases hend with ⟨-, heq⟩ | ⟨-, heq⟩ <;> rw [heq]
  · exact (meter_finishProxy st2 n fd).trans hmod
  · exact hmod

/-- **`proxy_on_upstream_event` counts no request.** -/
lemma meter_proxyOnUpstreamEvent (st : St) (fd : ℤ) (ev : Events) :
    (st.proxyOnUpstreamEvent fd ev).meter = st.meter := by
  rcases proxyOnUpstreamEvent_parts st fd ev with heq | ⟨st1, -, hst1, heq⟩ <;> rw [heq]
  · have hanswer := (meter_respondOnce _).trans (meter_answerError (st.forwardOnce fd).2 502 false)
    exact (meter_workerConnClose _).trans hanswer
  · have h1 : st1.meter = st.meter := by
      rcases hst1 with ⟨-, rfl⟩ | ⟨-, rfl | rfl⟩ <;> rfl
    split
    · exact (meter_upstreamReadPart st1 fd).trans h1
    · exact h1

/-! ### The client's events -/

/-- A request is dispatched. -/
def Dispatches (st : St) (ev : Events) : Prop :=
  ¬(ev.hup = true ∨ ev.err = true) ∧ ev.read = true ∧ ¬st.ReadFails ∧ st.Completes ∧ ¬st.NoMemory

instance (st : St) (ev : Events) : Decidable (st.Dispatches ev) :=
  inferInstanceAs (Decidable (_ ∧ _))

/-- The exit of the request that the event brings. -/
def eventRoute (st : St) (ev : Events) : Option Route :=
  if st.Dispatches ev then some (st.taking.dispatchRoute st.parsedRequest) else none

/-- `handle_read` with a request that is dispatched. -/
lemma handleRead_of_completes (hfails : ¬st.ReadFails) (hcompletes : st.Completes)
    (hmem : ¬st.NoMemory) : st.handleRead = st.served.afterDispatch := by
  obtain ⟨hstate, hdone⟩ := hcompletes
  rw [ReadFails, if_neg hstate] at hfails
  have hsome : bufReadable st.readClient.2.conn.rbuf ≠ 0 := by
    intro hzero
    have hnil : bufBytes st.readClient.2.conn.rbuf = [] := by
      rw [bufBytes, Memory.slice, ← bufReadable, hzero, List.take_zero]
    rw [hnil, parseFresh_nil] at hdone
    cases hdone
  have hparse : parseFresh (bufBytes st.readClient.2.conn.rbuf) = (.done, st.parsed) :=
    Prod.ext hdone rfl
  rw [handleRead, if_neg hstate]
  simp only
  rw [if_neg hfails, parseRequests, if_neg hsome, hparse]
  simp only
  rw [acceptRequest]
  split <;> rename_i heq
  · exact absurd (by rw [NoMemory, heq]) hmem
  · have hst1 := congrArg Prod.snd heq
    simp only at hst1
    rw [← hst1]
    rfl

/-- `handle_read` where the client's stream ends. -/
lemma handleRead_of_fails (hstate : st.conn.state ≠ .tunnel) (hfails : st.ReadFails) :
    st.handleRead = st.readClient.2.connPoolPut := by
  rw [ReadFails, if_neg hstate] at hfails
  rw [handleRead, if_neg hstate]
  exact if_pos hfails

/-- **`handle_read` counts nothing where no request is dispatched.** -/
lemma meter_handleRead (hnot : ¬(¬st.ReadFails ∧ st.Completes ∧ ¬st.NoMemory)) :
    st.handleRead.meter = st.meter := by
  by_cases hstate : st.conn.state = .tunnel
  · rw [handleRead, if_pos hstate]
    exact meter_tunnelRead st
  by_cases hfails : st.ReadFails
  · rw [handleRead_of_fails hstate hfails]
    exact meter_connPoolPut _
  have houtcome := handleRead_outcome st
  generalize st.handleRead = st' at houtcome ⊢
  cases houtcome with
  | tunnel hstate => exact meter_tunnelRead st
  | fails hstate hfails => exact meter_connPoolPut _
  | idle hstate => rfl
  | rejects hrejects => exact (meter_clientMod _ evW).trans (meter_answerError _ 400 false)
  | noMemory hcompletes hmem => exact meter_connPoolPut _
  | takes hcompletes hmem => exact absurd ⟨hfails, hcompletes, hmem⟩ hnot

/-- **`on_client_event`** counts what `handler_dispatch` counts. -/
lemma meter_onClientEvent (st : St) (hmodules : st.ws.hctx.modules = []) (ev : Events) :
    (st.onClientEvent ev).meter =
      match st.eventRoute ev with
      | some r => (st.meter.1, r.count st.meter.2)
      | none => st.meter := by
  have hwrite : ∀ st1 : St, (if ev.write then st1.handleWrite else st1).meter = st1.meter := by
    intro st1
    split
    · exact meter_handleWrite st1
    · rfl
  rw [eventRoute, onClientEvent]
  by_cases hdispatches : st.Dispatches ev
  · rw [if_pos hdispatches]
    obtain ⟨hup, hread, hfails, hcompletes, hmem⟩ := hdispatches
    rw [if_neg hup, if_pos hread, handleRead_of_completes hfails hcompletes hmem]
    calc (if ev.write then st.served.afterDispatch.handleWrite else st.served.afterDispatch).meter
        = st.served.afterDispatch.meter := hwrite _
      _ = st.served.meter := meter_afterDispatch _
      _ = (st.meter.1, (st.taking.dispatchRoute st.parsedRequest).count st.meter.2) :=
          (handlerDispatch_leaves st.taking st.parsedRequest hmodules).meter
  · rw [if_neg hdispatches]
    by_cases hup : ev.hup = true ∨ ev.err = true
    · rw [if_pos hup]
      exact meter_connPoolPut st
    · rw [if_neg hup]
      by_cases hread : ev.read = true
      · rw [if_pos hread]
        exact (hwrite _).trans (meter_handleRead fun h => hdispatches ⟨hup, hread, h⟩)
      · rw [if_neg hread]
        exact hwrite st

/-! ### The end of a request that is with a backend -/

instance (st : St) (fd : ℤ) (ev : Events) : Decidable (st.UpstreamEnds fd ev) :=
  inferInstanceAs (Decidable (_ ∧ _))

/-- The status of a request that an event of the upstream ends: that of the error which the
client gets where the upstream does not take the request, and where the upstream has closed
the one that was noted. -/
def endStatus (st : St) (fd : ℤ) (ev : Events) : Option ℤ :=
  if ev.write = true ∧ st.WriteFails fd then some 502
  else if st.UpstreamEnds fd ev then
    some (upstreamLoop (onFd fd .err (st.atRead fd ev).env.upstreamReads)
      (st.atRead fd ev)).2.conn.proxyStatus
  else none

end St

/-! ### Runs -/

namespace Worker

variable {w : Worker} {i : Input}

/-- The modules and the counters of requests. -/
def meter (w : Worker) : List Module × Option RequestCounts := w.ws.hctx.meter

/-- The exit of the request that the step dispatches. -/
def taken (w : Worker) : Input → Option Route
  | .wait _ => none
  | .handle env _ =>
    match w.pending with
    | (⟨.client c, _⟩, ev) :: _ => (w.handlerState c env).eventRoute ev
    | _ => none

/-- The status of the request that the step ends, on an upstream that is registered. -/
def ended (w : Worker) : Input → Option ℤ
  | .wait _ => none
  | .handle env _ =>
    match w.pending with
    | (⟨.upstream c, fd⟩, ev) :: _ =>
      if w.ws.loop.handlers fd = some ⟨.upstream c, fd⟩ then
        (w.handlerState c env).endStatus fd ev
      else none
    | _ => none

/-- The statuses of the requests that the step completes. -/
def completes (w : Worker) (i : Input) : List ℤ :=
  ((w.taken i).bind Route.status).toList ++ (w.ended i).toList

/-- A request that the step dispatches is over the rate limit, is not served by anything or
goes to a backend, and no request that is with a backend comes to its end. -/
structure Tallies (w : Worker) (i : Input) : Prop where
  taken : ∀ r, w.taken i = some r → r = .limited ∨ r = .fallback ∨ r = .handed
  ended : w.ended i = none

/-- **One step counts the request that it dispatches, if its exit does.** -/
lemma meter_step (hmodules : w.ws.hctx.modules = []) (i : Input) :
    (w.step i).meter =
      match w.taken i with
      | some r => (w.meter.1, r.count w.meter.2)
      | none => w.meter := by
  cases i with
  | wait events =>
    rw [step, taken]
    split <;> rfl
  | handle env accepts =>
    rw [step, taken]
    cases hpending : w.pending with
    | nil => rfl
    | cons e pending =>
      obtain ⟨⟨fn, fd⟩, ev⟩ := e
      cases fn with
      | accept =>
        exact congrArg HandlerCtx.meter
          (hctx_onAcceptEvent accepts { w with pending := pending })
      | signal => rfl
      | client c => exact St.meter_onClientEvent (w.handlerState c env) hmodules ev
      | upstream c => exact St.meter_proxyOnUpstreamEvent (w.handlerState c env) fd ev

/-- A step that ends a request dispatches none. -/
lemma taken_of_ended {status : ℤ} (h : w.ended i = some status) : w.taken i = none := by
  cases i with
  | wait events => rfl
  | handle env accepts =>
    rw [ended] at h
    rw [taken]
    split at h
    · rename_i heq
      rw [heq]
    · cases h

end Worker

/-- A worker, with the statuses of the requests that are complete. -/
structure Metered where
  worker : Worker
  completed : List ℤ

namespace Metered

/-- A step of the worker. -/
def step (s : Metered) (i : Input) : Metered where
  worker := s.worker.step i
  completed := s.completed ++ s.worker.completes i

/-- **The counters are right**: they are the numbers of the requests that are complete. -/
def Right (s : Metered) : Prop :=
  s.worker.ws.hctx.metrics.map Metrics.requestCounts = some (.of s.completed)

lemma worker_step (s : Metered) (i : Input) : (s.step i).worker = s.worker.step i := rfl

/-- No module is loaded, and the counters are right. -/
structure Good (s : Metered) : Prop where
  modules : s.worker.ws.hctx.modules = []
  right : s.Right

variable {s : Metered} {w : Worker} {i : Input}

lemma Good.modules_step (h : s.Good) (i : Input) : (s.step i).worker.ws.hctx.modules = [] := by
  have hstep := congrArg Prod.fst (Worker.meter_step h.modules i)
  split at hstep <;> exact hstep.trans h.modules

lemma Good.counts_step (h : s.Good) (i : Input) :
    (s.step i).worker.ws.hctx.metrics.map Metrics.requestCounts =
      match s.worker.taken i with
      | some r => r.count (some (.of s.completed))
      | none => some (.of s.completed) := by
  have hright : s.worker.meter.2 = some (.of s.completed) := h.right
  have hstep := congrArg Prod.snd (Worker.meter_step h.modules i)
  rw [← hright]
  cases htaken : s.worker.taken i <;> rw [htaken] at hstep <;> exact hstep

/-- **A step that meets the condition keeps the counters right.** -/
lemma Good.step (h : s.Good) (hi : s.worker.Tallies i) : (s.step i).Good := by
  refine ⟨h.modules_step i, ?_⟩
  rw [Right, h.counts_step i, Metered.step, Worker.completes, hi.ended]
  cases htaken : s.worker.taken i with
  | none => simp
  | some r =>
    rcases hi.taken r htaken with rfl | rfl | rfl
    · exact congrArg some (RequestCounts.of_append s.completed (show 429 < 600 by decide)).symm
    · exact congrArg some (RequestCounts.of_append s.completed (show 404 < 600 by decide)).symm
    · simp [Route.count, Route.status]

/-- A step that leaves the counters alone and completes a request. -/
lemma not_right_of_completes {status : ℤ} (hcompletes : s.worker.completes i = [status])
    (hcounts : (s.step i).worker.ws.hctx.metrics.map Metrics.requestCounts =
      some (.of s.completed)) : ¬(s.step i).Right := by
  intro hright
  rw [Right, hcounts, Metered.step, hcompletes] at hright
  exact RequestCounts.of_append_ne s.completed status (Option.some.inj hright).symm

/-- **Any other step completes a request that it does not count.** -/
lemma Good.not_right_step (h : s.Good) (hi : ¬s.worker.Tallies i) : ¬(s.step i).Right := by
  have hcounts := h.counts_step i
  cases hended : s.worker.ended i with
  | some status =>
    have htaken := Worker.taken_of_ended hended
    rw [htaken] at hcounts
    exact not_right_of_completes (by rw [Worker.completes, htaken, hended]; rfl) hcounts
  | none =>
    obtain ⟨r, htaken, hr⟩ : ∃ r, s.worker.taken i = some r ∧
        ¬(r = .limited ∨ r = .fallback ∨ r = .handed) := by
      by_contra hall
      exact hi ⟨fun r hr => by_contra fun hne => hall ⟨r, hr, hne⟩, hended⟩
    rw [htaken] at hcounts
    have hone : ∀ {status}, r.status = some status → s.worker.completes i = [status] := by
      intro status hstatus
      rw [Worker.completes, htaken, hended, Option.bind_some, hstatus]
      rfl
    cases r with
    | limited => exact absurd (Or.inl rfl) hr
    | fallback => exact absurd (Or.inr (Or.inl rfl)) hr
    | handed => exact absurd (Or.inr (Or.inr rfl)) hr
    | metrics => exact not_right_of_completes (hone rfl) hcounts
    | health => exact not_right_of_completes (hone rfl) hcounts
    | hit status => exact not_right_of_completes (hone rfl) hcounts
    | refused status => exact not_right_of_completes (hone rfl) hcounts
    | file status => exact not_right_of_completes (hone rfl) hcounts

/-- **The counters are right all along a run if and only if every request that the run
completes is over the rate limit or not served by anything.** -/
theorem right_iff_tallies (w : Worker) (hmodules : w.ws.hctx.modules = [])
    (hmetrics : w.ws.hctx.metrics = some metricsCreate) (is : List Input) :
    (∀ js, js <+: is → (Run.run step ⟨w, []⟩ js).Right) ↔
      Run.Along Worker.step Worker.Tallies w is := by
  have hgood : Good ⟨w, []⟩ := by
    refine ⟨hmodules, ?_⟩
    rw [Right, hmetrics]
    rfl
  rw [← Run.along_comap worker_step ⟨w, []⟩]
  exact Run.forall_prefix_iff_along (fun _ h => h.right) (fun _ _ h hi => h.step hi)
    (fun _ _ h hi => h.not_right_step hi) hgood is

/-! ### Two runs -/

/-- A worker that counts, of a server that has nothing to serve. -/
def bareWorker : Worker := { backendWorker with ws := bareClient.ws }

/-- A client comes and asks for a page. -/
def oneRequest (path : String) : List Input := clientComes ++ clientAsks path

lemma tallies_of_none (htaken : w.taken i = none) (hended : w.ended i = none) : w.Tallies i :=
  ⟨fun r hr => absurd (htaken.symm.trans hr) (by simp), hended⟩

lemma tallies_of_fallback (htaken : w.taken i = some .fallback) (hended : w.ended i = none) :
    w.Tallies i :=
  ⟨fun _ hr => Or.inr (Or.inl (Option.some.inj (hr.symm.trans htaken))), hended⟩

/-- A client is told that there is nothing, and is counted. -/
theorem right_iff_tallies_oneRequest :
    Run.Along Worker.step Worker.Tallies bareWorker (oneRequest "/") ∧
    (Run.run step ⟨bareWorker, []⟩ (oneRequest "/")).completed = [404] ∧
    ∀ js, js <+: oneRequest "/" → (Run.run step ⟨bareWorker, []⟩ js).Right := by
  have halong : Run.Along Worker.step Worker.Tallies bareWorker (oneRequest "/") := by
    refine ⟨tallies_of_none rfl rfl, tallies_of_none rfl rfl, tallies_of_none rfl rfl,
      tallies_of_fallback ?_ rfl, trivial⟩
    decide +kernel
  exact ⟨halong, by decide +kernel, (right_iff_tallies bareWorker rfl rfl _).mpr halong⟩

/-- **A request that is answered and not counted.** -/
theorem exists_uncounted : ∃ w is, w.ws.hctx.modules = [] ∧
    w.ws.hctx.metrics = some metricsCreate ∧
    (Run.run step ⟨w, []⟩ is).completed = [200] ∧
    (Run.run step ⟨w, []⟩ is).worker.ws.hctx.metrics = some metricsCreate ∧
    ¬(Run.run step ⟨w, []⟩ is).Right := by
  refine ⟨bareWorker, oneRequest "/healthz", rfl, rfl, by decide +kernel, by decide +kernel, ?_⟩
  rw [Right]
  decide +kernel

end Metered

end Nproxy
