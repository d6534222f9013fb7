import Nproxy.Http.Framed

/-!
Who answers a request, and what the head of the response says about the connection.

* `Writer keepAlive f`: the functions that print a head of the program's own, with the value
  that their `Connection` header is given.
* `Announces st st' keepAlive`: such a head was put in `conn->wbuf`. The head of a file is
  sent at once, as far as the socket takes it.
* `handlerDispatch_disposes`: `handler_dispatch` announces what the request asks for, or
  answers from the cache, or hands the request to an upstream.
-/

namespace Nproxy

/-- The states in which an upstream answers. -/
def ConnState.Relayed (s : ConnState) : Prop := s = .proxying ∨ s = .tunnel

instance (s : ConnState) : Decidable s.Relayed := inferInstanceAs (Decidable (_ ∨ _))

/-- The functions that print a head, and what it says. -/
inductive Writer (keepAlive : Bool) : (NpBuf → NpBuf) → Prop
  | error (status : ℕ) : Writer keepAlive (responseWriteError · status keepAlive)
  | simple (junk : ℕ → UInt8) (status : ℕ) (reason contentType body : Option (List UInt8)) :
      Writer keepAlive (responseWriteSimple junk · status reason contentType body keepAlive)
  | health {req : HttpRequest} (hreq : req.keepAlive = keepAlive) :
      Writer keepAlive (healthHandle · req)
  | metrics (junk : ℕ → UInt8) (m : Metrics) {req : HttpRequest}
      (hreq : req.keepAlive = keepAlive) : Writer keepAlive (metricsHandle junk m · req)
  | file (name : List UInt8) (f : OpenFile) :
      Writer keepAlive (bufPut · (fileHead name f keepAlive))

/-- A lookup in a cache. -/
def Act.looksUp : Act → Bool
  | .cacheLookup _ _ => true
  | _ => false

namespace St

/-- A head was put in the write buffer. -/
def Announces (st st' : St) (keepAlive : Bool) : Prop :=
  ∃ f, Writer keepAlive f ∧ (st'.conn.wbuf = f st.conn.wbuf ∨
    ∃ tape, st'.conn.wbuf = (bufWriteFd (f st.conn.wbuf) tape).buf)

/-- Was there a lookup? -/
def looked (st : St) : Bool := st.acts.any Act.looksUp

/-- Does the next lookup find something? -/
def finds (st : St) : Bool := (st.env.lookups.headD none).any fun entry => entry.data ≠ []

/-- The response comes from the cache. -/
def FromCache (st st' : St) : Prop := st.finds = true ∧ st'.looked = true

instance (st st' : St) : Decidable (FromCache st st') := inferInstanceAs (Decidable (_ ∧ _))

/-- The routes behind the cache: a head of the program's own, or an upstream. -/
inductive Resolves (keepAlive : Bool) (st st' : St) : Prop
  | own (htold : Announces st st' keepAlive) (hstate : ¬st'.conn.state.Relayed)
      (hfd : st'.conn.upstreamFd = st.conn.upstreamFd) (hlook : st'.looked = st.looked)
  | handed (hstate : st'.conn.state.Relayed) (hfd : 0 ≤ st'.conn.upstreamFd)
      (hwbuf : st'.conn.wbuf = st.conn.wbuf)

/-- What `handler_dispatch` does with a request: it answers itself and says whether it keeps the
connection, it takes the answer from the cache, or it hands the request over. -/
inductive Disposes (keepAlive : Bool) (st st' : St) : Prop
  | own (htold : Announces st st' keepAlive) (hstate : ¬st'.conn.state.Relayed)
      (hfd : st'.conn.upstreamFd = st.conn.upstreamFd) (hcache : ¬FromCache st st')
  | cached (hstate : ¬st'.conn.state.Relayed)
      (hfd : st'.conn.upstreamFd = st.conn.upstreamFd) (hcache : FromCache st st')
  | handed (hstate : st'.conn.state.Relayed) (hfd : 0 ≤ st'.conn.upstreamFd)
      (hwbuf : st'.conn.wbuf = st.conn.wbuf)

variable {st st1 st' : St} {keepAlive : Bool}

/-! ### Lookups -/

lemma looked_of_acts (h : st'.acts = st.acts) : st'.looked = st.looked := by
  rw [looked, looked, h]

lemma looked_append (as : List Act) (h : st'.acts = st.acts ++ as)
    (has : as.any Act.looksUp = false) : st'.looked = st.looked := by
  rw [looked, looked, h, List.any_append, has, Bool.or_false]

lemma openRegular_looked (st : St) (name : List UInt8) :
    (st.openRegular name).2.looked = st.looked := by
  rw [openRegular]
  simp only
  split
  · exact looked_append [.openFile name] rfl rfl
  · split
    · exact looked_append [.openFile name] rfl rfl
    · rename_i f
      split
      · exact looked_append [.openFile name] rfl rfl
      · rename_i fd _
        split
        · exact looked_append [.openFile name] rfl rfl
        · exact looked_append [.openFile name, .close fd]
            (by simp [St.close, opened, St.act]) rfl

lemma tryFilesLoop_looked (cfg : ServerConfig) (req : HttpRequest) (entries : List (List UInt8))
    (st : St) : (tryFilesLoop cfg req entries st).2.looked = st.looked := by
  induction entries generalizing st with
  | nil => rfl
  | cons entry entries ih =>
    have hopen := openRegular_looked st (tryFileName cfg req entry)
    rw [tryFilesLoop]
    split <;> rename_i heq <;> rw [heq] at hopen
    · exact hopen
    · exact (ih _).trans hopen

lemma findFile_looked (st : St) (req : HttpRequest) (cfg : ServerConfig) :
    (st.findFile req cfg).2.looked = st.looked := by
  rw [findFile]
  split
  · exact tryFilesLoop_looked _ _ _ _
  · have hopen := openRegular_looked st (plainFileName st.env.junk cfg req)
    simp only
    split <;> rename_i heq <;> rw [heq] at hopen <;> exact hopen

/-! ### The routes behind the cache -/

/-- What leaves the buffer and the upstream alone may come before. -/
lemma Resolves.of_before (st1 : St) (hwbuf : st1.conn.wbuf = st.conn.wbuf)
    (hfd : st1.conn.upstreamFd = st.conn.upstreamFd) (hlook : st1.looked = st.looked)
    (h : Resolves keepAlive st1 st') : Resolves keepAlive st st' := by
  cases h with
  | own htold hstate hfd' hlook' =>
    rw [Announces, hwbuf] at htold
    exact .own htold hstate (hfd'.trans hfd) (hlook'.trans hlook)
  | handed hstate hfd' hwbuf' => exact .handed hstate hfd' (hwbuf'.trans hwbuf)

lemma Resolves.of_conn (st1 : St) (hconn : st1.conn = st.conn) (hlook : st1.looked = st.looked)
    (h : Resolves keepAlive st1 st') : Resolves keepAlive st st' :=
  h.of_before st1 (congrArg Conn.wbuf hconn) (congrArg Conn.upstreamFd hconn) hlook

lemma Resolves.of_writer {f : NpBuf → NpBuf} (hf : Writer keepAlive f)
    (hwbuf : st'.conn.wbuf = f st.conn.wbuf) (hstate : st'.conn.state = .writingResponse)
    (hfd : st'.conn.upstreamFd = st.conn.upstreamFd) (hlook : st'.looked = st.looked) :
    Resolves keepAlive st st' :=
  .own ⟨f, hf, Or.inl hwbuf⟩ (by rw [hstate]; decide) hfd hlook

lemma Resolves.answer {f : NpBuf → NpBuf} (hf : Writer keepAlive f) (st : St) :
    Resolves keepAlive st (st.answer f) := .of_writer hf rfl rfl rfl rfl

/-- A file is closed before. -/
lemma Resolves.closeAnswer {f : NpBuf → NpBuf} (hf : Writer keepAlive f) (st : St) (fd : ℤ) :
    Resolves keepAlive st (((st.close fd).onWbuf f).setState .writingResponse) :=
  .of_writer hf rfl rfl rfl (looked_append [.close fd] rfl rfl)

lemma Resolves.answerError (st : St) (status : ℕ) (keepAlive : Bool) :
    Resolves keepAlive st (st.answerError status keepAlive) :=
  .of_writer (.error status) rfl rfl rfl rfl

lemma Resolves.mapCtx (h : Resolves keepAlive st st') (f : HandlerCtx → HandlerCtx) :
    Resolves keepAlive st (st'.mapCtx f) := by
  cases h with
  | own htold hstate hfd hlook => exact .own htold hstate hfd hlook
  | handed hstate hfd hwbuf => exact .handed hstate hfd hwbuf

lemma Resolves.accessLog (h : Resolves keepAlive st st') (status : ℤ) :
    Resolves keepAlive st (st'.act (.accessLog status)) := by
  cases h with
  | own htold hstate hfd hlook =>
    exact .own htold hstate hfd ((looked_append [.accessLog status] rfl rfl).trans hlook)
  | handed hstate hfd hwbuf => exact .handed hstate hfd hwbuf

/-- An error that is counted and logged. -/
lemma Resolves.turnAway (st : St) (status : ℕ) (keepAlive : Bool) :
    Resolves keepAlive st ((((st.onWbuf (responseWriteError · status keepAlive)).countRequest
      status).act (.accessLog status)).setState .writingResponse) :=
  .of_writer (.error status) rfl rfl rfl (looked_append [.accessLog status] rfl rfl)

lemma Resolves.startProxy (st : St) (req : HttpRequest) (i b : ℕ) {ufd : ℤ} (h0 : 0 ≤ ufd) :
    Resolves keepAlive st (st.startProxy req i b ufd) := by
  refine .handed ?_ h0 rfl
  change (if req.upgrade = true then ConnState.tunnel else .proxying).Relayed
  split <;> decide

lemma connected_same (st : St) (be : Backend) (asked : Bool) :
    (if asked then st.connected be else st).conn = st.conn ∧
      (if asked then st.connected be else st).looked = st.looked := by
  cases asked with
  | false => exact ⟨rfl, rfl⟩
  | true =>
    rw [if_pos rfl, connected]
    split <;> exact ⟨rfl, looked_append [.connect be.host be.port] rfl rfl⟩

lemma proxyHandle_resolves (st : St) (req : HttpRequest) (i : ℕ) (pool : UpstreamPool) :
    Resolves req.keepAlive st (st.proxyHandle req i pool) := by
  rw [proxyHandle]
  refine .of_before (st.mapConn fun c => { c with proxyPool := some i }) rfl rfl rfl ?_
  generalize (st.mapConn fun c => { c with proxyPool := some i }) = st0
  simp only
  split
  · rename_i pool' _
    refine .mapCtx ?_ _
    exact .of_conn (st0.setPool i pool') rfl rfl (.answerError _ 503 _)
  · rename_i b pool' _
    generalize upstreamGetConnection pool' b st0.nextConnect = r
    obtain ⟨ufd, pool', asked⟩ := r
    obtain ⟨hconn, hlook⟩ := connected_same (st0.setPool i pool') (pool'.backend b) asked
    simp only
    generalize (if asked then (st0.setPool i pool').connected (pool'.backend b)
      else st0.setPool i pool') = st1 at hconn hlook ⊢
    refine .of_conn (st0.setPool i pool') rfl rfl (.of_conn _ hconn hlook ?_)
    split
    · refine .mapCtx ?_ _
      exact .of_conn (st1.setPool i _) rfl rfl (.answerError _ 502 _)
    · rename_i hufd
      exact .startProxy st1 req i b (not_lt.mp hufd)

lemma fileServerHandle_resolves (st : St) (req : HttpRequest) (cfg : ServerConfig) :
    Resolves req.keepAlive st (st.fileServerHandle req cfg).2 := by
  have hconn := findFile_conn st req cfg
  have hlook := findFile_looked st req cfg
  rw [fileServerHandle]
  split
  · exact .answerError st 403 _
  · split <;> rename_i heq <;> rw [heq] at hconn hlook <;> refine .of_conn _ hconn hlook ?_
    · exact .answerError _ 404 _
    · rename_i f name st1
      split
      · exact .closeAnswer (.simple _ 304 _ _ _) st1 f.fd
      · refine .own ⟨_, .file name f, Or.inr ⟨_, rfl⟩⟩ ?_ rfl
          (looked_append [.respond _] rfl rfl)
        change ¬ConnState.sendfile.Relayed
        decide

lemma routeServer_resolves (st : St) (req : HttpRequest) (i : ℕ) :
    Resolves req.keepAlive st (st.routeServer req i) := by
  rw [routeServer]
  simp only
  split
  · refine .of_before _ (noteCache_wbuf st req i) ?_ ?_ (proxyHandle_resolves _ _ _ _) <;>
      rw [noteCache]
    · split <;> rfl
    · split
      · exact looked_append [.noteCache i _] rfl rfl
      · rfl
  · split
    · exact (fileServerHandle_resolves _ _ _).accessLog _
    · exact .turnAway st 404 _

/-! ### All routes -/

/-- What is found in the cache is not what is answered. -/
lemma Resolves.disposes (h : Resolves keepAlive st1 st') (hwbuf : st1.conn.wbuf = st.conn.wbuf)
    (hfd : st1.conn.upstreamFd = st.conn.upstreamFd)
    (hlook : st.finds = false ∨ st1.looked = false) : Disposes keepAlive st st' := by
  cases h with
  | own htold hstate hfd' hlook' =>
    rw [Announces, hwbuf] at htold
    refine .own htold hstate (hfd'.trans hfd) ?_
    rintro ⟨hfinds, hlooked⟩
    cases hlook with
    | inl hmiss => simp [hmiss] at hfinds
    | inr hsame => simp [hlook', hsame] at hlooked
  | handed hstate hfd' hwbuf' => exact .handed hstate hfd' (hwbuf'.trans hwbuf)

/-- A request comes to the cache: it is answered from there, or the routes behind it see
nothing of the lookup. -/
lemma lookupCache_cases (st : St) (req : HttpRequest) (i : ℕ) :
    (∃ st1 st2, st.lookupCache req i = (some st1, st2) ∧ st1.conn.state = .writingResponse ∧
        st1.conn.upstreamFd = st.conn.upstreamFd ∧ FromCache st st1) ∨
      ∃ st1, st.lookupCache req i = (none, st1) ∧ st1.conn = st.conn ∧
        (st.finds = false ∨ st1.looked = st.looked) := by
  have hlooked (entry : CacheEntry) (lookups : List (Option CacheEntry)) :
      ((({ st.act (.cacheLookup i (cacheKeyFromRequest req 1024)) with
        env := { st.env with lookups := lookups } } : St).answer (bufPut · entry.data)).act
          (.accessLog entry.status)).looked = true := by
    simp [looked, St.act, answer, onWbuf, setState, St.mapConn, Act.looksUp]
  rw [lookupCache]
  split
  · simp only
    split <;> rename_i hentry
    · rename_i entry
      replace hentry : st.env.lookups.headD none = some entry := hentry
      split <;> rename_i hdata
      · refine Or.inl ⟨_, _, rfl, rfl, rfl, ?_, hlooked entry _⟩
        rw [finds, hentry, Option.any_some]
        exact decide_eq_true (List.ne_nil_of_length_pos hdata)
      · refine Or.inr ⟨_, rfl, rfl, Or.inl ?_⟩
        rw [finds, hentry, Option.any_some]
        exact decide_eq_false (by simpa using hdata)
    · replace hentry : st.env.lookups.headD none = none := hentry
      refine Or.inr ⟨_, rfl, rfl, Or.inl ?_⟩
      rw [finds, hentry]
      rfl
  · exact Or.inr ⟨_, rfl, rfl, Or.inr rfl⟩

lemma route_disposes (hst : st.looked = false) (req : HttpRequest) (i : ℕ) :
    Disposes req.keepAlive st (st.route req i) := by
  rw [route]
  split
  · rename_i m _
    exact ((Resolves.answer (.metrics st.env.junk m rfl) st).accessLog 200).disposes rfl rfl
      (Or.inr hst)
  · split
    · exact ((Resolves.answer (.health rfl) st).accessLog 200).disposes rfl rfl (Or.inr hst)
    · rcases lookupCache_cases st req i with
        ⟨st1, st2, heq, hstate, hfd, hcache⟩ | ⟨st1, heq, hconn, hlook⟩ <;> rw [heq]
      · exact .cached (by rw [hstate]; decide) hfd hcache
      · refine (routeServer_resolves st1 req i).disposes (congrArg Conn.wbuf hconn)
          (congrArg Conn.upstreamFd hconn) ?_
        rwa [hst] at hlook

/-- What leaves the buffer, the upstream and the lookups alone may come before. -/
lemma Disposes.of_before (st1 : St) (hwbuf : st1.conn.wbuf = st.conn.wbuf)
    (hfd : st1.conn.upstreamFd = st.conn.upstreamFd) (hlook : st1.env.lookups = st.env.lookups)
    (h : Disposes keepAlive st1 st') : Disposes keepAlive st st' := by
  have hcache : FromCache st1 st' ↔ FromCache st st' := by
    rw [FromCache, FromCache, finds, finds, hlook]
  cases h with
  | own htold hstate hfd' hown =>
    rw [Announces, hwbuf] at htold
    exact .own htold hstate (hfd'.trans hfd) (hown ∘ hcache.mpr)
  | cached hstate hfd' hhit => exact .cached hstate (hfd'.trans hfd) (hcache.mp hhit)
  | handed hstate hfd' hwbuf' => exact .handed hstate hfd' (hwbuf'.trans hwbuf)

lemma routeLimited_disposes (hst : st.looked = false) (req : HttpRequest) (i : ℕ) :
    Disposes req.keepAlive st (st.routeLimited req i) := by
  obtain ⟨hconn, henv, -, -⟩ := checkRate_eq st req
  have hacts : (st.checkRate req).2.acts = st.acts := by
    rw [checkRate]
    split <;> rfl
  rw [routeLimited]
  generalize st.checkRate req = r at hconn henv hacts ⊢
  obtain ⟨ok, st1⟩ := r
  have hst1 : st1.looked = false := (looked_of_acts hacts).trans hst
  refine .of_before _ (congrArg Conn.wbuf hconn) (congrArg Conn.upstreamFd hconn)
    (congrArg Env.lookups henv) ?_
  cases ok with
  | false => exact (Resolves.turnAway st1 429 _).disposes rfl rfl (Or.inr hst1)
  | true => exact route_disposes hst1 req i

/-- The rewrite rules change the path of the request only. -/
lemma rewrite_same (st : St) (req : HttpRequest) (server : ServerConfig) :
    (st.rewrite req server).1.keepAlive = req.keepAlive ∧
      (st.rewrite req server).2.conn.upstreamFd = st.conn.upstreamFd ∧
      (st.rewrite req server).2.acts = st.acts := by
  rw [rewrite]
  split
  · exact ⟨rfl, rfl, rfl⟩
  · split <;> rename_i heq <;> rw [alloc] at heq <;> obtain ⟨-, rfl⟩ := Prod.mk.inj heq <;>
      exact ⟨rfl, rfl, rfl⟩

lemma routeModules_disposes (hst : st.looked = false) (req : HttpRequest) (i : ℕ) :
    Disposes req.keepAlive st (st.routeModules req i) := by
  rw [routeModules]
  split
  · rename_i r _
    exact ((Resolves.answer (.simple _ _ _ _ _) st).accessLog 200).disposes rfl rfl (Or.inr hst)
  · obtain ⟨hwbuf, hlookups⟩ := rewrite_eq st req (st.ws.hctx.config.server i)
    obtain ⟨hkeep, hfd, hacts⟩ := rewrite_same st req (st.ws.hctx.config.server i)
    simp only
    generalize st.rewrite req (st.ws.hctx.config.server i) = r at hwbuf hlookups hkeep hfd hacts ⊢
    rw [← hkeep]
    refine .of_before _ hwbuf hfd hlookups (routeLimited_disposes ?_ _ _)
    exact (looked_of_acts hacts).trans hst

/-- **`handler_dispatch`** announces what the request asks for, or leaves the answer to the
cache or to an upstream. -/
lemma handlerDispatch_disposes (hst : st.looked = false) (req : HttpRequest) :
    Disposes req.keepAlive st (st.handlerDispatch req) := by
  have hst1 (req' : HttpRequest) : ((st.act (.dispatch req)).setReq req').looked = false :=
    (looked_append [.dispatch req] rfl rfl).trans hst
  rw [handlerDispatch]
  refine .of_before ((st.act (.dispatch req)).setReq
    { req with remoteIp := inetNtop st.conn.peer }) rfl rfl rfl ?_
  exact routeModules_disposes (hst1 _) { req with remoteIp := inetNtop st.conn.peer } _

end St

end Nproxy
