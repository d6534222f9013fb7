import Nproxy.Proc.Handover

/-!
The key under which a response is inserted into the cache.

`handler_dispatch` looks a request up with a key of at most 1023 bytes, and when it hands
the request over it copies 255 of them to `conn->cache_key`; the response is inserted under
what stands there.

* `Keyed.covers`, `Keyed.coversUpstream`: the handlers change store and key as the log says.
* `Filing`: a request that was looked up and handed over, and its connection since. `Filing.last`
  is the request of the connection that was noted last.
* `insertKey_iff`: a response is inserted under the first 255 bytes of the key that was noted last,
  so under the key of its request if and only if these are that key, and two insertions are kept
  apart if and only if the keys noted last differ there.
* `longKeys_collide`: two requests whose keys do not.
-/

namespace Nproxy

/-! ### The array -/

/-- A string ends in front of the first NUL. -/
lemma cstr_append_zero {l : List UInt8} (h : 0 ∉ l) (rest : List UInt8) :
    cstr (l ++ 0 :: rest) = l := by
  have hl := cstr_eq_self_iff.mpr h
  rw [cstr] at hl ⊢
  rw [List.takeWhile_append, hl]
  simp

/-- The string that `strncpy` makes, in an array whose last byte is NUL. -/
lemma cstr_strncpyInto {dst src : List UInt8} {n : ℕ} (hsrc : 0 ∉ src) (hdst : dst.drop n = [0]) :
    cstr (strncpyInto dst src n) = src.take n := by
  have htake : 0 ∉ src.take n := fun h => hsrc (List.mem_of_mem_take h)
  rw [strncpyInto, hdst, List.append_assoc]
  cases n - src.length with
  | zero => exact cstr_append_zero htake []
  | succ k => exact cstr_append_zero htake _

lemma zero_notMem_cacheKey (req : HttpRequest) : 0 ∉ cacheKeyFromRequest req 1024 := by
  have hmethod : 0 ∉ httpMethodStr req.method := by
    cases req.method <;> decide
  have hhost : 0 ∉ hostText req := by
    rw [hostText]
    split
    · exact zero_notMem_cstr _
    · decide
  intro hmem
  rw [cacheKey_eq, List.mem_append, List.mem_cons] at hmem
  rcases hmem with hmem | hmem | hmem
  · exact hmethod hmem
  · exact absurd hmem (by decide)
  · have hask := List.mem_of_mem_take hmem
    rw [askText, List.mem_append, List.mem_cons] at hask
    rcases hask with hmem | hmem | hmem
    · exact hhost hmem
    · exact absurd hmem (by decide)
    · exact zero_notMem_cstr _ hmem

/-- Requests that ask for the same have the same key. -/
lemma SameAsk.cacheKey_eq {req req' : HttpRequest} (h : SameAsk req req') :
    cacheKeyFromRequest req 1024 = cacheKeyFromRequest req' 1024 := by
  refine (cacheKey_eq_iff req req').mpr ⟨h.method, ?_⟩
  rw [askText, askText, hostText, hostText, h.host, h.path]

/-! ### Handlers -/

namespace St.Keyed

variable {st : St}

lemma connPoolPut (st : St) : Keyed st st.connPoolPut := by
  obtain ⟨fds, freed, hacts⟩ := connPoolPut_acts st
  obtain ⟨fd, upstreamFd, fileFd, hclose⟩ := connClose_conn st
  have hkey : st.connPoolPut.conn.cacheStore = st.conn.cacheStore ∧
      st.connPoolPut.conn.cacheKey = st.conn.cacheKey := by
    rcases connPoolPut_conn st with hput | ⟨next, hput⟩ <;> rw [hput, hclose] <;> exact ⟨rfl, rfl⟩
  refine .of_same _ hacts hkey.1 hkey.2 fun a ha => ?_
  rcases List.mem_append.mp ha with ha | ha
  · obtain ⟨fd, -, rfl⟩ := List.mem_map.mp ha
    rfl
  · obtain rfl := List.mem_singleton.mp ha
    rfl

lemma coversAnswer : CoversAnswer Keyed where
  trans := trans
  stays h := h.keyed
  mapLoop _ _ := .of_same [] (List.append_nil _).symm rfl rfl (by simp)
  relay _ := .of_same [_] rfl rfl rfl (by simp [Act.files])
  startProxy _ _ _ _ _ := .of_same [] (List.append_nil _).symm rfl rfl (by simp)
  connPoolPut := connPoolPut
  workerConnClose st :=
    connPoolPut { st with ws := { st.ws with activeConns := st.ws.activeConns - 1 } }

/-- **The handlers of the client's events.** -/
lemma covers : Covers Keyed where
  toCoversAnswer := coversAnswer
  readClient _ := .of_same [_] rfl rfl rfl (by simp [Act.files])
  takeRequest _ _ _ := .of_same [] (List.append_nil _).symm rfl rfl (by simp)
  readTunnel _ := .of_same [_] rfl rfl rfl (by simp [Act.files])
  forwardAll _ _ := .of_same [_] rfl rfl rfl (by simp [Act.files])

/-- **The handler of the upstream's.** -/
lemma coversUpstream : CoversUpstream Keyed where
  toCoversAnswer := coversAnswer
  forwardOnce _ _ := .of_same [_] rfl rfl rfl (by simp [Act.files])
  readUpstream st tape := by
    rw [readUpstream]
    simp only
    split
    · exact .of_same [_] rfl rfl rfl (by simp [Act.files])
    · exact .of_same [_] rfl rfl rfl (by simp [Act.files])
    · exact .of_same [] (List.append_nil _).symm rfl rfl (by simp)
  unlinkUpstream _ _ := .of_same [] (List.append_nil _).symm rfl rfl (by simp)

end St.Keyed

/-! ### Runs -/

lemma drop_run_note (n : Option ℕ × List UInt8) (as : List Act) :
    (Run.run Act.note n as).2.drop 255 = n.2.drop 255 :=
  Run.run_invariant (P := fun m : Option ℕ × List UInt8 => m.2.drop 255 = n.2.drop 255)
    (fun m a h => by cases a <;> first | exact h | exact (drop_strncpyInto _ _ _).trans h) rfl as

namespace Life

variable {c : ConnId} {l : Life} {n : Option ℕ × List UInt8}

/-- The object files where the log says, and has always filed where the log said. -/
def KeepsLog (n : Option ℕ × List UInt8) (l : Life) : Prop :=
  l.conn.filing = Run.run Act.note n l.acts ∧ Run.Along Act.note Act.Filed n l.acts

lemma KeepsLog.handle (h : l.KeepsLog n) (ws : WorkerState) (env : Env) (f : St → St)
    (hf : St.Keyed ⟨c, l.conn, ws, env, []⟩ (f ⟨c, l.conn, ws, env, []⟩)) :
    (l.handle c ws env f).KeepsLog n := by
  obtain ⟨as, has, hfiling, halong⟩ := hf
  rw [List.nil_append] at has
  rw [h.1] at hfiling halong
  refine ⟨?_, ?_⟩
  · simp only [Life.handle, has, Run.run_append]
    exact hfiling
  · simp only [Life.handle, has]
    exact (Run.along_append _ _ _).mpr ⟨h.2, halong⟩

/-- **Every event keeps the log.** -/
lemma KeepsLog.step (h : l.KeepsLog n) (u : Use) : (l.step c u).KeepsLog n := by
  cases u with
  | client ws env ev =>
    exact h.handle ws env (fun st => st.onClientEvent ev) (St.Keyed.covers.onClientEvent _ ev)
  | upstream ws env fd ev =>
    exact h.handle ws env (fun st => st.proxyOnUpstreamEvent fd ev)
      (St.Keyed.coversUpstream.proxyOnUpstreamEvent _ fd ev)
  | get fd peer =>
    refine ⟨?_, ?_⟩
    · rw [Life.step, Run.run_append, ← h.1]
      rfl
    · exact (Run.along_append _ _ _).mpr ⟨h.2, trivial, trivial⟩

lemma KeepsLog.run (h : l.KeepsLog n) (us : List Use) :
    (Run.run (Life.step c) l us).KeepsLog n :=
  Run.run_invariant (P := KeepsLog n) (fun _ u h => h.step u) h us

/-- The last byte of the array is NUL in every life of an object. -/
lemma cacheKey_drop (c : ConnId) (addr : ℕ) (fd : ℤ) (peer : InAddr) (us : List Use) :
    (Run.run (Life.step c) (start addr fd peer) us).conn.cacheKey.drop 255 = [0] := by
  have hstart : (start addr fd peer).KeepsLog (connCreate addr fd peer).filing :=
    ⟨rfl, trivial, trivial⟩
  have hfiling := congrArg Prod.snd (hstart.run (c := c) us).1
  rw [show (Run.run (Life.step c) (start addr fd peer) us).conn.cacheKey = _ from hfiling,
    drop_run_note]
  rfl

end Life

/-! ### The request that was noted last -/

/-- The store and the key of the request that was noted last. -/
def Act.noted (m : ℕ × List UInt8) : Act → ℕ × List UInt8
  | .noteCache store key => (store, key)
  | _ => m

/-- What was noted last stands in the connection, as far as the array goes. -/
structure StandsFor (n : Option ℕ × List UInt8) (m : ℕ × List UInt8) : Prop where
  store : n.1 = some m.1
  key : cstr n.2 = m.2.take 255
  drop : n.2.drop 255 = [0]

lemma StandsFor.run {n : Option ℕ × List UInt8} {m : ℕ × List UInt8} {as : List Act}
    (h : StandsFor n m) (halong : Run.Along Act.note Act.Filed n as) :
    StandsFor (Run.run Act.note n as) (Run.run Act.noted m as) := by
  induction as generalizing n m with
  | nil => exact h
  | cons a as ih =>
    refine ih ?_ halong.2
    cases a with
    | noteCache store key =>
      -- a key that is copied takes the place of all that stood there
      obtain ⟨req, rfl⟩ := halong.1
      exact ⟨rfl, cstr_strncpyInto (zero_notMem_cacheKey req) h.drop,
        (drop_strncpyInto _ _ _).trans h.drop⟩
    | _ => exact h

/-- A request that was looked up in the cache and handed to a backend, and what happened
on its connection since. -/
structure Filing where
  c : ConnId
  addr : ℕ
  fd : ℤ
  peer : InAddr
  before : List Use
  ws : WorkerState
  env : Env
  data : List UInt8
  req : HttpRequest
  st : St
  calls : St.Calls ⟨c, (Run.run (Life.step c) (Life.start addr fd peer) before).conn, ws, env, []⟩
    data req st
  handed : (st.handlerDispatch req).conn.state = .proxying ∨
    (st.handlerDispatch req).conn.state = .tunnel
  store : ℕ
  key : List UInt8
  lookup : .cacheLookup store key ∈ (st.handlerDispatch req).acts
  after : List Use

namespace Filing

/-- What was done since the request was handed over. -/
def acts (f : Filing) : List Act :=
  (Run.run (Life.step f.c) ⟨(f.st.handlerDispatch f.req).conn, []⟩ f.after).acts

/-- The store and the key of the request that was noted last: this one, or another one of its
connection that was noted later. -/
def last (f : Filing) (as : List Act) : ℕ × List UInt8 := Run.run Act.noted (f.store, f.key) as

/-- The lookup was made with the key of the request as it was routed, and the connection
has the first 255 bytes of it. -/
lemma key_spec (f : Filing) : ∃ req1, f.req.Routed req1 ∧ f.key = cacheKeyFromRequest req1 1024 ∧
    StandsFor (f.st.handlerDispatch f.req).conn.filing (f.store, f.key) := by
  obtain ⟨req1, i, hrouted, hanswers | ⟨st1, b, ufd, hover, -, heq⟩⟩ :=
    St.handlerDispatch_settles f.st f.req
  · rcases f.handed with hp | hp <;> rcases hanswers with h | h <;> simp [h] at hp
  · have hacts : (f.st.handlerDispatch f.req).acts = st1.acts := by rw [heq]; rfl
    have hconn : (f.st.handlerDispatch f.req).conn.filing = st1.conn.filing := by rw [heq]; rfl
    -- the only lookup is the one of this dispatch
    obtain ⟨as, has, hlookups⟩ := hover.lookups
    have hlookup : .cacheLookup f.store f.key ∈ as := by
      have hmem := f.lookup
      rw [hacts, has, f.calls.st_eq] at hmem
      simpa [St.takeRequest, St.mapConn, St.alloc, St.readClient] using hmem
    obtain ⟨hcaching, hstore, hkey⟩ := hlookups _ _ hlookup
    obtain ⟨hcache, k, hk⟩ := hover.cache hcaching
    have hdrop : st1.conn.cacheKey.drop 255 = [0] := by
      obtain ⟨as, -, hfiling, -⟩ := hover.stays.keyed
      rw [show st1.conn.cacheKey = _ from congrArg Prod.snd hfiling, drop_run_note, f.calls.st_eq]
      exact Life.cacheKey_drop f.c f.addr f.fd f.peer f.before
    refine ⟨req1, hrouted, hkey, ?_⟩
    rw [hconn, Conn.filing, hcache, hk]
    rw [hk, drop_strncpyInto] at hdrop
    rw [hstore, hkey]
    exact ⟨rfl, cstr_strncpyInto (zero_notMem_cacheKey req1) hdrop,
      (drop_strncpyInto _ _ _).trans hdrop⟩

/-- **Whatever is inserted since** is inserted as the request that was noted last, under the first
255 bytes of its key. -/
lemma inserted (f : Filing) {as bs : List Act} {store : ℕ} {k data : List UInt8}
    (h : f.acts = as ++ .cacheInsert store k data :: bs) :
    store = (f.last as).1 ∧ k = (f.last as).2.take 255 := by
  obtain ⟨-, -, -, hstands⟩ := f.key_spec
  have hstart : Life.KeepsLog (f.st.handlerDispatch f.req).conn.filing
      ⟨(f.st.handlerDispatch f.req).conn, []⟩ := ⟨rfl, trivial⟩
  have halong := (hstart.run (c := f.c) f.after).2
  rw [show (Run.run (Life.step f.c) _ f.after).acts = _ from h, Run.along_append] at halong
  obtain ⟨hbefore, ⟨hstore, hk⟩, -⟩ := halong
  have hlast := hstands.run hbefore
  exact ⟨(Option.some.inj (hlast.store.symm.trans hstore)).symm, hk.trans hlast.key⟩

end Filing

/-- **Under which key a response is inserted.** The request was looked up with its key. An insertion
that its connection makes since goes to the store of the request that was noted last, and it is
made under the key of every request that asks for the same as this one if and only if the first 255
bytes of the key noted last are that key. Two insertions are made under different keys if and only
if the keys that were noted last differ in their first 255 bytes. -/
theorem insertKey_iff (f g : Filing) :
    (∃ req1, f.req.Routed req1 ∧ f.key = cacheKeyFromRequest req1 1024 ∧
      ∀ as store k data bs, f.acts = as ++ .cacheInsert store k data :: bs →
        store = (f.last as).1 ∧ ∀ req2, SameAsk req1 req2 →
          (k = cacheKeyFromRequest req2 1024 ↔ (f.last as).2.take 255 = f.key)) ∧
    ∀ as as' store store' k k' data data' bs bs', f.acts = as ++ .cacheInsert store k data :: bs →
      g.acts = as' ++ .cacheInsert store' k' data' :: bs' →
        (k ≠ k' ↔ (f.last as).2.take 255 ≠ (g.last as').2.take 255) := by
  obtain ⟨req1, hrouted, hkey, -⟩ := f.key_spec
  refine ⟨⟨req1, hrouted, hkey, fun as store k data bs h => ?_⟩,
    fun as as' store store' k k' data data' bs bs' hf hg => ?_⟩
  · obtain ⟨hstore, hk⟩ := f.inserted h
    refine ⟨hstore, fun req2 hsame => ?_⟩
    rw [← hsame.cacheKey_eq, ← hkey, hk]
  · rw [(f.inserted hf).2, (g.inserted hg).2]

/-! ### A short key and two long ones -/

/-- The backend answers and closes. -/
def backendAnswers : Use :=
  .upstream backendWorker.ws { idleEnv with
    upstreamReads := [.data (bytes "HTTP/1.1 200 OK"), .data []]
    clientWrites := [.wrote 65536]
    reallocs := [true] } 5 inEvent

/-- The page is asked for, and this happens on the connection since. -/
def pageFiling (after : List Use) : Filing where
  c := 0
  addr := 4096
  fd := 4
  peer := ⟨127, 0, 0, 1⟩
  before := []
  ws := (asked pageText).ws
  env := (asked pageText).env
  data := pageText
  req := askedRequest pageText
  st := askedCall pageText
  calls := pageText_calls
  handed := Or.inl (by decide +kernel)
  store := 0
  key := bytes "GET:_:/a"
  lookup := by decide +kernel
  after := after

/-- The backend answers. -/
def quietFiling : Filing := pageFiling [backendAnswers]

/-- The client asks for another page, on another descriptor, before the backend answers. -/
def busyFiling : Filing :=
  pageFiling [clientSays (List.flatten [bytes "GET /b HTTP/1.1", crlf, crlf]) 6, backendAnswers]

/-- The page is inserted under its key if it is the last one that was noted, and under the key of
the other page if that one was noted meanwhile. -/
theorem insertKey_iff_page :
    quietFiling.acts = quietFiling.acts.take 4 ++
      .cacheInsert 0 (bytes "GET:_:/a") (bytes "HTTP/1.1 200 OK") :: quietFiling.acts.drop 5 ∧
    busyFiling.acts = busyFiling.acts.take 9 ++
      .cacheInsert 0 (bytes "GET:_:/b") (bytes "HTTP/1.1 200 OK") :: busyFiling.acts.drop 10 ∧
    (∃ req1, quietFiling.req.Routed req1 ∧
      ∀ req2, SameAsk req1 req2 → bytes "GET:_:/a" = cacheKeyFromRequest req2 1024) ∧
    (∃ req1, busyFiling.req.Routed req1 ∧
      ∀ req2, SameAsk req1 req2 → bytes "GET:_:/b" ≠ cacheKeyFromRequest req2 1024) ∧
    bytes "GET:_:/a" ≠ bytes "GET:_:/b" := by
  have hquiet : quietFiling.acts = quietFiling.acts.take 4 ++
      .cacheInsert 0 (bytes "GET:_:/a") (bytes "HTTP/1.1 200 OK") :: quietFiling.acts.drop 5 := by
    decide +kernel
  have hbusy : busyFiling.acts = busyFiling.acts.take 9 ++
      .cacheInsert 0 (bytes "GET:_:/b") (bytes "HTTP/1.1 200 OK") :: busyFiling.acts.drop 10 := by
    decide +kernel
  obtain ⟨⟨req1, hrouted, -, hkey⟩, happart⟩ := insertKey_iff quietFiling busyFiling
  obtain ⟨⟨req1', hrouted', -, hkey'⟩, -⟩ := insertKey_iff busyFiling quietFiling
  refine ⟨hquiet, hbusy, ⟨req1, hrouted, fun req2 hsame => ?_⟩,
    ⟨req1', hrouted', fun req2 hsame => ?_⟩, ?_⟩
  · exact (((hkey _ _ _ _ _ hquiet).2) req2 hsame).mpr (by decide +kernel)
  · exact ((((hkey' _ _ _ _ _ hbusy).2) req2 hsame).not).mpr (by decide +kernel)
  · exact (happart _ _ _ _ _ _ _ _ _ _ hquiet hbusy).mpr (by decide +kernel)

/-- A client that asks for a page with a long name. -/
def longText (last : String) : List UInt8 :=
  List.flatten [bytes "GET /", List.replicate 250 97, bytes last, bytes " HTTP/1.1", crlf, crlf]

/-- The keys of the lookups. -/
def lookupKeys (as : List Act) : List (List UInt8) :=
  as.filterMap fun
    | .cacheLookup _ key => some key
    | _ => none

/-- The keys of the insertions. -/
def insertKeys (as : List Act) : List (List UInt8) :=
  as.filterMap fun
    | .cacheInsert _ key _ => some key
    | _ => none

/-- The page with this long name is asked for, and the backend answers. -/
def longRun (last : String) : Life :=
  Run.run (Life.step 0) (Life.start 4096 4 ⟨127, 0, 0, 1⟩) [clientSays (longText last) 5,
    backendAnswers]

/-- **Two keys that collide.** Two pages are looked up with different keys, and both are
inserted under one, with which neither is looked up. -/
theorem longKeys_collide :
    lookupKeys (longRun "x").acts = [bytes "GET:_:/" ++ List.replicate 250 97 ++ bytes "x"] ∧
      lookupKeys (longRun "y").acts = [bytes "GET:_:/" ++ List.replicate 250 97 ++ bytes "y"] ∧
      insertKeys (longRun "x").acts = [bytes "GET:_:/" ++ List.replicate 248 97] ∧
      insertKeys (longRun "y").acts = [bytes "GET:_:/" ++ List.replicate 248 97] :=
  ⟨by decide +kernel, by decide +kernel, by decide +kernel, by decide +kernel⟩

end Nproxy
