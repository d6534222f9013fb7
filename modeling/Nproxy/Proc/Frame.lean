import Nproxy.Proc.Worker

/-!
What the operations of a handler leave alone.

Most of what a handler does concerns the connection's own buffers, its response
and the counters of the worker. `Steady st st'` says so in the terms that the
properties of whole runs need: the connection keeps its descriptors and its place
in the pool, the pool is untouched, nothing is read from or relayed for the
upstream, and every handler registered afterwards was there before or is one of
the connection's own. It composes, so each operation has one lemma and each
handler is the composition of its operations.

`Stays st st'` says in addition that the bytes of the client stay where they are,
in `rbuf` and in `upstream_wbuf`; all steady operations but those that move them
(`readClient`, `readTunnel`, `forwardAll`, `forwardOnce`) are of this kind.
`Keyed` is the record of the key for the cache.

Four operations are not steady, and the properties of runs are about them:
giving the connection back (`connPoolPut`), a new upstream descriptor
(`startProxy`), and reading from and relaying for the upstream.
-/

namespace Nproxy

/-- An action that concerns neither the pool nor the upstream's stream. -/
def Act.quiet : Act → Bool
  | .poolGet | .poolPut _ | .relay _ | .upstreamRead _ _ | .upstreamEof _ => false
  | _ => true

/-- An action after which an object that is handed out again differs from a new one. -/
def Act.taints : Act → Bool
  | .noteCache _ _ => true
  | .noteStatus status => status ≠ 0
  | _ => false

/-- An action that is quiet and taints nothing. -/
def Act.plain (a : Act) : Bool := a.quiet && !a.taints

/-- A note for the cache, or an insertion into it. -/
def Act.files : Act → Bool
  | .cacheInsert _ _ _ | .noteCache _ _ => true
  | _ => false

/-- Where a connection files its response: `cache_store`, and the array of `cache_key`. -/
def Conn.filing (c : Conn) : Option ℕ × List UInt8 := (c.cacheStore, c.cacheKey)

/-- What an action makes of that. -/
def Act.note (n : Option ℕ × List UInt8) : Act → Option ℕ × List UInt8
  | .noteCache store key => (some store, strncpyInto n.2 key 255)
  | _ => n

/-- An insertion goes where the connection files, and what is noted is the key of a request. -/
def Act.Filed (n : Option ℕ × List UInt8) : Act → Prop
  | .cacheInsert store key _ => n.1 = some store ∧ key = cstr n.2
  | .noteCache _ key => ∃ req, key = cacheKeyFromRequest req 1024
  | _ => True

lemma Act.note_of_not_files {a : Act} (h : a.files = false) (n : Option ℕ × List UInt8) :
    a.note n = n := by
  cases a <;> first | rfl | simp [Act.files] at h

lemma Act.filed_of_not_files {a : Act} (h : a.files = false) (n : Option ℕ × List UInt8) :
    a.Filed n := by
  cases a <;> trivial

lemma Act.quiet_of_plain {a : Act} (h : a.plain = true) : a.quiet = true :=
  (Bool.and_eq_true _ _ ▸ h).1

lemma Act.not_taints_of_plain {a : Act} (h : a.plain = true) : a.taints = false := by
  simpa using (Bool.and_eq_true _ _ ▸ h : a.quiet = true ∧ (!a.taints) = true).2

/-- The sizes of the buffers. -/
def Conn.caps (c : Conn) : ℕ × ℕ × ℕ × ℕ :=
  (c.rbuf.cap, c.wbuf.cap, c.upstreamRbuf.cap, c.upstreamWbuf.cap)

/-- The fields that `conn_reset` does not set. -/
def Conn.leftover (c : Conn) : Option ℕ × List UInt8 × Option (List UInt8) × ℕ × ℕ × ℤ :=
  (c.cacheStore, c.cacheKey, c.cacheBuf, c.cacheLen, c.cacheCap, c.proxyStatus)

/-- The part of a connection that most operations leave alone. -/
structure ConnFrame where
  fd : ℤ
  upstreamFd : ℤ
  next : Option ConnId
  upstreamRbuf : NpBuf
  caps : ℕ × ℕ × ℕ × ℕ
  origin : ℕ × ℕ × ℕ
  leftover : Option ℕ × List UInt8 × Option (List UInt8) × ℕ × ℕ × ℤ

/-- That part of this connection. -/
def Conn.frame (c : Conn) : ConnFrame :=
  ⟨c.fd, c.upstreamFd, c.next, c.upstreamRbuf, c.caps, c.arena.origin, c.leftover⟩

/-- An object that was allocated at `addr`; without a store for its response, the
fields of the cache are as in a new one. -/
structure Conn.Lives (c : Conn) (addr : ℕ) : Prop where
  caps : c.caps = (connAlloc addr).caps
  origin : c.arena.origin = (connAlloc addr).arena.origin
  blank : c.cacheStore = none → c.cacheKey = (connAlloc addr).cacheKey ∧ c.cacheBuf = none ∧
    c.cacheLen = 0 ∧ c.cacheCap = 0

/-- The object has neither a store nor a status. -/
def Conn.Clean (c : Conn) : Prop := c.cacheStore = none ∧ c.proxyStatus = 0

lemma Conn.Lives.congr {c c' : Conn} {addr : ℕ} (h : c.Lives addr) (hcaps : c'.caps = c.caps)
    (horigin : c'.arena.origin = c.arena.origin) (hleft : c'.leftover = c.leftover) :
    c'.Lives addr := by
  simp only [Conn.leftover, Prod.mk.injEq] at hleft
  obtain ⟨hstore, hkey, hbuf, hlen, hcap, -⟩ := hleft
  refine ⟨hcaps.trans h.caps, horigin.trans h.origin, ?_⟩
  rw [hstore, hkey, hbuf, hlen, hcap]
  exact h.blank

lemma Conn.clean_congr {c c' : Conn} (hleft : c'.leftover = c.leftover) : c'.Clean ↔ c.Clean := by
  simp only [Conn.leftover, Prod.mk.injEq] at hleft
  obtain ⟨hstore, -, -, -, -, hstatus⟩ := hleft
  rw [Conn.Clean, Conn.Clean, hstore, hstatus]

namespace St

/-- A registration of this connection: `on_client_event` on its client's
descriptor, or `proxy_on_upstream_event` on its upstream's. -/
def Own (st : St) (fd : ℤ) (h : EvHandler) : Prop :=
  fd < st.ws.loop.maxFd ∧
    ((h = ⟨.client st.self, fd⟩ ∧ fd = st.conn.fd) ∨
      (h = ⟨.upstream st.self, fd⟩ ∧ fd = st.conn.upstreamFd ∧ 0 ≤ fd))

/-- The connection and its registrations stay what they are. -/
structure Steady (st st' : St) : Prop where
  self : st'.self = st.self
  fd : st'.conn.fd = st.conn.fd
  upstreamFd : st'.conn.upstreamFd = st.conn.upstreamFd
  next : st'.conn.next = st.conn.next
  upstreamRbuf : st'.conn.upstreamRbuf = st.conn.upstreamRbuf
  tunnel : st'.conn.state = .tunnel → st.conn.state = .tunnel
  pool : st'.ws.pool = st.ws.pool
  config : st'.ws.hctx.config = st.ws.hctx.config
  maxFd : st'.ws.loop.maxFd = st.ws.loop.maxFd
  wf : st.conn.BufsWf → st'.conn.BufsWf
  lives : ∀ addr, st.conn.Lives addr → st'.conn.Lives addr
  handlers : ∀ fd h, st'.ws.loop.handlers fd = some h →
    st.ws.loop.handlers fd = some h ∨ st.Own fd h
  acts : ∃ as, st'.acts = st.acts ++ as ∧ (∀ a ∈ as, a.quiet = true) ∧
    (st'.conn.Clean ↔ st.conn.Clean ∧ ∀ a ∈ as, a.taints = false)

/-- Store and key are those that the log says, and what is inserted goes where they said at that
moment. -/
def Keyed (st st' : St) : Prop :=
  ∃ as, st'.acts = st.acts ++ as ∧ st'.conn.filing = Run.run Act.note st.conn.filing as ∧
    Run.Along Act.note Act.Filed st.conn.filing as

variable {st st' st'' : St}

namespace Keyed

lemma trans (h1 : Keyed st st') (h2 : Keyed st' st'') : Keyed st st'' := by
  obtain ⟨as, has, hfiling, halong⟩ := h1
  obtain ⟨bs, hbs, hfiling', halong'⟩ := h2
  rw [hfiling] at hfiling' halong'
  refine ⟨as ++ bs, by rw [hbs, has, List.append_assoc], ?_, ?_⟩
  · rw [hfiling', Run.run_append]
  · exact (Run.along_append _ _ _).mpr ⟨halong, halong'⟩

/-- An operation that inserts nothing and leaves the key alone. -/
lemma of_same (as : List Act) (hacts : st'.acts = st.acts ++ as)
    (hstore : st'.conn.cacheStore = st.conn.cacheStore)
    (hkey : st'.conn.cacheKey = st.conn.cacheKey) (hfiles : ∀ a ∈ as, a.files = false) :
    Keyed st st' := by
  have hrun : ∀ n, Run.run Act.note n as = n ∧ Run.Along Act.note Act.Filed n as := by
    intro n
    clear hacts
    induction as with
    | nil => exact ⟨rfl, trivial⟩
    | cons a as ih =>
      have ha := hfiles a List.mem_cons_self
      obtain ⟨hrun, halong⟩ := ih fun b hb => hfiles b (List.mem_cons_of_mem a hb)
      rw [Run.run_cons, Run.along_cons, Act.note_of_not_files ha]
      exact ⟨hrun, Act.filed_of_not_files ha n, halong⟩
  refine ⟨as, hacts, ?_, (hrun _).2⟩
  rw [(hrun _).1, Conn.filing, Conn.filing, hstore, hkey]

end Keyed

namespace Steady

/-- An operation that leaves the frame of the connection and the pool alone. -/
lemma of_frame (as : List Act) (hself : st'.self = st.self)
    (hframe : st'.conn.frame = st.conn.frame)
    (htun : st'.conn.state = .tunnel → st.conn.state = .tunnel)
    (hwf : st.conn.BufsWf → st'.conn.BufsWf) (hpool : st'.ws.pool = st.ws.pool)
    (hconfig : st'.ws.hctx.config = st.ws.hctx.config)
    (hmax : st'.ws.loop.maxFd = st.ws.loop.maxFd)
    (hhandlers : ∀ fd h, st'.ws.loop.handlers fd = some h →
      st.ws.loop.handlers fd = some h ∨ st.Own fd h)
    (hacts : st'.acts = st.acts ++ as) (hplain : ∀ a ∈ as, a.plain = true) : Steady st st' where
  self := hself
  fd := congrArg ConnFrame.fd hframe
  upstreamFd := congrArg ConnFrame.upstreamFd hframe
  next := congrArg ConnFrame.next hframe
  upstreamRbuf := congrArg ConnFrame.upstreamRbuf hframe
  tunnel := htun
  pool := hpool
  config := hconfig
  maxFd := hmax
  wf := hwf
  lives := fun _ h => h.congr (congrArg ConnFrame.caps hframe) (congrArg ConnFrame.origin hframe)
    (congrArg ConnFrame.leftover hframe)
  handlers := hhandlers
  acts := by
    refine ⟨as, hacts, fun a ha => Act.quiet_of_plain (hplain a ha), ?_⟩
    rw [Conn.clean_congr (congrArg ConnFrame.leftover hframe)]
    exact (and_iff_left fun a ha => Act.not_taints_of_plain (hplain a ha)).symm

lemma trans (h1 : Steady st st') (h2 : Steady st' st'') : Steady st st'' := by
  obtain ⟨as, has, hq, hc⟩ := h1.acts
  obtain ⟨bs, hbs, hq', hc'⟩ := h2.acts
  refine ⟨h2.self.trans h1.self, h2.fd.trans h1.fd, h2.upstreamFd.trans h1.upstreamFd,
    h2.next.trans h1.next, h2.upstreamRbuf.trans h1.upstreamRbuf, h1.tunnel ∘ h2.tunnel,
    h2.pool.trans h1.pool, h2.config.trans h1.config, h2.maxFd.trans h1.maxFd, h2.wf ∘ h1.wf,
    fun addr h => h2.lives addr (h1.lives addr h), ?_, as ++ bs,
    by rw [hbs, has, List.append_assoc], ?_, ?_⟩
  · intro fd h hh
    rcases h2.handlers fd h hh with hh | hown
    · exact h1.handlers fd h hh
    · right
      rw [Own, h1.self, h1.fd, h1.upstreamFd, h1.maxFd] at hown
      exact hown
  · intro a ha
    rcases List.mem_append.mp ha with ha | ha
    · exact hq a ha
    · exact hq' a ha
  · simp only [hc', hc, List.mem_append, or_imp, forall_and, and_assoc]

/-- A system call on a buffer other than `upstream_rbuf`. -/
lemma syscall {c : Conn} {e : Env} {a : Act} (ha : a.plain = true)
    (hframe : c.frame = st.conn.frame) (hstate : c.state = st.conn.state)
    (hwf : st.conn.BufsWf → c.BufsWf) :
    Steady st { st with conn := c, env := e, acts := st.acts ++ [a] } :=
  of_frame [a] rfl hframe (fun h => hstate ▸ h) hwf rfl rfl rfl (fun _ _ => Or.inl) rfl
    (by simpa using ha)

lemma readClient : Steady st st.readClient.2 :=
  syscall rfl (by simp [Conn.frame, Conn.caps, Conn.leftover]) rfl fun h =>
    ⟨(bufReadLoop_spec h.rbuf _).1, h.wbuf, h.upstreamRbuf, h.upstreamWbuf⟩

lemma readTunnel : Steady st st.readTunnel.2 :=
  syscall rfl (by simp [Conn.frame, Conn.caps, Conn.leftover]) rfl fun h =>
    ⟨h.rbuf, h.wbuf, h.upstreamRbuf, (bufReadLoop_spec h.upstreamWbuf _).1⟩

lemma forwardAll (fd : ℤ) : Steady st (st.forwardAll fd) :=
  syscall rfl (by simp [Conn.frame, Conn.caps, Conn.leftover]) rfl fun h =>
    ⟨h.rbuf, h.wbuf, h.upstreamRbuf, (bufWriteLoop_spec h.upstreamWbuf _).1⟩

lemma forwardOnce (fd : ℤ) : Steady st (st.forwardOnce fd).2 :=
  syscall rfl (by simp [Conn.frame, Conn.caps, Conn.leftover]) rfl fun h =>
    ⟨h.rbuf, h.wbuf, h.upstreamRbuf, (bufWriteFd_spec h.upstreamWbuf _).1⟩

end Steady

/-- The connection and its registrations stay what they are, and so do the bytes that
came from the client. -/
structure Stays (st st' : St) : Prop extends Steady st st' where
  rbuf : st'.conn.rbuf = st.conn.rbuf
  upstreamWbuf : st'.conn.upstreamWbuf = st.conn.upstreamWbuf
  keyed : Keyed st st'

namespace Stays

/-- An operation that leaves the frame of the connection, the client's bytes and the pool
alone, and inserts nothing. -/
lemma of_frame (as : List Act) (hself : st'.self = st.self)
    (hframe : st'.conn.frame = st.conn.frame) (hrbuf : st'.conn.rbuf = st.conn.rbuf)
    (hwbuf : st'.conn.upstreamWbuf = st.conn.upstreamWbuf)
    (htun : st'.conn.state = .tunnel → st.conn.state = .tunnel)
    (hwf : st.conn.BufsWf → st'.conn.BufsWf) (hpool : st'.ws.pool = st.ws.pool)
    (hconfig : st'.ws.hctx.config = st.ws.hctx.config)
    (hmax : st'.ws.loop.maxFd = st.ws.loop.maxFd)
    (hhandlers : ∀ fd h, st'.ws.loop.handlers fd = some h →
      st.ws.loop.handlers fd = some h ∨ st.Own fd h)
    (hacts : st'.acts = st.acts ++ as) (hplain : ∀ a ∈ as, a.plain = true)
    (hfiles : ∀ a ∈ as, a.files = false) : Stays st st' := by
  have hleft := congrArg ConnFrame.leftover hframe
  simp only [Conn.frame, Conn.leftover, Prod.mk.injEq] at hleft
  exact ⟨.of_frame as hself hframe htun hwf hpool hconfig hmax hhandlers hacts hplain, hrbuf,
    hwbuf, .of_same as hacts hleft.1 hleft.2.1 hfiles⟩

lemma refl (st : St) : Stays st st :=
  of_frame [] rfl rfl rfl rfl id id rfl rfl rfl (fun _ _ => Or.inl) (by simp) (by simp) (by simp)

lemma trans (h1 : Stays st st') (h2 : Stays st' st'') : Stays st st'' :=
  ⟨h1.toSteady.trans h2.toSteady, h2.rbuf.trans h1.rbuf, h2.upstreamWbuf.trans h1.upstreamWbuf,
    h1.keyed.trans h2.keyed⟩

/-- A change of the connection's other fields. -/
lemma mapConn {f : Conn → Conn} (hframe : (f st.conn).frame = st.conn.frame)
    (hbufs : (f st.conn).bufs = st.conn.bufs)
    (htun : (f st.conn).state = .tunnel → st.conn.state = .tunnel) : Stays st (st.mapConn f) :=
  of_frame [] rfl hframe (congrArg (·.1) hbufs) (congrArg (·.2.2.2) hbufs) htun
    (fun h => h.of_bufs_eq hbufs) rfl rfl rfl (fun _ _ => Or.inl) (by simp [St.mapConn]) (by simp)
    (by simp)

lemma act {a : Act} (ha : a.plain = true) (hf : a.files = false) : Stays st (st.act a) :=
  of_frame [a] rfl rfl rfl rfl id id rfl rfl rfl (fun _ _ => Or.inl) rfl (by simpa using ha)
    (by simpa using hf)

lemma mapCtx (f : HandlerCtx → HandlerCtx) (hf : (f st.ws.hctx).config = st.ws.hctx.config) :
    Stays st (st.mapCtx f) :=
  of_frame [] rfl rfl rfl rfl id id rfl hf rfl (fun _ _ => Or.inl) (by simp [St.mapCtx]) (by simp)
    (by simp)

/-- Results of system calls are used up. -/
lemma env (e : Env) : Stays st { st with env := e } :=
  of_frame [] rfl rfl rfl rfl id id rfl rfl rfl (fun _ _ => Or.inl) (by simp) (by simp) (by simp)

lemma setState {s : ConnState} (hs : s ≠ .tunnel) : Stays st (st.setState s) :=
  mapConn rfl rfl fun h => absurd h hs

lemma close (fd : ℤ) : Stays st (st.close fd) :=
  of_frame [.close fd] rfl rfl rfl rfl id id rfl rfl rfl (fun _ _ => Or.inl) rfl (by simp; rfl)
    (by simp [Act.files])

lemma opened (fd : ℤ) : Stays st (st.opened fd) :=
  of_frame [] rfl rfl rfl rfl id id rfl rfl rfl (fun _ _ => Or.inl) (by simp [St.opened]) (by simp)
    (by simp)

/-- Changing a registration of one's own. -/
lemma mapLoopMod {fd : ℤ} {fn : EvFn} (events : Events)
    (hown : (fn = .client st.self ∧ fd = st.conn.fd) ∨
      (fn = .upstream st.self ∧ fd = st.conn.upstreamFd ∧ 0 ≤ fd)) :
    Stays st (st.mapLoop fun l => eventLoopMod l fd events fn) := by
  refine of_frame [] rfl rfl rfl rfl id id rfl rfl (by simp [St.mapLoop]) ?_ (by simp [St.mapLoop])
    (by simp) (by simp)
  intro fd' h hh
  simp only [St.mapLoop, eventLoopMod_handlers] at hh
  split at hh
  · exact Or.inl hh
  · rename_i hmax
    by_cases heq : fd' = fd
    · subst heq
      rw [Function.update_self] at hh
      obtain rfl := Option.some.inj hh
      right
      refine ⟨by omega, ?_⟩
      rcases hown with ⟨rfl, h2⟩ | ⟨rfl, h2⟩
      · exact Or.inl ⟨rfl, h2⟩
      · exact Or.inr ⟨rfl, h2⟩
    · rw [Function.update_of_ne heq] at hh
      exact Or.inl hh

lemma clientMod (events : Events) : Stays st (st.clientMod events) :=
  mapLoopMod events (Or.inl ⟨rfl, rfl⟩)

lemma upstreamMod {fd : ℤ} (hfd : fd = st.conn.upstreamFd) (h0 : 0 ≤ fd) (events : Events) :
    Stays st (st.upstreamMod fd events) :=
  mapLoopMod events (Or.inr ⟨rfl, hfd, h0⟩)

/-- The fields of the cache change, or the status does. -/
lemma leftover (as : List Act) (hself : st'.self = st.self) (hws : st'.ws = st.ws)
    (hacts : st'.acts = st.acts ++ as) (hquiet : ∀ a ∈ as, a.quiet = true)
    (hfd : st'.conn.fd = st.conn.fd) (hup : st'.conn.upstreamFd = st.conn.upstreamFd)
    (hnext : st'.conn.next = st.conn.next) (hstate : st'.conn.state = st.conn.state)
    (hbufs : st'.conn.bufs = st.conn.bufs)
    (hlives : ∀ addr, st.conn.Lives addr → st'.conn.Lives addr)
    (hclean : st'.conn.Clean ↔ st.conn.Clean ∧ ∀ a ∈ as, a.taints = false)
    (hkeyed : Keyed st st') : Stays st st' where
  self := hself
  fd := hfd
  upstreamFd := hup
  next := hnext
  upstreamRbuf := congrArg (·.2.2.1) hbufs
  tunnel := fun h => hstate ▸ h
  pool := by rw [hws]
  config := by rw [hws]
  maxFd := by rw [hws]
  wf := fun h => h.of_bufs_eq hbufs
  lives := hlives
  handlers := fun fd h hh => Or.inl (by rwa [hws] at hh)
  acts := ⟨as, hacts, hquiet, hclean⟩
  rbuf := congrArg (·.1) hbufs
  upstreamWbuf := congrArg (·.2.2.2) hbufs
  keyed := hkeyed

/-! ### Reading and writing -/

lemma onWbufCall {b : NpBuf} {e : Env} {a : Act} (ha : a.plain = true) (hf : a.files = false)
    (hcap : b.cap = st.conn.wbuf.cap) (hwf : st.conn.wbuf.Wf → b.Wf) :
    Stays st { st with conn := { st.conn with wbuf := b }, env := e, acts := st.acts ++ [a] } :=
  of_frame [a] rfl (by simp [Conn.frame, Conn.caps, Conn.leftover, hcap]) rfl rfl id
    (fun h => ⟨h.rbuf, hwf h.wbuf, h.upstreamRbuf, h.upstreamWbuf⟩) rfl rfl rfl
    (fun _ _ => Or.inl) rfl (by simpa using ha) (by simpa using hf)

lemma respond : Stays st st.respond :=
  onWbufCall rfl rfl (by simp) fun h => (bufWriteLoop_spec h _).1

lemma respondOnce : Stays st st.respondOnce :=
  onWbufCall rfl rfl (by simp) fun h => (bufWriteFd_spec h _).1

/-! ### Answers -/

lemma onWbuf {f : NpBuf → NpBuf} (hf : Fills f) : Stays st (st.onWbuf f) :=
  of_frame [] rfl (by simp [Conn.frame, Conn.caps, Conn.leftover, St.onWbuf, St.mapConn, hf.cap])
    rfl rfl id (fun h => ⟨h.rbuf, hf.wf _ h.wbuf, h.upstreamRbuf, h.upstreamWbuf⟩) rfl rfl
    rfl (fun _ _ => Or.inl) (by simp [St.onWbuf, St.mapConn]) (by simp) (by simp)

lemma answerError (status : ℕ) (keepAlive : Bool) : Stays st (st.answerError status keepAlive) :=
  (onWbuf (.responseWriteError status keepAlive)).trans (setState (by decide))

/-- The answer to what is no request. -/
lemma reject (status : ℕ) (keepAlive : Bool) (events : Events) :
    Stays st (((st.act .reject).answerError status keepAlive).clientMod events) :=
  ((act rfl rfl).trans (answerError _ _)).trans (clientMod _)

lemma answer {f : NpBuf → NpBuf} (hf : Fills f) : Stays st (st.answer f) :=
  (onWbuf hf).trans (setState (by decide))

lemma countRequest (status : ℕ) : Stays st (st.countRequest status) :=
  mapCtx _ rfl

/-- The response to a request that is turned away with a status. -/
lemma turnAway (status : ℕ) (keepAlive : Bool) :
    Stays st ((((st.onWbuf (responseWriteError · status keepAlive)).countRequest status).act
      (.accessLog status)).setState .writingResponse) :=
  ((onWbuf (.responseWriteError status keepAlive)).trans (countRequest _)).trans
    ((act rfl rfl).trans (setState (by decide)))

lemma nextRequest : Stays st st.nextRequest :=
  (mapConn rfl rfl fun h => by simp at h).trans (clientMod _)

/-! ### Files -/

lemma openRegular (name : List UInt8) : Stays st (st.openRegular name).2 := by
  have hact : Stays st (st.act (.openFile name)) := act rfl rfl
  rw [St.openRegular]
  simp only
  split
  · exact hact
  · split
    · exact hact.trans (env _)
    · split
      · exact hact.trans (env _)
      · split
        · exact (hact.trans (env _)).trans (opened _)
        · exact ((hact.trans (env _)).trans (opened _)).trans (close _)

lemma tryFilesLoop (cfg : ServerConfig) (req : HttpRequest) (entries : List (List UInt8))
    (st : St) : Stays st (St.tryFilesLoop cfg req entries st).2 := by
  induction entries generalizing st with
  | nil => exact refl st
  | cons entry entries ih =>
    have hopen : Stays st (st.openRegular (tryFileName cfg req entry)).2 := openRegular _
    rw [St.tryFilesLoop]
    split
    · rename_i heq
      rwa [heq] at hopen
    · rename_i heq
      rw [heq] at hopen
      exact hopen.trans (ih _)

lemma findFile (req : HttpRequest) (cfg : ServerConfig) : Stays st (st.findFile req cfg).2 := by
  rw [St.findFile]
  split
  · exact tryFilesLoop _ _ _ _
  · have hopen : Stays st (st.openRegular (plainFileName st.env.junk cfg req)).2 := openRegular _
    simp only
    split <;> rename_i heq <;> rwa [heq] at hopen

lemma startFile (req : HttpRequest) (f : OpenFile) (name : List UInt8) :
    Stays st (st.startFile req f name) := by
  rw [St.startFile]
  refine trans ?_ (clientMod _)
  refine trans ?_ (mapConn rfl rfl fun h => by simp at h)
  refine trans ?_ respondOnce
  exact onWbuf (.bufPut _)

lemma fileServerHandle (req : HttpRequest) (cfg : ServerConfig) :
    Stays st (st.fileServerHandle req cfg).2 := by
  have hfind : Stays st (st.findFile req cfg).2 := findFile req cfg
  rw [St.fileServerHandle]
  split
  · exact answerError _ _
  · split
    · rename_i heq
      rw [heq] at hfind
      exact hfind.trans (answerError _ _)
    · rename_i heq
      rw [heq] at hfind
      split
      · refine hfind.trans (trans ?_ (setState (by decide)))
        refine trans ?_ (onWbuf (.responseWriteSimple _ _ _ _ _ _))
        exact close _
      · exact hfind.trans (startFile _ _ _)

/-! ### Dispatch -/

lemma setReq (req : HttpRequest) : Stays st (st.setReq req) :=
  mapConn rfl rfl id

lemma alloc (size align : ℕ) : Stays st (st.alloc size align).2 := by
  have horigin := arenaAllocAligned_origin st.conn.arena size align st.env.mallocs
  exact of_frame [] rfl (by simp [Conn.frame, Conn.caps, Conn.leftover, St.alloc, horigin]) rfl rfl
    id (fun h => ⟨h.rbuf, h.wbuf, h.upstreamRbuf, h.upstreamWbuf⟩) rfl rfl rfl (fun _ _ => Or.inl)
    (by simp [St.alloc]) (by simp) (by simp)

lemma rewrite (req : HttpRequest) (server : ServerConfig) : Stays st (st.rewrite req server).2 := by
  rw [St.rewrite]
  split
  · exact refl st
  · rename_i path _
    have halloc : Stays st (st.alloc (path.length + 1) arenaAlign).2 := alloc _ _
    split <;> rename_i heq <;> rw [heq] at halloc
    · exact halloc
    · exact halloc.trans (setReq _)

lemma checkRate (req : HttpRequest) : Stays st (st.checkRate req).2 := by
  rw [St.checkRate]
  split
  · exact refl st
  · simp only
    exact mapCtx _ rfl

lemma lookupCache (req : HttpRequest) (i : ℕ) :
    (∀ st', (st.lookupCache req i).1 = some st' → Stays st st') ∧
      Stays st (st.lookupCache req i).2 := by
  have hlook : Stays st (st.act (.cacheLookup i (cacheKeyFromRequest req 1024))) := act rfl rfl
  rw [St.lookupCache]
  split
  · simp only
    split
    · split
      · refine ⟨fun st' h => ?_, hlook.trans (env _)⟩
        obtain rfl := Option.some.inj h
        refine trans ?_ (act rfl rfl)
        refine trans ?_ (answer (.bufPut _))
        exact hlook.trans (env _)
      · exact ⟨by simp, hlook.trans (env _)⟩
    · exact ⟨by simp, hlook.trans (env _)⟩
  · exact ⟨by simp, refl st⟩

/-- From now on the object differs from a new one. -/
lemma noteCache (req : HttpRequest) (i : ℕ) : Stays st (st.noteCache req i) := by
  rw [St.noteCache]
  split
  · refine leftover [.noteCache i _] rfl rfl rfl (by simp [Act.quiet]) rfl rfl rfl rfl rfl ?_ ?_ ?_
    · exact fun addr h => ⟨h.caps, h.origin, fun hstore => by simp [St.mapConn] at hstore⟩
    · simp [Conn.Clean, St.mapConn, Act.taints]
    · exact ⟨[.noteCache i _], rfl, rfl, ⟨req, rfl⟩, trivial⟩
  · exact refl st

/-! ### The proxy -/

lemma setPool (i : ℕ) (p : UpstreamPool) : Stays st (st.setPool i p) := mapCtx _ rfl

lemma connected (be : Backend) : Stays st (st.connected be) := by
  have hconnect (st : St) : Stays st { st with
      env := { st.env with connects := st.env.connects.tail }
      acts := st.acts ++ [.connect be.host be.port] } :=
    of_frame [_] rfl rfl rfl rfl id id rfl rfl rfl (fun _ _ => Or.inl) rfl
      (by simp [Act.plain, Act.quiet, Act.taints]) (by simp [Act.files])
  rw [St.connected]
  cases st.nextConnect with
  | none => exact hconnect st
  | some fd => exact (opened fd).trans (hconnect (st.opened fd))

/-- A status is noted only once, where none was. -/
lemma noteStatus (hstatus : st.conn.proxyStatus = 0) (status : ℤ) :
    Stays st (st.noteStatus status) := by
  refine leftover [.noteStatus status] rfl rfl rfl (by simp [Act.quiet]) rfl rfl rfl rfl rfl
    (fun addr h => ⟨h.caps, h.origin, h.blank⟩) ?_ (.of_same [_] rfl rfl rfl (by simp [Act.files]))
  simp [Conn.Clean, St.noteStatus, St.mapConn, St.act, Act.taints, hstatus]

lemma captureStatus : Stays st st.captureStatus := by
  rcases captureStatus_cases st with heq | ⟨hstatus, status, heq⟩ <;> rw [heq]
  · exact refl st
  · exact noteStatus hstatus status

@[simp] lemma captureStatus_state (st : St) :
    st.captureStatus.conn.state = st.conn.state := by
  rcases captureStatus_cases st with heq | ⟨-, status, heq⟩
  · rw [heq]
  · rw [heq]
    rfl

/-- A change of the buffer for the cache, of a connection that has a store. -/
lemma mapCache {f : Conn → Conn} (hstore : st.conn.cacheStore ≠ none)
    (hstore' : (f st.conn).cacheStore = st.conn.cacheStore)
    (hkey : (f st.conn).cacheKey = st.conn.cacheKey)
    (hstatus : (f st.conn).proxyStatus = st.conn.proxyStatus)
    (harena : (f st.conn).arena = st.conn.arena) (hfd : (f st.conn).fd = st.conn.fd)
    (hup : (f st.conn).upstreamFd = st.conn.upstreamFd)
    (hnext : (f st.conn).next = st.conn.next) (hstate : (f st.conn).state = st.conn.state)
    (hbufs : (f st.conn).bufs = st.conn.bufs) : Stays st (st.mapConn f) := by
  have hcaps : (f st.conn).caps = st.conn.caps := by
    simp only [Conn.bufs, Prod.mk.injEq] at hbufs
    obtain ⟨h1, h2, h3, h4⟩ := hbufs
    simp [Conn.caps, h1, h2, h3, h4]
  refine leftover [] rfl rfl (by simp [St.mapConn]) (by simp) hfd hup hnext hstate hbufs ?_ ?_
    (.of_same [] (by simp [St.mapConn]) hstore' hkey (by simp))
  · intro addr h
    refine ⟨hcaps.trans h.caps, ?_, fun hnone => absurd (hstore' ▸ hnone) hstore⟩
    simp only [St.mapConn, harena]
    exact h.origin
  · simp [Conn.Clean, St.mapConn, hstore', hstatus]

@[simp] lemma captureCache_state (st : St) : st.captureCache.conn.state = st.conn.state := by
  rcases captureCache_cases st with heq | ⟨-, buf, len, cap, reallocs, -, heq⟩ <;> rw [heq]

lemma captureCache : Stays st st.captureCache := by
  rcases captureCache_cases st with heq | ⟨hstore, buf, len, cap, reallocs, -, heq⟩ <;> rw [heq]
  · exact refl st
  · have hne : st.conn.cacheStore ≠ none := Option.isSome_iff_ne_none.mp hstore
    exact (env { st.env with reallocs := reallocs }).trans
      (mapCache (f := fun c => { c with cacheBuf := buf, cacheLen := len, cacheCap := cap }) hne
        rfl rfl rfl rfl rfl rfl rfl rfl rfl)

/-- An insertion under the key of the connection. -/
lemma insertCache {store : ℕ} (hstore : st.conn.cacheStore = some store) (data : List UInt8) :
    Stays st (st.act (.cacheInsert store (cstr st.conn.cacheKey) data)) := by
  exact ⟨.of_frame [_] rfl rfl id id rfl rfl rfl (fun _ _ => Or.inl) rfl
    (by simp [Act.plain, Act.quiet, Act.taints]), rfl, rfl, [_], rfl, rfl, ⟨hstore, rfl⟩, trivial⟩

lemma storeCache : Stays st st.storeCache := by
  rw [St.storeCache]
  split
  · rename_i hstore _
    split
    · exact (insertCache hstore _).trans
        (mapCache (by simp [St.act, hstore]) rfl rfl rfl rfl rfl rfl rfl rfl rfl)
    · exact refl st
  · exact refl st

lemma putUpstream (i b : ℕ) (fd : ℤ) : Stays st (st.putUpstream i b fd) := by
  rw [St.putUpstream]
  split
  · exact refl st
  · split
    · exact (setPool _ _).trans (close _)
    · exact setPool _ _

lemma logProxied : Stays st st.logProxied := by
  rw [St.logProxied]
  split
  · exact act rfl rfl
  · exact refl st

lemma settleUpstream (n : Ret) (fd : ℤ) : Stays st (st.settleUpstream n fd) := by
  rw [St.settleUpstream]
  split
  · simp only
    split
    · exact storeCache.trans (logProxied.trans (putUpstream _ _ _))
    · exact storeCache.trans (close _)
  · exact close _

/-! ### `sendfile` -/

lemma sendfileLoop (tape : List SysSendfile) (st : St) : Stays st (St.sendfileLoop tape st).2 := by
  induction tape generalizing st with
  | nil => exact refl st
  | cons r tape ih =>
    cases r with
    | again => exact env _
    | err => exact env _
    | sent k =>
      rw [St.sendfileLoop]
      simp only
      split
      · exact env _
      · have hsent : Stays st ((({ st with env := { st.env with sendfiles := tape } }).act
            (.sendfile st.conn.fileFd st.conn.fileOffset
              (min k st.conn.fileRemaining.toNat))).mapConn fun c => { c with
            fileOffset := c.fileOffset + (min k st.conn.fileRemaining.toNat : ℕ)
            fileRemaining := c.fileRemaining - (min k st.conn.fileRemaining.toNat : ℕ) }) :=
          ((env _).trans (act rfl rfl)).trans (mapConn rfl rfl id)
        split
        · exact hsent.trans (ih _)
        · exact hsent

lemma endFile : Stays st st.endFile :=
  (close _).trans (mapConn rfl rfl id)

lemma respondHead : Stays st st.respondHead := by
  rw [St.respondHead]
  split
  · exact respond
  · exact refl st

end Stays

/-- What `handler_dispatch` does: it answers by itself, or it hands the request to
a backend, over a descriptor that is one. -/
def Dispatched (st st' : St) : Prop :=
  Stays st st' ∨ ∃ st1 req i b ufd, Stays st st1 ∧ 0 ≤ ufd ∧ st' = st1.startProxy req i b ufd

lemma Stays.dispatched {st st1 st' : St} (h1 : Stays st st1) (h2 : Dispatched st1 st') :
    Dispatched st st' := by
  rcases h2 with h2 | ⟨st2, req, i, b, ufd, h2, h⟩
  · exact Or.inl (h1.trans h2)
  · exact Or.inr ⟨st2, req, i, b, ufd, h1.trans h2, h⟩

lemma proxyHandle_dispatched (st : St) (req : HttpRequest) (i : ℕ) (pool : UpstreamPool) :
    Dispatched st (st.proxyHandle req i pool) := by
  have hpool : Stays st (st.mapConn fun c => { c with proxyPool := some i }) :=
    .mapConn rfl rfl id
  rw [proxyHandle]
  refine hpool.dispatched ?_
  generalize st.mapConn (fun c => { c with proxyPool := some i }) = st0
  split
  · exact Or.inl (((Stays.setPool _ _).trans (.answerError _ _)).trans (.mapCtx _ rfl))
  · rename_i b _ _
    split
    rename_i ufd pool' asked _
    have hconn : Stays st0 (if asked then (st0.setPool i pool').connected (pool'.backend b)
        else st0.setPool i pool') := by
      split
      · exact (Stays.setPool _ _).trans (.connected _)
      · exact Stays.setPool _ _
    simp only
    split
    · exact Or.inl (hconn.trans
        (((Stays.setPool _ _).trans (.answerError _ _)).trans (.mapCtx _ rfl)))
    · exact Or.inr ⟨_, req, i, _, ufd, hconn, by omega, rfl⟩

lemma routeServer_dispatched (st : St) (req : HttpRequest) (i : ℕ) :
    Dispatched st (st.routeServer req i) := by
  rw [routeServer]
  simp only
  split
  · exact (Stays.noteCache _ _).dispatched (proxyHandle_dispatched _ _ _ _)
  · split
    · exact Or.inl ((Stays.fileServerHandle _ _).trans (.act rfl rfl))
    · exact Or.inl (.turnAway 404 req.keepAlive)

lemma route_dispatched (st : St) (req : HttpRequest) (i : ℕ) : Dispatched st (st.route req i) := by
  rw [route]
  split
  · exact Or.inl ((Stays.answer (.metricsHandle _ _ _)).trans (.act rfl rfl))
  · split
    · exact Or.inl ((Stays.answer (.healthHandle _)).trans (.act rfl rfl))
    · obtain ⟨hhit, hmiss⟩ : (∀ st', (st.lookupCache req i).1 = some st' → Stays st st') ∧
          Stays st (st.lookupCache req i).2 := Stays.lookupCache req i
      split
      · rename_i heq
        exact Or.inl (hhit _ (by rw [heq]))
      · rename_i heq
        rw [heq] at hmiss
        exact hmiss.dispatched (routeServer_dispatched _ _ _)

lemma routeLimited_dispatched (st : St) (req : HttpRequest) (i : ℕ) :
    Dispatched st (st.routeLimited req i) := by
  have hrate : Stays st (st.checkRate req).2 := .checkRate req
  rw [routeLimited]
  split
  · rename_i heq
    rw [heq] at hrate
    exact Or.inl (hrate.trans (.turnAway 429 req.keepAlive))
  · rename_i heq
    rw [heq] at hrate
    exact hrate.dispatched (route_dispatched _ _ _)

lemma routeModules_dispatched (st : St) (req : HttpRequest) (i : ℕ) :
    Dispatched st (st.routeModules req i) := by
  rw [routeModules]
  split
  · refine Or.inl (Stays.trans ?_ (.act rfl rfl))
    exact .answer (.responseWriteSimple _ _ _ _ _ _)
  · exact (Stays.rewrite _ _).dispatched (routeLimited_dispatched _ _ _)

/-- **What `handler_dispatch` leaves alone.** -/
lemma handlerDispatch_dispatched (st : St) (req : HttpRequest) :
    Dispatched st (st.handlerDispatch req) := by
  have hstart : Stays st ((st.act (.dispatch req)).setReq
      { req with remoteIp := inetNtop st.conn.peer }) := (Stays.act rfl rfl).trans (.setReq _)
  exact hstart.dispatched (routeModules_dispatched _ _ _)

end St

end Nproxy
