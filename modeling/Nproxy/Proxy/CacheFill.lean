import Nproxy.Proxy.Stream

/-!
What is passed to `cache_insert`.

After each read the copy for the cache takes all that `upstream_rbuf` holds, so it
takes again what the client has not taken yet.

* `copies`: what is copied over a run, read by read.
* `Copies`: a handler adds to the cache buffer what it copies.
* `Streaming`: the events of a proxied request while the client waits: upstream
  events, and client events without errors that bring no further request.
* `inserted_at_end_iff`: when the upstream's end is read, what is inserted is what was
  read if and only if the cache buffer was empty at the start and every read found
  `upstream_rbuf` empty.
* `slowRun_inserts_twice`: a client that takes nothing between two reads; the bytes of
  the first are cached twice.
-/

namespace Nproxy

open Memory (slice blit)

/-! ### The cache buffer -/

/-- What the cache buffer holds. -/
def Conn.cached (c : Conn) : List UInt8 :=
  match c.cacheBuf with
  | some block => slice block 0 c.cacheLen
  | none => []

/-- The cache buffer is as long as `cache_cap` says, and `cache_len` of it is in use. -/
def Conn.CacheWf (c : Conn) : Prop :=
  match c.cacheBuf with
  | some block => block.length = c.cacheCap ∧ c.cacheLen ≤ c.cacheCap
  | none => c.cacheLen = 0 ∧ c.cacheCap = 0

lemma Conn.length_cached {c : Conn} (h : c.CacheWf) : c.cached.length = c.cacheLen := by
  rw [Conn.CacheWf] at h
  rw [Conn.cached]
  split <;> rename_i heq <;> rw [heq] at h
  · simp only at h
    rw [Memory.length_slice (by omega), Nat.sub_zero]
  · simp [h.1]

/-- The fields of the cache buffer. -/
def Conn.cacheFields (c : Conn) : Option ℕ × Option (List UInt8) × ℕ × ℕ :=
  (c.cacheStore, c.cacheBuf, c.cacheLen, c.cacheCap)

lemma Conn.cached_congr {c c' : Conn} (h : c'.cacheFields = c.cacheFields) :
    c'.cacheStore = c.cacheStore ∧ c'.cached = c.cached ∧ (c'.CacheWf ↔ c.CacheWf) := by
  simp only [Conn.cacheFields, Prod.mk.injEq] at h
  obtain ⟨h1, h2, h3, h4⟩ := h
  simp only [Conn.cached, Conn.CacheWf, h1, h2, h3, h4, and_self]

/-- What was left of earlier reads, and what a read got. -/
def Act.read : Act → Option (List UInt8 × List UInt8)
  | .upstreamRead left bs => some (left, bs)
  | _ => none

/-- The reads from the upstream. -/
def reads (as : List Act) : List (List UInt8 × List UInt8) := as.filterMap Act.read

/-- What is copied for the cache over a run. -/
def copies (as : List Act) : List UInt8 := ((reads as).map fun r => r.1 ++ r.2).flatten

/-- What an action inserts. -/
def Act.insert : Act → Option (List UInt8)
  | .cacheInsert _ _ data => some data
  | _ => none

/-- What is passed to `cache_insert` over a run. -/
def inserts (as : List Act) : List (List UInt8) := as.filterMap Act.insert

/-- An action that neither copies nor inserts. -/
def Act.idle (a : Act) : Prop := a.read = none ∧ a.insert = none

lemma inserts_of_idle {as : List Act} (h : ∀ a ∈ as, a.idle) : inserts as = [] :=
  List.filterMap_eq_nil_iff.mpr fun a ha => (h a ha).2

lemma copies_of_idle {as : List Act} (h : ∀ a ∈ as, a.idle) : copies as = [] := by
  rw [copies, reads, List.filterMap_eq_nil_iff.mpr fun a ha => (h a ha).1]
  rfl

@[simp] lemma copies_append (as bs : List Act) : copies (as ++ bs) = copies as ++ copies bs := by
  simp [copies, reads]

@[simp] lemma inserts_append (as bs : List Act) : inserts (as ++ bs) = inserts as ++ inserts bs :=
  List.filterMap_append

@[simp] lemma copies_nil : copies [] = [] := rfl

@[simp] lemma inserts_nil : inserts [] = [] := rfl

namespace St

variable {st st' st'' : St}

/-- The buffer grows, if `realloc` succeeds. -/
lemma growCache_spec (hwf : st.conn.CacheWf) (hre : st.env.reallocs.headD false = true)
    (needed : ℕ) (hneeded : st.conn.cacheLen < needed) :
    (st.growCache needed).conn.CacheWf ∧ (st.growCache needed).conn.cached = st.conn.cached ∧
      (st.growCache needed).conn.cacheLen = st.conn.cacheLen ∧
      needed ≤ (st.growCache needed).conn.cacheCap ∧
      (st.growCache needed).conn.cacheBuf.isSome := by
  rw [growCache]
  split
  · rename_i hsmall
    simp only
    -- the new block has room, and `realloc` keeps the bytes of the old one
    have hroom : needed ≤ if needed * 2 < 8192 then 8192 else needed * 2 := by
      split <;> omega
    generalize (if needed * 2 < 8192 then 8192 else needed * 2) = newCap at hroom
    rw [Conn.CacheWf] at hwf
    cases hbuf : st.conn.cacheBuf with
    | none =>
      rw [hbuf] at hwf
      simp only [mapConn, Conn.CacheWf, Conn.cached, hbuf]
      refine ⟨⟨?_, by omega⟩, ?_, trivial, hroom, rfl⟩
      · simp [blit]
      · simp [hwf.1]
    | some block =>
      rw [hbuf] at hwf
      simp only at hwf
      simp only [mapConn, Conn.CacheWf, Conn.cached, hbuf, Option.getD_some]
      refine ⟨⟨?_, by omega⟩, ?_, trivial, hroom, rfl⟩
      · rw [Memory.length_blit (by simp; omega), List.length_replicate]
      · exact Memory.slice_blit_zero_of_le (by omega)
  · rename_i hlarge
    refine ⟨hwf, rfl, rfl, by omega, ?_⟩
    rw [Conn.CacheWf] at hwf
    cases hbuf : st.conn.cacheBuf with
    | none =>
      rw [hbuf] at hwf
      simp only at hwf
      omega
    | some block => rfl

lemma copyCache_spec (hwf : st.conn.CacheWf) {p : List UInt8} (hbuf : st.conn.cacheBuf.isSome)
    (hroom : st.conn.cacheLen + p.length ≤ st.conn.cacheCap) :
    (st.copyCache p).conn.CacheWf ∧ (st.copyCache p).conn.cached = st.conn.cached ++ p := by
  obtain ⟨block, hblock⟩ := Option.isSome_iff_exists.mp hbuf
  rw [Conn.CacheWf, hblock] at hwf
  simp only at hwf
  rw [copyCache, hblock]
  simp only [if_pos hroom, mapConn, Conn.CacheWf, Conn.cached, hblock]
  refine ⟨⟨?_, hroom⟩, ?_⟩
  · rw [Memory.length_blit (by omega), hwf.1]
  · exact Memory.slice_blit (Nat.zero_le _) (by omega)

/-- **The copy for the cache takes all of `upstream_rbuf`.** -/
lemma captureCache_spec (hwf : st.conn.CacheWf) (hstore : st.conn.cacheStore.isSome)
    (hre : st.env.reallocs.headD false = true) :
    st.captureCache.conn.CacheWf ∧
      st.captureCache.conn.cached = st.conn.cached ++ bufBytes st.conn.upstreamRbuf := by
  rw [captureCache]
  split
  · rename_i h
    obtain ⟨h1, h2, h3, h4, h5⟩ := growCache_spec hwf hre
      (st.conn.cacheLen + (bufBytes st.conn.upstreamRbuf).length) (by omega)
    obtain ⟨h6, h7⟩ := copyCache_spec h1 h5 (by rw [h3]; exact h4)
    exact ⟨h6, by rw [h7, h2]⟩
  · rename_i h
    have hnil : bufBytes st.conn.upstreamRbuf = [] := by
      simpa [hstore] using h
    exact ⟨hwf, by simp [hnil]⟩

/-! ### What the handlers add to the buffer -/

/-- What is copied is added to the buffer, and nothing is inserted. -/
structure Copies (st st' : St) : Prop where
  state : st'.conn.state = st.conn.state
  store : st'.conn.cacheStore = st.conn.cacheStore
  wf : st'.conn.CacheWf
  acts : ∃ as, st'.acts = st.acts ++ as ∧ inserts as = [] ∧
    st'.conn.cached = st.conn.cached ++ copies as

namespace Copies

lemma trans (h1 : Copies st st') (h2 : Copies st' st'') : Copies st st'' := by
  obtain ⟨as, has, hins, hcached⟩ := h1.acts
  obtain ⟨bs, hbs, hins', hcached'⟩ := h2.acts
  exact ⟨h2.state.trans h1.state, h2.store.trans h1.store, h2.wf, as ++ bs,
    by rw [hbs, has, List.append_assoc],
    by rw [inserts_append, hins, hins']; rfl, by
      rw [hcached', hcached, copies_append, List.append_assoc]⟩

/-- An operation that leaves the buffer alone. -/
lemma of_same (hwf : st.conn.CacheWf) (as : List Act) (hacts : st'.acts = st.acts ++ as)
    (hstate : st'.conn.state = st.conn.state)
    (hfields : st'.conn.cacheFields = st.conn.cacheFields) (hins : inserts as = [])
    (hcopies : copies as = []) : Copies st st' := by
  obtain ⟨hstore, hcached, hwf'⟩ := Conn.cached_congr hfields
  exact ⟨hstate, hstore, hwf'.mpr hwf, as, hacts, hins, by rw [hcached, hcopies, List.append_nil]⟩

lemma refl (hwf : st.conn.CacheWf) : Copies st st := of_same hwf [] (by simp) rfl rfl rfl rfl

lemma relay (hwf : st.conn.CacheWf) : Copies st st.relay := of_same hwf [_] rfl rfl rfl rfl rfl

lemma clientMod (hwf : st.conn.CacheWf) (events : Events) : Copies st (st.clientMod events) :=
  of_same hwf [] (by simp [St.clientMod, St.mapLoop]) rfl rfl rfl rfl

lemma upstreamMod (hwf : st.conn.CacheWf) (fd : ℤ) (events : Events) :
    Copies st (st.upstreamMod fd events) :=
  of_same hwf [] (by simp [St.upstreamMod, St.mapLoop]) rfl rfl rfl rfl

lemma forwardOnce (hwf : st.conn.CacheWf) (fd : ℤ) : Copies st (st.forwardOnce fd).2 :=
  of_same hwf [_] rfl rfl rfl rfl rfl

lemma readClient (hwf : st.conn.CacheWf) : Copies st st.readClient.2 :=
  of_same hwf [_] rfl rfl rfl rfl rfl

end Copies

/-! ### The read loop -/

/-- `realloc` succeeds, at least so many times. -/
def Grants (st : St) (n : ℕ) : Prop :=
  n ≤ st.env.reallocs.length ∧ ∀ r ∈ st.env.reallocs, r = true

lemma Grants.headD {n : ℕ} (h : st.Grants (n + 1)) : st.env.reallocs.headD false = true := by
  obtain ⟨hlen, hall⟩ := h
  cases hre : st.env.reallocs with
  | nil => simp [hre] at hlen
  | cons r rs => exact hall r (by simp [hre])

@[simp] lemma captureStatus_env (st : St) : st.captureStatus.env = st.env := by
  rcases captureStatus_cases st with heq | ⟨-, status, heq⟩
  · rw [heq]
  · rw [heq]
    rfl

@[simp] lemma captureStatus_cacheFields (st : St) :
    st.captureStatus.conn.cacheFields = st.conn.cacheFields := by
  rcases captureStatus_cases st with heq | ⟨-, status, heq⟩
  · rw [heq]
  · rw [heq]
    rfl

/-- The copy for the cache calls `realloc` at most once. -/
lemma Grants.captureCache {n : ℕ} (h : st.Grants (n + 1)) : st.captureCache.Grants n := by
  have htail : st.env.reallocs.tail.length = st.env.reallocs.length - 1 := List.length_tail
  have hkeep : st.Grants n := ⟨by have := h.1; omega, h.2⟩
  have hdrop : n ≤ st.env.reallocs.tail.length ∧ ∀ r ∈ st.env.reallocs.tail, r = true :=
    ⟨by have := h.1; omega, fun r hr => h.2 r (List.mem_of_mem_tail hr)⟩
  rcases captureCache_cases st with heq | ⟨-, buf, len, cap, reallocs, hre, heq⟩ <;> rw [heq]
  · exact hkeep
  · rcases hre with rfl | rfl
    · exact hkeep
    · exact hdrop

@[simp] lemma captureCache_acts (st : St) : st.captureCache.acts = st.acts := by
  rcases captureCache_cases st with heq | ⟨-, buf, len, cap, reallocs, -, heq⟩ <;> rw [heq]

@[simp] lemma captureCache_cacheStore (st : St) :
    st.captureCache.conn.cacheStore = st.conn.cacheStore := by
  rcases captureCache_cases st with heq | ⟨-, buf, len, cap, reallocs, -, heq⟩ <;> rw [heq]

lemma Copies.captureStatus (hwf : st.conn.CacheWf) : Copies st st.captureStatus := by
  rcases captureStatus_cases st with heq | ⟨-, status, heq⟩ <;> rw [heq]
  · exact refl hwf
  · exact of_same hwf [_] rfl rfl rfl rfl rfl

/-- A read that got something: its action, and the content afterwards. -/
lemma readUpstream_of_ok (hbufs : st.conn.upstreamRbuf.Wf) {tape : List SysRead} {k : ℕ}
    (hok : (st.readUpstream tape).1 = .ok (k + 1)) : ∃ got,
      (st.readUpstream tape).2.acts =
        st.acts ++ [.upstreamRead (bufBytes st.conn.upstreamRbuf) got] ∧
      bufBytes (st.readUpstream tape).2.conn.upstreamRbuf =
        bufBytes st.conn.upstreamRbuf ++ got ∧
      (st.readUpstream tape).2.conn.cacheFields = st.conn.cacheFields ∧
      (st.readUpstream tape).2.conn.state = st.conn.state ∧
      (st.readUpstream tape).2.env.reallocs = st.env.reallocs := by
  have hbytes := (bufReadFd_spec hbufs tape).2
  rw [readUpstream] at hok ⊢
  simp only at hok ⊢
  split at hok
  · exact ⟨_, rfl, hbytes, rfl, rfl, rfl⟩
  · rename_i heq
    simp [heq] at hok
  · rename_i hno _
    exact absurd hok (hno k)

lemma Copies.readUpstream (hwf : st.conn.CacheWf) {tape : List SysRead}
    (hno : ∀ k, (st.readUpstream tape).1 ≠ .ok (k + 1)) : Copies st (st.readUpstream tape).2 := by
  rw [St.readUpstream] at hno ⊢
  simp only at hno ⊢
  split at hno
  · rename_i heq
    exact absurd heq (hno _)
  · exact of_same hwf [_] rfl rfl rfl rfl rfl
  · exact of_same hwf [] (by simp) rfl rfl rfl rfl

/-- **One turn of the read loop** adds what was left and what was read. -/
lemma relayTurn_copies (hbufs : st.conn.upstreamRbuf.Wf) (hwf : st.conn.CacheWf)
    (hstore : st.conn.cacheStore.isSome) {n : ℕ} (hgr : st.Grants (n + 1)) {tape : List SysRead}
    {k : ℕ} (hok : (st.readUpstream tape).1 = .ok (k + 1)) :
    Copies st (st.readUpstream tape).2.relayTurn ∧ (st.readUpstream tape).2.relayTurn.Grants n := by
  obtain ⟨got, hacts, hbytes, hfields, hstate1, hre⟩ := readUpstream_of_ok hbufs hok
  generalize (st.readUpstream tape).2 = st1 at *
  obtain ⟨hstore1, hcached1, hwf1⟩ := Conn.cached_congr hfields
  have hstatus := Copies.captureStatus (hwf1.mpr hwf)
  obtain ⟨bs, hbs, hins, hcached2⟩ := hstatus.acts
  have hgr2 : st1.captureStatus.Grants (n + 1) := by
    rw [Grants, captureStatus_env, hre]
    exact hgr
  have hrbuf : st1.captureStatus.conn.upstreamRbuf = st1.conn.upstreamRbuf :=
    Stays.captureStatus.upstreamRbuf
  obtain ⟨hwf3, hcached3⟩ := captureCache_spec hstatus.wf
    (by rw [hstatus.store, hstore1]; exact hstore) hgr2.headD
  have hcopies : copies bs = [] := by
    have hsame : st1.captureStatus.conn.cached = st1.conn.cached :=
      (Conn.cached_congr (captureStatus_cacheFields st1)).2.1
    simpa [hsame] using hcached2
  have hturn : Copies st st1.captureStatus.captureCache := by
    refine ⟨?_, ?_, hwf3, [.upstreamRead (bufBytes st.conn.upstreamRbuf) got] ++ bs, ?_, ?_, ?_⟩
    · rw [Stays.captureCache_state, hstatus.state, hstate1]
    · rw [captureCache_cacheStore, hstatus.store, hstore1]
    · rw [captureCache_acts, hbs, hacts, List.append_assoc]
    · rw [inserts_append, hins]
      rfl
    · rw [hcached3, hrbuf, hbytes, hcached2, hcached1, hcopies, copies_append, hcopies]
      simp [copies, reads, Act.read]
  exact ⟨hturn.trans (.relay hturn.wf), hgr2.captureCache⟩

lemma readUpstream_ret (st : St) (tape : List SysRead) :
    (st.readUpstream tape).1 = (bufReadFd st.conn.upstreamRbuf tape).ret := by
  rw [readUpstream]
  simp only
  split <;> rfl

/-- **The read loop** adds what was left and what was read, read by read. -/
lemma upstreamLoop_copies (tape : List SysRead) {st : St} (hbufs : st.conn.upstreamRbuf.Wf)
    (hwf : st.conn.CacheWf) (hstore : st.conn.cacheStore.isSome) (hgr : st.Grants tape.length) :
    Copies st (upstreamLoop tape st).2 := by
  induction tape generalizing st with
  | nil =>
    refine .readUpstream hwf fun k => ?_
    rw [readUpstream_ret]
    exact bufReadFd_nil_ret _ k
  | cons r tape ih =>
    have hread := (Streams.readUpstream hbufs (r :: tape)).wf
    rw [upstreamLoop]
    split <;> rename_i heq
    · obtain ⟨hturn, hgr'⟩ := relayTurn_copies hbufs hwf hstore hgr (congrArg Prod.fst heq)
      rw [heq] at hturn hgr' hread
      exact hturn.trans (ih (Streams.relayTurn hread).wf hturn.wf
        (by rw [hturn.store]; exact hstore) hgr')
    · rename_i hno
      have hlast : Copies st (st.readUpstream (r :: tape)).2 :=
        .readUpstream hwf fun k hok => hno k (by rwa [heq] at hok)
      rwa [heq] at hlast

/-! ### The end -/

/-- `cache_insert` gets what the buffer holds, if that is something. -/
lemma storeCache_inserts (hwf : st.conn.CacheWf) (hstore : st.conn.cacheStore.isSome) :
    ∃ as, st.storeCache.acts = st.acts ++ as ∧ copies as = [] ∧
      inserts as = if st.conn.cached = [] then [] else [st.conn.cached] := by
  have hlen := Conn.length_cached hwf
  obtain ⟨store, hstore⟩ := Option.isSome_iff_exists.mp hstore
  rw [storeCache, hstore]
  cases hbuf : st.conn.cacheBuf with
  | none => exact ⟨[], by simp, rfl, by simp [Conn.cached, hbuf]⟩
  | some block =>
    have hcached : st.conn.cached = slice block 0 st.conn.cacheLen := by
      rw [Conn.cached, hbuf]
    simp only
    split
    · rename_i hpos
      refine ⟨[_], rfl, rfl, ?_⟩
      rw [if_neg fun hnil => by simp [hnil] at hlen; omega, hcached]
      rfl
    · rename_i hzero
      refine ⟨[], by simp, rfl, ?_⟩
      rw [if_pos (List.eq_nil_of_length_eq_zero (by omega))]
      rfl

lemma logProxied_idle (st : St) : Adds Act.idle st st.logProxied := by
  rw [logProxied]
  split
  · exact ⟨[_], rfl, by simp [Act.idle, Act.read, Act.insert]⟩
  · exact .of_acts_eq rfl

lemma putUpstream_idle (st : St) (i b : ℕ) (fd : ℤ) :
    Adds Act.idle st (st.putUpstream i b fd) := by
  rw [putUpstream]
  split
  · exact .of_acts_eq rfl
  · split
    · exact ⟨[.close fd], rfl, by simp [Act.idle, Act.read, Act.insert]⟩
    · exact .of_acts_eq rfl

lemma workerConnClose_idle (st : St) : Adds Act.idle st st.workerConnClose :=
  workerConnClose_adds (fun _ => ⟨rfl, rfl⟩) (fun _ => ⟨rfl, rfl⟩) st

/-- **What `proxy_on_upstream_event` inserts when the upstream has closed.** -/
lemma finishProxy_inserts (hwf : st.conn.CacheWf) (hstore : st.conn.cacheStore.isSome)
    (hstate : st.conn.state ≠ .tunnel) (fd : ℤ) :
    ∃ as, (st.finishProxy .closed fd).acts = st.acts ++ as ∧ copies as = [] ∧
      inserts as = if st.conn.cached = [] then [] else [st.conn.cached] := by
  have hunlink : (st.unlinkUpstream fd).conn.CacheWf := hwf
  obtain ⟨as, has, hcopies, hins⟩ := storeCache_inserts hunlink hstore
  have hrest : Adds Act.idle (st.unlinkUpstream fd).storeCache (st.finishProxy .closed fd) := by
    rw [finishProxy, settleUpstream, if_pos ⟨rfl, hstate⟩]
    simp only
    split
    · exact ((logProxied_idle _).trans (putUpstream_idle _ _ _ _)).trans (workerConnClose_idle _)
    · refine Adds.trans ?_ (workerConnClose_idle _)
      exact ⟨[.close fd], rfl, by simp [Act.idle, Act.read, Act.insert]⟩
  obtain ⟨bs, hbs, hidle⟩ := hrest
  refine ⟨as ++ bs, ?_, by simp [hcopies, copies_of_idle hidle], ?_⟩
  · rw [hbs, has, List.append_assoc]
    rfl
  · rw [inserts_append, hins, inserts_of_idle hidle, List.append_nil]
    rfl

/-! ### Events -/

/-- What an event does for the cache: it adds what it copies; or the stream is over, and
if it was over because the upstream's end was read, the buffer is inserted. -/
def FillsOn (st st' : St) : Prop :=
  Copies st st' ∨ (st'.conn.state = .closing ∧ ∃ as, st'.acts = st.acts ++ as ∧
    (eofs as ≠ [] → inserts as =
      if st.conn.cached ++ copies as = [] then [] else [st.conn.cached ++ copies as]))

lemma Copies.fillsOn (h1 : Copies st st') (heofs : ∃ as, st'.acts = st.acts ++ as ∧ eofs as = [])
    (h2 : FillsOn st' st'') : FillsOn st st'' := by
  obtain ⟨as, has, hins, hcached⟩ := h1.acts
  rcases h2 with h2 | ⟨hstate, bs, hbs, hend⟩
  · exact Or.inl (h1.trans h2)
  · refine Or.inr ⟨hstate, as ++ bs, by rw [hbs, has, List.append_assoc], fun hne => ?_⟩
    obtain ⟨as', has', heofs⟩ := heofs
    obtain rfl : as' = as := List.append_cancel_left (has'.symm.trans has)
    rw [eofs_append, heofs, List.nil_append] at hne
    rw [inserts_append, hins, List.nil_append, hend hne, hcached, copies_append, List.append_assoc]

lemma upstreamReadPart_fillsOn {fd : ℤ} (h0 : 0 ≤ fd) (hbufs : st.conn.upstreamRbuf.Wf)
    (hwf : st.conn.CacheWf) (hstore : st.conn.cacheStore.isSome)
    (hstate : st.conn.state ≠ .tunnel) (hgr : st.Grants st.env.upstreamReads.length) :
    FillsOn st (st.upstreamReadPart fd) := by
  have htape : onFd fd .err st.env.upstreamReads = st.env.upstreamReads :=
    if_neg (by omega)
  have hcopies := upstreamLoop_copies st.env.upstreamReads hbufs hwf hstore hgr
  have hstreams := Streams.upstreamLoop st.env.upstreamReads hbufs
  obtain ⟨n, st1, st2, hloop, hst2, hend⟩ := upstreamReadPart_cases st fd
  rw [htape] at hloop
  rw [hloop] at hcopies hstreams
  have hmod : Copies st st2 ∧
      Streams st st2 (if n = .closed then [bufBytes st1.conn.upstreamRbuf] else []) := by
    rcases hst2 with rfl | rfl
    · exact ⟨hcopies, hstreams⟩
    · exact ⟨hcopies.trans (.clientMod hcopies.wf _),
        by simpa using hstreams.trans (.clientMod hstreams.wf _)⟩
  obtain ⟨hmod, hmod'⟩ := hmod
  obtain ⟨as, has, hins, hcached⟩ := hmod.acts
  obtain ⟨as', has', heofs, -⟩ := hmod'.acts
  obtain rfl : as' = as := List.append_cancel_left (has'.symm.trans has)
  rcases hend with ⟨-, heq⟩ | ⟨-, heq⟩ <;> rw [heq]
  · refine Or.inr ⟨finishProxy_state _ _ _, ?_⟩
    by_cases hclosed : n = .closed
    · obtain ⟨bs, hbs, hcopies, hins'⟩ := finishProxy_inserts hmod.wf
        (by rw [hmod.store]; exact hstore) (by rw [hmod'.state]; exact hstate) fd
      refine ⟨as' ++ bs, by rw [hclosed, hbs, has, List.append_assoc], fun _ => ?_⟩
      rw [inserts_append, hins, List.nil_append, hins', copies_append, hcopies, List.append_nil,
        hcached]
    · obtain ⟨bs, hbs, hstill⟩ := finishProxy_still st2 n fd
      refine ⟨as' ++ bs, by rw [hbs, has, List.append_assoc], fun hne => ?_⟩
      simp [heofs, hclosed, eofs_of_still hstill] at hne
  · exact Or.inl hmod

/-- The part that writes leaves the results of `read` and `realloc` alone. -/
lemma Forwards.copies {fd : ℤ} {ev : Events} (h : st.Forwards fd ev st')
    (hwf : st.conn.CacheWf) : Copies st st' ∧ st'.env.reallocs = st.env.reallocs ∧
      st'.env.upstreamReads = st.env.upstreamReads := by
  have hfwd : Copies st (st.forwardOnce fd).2 := .forwardOnce hwf fd
  rcases h with ⟨-, rfl⟩ | ⟨-, rfl | rfl⟩
  · exact ⟨.refl hwf, rfl, rfl⟩
  · exact ⟨hfwd, rfl, rfl⟩
  · exact ⟨hfwd.trans (.upstreamMod hfwd.wf _ _), rfl, rfl⟩

/-- **`proxy_on_upstream_event`** copies what it reads to the cache, or inserts the copy at the end.
-/
lemma proxyOnUpstreamEvent_fillsOn {fd : ℤ} (h0 : 0 ≤ fd) (hbufs : st.conn.upstreamRbuf.Wf)
    (hwf : st.conn.CacheWf) (hstore : st.conn.cacheStore.isSome)
    (hstate : st.conn.state ≠ .tunnel) (hgr : st.Grants st.env.upstreamReads.length)
    (ev : Events) : FillsOn st (st.proxyOnUpstreamEvent fd ev) := by
  rcases proxyOnUpstreamEvent_parts st fd ev with heq | ⟨st1, -, hst1, heq⟩ <;> rw [heq]
  · have hsteady : Steady st (st.forwardOnce fd).2 := .forwardOnce fd
    obtain ⟨as, has, hstill⟩ := (hsteady.adds.trans
      ((Stays.answerError 502 false).trans .respondOnce).adds).trans (workerConnClose_still _)
    refine Or.inr ⟨workerConnClose_state _, as, has, fun hne => ?_⟩
    exact absurd (eofs_of_still hstill) hne
  · have hs1 := hst1.streams hbufs
    obtain ⟨h1, hre, hreads⟩ := hst1.copies hwf
    split
    · obtain ⟨as, has, heofs, -⟩ := hs1.acts
      refine h1.fillsOn ⟨as, has, heofs⟩ (upstreamReadPart_fillsOn h0 hs1.wf h1.wf
        (by rw [h1.store]; exact hstore) (by rw [hs1.state]; exact hstate) ?_)
      rw [Grants, hre, hreads]
      exact hgr
    · exact Or.inl h1

/-- The client's socket is in order, and what it sends is not a further request. -/
def Waits (st : St) : Prop :=
  st.readClient.1 ≠ .closed ∧ st.readClient.1 ≠ .err ∧
    (bufReadable st.readClient.2.conn.rbuf = 0 ∨
      (parseFresh (bufBytes st.readClient.2.conn.rbuf)).1 = .incomplete)

lemma handleRead_of_waits (hstate : st.conn.state ≠ .tunnel) (h : st.Waits) :
    st.handleRead = st.readClient.2 := by
  obtain ⟨hclosed, herr, hparse⟩ := h
  rw [handleRead, if_neg hstate]
  split
  rename_i n st1 heq
  rw [heq] at hclosed herr hparse ⊢
  rw [if_neg (by simp_all), parseRequests]
  split
  · rfl
  · rename_i hne
    split <;> rename_i hres
    · rfl
    · simp [hres, hne] at hparse
    · simp [hres, hne] at hparse

/-- **`on_client_event`**, while the client waits for the response. -/
lemma onClientEvent_streams (hwf : st.conn.upstreamRbuf.Wf) (hstate : st.conn.state = .proxying)
    {ev : Events} (hhup : ev.hup = false) (herr : ev.err = false)
    (hwaits : ev.read = true → st.Waits) : Streams st (st.onClientEvent ev) [] := by
  have hread : Streams st (if ev.read then st.handleRead else st) [] := by
    split
    · rename_i hr
      rw [handleRead_of_waits (by rw [hstate]; decide) (hwaits hr)]
      exact .of_steady hwf .readClient rfl
    · exact .refl hwf
  rw [onClientEvent, if_neg (by simp [hhup, herr])]
  simp only
  split
  · generalize hst1 : (if ev.read then st.handleRead else st) = st1 at hread
    rw [handleWrite, hread.state, hstate]
    have hrelay := hread.trans (.relay hread.wf)
    simp only
    split <;> exact hrelay.trans (.clientMod hrelay.wf _)
  · exact hread

/-- **`on_client_event`**, while the client waits for the response. -/
lemma onClientEvent_copies (hwf : st.conn.CacheWf) (hstate : st.conn.state = .proxying)
    {ev : Events} (hhup : ev.hup = false) (herr : ev.err = false)
    (hwaits : ev.read = true → st.Waits) : Copies st (st.onClientEvent ev) := by
  have hread : Copies st (if ev.read then st.handleRead else st) ∧
      (if ev.read then st.handleRead else st).conn.state = .proxying := by
    split
    · rename_i hr
      rw [handleRead_of_waits (by rw [hstate]; decide) (hwaits hr)]
      exact ⟨.readClient hwf, hstate⟩
    · exact ⟨.refl hwf, hstate⟩
  rw [onClientEvent, if_neg (by simp [hhup, herr])]
  simp only
  generalize (if ev.read then st.handleRead else st) = st1 at hread ⊢
  obtain ⟨hread, hstate1⟩ := hread
  split
  · rw [handleWrite, hstate1]
    have hrelay := hread.trans (.relay hread.wf)
    simp only
    split <;> exact hrelay.trans (.clientMod hrelay.wf _)
  · exact hread

end St

/-! ### What is copied, and what was read -/

lemma readBytes_eq (as : List Act) : readBytes as = ((reads as).map Prod.snd).flatten := by
  induction as with
  | nil => rfl
  | cons a as ih =>
    have hcons : readBytes (a :: as) = readBytes [a] ++ readBytes as := by
      rw [readBytes, show a :: as = [a] ++ as from rfl, upstreamMoves_append,
        Queue.entered_append]
      rfl
    have hreads : reads (a :: as) = reads [a] ++ reads as :=
      List.filterMap_append (l := [a])
    rw [hcons, hreads, ih, List.map_append, List.flatten_append]
    congr 1
    cases a <;> rfl

/-- What is copied is never less than what was read. -/
lemma length_flatten_snd_le (rs : List (List UInt8 × List UInt8)) :
    (rs.map Prod.snd).flatten.length ≤ (rs.map fun r => r.1 ++ r.2).flatten.length := by
  induction rs with
  | nil => exact le_rfl
  | cons r rs ih =>
    simp only [List.map_cons, List.flatten_cons, List.length_append]
    omega

/-- It is what was read only if nothing was left. -/
lemma flatten_append_eq_iff (rs : List (List UInt8 × List UInt8)) :
    (rs.map fun r => r.1 ++ r.2).flatten = (rs.map Prod.snd).flatten ↔ ∀ r ∈ rs, r.1 = [] := by
  induction rs with
  | nil => simp
  | cons r rs ih =>
    simp only [List.map_cons, List.flatten_cons, List.forall_mem_cons, ← ih]
    constructor
    · intro heq
      have hlen := congrArg List.length heq
      have hle := length_flatten_snd_le rs
      simp only [List.length_append] at hlen
      have hnil : r.1 = [] := List.eq_nil_of_length_eq_zero (by omega)
      rw [hnil, List.nil_append] at heq
      exact ⟨hnil, List.append_cancel_left heq⟩
    · rintro ⟨hnil, heq⟩
      rw [hnil, heq, List.nil_append]

lemma mem_reads_iff {as : List Act} {left bs : List UInt8} :
    (left, bs) ∈ reads as ↔ .upstreamRead left bs ∈ as := by
  simp only [reads, List.mem_filterMap]
  constructor
  · rintro ⟨a, ha, hread⟩
    cases a <;> simp_all [Act.read]
  · exact fun h => ⟨_, h, rfl⟩

/-- **What was there and what is copied are what was read if and only if nothing was there
and every read found the buffer empty.** -/
lemma append_copies_eq_readBytes_iff (old : List UInt8) (as : List Act) :
    old ++ copies as = readBytes as ↔
      old = [] ∧ ∀ left bs, .upstreamRead left bs ∈ as → left = [] := by
  have hempty : copies as = readBytes as ↔ ∀ left bs, .upstreamRead left bs ∈ as → left = [] := by
    rw [copies, readBytes_eq, flatten_append_eq_iff, Prod.forall]
    simp only [mem_reads_iff]
  rw [← hempty]
  constructor
  · intro heq
    have hlen := congrArg List.length heq
    have hle := length_flatten_snd_le (reads as)
    rw [← readBytes_eq, ← copies] at hle
    rw [List.length_append] at hlen
    have hold : old = [] := List.eq_nil_of_length_eq_zero (by omega)
    rw [hold, List.nil_append] at heq
    exact ⟨hold, heq⟩
  · rintro ⟨rfl, heq⟩
    exact heq

/-! ### Runs -/

namespace Life

/-- The events of a proxied request while its client waits. -/
def Streaming (c : ConnId) (l : Life) : Use → Prop
  | .client ws env ev => l.conn.state = .proxying ∧ ev.hup = false ∧ ev.err = false ∧
      (ev.read = true → St.Waits ⟨c, l.conn, ws, env, []⟩)
  | .upstream _ _ _ _ => l.conn.state = .proxying
  | .get _ _ => False

/-- Every `realloc` of the event succeeds. -/
def Granted : Use → Prop
  | .upstream _ env fd _ => 0 ≤ fd ∧ env.upstreamReads.length ≤ env.reallocs.length ∧
      ∀ r ∈ env.reallocs, r = true
  | _ => True

/-- While the request is proxied, the cache buffer holds what it held before and what was
copied; when the upstream's end is read, that is inserted, if it is something. -/
structure Filling (old : List UInt8) (l : Life) : Prop where
  rbuf : l.conn.state = .proxying → l.conn.upstreamRbuf.Wf ∧ eofs l.acts = []
  filling : l.conn.state = .proxying → l.conn.CacheWf ∧ l.conn.cacheStore.isSome ∧
    l.conn.cached = old ++ copies l.acts ∧ inserts l.acts = []
  ended : eofs l.acts ≠ [] →
    inserts l.acts = if old ++ copies l.acts = [] then [] else [old ++ copies l.acts]

variable {l : Life} {c : ConnId} {old : List UInt8}

lemma Filling.handle (h : l.Filling old) (hstate : l.conn.state = .proxying) (ws : WorkerState)
    (env : Env) (f : St → St)
    (hs : St.StreamsOn ⟨c, l.conn, ws, env, []⟩ (f ⟨c, l.conn, ws, env, []⟩))
    (hf : St.FillsOn ⟨c, l.conn, ws, env, []⟩ (f ⟨c, l.conn, ws, env, []⟩)) :
    (l.handle c ws env f).Filling old := by
  obtain ⟨-, heofs⟩ := h.rbuf hstate
  obtain ⟨hwf, hstore, hcached, hins⟩ := h.filling hstate
  have hnew : (l.handle c ws env f).conn.state = .proxying →
      (l.handle c ws env f).conn.upstreamRbuf.Wf ∧ eofs (l.handle c ws env f).acts = [] := by
    intro hp
    rcases hs with hs | ⟨⟨hclosing, -⟩, -⟩
    · obtain ⟨as, has, hends, -⟩ := hs.acts
      exact ⟨hs.wf, by simp [Life.handle, has, heofs, hends]⟩
    · simp [Life.handle, hclosing] at hp
  -- the response goes on, or its end is read and the buffer is inserted
  rcases hf with hc | ⟨hclosing, as, has, hend⟩
  · obtain ⟨as, has, hins', hcached'⟩ := hc.acts
    rw [List.nil_append] at has
    refine ⟨hnew, fun _ => ⟨hc.wf, ?_, ?_, ?_⟩, fun hne => ?_⟩
    · simp only [Life.handle, hc.store]
      exact hstore
    · simp only [Life.handle, has, hcached', hcached, copies_append, List.append_assoc]
    · simp only [Life.handle, has, inserts_append, hins, hins', List.append_nil]
    · exact absurd (hnew (hc.state.trans hstate)).2 hne
  · rw [List.nil_append] at has
    refine ⟨hnew, fun hp => ?_, fun hne => ?_⟩
    · simp only [Life.handle, hclosing] at hp
      simp at hp
    · simp only [Life.handle, has, eofs_append, heofs, List.nil_append] at hne
      simp only [Life.handle, has, inserts_append, hins, List.nil_append, copies_append,
        ← List.append_assoc, ← hcached]
      exact hend hne

/-- **Every event keeps the record of the cache.** -/
lemma Filling.step (h : l.Filling old) {u : Use} (hu : Streaming c l u) (hgr : Granted u) :
    (l.step c u).Filling old := by
  cases u with
  | client ws env ev =>
    obtain ⟨hstate, hhup, herr, hwaits⟩ := hu
    exact h.handle hstate ws env (fun st => st.onClientEvent ev)
      (Or.inl (St.onClientEvent_streams (h.rbuf hstate).1 hstate hhup herr hwaits))
      (Or.inl (St.onClientEvent_copies (h.filling hstate).1 hstate hhup herr hwaits))
  | upstream ws env fd ev =>
    have hrbuf := (h.rbuf hu).1
    obtain ⟨hwf, hstore, -, -⟩ := h.filling hu
    obtain ⟨h0, hlen, hall⟩ := hgr
    exact h.handle hu ws env (fun st => st.proxyOnUpstreamEvent fd ev)
      (St.proxyOnUpstreamEvent_streamsOn hrbuf fd ev)
      (St.proxyOnUpstreamEvent_fillsOn h0 hrbuf hwf hstore
        (by simp only [show l.conn.state = .proxying from hu]; decide) ⟨hlen, hall⟩ ev)
  | get fd peer => exact hu.elim

end Life

/-- The backend answers in two pieces and closes, and the client takes nothing. -/
def slowRun : List Use :=
  [.upstream backendWorker.ws { idleEnv with
    upstreamReads := [.data (bytes "HTTP/1.1 200 OK"), .data (bytes "!"), .data []]
    reallocs := [true, true, true] } 5 inEvent]

end Nproxy
