import Nproxy.Lib.Custody
import Nproxy.Proxy.Idle

/-!
The descriptors of a backend: `upstream_get_connection` hands them out, and
`upstream_put_connection` takes them back.

* `Descriptors`: a pool, with the descriptors of one of its backends that are out, those that were
  closed, and all that were ever obtained. `Descriptors.step` is one call of either function.
* `Descriptors.custody` forgets the array of the idle descriptors: a call is a move of the
  library's `Custody`, or does nothing (`custody_step`).
* `descriptors_run`: every descriptor is in one place all along, and `idle_count` stays within
  `keepalive_conns` and the array.
-/

namespace Nproxy

/-- A pool, and where the descriptors of one of its backends are. -/
structure Descriptors where
  pool : UpstreamPool
  handed : List ℤ
  closed : Finset ℤ
  obtained : Finset ℤ

/-- A call for the backend, with the result of `socket_connect_nonblock` if it is asked. -/
inductive DescriptorOp where
  | get (connect : Option ℤ)
  | put (fd : ℤ)
  deriving DecidableEq, Repr

namespace Descriptors

/-- The backends as they are created. -/
def start (cfg : ServerConfig) : Descriptors := ⟨upstreamPoolCreate cfg, [], ∅, ∅⟩

/-- One call for backend `i`. -/
def step (i : ℕ) (s : Descriptors) : DescriptorOp → Descriptors
  | .get connect =>
    match upstreamGetConnection s.pool i connect, connect with
    | (fd, pool, false), _ => { s with pool := pool, handed := fd :: s.handed }
    | (_, pool, true), none => { s with pool := pool }
    | (fd, pool, true), some _ =>
      { pool := pool
        handed := fd :: s.handed
        closed := s.closed.erase fd
        obtained := insert fd s.obtained }
  | .put fd =>
    match upstreamPutConnection s.pool.keepaliveConns s.pool i fd with
    | (pool, false) => { s with pool := pool, handed := s.handed.erase fd }
    | (pool, true) =>
      { s with pool := pool, handed := s.handed.erase fd, closed := insert fd s.closed }

/-- The descriptors, without the array. -/
def custody (i : ℕ) (s : Descriptors) : Custody ℤ :=
  ⟨(s.pool.backend i).idle, s.handed, s.closed, s.obtained⟩

/-- A connect gives a descriptor that is not open, and only a descriptor that is out is put
back. -/
def Fair (i : ℕ) (s : Descriptors) : DescriptorOp → Prop
  | .get connect => ∀ fd ∈ connect, fd ∉ (s.pool.backend i).idle ∧ fd ∉ s.handed
  | .put fd => fd ∈ s.handed

instance (i : ℕ) (s : Descriptors) : ∀ op, Decidable (s.Fair i op)
  | .get connect => inferInstanceAs (Decidable (∀ fd ∈ connect, _ ∧ _))
  | .put fd => inferInstanceAs (Decidable (fd ∈ s.handed))

/-- The array of the backend, with a limit for what it holds. -/
structure Room (i : ℕ) (keepalive : ℤ) (s : Descriptors) : Prop where
  index : i < s.pool.backends.length
  slots : (s.pool.backend i).idleFds.length = 64
  limit : s.pool.keepaliveConns = keepalive
  count : ((s.pool.backend i).idleCount : ℤ) ≤ max 0 (min keepalive 64)

variable {i : ℕ} {keepalive : ℤ} {s : Descriptors}

lemma Room.count_le (h : s.Room i keepalive) : (s.pool.backend i).idleCount ≤ 64 := by
  have := h.count
  omega

lemma room_start (cfg : ServerConfig) (hi : i < cfg.backends.length) :
    (start cfg).Room i cfg.keepaliveConns := by
  have hdrained := UpstreamPool.drained_create cfg
  have hlen : i < (upstreamPoolCreate cfg).backends.length := by
    rwa [upstreamPoolCreate, List.length_map]
  refine ⟨hlen, hdrained.room i hlen, rfl, ?_⟩
  rw [start, hdrained.count i]
  exact le_max_left _ _

/-- A change of the backend's idle descriptors. -/
lemma Room.modify (h : s.Room i keepalive) {f : Backend → Backend}
    (hslots : (f (s.pool.backend i)).idleFds.length = 64)
    (hcount : ((f (s.pool.backend i)).idleCount : ℤ) ≤ max 0 (min keepalive 64))
    (handed : List ℤ) (closed obtained : Finset ℤ) :
    Room i keepalive ⟨s.pool.modify i f, handed, closed, obtained⟩ := by
  have hself := UpstreamPool.backend_modify_self (f := f) h.index
  exact ⟨by simpa using h.index, by rwa [hself], h.limit, by rwa [hself]⟩

/-- **A connection is reused**: the last of the idle ones. -/
lemma get_idle (h : s.Room i keepalive) (hcount : (s.pool.backend i).idleCount > 0)
    (connect : Option ℤ) : (s.step i (.get connect)).Room i keepalive ∧
      (s.step i (.get connect)).custody i = (s.custody i).move .reuse := by
  have hle := h.count_le
  have hslots := h.slots
  obtain ⟨n, hn⟩ : ∃ n, (s.pool.backend i).idleCount = n + 1 := Nat.exists_eq_add_one.mpr hcount
  have hstep : s.step i (.get connect) =
      { s with
        pool := s.pool.modify i fun be => { be with idleCount := n }
        handed := (s.pool.backend i).idleFds.getD n 0 :: s.handed } := by
    have hget : upstreamGetConnection s.pool i connect =
        ((s.pool.backend i).idleFds.getD n 0,
          s.pool.modify i (fun be => { be with idleCount := n }), false) := by
      rw [upstreamGetConnection]
      simp only [hn, Nat.add_sub_cancel]
      exact if_pos n.succ_pos
    simp only [step, hget]
  have hidle : (s.pool.backend i).idle
      = (s.pool.backend i).idleFds.take n ++ [(s.pool.backend i).idleFds.getD n 0] := by
    have hlt : n < (s.pool.backend i).idleFds.length := by omega
    rw [Backend.idle, hn, List.take_succ_eq_append_getElem hlt, List.getD_eq_getElem?_getD,
      List.getElem?_eq_getElem hlt, Option.getD_some]
  rw [hstep]
  constructor
  · refine h.modify hslots ?_ _ _ _
    have := h.count
    simp only
    omega
  · rw [custody, UpstreamPool.backend_modify_self h.index, Custody.move, custody, hidle]
    simp [Backend.idle]

/-- **A connection is made** where none is idle, and its descriptor is handed out. -/
lemma get_connect (hcount : ¬(s.pool.backend i).idleCount > 0) (connect : Option ℤ) :
    s.step i (.get connect) = match connect with
      | none => s
      | some fd =>
        { s with
          handed := fd :: s.handed
          closed := s.closed.erase fd
          obtained := insert fd s.obtained } := by
  have hget : upstreamGetConnection s.pool i connect = (connect.getD (-1), s.pool, true) := by
    rw [upstreamGetConnection]
    simp only [if_neg hcount]
  cases connect <;> simp only [step, hget, Option.getD_some]

/-- **A connection that is put back is kept or closed**, and there is still room for those kept. -/
lemma put_cases (h : s.Room i keepalive) (fd : ℤ) :
    (s.step i (.put fd)).Room i keepalive ∧
      ((s.step i (.put fd)).custody i = (s.custody i).move (.keep fd) ∨
        (s.step i (.put fd)).custody i = (s.custody i).move (.close fd)) := by
  have hslots := h.slots
  have hcount := h.count
  rw [step, h.limit, upstreamPutConnection]
  by_cases hroom : ((s.pool.backend i).idleCount : ℤ) < keepalive ∧
      (s.pool.backend i).idleCount < 64
  · rw [if_pos hroom]
    refine ⟨h.modify (by simpa using hslots) (by push_cast; omega) _ _ _, .inl ?_⟩
    rw [custody, UpstreamPool.backend_modify_self h.index, Custody.move, custody]
    have hidle : ((s.pool.backend i).idleFds.set (s.pool.backend i).idleCount fd).take
        ((s.pool.backend i).idleCount + 1) = (s.pool.backend i).idle ++ [fd] := by
      rw [List.take_succ_eq_append_getElem (by rw [List.length_set]; omega),
        List.take_set_of_le le_rfl, List.getElem_set_self, Backend.idle]
    simp only [← hidle]
    rfl
  · rw [if_neg hroom]
    exact ⟨⟨h.index, h.slots, h.limit, h.count⟩, .inr rfl⟩

/-- **A call is a fair move of the descriptors, or does nothing.** -/
lemma custody_step (h : s.Room i keepalive) {op : DescriptorOp} (hop : s.Fair i op) :
    (s.step i op).Room i keepalive ∧ ((s.step i op).custody i = s.custody i ∨
      ∃ m, (s.custody i).Fair m ∧ (s.step i op).custody i = (s.custody i).move m) := by
  cases op with
  | put fd =>
    obtain ⟨hroom, hkeep | hclose⟩ := put_cases h fd
    · exact ⟨hroom, .inr ⟨.keep fd, hop, hkeep⟩⟩
    · exact ⟨hroom, .inr ⟨.close fd, hop, hclose⟩⟩
  | get connect =>
    by_cases hcount : (s.pool.backend i).idleCount > 0
    · obtain ⟨hroom, hreuse⟩ := get_idle h hcount connect
      exact ⟨hroom, .inr ⟨.reuse, trivial, hreuse⟩⟩
    · rw [get_connect hcount]
      cases connect with
      | none => exact ⟨h, .inl rfl⟩
      | some fd =>
        obtain ⟨hidle, hhanded⟩ := hop fd rfl
        refine ⟨⟨h.index, h.slots, h.limit, h.count⟩, .inr ⟨.obtain fd, ?_, rfl⟩⟩
        exact fun hmem => (List.mem_append.mp hmem).elim hidle hhanded

/-- What holds of the descriptors all along. -/
structure Owned (i : ℕ) (keepalive : ℤ) (s : Descriptors) : Prop where
  one_place : ∀ fd ∈ s.obtained,
    Custody.ExactlyOne (fd ∈ (s.pool.backend i).idle) (fd ∈ s.handed) (fd ∈ s.closed)
  idle_nodup : (s.pool.backend i).idle.Nodup
  idle_length : (s.pool.backend i).idle.length = (s.pool.backend i).idleCount
  handed_nodup : s.handed.Nodup
  known : ∀ fd, fd ∈ (s.pool.backend i).idle ∨ fd ∈ s.handed ∨ fd ∈ s.closed → fd ∈ s.obtained
  count_nonneg : (0 : ℤ) ≤ (s.pool.backend i).idleCount
  count_le : ((s.pool.backend i).idleCount : ℤ) ≤ max 0 (min keepalive 64)

lemma Room.owned (h : s.Room i keepalive) (hsound : (s.custody i).Sound) : s.Owned i keepalive where
  one_place _ := hsound.exactlyOne
  idle_nodup := (List.nodup_append.mp hsound.nodup).1
  idle_length := by
    rw [Backend.idle, List.length_take, h.slots]
    exact min_eq_left h.count_le
  handed_nodup := (List.nodup_append.mp hsound.nodup).2.1
  known fd hfd := by
    refine (hsound.obtained fd).mpr ?_
    rw [Custody.held, List.mem_append, or_assoc]
    exact hfd
  count_nonneg := Int.natCast_nonneg _
  count_le := h.count

end Descriptors

/-- **Every descriptor of a backend is in one place**, whatever `keepalive_conns` is: among the idle
ones, out, or closed; and there are no more idle ones than `keepalive_conns` and the array
allow. -/
theorem descriptors_run (cfg : ServerConfig) (i : ℕ) (hi : i < cfg.backends.length)
    (ops : List DescriptorOp)
    (hops : Run.Along (Descriptors.step i) (Descriptors.Fair i) (.start cfg) ops) :
    (Run.run (Descriptors.step i) (.start cfg) ops).Owned i cfg.keepaliveConns := by
  have hstart : ((Descriptors.start cfg).custody i).Sound := by
    have hidle := (UpstreamPool.drained_create cfg).idle i
    refine ⟨?_, fun fd hfd => absurd hfd (Finset.notMem_empty fd), fun fd => ?_⟩
    · rw [Custody.held, Descriptors.custody, Descriptors.start, hidle]
      exact List.nodup_nil
    · rw [Custody.held, Descriptors.custody, Descriptors.start, hidle]
      simp
  obtain ⟨hroom, hsound⟩ := hops.invariant
    (P := fun s => s.Room i cfg.keepaliveConns ∧ (s.custody i).Sound) (fun s op h hop => by
      obtain ⟨hroom, heq | ⟨m, hm, heq⟩⟩ := Descriptors.custody_step h.1 hop
      · exact ⟨hroom, heq ▸ h.2⟩
      · exact ⟨hroom, heq ▸ h.2.move hm⟩)
    ⟨Descriptors.room_start cfg hi, hstart⟩
  exact hroom.owned hsound

/-- Two connections are made and put back, where one can be kept; it is reused, and the number of
the other one comes back. -/
def twoConnections : List DescriptorOp :=
  [.get (some 5), .get (some 6), .put 5, .put 6, .get none, .get (some 6)]

/-- With room for one idle connection, the second one that is put back is closed, and no descriptor
has two owners. -/
theorem descriptors_run_twoConnections :
    (Run.run (Descriptors.step 0) (.start { backendServer with keepaliveConns := 1 })
      twoConnections).Owned 0 1 :=
  descriptors_run { backendServer with keepaliveConns := 1 } 0 (by decide) twoConnections
    (by decide +kernel)

end Nproxy
