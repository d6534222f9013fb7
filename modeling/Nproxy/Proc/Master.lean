import Nproxy.Http.VirtualHosts
import Nproxy.Lib.Run

/-!
The master process: `master_run` forks the workers, forks a dead one again and, on
`SIGHUP`, replaces all of them.

* `Master` is the state of the process, with `Point` for the place in `master_run`
  where it stands. A step is one system call or one reading of a flag, so a signal may
  come between any two of them. `children` is not a variable of the program: it is
  what the kernel knows, the workers that were forked and not yet reaped.
* `named` is the process that the next call of `kill_workers` or `wait_workers` is
  about, and `OwnOnly` says that it is a child.
* An entry of `worker_pids` is only replaced by the fork that follows the death of its
  worker. If that fork fails, or if a signal to stop comes in before it, the entry
  keeps a process that is gone, and is used (`exists_stray`). In every other run the
  entries are children (`ownOnly_run`).
-/

namespace Nproxy

/-- `MAX_WORKERS`. -/
def maxWorkers : ℤ := 64

/-- `worker_count`, by the configuration. -/
def workerCount (cfg : Settings) : ℤ :=
  if maxWorkers < cfg.globals.workerProcesses then maxWorkers else cfg.globals.workerProcesses

lemma workerCount_le (cfg : Settings) : workerCount cfg ≤ maxWorkers := by
  rw [workerCount]
  split_ifs with h
  · exact le_rfl
  · exact not_lt.mp h

/-- The loop of a reload over the server blocks. A port that could not be bound is tried again
for the next block that has it. -/
def rebindPorts : List ServerSettings → List Bool → List UInt16 → List UInt16
  | [], _, bound => bound
  | s :: ss, binds, bound =>
    if s.listenPort ∈ bound then rebindPorts ss binds bound
    else
      match binds with
      | true :: binds => rebindPorts ss binds (bound ++ [s.listenPort])
      | binds => rebindPorts ss binds.tail bound

/-- What `kill_workers` and `wait_workers` are called for. -/
inductive Purpose where
  | reload (cfg : Settings)
  | shutdown
  deriving DecidableEq, Repr

/-- A place in `master_run`, with the counter of the loop that is being run. -/
inductive Point where
  /-- in the loop that spawns all workers -/
  | spawn (i : ℕ)
  /-- at `while (!g_shutdown)` -/
  | test
  /-- at `waitpid(-1, &status, WNOHANG)` -/
  | reap
  /-- at the test of `g_shutdown` for a dead worker -/
  | found (i : ℕ)
  /-- at `spawn_worker` for a dead worker -/
  | respawn (i : ℕ)
  /-- at `if (g_reload)` -/
  | reload
  /-- at `config_load` -/
  | load
  /-- in the loop of `kill_workers` -/
  | kill (purpose : Purpose) (i : ℕ)
  /-- in the loop of `wait_workers` -/
  | wait (purpose : Purpose) (i : ℕ)
  /-- where the listeners are closed and bound again -/
  | rebind (cfg : Settings)
  /-- at `sleep` -/
  | sleep
  /-- `master_run` has returned -/
  | done
  deriving DecidableEq, Repr

/-- A worker was found dead. -/
def Point.finds : Point → Bool
  | .found _ => true
  | _ => false

/-- The points at which a dead worker is about to be forked again. -/
def Point.respawns : Point → Bool
  | .respawn _ => true
  | _ => false

/-- The master. -/
structure Master where
  point : Point
  cfg : Settings
  listeners : List UInt16
  /-- `worker_pids` -/
  pids : ℕ → ℤ
  /-- `worker_count` -/
  count : ℤ
  /-- `g_reload` -/
  reload : Bool
  /-- `g_shutdown` -/
  shutdown : Bool
  /-- forked and not yet reaped -/
  children : Finset ℤ

/-- The signals that `setup_signals` installs `master_sighandler` for. -/
inductive MasterSignal where
  | sighup
  | sigterm
  | sigint
  deriving DecidableEq, Repr

/-- What the kernel answers to a call, whichever the master makes. -/
structure MasterAnswers where
  /-- the process that `fork` made, negative if it failed -/
  fork : ℤ
  /-- the process that `waitpid` reaped, if positive -/
  wait : ℤ
  /-- the configuration file, if it can be opened -/
  file : Option (List UInt8)
  /-- the patterns that `regcomp` takes -/
  re : List UInt8 → Bool
  /-- the listeners that can be created -/
  binds : List Bool

/-- A signal comes in, or the master goes on. -/
inductive MasterInput where
  | signal (sig : MasterSignal)
  | go (a : MasterAnswers)

namespace Master

/-- `master_run` at its first loop. `worker_pids` is a static array. -/
def start (cfg : Settings) (listeners : List UInt16) : Master where
  point := .spawn 0
  cfg := cfg
  listeners := listeners
  pids := fun _ => 0
  count := workerCount cfg
  reload := false
  shutdown := false
  children := ∅

/-- `master_sighandler`. -/
def masterSighandler (m : Master) : MasterSignal → Master
  | .sighup => { m with reload := true }
  | .sigterm | .sigint => { m with shutdown := true }

/-- `spawn_worker`, in the parent. The child runs `worker_run` and exits. -/
def spawnWorker (m : Master) (id : ℕ) (pid : ℤ) : Master :=
  if 0 < pid then
    { m with pids := Function.update m.pids id pid, children := insert pid m.children }
  else m

/-- What follows the `waitpid` of the main loop. -/
def reaped (m : Master) (dead : ℤ) : Master :=
  if 0 < dead then
    { m with
      children := m.children.erase dead
      point :=
        match (List.range m.count.toNat).find? fun i => m.pids i = dead with
        | some i => .found i
        | none => .reload }
  else { m with point := .reload }

/-- One round of the loop in `wait_workers`. A `waitpid` that a signal interrupts reaps nothing,
and the entry is cleared all the same. -/
def waitWorker (m : Master) (i : ℕ) (pid : ℤ) : Master :=
  if 0 < m.pids i then
    { m with
      pids := Function.update m.pids i 0
      children := if pid = m.pids i then m.children.erase pid else m.children }
  else m

/-- What follows `wait_workers`. -/
def waited (m : Master) : Purpose → Master
  | .reload cfg => { m with point := .rebind cfg }
  | .shutdown => { m with point := .done, listeners := [] }

/-- The master goes on to the next call or flag. -/
def go (m : Master) (a : MasterAnswers) : Master :=
  match m.point with
  | .spawn i =>
    if i < m.count then { m.spawnWorker i a.fork with point := .spawn (i + 1) }
    else { m with point := .test }
  | .test => { m with point := if m.shutdown then .kill .shutdown 0 else .reap }
  | .reap => m.reaped a.wait
  | .found i => { m with point := if m.shutdown then .reload else .respawn i }
  | .respawn i => { m.spawnWorker i a.fork with point := .reload }
  | .reload =>
    if m.reload then { m with reload := false, point := .load } else { m with point := .sleep }
  | .load =>
    { m with
      point :=
        match a.file with
        | some file => .kill (.reload (Settings.load a.re file)) 0
        | none => .sleep }
  | .kill purpose i =>
    { m with point := if i < m.count then .kill purpose (i + 1) else .wait purpose 0 }
  | .wait purpose i =>
    if i < m.count then { m.waitWorker i a.wait with point := .wait purpose (i + 1) }
    else m.waited purpose
  | .rebind cfg =>
    { m with
      cfg := cfg
      listeners := rebindPorts cfg.servers a.binds []
      count := workerCount cfg
      point := .spawn 0 }
  | .sleep => { m with point := .test }
  | .done => m

/-- One step of the master: a signal comes in, or it goes on to its next system call. -/
def step (m : Master) : MasterInput → Master
  | .signal sig => m.masterSighandler sig
  | .go a => m.go a

/-- The process that `kill_workers` signals next, or `wait_workers` waits for. -/
def named (m : Master) : Option ℤ :=
  match m.point with
  | .kill _ i | .wait _ i => if i < m.count ∧ 0 < m.pids i then some (m.pids i) else none
  | _ => none

/-- The next call is about a worker that was forked and not yet reaped. -/
def OwnOnly (m : Master) : Prop := ∀ pid ∈ m.named, pid ∈ m.children

/-- The kernel does not give the number of a child away before it is reaped, and reaps nothing
but children. -/
def Grants (m : Master) : MasterInput → Prop
  | .signal _ => True
  | .go a => (0 < a.fork → a.fork ∉ m.children) ∧ (0 < a.wait → a.wait ∈ m.children)

/-- The fork for a dead worker succeeds. -/
def Renews (m : Master) : MasterInput → Prop
  | .signal _ => True
  | .go a => m.point.respawns → 0 < a.fork

/-- No signal to stop has come in when a worker is found dead. -/
def Unhurried (m : Master) : MasterInput → Prop
  | .signal _ => True
  | .go _ => m.point.finds → m.shutdown = false

instance (m : Master) : Decidable m.OwnOnly :=
  decidable_of_iff (∀ pid ∈ m.named.toList, pid ∈ m.children) (by simp [OwnOnly])

instance (m : Master) : ∀ i, Decidable (m.Grants i)
  | .signal _ => isTrue trivial
  | .go _ => inferInstanceAs (Decidable (_ ∧ _))

instance (m : Master) : ∀ i, Decidable (m.Renews i)
  | .signal _ => isTrue trivial
  | .go _ => inferInstanceAs (Decidable (_ → _))

instance (m : Master) : ∀ i, Decidable (m.Unhurried i)
  | .signal _ => isTrue trivial
  | .go _ => inferInstanceAs (Decidable (_ → _))

end Master

/-- The worker that is dead and not yet forked again. -/
def Point.dead : Point → Option ℕ
  | .found i | .respawn i => some i
  | _ => none

/-- The entries that `wait_workers` has cleared. -/
def Point.Cleared : Point → ℕ → Prop
  | .wait _ j, i => i < j
  | .rebind _, _ => True
  | _, _ => False

namespace Master

/-! ### The table is long enough -/

/-- The entry of the table that the next step reads or writes. -/
def entry (m : Master) : Option ℕ :=
  match m.point with
  | .spawn i | .kill _ i | .wait _ i => if i < m.count then some i else none
  | .found i | .respawn i => some i
  | _ => none

/-- The workers fit in the table. -/
structure Fits (m : Master) : Prop where
  count_le : m.count ≤ maxWorkers
  dead_lt : ∀ i, m.point.dead = some i → i < m.count

namespace Fits

variable {m : Master}

lemma start (cfg : Settings) (listeners : List UInt16) : Fits (Master.start cfg listeners) :=
  ⟨workerCount_le cfg, fun _ h => by cases h⟩

lemma entry_lt (hfits : Fits m) {i : ℕ} (hi : m.entry = some i) : i < maxWorkers := by
  have hlt : i < m.count := by
    rw [entry] at hi
    split at hi
    case h_6 => cases hi
    case h_4 | h_5 => exact hfits.dead_lt i (by simp [Point.dead, *])
    all_goals
      obtain ⟨h, ⟨⟩⟩ := Option.ite_none_right_eq_some.mp hi
      exact h
  exact hlt.trans_le hfits.count_le

/-- The master moves on, and no worker is dead. -/
lemma move {m' : Master} (hfits : Fits m) (hcount : m'.count = m.count)
    (hp : m'.point.dead = none) : Fits m' :=
  ⟨hcount ▸ hfits.count_le, fun i h => by cases hp.symm.trans h⟩

@[simp] lemma count_spawnWorker (id : ℕ) (pid : ℤ) : (m.spawnWorker id pid).count = m.count := by
  rw [spawnWorker]
  split_ifs <;> rfl

@[simp] lemma count_waitWorker (id : ℕ) (pid : ℤ) : (m.waitWorker id pid).count = m.count := by
  rw [waitWorker]
  split_ifs <;> rfl

lemma reaped (hfits : Fits m) (dead : ℤ) : Fits (m.reaped dead) := by
  rw [Master.reaped]
  split_ifs
  · refine ⟨hfits.count_le, fun i hi => ?_⟩
    dsimp only at hi
    split at hi
    · rename_i hfind
      cases hi
      have := List.mem_range.mp (List.mem_of_find?_eq_some hfind)
      change (i : ℤ) < m.count
      omega
    · cases hi
  · exact hfits.move rfl rfl

lemma go (hfits : Fits m) (a : MasterAnswers) : Fits (m.go a) := by
  rw [Master.go]
  cases hpoint : m.point with
  | spawn i =>
    dsimp only
    split_ifs
    · exact hfits.move (count_spawnWorker i a.fork) rfl
    · exact hfits.move rfl rfl
  | test => exact hfits.move rfl (by dsimp only; split_ifs <;> rfl)
  | reap => exact hfits.reaped a.wait
  | found i =>
    dsimp only
    split_ifs
    · exact hfits.move rfl rfl
    · exact ⟨hfits.count_le, fun j h => hfits.dead_lt j (by rw [hpoint]; exact h)⟩
  | respawn i => exact hfits.move (count_spawnWorker i a.fork) rfl
  | reload =>
    dsimp only
    split_ifs
    · exact hfits.move rfl rfl
    · exact hfits.move rfl rfl
  | load => exact hfits.move rfl (by dsimp only; cases a.file <;> rfl)
  | kill purpose i => exact hfits.move rfl (by dsimp only; split_ifs <;> rfl)
  | wait purpose i =>
    dsimp only
    split_ifs
    · exact hfits.move (count_waitWorker i a.wait) rfl
    · cases purpose <;> exact hfits.move rfl rfl
  | rebind cfg => exact ⟨workerCount_le cfg, fun i h => by cases h⟩
  | sleep => exact hfits.move rfl rfl
  | done => exact hfits

lemma step (hfits : Fits m) (i : MasterInput) : Fits (m.step i) := by
  cases i with
  | signal sig => cases sig <;> exact ⟨hfits.count_le, hfits.dead_lt⟩
  | go a => exact hfits.go a

end Fits

/-- No run reads or writes beyond the end of `worker_pids`, whatever the kernel answers. -/
theorem entry_lt_run (cfg : Settings) (listeners : List UInt16) (is : List MasterInput) {i : ℕ}
    (hi : (Run.run step (start cfg listeners) is).entry = some i) : i < maxWorkers := by
  have hfits : Fits (Run.run step (start cfg listeners) is) :=
    Run.run_invariant (fun _ i h => h.step i) (.start cfg listeners) is
  exact hfits.entry_lt hi

/-! ### The table holds the children -/

/-- What the table of the workers is, wherever the master stands. -/
structure Inv (m : Master) : Prop extends Fits m where
  /-- an entry is a child, apart from that of a dead worker -/
  own : ∀ i, m.point.dead ≠ some i → 0 < m.pids i → m.pids i ∈ m.children
  distinct : ∀ i j, 0 < m.pids i → m.pids i = m.pids j → i = j
  within : ∀ i, 0 < m.pids i → i < m.count
  cleared : ∀ i, m.point.Cleared i → m.pids i ≤ 0

namespace Inv

variable {m : Master} {i : ℕ} {pid : ℤ} {p : Point}

lemma start (cfg : Settings) (listeners : List UInt16) : Inv (Master.start cfg listeners) where
  own _ _ h := absurd h (lt_irrefl 0)
  distinct _ _ h := absurd h (lt_irrefl 0)
  within _ h := absurd h (lt_irrefl 0)
  toFits := .start cfg listeners
  cleared _ h := h.elim

lemma ownOnly (hinv : Inv m) : m.OwnOnly := by
  intro pid hpid
  rw [named] at hpid
  split at hpid
  case h_3 => cases hpid
  all_goals
    split_ifs at hpid with h
    · cases hpid
      exact hinv.own _ (by simp [Point.dead, *]) h.2
    · cases hpid

/-- The flags are of no account to the table, nor are the listeners. -/
lemma congr {m' : Master} (hinv : Inv m) (hpoint : m'.point = m.point) (hpids : m'.pids = m.pids)
    (hcount : m'.count = m.count) (hchildren : m'.children = m.children) : Inv m' where
  own := by rw [hpoint, hpids, hchildren]; exact hinv.own
  distinct := by rw [hpids]; exact hinv.distinct
  within := by rw [hpids, hcount]; exact hinv.within
  toFits := ⟨hcount ▸ hinv.count_le, by rw [hpoint, hcount]; exact hinv.dead_lt⟩
  cleared := by rw [hpoint, hpids]; exact hinv.cleared

/-- The master moves on, and no worker is dead. -/
lemma move (hinv : Inv m) (hdead : m.point.dead = none) (hp : p.dead = none)
    (hcleared : ∀ i, p.Cleared i → m.pids i ≤ 0) : Inv { m with point := p } where
  own i _ h := hinv.own i (by simp [hdead]) h
  distinct := hinv.distinct
  within := hinv.within
  toFits := hinv.toFits.move rfl hp
  cleared := hcleared

/-- A worker is forked for a free entry or for that of the dead worker. -/
lemma spawned (hinv : Inv m) (hi : i < m.count) (hdead : ∀ j, m.point.dead = some j → j = i)
    (hnew : m.point.dead = none ∨ 0 < pid) (hfresh : 0 < pid → pid ∉ m.children)
    (hp : p.dead = none) (hcleared : ∀ i, ¬p.Cleared i) :
    Inv { m.spawnWorker i pid with point := p } := by
  rw [spawnWorker]
  split_ifs with hpid
  · have hother : ∀ j, j ≠ i → 0 < m.pids j → m.pids j ∈ m.children := fun j hj =>
      hinv.own j fun h => hj (hdead j h)
    refine ⟨hinv.toFits.move rfl hp, fun j _ => ?_, fun j k => ?_, fun j => ?_,
      fun j h => (hcleared j h).elim⟩
    · rcases eq_or_ne i j with rfl | hj
      · intro _
        simp
      · simp only [Function.update_of_ne hj.symm, Finset.mem_insert]
        exact fun h => .inr (hother j hj.symm h)
    · -- the new process is no child so far, the others in the table are
      rcases eq_or_ne i j with rfl | hj <;> rcases eq_or_ne i k with rfl | hk
      · exact fun _ _ => rfl
      · simp only [Function.update_self, Function.update_of_ne hk.symm]
        intro _ heq
        exact absurd (heq ▸ hother k hk.symm (heq ▸ hpid)) (hfresh hpid)
      · simp only [Function.update_self, Function.update_of_ne hj.symm]
        intro h heq
        exact absurd (heq ▸ hother j hj.symm h) (hfresh hpid)
      · simp only [Function.update_of_ne hj.symm, Function.update_of_ne hk.symm]
        exact hinv.distinct j k
    · rcases eq_or_ne i j with rfl | hj
      · exact fun _ => hi
      · simp only [Function.update_of_ne hj.symm]
        exact hinv.within j
  · exact hinv.move (hnew.resolve_right hpid) hp fun i h => (hcleared i h).elim

/-- A child is reaped. Its entry is found, if it has one. -/
lemma reaped (hinv : Inv m) (hpoint : m.point = .reap) (dead : ℤ) : Inv (m.reaped dead) := by
  have hdead : m.point.dead = none := by rw [hpoint]; rfl
  have hfits : Fits (m.reaped dead) := hinv.toFits.reaped dead
  rw [Master.reaped] at hfits
  rw [Master.reaped]
  by_cases hpos : 0 < dead
  · rw [if_pos hpos] at hfits ⊢
    have hown : ∀ i, 0 < m.pids i → m.pids i ∈ m.children := fun i =>
      hinv.own i (by simp [hdead])
    generalize hfind : (List.range m.count.toNat).find? _ = r at hfits ⊢
    cases r with
    | none =>
      have hnone : ∀ i, 0 < m.pids i → m.pids i ≠ dead := by
        intro i hi heq
        have hmem : i ∈ List.range m.count.toNat := by
          have := hinv.within i hi
          exact List.mem_range.mpr (by omega)
        exact absurd heq (by simpa using List.find?_eq_none.mp hfind i hmem)
      exact ⟨hfits, fun i _ h => Finset.mem_erase.mpr ⟨hnone i h, hown i h⟩, hinv.distinct,
        hinv.within, fun i h => h.elim⟩
    | some j =>
      have hj : m.pids j = dead := by simpa using List.find?_some hfind
      refine ⟨hfits, fun i hi h => ?_, hinv.distinct, hinv.within, fun i h => h.elim⟩
      refine Finset.mem_erase.mpr ⟨fun heq => hi ?_, hown i h⟩
      exact congrArg some (hinv.distinct j i (hj ▸ hpos) (hj.trans heq.symm))
  · rw [if_neg hpos]
    exact hinv.move hdead rfl fun i h => h.elim

/-- An entry is cleared, whether or not its worker is reaped. -/
lemma waitWorker {purpose : Purpose} (hinv : Inv m) (hpoint : m.point = .wait purpose i)
    (pid : ℤ) : Inv { m.waitWorker i pid with point := .wait purpose (i + 1) } := by
  have hdead : m.point.dead = none := by rw [hpoint]; rfl
  have hcleared : ∀ j < i, m.pids j ≤ 0 := fun j hj => hinv.cleared j (by rw [hpoint]; exact hj)
  rw [Master.waitWorker]
  by_cases hpos : 0 < m.pids i
  · rw [if_pos hpos]
    have hne : ∀ {j}, 0 < Function.update m.pids i 0 j → j ≠ i := by
      rintro j h rfl
      simp at h
    refine ⟨hinv.toFits.move rfl rfl, fun j _ h => ?_, fun j k h heq => ?_, fun j h => ?_,
      fun j h => ?_⟩
    · have hj := hne h
      simp only [Function.update_of_ne hj] at h ⊢
      have hmem := hinv.own j (by simp [hdead]) h
      split_ifs with hpid
      · refine Finset.mem_erase.mpr ⟨fun heq => hj ?_, hmem⟩
        exact hinv.distinct j i h (heq.trans hpid)
      · exact hmem
    · have hj := hne h
      have hk := hne (heq ▸ h)
      simp only [Function.update_of_ne hj, Function.update_of_ne hk] at h heq
      exact hinv.distinct j k h heq
    · have hj := hne h
      simp only [Function.update_of_ne hj] at h
      exact hinv.within j h
    · rcases eq_or_ne j i with rfl | hj
      · simp
      · simp only [Function.update_of_ne hj]
        exact hcleared j (lt_of_le_of_ne (Nat.lt_succ_iff.mp h) hj)
  · rw [if_neg hpos]
    refine hinv.move hdead rfl fun j h => ?_
    rcases Nat.lt_succ_iff_lt_or_eq.mp h with hj | rfl
    · exact hcleared j hj
    · exact not_lt.mp hpos

/-- After `wait_workers` the table is empty. -/
lemma waited {purpose : Purpose} (hinv : Inv m) (hpoint : m.point = .wait purpose i)
    (hi : ¬i < m.count) : Inv (m.waited purpose) := by
  have hdead : m.point.dead = none := by rw [hpoint]; rfl
  have hempty : ∀ j, m.pids j ≤ 0 := by
    intro j
    by_contra hj
    have hlt := hinv.within j (not_le.mp hj)
    exact hj (hinv.cleared j (by rw [hpoint]; change j < i; omega))
  cases purpose with
  | reload cfg => exact hinv.move hdead rfl fun j _ => hempty j
  | shutdown =>
    have hdone : Inv { m with point := .done } := hinv.move hdead rfl fun j h => h.elim
    exact hdone.congr rfl rfl rfl rfl

/-- A reload sets out from an empty table. -/
lemma rebind {cfg : Settings} (hinv : Inv m) (hpoint : m.point = .rebind cfg)
    (listeners : List UInt16) :
    Inv { m with
      cfg := cfg, listeners := listeners, count := workerCount cfg, point := .spawn 0 } := by
  have hempty : ∀ j, m.pids j ≤ 0 := fun j => hinv.cleared j (by rw [hpoint]; trivial)
  exact ⟨⟨workerCount_le cfg, fun j h => by cases h⟩,
    fun j _ h => absurd h (not_lt.mpr (hempty j)), hinv.distinct,
    fun j h => absurd h (not_lt.mpr (hempty j)), fun j h => h.elim⟩

/-- What one step keeps, where a dead worker is replaced. -/
lemma go {a : MasterAnswers} (hinv : Inv m) (hgrants : m.Grants (.go a))
    (hrenews : m.Renews (.go a)) (hunhurried : m.Unhurried (.go a)) : Inv (m.go a) := by
  have hmove {p : Point} (hdead : m.point.dead = none) (hp : p.dead = none)
      (hcleared : ∀ i, ¬p.Cleared i) : Inv { m with point := p } :=
    hinv.move hdead hp fun i h => (hcleared i h).elim
  rw [Master.go]
  cases hpoint : m.point with
  | spawn i =>
    have hdead : m.point.dead = none := by rw [hpoint]; rfl
    dsimp only
    split_ifs with hi
    · exact hinv.spawned hi (by simp [hdead]) (.inl hdead) hgrants.1 rfl fun _ h => h
    · exact hmove hdead rfl fun _ h => h
  | test =>
    dsimp only
    split_ifs
    · exact hmove (by rw [hpoint]; rfl) rfl fun _ h => h
    · exact hmove (by rw [hpoint]; rfl) rfl fun _ h => h
  | reap => exact hinv.reaped hpoint a.wait
  | found i =>
    dsimp only
    -- no signal to stop has come, so the dead worker is replaced
    rw [hunhurried (by rw [hpoint]; rfl)]
    refine ⟨⟨hinv.count_le, fun j h => hinv.dead_lt j ?_⟩, fun j hj => hinv.own j ?_,
      hinv.distinct, hinv.within, fun j h => h.elim⟩
    · rw [hpoint]
      exact h
    · rw [hpoint]
      exact hj
  | respawn i =>
    have hdead : m.point.dead = some i := by rw [hpoint]; rfl
    have hnew := hrenews (by rw [hpoint]; rfl)
    refine hinv.spawned (hinv.dead_lt i hdead) (fun j hj => ?_) (.inr hnew) hgrants.1 rfl
      fun _ h => h
    exact Option.some.inj (hj.symm.trans hdead)
  | reload =>
    dsimp only
    split_ifs
    · have hload : Inv { m with point := .load } :=
        hmove (by rw [hpoint]; rfl) rfl fun _ h => h
      exact hload.congr rfl rfl rfl rfl
    · exact hmove (by rw [hpoint]; rfl) rfl fun _ h => h
  | load =>
    dsimp only
    cases a.file with
    | none => exact hmove (by rw [hpoint]; rfl) rfl fun _ h => h
    | some file => exact hmove (by rw [hpoint]; rfl) rfl fun _ h => h
  | kill purpose i =>
    dsimp only
    split_ifs
    · exact hmove (by rw [hpoint]; rfl) rfl fun _ h => h
    · exact hmove (by rw [hpoint]; rfl) rfl fun j h => absurd h (Nat.not_lt_zero j)
  | wait purpose i =>
    dsimp only
    split_ifs with hi
    · exact hinv.waitWorker hpoint a.wait
    · exact hinv.waited hpoint hi
  | rebind cfg => exact hinv.rebind hpoint _
  | sleep => exact hmove (by rw [hpoint]; rfl) rfl fun _ h => h
  | done => exact hinv

lemma step {i : MasterInput} (hinv : Inv m) (hgrants : m.Grants i) (hrenews : m.Renews i)
    (hunhurried : m.Unhurried i) : Inv (m.step i) := by
  cases i with
  | signal sig => cases sig <;> exact hinv.congr rfl rfl rfl rfl
  | go a => exact hinv.go hgrants hrenews hunhurried

end Inv

/-- **The master names its own children only**, in every run in which a dead worker is forked
again. -/
theorem ownOnly_run (cfg : Settings) (listeners : List UInt16) (is : List MasterInput)
    (h : Run.Along step (fun m i => m.Grants i ∧ m.Renews i ∧ m.Unhurried i)
      (start cfg listeners) is) :
    (Run.run step (start cfg listeners) is).OwnOnly := by
  have hinv : Inv (Run.run step (start cfg listeners) is) :=
    h.invariant (fun _ _ hinv hi => hinv.step hi.1 hi.2.1 hi.2.2) (.start cfg listeners)
  exact hinv.ownOnly

/-! ### Runs of a master with one or two workers -/

/-- A configuration with two workers. -/
def twoWorkers : Settings :=
  { Settings.defaults with globals := { Settings.defaults.globals with workerProcesses := 2 } }

/-- A file that asks for one worker. -/
def oneWorkerFile : List UInt8 := bytes "[server]" ++ lf :: bytes "worker_processes = 1"

/-- The master goes on, by an answer of `fork` and one of `waitpid`. -/
def goOn (fork wait : ℤ) : MasterInput :=
  .go ⟨fork, wait, some oneWorkerFile, fun _ => true, [true]⟩

/-- Two workers are forked, and `waitpid` reaps the first. -/
def firstDies : List MasterInput :=
  [goOn 101 0, goOn 102 0, goOn (-1) 0, goOn (-1) 0, goOn (-1) 101]

/-- The dead worker is forked again. A reload replaces both workers by one, while a signal to stop
interrupts the second `waitpid`. Then the master stops. -/
def quietRun : List MasterInput :=
  firstDies ++ [goOn (-1) 0, goOn 103 0, .signal .sighup, goOn (-1) 0, goOn (-1) 0, goOn (-1) 0,
    goOn (-1) 0, goOn (-1) 0, goOn (-1) 103, .signal .sigterm, goOn (-1) 0, goOn (-1) 0,
    goOn (-1) 0, goOn 104 0, goOn (-1) 0, goOn (-1) 0]

/-- In this run the master ends with a call about 104, a worker of its own. -/
theorem ownOnly_run_quietRun :
    Run.Along step (fun m i => m.Grants i ∧ m.Renews i ∧ m.Unhurried i) (start twoWorkers [8080])
        quietRun ∧
      (Run.run step (start twoWorkers [8080]) quietRun).named = some 104 ∧
        (Run.run step (start twoWorkers [8080]) quietRun).OwnOnly := by
  have halong : Run.Along step (fun m i => m.Grants i ∧ m.Renews i ∧ m.Unhurried i)
      (start twoWorkers [8080]) quietRun := by
    decide +kernel
  exact ⟨halong, by decide +kernel, ownOnly_run twoWorkers [8080] quietRun halong⟩

/-- **A signal to a process that is gone**: the fork for the dead worker fails, or a signal to stop
comes in before it. -/
theorem exists_stray :
    (∃ cfg listeners is,
      Run.Along step (fun m i => m.Grants i ∧ m.Unhurried i) (start cfg listeners) is ∧
        ¬(Run.run step (start cfg listeners) is).OwnOnly) ∧
    ∃ cfg listeners is,
      Run.Along step (fun m i => m.Grants i ∧ m.Renews i) (start cfg listeners) is ∧
        ¬(Run.run step (start cfg listeners) is).OwnOnly := by
  constructor
  · refine ⟨twoWorkers, [8080], firstDies ++ [goOn (-1) 0, goOn (-1) 0, goOn (-1) 0,
      .signal .sigterm, goOn (-1) 0, goOn (-1) 0], ?_, ?_⟩ <;> decide +kernel
  · refine ⟨twoWorkers, [8080], firstDies ++ [.signal .sigterm, goOn (-1) 0, goOn (-1) 0,
      goOn (-1) 0, goOn (-1) 0], ?_, ?_⟩ <;> decide +kernel

end Master

end Nproxy
