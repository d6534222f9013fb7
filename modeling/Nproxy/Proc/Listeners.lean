import Nproxy.Lib.Distinct
import Nproxy.Proc.Master

/-!
The listening sockets: `main` binds them at start-up, and `master_run` again after a `SIGHUP`.

Both go over the server blocks with a loop of their own and keep the ports that are bound in an
array beside the one of the sockets. `main` gives up at the first port that cannot be bound, the
reload goes on.

* `mainListen` and `reloadListen`: the two loops. A read or a store outside the arrays gives
  `none`.
* `mainListen_eq` and `reloadListen_eq`: on at most sixteen blocks they stay inside, and leave
  the ports that the loops over lists compute.
* `listen_agree`: where all ports can be bound, both leave the same ports.
-/

namespace Nproxy

/-! ### The loops -/

/-- The variables of the loops; a socket is given by its port. -/
structure Listeners where
  sockets : FixedArray UInt16 configMaxServers
  boundPorts : FixedArray UInt16 configMaxServers
  count : ℕ

namespace Listeners

/-- The ports that are bound. -/
def ports (l : Listeners) : List UInt16 := l.boundPorts.elems.take l.count

/-- The sockets that are handed on. -/
def listening (l : Listeners) : List UInt16 := l.sockets.elems.take l.count

/-- The inner loop, over `n` ports from `j` on. -/
def alreadyBound (l : Listeners) (port : UInt16) : ℕ → ℕ → Option Bool
  | 0, _ => some false
  | n + 1, j =>
    (l.boundPorts.get? j).bind fun p =>
      if p = port then some true else alreadyBound l port n (j + 1)

/-- A listener was created: it is stored, and its port. -/
def push (l : Listeners) (port : UInt16) : Option Listeners :=
  (l.sockets.store l.count port).bind fun sockets =>
    (l.boundPorts.store l.count port).map fun boundPorts => ⟨sockets, boundPorts, l.count + 1⟩

end Listeners

/-- The loop of `main` over the server blocks, with the results of `socket_create_listener`; an
error is the port that could not be bound. -/
def mainListen : List ServerSettings → List Bool → Listeners → Option (Except UInt16 Listeners)
  | [], _, l => some (.ok l)
  | s :: ss, binds, l =>
    (l.alreadyBound s.listenPort l.count 0).bind fun already =>
      if already then mainListen ss binds l
      else
        match binds with
        | true :: binds => (l.push s.listenPort).bind fun l => mainListen ss binds l
        | _ => some (.error s.listenPort)

/-- The loop of a reload over the server blocks. -/
def reloadListen : List ServerSettings → List Bool → Listeners → Option Listeners
  | [], _, l => some l
  | s :: ss, binds, l =>
    (l.alreadyBound s.listenPort l.count 0).bind fun already =>
      if already then reloadListen ss binds l
      else
        match binds with
        | true :: binds => (l.push s.listenPort).bind fun l => reloadListen ss binds l
        | binds => reloadListen ss binds.tail l

/-- The loop of `main`, over lists. -/
def bindPorts : List ServerSettings → List Bool → List UInt16 → Except UInt16 (List UInt16)
  | [], _, bound => .ok bound
  | s :: ss, binds, bound =>
    if s.listenPort ∈ bound then bindPorts ss binds bound
    else
      match binds with
      | true :: binds => bindPorts ss binds (bound ++ [s.listenPort])
      | _ => .error s.listenPort

/-! ### The arrays -/

namespace Listeners

variable {l : Listeners} {port : UInt16}

/-- The sockets and the ports are in step. -/
structure InStep (l : Listeners) : Prop where
  count_le : l.count ≤ configMaxServers
  listening_eq : l.listening = l.ports

lemma inStep_zero (sockets boundPorts : FixedArray UInt16 configMaxServers) :
    InStep ⟨sockets, boundPorts, 0⟩ := ⟨Nat.zero_le _, rfl⟩

lemma InStep.length_ports (h : l.InStep) : l.ports.length = l.count := by
  rw [ports, List.length_take, l.boundPorts.length_eq]
  exact min_eq_left h.count_le

lemma alreadyBound_eq {n j : ℕ} (h : j + n ≤ configMaxServers) :
    l.alreadyBound port n j = some (decide (port ∈ (l.boundPorts.elems.drop j).take n)) := by
  induction n generalizing j with
  | zero => simp [alreadyBound]
  | succ n ih =>
    have hj : j < l.boundPorts.elems.length := by rw [l.boundPorts.length_eq]; omega
    rw [alreadyBound, FixedArray.get?, List.getElem?_eq_getElem hj, Option.bind_some,
      List.drop_eq_getElem_cons hj, List.take_succ_cons, ih (by omega)]
    by_cases hp : l.boundPorts.elems[j] = port
    · simp [hp]
    · rw [if_neg hp]
      simp [Ne.symm hp]

/-- **The inner loop** finds a port exactly if it is bound. -/
lemma InStep.alreadyBound_eq (h : l.InStep) (port : UInt16) :
    l.alreadyBound port l.count 0 = some (decide (port ∈ l.ports)) := by
  rw [Listeners.alreadyBound_eq (by simpa using h.count_le), List.drop_zero, ports]

lemma InStep.push (h : l.InStep) (port : UInt16) (hroom : l.count < configMaxServers) :
    ∃ l', l.push port = some l' ∧ l'.InStep ∧ l'.count = l.count + 1 ∧
      l'.ports = l.ports ++ [port] := by
  obtain ⟨sockets, hsockets, -⟩ := l.sockets.exists_store hroom port
  obtain ⟨bound, hbound, -⟩ := l.boundPorts.exists_store hroom port
  have hports : bound.elems.take (l.count + 1) = l.ports ++ [port] :=
    FixedArray.take_succ_of_store hbound
  refine ⟨⟨sockets, bound, l.count + 1⟩, ?_, ⟨hroom, ?_⟩, rfl, hports⟩
  · rw [Listeners.push, hsockets, Option.bind_some, hbound, Option.map_some]
  · calc sockets.elems.take (l.count + 1) = l.listening ++ [port] :=
          FixedArray.take_succ_of_store hsockets
      _ = l.ports ++ [port] := by rw [h.listening_eq]
      _ = bound.elems.take (l.count + 1) := hports.symm

end Listeners

/-! ### The loops, block by block -/

section Blocks

variable (s : ServerSettings) (ss : List ServerSettings) (binds : List Bool)

lemma bindPorts_cons (bound : List UInt16) : bindPorts (s :: ss) binds bound =
    if s.listenPort ∈ bound then bindPorts ss binds bound
    else if binds.head? = some true then bindPorts ss binds.tail (bound ++ [s.listenPort])
    else .error s.listenPort := by
  rcases binds with - | ⟨_ | _, binds⟩ <;> rfl

lemma rebindPorts_cons (bound : List UInt16) : rebindPorts (s :: ss) binds bound =
    if s.listenPort ∈ bound then rebindPorts ss binds bound
    else if binds.head? = some true then rebindPorts ss binds.tail (bound ++ [s.listenPort])
    else rebindPorts ss binds.tail bound := by
  rcases binds with - | ⟨_ | _, binds⟩ <;> rfl

variable {l : Listeners}

lemma mainListen_cons (h : l.InStep) : mainListen (s :: ss) binds l =
    if s.listenPort ∈ l.ports then mainListen ss binds l
    else if binds.head? = some true then
      (l.push s.listenPort).bind fun l => mainListen ss binds.tail l
    else some (.error s.listenPort) := by
  rcases binds with - | ⟨_ | _, binds⟩ <;>
    simp [mainListen, h.alreadyBound_eq]

lemma reloadListen_cons (h : l.InStep) : reloadListen (s :: ss) binds l =
    if s.listenPort ∈ l.ports then reloadListen ss binds l
    else if binds.head? = some true then
      (l.push s.listenPort).bind fun l => reloadListen ss binds.tail l
    else reloadListen ss binds.tail l := by
  rcases binds with - | ⟨_ | _, binds⟩ <;>
    simp [reloadListen, h.alreadyBound_eq]

end Blocks

/-- **The loop of `main`** stays inside its arrays, and computes what the loop over lists does. -/
lemma mainListen_eq (ss : List ServerSettings) (binds : List Bool) {l : Listeners} (h : l.InStep)
    (hroom : l.count + ss.length ≤ configMaxServers) :
    ∃ r, mainListen ss binds l = some r ∧ r.map Listeners.ports = bindPorts ss binds l.ports ∧
      ∀ l', r = .ok l' → l'.InStep := by
  induction ss generalizing binds l with
  | nil => exact ⟨.ok l, rfl, rfl, fun l' hl' => Except.ok.inj hl' ▸ h⟩
  | cons s ss ih =>
    rw [List.length_cons] at hroom
    rw [mainListen_cons s ss binds h, bindPorts_cons]
    split_ifs with hmem hbind
    · exact ih binds h (by omega)
    · obtain ⟨l', hpush, hl', hcount, hports⟩ := h.push s.listenPort (by omega)
      rw [hpush, ← hports]
      exact ih binds.tail hl' (by omega)
    · exact ⟨_, rfl, rfl, fun l' hl' => by cases hl'⟩

/-- **The loop of a reload** stays inside the arrays, and computes what the loop over lists
does. -/
lemma reloadListen_eq (ss : List ServerSettings) (binds : List Bool) {l : Listeners} (h : l.InStep)
    (hroom : l.count + ss.length ≤ configMaxServers) :
    ∃ r, reloadListen ss binds l = some r ∧ r.InStep ∧ r.ports = rebindPorts ss binds l.ports := by
  induction ss generalizing binds l with
  | nil => exact ⟨l, rfl, h, rfl⟩
  | cons s ss ih =>
    rw [List.length_cons] at hroom
    rw [reloadListen_cons s ss binds h, rebindPorts_cons]
    split_ifs with hmem hbind
    · exact ih binds h (by omega)
    · obtain ⟨l', hpush, hl', hcount, hports⟩ := h.push s.listenPort (by omega)
      rw [hpush, ← hports]
      exact ih binds.tail hl' (by omega)
    · exact ih binds.tail h (by omega)

/-! ### Where every port can be bound -/

/-- The next bind succeeds, and those after it. -/
lemma binds_tail {binds : List Bool} (hall : ∀ b ∈ binds, b = true) {n : ℕ}
    (hlen : n + 1 ≤ binds.length) :
    binds.head? = some true ∧ (∀ b ∈ binds.tail, b = true) ∧ n ≤ binds.tail.length := by
  cases binds with
  | nil => simp at hlen
  | cons b binds =>
    exact ⟨congrArg some (hall b (by simp)), fun b hb => hall b (List.mem_cons_of_mem _ hb),
      by simpa using hlen⟩

/-- The two loops differ only at a port that cannot be bound. -/
lemma bindPorts_eq_rebindPorts {ss : List ServerSettings} {binds : List Bool}
    (hall : ∀ b ∈ binds, b = true) (hlen : ss.length ≤ binds.length) (bound : List UInt16) :
    bindPorts ss binds bound = .ok (rebindPorts ss binds bound) := by
  induction ss generalizing binds bound with
  | nil => rfl
  | cons s ss ih =>
    obtain ⟨hhead, hall', hlen'⟩ := binds_tail hall hlen
    rw [bindPorts_cons, rebindPorts_cons, if_pos hhead, if_pos hhead]
    split_ifs with hmem
    · exact ih hall (Nat.le_of_succ_le hlen) bound
    · exact ih hall' hlen' _

/-- Each port is bound where it first occurs. -/
lemma firstOccurrences_rebindPorts {ss : List ServerSettings} {binds : List Bool}
    (hall : ∀ b ∈ binds, b = true) (hlen : ss.length ≤ binds.length) {seen bound : List UInt16}
    (h : FirstOccurrences seen bound) :
    FirstOccurrences (seen ++ ss.map ServerSettings.listenPort) (rebindPorts ss binds bound) := by
  induction ss generalizing binds seen bound with
  | nil => simpa [rebindPorts] using h
  | cons s ss ih =>
    obtain ⟨hhead, hall', hlen'⟩ := binds_tail hall hlen
    rw [rebindPorts_cons, if_pos hhead, List.map_cons, List.append_cons]
    split_ifs with hmem
    · exact ih hall (Nat.le_of_succ_le hlen) (h.concat_of_mem hmem)
    · exact ih hall' hlen' (h.concat_of_notMem hmem)

/-- **Start-up and reload bind the same ports**: where every port of at most sixteen server
blocks can be bound, both loops end, with the same ports, which are those of the blocks, each
once and in the order in which they first occur. The sockets are those of the ports. -/
theorem listen_agree (ss : List ServerSettings) (hservers : ss.length ≤ configMaxServers)
    (binds : List Bool) (hall : ∀ b ∈ binds, b = true) (hlen : ss.length ≤ binds.length)
    (sockets₁ bound₁ sockets₂ bound₂ : FixedArray UInt16 configMaxServers) :
    ∃ l₁ l₂, mainListen ss binds ⟨sockets₁, bound₁, 0⟩ = some (.ok l₁) ∧
      reloadListen ss binds ⟨sockets₂, bound₂, 0⟩ = some l₂ ∧ l₁.ports = l₂.ports ∧
      l₁.listening = l₁.ports ∧ l₂.listening = l₂.ports ∧
      FirstOccurrences (ss.map ServerSettings.listenPort) l₁.ports ∧ l₁.ports.length ≤ 16 := by
  have hroom : 0 + ss.length ≤ configMaxServers := by rwa [Nat.zero_add]
  obtain ⟨r, hmain, hports, hstep⟩ :=
    mainListen_eq ss binds (Listeners.inStep_zero sockets₁ bound₁) hroom
  obtain ⟨l₂, hreload, hstep₂, hports₂⟩ :=
    reloadListen_eq ss binds (Listeners.inStep_zero sockets₂ bound₂) hroom
  rw [bindPorts_eq_rebindPorts hall hlen] at hports
  cases r with
  | error p => cases hports
  | ok l₁ =>
    have hstep₁ := hstep l₁ rfl
    have hports₁ : l₁.ports = rebindPorts ss binds [] := Except.ok.inj hports
    refine ⟨l₁, l₂, hmain, hreload, hports₁.trans hports₂.symm, hstep₁.listening_eq,
      hstep₂.listening_eq, ?_, ?_⟩
    · rw [hports₁]
      exact firstOccurrences_rebindPorts hall hlen .nil
    · rw [hstep₁.length_ports]
      exact hstep₁.count_le

/-- Three blocks on two ports. -/
def sharedPort : List ServerSettings :=
  [8080, 8081, 8080].map fun port => { ServerSettings.later with listenPort := port }

/-- A start and a reload bind the same two ports for three blocks, whatever the arrays held before.
-/
theorem listen_agree_sharedPort :
    ∃ l₁ l₂, mainListen sharedPort [true, true, true] ⟨.replicate _ 0, .replicate _ 8081, 0⟩
        = some (.ok l₁) ∧
      reloadListen sharedPort [true, true, true] ⟨.replicate _ 9, .replicate _ 8080, 0⟩
        = some l₂ ∧ l₁.ports = l₂.ports ∧
      l₁.listening = l₁.ports ∧ l₂.listening = l₂.ports ∧
      FirstOccurrences (sharedPort.map ServerSettings.listenPort) l₁.ports ∧
      l₁.ports.length ≤ 16 :=
  listen_agree sharedPort (by decide) [true, true, true] (by decide) (by decide) _ _ _ _

end Nproxy
