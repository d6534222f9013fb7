import Nproxy.Core.Settings

/-!
`module/module.c`: the registry of the loaded modules.

The registry is one array of sixteen entries for the whole process. The loader of the
configuration takes sixteen modules for each server block, and there may be sixteen of
them.

* `moduleLoadAll` loads the modules of all blocks one after the other. A store behind the
  array gives `none`.
* `Registry.Serves r l`: the handlers of `l` are called in order until one handles the
  request, and in the end all of `l` are taken down in order.
* `registry_inside_iff`: where all modules load, the registry stays inside its array and
  serves them exactly if the configuration names at most sixteen in all.
-/

namespace Nproxy

open FixedArray

/-! ### Modules -/

/-- `nproxy_module_t`, the functions in it; each of them may be missing. -/
structure NproxyModule where
  init : Option (Settings → ℤ)
  requestHandler : Option Module
  destroy : Bool

/-- `loaded_module_t`. -/
structure LoadedModule where
  handle : ℕ
  module : NproxyModule

/-- The dynamic linker: the handle for a path, and the symbol `nproxy_module` behind it. -/
structure Linker where
  dlopen : List UInt8 → Option ℕ
  dlsym : ℕ → Option NproxyModule

/-- A module is loaded: `none` is a failure of `dlopen`, of `dlsym` or of its own `init`. -/
def Linker.load (os : Linker) (s : Settings) (path : List UInt8) : Option LoadedModule :=
  (os.dlopen path).bind fun handle =>
    (os.dlsym handle).bind fun mod =>
      if mod.init.any (fun init => decide (init s ≠ 0)) then none else some ⟨handle, mod⟩

/-- What `module_load_all` returns. -/
inductive LoadStatus where
  | ok | moduleError
  deriving DecidableEq, Repr

/-- `g_modules` and `g_modules_count`. -/
structure Registry where
  modules : FixedArray (Option LoadedModule) configMaxModules
  count : ℕ

namespace Registry

/-- The inner loop: the modules of a server block. -/
def loadPaths (os : Linker) (s : Settings) :
    List (List UInt8) → Registry → Option (LoadStatus × Registry)
  | [], r => some (.ok, r)
  | path :: paths, r =>
    match os.load s path with
    | none => some (.moduleError, r)
    | some m =>
      (r.modules.store r.count (some m)).bind fun ms => loadPaths os s paths ⟨ms, r.count + 1⟩

/-- The outer loop, over the server blocks. -/
def loadServers (os : Linker) (s : Settings) :
    List ServerSettings → Registry → Option (LoadStatus × Registry)
  | [], r => some (.ok, r)
  | srv :: srvs, r =>
    match loadPaths os s srv.modules r with
    | some (.ok, r) => loadServers os s srvs r
    | other => other

/-- The loop of `module_run_request_handlers` over `n` entries from `i` on: the modules that are
called, and the response of the one that handles the request. -/
def runFrom (r : Registry) (req : HttpRequest) :
    ℕ → ℕ → Option (List LoadedModule × Option SimpleResponse)
  | 0, _ => some ([], none)
  | n + 1, i =>
    (r.modules.get? i).join.bind fun m =>
      match m.module.requestHandler.bind (· req) with
      | some resp => some ([m], some resp)
      | none => (runFrom r req n (i + 1)).map fun rest => (m :: rest.1, rest.2)

/-- `module_run_request_handlers`. -/
def runRequestHandlers (r : Registry) (req : HttpRequest) :
    Option (List LoadedModule × Option SimpleResponse) :=
  runFrom r req r.count 0

end Registry

/-- A call of `module_unload_all`. -/
inductive UnloadCall where
  | destroy (handle : ℕ)
  | dlclose (handle : ℕ)
  deriving DecidableEq, Repr

/-- A module is taken down. -/
def LoadedModule.unload (m : LoadedModule) : List UnloadCall :=
  if m.module.destroy then [.destroy m.handle, .dlclose m.handle] else [.dlclose m.handle]

/-- The loop of `module_unload_all` over `n` entries from `i` on. -/
def Registry.unloadFrom (r : Registry) : ℕ → ℕ → Option (List UnloadCall)
  | 0, _ => some []
  | n + 1, i =>
    (r.modules.get? i).join.bind fun m =>
      (unloadFrom r n (i + 1)).map fun rest => m.unload ++ rest

/-- `module_load_all`. -/
def moduleLoadAll (os : Linker) (s : Settings) (r : Registry) : Option (LoadStatus × Registry) :=
  Registry.loadServers os s s.servers { r with count := 0 }

/-- `module_unload_all`. -/
def moduleUnloadAll (r : Registry) : Option (List UnloadCall × Registry) :=
  (r.unloadFrom r.count 0).map fun calls => (calls, { r with count := 0 })

/-! ### What is in the registry -/

/-- Does a module handle a request? -/
def LoadedModule.handles (req : HttpRequest) (m : LoadedModule) : Bool :=
  (m.module.requestHandler.bind (· req)).isSome

/-- The modules that get to see a request: those up to the first one that handles it. -/
def seenBy (req : HttpRequest) (l : List LoadedModule) : List LoadedModule :=
  l.take (l.findIdx (LoadedModule.handles req) + 1)

lemma seenBy_cons (req : HttpRequest) (m : LoadedModule) (l : List LoadedModule) :
    seenBy req (m :: l) = if m.handles req then [m] else m :: seenBy req l := by
  rw [seenBy, List.findIdx_cons]
  cases m.handles req <;> rfl

lemma handlers_cons (req : HttpRequest) (m : LoadedModule) (l : List LoadedModule) :
    moduleRunRequestHandlers ((m :: l).filterMap (·.module.requestHandler)) req =
      (m.module.requestHandler.bind (· req)).or
        (moduleRunRequestHandlers (l.filterMap (·.module.requestHandler)) req) := by
  rw [moduleRunRequestHandlers, moduleRunRequestHandlers, List.filterMap_cons]
  cases m.module.requestHandler with
  | none => rfl
  | some handler =>
    rw [List.findSome?_cons, Option.bind_some]
    cases handler req <;> rfl

namespace Registry

/-- The registry holds these modules, in this order. -/
structure Holds (r : Registry) (l : List LoadedModule) : Prop where
  count_eq : r.count = l.length
  take_eq : r.modules.elems.take l.length = l.map some

/-- The registry serves these modules: requests go to them in order, until one handles the
request, and all of them are taken down in order. -/
structure Serves (r : Registry) (l : List LoadedModule) : Prop where
  handlers : ∀ req, r.runRequestHandlers req =
    some (seenBy req l, moduleRunRequestHandlers (l.filterMap (·.module.requestHandler)) req)
  unload : moduleUnloadAll r = some (l.flatMap LoadedModule.unload, { r with count := 0 })

variable {r : Registry} {l : List LoadedModule}

lemma Holds.get? (h : r.Holds l) {i : ℕ} {m : LoadedModule} {rest : List LoadedModule}
    (hrest : l.drop i = m :: rest) :
    (r.modules.get? i).join = some m ∧ l.drop (i + 1) = rest := by
  have hi : i < l.length := by
    by_contra hge
    rw [List.drop_eq_nil_of_le (not_lt.mp hge)] at hrest
    exact absurd hrest (List.cons_ne_nil _ _).symm
  rw [List.drop_eq_getElem_cons hi] at hrest
  obtain ⟨hm, hdrop⟩ := List.cons.inj hrest
  refine ⟨?_, hdrop⟩
  have hget : (r.modules.elems.take l.length)[i]? = some (some m) := by
    rw [h.take_eq, List.getElem?_map, List.getElem?_eq_getElem hi, hm]
    rfl
  rw [List.getElem?_take_of_lt hi] at hget
  rw [FixedArray.get?, hget]
  rfl

/-- The handlers are called in order. -/
lemma Holds.runFrom_eq (h : r.Holds l) (req : HttpRequest) (rest : List LoadedModule) (i : ℕ)
    (hrest : l.drop i = rest) :
    r.runFrom req rest.length i = some (seenBy req rest,
      moduleRunRequestHandlers (rest.filterMap (·.module.requestHandler)) req) := by
  induction rest generalizing i with
  | nil => rfl
  | cons m rest ih =>
    obtain ⟨hget, hnext⟩ := h.get? hrest
    rw [List.length_cons, runFrom, hget, Option.bind_some, seenBy_cons, handlers_cons,
      LoadedModule.handles]
    cases m.module.requestHandler.bind (· req) with
    | none =>
      rw [ih _ hnext]
      rfl
    | some resp => rfl

lemma Holds.unloadFrom_eq (h : r.Holds l) (rest : List LoadedModule) (i : ℕ)
    (hrest : l.drop i = rest) :
    r.unloadFrom rest.length i = some (rest.flatMap LoadedModule.unload) := by
  induction rest generalizing i with
  | nil => rfl
  | cons m rest ih =>
    obtain ⟨hget, hnext⟩ := h.get? hrest
    rw [List.length_cons, unloadFrom, hget, Option.bind_some, ih _ hnext, List.flatMap_cons]
    rfl

/-- What the registry holds is what it serves. -/
lemma Holds.serves (h : r.Holds l) : r.Serves l where
  handlers req := by
    rw [runRequestHandlers, h.count_eq]
    exact h.runFrom_eq req l 0 rfl
  unload := by
    rw [moduleUnloadAll, h.count_eq, h.unloadFrom_eq l 0 rfl]
    rfl

/-! ### Loading -/

variable {os : Linker} {s : Settings}

lemma Holds.store (h : r.Holds l) (m : LoadedModule) (hroom : l.length < configMaxModules) :
    ∃ ms, r.modules.store r.count (some m) = some ms ∧ Holds ⟨ms, r.count + 1⟩ (l ++ [m]) := by
  rw [h.count_eq]
  obtain ⟨ms, hms, -⟩ := r.modules.exists_store hroom (some m)
  refine ⟨ms, hms, ⟨by simp, ?_⟩⟩
  rw [List.length_append, List.length_singleton, take_succ_of_store hms, h.take_eq, List.map_append]
  rfl

/-- **The modules of a block**: they are stored behind the others if there is room, and otherwise
a store goes outside. -/
lemma Holds.loadPaths (h : r.Holds l) {paths : List (List UInt8)}
    (hall : ∀ p ∈ paths, (os.load s p).isSome) (hl : l.length ≤ configMaxModules) :
    (l.length + paths.length ≤ configMaxModules →
      ∃ r', Registry.loadPaths os s paths r = some (.ok, r') ∧
        r'.Holds (l ++ paths.filterMap (os.load s))) ∧
      (configMaxModules < l.length + paths.length → Registry.loadPaths os s paths r = none) := by
  induction paths generalizing r l with
  | nil =>
    refine ⟨fun _ => ⟨r, rfl, by simpa using h⟩, fun hfull => ?_⟩
    rw [List.length_nil] at hfull
    omega
  | cons p paths ih =>
    obtain ⟨m, hm⟩ := Option.isSome_iff_exists.mp (hall p List.mem_cons_self)
    rw [Registry.loadPaths, hm]
    simp only
    by_cases hroom : l.length < configMaxModules
    · obtain ⟨ms, hms, hholds⟩ := h.store m hroom
      have hlen : (l ++ [m]).length = l.length + 1 := by simp
      obtain ⟨hok, hout⟩ := ih hholds (fun q hq => hall q (List.mem_cons_of_mem _ hq)) (by omega)
      rw [hms, Option.bind_some, List.filterMap_cons, hm, List.length_cons]
      rw [List.append_assoc] at hok
      exact ⟨fun hle => hok (by omega), fun hlt => hout (by omega)⟩
    · have hnone : r.modules.store r.count (some m) = none := by
        rw [FixedArray.store, if_neg (by rw [h.count_eq]; exact hroom)]
      rw [hnone, List.length_cons]
      exact ⟨fun hle => by omega, fun _ => rfl⟩

/-- **The modules of all blocks**, likewise. -/
lemma Holds.loadServers (h : r.Holds l) {srvs : List ServerSettings}
    (hall : ∀ srv ∈ srvs, ∀ p ∈ srv.modules, (os.load s p).isSome)
    (hl : l.length ≤ configMaxModules) :
    (l.length + (srvs.map (·.modules.length)).sum ≤ configMaxModules →
      ∃ r', Registry.loadServers os s srvs r = some (.ok, r') ∧
        r'.Holds (l ++ (srvs.flatMap (·.modules)).filterMap (os.load s))) ∧
      (configMaxModules < l.length + (srvs.map (·.modules.length)).sum →
        Registry.loadServers os s srvs r = none) := by
  induction srvs generalizing r l with
  | nil =>
    refine ⟨fun _ => ⟨r, rfl, by simpa using h⟩, fun hfull => ?_⟩
    rw [List.map_nil, List.sum_nil] at hfull
    omega
  | cons srv srvs ih =>
    have hhead := hall srv List.mem_cons_self
    have htail : ∀ srv ∈ srvs, ∀ p ∈ srv.modules, (os.load s p).isSome :=
      fun srv hsrv => hall srv (List.mem_cons_of_mem _ hsrv)
    obtain ⟨hok, hout⟩ := h.loadPaths hhead hl
    rw [List.map_cons, List.sum_cons, Registry.loadServers]
    by_cases hroom : l.length + srv.modules.length ≤ configMaxModules
    · obtain ⟨r', hr', hholds⟩ := hok hroom
      have hlen : (l ++ srv.modules.filterMap (os.load s)).length
          = l.length + srv.modules.length := by
        rw [List.length_append, List.filterMap_length_eq_length.mpr hhead]
      obtain ⟨hok', hout'⟩ := ih hholds htail (by omega)
      rw [hr', List.flatMap_cons, List.filterMap_append, ← List.append_assoc]
      exact ⟨fun hle => hok' (by omega), fun hlt => hout' (by omega)⟩
    · rw [hout (by omega)]
      exact ⟨fun hle => by omega, fun _ => rfl⟩

lemma holds_nil (r : Registry) : Holds { r with count := 0 } [] := ⟨rfl, rfl⟩

end Registry

/-- **The registry of the modules.** Where every module loads, they are stored inside the array
and served in the order of the configuration, exactly if it names at most sixteen in all its
server blocks. -/
theorem registry_inside_iff (re : List UInt8 → Bool) (file : List UInt8) (os : Linker)
    (r : Registry)
    (hall : ∀ srv ∈ (Settings.load re file).servers, ∀ p ∈ srv.modules,
      (os.load (Settings.load re file) p).isSome) :
    (∃ r', moduleLoadAll os (Settings.load re file) r = some (.ok, r') ∧
        r'.Serves (((Settings.load re file).servers.flatMap (·.modules)).filterMap
          (os.load (Settings.load re file)))) ↔
      ((Settings.load re file).servers.map (·.modules.length)).sum ≤ configMaxModules := by
  obtain ⟨hok, hout⟩ := r.holds_nil.loadServers hall (Nat.zero_le _)
  rw [List.length_nil, Nat.zero_add, List.nil_append] at hok
  rw [List.length_nil, Nat.zero_add] at hout
  constructor
  · rintro ⟨r', hr', -⟩
    by_contra hmany
    rw [moduleLoadAll, hout (not_le.mp hmany)] at hr'
    exact absurd hr' (Option.some_ne_none _).symm
  · intro hfew
    obtain ⟨r', hr', hholds⟩ := hok hfew
    exact ⟨r', hr', hholds.serves⟩

/-! ### Two blocks -/

/-- So many lines that load a module. -/
def moduleLines (n : ℕ) : List UInt8 :=
  (List.replicate n (bytes "load_module = hello.so\n")).flatten

/-- A file with two blocks, each with so many modules. -/
def twoBlocks (n : ℕ) : List UInt8 :=
  List.flatten [bytes "[server]\n", moduleLines n, bytes "[server]\n", moduleLines n]

/-- A linker that finds a module that does nothing. -/
def idleLinker : Linker := ⟨fun _ => some 1, fun _ => some ⟨none, none, false⟩⟩

lemma idleLinker_load (s : Settings) (path : List UInt8) : (idleLinker.load s path).isSome := rfl

/-- An empty registry. -/
def emptyRegistry : Registry := ⟨.replicate configMaxModules none, 0⟩

/-- Two blocks with eight modules each are loaded. -/
theorem registry_inside_sixteen :
    ∃ r, moduleLoadAll idleLinker (Settings.load (fun _ => true) (twoBlocks 8)) emptyRegistry
      = some (.ok, r) := by
  have hfew : ((Settings.load (fun _ => true) (twoBlocks 8)).servers.map (·.modules.length)).sum
      ≤ configMaxModules := by decide +kernel
  obtain ⟨r, hr, -⟩ := (registry_inside_iff (fun _ => true) (twoBlocks 8) idleLinker emptyRegistry
    fun _ _ _ _ => idleLinker_load _ _).mpr hfew
  exact ⟨r, hr⟩

/-- **A registry that overflows**: two blocks with nine modules each. -/
theorem exists_registry_overflow :
    ¬∀ (re : List UInt8 → Bool) (file : List UInt8) (os : Linker) (r : Registry),
      (∀ srv ∈ (Settings.load re file).servers, ∀ p ∈ srv.modules,
        (os.load (Settings.load re file) p).isSome) →
      ∃ r', moduleLoadAll os (Settings.load re file) r = some (.ok, r') ∧
        r'.Serves (((Settings.load re file).servers.flatMap (·.modules)).filterMap
          (os.load (Settings.load re file))) := by
  intro h
  have hmany : configMaxModules <
      ((Settings.load (fun _ => true) (twoBlocks 9)).servers.map (·.modules.length)).sum := by
    decide +kernel
  have hall : ∀ srv ∈ (Settings.load (fun _ => true) (twoBlocks 9)).servers, ∀ p ∈ srv.modules,
      (idleLinker.load (Settings.load (fun _ => true) (twoBlocks 9)) p).isSome :=
    fun _ _ _ _ => idleLinker_load _ _
  obtain ⟨r, hr, -⟩ := h _ _ idleLinker emptyRegistry hall
  obtain ⟨-, hout⟩ := emptyRegistry.holds_nil.loadServers hall (Nat.zero_le _)
  rw [List.length_nil, Nat.zero_add] at hout
  rw [moduleLoadAll, hout hmany] at hr
  exact absurd hr (Option.some_ne_none _).symm

end Nproxy
