import Nproxy.Cache.Store
import Nproxy.Lib.Simulation

/-!
The file store as a map.

What `cache_insert`, `cache_lookup` and `cache_remove` do together, over any sequence of calls of
which any system call may fail: the directory stands for a map from hashes to entries that expire
(`Shelf`), and every answer is one that the map allows. A call that fails has changed nothing, and
none fails unless the system does; a transfer that stops short of what it was asked for counts as
such a failure.

* `Shelf.Spec`: what the map allows.
* `Represents`: the files of a directory are the entries of a map.
* `Represents.call`: one call keeps that, and its answer is allowed.
* `store_refines_shelf`: so do all.
-/

namespace Nproxy

/-- `cache_remove`; there is nothing to remove if there is no file. -/
def cacheRemove (dir : Dir) (store : CacheStore) (key : List UInt8) (unlinkOk : Bool) :
    CacheStatus × Dir :=
  match dir (cachePath store key) with
  | some _ => if unlinkOk then (.ok, dir.unlink (cachePath store key) true) else (.err, dir)
  | none => (.err, dir)

/-- A call of one of the functions of the store. -/
inductive CacheOp
  | insert (key : List UInt8) (status : ℤ) (headers body : List UInt8) (ttl : ℤ) (env : InsertEnv)
  | lookup (key : List UInt8) (env : LookupEnv)
  | remove (key : List UInt8) (unlinkOk : Bool)

/-- What a call returns, with the entry that a lookup fills in. -/
abbrev CacheAnswer := CacheStatus × Option CacheStore.Entry

/-- A call to the store as its functions are modelled, with its answer and the directory it leaves.
-/
def CacheStore.call (store : CacheStore) (dir : Dir) : CacheOp → CacheAnswer × Dir
  | .insert key status headers body ttl env =>
    let r := cacheInsert dir store key status headers body ttl env
    ((r.1, none), r.2)
  | .lookup key env => cacheLookup dir store key env
  | .remove key unlinkOk =>
    let r := cacheRemove dir store key unlinkOk
    ((r.1, none), r.2)

/-- What is inserted can be counted with an `isize`, and its time can be told. -/
def CacheOp.Fits : CacheOp → Prop
  | .insert _ status headers body ttl env =>
    (-2 ^ 31 ≤ status ∧ status < 2 ^ 31) ∧ headers.length + body.length < 2 ^ 63 ∧
      0 ≤ env.now ∧ env.now + ttl < 2 ^ 63
  | _ => True

/-! ### The map -/

/-- The entries, by the hashes of their keys. -/
abbrev Shelf := UInt64 → Option CacheStore.Entry

/-- **What the store is for.** -/
inductive Shelf.Spec (s : Shelf) : CacheOp → CacheAnswer → Shelf → Prop
  | inserted (key : List UInt8) (status : ℤ) (headers body : List UInt8) (ttl : ℤ)
      (env : InsertEnv) : Spec s (.insert key status headers body ttl env) (.ok, none)
        (Function.update s (cacheHash key)
          (some (insertEntry status headers body ttl env.now)))
  | insertFails {key : List UInt8} {status : ℤ} {headers body : List UInt8} {ttl : ℤ}
      {env : InsertEnv} (henv : ¬env.Serves headers.length body.length) :
      Spec s (.insert key status headers body ttl env) (.err, none) s
  | hit {key : List UInt8} {env : LookupEnv} {e : CacheStore.Entry}
      (he : s (cacheHash key) = some e) (hlive : ¬e.Expired env.now) :
      Spec s (.lookup key env) (.ok, some e) s
  | missing {key : List UInt8} {env : LookupEnv} (hnone : s (cacheHash key) = none) :
      Spec s (.lookup key env) (.err, none) s
  | expired {key : List UInt8} {env : LookupEnv} {e : CacheStore.Entry}
      (he : s (cacheHash key) = some e) (hover : e.Expired env.now) :
      Spec s (.lookup key env) (.err, none)
        (if env.unlinkOk then Function.update s (cacheHash key) none else s)
  | lookupFails {key : List UInt8} {env : LookupEnv} {e : CacheStore.Entry} {status : CacheStatus}
      (he : s (cacheHash key) = some e) (hstatus : status ≠ .ok)
      (henv : ¬env.Serves e.data.length) : Spec s (.lookup key env) (status, none) s
  | removed {key : List UInt8} (hsome : s (cacheHash key) ≠ none) :
      Spec s (.remove key true) (.ok, none) (Function.update s (cacheHash key) none)
  | removeFails {key : List UInt8} {unlinkOk : Bool}
      (h : unlinkOk = false ∨ s (cacheHash key) = none) :
      Spec s (.remove key unlinkOk) (.err, none) s

/-! ### The files of a map -/

/-- The files of the directory are the entries of the map. -/
def Represents (store : CacheStore) (dir : Dir) (s : Shelf) : Prop :=
  ∀ key, Option.Rel CacheStore.Entry.Filed (dir (cachePath store key)) (s (cacheHash key))

variable {store : CacheStore} {dir dir' : Dir} {s : Shelf} {key : List UInt8}

lemma represents_empty (store : CacheStore) : Represents store (fun _ => none) (fun _ => none) :=
  fun _ => .none

lemma Represents.congr (h : Represents store dir s)
    (hdir : ∀ key, dir' (cachePath store key) = dir (cachePath store key)) :
    Represents store dir' s := fun key => (hdir key).symm ▸ h key

/-- There is a file where there is an entry, and it holds the entry. -/
lemma Represents.cases (h : Represents store dir s) (key : List UInt8) :
    (dir (cachePath store key) = none ∧ s (cacheHash key) = none) ∨
      ∃ file e, dir (cachePath store key) = some file ∧ s (cacheHash key) = some e ∧
        e.Filed file := by
  have hrel := h key
  generalize dir (cachePath store key) = file at hrel ⊢
  generalize s (cacheHash key) = e at hrel ⊢
  cases hrel with
  | none => exact Or.inl ⟨rfl, rfl⟩
  | some he => exact Or.inr ⟨_, _, rfl, rfl, he⟩

/-- One file changes, and the entry of its hash. -/
lemma Represents.put {file : Option (List UInt8)} {e : Option CacheStore.Entry}
    (h : Represents store dir s) (hdir : ∀ key', dir' (cachePath store key') =
      if cachePath store key' = cachePath store key then file else dir (cachePath store key'))
    (he : Option.Rel CacheStore.Entry.Filed file e) :
    Represents store dir' (Function.update s (cacheHash key) e) := by
  intro key'
  rw [hdir key']
  by_cases hhash : cacheHash key' = cacheHash key
  · have hpath : cachePath store key' = cachePath store key := by
      rw [cachePath, cachePath, hhash]
    rw [if_pos hpath, hhash, Function.update_self]
    exact he
  · rw [if_neg fun hpath => hhash (cachePath_inj hpath), Function.update_of_ne hhash]
    exact h key'

lemma Represents.unlink (h : Represents store dir s) (ok : Bool) :
    Represents store (dir.unlink (cachePath store key) ok)
      (if ok then Function.update s (cacheHash key) none else s) := by
  cases ok with
  | false => exact h
  | true =>
    refine h.put (fun key' => ?_) .none
    by_cases hpath : cachePath store key' = cachePath store key
    · rw [if_pos hpath, hpath]
      exact put_self dir _ none
    · rw [if_neg hpath]
      exact unlink_of_ne dir true hpath

/-! ### One call -/

lemma Represents.insert {status ttl : ℤ} {headers body : List UInt8} {env : InsertEnv}
    (h : Represents store dir s) (hop : CacheOp.Fits (.insert key status headers body ttl env)) :
    ∃ s', s.Spec (.insert key status headers body ttl env)
        ((cacheInsert dir store key status headers body ttl env).1, none) s' ∧
      Represents store (cacheInsert dir store key status headers body ttl env).2 s' := by
  obtain ⟨hstatus, hlen, hnow, htime⟩ := hop
  have hheaders : headers.length < 2 ^ 63 := by omega
  have hbody : body.length < 2 ^ 63 := by omega
  have htmp key' := (tmpPath_ne_cachePath store key key').symm
  rcases cacheInsert_cases dir store key status ttl env hheaders hbody with
    ⟨hok, hdir⟩ | ⟨herr, hdir⟩
  · rw [hok]
    refine ⟨_, .inserted key status headers body ttl env,
      h.put (fun key' => hdir _ (htmp key')) (.some ?_)⟩
    exact insertEntry_filed hstatus hheaders hbody hnow htime env.pad
  · rw [herr]
    refine ⟨s, .insertFails fun henv => ?_, h.congr fun key' => hdir _ (htmp key')⟩
    have hok := cacheInsert_ok dir store key status ttl henv hheaders hbody
    exact absurd (hok.symm.trans herr) (by decide)

lemma Represents.lookup (h : Represents store dir s) (env : LookupEnv) :
    ∃ s', s.Spec (.lookup key env) (cacheLookup dir store key env).1 s' ∧
      Represents store (cacheLookup dir store key env).2 s' := by
  rcases h.cases key with ⟨hfile, hs⟩ | ⟨file, e, hfile, hs, he⟩
  · have hmiss : cacheLookup dir store key env = ((.err, none), dir) := by
      simp only [cacheLookup, hfile, ite_self]
    rw [hmiss]
    exact ⟨s, .missing hs, h⟩
  · rcases cacheLookup_of_filed hfile he env with ⟨hlive, -, heq⟩ | ⟨hover, heq⟩ |
      ⟨henv, status, hstatus, -, heq⟩ <;> rw [heq]
    · exact ⟨s, .hit hs hlive, h⟩
    · exact ⟨_, .expired hs hover, h.unlink env.unlinkOk⟩
    · exact ⟨s, .lookupFails hs hstatus henv, h⟩

lemma Represents.remove (h : Represents store dir s) (unlinkOk : Bool) :
    ∃ s', s.Spec (.remove key unlinkOk) ((cacheRemove dir store key unlinkOk).1, none) s' ∧
      Represents store (cacheRemove dir store key unlinkOk).2 s' := by
  rcases h.cases key with ⟨hfile, hs⟩ | ⟨file, e, hfile, hs, -⟩
  · simp only [cacheRemove, hfile]
    exact ⟨s, .removeFails (Or.inr hs), h⟩
  · simp only [cacheRemove, hfile]
    cases unlinkOk with
    | false => exact ⟨s, .removeFails (Or.inl rfl), h⟩
    | true => exact ⟨_, .removed (hs ▸ Option.some_ne_none e), h.unlink true⟩

/-- **One call**: its answer is allowed, and the directory goes on to represent the map. -/
lemma Represents.call (h : Represents store dir s) (op : CacheOp) (hop : op.Fits) :
    ∃ s', s.Spec op (store.call dir op).1 s' ∧ Represents store (store.call dir op).2 s' := by
  cases op with
  | insert key status headers body ttl env => exact h.insert hop
  | lookup key env => exact h.lookup env
  | remove key unlinkOk => exact h.remove unlinkOk

/-! ### Runs -/

/-- **The store refines the map**: from an empty directory, whatever is called in whichever order
and whichever system calls fail, the answers are those of a map whose entries expire. -/
theorem store_refines_shelf (store : CacheStore) (ops : List CacheOp) (hops : ∀ op ∈ ops, op.Fits) :
    ∃ s, Simulation.Allows Shelf.Spec (fun _ => none) ops
        (Simulation.serve store.call (fun _ => none) ops).1 s ∧
      Represents store (Simulation.serve store.call (fun _ => none) ops).2 s :=
  Simulation.allows_serve (fun _ _ op h hop => h.call op hop) ops hops (represents_empty store)

/-- An entry is stored for a minute, found, not removed as `unlink` fails, and over. -/
def pageOps : List CacheOp :=
  [.insert (bytes "GET:h:/") 200 [1, 2, 3] [4, 5] 60
      ⟨1000, true, .full, .full, .full, true, true, 0⟩,
    .lookup (bytes "GET:h:/") ⟨1060, true, .full, true, true, .full⟩,
    .remove (bytes "GET:h:/") false,
    .lookup (bytes "GET:h:/") ⟨1061, true, .full, true, true, .full⟩,
    .remove (bytes "GET:h:/") true]

/-- The answers of the store to these calls are those that the shelf allows: the entry is found in
its last second and is gone in the next one, and no `remove` succeeds. -/
theorem store_refines_shelf_pageOps :
    (∀ op ∈ pageOps, op.Fits) ∧
    (Simulation.serve (cacheStoreCreate (bytes "/c")).call (fun _ => none) pageOps).1 =
      [(.ok, none), (.ok, some ⟨⟨200, 3, 2, 1060⟩, [1, 2, 3, 4, 5]⟩), (.err, none), (.err, none),
        (.err, none)] ∧
    ∃ s, Simulation.Allows Shelf.Spec (fun _ => none) pageOps
        [(.ok, none), (.ok, some ⟨⟨200, 3, 2, 1060⟩, [1, 2, 3, 4, 5]⟩), (.err, none), (.err, none),
          (.err, none)] s := by
  have hfits : ∀ op ∈ pageOps, op.Fits := by
    simp [pageOps, CacheOp.Fits]
  have hanswers : (Simulation.serve (cacheStoreCreate (bytes "/c")).call (fun _ => none)
      pageOps).1 = [(.ok, none), (.ok, some ⟨⟨200, 3, 2, 1060⟩, [1, 2, 3, 4, 5]⟩), (.err, none),
        (.err, none), (.err, none)] := by decide +kernel
  obtain ⟨s, hallows, -⟩ := store_refines_shelf (cacheStoreCreate (bytes "/c")) pageOps hfits
  rw [hanswers] at hallows
  exact ⟨hfits, hanswers, s, hallows⟩

end Nproxy
