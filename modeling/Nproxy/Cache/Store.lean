import Nproxy.Core.StringUtil
import Nproxy.Lib.Words

/-!
The file store of `cache/cache.c`: `cache_insert` and `cache_lookup`.

A directory is a map from names to contents. Every system call may fail and every transfer may
be short, as the outcomes of a call say. An entry is a header of 32 bytes and the data; it is
written to a temporary file, which is then renamed.

* `CacheHeader.ofBytes_bytes`: the header is read back as it was written.
* `cachePath_inj`, `tmpPath_ne_cachePath`: keys of different hashes have different files, and
  no key has the temporary file.
* `cacheInsert_cases`: a call of `cache_insert` that succeeds puts the whole entry in the place
  of the file, and one that fails leaves all files of keys as they were.
* `cacheLookup_of_filed`: what `cache_lookup` makes of the file of an entry.
* `cacheInsert_roundTrip`: what was inserted is found by the lookups whose one `read` has room for
  all of it, and by no others; `longEntry_lost` is an entry for which no `read` has.
-/

namespace Nproxy

open Words

/-! ### Names -/

/-- `fnv1a`. -/
def fnv1a (data : List UInt8) : UInt64 :=
  data.foldl (fun hash c => (hash ^^^ c.toUInt64) * 1099511628211) 14695981039346656037

/-- `cache_store_t`; `root` is a string in an array of 512. -/
structure CacheStore where
  root : List UInt8
  length_root_le : root.length ≤ 511

/-- `cache_store_create`. -/
def cacheStoreCreate (root : List UInt8) : CacheStore :=
  ⟨(cstr root).take 511, List.length_take_le _ _⟩

/-- The hash of a key. -/
def cacheHash (key : List UInt8) : UInt64 := fnv1a (cstr key)

/-- `cache_path`, with room for 1024 bytes. -/
def cachePath (store : CacheStore) (key : List UInt8) : List UInt8 :=
  (store.root ++ bytes "/" ++ hexBytes 16 (cacheHash key).toNat ++ bytes ".cache").take 1023

/-- `tmp_path` of `cache_insert`, with room for 1040 bytes. -/
def tmpPath (store : CacheStore) (key : List UInt8) : List UInt8 :=
  (cachePath store key ++ bytes ".tmp").take 1039

/-! ### Entries -/

/-- `cache_entry_header_t`. -/
structure CacheHeader where
  status : ℤ
  headersLen : ℕ
  bodyLen : ℕ
  expireTime : ℤ
  deriving DecidableEq

/-- The header in memory: an `int`, four bytes that are not used, two `usize` and a `time_t`. -/
def CacheHeader.bytes (hdr : CacheHeader) (pad : UInt32) : List UInt8 :=
  wordBytes 4 (twos 32 hdr.status) ++ wordBytes 4 pad.toNat ++
    wordBytes 8 (hdr.headersLen % 2 ^ 64) ++ wordBytes 8 (hdr.bodyLen % 2 ^ 64) ++
    wordBytes 8 (twos 64 hdr.expireTime)

/-- The header that 32 bytes of memory are. -/
def CacheHeader.ofBytes (l : List UInt8) : CacheHeader where
  status := ofTwos 32 (ofWordBytes (l.take 4))
  headersLen := ofWordBytes ((l.drop 8).take 8)
  bodyLen := ofWordBytes ((l.drop 16).take 8)
  expireTime := ofTwos 64 (ofWordBytes ((l.drop 24).take 8))

/-- `cache_entry_t`. -/
structure CacheStore.Entry where
  hdr : CacheHeader
  data : List UInt8
  deriving DecidableEq

/-! ### System calls -/

/-- A directory. -/
abbrev Dir := List UInt8 → Option (List UInt8)

/-- What one `read` or `write` transfers at most: Linux stops at this many bytes, however many
the call asks for. -/
def maxTransfer : ℕ := 0x7ffff000

/-- What becomes of a `read` or a `write`; `full` is as much as one call can do. -/
inductive Transfer
  | fails
  | upTo (n : ℕ)
  | full

/-- How many bytes the call has room for, if it does not fail. -/
def Transfer.limit : Transfer → Option ℕ
  | .fails => none
  | .upTo n => some (min n maxTransfer)
  | .full => some maxTransfer

/-- The bytes of `l` that the call transfers, if it does not fail. -/
def Transfer.take (t : Transfer) (l : List UInt8) : Option (List UInt8) := t.limit.map l.take

/-- The call has room for `n` bytes. -/
def Transfer.Moves (t : Transfer) (n : ℕ) : Prop := ∃ k, t.limit = some k ∧ n ≤ k

/-- What the call returns. -/
def transferRet : Option (List UInt8) → ℤ
  | none => -1
  | some l => l.length

/-- The `isize` of a `usize`. -/
def isize (n : ℕ) : ℤ := ofTwos 64 n

/-- The values of `np_status_t` that the store returns. -/
inductive CacheStatus
  | ok
  | err
  | errNomem
  deriving DecidableEq

/-- What the system calls of `cache_insert` do, what `time(NULL)` returns, and what the bytes
of the header that are not used hold. -/
structure InsertEnv where
  now : ℤ
  openOk : Bool
  writeHdr : Transfer
  writeHeaders : Transfer
  writeBody : Transfer
  renameOk : Bool
  unlinkOk : Bool
  pad : UInt32

/-- What the system calls of `cache_lookup` and `malloc` do, and what `time(NULL)` returns. -/
structure LookupEnv where
  now : ℤ
  openOk : Bool
  readHdr : Transfer
  unlinkOk : Bool
  mallocOk : Bool
  readData : Transfer

/-- `write` to a file that is written from its start, once for all: what it returns, and the
file after it. -/
def writeTo (t : Transfer) (file l : List UInt8) : ℤ × List UInt8 :=
  (transferRet (t.take l), file ++ (t.take l).getD [])

/-- `len > 0 && write(...)`: nothing is written of nothing, and that is no failure. -/
def writePart (t : Transfer) (file l : List UInt8) : ℤ × List UInt8 :=
  if l.length > 0 then writeTo t file l else (isize l.length, file)

/-- The header that `cache_insert` writes. -/
def insertHeader (status : ℤ) (headers body : List UInt8) (ttl now : ℤ) : CacheHeader where
  status := status
  headersLen := headers.length
  bodyLen := body.length
  expireTime := if ttl > 0 then now + ttl else 0

/-- The directory with another file, or none, of a name. -/
def Dir.put (dir : Dir) (name : List UInt8) (file : Option (List UInt8)) : Dir :=
  Function.update dir name file

/-- `unlink`. -/
def Dir.unlink (dir : Dir) (name : List UInt8) (ok : Bool) : Dir :=
  if ok then dir.put name none else dir

/-- `rename`. -/
def Dir.rename (dir : Dir) (old new : List UInt8) : Dir := (dir.put new (dir old)).put old none

/-- `cache_insert`. -/
def cacheInsert (dir : Dir) (store : CacheStore) (key : List UInt8) (status : ℤ)
    (headers body : List UInt8) (ttl : ℤ) (env : InsertEnv) : CacheStatus × Dir :=
  let path := cachePath store key
  let tmp := tmpPath store key
  if env.openOk = false then (.err, dir)
  else
    let hdr := insertHeader status headers body ttl env.now
    let w := writeTo env.writeHdr [] (hdr.bytes env.pad)
    if w.1 ≠ 32 then (.err, (dir.put tmp (some w.2)).unlink tmp env.unlinkOk)
    else
      let w' := writePart env.writeHeaders w.2 headers
      if w'.1 ≠ isize headers.length then
        (.err, (dir.put tmp (some w'.2)).unlink tmp env.unlinkOk)
      else
        let w'' := writePart env.writeBody w'.2 body
        if w''.1 ≠ isize body.length then
          (.err, (dir.put tmp (some w''.2)).unlink tmp env.unlinkOk)
        else if env.renameOk = false then
          (.err, (dir.put tmp (some w''.2)).unlink tmp env.unlinkOk)
        else (.ok, (dir.put tmp (some w''.2)).rename tmp path)

/-- `cache_lookup`: what it returns, the entry it fills in, and the directory after it. -/
def cacheLookup (dir : Dir) (store : CacheStore) (key : List UInt8) (env : LookupEnv) :
    (CacheStatus × Option CacheStore.Entry) × Dir :=
  let path := cachePath store key
  match (if env.openOk then dir path else none) with
  | none => ((.err, none), dir)
  | some file =>
    let r := env.readHdr.take (file.take 32)
    if transferRet r ≠ 32 then ((.err, none), dir)
    else
      let hdr := CacheHeader.ofBytes (r.getD [])
      if hdr.expireTime > 0 ∧ env.now > hdr.expireTime then
        ((.err, none), dir.unlink path env.unlinkOk)
      else
        let total := (hdr.headersLen + hdr.bodyLen) % 2 ^ 64
        if env.mallocOk = false then ((.errNomem, none), dir)
        else
          let data := env.readData.take ((file.drop 32).take total)
          if transferRet data < 0 ∨ transferRet data ≠ total then ((.err, none), dir)
          else ((.ok, some ⟨hdr, data.getD []⟩), dir)

/-! ### The names of files -/

lemma cacheHash_lt (key : List UInt8) : (cacheHash key).toNat < 16 ^ 16 := by
  have := (cacheHash key).toNat_lt
  norm_num at this ⊢
  exact this

lemma length_hex_cacheHash (key : List UInt8) : (hexBytes 16 (cacheHash key).toNat).length = 16 :=
  length_hexBytes (cacheHash_lt key)

/-- Nothing of a path is cut off. -/
lemma cachePath_eq (store : CacheStore) (key : List UInt8) :
    cachePath store key =
      store.root ++ bytes "/" ++ hexBytes 16 (cacheHash key).toNat ++ bytes ".cache" := by
  refine List.take_of_length_le ?_
  have hroot := store.length_root_le
  have hslash : (bytes "/").length = 1 := by decide
  have hsuffix : (bytes ".cache").length = 6 := by decide
  simp only [List.length_append, length_hex_cacheHash]
  omega

lemma length_cachePath (store : CacheStore) (key : List UInt8) :
    (cachePath store key).length = store.root.length + 23 := by
  have hslash : (bytes "/").length = 1 := by decide
  have hsuffix : (bytes ".cache").length = 6 := by decide
  simp only [cachePath_eq, List.length_append, length_hex_cacheHash]
  omega

/-- **Keys of different hashes have different files.** -/
lemma cachePath_inj {store : CacheStore} {key key' : List UInt8}
    (h : cachePath store key = cachePath store key') : cacheHash key = cacheHash key' := by
  rw [cachePath_eq, cachePath_eq, List.append_left_inj, List.append_right_inj] at h
  exact UInt64.toNat_inj.mp (hexBytes_inj (cacheHash_lt key) (cacheHash_lt key') h)

/-- **No key has the temporary file of another.** -/
lemma tmpPath_ne_cachePath (store : CacheStore) (key key' : List UInt8) :
    tmpPath store key ≠ cachePath store key' := by
  intro h
  have hlen := congrArg List.length h
  have hroot := store.length_root_le
  have hsuffix : (bytes ".tmp").length = 4 := by decide
  rw [tmpPath, List.length_take, List.length_append, length_cachePath, length_cachePath] at hlen
  omega

/-! ### The header -/

/-- The values that a header can hold. -/
structure CacheHeader.Fits (hdr : CacheHeader) : Prop where
  status_ge : -2 ^ 31 ≤ hdr.status
  status_lt : hdr.status < 2 ^ 31
  headersLen_lt : hdr.headersLen < 2 ^ 64
  bodyLen_lt : hdr.bodyLen < 2 ^ 64
  expireTime_ge : -2 ^ 63 ≤ hdr.expireTime
  expireTime_lt : hdr.expireTime < 2 ^ 63

lemma length_word8 {n : ℕ} (h : n < 2 ^ 64) : (wordBytes 8 n).length = 8 :=
  length_wordBytes (by omega)

lemma CacheHeader.length_bytes (hdr : CacheHeader) (pad : UInt32) :
    (hdr.bytes pad).length = 32 := by
  have hstatus : (wordBytes 4 (twos 32 hdr.status)).length = 4 :=
    length_wordBytes (twos_lt 32 _)
  have hpad : (wordBytes 4 pad.toNat).length = 4 := length_wordBytes pad.toNat_lt
  have hheaders := length_word8 (Nat.mod_lt hdr.headersLen (by positivity : 0 < 2 ^ 64))
  have hbody := length_word8 (Nat.mod_lt hdr.bodyLen (by positivity : 0 < 2 ^ 64))
  have hexpire := length_word8 (twos_lt 64 hdr.expireTime)
  simp only [CacheHeader.bytes, List.length_append]
  omega

/-- **The header is read back as it was written.** -/
lemma CacheHeader.ofBytes_bytes {hdr : CacheHeader} (h : hdr.Fits) (pad : UInt32) :
    CacheHeader.ofBytes (hdr.bytes pad) = hdr := by
  have hstatus : (wordBytes 4 (twos 32 hdr.status)).length = 4 :=
    length_wordBytes (twos_lt 32 _)
  have hpad : (wordBytes 4 pad.toNat).length = 4 := length_wordBytes pad.toNat_lt
  have hheaders := length_word8 h.headersLen_lt
  have hbody := length_word8 h.bodyLen_lt
  have hexpire := length_word8 (twos_lt 64 hdr.expireTime)
  have hbytes : hdr.bytes pad = wordBytes 4 (twos 32 hdr.status) ++ (wordBytes 4 pad.toNat ++
      (wordBytes 8 hdr.headersLen ++ (wordBytes 8 hdr.bodyLen ++
        wordBytes 8 (twos 64 hdr.expireTime)))) := by
    rw [CacheHeader.bytes, Nat.mod_eq_of_lt h.headersLen_lt, Nat.mod_eq_of_lt h.bodyLen_lt]
    simp only [List.append_assoc]
  -- each field is where its offset says
  have htake : (hdr.bytes pad).take 4 = wordBytes 4 (twos 32 hdr.status) := by
    rw [hbytes, List.take_left' hstatus]
  have hdrop8 : (hdr.bytes pad).drop 8 = wordBytes 8 hdr.headersLen ++ (wordBytes 8 hdr.bodyLen ++
      wordBytes 8 (twos 64 hdr.expireTime)) := by
    rw [hbytes, ← List.append_assoc, List.drop_left' (by simp [hstatus, hpad])]
  have hdrop16 : (hdr.bytes pad).drop 16 = wordBytes 8 hdr.bodyLen ++
      wordBytes 8 (twos 64 hdr.expireTime) := by
    rw [show 16 = 8 + 8 from rfl, ← List.drop_drop, hdrop8, List.drop_left' hheaders]
  have hdrop24 : (hdr.bytes pad).drop 24 = wordBytes 8 (twos 64 hdr.expireTime) := by
    rw [show 24 = 16 + 8 from rfl, ← List.drop_drop, hdrop16, List.drop_left' hbody]
  rw [CacheHeader.ofBytes, htake, hdrop8, hdrop16, hdrop24, List.take_left' hheaders,
    List.take_left' hbody, List.take_of_length_le hexpire.le,
    ofWordBytes_wordBytes (twos_lt 32 _), ofWordBytes_wordBytes (by simpa using h.headersLen_lt),
    ofWordBytes_wordBytes (by simpa using h.bodyLen_lt), ofWordBytes_wordBytes (twos_lt 64 _),
    ofTwos_twos h.status_ge h.status_lt, ofTwos_twos h.expireTime_ge h.expireTime_lt]

/-! ### Insertion -/

/-- The file of an entry. -/
def entryFile (status : ℤ) (headers body : List UInt8) (ttl now : ℤ) (pad : UInt32) : List UInt8 :=
  (insertHeader status headers body ttl now).bytes pad ++ (headers ++ body)

lemma isize_eq {n : ℕ} (h : n < 2 ^ 63) : isize n = n := ofTwos_of_lt h

lemma Transfer.Moves.take_eq {t : Transfer} {l : List UInt8} (h : t.Moves l.length) :
    t.take l = some l := by
  obtain ⟨k, hk, hle⟩ := h
  rw [Transfer.take, hk, Option.map_some, List.take_of_length_le hle]

/-- A call that returns as much as there is had room for it. -/
lemma Transfer.moves_of_ret {t : Transfer} {l : List UInt8} {n : ℕ}
    (h : transferRet (t.take l) = n) (hl : l.length ≤ n) : t.Moves l.length := by
  rw [Transfer.take] at h
  cases hk : t.limit with
  | none =>
    rw [hk, Option.map_none, transferRet] at h
    omega
  | some k =>
    rw [hk, Option.map_some, transferRet, List.length_take] at h
    exact ⟨k, hk, by omega⟩

/-- A `write` that returns the length has written all. -/
lemma writeTo_eq {t : Transfer} {file l : List UInt8} (h : (writeTo t file l).1 = l.length) :
    (writeTo t file l).2 = file ++ l := by
  rw [writeTo, (Transfer.moves_of_ret h le_rfl).take_eq, Option.getD_some]

lemma writePart_eq {t : Transfer} {file l : List UInt8} (hlen : l.length < 2 ^ 63)
    (h : (writePart t file l).1 = isize l.length) : (writePart t file l).2 = file ++ l := by
  rw [writePart] at h ⊢
  split at h
  · rename_i hpos
    rw [if_pos hpos]
    exact writeTo_eq (h.trans (isize_eq hlen))
  · rename_i hpos
    rw [if_neg hpos, List.eq_nil_of_length_eq_zero (Nat.eq_zero_of_not_pos hpos), List.append_nil]

@[simp] lemma put_self (dir : Dir) (name : List UInt8) (file : Option (List UInt8)) :
    dir.put name file name = file := Function.update_self _ _ _

lemma put_of_ne (dir : Dir) {name name' : List UInt8} (file : Option (List UInt8))
    (h : name' ≠ name) : dir.put name file name' = dir name' := Function.update_of_ne h _ _

lemma unlink_of_ne (dir : Dir) {name name' : List UInt8} (ok : Bool) (h : name' ≠ name) :
    dir.unlink name ok name' = dir name' := by
  rw [Dir.unlink]
  split
  · exact put_of_ne dir none h
  · rfl

/-- What was renamed has the new name, and the other names stay. -/
lemma rename_put_apply (dir : Dir) {old new name : List UInt8} (file : Option (List UInt8))
    (hname : name ≠ old) :
    (dir.put old file).rename old new name = if name = new then file else dir name := by
  rw [Dir.rename, put_of_ne _ _ hname, put_self]
  split
  · rename_i h
    rw [h, put_self]
  · rename_i h
    rw [put_of_ne _ _ h, put_of_ne _ _ hname]

variable {dir : Dir} {store : CacheStore} {key : List UInt8} {status : ℤ}
  {headers body : List UInt8} {ttl : ℤ} {env : InsertEnv}

/-- **What `cache_insert` leaves of the files of keys**: if it returns `NP_OK`, the whole entry
in the place of the file, and otherwise all files as they were. -/
lemma cacheInsert_cases (dir : Dir) (store : CacheStore) (key : List UInt8) (status ttl : ℤ)
    (env : InsertEnv) (hheaders : headers.length < 2 ^ 63) (hbody : body.length < 2 ^ 63) :
    ((cacheInsert dir store key status headers body ttl env).1 = .ok ∧
      ∀ name, name ≠ tmpPath store key →
        (cacheInsert dir store key status headers body ttl env).2 name =
          if name = cachePath store key then
            some (entryFile status headers body ttl env.now env.pad) else dir name) ∨
    ((cacheInsert dir store key status headers body ttl env).1 = .err ∧
      ∀ name, name ≠ tmpPath store key →
        (cacheInsert dir store key status headers body ttl env).2 name = dir name) := by
  have hfail : ∀ file ok name, name ≠ tmpPath store key →
      ((dir.put (tmpPath store key) (some file)).unlink (tmpPath store key) ok) name = dir name :=
    fun file ok name hname => (unlink_of_ne _ ok hname).trans (put_of_ne dir _ hname)
  simp only [cacheInsert]
  split
  · exact Or.inr ⟨rfl, fun _ _ => rfl⟩
  split
  · exact Or.inr ⟨rfl, hfail _ _⟩
  split
  · exact Or.inr ⟨rfl, hfail _ _⟩
  split
  · exact Or.inr ⟨rfl, hfail _ _⟩
  split
  · exact Or.inr ⟨rfl, hfail _ _⟩
  -- all three parts are written in full
  rename_i _ hhdr hheaders' hbody' _
  left
  refine ⟨rfl, fun name hname => ?_⟩
  rw [not_not] at hhdr hheaders' hbody'
  set hdrBytes := (insertHeader status headers body ttl env.now).bytes env.pad with hdrBytes_def
  have hwritten : (writeTo env.writeHdr [] hdrBytes).2 = hdrBytes := by
    refine writeTo_eq (hhdr.trans ?_)
    rw [hdrBytes_def, CacheHeader.length_bytes]
    rfl
  have hfile : (writePart env.writeBody (writePart env.writeHeaders
      (writeTo env.writeHdr [] hdrBytes).2 headers).2 body).2 =
        entryFile status headers body ttl env.now env.pad := by
    rw [writePart_eq hbody hbody', writePart_eq hheaders hheaders', hwritten, entryFile,
      List.append_assoc]
  rw [← hfile]
  exact rename_put_apply dir _ hname

/-! ### Lookup -/

/-- A lookup looks at the file of its key only. -/
lemma cacheLookup_congr {dir dir' : Dir}
    (h : dir' (cachePath store key) = dir (cachePath store key)) (env : LookupEnv) :
    (cacheLookup dir' store key env).1 = (cacheLookup dir store key env).1 := by
  simp only [cacheLookup, h]
  split
  · rfl
  split
  · rfl
  split
  · rfl
  split
  · rfl
  split <;> rfl

/-- The time of the entry is over. -/
def CacheStore.Entry.Expired (e : CacheStore.Entry) (now : ℤ) : Prop :=
  0 < e.hdr.expireTime ∧ e.hdr.expireTime < now

/-- The file holds the entry, whatever is in the four bytes that are not used. -/
structure CacheStore.Entry.Filed (file : List UInt8) (e : CacheStore.Entry) : Prop where
  file_eq : ∃ pad, file = e.hdr.bytes pad ++ e.data
  fits : e.hdr.Fits
  total : e.hdr.headersLen + e.hdr.bodyLen = e.data.length
  length_lt : e.data.length < 2 ^ 64

/-- The system calls of a lookup do their part for an entry of `n` bytes. The data is read with
one call, so that the entry has to fit into what one call transfers. -/
structure LookupEnv.Serves (env : LookupEnv) (n : ℕ) : Prop where
  openOk : env.openOk = true
  readHdr : env.readHdr.Moves 32
  mallocOk : env.mallocOk = true
  readData : env.readData.Moves n

/-- **`cache_lookup` of an entry**: it is found, or its time is over, or the system fails. -/
lemma cacheLookup_of_filed {file : List UInt8} {e : CacheStore.Entry}
    (hfile : dir (cachePath store key) = some file) (he : e.Filed file) (env : LookupEnv) :
    (¬e.Expired env.now ∧ env.Serves e.data.length ∧
        cacheLookup dir store key env = ((.ok, some e), dir)) ∨
      (e.Expired env.now ∧ cacheLookup dir store key env =
        ((.err, none), dir.unlink (cachePath store key) env.unlinkOk)) ∨
      (¬env.Serves e.data.length ∧ ∃ status, status ≠ .ok ∧
        (e.Expired env.now ∨ env.mallocOk = true → status = .err) ∧
        cacheLookup dir store key env = ((status, none), dir)) := by
  obtain ⟨pad, rfl⟩ := he.file_eq
  have hlen := CacheHeader.length_bytes e.hdr pad
  have hret32 : ((e.hdr.bytes pad).length : ℤ) = 32 := by rw [hlen]; rfl
  have htotal : (e.hdr.headersLen + e.hdr.bodyLen) % 2 ^ 64 = e.data.length := by
    rw [he.total]
    exact Nat.mod_eq_of_lt he.length_lt
  rw [cacheLookup]
  simp only [hfile]
  by_cases hopen : env.openOk = true
  swap
  · rw [if_neg hopen]
    exact Or.inr (Or.inr ⟨fun h => hopen h.openOk, .err, by decide, fun _ => rfl, rfl⟩)
  rw [if_pos hopen]
  simp only [List.take_left' hlen, List.drop_left' hlen]
  by_cases hhdr : transferRet (env.readHdr.take (e.hdr.bytes pad)) = 32
  swap
  · rw [if_pos hhdr]
    refine Or.inr (Or.inr ⟨fun h => hhdr ?_, .err, by decide, fun _ => rfl, rfl⟩)
    have hmoves : env.readHdr.Moves (e.hdr.bytes pad).length := hlen.symm ▸ h.readHdr
    rw [hmoves.take_eq]
    exact hret32
  have hmoves : env.readHdr.Moves (e.hdr.bytes pad).length :=
    Transfer.moves_of_ret (hhdr.trans hret32.symm) le_rfl
  rw [if_neg (not_not.mpr hhdr), hmoves.take_eq, Option.getD_some,
    CacheHeader.ofBytes_bytes he.fits, htotal, List.take_length]
  -- the time is looked at before there is memory for the data
  by_cases hover : e.hdr.expireTime > 0 ∧ env.now > e.hdr.expireTime
  · rw [if_pos hover]
    exact Or.inr (Or.inl ⟨hover, rfl⟩)
  rw [if_neg hover]
  by_cases hmalloc : env.mallocOk = false
  · rw [if_pos hmalloc]
    refine Or.inr (Or.inr ⟨fun h => ?_, .errNomem, by decide, fun h => ?_, rfl⟩)
    · exact Bool.false_ne_true (hmalloc.symm.trans h.mallocOk)
    · rcases h with h | h
      · exact absurd h hover
      · exact absurd (hmalloc.symm.trans h) Bool.false_ne_true
  rw [if_neg hmalloc]
  by_cases hdata : transferRet (env.readData.take e.data) = e.data.length
  · have hread := Transfer.moves_of_ret hdata le_rfl
    rw [if_neg (by rw [hdata]; omega), hread.take_eq, Option.getD_some]
    exact Or.inl ⟨hover, ⟨hopen, hlen ▸ hmoves, Bool.eq_true_of_not_eq_false hmalloc, hread⟩, rfl⟩
  · rw [if_pos (Or.inr hdata)]
    refine Or.inr (Or.inr ⟨fun h => hdata ?_, .err, by decide, fun _ => rfl, rfl⟩)
    rw [h.readData.take_eq]
    rfl

/-- The system calls of an insertion do their part. -/
structure InsertEnv.Serves (env : InsertEnv) (headersLen bodyLen : ℕ) : Prop where
  openOk : env.openOk = true
  writeHdr : env.writeHdr.Moves 32
  writeHeaders : 0 < headersLen → env.writeHeaders.Moves headersLen
  writeBody : 0 < bodyLen → env.writeBody.Moves bodyLen
  renameOk : env.renameOk = true

lemma writePart_of_moves {t : Transfer} {file l : List UInt8} (hlen : l.length < 2 ^ 63)
    (h : 0 < l.length → t.Moves l.length) : (writePart t file l).1 = isize l.length := by
  by_cases hpos : l.length > 0
  · rw [writePart, if_pos hpos, writeTo, (h hpos).take_eq, isize_eq hlen]
    rfl
  · rw [writePart, if_neg hpos]

/-- Nothing but a failure of the system makes an insertion fail. -/
lemma cacheInsert_ok (dir : Dir) (store : CacheStore) (key : List UInt8) (status ttl : ℤ)
    (henv : env.Serves headers.length body.length) (hheaders : headers.length < 2 ^ 63)
    (hbody : body.length < 2 ^ 63) :
    (cacheInsert dir store key status headers body ttl env).1 = .ok := by
  have hhdr : ∀ hdr : CacheHeader, (writeTo env.writeHdr [] (hdr.bytes env.pad)).1 = 32 := by
    intro hdr
    have hlen := CacheHeader.length_bytes hdr env.pad
    have hmoves : env.writeHdr.Moves (hdr.bytes env.pad).length := hlen.symm ▸ henv.writeHdr
    rw [writeTo, hmoves.take_eq, transferRet, hlen]
    rfl
  simp only [cacheInsert, henv.openOk, henv.renameOk, hhdr,
    writePart_of_moves hheaders henv.writeHeaders, writePart_of_moves hbody henv.writeBody,
    ne_eq, not_true_eq_false, Bool.true_eq_false, if_false]

lemma expireTime_insertHeader (status : ℤ) (headers body : List UInt8) (ttl now : ℤ) :
    (insertHeader status headers body ttl now).expireTime = if ttl > 0 then now + ttl else 0 := rfl

lemma insertHeader_fits {now : ℤ} (hstatus : -2 ^ 31 ≤ status ∧ status < 2 ^ 31)
    (hheaders : headers.length < 2 ^ 64) (hbody : body.length < 2 ^ 64) (hnow : 0 ≤ now)
    (htime : now + ttl < 2 ^ 63) : (insertHeader status headers body ttl now).Fits := by
  refine ⟨hstatus.1, hstatus.2, hheaders, hbody, ?_, ?_⟩
  · rw [expireTime_insertHeader]
    split <;> omega
  · rw [expireTime_insertHeader]
    split <;> omega

/-- The entry that `cache_insert` writes. -/
def insertEntry (status : ℤ) (headers body : List UInt8) (ttl now : ℤ) : CacheStore.Entry :=
  ⟨insertHeader status headers body ttl now, headers ++ body⟩

lemma insertEntry_filed {now : ℤ} (hstatus : -2 ^ 31 ≤ status ∧ status < 2 ^ 31)
    (hheaders : headers.length < 2 ^ 63) (hbody : body.length < 2 ^ 63) (hnow : 0 ≤ now)
    (htime : now + ttl < 2 ^ 63) (pad : UInt32) :
    (insertEntry status headers body ttl now).Filed
      (entryFile status headers body ttl now pad) := by
  have hlen : (headers ++ body).length = headers.length + body.length := List.length_append
  refine ⟨⟨pad, rfl⟩, insertHeader_fits hstatus (by omega) (by omega) hnow htime, hlen.symm, ?_⟩
  show (headers ++ body).length < 2 ^ 64
  omega

/-- It lasts up to the time of the insertion and `ttl`, or for good. -/
lemma insertEntry_expired_iff {now now' : ℤ} (hnow : 0 ≤ now) :
    (insertEntry status headers body ttl now).Expired now' ↔ 0 < ttl ∧ now + ttl < now' := by
  rw [CacheStore.Entry.Expired, insertEntry, expireTime_insertHeader]
  split <;> omega

/-! ### Round trip and atomicity -/

/-- **The store**: an entry that was inserted is found until its time is over, exactly by the
lookups whose system calls do their part, for which headers and body must fit into one `read`; it
is not found after its time; keys of another hash are not touched; and an insertion that fails
changes nothing that a lookup can see. -/
theorem cacheInsert_roundTrip (dir : Dir) (store : CacheStore) (key : List UInt8) (status : ℤ)
    (hstatus : -2 ^ 31 ≤ status ∧ status < 2 ^ 31) (headers body : List UInt8)
    (hheaders : headers.length < 2 ^ 63) (hbody : body.length < 2 ^ 63) (ttl : ℤ)
    (env : InsertEnv) (hnow : 0 ≤ env.now) (htime : env.now + ttl < 2 ^ 63) :
    let r := cacheInsert dir store key status headers body ttl env
    (r.1 = .ok →
      (∀ lenv : LookupEnv, ttl ≤ 0 ∨ lenv.now ≤ env.now + ttl →
        ((∃ hdr : CacheHeader, hdr.status = status ∧
            (cacheLookup r.2 store key lenv).1 = (.ok, some ⟨hdr, headers ++ body⟩)) ↔
          lenv.Serves (headers.length + body.length))) ∧
      (∀ lenv : LookupEnv, 0 < ttl → env.now + ttl < lenv.now →
        (cacheLookup r.2 store key lenv).1 = (.err, none)) ∧
      ∀ key' lenv, cacheHash key' ≠ cacheHash key →
        (cacheLookup r.2 store key' lenv).1 = (cacheLookup dir store key' lenv).1) ∧
    (r.1 ≠ .ok → ∀ key' lenv,
      (cacheLookup r.2 store key' lenv).1 = (cacheLookup dir store key' lenv).1) := by
  intro r
  -- no key leads to the temporary file, so no lookup sees it
  have htmp : ∀ key', cachePath store key' ≠ tmpPath store key := fun key' =>
    (tmpPath_ne_cachePath store key key').symm
  rcases cacheInsert_cases dir store key status ttl env hheaders hbody with
    ⟨hok, hdir⟩ | ⟨herr, hdir⟩
  · refine ⟨fun _ => ?_, fun hne => absurd hok hne⟩
    have hfile : r.2 (cachePath store key) =
        some (entryFile status headers body ttl env.now env.pad) := by
      rw [hdir _ (htmp key), if_pos rfl]
    have hfiled := insertEntry_filed hstatus hheaders hbody hnow htime env.pad
    have hlookup := cacheLookup_of_filed hfile hfiled
    have hlen : (insertEntry status headers body ttl env.now).data.length =
        headers.length + body.length := List.length_append
    rw [hlen] at hlookup
    refine ⟨fun lenv hlive => ?_, fun lenv httl hlate => ?_,
      fun key' lenv hhash => cacheLookup_congr ?_ lenv⟩
    · have hlive' : ¬(insertEntry status headers body ttl env.now).Expired lenv.now := by
        rw [insertEntry_expired_iff hnow]
        omega
      -- a lookup serves the entry, finds it over, or fails in one of its system calls
      rcases hlookup lenv with ⟨-, hserves, heq⟩ | ⟨hover, -⟩ | ⟨hfails, st, hst, -, heq⟩
      · exact iff_of_true ⟨_, rfl, by rw [heq]; rfl⟩ hserves
      · exact absurd hover hlive'
      · refine iff_of_false ?_ hfails
        rintro ⟨hdr, -, hfound⟩
        rw [heq] at hfound
        exact hst (congrArg Prod.fst hfound)
    · have hover : (insertEntry status headers body ttl env.now).Expired lenv.now :=
        (insertEntry_expired_iff hnow).mpr ⟨httl, hlate⟩
      rcases hlookup lenv with ⟨hlive, -⟩ | ⟨-, heq⟩ | ⟨-, st, -, hst, heq⟩
      · exact absurd hover hlive
      · rw [heq]
      · rw [heq, hst (Or.inl hover)]
    · rw [hdir _ (htmp key'), if_neg fun h => hhash (cachePath_inj h)]
  · refine ⟨fun hok => absurd (herr.symm.trans hok) (by decide), fun _ key' lenv => ?_⟩
    exact cacheLookup_congr (hdir _ (htmp key')) lenv

/-- All system calls do what they can. -/
def fullInsert : InsertEnv := ⟨1000, true, .full, .full, .full, true, true, 0⟩

/-- So do those of a lookup that comes a minute later. -/
def fullLookup : LookupEnv := ⟨1060, true, .full, true, true, .full⟩

lemma fullInsert_serves {n m : ℕ} (hn : n ≤ maxTransfer) (hm : m ≤ maxTransfer) :
    fullInsert.Serves n m :=
  ⟨rfl, ⟨_, rfl, by decide⟩, fun _ => ⟨_, rfl, hn⟩, fun _ => ⟨_, rfl, hm⟩, rfl⟩

lemma fullLookup_serves_iff {n : ℕ} : fullLookup.Serves n ↔ n ≤ maxTransfer := by
  constructor
  · rintro ⟨-, -, -, k, hk, hle⟩
    rwa [← Option.some.inj hk] at hle
  · exact fun h => ⟨rfl, ⟨_, rfl, by decide⟩, rfl, _, rfl, h⟩

/-- Three bytes of headers and two of body, for a minute: the lookup at the end of it finds them. -/
theorem cacheInsert_roundTrip_page :
    let store := cacheStoreCreate (bytes "/c")
    let r := cacheInsert (fun _ => none) store (bytes "GET:h:/") 200 [1, 2, 3] [4, 5] 60 fullInsert
    r.1 = .ok ∧
      ((∃ hdr : CacheHeader, hdr.status = 200 ∧
          (cacheLookup r.2 store (bytes "GET:h:/") fullLookup).1 =
            (.ok, some ⟨hdr, [1, 2, 3] ++ [4, 5]⟩)) ∧
        (cacheLookup r.2 store (bytes "GET:h:/") { fullLookup with now := 1061 }).1 =
          (.err, none)) := by
  intro store r
  have hok : r.1 = .ok := cacheInsert_ok _ _ _ _ _ (fullInsert_serves (by decide) (by decide))
    (by norm_num) (by norm_num)
  obtain ⟨hlive, hover, -⟩ := (cacheInsert_roundTrip (fun _ => none) store (bytes "GET:h:/") 200
    (by norm_num) [1, 2, 3] [4, 5] (by norm_num) (by norm_num) 60 fullInsert (by decide)
    (by decide)).1 hok
  exact ⟨hok, (hlive fullLookup (by decide)).mpr (fullLookup_serves_iff.mpr (by decide)),
    hover _ (by decide) (by decide)⟩

/-- **Headers and body of 1,100,000,000 bytes each**: both are written, each by one `write`, and no
lookup finds them, as no `read` returns all of them. -/
theorem longEntry_lost :
    ∃ headers body : List UInt8, headers.length = 1100000000 ∧ body.length = 1100000000 ∧
      ∀ (dir : Dir) (store : CacheStore) (key : List UInt8),
        let r := cacheInsert dir store key 200 headers body 60 fullInsert
        r.1 = .ok ∧ fullLookup.now ≤ fullInsert.now + 60 ∧
          (cacheLookup r.2 store key fullLookup).1 = (.err, none) := by
  obtain ⟨part, hpart⟩ : ∃ l : List UInt8, l.length = 1100000000 :=
    ⟨List.replicate 1100000000 0, List.length_replicate⟩
  refine ⟨part, part, hpart, hpart, fun dir store key => ?_⟩
  intro r
  have hshort : part.length < 2 ^ 63 := by omega
  have hok : r.1 = .ok := cacheInsert_ok _ _ _ _ _
    (fullInsert_serves (by rw [hpart]; decide) (by rw [hpart]; decide)) hshort hshort
  refine ⟨hok, by decide, ?_⟩
  rcases cacheInsert_cases dir store key 200 60 fullInsert hshort hshort with
    ⟨-, hdir⟩ | ⟨herr, -⟩
  · have hfile := (hdir _ (tmpPath_ne_cachePath store key key).symm).trans (if_pos rfl)
    have hfiled : (insertEntry 200 part part 60 fullInsert.now).Filed _ :=
      insertEntry_filed (by norm_num) hshort hshort (by decide) (by decide) fullInsert.pad
    have hlen : (insertEntry 200 part part 60 fullInsert.now).data.length = 2200000000 := by
      rw [insertEntry, List.length_append, hpart]
    rcases cacheLookup_of_filed hfile hfiled fullLookup with
      ⟨-, hserves, -⟩ | ⟨hover, -⟩ | ⟨-, status, -, herr, heq⟩
    · rw [hlen, fullLookup_serves_iff] at hserves
      exact absurd hserves (by decide)
    · rw [insertEntry_expired_iff (by decide)] at hover
      exact absurd hover (by decide)
    · rw [show r = _ from rfl, heq, herr (Or.inr rfl)]
  · exact absurd (hok.symm.trans herr) (by decide)

end Nproxy
