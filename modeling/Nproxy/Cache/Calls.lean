import Nproxy.Cache.Store
import Nproxy.Lib.Files

/-!
`cache_insert` and `cache_lookup`, one system call at a time.

`Cache/Store` has each of them as one function on the directory. Here a call is a machine that makes
one system call in a step, so that other workers can come in between.

* `insertStep`, `lookupStep`: the machines; a file stays what it is for whoever has it open.
* `insert_alone`, `lookup_alone`: run alone, they are the functions of `Cache/Store`.
-/

namespace Nproxy

open Files Words

/-- The arguments of an insertion, with what `time(NULL)` returns in it: an `int`, and buffers
that are in memory together. -/
structure CacheContent where
  status : ℤ
  headers : List UInt8
  body : List UInt8
  ttl : ℤ
  now : ℤ
  pad : UInt32
  status_mem : -2 ^ 31 ≤ status ∧ status < 2 ^ 31
  length_lt : headers.length + body.length < 2 ^ 63
  now_nonneg : 0 ≤ now
  time_lt : now + ttl < 2 ^ 63

namespace CacheContent

/-- The header of the entry. -/
def hdr (c : CacheContent) : CacheHeader := insertHeader c.status c.headers c.body c.ttl c.now

/-- The file of the entry. -/
def file (c : CacheContent) : List UInt8 := entryFile c.status c.headers c.body c.ttl c.now c.pad

/-- What a lookup should find. -/
def entry (c : CacheContent) : CacheStore.Entry := ⟨c.hdr, c.headers ++ c.body⟩

end CacheContent

/-! ### The calls, one system call at a time -/

/-- Where a call of `cache_insert` is; `i` is the file it has open, and `off` the offset of its
descriptor. -/
inductive InsertPc
  | opening
  | header (i : ℕ)
  | headers (i off : ℕ)
  | body (i off : ℕ)
  | moving (i : ℕ)
  | unlinking
  | returned (r : CacheStatus)
  deriving DecidableEq

/-- The insertion has opened the temporary file and neither renamed nor unlinked it. -/
def InsertPc.Busy : InsertPc → Prop
  | .opening => False
  | .returned _ => False
  | _ => True

instance : DecidablePred InsertPc.Busy
  | .opening => isFalse id
  | .header _ => isTrue trivial
  | .headers _ _ => isTrue trivial
  | .body _ _ => isTrue trivial
  | .moving _ => isTrue trivial
  | .unlinking => isTrue trivial
  | .returned _ => isFalse id

/-- After the headers: the body, unless it is empty. -/
def bodyPc (c : CacheContent) (i off : ℕ) : InsertPc :=
  if c.body.length > 0 then .body i off else .moving i

/-- After the header: the headers, unless they are empty. -/
def headersPc (c : CacheContent) (i off : ℕ) : InsertPc :=
  if c.headers.length > 0 then .headers i off else bodyPc c i off

/-- One system call of `cache_insert`, with its outcome. -/
def insertStep (path tmp : List UInt8) (c : CacheContent) (fs : Fs (List UInt8)) (o : Transfer) :
    InsertPc → Fs (List UInt8) × InsertPc
  | .opening =>
    match o with
    | .fails => (fs, .returned .err)
    | _ => ((fs.openTrunc tmp).2, .header (fs.openTrunc tmp).1)
  | .header i =>
    let l := o.take (c.hdr.bytes c.pad)
    (fs.writeAt i 0 (l.getD []), if transferRet l ≠ 32 then .unlinking else headersPc c i 32)
  | .headers i off =>
    let l := o.take c.headers
    (fs.writeAt i off (l.getD []),
      if transferRet l ≠ isize c.headers.length then .unlinking
      else bodyPc c i (off + (l.getD []).length))
  | .body i off =>
    let l := o.take c.body
    (fs.writeAt i off (l.getD []),
      if transferRet l ≠ isize c.body.length then .unlinking else .moving i)
  | .moving _ =>
    match o, fs.rename tmp path with
    | .fails, _ => (fs, .unlinking)
    | _, none => (fs, .unlinking)
    | _, some fs => (fs, .returned .ok)
  | .unlinking =>
    match o with
    | .fails => (fs, .returned .err)
    | _ => (fs.unlink tmp, .returned .err)
  | .returned r => (fs, .returned r)

/-- Where a call of `cache_lookup` is. -/
inductive LookupPc
  | opening
  | readHdr (i : ℕ)
  | unlinking
  | readData (i : ℕ) (hdr : CacheHeader)
  | returned (r : CacheStatus) (entry : Option CacheStore.Entry)
  deriving DecidableEq

/-- What a system call of `cache_lookup` finds: its outcome, what `time(NULL)` returns, and
whether there is memory. -/
structure LookupIn where
  o : Transfer
  now : ℤ
  mallocOk : Bool

/-- The bytes of data that a header speaks of. -/
def CacheHeader.total (hdr : CacheHeader) : ℕ := (hdr.headersLen + hdr.bodyLen) % 2 ^ 64

/-- One system call of `cache_lookup`. -/
def lookupStep (path : List UInt8) (fs : Fs (List UInt8)) (x : LookupIn) :
    LookupPc → Fs (List UInt8) × LookupPc
  | .opening =>
    match x.o, fs.dir path with
    | .fails, _ => (fs, .returned .err none)
    | _, none => (fs, .returned .err none)
    | _, some i => (fs, .readHdr i)
  | .readHdr i =>
    let r := x.o.take ((fs.data i).take 32)
    if transferRet r ≠ 32 then (fs, .returned .err none)
    else
      let hdr := CacheHeader.ofBytes (r.getD [])
      if hdr.expireTime > 0 ∧ x.now > hdr.expireTime then (fs, .unlinking)
      else if x.mallocOk = false then (fs, .returned .errNomem none)
      else (fs, .readData i hdr)
  | .unlinking =>
    match x.o with
    | .fails => (fs, .returned .err none)
    | _ => (fs.unlink path, .returned .err none)
  | .readData i hdr =>
    let data := x.o.take (((fs.data i).drop 32).take hdr.total)
    if transferRet data < 0 ∨ transferRet data ≠ hdr.total then (fs, .returned .err none)
    else (fs, .returned .ok (some ⟨hdr, data.getD []⟩))
  | .returned r entry => (fs, .returned r entry)

/-! ### A call that is alone -/

section Alone

variable {path tmp : List UInt8} {c : CacheContent} {fs : Fs (List UInt8)} {env : InsertEnv}
  {dir : Dir} {file : List UInt8} {i : ℕ}

/-- An outcome that is a failure or not. -/
def outcome (ok : Bool) : Transfer := if ok then .full else .fails

/-- The outcome of the next system call of an insertion. -/
def InsertEnv.outcome (env : InsertEnv) : InsertPc → Transfer
  | .opening => Nproxy.outcome env.openOk
  | .header _ => env.writeHdr
  | .headers _ _ => env.writeHeaders
  | .body _ _ => env.writeBody
  | .moving _ => Nproxy.outcome env.renameOk
  | .unlinking => Nproxy.outcome env.unlinkOk
  | .returned _ => .full

/-- An insertion that nobody disturbs takes a step. -/
def insertAlone (path tmp : List UInt8) (c : CacheContent) (env : InsertEnv)
    (s : Fs (List UInt8) × InsertPc) : Fs (List UInt8) × InsertPc :=
  insertStep path tmp c s.1 (env.outcome s.2) s.2

/-- It gets to its end, with this result. -/
def Ends (path tmp : List UInt8) (c : CacheContent) (env : InsertEnv) (fs : Fs (List UInt8))
    (pc : InsertPc) (r : CacheStatus × Dir) : Prop :=
  ∃ n fs', (insertAlone path tmp c env)^[n] (fs, pc) = (fs', .returned r.1) ∧ fs'.view = r.2

lemma Ends.step {pc pc' : InsertPc} {fs' : Fs (List UInt8)} {r : CacheStatus × Dir}
    (hstep : insertStep path tmp c fs (env.outcome pc) pc = (fs', pc'))
    (h : Ends path tmp c env fs' pc' r) : Ends path tmp c env fs pc r := by
  obtain ⟨n, fs'', hn, hview⟩ := h
  refine ⟨n + 1, fs'', ?_, hview⟩
  rw [Function.iterate_succ_apply, insertAlone, hstep]
  exact hn

lemma ends_returned {r : CacheStatus} (hview : fs.view = dir) :
    Ends path tmp c env fs (.returned r) (r, dir) := ⟨0, fs, rfl, hview⟩

lemma ends_unlinking (hview : fs.view = dir) :
    Ends path tmp c env fs .unlinking (.err, dir.unlink tmp env.unlinkOk) := by
  cases hok : env.unlinkOk
  · have hstep : insertStep path tmp c fs (env.outcome .unlinking) .unlinking =
        (fs, .returned .err) := by
      rw [InsertEnv.outcome, hok]
      rfl
    exact Ends.step hstep (ends_returned hview)
  · have hstep : insertStep path tmp c fs (env.outcome .unlinking) .unlinking =
        (fs.unlink tmp, .returned .err) := by
      rw [InsertEnv.outcome, hok]
      rfl
    refine Ends.step hstep (ends_returned ?_)
    rw [Fs.view_unlink, hview]
    rfl

/-- What is left of `cache_insert` after the body: the file has the temporary name. -/
def renamePart (dir : Dir) (path tmp : List UInt8) (env : InsertEnv) (file : List UInt8) :
    CacheStatus × Dir :=
  if env.renameOk = false then (.err, (dir.put tmp (some file)).unlink tmp env.unlinkOk)
  else (.ok, (dir.put tmp (some file)).rename tmp path)

/-- What is left of it after the headers. -/
def bodyPart (dir : Dir) (path tmp : List UInt8) (c : CacheContent) (env : InsertEnv)
    (file : List UInt8) : CacheStatus × Dir :=
  let w := writePart env.writeBody file c.body
  if w.1 ≠ isize c.body.length then (.err, (dir.put tmp (some w.2)).unlink tmp env.unlinkOk)
  else renamePart dir path tmp env w.2

/-- What is left of it after the header. -/
def headersPart (dir : Dir) (path tmp : List UInt8) (c : CacheContent) (env : InsertEnv)
    (file : List UInt8) : CacheStatus × Dir :=
  let w := writePart env.writeHeaders file c.headers
  if w.1 ≠ isize c.headers.length then (.err, (dir.put tmp (some w.2)).unlink tmp env.unlinkOk)
  else bodyPart dir path tmp c env w.2

/-- The insertion has the temporary file open, with what it has written. -/
structure Has (fs : Fs (List UInt8)) (dir : Dir) (tmp : List UInt8) (i : ℕ) (file : List UInt8) :
    Prop where
  wf : fs.Wf
  dir_tmp : fs.dir tmp = some i
  data_eq : fs.data i = file
  view_eq : fs.view = dir.put tmp (some file)

lemma Has.append (h : Has fs dir tmp i file) (l : List UInt8) :
    Has (fs.writeAt i file.length l) dir tmp i (file ++ l) := by
  have hover : overwrite (fs.data i) file.length l = file ++ l := by
    rw [h.data_eq, overwrite_length]
  refine ⟨h.wf.writeAt _ _ _, h.dir_tmp, Fs.data_writeAt_self.trans hover, ?_⟩
  rw [Fs.view_writeAt h.wf h.dir_tmp, hover, h.view_eq]
  exact Function.update_idem _ _ _

lemma ends_moving (h : Has fs dir tmp i file) :
    Ends path tmp c env fs (.moving i) (renamePart dir path tmp env file) := by
  cases hok : env.renameOk
  · rw [renamePart, if_pos hok]
    have hstep : insertStep path tmp c fs (env.outcome (.moving i)) (.moving i) =
        (fs, .unlinking) := by
      rw [InsertEnv.outcome, hok]
      rfl
    exact Ends.step hstep (ends_unlinking h.view_eq)
  · rw [renamePart, if_neg (by rw [hok]; exact Bool.noConfusion)]
    obtain ⟨fs', hfs', hview⟩ := Fs.view_rename h.dir_tmp path
    have hstep : insertStep path tmp c fs (env.outcome (.moving i)) (.moving i) =
        (fs', .returned .ok) := by
      simp only [InsertEnv.outcome, hok, outcome, if_true, insertStep, hfs']
    rw [h.view_eq] at hview
    exact Ends.step hstep (ends_returned hview)

lemma ends_bodyPc (h : Has fs dir tmp i file) :
    Ends path tmp c env fs (bodyPc c i file.length) (bodyPart dir path tmp c env file) := by
  by_cases hpos : c.body.length > 0
  · rw [bodyPc, if_pos hpos, bodyPart, writePart, if_pos hpos]
    have hstep : insertStep path tmp c fs (env.outcome (.body i file.length))
        (.body i file.length) = (fs.writeAt i file.length ((env.writeBody.take c.body).getD []),
          if (writeTo env.writeBody file c.body).1 ≠ isize c.body.length then .unlinking
          else .moving i) := rfl
    have happ := h.append ((env.writeBody.take c.body).getD [])
    refine Ends.step hstep ?_
    split
    · exact ends_unlinking happ.view_eq
    · exact ends_moving happ
  · rw [bodyPc, if_neg hpos, bodyPart, writePart, if_neg hpos, if_neg (not_not.mpr rfl)]
    exact ends_moving h

lemma ends_headersPc (h : Has fs dir tmp i file) :
    Ends path tmp c env fs (headersPc c i file.length) (headersPart dir path tmp c env file) := by
  by_cases hpos : c.headers.length > 0
  · rw [headersPc, if_pos hpos, headersPart, writePart, if_pos hpos]
    have hstep : insertStep path tmp c fs (env.outcome (.headers i file.length))
        (.headers i file.length) =
          (fs.writeAt i file.length ((env.writeHeaders.take c.headers).getD []),
            if (writeTo env.writeHeaders file c.headers).1 ≠ isize c.headers.length then .unlinking
            else bodyPc c i (file.length +
              ((env.writeHeaders.take c.headers).getD []).length)) := rfl
    have happ := h.append ((env.writeHeaders.take c.headers).getD [])
    refine Ends.step hstep ?_
    split
    · exact ends_unlinking happ.view_eq
    · rw [← List.length_append]
      exact ends_bodyPc happ
  · rw [headersPc, if_neg hpos, headersPart, writePart, if_neg hpos, if_neg (not_not.mpr rfl)]
    exact ends_bodyPc h

lemma ends_header (h : Has fs dir tmp i []) :
    Ends path tmp c env fs (.header i)
      (let w := writeTo env.writeHdr [] (c.hdr.bytes c.pad)
      if w.1 ≠ 32 then (.err, (dir.put tmp (some w.2)).unlink tmp env.unlinkOk)
      else headersPart dir path tmp c env w.2) := by
  have hstep : insertStep path tmp c fs (env.outcome (.header i)) (.header i) =
      (fs.writeAt i 0 ((env.writeHdr.take (c.hdr.bytes c.pad)).getD []),
        if (writeTo env.writeHdr [] (c.hdr.bytes c.pad)).1 ≠ 32 then .unlinking
        else headersPc c i 32) := rfl
  have happ := h.append ((env.writeHdr.take (c.hdr.bytes c.pad)).getD [])
  refine Ends.step hstep ?_
  dsimp only
  split
  · exact ends_unlinking happ.view_eq
  · rename_i hret
    -- the offset is the length of the header that was written
    have hlen := congrArg List.length (writeTo_eq ((not_not.mp hret).trans
      (by rw [CacheHeader.length_bytes]; rfl)))
    rw [List.nil_append, CacheHeader.length_bytes] at hlen
    rw [← hlen]
    exact ends_headersPc happ

/-- **An insertion that is alone is `cache_insert`.** -/
lemma insert_alone (store : CacheStore) (key : List UInt8) (hfs : fs.Wf)
    (hnow : env.now = c.now) (hpad : env.pad = c.pad) :
    Ends (cachePath store key) (tmpPath store key) c env fs .opening
      (cacheInsert fs.view store key c.status c.headers c.body c.ttl env) := by
  cases hok : env.openOk
  · rw [cacheInsert, if_pos hok]
    have hstep : insertStep (cachePath store key) (tmpPath store key) c fs (env.outcome .opening)
        .opening = (fs, .returned .err) := by
      rw [InsertEnv.outcome, hok]
      rfl
    exact Ends.step hstep (ends_returned rfl)
  · rw [cacheInsert, if_neg (by rw [hok]; exact Bool.noConfusion), hnow, hpad]
    have hstep : insertStep (cachePath store key) (tmpPath store key) c fs (env.outcome .opening)
        .opening = ((fs.openTrunc (tmpPath store key)).2,
          .header (fs.openTrunc (tmpPath store key)).1) := by
      rw [InsertEnv.outcome, hok]
      rfl
    refine Ends.step hstep (ends_header ⟨hfs.openTrunc _, ?_, ?_, Fs.view_openTrunc hfs _⟩)
    · rw [Fs.dir_openTrunc, Function.update_self]
    · rw [Fs.data_openTrunc, Function.update_self]

/-- What the next system call of a lookup finds. -/
def LookupEnv.input (env : LookupEnv) : LookupPc → LookupIn
  | .opening => ⟨outcome env.openOk, env.now, env.mallocOk⟩
  | .readHdr _ => ⟨env.readHdr, env.now, env.mallocOk⟩
  | .unlinking => ⟨outcome env.unlinkOk, env.now, env.mallocOk⟩
  | .readData _ _ => ⟨env.readData, env.now, env.mallocOk⟩
  | .returned _ _ => ⟨.full, env.now, env.mallocOk⟩

/-- A lookup that nobody disturbs takes a step. -/
def lookupAlone (path : List UInt8) (env : LookupEnv) (s : Fs (List UInt8) × LookupPc) :
    Fs (List UInt8) × LookupPc :=
  lookupStep path s.1 (env.input s.2) s.2

/-- It is at its end, with this result. -/
def LookedUp (s : Fs (List UInt8) × LookupPc)
    (r : (CacheStatus × Option CacheStore.Entry) × Dir) : Prop :=
  s.2 = .returned r.1.1 r.1.2 ∧ s.1.view = r.2

lemma lookedUp_unlinking (lenv : LookupEnv) :
    LookedUp (lookupAlone path lenv (fs, .unlinking))
      ((.err, none), Dir.unlink fs.view path lenv.unlinkOk) := by
  cases hok : lenv.unlinkOk
  · simp [LookedUp, lookupAlone, lookupStep, LookupEnv.input, outcome, hok, Dir.unlink]
  · simp [LookedUp, lookupAlone, lookupStep, LookupEnv.input, outcome, hok, Dir.unlink, Dir.put,
      Fs.view_unlink]

/-- The file is there, and can be opened. -/
lemma lookup_opened (path : List UInt8) (fs : Fs (List UInt8)) (lenv : LookupEnv) :
    (∃ i, (if lenv.openOk then fs.view path else none) = some (fs.data i) ∧
      lookupAlone path lenv (fs, .opening) = (fs, .readHdr i)) ∨
    ((if lenv.openOk then fs.view path else none) = none ∧
      lookupAlone path lenv (fs, .opening) = (fs, .returned .err none)) := by
  cases hok : lenv.openOk
  · refine Or.inr ⟨rfl, ?_⟩
    simp only [lookupAlone, lookupStep, LookupEnv.input, outcome, hok, Bool.false_eq_true,
      if_false]
  · cases hdir : fs.dir path with
    | none =>
      refine Or.inr ⟨by simp [Fs.view, hdir], ?_⟩
      simp only [lookupAlone, lookupStep, LookupEnv.input, outcome, hok, if_true, hdir]
    | some i =>
      refine Or.inl ⟨i, by simp [Fs.view, hdir], ?_⟩
      simp only [lookupAlone, lookupStep, LookupEnv.input, outcome, hok, if_true, hdir]

/-- **A lookup that is alone is `cache_lookup`.** -/
lemma lookup_alone (store : CacheStore) (key : List UInt8) (lenv : LookupEnv) :
    LookedUp ((lookupAlone (cachePath store key) lenv)^[3] (fs, .opening))
      (cacheLookup fs.view store key lenv) := by
  have hstay : ∀ s r entry, lookupAlone (cachePath store key) lenv (s, .returned r entry) =
      (s, .returned r entry) := fun s r entry => rfl
  simp only [Function.iterate_succ_apply, Function.iterate_zero_apply, cacheLookup]
  rcases lookup_opened (cachePath store key) fs lenv with ⟨i, hfile, hopen⟩ | ⟨hfile, hopen⟩
  · have hread : lookupAlone (cachePath store key) lenv (fs, .readHdr i) =
        lookupStep (cachePath store key) fs ⟨lenv.readHdr, lenv.now, lenv.mallocOk⟩
          (.readHdr i) := rfl
    rw [hfile, hopen, hread, lookupStep]
    dsimp only
    generalize CacheHeader.ofBytes ((lenv.readHdr.take ((fs.data i).take 32)).getD []) = hdr
    split
    · exact ⟨rfl, rfl⟩
    · split
      · exact lookedUp_unlinking lenv
      · split
        · exact ⟨rfl, rfl⟩
        · have hdata : lookupAlone (cachePath store key) lenv (fs, .readData i hdr) =
              lookupStep (cachePath store key) fs ⟨lenv.readData, lenv.now, lenv.mallocOk⟩
                (.readData i hdr) := rfl
          rw [hdata, lookupStep, CacheHeader.total]
          dsimp only
          split <;> exact ⟨rfl, rfl⟩
  · rw [hfile, hopen, hstay, hstay]
    exact ⟨rfl, rfl⟩

end Alone

end Nproxy
