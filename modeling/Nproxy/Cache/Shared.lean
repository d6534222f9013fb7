import Nproxy.Cache.Calls
import Nproxy.Lib.Run

/-!
Several workers insert under one key and look it up, in one directory.

All insertions under a key write to the same temporary file. If none opens it while another one has
it, a file is complete when it gets the name of the key and never changes after that (`Kept`), and
every lookup finds one entry (`lookups_whole`). Two insertions that overlap write into one file:
`lookups_mixed`.
-/

namespace Nproxy

open Files Words

/-! ### The directory and all calls on it -/

variable {ι κ : Type*}

/-- The directory, the insertions under one key, and the lookups of it. -/
structure Shared (ι κ : Type*) where
  fs : Fs (List UInt8)
  ins : ι → InsertPc
  look : κ → LookupPc

/-- Which of the workers makes the next system call of its insertion or lookup. -/
inductive SharedOp (ι κ : Type*)
  | insert (a : ι) (o : Transfer)
  | lookup (q : κ) (x : LookupIn)

/-- One system call of one of the workers. -/
def Shared.step [DecidableEq ι] [DecidableEq κ] (path tmp : List UInt8) (c : ι → CacheContent)
    (s : Shared ι κ) : SharedOp ι κ → Shared ι κ
  | .insert a o =>
    let r := insertStep path tmp (c a) s.fs o (s.ins a)
    { s with fs := r.1, ins := Function.update s.ins a r.2 }
  | .lookup q x =>
    let r := lookupStep path s.fs x (s.look q)
    { s with fs := r.1, look := Function.update s.look q r.2 }

/-- Before any of the calls. -/
def Shared.start (fs : Fs (List UInt8)) : Shared ι κ := ⟨fs, fun _ => .opening, fun _ => .opening⟩

/-- An insertion opens the temporary file only while no other one has it. -/
def Apart (s : Shared ι κ) : SharedOp ι κ → Prop
  | .insert a _ => s.ins a = .opening → ∀ b, ¬(s.ins b).Busy
  | .lookup _ _ => True

instance [Fintype ι] (s : Shared ι κ) : DecidablePred (Apart s)
  | .insert a _ => inferInstanceAs (Decidable (s.ins a = .opening → ∀ b, ¬(s.ins b).Busy))
  | .lookup _ _ => isTrue trivial

/-! ### What is in a file -/

/-- The entry that a file holds. -/
def fileEntry (file : List UInt8) : CacheStore.Entry :=
  let hdr := CacheHeader.ofBytes (file.take 32)
  ⟨hdr, (file.drop 32).take hdr.total⟩

lemma CacheContent.fits (c : CacheContent) : c.hdr.Fits :=
  insertHeader_fits c.status_mem (by have := c.length_lt; omega) (by have := c.length_lt; omega)
    c.now_nonneg c.time_lt

lemma CacheContent.file_eq (c : CacheContent) :
    c.file = c.hdr.bytes c.pad ++ (c.headers ++ c.body) := rfl

/-- The file of an insertion holds its entry. -/
lemma fileEntry_file (c : CacheContent) : fileEntry c.file = c.entry := by
  have hlen := c.length_lt
  have htotal : c.hdr.total = (c.headers ++ c.body).length := by
    rw [List.length_append]
    exact Nat.mod_eq_of_lt (by show c.headers.length + c.body.length < 2 ^ 64; omega)
  rw [fileEntry, CacheContent.file_eq, List.take_left' (CacheHeader.length_bytes _ _),
    List.drop_left' (CacheHeader.length_bytes _ _), CacheHeader.ofBytes_bytes c.fits, htotal,
    List.take_length]
  rfl

/-! ### Insertions that keep apart -/

section Apart

variable {path tmp : List UInt8} {c : ι → CacheContent} {whole : List UInt8 → Prop}
  {shown shown' : ℕ → Prop} {s : Shared ι κ}

/-- What an insertion that has the temporary file open has written to it so far. -/
def Written (tmp : List UInt8) (c : CacheContent) (fs : Fs (List UInt8)) : InsertPc → Prop
  | .header i => fs.dir tmp = some i ∧ fs.data i = []
  | .headers i off => fs.dir tmp = some i ∧ fs.data i = c.hdr.bytes c.pad ∧ off = (fs.data i).length
  | .body i off =>
    fs.dir tmp = some i ∧ fs.data i = c.hdr.bytes c.pad ++ c.headers ∧ off = (fs.data i).length
  | .moving i => fs.dir tmp = some i ∧ fs.data i = c.file
  | _ => True

/-- What a lookup has read so far is of one file, and that one is whole. -/
def Reads (whole : List UInt8 → Prop) (shown : ℕ → Prop) (fs : Fs (List UInt8)) : LookupPc → Prop
  | .readHdr i => shown i
  | .readData i hdr => shown i ∧ hdr = CacheHeader.ofBytes ((fs.data i).take 32)
  | .returned .ok entry => ∃ file, whole file ∧ entry = some (fileEntry file)
  | _ => True

/-- The files that had the name of the key, now or before, are whole; the temporary file is
none of them; and at most one insertion writes to it. -/
structure Kept (path tmp : List UInt8) (c : ι → CacheContent) (whole : List UInt8 → Prop)
    (shown : ℕ → Prop) (s : Shared ι κ) : Prop where
  shown_lt : ∀ i, shown i → i < s.fs.fresh
  shown_whole : ∀ i, shown i → whole (s.fs.data i)
  path_shown : ∀ i, s.fs.dir path = some i → shown i
  tmp_hidden : ∀ i, s.fs.dir tmp = some i → ¬shown i ∧ i < s.fs.fresh
  one : ∀ a b, (s.ins a).Busy → (s.ins b).Busy → a = b
  written : ∀ a, Written tmp (c a) s.fs (s.ins a)
  reads : ∀ q, Reads whole shown s.fs (s.look q)

/-- Reading goes on as long as the files that were shown stay as they are. -/
lemma Reads.mono {fs fs' : Fs (List UInt8)} (hshown : ∀ i, shown i → shown' i)
    (hdata : ∀ i, shown i → fs'.data i = fs.data i) {pc : LookupPc}
    (h : Reads whole shown fs pc) : Reads whole shown' fs' pc := by
  cases pc with
  | opening => trivial
  | unlinking => trivial
  | readHdr i => exact hshown i h
  | readData i hdr =>
    obtain ⟨hi, hhdr⟩ := h
    refine ⟨hshown i hi, ?_⟩
    rw [hdata i hi]
    exact hhdr
  | returned r entry =>
    cases r with
    | ok => exact h
    | err => trivial
    | errNomem => trivial

/-- An insertion that is not busy has nothing written. -/
lemma written_of_not_busy {c : CacheContent} {fs : Fs (List UInt8)} {pc : InsertPc}
    (h : ¬pc.Busy) : Written tmp c fs pc := by
  cases pc with
  | opening => trivial
  | returned r => trivial
  | header i => exact absurd trivial h
  | headers i off => exact absurd trivial h
  | body i off => exact absurd trivial h
  | moving i => exact absurd trivial h
  | unlinking => exact absurd trivial h

/-- **One system call of an insertion**, while no other one is busy: it is enough that it leaves
the files that were shown alone and accounts for its own. -/
lemma Kept.insert [DecidableEq ι] (h : Kept path tmp c whole shown s) {a : ι}
    (halone : ∀ b, b ≠ a → ¬(s.ins b).Busy) {fs' : Fs (List UInt8)} {pc : InsertPc}
    (hshown : ∀ i, shown i → shown' i) (hdata : ∀ i, shown i → fs'.data i = s.fs.data i)
    (hlt : ∀ i, shown' i → i < fs'.fresh) (hwhole : ∀ i, shown' i → whole (fs'.data i))
    (hpath : ∀ i, fs'.dir path = some i → shown' i)
    (htmp : ∀ i, fs'.dir tmp = some i → ¬shown' i ∧ i < fs'.fresh)
    (hwritten : Written tmp (c a) fs' pc) :
    Kept path tmp c whole shown' { s with fs := fs', ins := Function.update s.ins a pc } := by
  have hidle : ∀ b, b ≠ a → ¬(Function.update s.ins a pc b).Busy := fun b hb => by
    rw [Function.update_of_ne hb]
    exact halone b hb
  refine ⟨hlt, hwhole, hpath, htmp, fun b b' hb hb' => ?_, fun b => ?_,
    fun q => (h.reads q).mono hshown hdata⟩
  · have hba : b = a := by_contra fun hne => hidle b hne hb
    have hba' : b' = a := by_contra fun hne => hidle b' hne hb'
    rw [hba, hba']
  · by_cases hb : b = a
    · subst hb
      simpa using hwritten
    · exact written_of_not_busy (hidle b hb)

lemma Kept.stay [DecidableEq ι] (h : Kept path tmp c whole shown s) {a : ι}
    (halone : ∀ b, b ≠ a → ¬(s.ins b).Busy) {pc : InsertPc}
    (hwritten : Written tmp (c a) s.fs pc) :
    Kept path tmp c whole shown { s with ins := Function.update s.ins a pc } :=
  h.insert halone (fun _ hj => hj) (fun _ _ => rfl) h.shown_lt h.shown_whole h.path_shown
    h.tmp_hidden hwritten

/-- The temporary file is taken away. -/
lemma Kept.giveUp [DecidableEq ι] (h : Kept path tmp c whole shown s) (hne : path ≠ tmp) {a : ι}
    (halone : ∀ b, b ≠ a → ¬(s.ins b).Busy) (r : CacheStatus) :
    Kept path tmp c whole shown { s with
      fs := s.fs.unlink tmp, ins := Function.update s.ins a (.returned r) } := by
  refine h.insert halone (fun _ hj => hj) (fun _ _ => rfl) h.shown_lt h.shown_whole
    (fun j hj => ?_) (fun j hj => ?_) trivial
  · exact h.path_shown j ((Function.update_of_ne hne _ _).symm.trans hj)
  · have hnone : (s.fs.unlink tmp).dir tmp = none := Function.update_self _ _ _
    rw [hnone] at hj
    cases hj

lemma Kept.write [DecidableEq ι] (h : Kept path tmp c whole shown s) {a : ι}
    (halone : ∀ b, b ≠ a → ¬(s.ins b).Busy) {i off : ℕ} (hi : s.fs.dir tmp = some i)
    {l : List UInt8} {pc : InsertPc} (hwritten : Written tmp (c a) (s.fs.writeAt i off l) pc) :
    Kept path tmp c whole shown
      { s with fs := s.fs.writeAt i off l, ins := Function.update s.ins a pc } := by
  have hdata : ∀ j, shown j → (s.fs.writeAt i off l).data j = s.fs.data j := fun j hj =>
    Fs.data_writeAt_of_ne fun hji => (h.tmp_hidden i hi).1 (hji ▸ hj)
  refine h.insert halone (fun _ hj => hj) hdata h.shown_lt (fun j hj => ?_) h.path_shown
    h.tmp_hidden hwritten
  rw [hdata j hj]
  exact h.shown_whole j hj

lemma written_bodyPc {c : CacheContent} {fs : Fs (List UInt8)} {i off : ℕ}
    (hi : fs.dir tmp = some i) (hdata : fs.data i = c.hdr.bytes c.pad ++ c.headers)
    (hoff : off = (fs.data i).length) : Written tmp c fs (bodyPc c i off) := by
  rw [bodyPc]
  split
  · exact ⟨hi, hdata, hoff⟩
  · rename_i hbody
    refine ⟨hi, ?_⟩
    rw [hdata, CacheContent.file_eq,
      List.eq_nil_of_length_eq_zero (Nat.eq_zero_of_not_pos hbody), List.append_nil]

lemma written_headersPc {c : CacheContent} {fs : Fs (List UInt8)} {i off : ℕ}
    (hi : fs.dir tmp = some i) (hdata : fs.data i = c.hdr.bytes c.pad)
    (hoff : off = (fs.data i).length) : Written tmp c fs (headersPc c i off) := by
  rw [headersPc]
  split
  · exact ⟨hi, hdata, hoff⟩
  · rename_i hheaders
    refine written_bodyPc hi ?_ hoff
    rw [hdata, List.eq_nil_of_length_eq_zero (Nat.eq_zero_of_not_pos hheaders), List.append_nil]

lemma Kept.open [DecidableEq ι] (h : Kept path tmp c whole shown s) (hne : path ≠ tmp) {a : ι}
    (halone : ∀ b, ¬(s.ins b).Busy) :
    Kept path tmp c whole shown { s with
      fs := (s.fs.openTrunc tmp).2
      ins := Function.update s.ins a (.header (s.fs.openTrunc tmp).1) } := by
  have hhidden : ¬shown (s.fs.openTrunc tmp).1 := by
    rcases s.fs.openTrunc_cases tmp with ⟨hdir, -⟩ | ⟨-, hfresh, -⟩
    · exact (h.tmp_hidden _ hdir).1
    · exact fun hshown => (h.shown_lt _ hshown).ne hfresh
  have hfresh : (s.fs.openTrunc tmp).1 < (s.fs.openTrunc tmp).2.fresh ∧
      s.fs.fresh ≤ (s.fs.openTrunc tmp).2.fresh := by
    rcases s.fs.openTrunc_cases tmp with ⟨hdir, hfresh⟩ | ⟨-, hi, hfresh⟩
    · have := (h.tmp_hidden _ hdir).2
      omega
    · omega
  have hdata : ∀ j, shown j → (s.fs.openTrunc tmp).2.data j = s.fs.data j := by
    rintro j hj
    have hji : j ≠ (s.fs.openTrunc tmp).1 := fun hji => hhidden (hji ▸ hj)
    rw [Fs.data_openTrunc, Function.update_of_ne hji]
  refine h.insert (fun b _ => halone b) (fun _ hj => hj) hdata
    (fun j hj => (h.shown_lt j hj).trans_le hfresh.2) (fun j hj => ?_) (fun j hj => ?_)
    (fun j hj => ?_) ⟨?_, ?_⟩
  · rw [hdata j hj]
    exact h.shown_whole j hj
  · rw [Fs.dir_openTrunc, Function.update_of_ne hne] at hj
    exact h.path_shown j hj
  · rw [Fs.dir_openTrunc, Function.update_self] at hj
    obtain rfl := Option.some.inj hj
    exact ⟨hhidden, hfresh.1⟩
  · rw [Fs.dir_openTrunc, Function.update_self]
  · rw [Fs.data_openTrunc, Function.update_self]

/-- The temporary file gets the name of the key: it is whole, and nobody writes to it again. -/
lemma Kept.rename [DecidableEq ι] (h : Kept path tmp c whole shown s) (hne : path ≠ tmp)
    (hwhole : ∀ a, whole (c a).file) {a : ι} (halone : ∀ b, b ≠ a → ¬(s.ins b).Busy) {i : ℕ}
    (hi : s.fs.dir tmp = some i) (hfile : s.fs.data i = (c a).file) :
    Kept path tmp c whole (fun j => shown j ∨ j = i) { s with
      fs := { s.fs with dir := Function.update (Function.update s.fs.dir path (some i)) tmp none }
      ins := Function.update s.ins a (.returned .ok) } := by
  refine h.insert halone (fun _ hj => Or.inl hj) (fun _ _ => rfl) (fun j hj => ?_) (fun j hj => ?_)
    (fun j hj => ?_) (fun j hj => ?_) trivial
  · rcases hj with hj | rfl
    · exact h.shown_lt j hj
    · exact (h.tmp_hidden j hi).2
  · rcases hj with hj | rfl
    · exact h.shown_whole j hj
    · show whole (s.fs.data j)
      rw [hfile]
      exact hwhole a
  · simp only [Function.update_of_ne hne, Function.update_self] at hj
    exact Or.inr (Option.some.inj hj).symm
  · simp only [Function.update_self] at hj
    cases hj

/-- A write that returns its length is at the end of the file. -/
lemma appended {fs : Fs (List UInt8)} {i off : ℕ} {o : Transfer} {l : List UInt8}
    (hoff : off = (fs.data i).length) (hall : o.take l = some l) :
    (fs.writeAt i off ((o.take l).getD [])).data i = fs.data i ++ l := by
  rw [hall, Option.getD_some, Fs.data_writeAt_self, hoff, overwrite_length]

lemma written_header {c : CacheContent} {fs : Fs (List UInt8)} {i : ℕ} (o : Transfer)
    (h : Written tmp c fs (.header i)) :
    Written tmp c (insertStep path tmp c fs o (.header i)).1
      (insertStep path tmp c fs o (.header i)).2 := by
  obtain ⟨hi, hdata⟩ := h
  have hlen : (c.hdr.bytes c.pad).length = 32 := CacheHeader.length_bytes _ _
  simp only [insertStep]
  split
  · trivial
  · rename_i hret
    have hall : o.take (c.hdr.bytes c.pad) = some (c.hdr.bytes c.pad) :=
      (Transfer.moves_of_ret (n := 32) (not_not.mp hret) hlen.le).take_eq
    have hdata' := appended (show 0 = (fs.data i).length by rw [hdata]; rfl) hall
    rw [hdata, List.nil_append] at hdata'
    exact written_headersPc hi hdata' (by rw [hdata', hlen])

lemma written_headers {c : CacheContent} {fs : Fs (List UInt8)} {i off : ℕ} (o : Transfer)
    (h : Written tmp c fs (.headers i off)) :
    Written tmp c (insertStep path tmp c fs o (.headers i off)).1
      (insertStep path tmp c fs o (.headers i off)).2 := by
  obtain ⟨hi, hdata, hoff⟩ := h
  simp only [insertStep]
  split
  · trivial
  · rename_i hret
    have hall : o.take c.headers = some c.headers :=
      (Transfer.moves_of_ret ((not_not.mp hret).trans
        (isize_eq (by have := c.length_lt; omega))) le_rfl).take_eq
    have hdata' := appended hoff hall
    refine written_bodyPc hi (hdata'.trans (by rw [hdata])) ?_
    rw [hdata', hall, hoff, List.length_append, Option.getD_some]

lemma written_body {c : CacheContent} {fs : Fs (List UInt8)} {i off : ℕ} (o : Transfer)
    (h : Written tmp c fs (.body i off)) :
    Written tmp c (insertStep path tmp c fs o (.body i off)).1
      (insertStep path tmp c fs o (.body i off)).2 := by
  obtain ⟨hi, hdata, hoff⟩ := h
  simp only [insertStep]
  split
  · trivial
  · rename_i hret
    have hall : o.take c.body = some c.body :=
      (Transfer.moves_of_ret ((not_not.mp hret).trans
        (isize_eq (by have := c.length_lt; omega))) le_rfl).take_eq
    refine ⟨hi, (appended hoff hall).trans ?_⟩
    rw [hdata, List.append_assoc, CacheContent.file_eq]

/-- **Insertions keep what was shown.** -/
lemma Kept.insertStep [DecidableEq ι] (h : Kept path tmp c whole shown s) (hne : path ≠ tmp)
    (hwhole : ∀ a, whole (c a).file) {a : ι} (o : Transfer)
    (hapart : s.ins a = .opening → ∀ b, ¬(s.ins b).Busy) :
    ∃ shown', Kept path tmp c whole shown' { s with
      fs := (insertStep path tmp (c a) s.fs o (s.ins a)).1
      ins := Function.update s.ins a (insertStep path tmp (c a) s.fs o (s.ins a)).2 } := by
  -- while this insertion is busy, no other one writes to the temporary file
  have halone : (s.ins a).Busy → ∀ b, b ≠ a → ¬(s.ins b).Busy := fun ha b hb hbusy =>
    hb (h.one b a hbusy ha)
  have hwritten := h.written a
  cases hpc : s.ins a with
  | opening =>
    cases o with
    | fails => exact ⟨shown, h.stay (fun b _ => hapart hpc b) trivial⟩
    | upTo n => exact ⟨shown, h.open hne (hapart hpc)⟩
    | full => exact ⟨shown, h.open hne (hapart hpc)⟩
  | header i =>
    rw [hpc] at hwritten halone
    exact ⟨shown, h.write (halone trivial) hwritten.1 (written_header o hwritten)⟩
  | headers i off =>
    rw [hpc] at hwritten halone
    exact ⟨shown, h.write (halone trivial) hwritten.1 (written_headers o hwritten)⟩
  | body i off =>
    rw [hpc] at hwritten halone
    exact ⟨shown, h.write (halone trivial) hwritten.1 (written_body o hwritten)⟩
  | moving i =>
    rw [hpc] at hwritten halone
    obtain ⟨hi, hdata⟩ := hwritten
    have hrename : s.fs.rename tmp path = some { s.fs with
        dir := Function.update (Function.update s.fs.dir path (some i)) tmp none } := by
      rw [Fs.rename, hi, Option.map_some]
    cases o with
    | fails => exact ⟨shown, h.stay (halone trivial) trivial⟩
    | upTo n =>
      simp only [Nproxy.insertStep, hrename]
      exact ⟨_, h.rename hne hwhole (halone trivial) hi hdata⟩
    | full =>
      simp only [Nproxy.insertStep, hrename]
      exact ⟨_, h.rename hne hwhole (halone trivial) hi hdata⟩
  | unlinking =>
    rw [hpc] at halone
    cases o with
    | fails => exact ⟨shown, h.stay (halone trivial) trivial⟩
    | upTo n => exact ⟨shown, h.giveUp hne (halone trivial) .err⟩
    | full => exact ⟨shown, h.giveUp hne (halone trivial) .err⟩
  | returned r =>
    refine ⟨shown, ?_⟩
    have hsame : Function.update s.ins a (.returned r) = s.ins := by
      rw [← hpc, Function.update_eq_self]
    simp only [Nproxy.insertStep, hsame]
    exact h

lemma Kept.lookup (h : Kept path tmp c whole shown s) [DecidableEq κ] {q : κ} {pc : LookupPc}
    (hpc : Reads whole shown s.fs pc) :
    Kept path tmp c whole shown { s with look := Function.update s.look q pc } := by
  refine ⟨h.shown_lt, h.shown_whole, h.path_shown, h.tmp_hidden, h.one, h.written, fun q' => ?_⟩
  by_cases hq : q' = q
  · subst hq
    simpa using hpc
  · simpa [hq] using h.reads q'

/-- The name of the key goes; what has the file open reads on. -/
lemma Kept.unlink (h : Kept path tmp c whole shown s) (hne : path ≠ tmp) :
    Kept path tmp c whole shown { s with fs := s.fs.unlink path } := by
  have htmp : (s.fs.unlink path).dir tmp = s.fs.dir tmp := Function.update_of_ne hne.symm _ _
  have hnone : (s.fs.unlink path).dir path = none := Function.update_self _ _ _
  refine ⟨h.shown_lt, h.shown_whole, fun i hi => ?_, fun i hi => ?_, h.one, fun a => ?_,
    fun q => (h.reads q).mono (fun _ hi => hi) fun _ _ => rfl⟩
  · rw [hnone] at hi
    cases hi
  · exact h.tmp_hidden i (htmp.symm.trans hi)
  · have hwritten := h.written a
    cases hpc : s.ins a <;> rw [hpc] at hwritten
    case header i => exact ⟨htmp.trans hwritten.1, hwritten.2⟩
    case headers i off => exact ⟨htmp.trans hwritten.1, hwritten.2⟩
    case body i off => exact ⟨htmp.trans hwritten.1, hwritten.2⟩
    case moving i => exact ⟨htmp.trans hwritten.1, hwritten.2⟩
    all_goals trivial

lemma reads_readHdr {fs : Fs (List UInt8)} {i : ℕ} (x : LookupIn) (hi : shown i) :
    Reads whole shown fs (lookupStep path fs x (.readHdr i)).2 := by
  simp only [lookupStep]
  split
  · exact True.intro
  · rename_i hret
    have hall : x.o.take ((fs.data i).take 32) = some ((fs.data i).take 32) :=
      (Transfer.moves_of_ret (n := 32) (not_not.mp hret) (List.length_take_le _ _)).take_eq
    rw [hall, Option.getD_some]
    generalize hhdr : CacheHeader.ofBytes ((fs.data i).take 32) = hdr
    split
    · exact True.intro
    · split
      · exact True.intro
      · exact ⟨hi, hhdr.symm⟩

/-- The data behind it are of the same file. -/
lemma reads_readData {fs : Fs (List UInt8)} {i : ℕ} {hdr : CacheHeader} (x : LookupIn)
    (hwhole : whole (fs.data i)) (hhdr : hdr = CacheHeader.ofBytes ((fs.data i).take 32)) :
    Reads whole shown fs (lookupStep path fs x (.readData i hdr)).2 := by
  simp only [lookupStep]
  split
  · exact True.intro
  · rename_i hret
    have hall : x.o.take (((fs.data i).drop 32).take hdr.total) =
        some (((fs.data i).drop 32).take hdr.total) :=
      (Transfer.moves_of_ret (not_not.mp (not_or.mp hret).2) (List.length_take_le _ _)).take_eq
    refine ⟨fs.data i, hwhole, ?_⟩
    rw [hall, Option.getD_some, hhdr]
    rfl

/-- A lookup opens a file that is shown, and reads on in it. -/
lemma Kept.reads_step (h : Kept path tmp c whole shown s) (q : κ) (x : LookupIn) :
    Reads whole shown s.fs (lookupStep path s.fs x (s.look q)).2 := by
  have hreads := h.reads q
  cases hpc : s.look q with
  | opening =>
    simp only [lookupStep]
    split
    · exact True.intro
    · exact True.intro
    · exact h.path_shown _ ‹_›
  | readHdr i =>
    rw [hpc] at hreads
    exact reads_readHdr x hreads
  | unlinking =>
    simp only [lookupStep]
    split <;> exact True.intro
  | readData i hdr =>
    rw [hpc] at hreads
    exact reads_readData x (h.shown_whole i hreads.1) hreads.2
  | returned r entry =>
    rw [hpc] at hreads
    exact hreads

/-- All a lookup does to the directory is to unlink the name of the key. -/
lemma lookupStep_fs (path : List UInt8) (fs : Fs (List UInt8)) (x : LookupIn) (pc : LookupPc) :
    (lookupStep path fs x pc).1 = fs ∨ (lookupStep path fs x pc).1 = fs.unlink path := by
  cases pc with
  | opening =>
    left
    simp only [lookupStep]
    split <;> rfl
  | readHdr i =>
    left
    simp only [lookupStep]
    split
    · rfl
    · split
      · rfl
      · split <;> rfl
  | unlinking =>
    simp only [lookupStep]
    split
    · exact Or.inl rfl
    · exact Or.inr rfl
  | readData i hdr =>
    left
    simp only [lookupStep]
    split <;> rfl
  | returned r entry => exact Or.inl rfl

/-- **Lookups keep what was shown.** -/
lemma Kept.lookupStep (h : Kept path tmp c whole shown s) (hne : path ≠ tmp) [DecidableEq κ]
    (q : κ) (x : LookupIn) :
    Kept path tmp c whole shown { s with
      fs := (lookupStep path s.fs x (s.look q)).1
      look := Function.update s.look q (lookupStep path s.fs x (s.look q)).2 } := by
  have hkept := h.lookup (q := q) (h.reads_step q x)
  rcases lookupStep_fs path s.fs x (s.look q) with hfs | hfs
  · rw [hfs]
    exact hkept
  · rw [hfs]
    exact hkept.unlink hne

/-- What a run starts from: the name of the key leads to a whole file, if to any, and the
temporary name to none of those. -/
structure Tidy (path tmp : List UInt8) (whole : List UInt8 → Prop) (fs : Fs (List UInt8)) :
    Prop where
  path_lt : ∀ i, fs.dir path = some i → i < fs.fresh
  path_whole : ∀ i, fs.dir path = some i → whole (fs.data i)
  tmp_lt : ∀ i, fs.dir tmp = some i → i < fs.fresh
  apart : ∀ i, fs.dir tmp = some i → fs.dir path ≠ some i

lemma kept_start {fs : Fs (List UInt8)} (h : Tidy path tmp whole fs) :
    Kept path tmp c whole (fun i => fs.dir path = some i) (Shared.start fs : Shared ι κ) :=
  ⟨h.path_lt, h.path_whole, fun _ hi => hi, fun i hi => ⟨h.apart i hi, h.tmp_lt i hi⟩,
    fun _ _ ha => ha.elim, fun _ => True.intro, fun _ => True.intro⟩

/-- **In a run whose insertions keep apart, files are whole when they are shown.** -/
lemma exists_kept [DecidableEq ι] [DecidableEq κ] (hne : path ≠ tmp)
    (hwhole : ∀ a, whole (c a).file) {fs : Fs (List UInt8)} (hfs : Tidy path tmp whole fs)
    {ops : List (SharedOp ι κ)}
    (hops : Run.Along (Shared.step path tmp c) Apart (Shared.start fs) ops) :
    ∃ shown, Kept path tmp c whole shown
      (Run.run (Shared.step path tmp c) (Shared.start fs) ops) := by
  refine hops.invariant (P := fun s => ∃ shown, Kept path tmp c whole shown s) ?_
    ⟨_, kept_start hfs⟩
  rintro s op ⟨shown, hkept⟩ hop
  cases op with
  | insert a o => exact hkept.insertStep hne hwhole o hop
  | lookup q x => exact ⟨shown, hkept.lookupStep hne q x⟩

end Apart

/-- **Concurrent insertions do not mix**, as long as none opens the temporary file while another
one has it: whatever the interleaving, and whatever fails, a lookup that returns `NP_OK` has
found the entry of one insertion, or the one that was there before. -/
theorem lookups_whole [DecidableEq ι] [DecidableEq κ] (store : CacheStore) (key : List UInt8)
    (c : ι → CacheContent) (fs : Fs (List UInt8)) (hfs : fs.Wf) (ops : List (SharedOp ι κ))
    (hops : Run.Along (Shared.step (cachePath store key) (tmpPath store key) c) Apart
      (Shared.start fs) ops) (q : κ) (entry : Option CacheStore.Entry)
    (hq : (Run.run (Shared.step (cachePath store key) (tmpPath store key) c) (Shared.start fs)
      ops).look q = .returned .ok entry) :
    (∃ a, entry = some (c a).entry) ∨
      ∃ file, fs.view (cachePath store key) = some file ∧ entry = some (fileEntry file) := by
  have hne := (tmpPath_ne_cachePath store key key).symm
  let whole : List UInt8 → Prop := fun file =>
    (∃ a, file = (c a).file) ∨ fs.view (cachePath store key) = some file
  have htidy : Tidy (cachePath store key) (tmpPath store key) whole fs := by
    refine ⟨fun i hi => hfs.lt _ i hi, fun i hi => Or.inr ?_, fun i hi => hfs.lt _ i hi,
      fun i hi hi' => hne (hfs.inj _ _ i hi' hi)⟩
    rw [Fs.view, hi, Option.map_some]
  obtain ⟨shown, hkept⟩ := exists_kept hne (fun a => Or.inl ⟨a, rfl⟩) htidy hops
  have hreads := hkept.reads q
  rw [hq] at hreads
  obtain ⟨file, ⟨a, rfl⟩ | hfile, rfl⟩ := hreads
  · exact Or.inl ⟨a, by rw [fileEntry_file]⟩
  · exact Or.inr ⟨file, hfile, rfl⟩

/-! ### Two insertions -/

/-- An entry with one byte of body that does not expire. -/
def onePage (status : ℤ) (byte : UInt8) (hstatus : -2 ^ 31 ≤ status ∧ status < 2 ^ 31) :
    CacheContent where
  status := status
  headers := []
  body := [byte]
  ttl := 0
  now := 1000
  pad := 0
  status_mem := hstatus
  length_lt := by norm_num
  now_nonneg := by norm_num
  time_lt := by norm_num

/-- Two insertions under one key, of different pages. -/
def twoPages : Bool → CacheContent
  | true => onePage 200 1 (by norm_num)
  | false => onePage 404 2 (by norm_num)

/-- An empty directory. -/
def emptyFs : Fs (List UInt8) := ⟨fun _ => none, fun _ => [], 0⟩

lemma wf_emptyFs : emptyFs.Wf := by
  refine ⟨fun n n' i hn => ?_, fun n i hn => ?_⟩
  · cases hn
  · cases hn

/-- The whole of a lookup. -/
def lookupOps : List (SharedOp Bool Unit) :=
  List.replicate 3 (.lookup () ⟨.full, 1000, true⟩)

/-- All of one insertion, then all of the other. -/
def oneByOne : List (SharedOp Bool Unit) :=
  List.replicate 4 (.insert true .full) ++ List.replicate 4 (.insert false .full) ++ lookupOps

/-- Both open the temporary file, then both write the header and the body, and one renames it. -/
def overlapping : List (SharedOp Bool Unit) :=
  [.insert true .full, .insert false .full, .insert true .full, .insert false .full,
    .insert false .full, .insert true .full, .insert true .full] ++ lookupOps

/-- One insertion after the other: the lookup finds the second entry. -/
theorem lookups_whole_oneByOne :
    (∃ a, some (twoPages false).entry = some (twoPages a).entry) ∨
      ∃ file, emptyFs.view (cachePath (cacheStoreCreate (bytes "/c")) (bytes "k")) = some file ∧
        some (twoPages false).entry = some (fileEntry file) :=
  lookups_whole (κ := Unit) (cacheStoreCreate (bytes "/c")) (bytes "k") twoPages emptyFs
    wf_emptyFs oneByOne (by decide +kernel) ()
    (some (twoPages false).entry) (by decide +kernel)

/-- **Insertions that overlap mix**: the lookup returns `NP_OK` with the status of one entry and
the body of the other. -/
theorem lookups_mixed :
    (Run.run (Shared.step (cachePath (cacheStoreCreate (bytes "/c")) (bytes "k"))
        (tmpPath (cacheStoreCreate (bytes "/c")) (bytes "k")) twoPages)
      (Shared.start emptyFs) overlapping).look () =
        .returned .ok (some ⟨(twoPages false).hdr, (twoPages true).body⟩) ∧
    (∀ a, (⟨(twoPages false).hdr, (twoPages true).body⟩ : CacheStore.Entry) ≠
      (twoPages a).entry) ∧
    emptyFs.view (cachePath (cacheStoreCreate (bytes "/c")) (bytes "k")) = none := by
  refine ⟨by decide +kernel, by decide +kernel, rfl⟩

end Nproxy
