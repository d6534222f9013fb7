import Nproxy.Http.Rewrite
import Nproxy.Http.VirtualHosts
import Nproxy.Static.Inside

/-!
The arrays of `file_server_handle`.

The loop over an entry of `try_files` moves its cursor by what `snprintf` returns,
which is the length of the whole path, also when only a part of it was written. So
the cursor leaves `tmp_path` at a `$uri` that begins inside and ends outside.

* `uriOffset uri a`: where in the expanded entry the text behind `a` begins;
* `Straddles uri entry`: some `$uri` begins before the last byte of `tmp_path` and ends
  behind it;
* `tryFile_inside_iff`: the index stays inside, and a short expansion is exact, exactly
  if no `$uri` straddles the end.

Without `try_files` the last byte of `path` is looked at, whether or not there is one.

* `TargetBegins data`: the target of a request begins with a path;
* `LeavesText path groups src`: something of a replacement gets to the new path;
* `plen_pos_iff`: the path is not empty exactly if one of the two, whichever gives the
  path, holds.
-/

namespace Nproxy

/-! ### Entries of `try_files` -/

/-- The length of the text `a` with `uri` put in: the place where the text behind `a`
begins. -/
def uriOffset (uri a : List UInt8) : ℕ := (expandUri uri a.length a).length

/-- Some `$uri` of the entry begins inside `tmp_path` and ends outside. -/
def Straddles (uri entry : List UInt8) : Prop :=
  ∃ a b, entry = a ++ (bytes "$uri" ++ b) ∧
    uriOffset uri a < 8191 ∧ 8191 < uriOffset uri a + uri.length

lemma take_uri (b : List UInt8) : (bytes "$uri" ++ b).take 4 = bytes "$uri" := List.take_left' rfl

lemma drop_uri (b : List UInt8) : (bytes "$uri" ++ b).drop 4 = b := List.drop_left' rfl

lemma uri_append_ne_nil (b : List UInt8) : bytes "$uri" ++ b ≠ [] :=
  List.append_ne_nil_of_left_ne_nil (by decide) b

section Offsets

variable (uri : List UInt8)

/-- More rounds than bytes change nothing. -/
lemma expandUri_of_le {fuel : ℕ} {src : List UInt8} (h : src.length ≤ fuel) :
    expandUri uri fuel src = expandUri uri src.length src := by
  induction fuel using Nat.strong_induction_on generalizing src with
  | _ fuel ih =>
    cases fuel with
    | zero =>
      rw [List.eq_nil_of_length_eq_zero (Nat.le_zero.mp h)]
      rfl
    | succ fuel =>
      cases src with
      | nil => rfl
      | cons c t =>
        have ht : t.length ≤ fuel := Nat.le_of_succ_le_succ h
        have hdrop : ((c :: t).drop 4).length ≤ t.length := by
          rw [List.length_drop, List.length_cons]
          omega
        rw [List.length_cons, expandUri, expandUri, ih fuel (by omega) (hdrop.trans ht),
          ih t.length (by omega) hdrop, List.drop_one, List.tail_cons, ih fuel (by omega) ht]

lemma uriOffset_nil : uriOffset uri [] = 0 := rfl

/-- A `$uri` takes the place of the path. -/
lemma uriOffset_uri (b : List UInt8) :
    uriOffset uri (bytes "$uri" ++ b) = uri.length + uriOffset uri b := by
  have hle : b.length ≤ b.length + 3 := Nat.le_add_right _ _
  have hlen : (bytes "$uri" ++ b).length = b.length + 3 + 1 := by
    rw [List.length_append, Nat.add_comm]
    rfl
  rw [uriOffset, uriOffset, hlen, expandUri, if_neg (uri_append_ne_nil b), if_pos (take_uri b),
    drop_uri, expandUri_of_le uri hle, List.length_append]

lemma uriOffset_byte {c : UInt8} {t : List UInt8} (h : (c :: t).take 4 ≠ bytes "$uri") :
    uriOffset uri (c :: t) = 1 + uriOffset uri t := by
  rw [uriOffset, uriOffset, List.length_cons, expandUri, if_neg (List.cons_ne_nil c t), if_neg h,
    List.length_append]
  rfl

end Offsets

/-- Occurrences of `$uri` do not overlap: the four bytes in front of one are not an
occurrence that reaches into it. -/
lemma take_four_append_iff {a : List UInt8} (ha : a ≠ []) (b : List UInt8) :
    (a ++ (bytes "$uri" ++ b)).take 4 = bytes "$uri" ↔ a.take 4 = bytes "$uri" := by
  have huri : bytes "$uri" = [36, 117, 114, 105] := by decide
  match a with
  | [] => exact absurd rfl ha
  | [x] => simp [huri]
  | [x, y] => simp [huri]
  | [x, y, z] => simp [huri]
  | x :: y :: z :: w :: t => simp

/-! ### The cursor -/

section Cursor

variable (uri : List UInt8)

/-- The index does not depend on what was written. -/
lemma expandTryFile_index (fuel : ℕ) (src out out' : List UInt8) (n : ℕ) :
    (expandTryFile uri fuel src out n).2 = (expandTryFile uri fuel src out' n).2 := by
  induction fuel generalizing src out out' n with
  | zero => rfl
  | succ fuel ih =>
    rw [expandTryFile, expandTryFile]
    split_ifs
    · rfl
    · exact ih _ _ _ _
    · exact ih _ _ _ _

/-- Where the cursor stands after some rounds over `src`, from index `n`. -/
def cursor (fuel : ℕ) (src : List UInt8) (n : ℕ) : ℕ := (expandTryFile uri fuel src [] n).2

lemma cursor_stop {fuel : ℕ} {src : List UInt8} {n : ℕ} (h : src = [] ∨ ¬n < 8191) :
    cursor uri fuel src n = n := by
  cases fuel with
  | zero => rfl
  | succ fuel => rw [cursor, expandTryFile, if_pos h]

lemma cursor_uri (fuel : ℕ) (b : List UInt8) {n : ℕ} (hn : n < 8191) :
    cursor uri (fuel + 1) (bytes "$uri" ++ b) n = cursor uri fuel b (n + uri.length) := by
  have hgo : ¬(bytes "$uri" ++ b = [] ∨ ¬n < 8191) :=
    not_or.mpr ⟨uri_append_ne_nil b, not_not.mpr hn⟩
  rw [cursor, expandTryFile, if_neg hgo, if_pos (take_uri b), drop_uri]
  exact expandTryFile_index uri _ _ _ _ _

lemma cursor_byte (fuel : ℕ) {c : UInt8} {t : List UInt8} {n : ℕ} (hn : n < 8191)
    (h : (c :: t).take 4 ≠ bytes "$uri") :
    cursor uri (fuel + 1) (c :: t) n = cursor uri fuel t (n + 1) := by
  rw [cursor, expandTryFile, if_neg (not_or.mpr ⟨List.cons_ne_nil c t, not_not.mpr hn⟩), if_neg h]
  exact expandTryFile_index uri _ _ _ _ _

/-- What stands at the front of a list that begins with a `$uri`. -/
lemma eq_uri_append {src : List UInt8} (h : src.take 4 = bytes "$uri") :
    src = bytes "$uri" ++ src.drop 4 := by
  rw [← h, List.take_append_drop]

/-- The cursor comes to every `$uri` that begins inside the array. -/
lemma exists_cursor_eq (a b : List UInt8) {n : ℕ} (hn : n + uriOffset uri a < 8191) :
    ∃ k, ∀ fuel, cursor uri (k + fuel) (a ++ (bytes "$uri" ++ b)) n
      = cursor uri fuel (bytes "$uri" ++ b) (n + uriOffset uri a) := by
  induction hlen : a.length using Nat.strong_induction_on generalizing a n with
  | _ len ih =>
    cases a with
    | nil =>
      refine ⟨0, fun fuel => ?_⟩
      rw [uriOffset_nil, Nat.zero_add, Nat.add_zero, List.nil_append]
    | cons c t =>
      have hhead := take_four_append_iff (List.cons_ne_nil c t) b
      by_cases huri : (c :: t).take 4 = bytes "$uri"
      · have hsplit := eq_uri_append huri
        have hshort : ((c :: t).drop 4).length < len := by
          rw [← hlen, List.length_drop, List.length_cons]
          omega
        rw [hsplit, uriOffset_uri, ← Nat.add_assoc] at hn ⊢
        obtain ⟨k, hk⟩ := ih _ hshort _ hn rfl
        refine ⟨k + 1, fun fuel => ?_⟩
        rw [List.append_assoc, Nat.add_right_comm, cursor_uri uri _ _ (by omega)]
        exact hk fuel
      · have hbyte := uriOffset_byte uri huri
        rw [hbyte, ← Nat.add_assoc] at hn ⊢
        obtain ⟨k, hk⟩ := ih _ (by rw [← hlen]; exact Nat.lt_succ_self _) t hn rfl
        refine ⟨k + 1, fun fuel => ?_⟩
        rw [List.cons_append] at hhead ⊢
        rw [Nat.add_right_comm, cursor_byte uri _ (by omega) (mt hhead.mp huri)]
        exact hk fuel

/-- Without a `$uri` that straddles the end, the cursor stays inside. -/
lemma cursor_le (fuel : ℕ) {src : List UInt8} {n : ℕ} (hn : n ≤ 8191)
    (h : ∀ a b, src = a ++ (bytes "$uri" ++ b) → n + uriOffset uri a < 8191 →
      n + uriOffset uri a + uri.length ≤ 8191) :
    cursor uri fuel src n ≤ 8191 := by
  induction fuel generalizing src n with
  | zero => exact hn
  | succ fuel ih =>
    by_cases hstop : src = [] ∨ ¬n < 8191
    · rwa [cursor_stop uri hstop]
    · obtain ⟨hne, hlt⟩ := not_or.mp hstop
      obtain ⟨c, t, rfl⟩ := List.exists_cons_of_ne_nil hne
      by_cases huri : (c :: t).take 4 = bytes "$uri"
      · -- the `$uri` at the front fits, and the others come after it
        have hsplit := eq_uri_append huri
        have hfits := h [] _ hsplit (by rw [uriOffset_nil]; exact not_not.mp hlt)
        rw [uriOffset_nil, Nat.add_zero] at hfits
        rw [hsplit, cursor_uri uri fuel _ (not_not.mp hlt)]
        refine ih hfits fun a b hab hbegin => ?_
        have hoff := uriOffset_uri uri a
        have := h (bytes "$uri" ++ a) b (by rw [hsplit, hab, List.append_assoc]) (by omega)
        omega
      · rw [cursor_byte uri fuel (not_not.mp hlt) huri]
        refine ih (not_not.mp hlt) fun a b hab hbegin => ?_
        have hplain : (c :: a).take 4 ≠ bytes "$uri" := by
          rw [hab, ← List.cons_append, take_four_append_iff (List.cons_ne_nil c a)] at huri
          exact huri
        have hoff := uriOffset_byte uri hplain
        have := h (c :: a) b (by rw [hab, List.cons_append]) (by omega)
        omega

end Cursor

/-- **The expansion of an entry of `try_files` is in bounds and exact** as long as no
`$uri` begins inside `tmp_path` and ends outside, and only then: after any number of
rounds the index is at most 8191, and an expansion of at most 8191 bytes is what
`tmp_path` holds. -/
theorem tryFile_inside_iff (uri entry : List UInt8) :
    ((∀ rounds, (expandTryFile uri rounds entry [] 0).2 ≤ 8191) ∧
      ((expandUri uri entry.length entry).length ≤ 8191 →
        (expandTryFile uri entry.length entry [] 0).1 = expandUri uri entry.length entry)) ↔
      ¬Straddles uri entry := by
  constructor
  · rintro ⟨hinside, -⟩ ⟨a, b, rfl, hbegin, hend⟩
    obtain ⟨k, hk⟩ := exists_cursor_eq uri a b (by rwa [Nat.zero_add])
    -- the round that puts the path in for this `$uri`
    have hover : cursor uri (k + 1) (a ++ (bytes "$uri" ++ b)) 0
        = uriOffset uri a + uri.length := by
      rw [hk 1, Nat.zero_add, cursor_uri uri 0 b hbegin]
      rfl
    have hle : cursor uri (k + 1) (a ++ (bytes "$uri" ++ b)) 0 ≤ 8191 := hinside (k + 1)
    omega
  · intro hnone
    refine ⟨fun rounds => cursor_le uri rounds (Nat.zero_le _) fun a b hab hbegin => ?_,
      fun hshort => ?_⟩
    · by_contra hend
      exact hnone ⟨a, b, hab, by omega, by omega⟩
    · rw [expandTryFile_eq uri _ _ _ _ rfl, List.nil_append, List.take_of_length_le hshort]

/-- A file with an entry of `try_files` that names the path three times. -/
def threeUris : List UInt8 := bytes "[server]\ntry_files = $uri$uri$uri\n"

/-- A path of 4095 bytes, put in three times, moves the cursor to index 12285: the
second one ends at 8190 and the third one begins there. -/
theorem exists_cursor_outside :
    ¬∀ (re : List UInt8 → Bool) (file : List UInt8), ∀ s ∈ (Settings.load re file).servers,
      ∀ entry ∈ s.tryFiles, ∀ path : List UInt8, 0 ∉ path → path.length ≤ 4095 →
        (∀ rounds, (expandTryFile path rounds entry [] 0).2 ≤ 8191) ∧
          ((expandUri path entry.length entry).length ≤ 8191 →
            (expandTryFile path entry.length entry [] 0).1
              = expandUri path entry.length entry) := by
  intro h
  have hstored : ∃ s ∈ (Settings.load (fun _ => true) threeUris).servers,
      bytes "$uri$uri$uri" ∈ s.tryFiles := by decide +kernel
  obtain ⟨s, hs, hentry⟩ := hstored
  have hpath : (List.replicate 4095 (47 : UInt8)).length = 4095 := List.length_replicate
  have hinside := (h _ _ s hs _ hentry (List.replicate 4095 47)
    (fun h0 => absurd (List.eq_of_mem_replicate h0) (by decide)) hpath.le).1 3
  have hsplit : bytes "$uri$uri$uri" = bytes "$uri" ++ (bytes "$uri" ++ (bytes "$uri" ++ [])) := by
    decide
  have hover : cursor (List.replicate 4095 47) 3 (bytes "$uri$uri$uri") 0 = 12285 := by
    rw [hsplit, cursor_uri _ _ _ (by omega), cursor_uri _ _ _ (by omega),
      cursor_uri _ _ _ (by omega), hpath]
    rfl
  rw [cursor] at hover
  omega

/-! ### The last byte of the path -/

/-- The index `plen - 1` that is looked at for a slash, in the arithmetic of `usize`. -/
def trailingIndex (req : HttpRequest) : ℕ := (UInt64.ofNat (staticPlen req) - 1).toNat

/-- It is inside `path` exactly if the path is not empty. -/
lemma trailingIndex_lt_iff (req : HttpRequest) : trailingIndex req < 4096 ↔ 1 ≤ staticPlen req := by
  have hle : staticPlen req ≤ 4095 := Nat.min_le_right _ _
  rw [trailingIndex, UInt64.toNat_sub, UInt64.toNat_ofNat']
  have hone : (1 : UInt64).toNat = 1 := rfl
  omega

lemma one_le_staticPlen_iff (req : HttpRequest) : 1 ≤ staticPlen req ↔ req.path.bytes ≠ [] := by
  have hlen : req.path.len = req.path.bytes.length := rfl
  rw [staticPlen, hlen, ← List.length_pos_iff]
  omega

/-! #### The target of a request -/

/-- Behind the first space stands the first byte of a path: neither the second space nor the
question mark of a query. -/
def TargetBegins (data : List UInt8) : Prop :=
  ∀ method rest, data = method ++ 32 :: rest → 32 ∉ method →
    rest.head? ≠ some 32 ∧ rest.head? ≠ some 63

/-- The target of a request that is accepted stands behind its first space. -/
lemma done_uri_eq {data : List UInt8} (hd : (parseFresh data).1 = .done) :
    ∃ method target rest, data = method ++ 32 :: (target ++ 32 :: rest) ∧ 32 ∉ method ∧
      32 ∉ target ∧ (parseFresh data).2.uri.bytes = target := by
  obtain ⟨k, ls, rest, hhead⟩ := exists_head_of_done hd
  obtain ⟨hacc, cur, m, -, -, hstate, -⟩ := hhead.of_done hd
  obtain ⟨s1, hs1⟩ := Option.isSome_iff_exists.mp hacc.1
  obtain ⟨-, -, -, -, i5, -⟩ :=
    storeHeaders_fields s1 (lineHeaders ((data.take k).length + 2) ls)
  obtain ⟨method, target, ver, _, _, hline, hm, ht, rfl, -⟩ := parseRequestLine_eq_some hs1
  refine ⟨method, target, ver ++ data.drop k, ?_, hm, ht, ?_⟩
  · calc data = data.take k ++ data.drop k := (List.take_append_drop k data).symm
      _ = method ++ 32 :: (target ++ 32 :: (ver ++ data.drop k)) := by
        rw [hline]
        simp
  · rw [hstate, headState, hs1]
    simp only [settle, i5]

/-- A text is split at its first separator in one way. -/
lemma split_unique {x : UInt8} {a b c d : List UInt8} (ha : x ∉ a) (hc : x ∉ c)
    (h : a ++ x :: b = c ++ x :: d) : a = c ∧ b = d := by
  induction a generalizing c with
  | nil =>
    cases c with
    | nil => exact ⟨rfl, (List.cons.inj h).2⟩
    | cons z c => exact absurd ((List.cons.inj h).1 ▸ List.mem_cons_self) hc
  | cons y a ih =>
    cases c with
    | nil => exact absurd ((List.cons.inj h).1 ▸ List.mem_cons_self) ha
    | cons z c =>
      rw [List.mem_cons, not_or] at ha hc
      obtain ⟨hyz, hrest⟩ := List.cons.inj h
      obtain ⟨hac, hbd⟩ := ih ha.2 hc.2 hrest
      exact ⟨by rw [hyz, hac], hbd⟩

/-- The path of a request is empty exactly if the target is, or is a query only. -/
lemma done_path_ne_nil_iff {data : List UInt8} (hd : (parseFresh data).1 = .done) :
    (requestPopulate requestCreate (parseFresh data).2 data).path.bytes ≠ [] ↔
      TargetBegins data := by
  obtain ⟨method, target, rest, heq, hm, ht, huri⟩ := done_uri_eq hd
  rw [(requestPopulate_target _ _ _).1, huri]
  constructor
  · intro hne method' rest' heq' hm'
    obtain ⟨rfl, rfl⟩ := split_unique hm hm' (heq.symm.trans heq')
    cases target with
    | nil => exact absurd rfl hne
    | cons c t =>
      rw [List.mem_cons, not_or] at ht
      refine ⟨fun h => ht.1 (Option.some.inj h).symm, fun h => hne ?_⟩
      rw [Option.some.inj h]
      rfl
  · intro hbegins
    obtain ⟨hspace, hquery⟩ := hbegins method _ heq hm
    cases target with
    | nil => exact absurd rfl hspace
    | cons c t =>
      have hc : (c != 63) = true := bne_iff_ne.mpr fun h => hquery (congrArg some h)
      rw [List.takeWhile_cons, if_pos hc]
      exact List.cons_ne_nil _ _

/-! #### The path of a rule -/

/-- Does something of a replacement get to `new_path`? Every byte does, and the text of a group
if it is not empty and shorter than the array. -/
def LeavesText (path : List UInt8) (groups : List (ℤ × ℤ)) : List UInt8 → Prop
  | [] => False
  | [_] => True
  | c :: d :: rest =>
    if c = 36 ∧ isdigit d = true then
      (0 < (groupText path groups d).length ∧ (groupText path groups d).length < 1023) ∨
        LeavesText path groups rest
    else True

section Leaves

variable {path : List UInt8} {groups : List (ℤ × ℤ)}

lemma expandReplacement_ne_nil (fuel : ℕ) (src : List UInt8) {out : List UInt8} (h : out ≠ []) :
    expandReplacement path groups fuel src out ≠ [] :=
  expandReplacement_induction (· ≠ []) fuel (fun _ _ _ hx => List.append_ne_nil_of_left_ne_nil hx _)
    (fun _ _ hx => List.append_ne_nil_of_left_ne_nil hx _) h

/-- The text of the first group, if it is written. -/
lemma PosixGroups.firstGroup (h : PosixGroups path groups) (d : UInt8) :
    (if (groupOf groups d).1 ≠ -1 ∧ (groupOf groups d).2 - (groupOf groups d).1 > 0 ∧
        ([] : List UInt8).length + ((groupOf groups d).2 - (groupOf groups d).1) < 1023 then
      [] ++ Memory.slice path (groupOf groups d).1.toNat (groupOf groups d).2.toNat
    else []) = if (groupText path groups d).length < 1023 then groupText path groups d else [] := by
  by_cases hfits : (groupText path groups d).length < 1023
  · rw [if_pos hfits]
    exact h.append_groupText (by simpa using hfits)
  · have hset : (groupOf groups d).1 ≠ -1 := by
      intro hunset
      rw [groupText, if_pos hunset] at hfits
      exact hfits (by decide)
    have hlen := h.length_groupText hset
    rw [if_neg hfits, if_neg]
    rintro ⟨-, -, hroom⟩
    rw [List.length_nil] at hroom
    omega

lemma expandReplacement_ne_nil_iff (h : PosixGroups path groups) (src : List UInt8) :
    expandReplacement path groups src.length src [] ≠ [] ↔ LeavesText path groups src := by
  fun_induction LeavesText path groups src with
  | case1 => exact iff_of_false (fun hne => hne rfl) id
  | case2 c =>
    rw [List.length_singleton, expandReplacement_byte (by simp) 0 (by decide)]
    exact iff_of_true (List.cons_ne_nil _ _) trivial
  | case3 c d rest hgroup ih =>
    obtain ⟨rfl, hd⟩ := hgroup
    rw [List.length_cons, expandReplacement_group hd _ _ (by decide), h.firstGroup d]
    by_cases htext : 0 < (groupText path groups d).length ∧ (groupText path groups d).length < 1023
    · rw [if_pos htext.2]
      exact iff_of_true (expandReplacement_ne_nil _ _ (List.length_pos_iff.mp htext.1))
        (Or.inl htext)
    · have hnone : (if (groupText path groups d).length < 1023 then groupText path groups d
          else []) = [] := by
        split_ifs with hfits
        · exact List.eq_nil_of_length_eq_zero (by omega)
        · rfl
      rw [hnone, expandReplacement_of_le (by simp), ih]
      exact (or_iff_right htext).symm
  | case4 c d rest hbyte =>
    rw [List.length_cons, expandReplacement_byte (by simpa using hbyte) _ (by decide)]
    exact iff_of_true (expandReplacement_ne_nil _ _ (List.cons_ne_nil _ _)) trivial

lemma zero_notMem_expandReplacement (hpath : ∀ d, 0 ∉ groupText path groups d) (fuel : ℕ)
    {src : List UInt8} (hsrc : 0 ∉ src) : 0 ∉ expandReplacement path groups fuel src [] := by
  refine expandReplacement_induction (0 ∉ ·) fuel (fun x c hc hx => ?_) (fun x d hx => ?_)
    List.not_mem_nil
  · rw [List.mem_append, not_or, List.mem_singleton]
    exact ⟨hx, fun h => hsrc (h ▸ hc)⟩
  · rw [List.mem_append, not_or]
    exact ⟨hx, hpath d⟩

/-- Groups inside the string that `regexec` reads are inside `path_buf`, and have no NUL. -/
lemma PosixGroups.of_cstr (h : PosixGroups (cstr path) groups) :
    PosixGroups path groups ∧ ∀ d, 0 ∉ groupText path groups d := by
  have hpre := cstr_isPrefix path
  have hpath : PosixGroups path groups := by
    refine ⟨h.length_eq, fun g hg hset => ?_⟩
    obtain ⟨h0, hle, hin⟩ := h.inside g hg hset
    have := hpre.length_le
    exact ⟨h0, hle, by omega⟩
  refine ⟨hpath, fun d => ?_⟩
  by_cases hset : (groupOf groups d).1 = -1
  · rw [groupText, if_pos hset]
    exact List.not_mem_nil
  · obtain ⟨h0, hle, hin⟩ := h.inside_groupOf hset
    obtain ⟨rest, hrest⟩ := hpre
    have hsame : groupText path groups d = groupText (cstr path) groups d := by
      rw [groupText_eq_slice d hset, groupText_eq_slice d hset, Memory.slice, Memory.slice]
      nth_rewrite 1 [← hrest]
      rw [List.drop_append_of_le_length (by omega),
        List.take_append_of_le_length (by rw [List.length_drop]; omega)]
    rw [hsame]
    exact zero_notMem_groupText (zero_notMem_cstr path) d

end Leaves

/-- The first rule that matches a path, with the groups of the match. -/
def firstMatch (cells : List RuleCell) (path : List UInt8) : Option (RuleCell × List (ℤ × ℤ)) :=
  cells.findSome? fun c => (c.re (cstr (path.take 1023))).map fun groups => (c, groups)

/-- The path that a rule gives. -/
def RuleCell.rewritten (r : RuleCell) (groups : List (ℤ × ℤ)) (path : List UInt8) : List UInt8 :=
  cstr (expandReplacement (path.take 1023) groups (r.replacement.str 0).length
    (r.replacement.str 0) [])

lemma rewritePath_eq (cells : List RuleCell) (path : List UInt8) :
    rewritePath (cells.map RuleCell.rule) path =
      (firstMatch cells path).map fun m => m.1.rewritten m.2 path := by
  rw [rewritePath, firstMatch, List.findSome?_map, List.map_findSome?]
  congr 1
  funext c
  rw [Function.comp_apply, Function.comp_apply, Option.map_map]
  rfl

/-- Where POSIX holds, the path that a rule gives is empty if nothing of its replacement is
written. -/
lemma RuleCell.rewritten_ne_nil_iff (r : RuleCell) {groups : List (ℤ × ℤ)} {path : List UInt8}
    (h : PosixGroups (cstr (path.take 1023)) groups) :
    r.rewritten groups path ≠ [] ↔
      LeavesText (path.take 1023) groups (r.replacement.str 0) := by
  obtain ⟨hpath, hnul⟩ := h.of_cstr
  rw [rewritten, cstr_eq_self_iff.mpr (zero_notMem_expandReplacement hnul _
    (FixedArray.zero_notMem_str _ _)), expandReplacement_ne_nil_iff hpath]

namespace St

/-- The file server gets a path: the rule that rewrites it leaves some text, if one matches and
the arena has room for what it gives, and otherwise the target of the request begins with a
path. -/
def PathGiven (st : St) (cells : List RuleCell) (data : List UInt8) (path : List UInt8) : Prop :=
  match firstMatch cells path with
  | none => TargetBegins data
  | some (cell, groups) =>
    if (st.alloc ((cell.rewritten groups path).length + 1) arenaAlign).1 = none then
      TargetBegins data
    else LeavesText (path.take 1023) groups (cell.replacement.str 0)

/-- **The path of the file server is not empty**, and the index of its last byte is inside the
array, exactly if a path was given. -/
theorem plen_pos_iff (st : St) (cells : List RuleCell) (data : List UInt8) (req : HttpRequest)
    (hdone : (parseFresh data).1 = .done)
    (hreq : req = requestPopulate requestCreate (parseFresh data).2 data)
    (hrules : (st.ws.hctx.config.server (st.blockOf req)).rewrite = cells.map RuleCell.rule)
    (hposix : ∀ cell ∈ cells, ∀ groups, cell.re (cstr (req.path.bytes.take 1023)) = some groups →
      PosixGroups (cstr (req.path.bytes.take 1023)) groups) :
    (1 ≤ staticPlen (st.arrival req).1 ∧ trailingIndex (st.arrival req).1 < 4096) ↔
      st.PathGiven cells data req.path.bytes := by
  have htarget : req.path.bytes ≠ [] ↔ TargetBegins data := hreq ▸ done_path_ne_nil_iff hdone
  rw [trailingIndex_lt_iff, and_self, one_le_staticPlen_iff, arrival_path_eq, hrules,
    rewritePath_eq, PathGiven]
  cases hfirst : firstMatch cells req.path.bytes with
  | none => exact htarget
  | some m =>
    obtain ⟨cell, groups⟩ := m
    obtain ⟨c, hc, hmatch⟩ := List.exists_of_findSome?_eq_some hfirst
    obtain ⟨groups', hgroups, heq⟩ := Option.map_eq_some_iff.mp hmatch
    obtain ⟨rfl, rfl⟩ := Prod.mk.inj heq
    have hnew := c.rewritten_ne_nil_iff (hposix c hc groups' hgroups)
    simp only [Option.map_some]
    split_ifs
    · exact htarget
    · exact hnew

end St

/-! #### A server of files -/

/-- A server that has files and nothing else. -/
def filesServer : ServerConfig := { backendServer with
  staticRoot := bytes "/srv"
  proxyEnabled := false
  cacheEnabled := false }

/-- A client of this server. -/
def filesClient : St :=
  { bareClient with
    ws := { bareClient.ws with
      hctx := { bareClient.ws.hctx with config := ⟨[filesServer], bytes "/metrics"⟩ } } }

/-- If there is one server block, it serves every request. -/
lemma St.server_blockOf_of_singleton {st : St} {srv : ServerConfig} (req : HttpRequest)
    (h : st.ws.hctx.config.servers = [srv]) :
    st.ws.hctx.config.server (st.blockOf req) = srv := by
  have hlt : st.blockOf req < st.ws.hctx.config.servers.length :=
    selectServer_lt (by simp [h]) _
  rw [h, List.length_singleton, Nat.lt_one_iff] at hlt
  rw [hlt, Config.server, h]
  rfl

lemma filesClient_server (req : HttpRequest) :
    filesClient.ws.hctx.config.server (filesClient.blockOf req) = filesServer :=
  St.server_blockOf_of_singleton req rfl

/-- A request for a target. -/
def getLine (target : String) : List UInt8 :=
  List.flatten [bytes "GET ", bytes target, bytes " HTTP/1.1", crlf, crlf]

/-- The request for the root, at a server that rewrites it to `/v2/`: the rule matches, the
replacement leaves text, and the file server gets a path. -/
theorem plen_pos_rootRule :
    1 ≤ staticPlen (rewritingClient.arrival
      (requestPopulate requestCreate (parseFresh (getLine "/")).2 (getLine "/"))).1 := by
  generalize hreq : requestPopulate requestCreate (parseFresh (getLine "/")).2 (getLine "/") = req
  have hpath : req.path.bytes = bytes "/" := by
    rw [← hreq]
    decide +kernel
  have hserver : rewritingClient.ws.hctx.config.server (rewritingClient.blockOf req) =
      rewritingServer := St.server_blockOf_of_singleton req rfl
  have hfirst : firstMatch [rootRule] (bytes "/") =
      some (rootRule, (0, 1) :: List.replicate 9 (-1, -1)) := rfl
  refine ((rewritingClient.plen_pos_iff [rootRule] (getLine "/") req (by decide +kernel)
    hreq.symm (by rw [hserver]; rfl) ?_).mpr ?_).1
  · rw [hpath]
    intro cell hcell groups hgroups
    obtain rfl := List.mem_singleton.mp hcell
    obtain rfl := Option.some.inj hgroups
    exact ⟨rfl, by decide⟩
  · have hroom : (rootRule.rewritten ((0, 1) :: List.replicate 9 (-1, -1))
        (bytes "/")).length + 1 ≤ 1024 := by decide +kernel
    have hreplacement : rootRule.replacement.str 0 = 47 :: 118 :: bytes "2$0" := by
      decide +kernel
    simp only [St.PathGiven, hpath, hfirst]
    rw [if_neg (rewritingClient_arenaGives _ hroom), hreplacement]
    simp [LeavesText]

/-- **An empty path.** A request line with two spaces in a row is accepted, and the byte that is
looked at stands before the array. -/
theorem exists_empty_path :
    ¬∀ (st : St) (data : List UInt8) (req : HttpRequest), (parseFresh data).1 = .done →
      req = requestPopulate requestCreate (parseFresh data).2 data →
      (st.ws.hctx.config.server (st.blockOf req)).tryFiles = [] →
      (st.ws.hctx.config.server (st.blockOf req)).staticRoot ≠ [] →
      1 ≤ staticPlen (st.arrival req).1 ∧ trailingIndex (st.arrival req).1 < 4096 := by
  intro h
  have hempty : (requestPopulate requestCreate (parseFresh (getLine "")).2
      (getLine "")).path.bytes = [] := by decide +kernel
  have hplen := (h filesClient (getLine "") _ (by decide +kernel) rfl
    (by rw [filesClient_server]; rfl) (by rw [filesClient_server]; decide)).1
  rw [one_le_staticPlen_iff, St.arrival_path_eq, filesClient_server] at hplen
  exact hplen hempty

end Nproxy
