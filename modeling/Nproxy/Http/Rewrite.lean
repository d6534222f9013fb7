import Nproxy.Http.Framed
import Nproxy.Lib.Arrays

/-!
URL rewriting.

`handler_dispatch` looks for the first rule that matches the path, and expands its
replacement in the array `new_path`, with one bound for a copied byte and another one for
the text of a group.

* `expandLoop` is the loop over the arrays; a step that reads or stores outside gives
  `none`. `exists_expandLoop` says that no step does, and that what it leaves in
  `new_path` is `expandReplacement`, the loop over lists of the dispatcher.
* `idealExpansion` is what `docs/rewriting.md` promises of a replacement.
* `rewrite_first_match`: the first rule that matches gives the path, in bounds, and
  exactly if the ideal expansion has at most 1022 bytes.
-/

namespace Nproxy

open FixedArray

/-! ### Rules and groups -/

/-- `rewrite_rule_t`: what the compiled pattern does, and the array with the
replacement, which ends with a NUL. -/
structure RuleCell where
  re : List UInt8 → Option (List (ℤ × ℤ))
  replacement : Chars 512
  closed : replacement.Closed

/-- The rule, as the dispatcher reads it. -/
def RuleCell.rule (r : RuleCell) : RewriteRule := ⟨r.re, r.replacement.str 0⟩

/-- What POSIX says of the pairs that `regexec` stores: there are ten, one whose first
offset is -1 is unset, and the others are inside the string. -/
structure PosixGroups (path : List UInt8) (groups : List (ℤ × ℤ)) : Prop where
  length_eq : groups.length = 10
  inside : ∀ g ∈ groups, g.1 ≠ -1 → 0 ≤ g.1 ∧ g.1 ≤ g.2 ∧ g.2 ≤ path.length

/-- `matches[d - '0']`. -/
def groupOf (groups : List (ℤ × ℤ)) (d : UInt8) : ℤ × ℤ := groups.getD (d.toNat - 48) (-1, -1)

/-- The text of the group with the digit `d`, and nothing if it is unset. -/
def groupText (path : List UInt8) (groups : List (ℤ × ℤ)) (d : UInt8) : List UInt8 :=
  if (groupOf groups d).1 = -1 then []
  else Memory.slice path (groupOf groups d).1.toNat (groupOf groups d).2.toNat

/-- The ideal expansion: each `$d` is the text of its group, and every other byte is
copied, a `$` without a digit behind it as well. -/
def idealExpansion (path : List UInt8) (groups : List (ℤ × ℤ)) : List UInt8 → List UInt8
  | [] => []
  | [c] => [c]
  | c :: d :: rest =>
    if c = 36 ∧ isdigit d = true then groupText path groups d ++ idealExpansion path groups rest
    else c :: idealExpansion path groups (d :: rest)

/-! ### The loop in its arrays -/

/-- `path_buf`: the path with a NUL, in an array that held something before. -/
def pathBuf (junk : Chars 1024) (path : List UInt8) : Option (Chars 1024) :=
  (junk.storeAll 0 (path.take 1023)).bind (·.store (min path.length 1023) 0)

/-- So many rounds of the loop that fills `new_path`, with the indices of `src` and
`dest`. -/
def expandLoop (buf : Chars 1024) (groups : List (ℤ × ℤ)) (repl : Chars 512) :
    ℕ → ℕ → Chars 1024 → ℕ → Option (Chars 1024 × ℕ)
  | 0, _, new, dest => some (new, dest)
  | rounds + 1, src, new, dest =>
    (repl.get? src).bind fun c =>
      if c = 0 ∨ ¬dest < 1023 then some (new, dest)
      else
        -- `*(src + 1)` is read behind a dollar only
        (if c = 36 then repl.get? (src + 1) else some 0).bind fun d =>
          if c = 36 ∧ isdigit d = true then
            let g := groupOf groups d
            let len := g.2 - g.1
            if g.1 ≠ -1 ∧ len > 0 ∧ dest + len < 1023 then
              (buf.loadAll g.1.toNat len.toNat).bind fun text =>
                (new.storeAll dest text).bind fun new =>
                  expandLoop buf groups repl rounds (src + 2) new (dest + len.toNat)
            else expandLoop buf groups repl rounds (src + 2) new dest
          else
            (new.store dest c).bind fun new =>
              expandLoop buf groups repl rounds (src + 1) new (dest + 1)

/-- `new_path` when the loop has ended: the replacement has at most 511 bytes, and every
round takes one of them or two. -/
def RuleCell.newPath (r : RuleCell) (junk : Chars 1024) (path : List UInt8)
    (groups : List (ℤ × ℤ)) : Option (Chars 1024) := do
  let buf ← pathBuf junk path
  let (new, dest) ← expandLoop buf groups r.replacement 512 0 (.replicate 1024 0) 0
  new.store dest 0

/-! ### The loop over lists -/

section Lists

variable {path : List UInt8} {groups : List (ℤ × ℤ)}

lemma expandReplacement_group {d : UInt8} (hd : isdigit d = true) (fuel : ℕ) (rest : List UInt8)
    {out : List UInt8} (hout : out.length < 1023) :
    expandReplacement path groups (fuel + 1) (36 :: d :: rest) out =
      expandReplacement path groups fuel rest
        (if (groupOf groups d).1 ≠ -1 ∧ (groupOf groups d).2 - (groupOf groups d).1 > 0 ∧
            out.length + ((groupOf groups d).2 - (groupOf groups d).1) < 1023 then
          out ++ Memory.slice path (groupOf groups d).1.toNat (groupOf groups d).2.toNat
        else out) := by
  rw [expandReplacement, if_neg (not_not.mpr hout), if_pos ⟨rfl, by simpa using hd⟩]
  rfl

/-- The digit that `isdigit(src[1])` sees. -/
lemma exists_digit_cons {t : List UInt8} (h : t.head?.any isdigit = true) :
    ∃ d rest, t = d :: rest ∧ isdigit d = true := by
  cases t with
  | nil => simp at h
  | cons d rest => exact ⟨d, rest, rfl, by simpa using h⟩

lemma expandReplacement_byte {c : UInt8} {t : List UInt8}
    (hc : ¬(c = 36 ∧ (t.head?.any isdigit) = true)) (fuel : ℕ) {out : List UInt8}
    (hout : out.length < 1023) :
    expandReplacement path groups (fuel + 1) (c :: t) out =
      expandReplacement path groups fuel t (out ++ [c]) := by
  rw [expandReplacement, if_neg (not_not.mpr hout), if_neg hc]

lemma expandReplacement_nil (fuel : ℕ) (out : List UInt8) :
    expandReplacement path groups fuel [] out = out := by
  cases fuel <;> rfl

lemma expandReplacement_full (fuel : ℕ) (src : List UInt8) {out : List UInt8}
    (hout : ¬out.length < 1023) : expandReplacement path groups fuel src out = out := by
  cases fuel with
  | zero => rfl
  | succ fuel =>
    cases src with
    | nil => rfl
    | cons c t => rw [expandReplacement, if_pos hout]

/-- More rounds than bytes change nothing. -/
lemma expandReplacement_of_le {fuel : ℕ} {src : List UInt8} (h : src.length ≤ fuel)
    (out : List UInt8) :
    expandReplacement path groups fuel src out =
      expandReplacement path groups src.length src out := by
  induction fuel using Nat.strong_induction_on generalizing src out with
  | _ fuel ih =>
    rcases Nat.eq_or_lt_of_le h with heq | hlt
    · rw [heq]
    · obtain ⟨fuel, rfl⟩ : ∃ k, fuel = k + 1 := ⟨fuel - 1, by omega⟩
      cases src with
      | nil => rw [expandReplacement_nil, expandReplacement_nil]
      | cons c t =>
        by_cases hout : out.length < 1023
        · have ht : t.length < fuel := Nat.lt_of_succ_lt_succ hlt
          by_cases hc : c = 36 ∧ (t.head?.any isdigit) = true
          · obtain ⟨rfl, hd⟩ := hc
            obtain ⟨d, rest, rfl, hd⟩ := exists_digit_cons hd
            rw [List.length_cons, expandReplacement_group hd _ _ hout,
              expandReplacement_group hd _ _ hout, ih fuel (by omega) (by simp at ht; omega),
              ih (d :: rest).length (by omega) (by simp)]
          · rw [List.length_cons, expandReplacement_byte hc _ hout,
              expandReplacement_byte hc _ hout, ih fuel (by omega) ht.le]
        · rw [expandReplacement_full _ _ hout, expandReplacement_full _ _ hout]

/-- A group that is set is inside the path. -/
lemma PosixGroups.inside_groupOf (h : PosixGroups path groups) {d : UInt8}
    (hset : (groupOf groups d).1 ≠ -1) :
    0 ≤ (groupOf groups d).1 ∧ (groupOf groups d).1 ≤ (groupOf groups d).2 ∧
      (groupOf groups d).2 ≤ path.length := by
  refine h.inside _ ?_ hset
  rw [groupOf, List.getD_eq_getElem?_getD] at hset ⊢
  cases hget : groups[d.toNat - 48]? with
  | none => rw [hget] at hset; exact absurd rfl hset
  | some g => exact List.mem_of_getElem? hget

lemma groupText_eq_slice (d : UInt8) (hset : (groupOf groups d).1 ≠ -1) :
    groupText path groups d =
      Memory.slice path (groupOf groups d).1.toNat (groupOf groups d).2.toNat := by
  rw [groupText, if_neg hset]

/-- What holds of the bytes written so far and is kept when a byte of the replacement or the text
of a group is appended holds in the end. -/
lemma expandReplacement_induction (P : List UInt8 → Prop) (fuel : ℕ) {src out : List UInt8}
    (hbyte : ∀ x, ∀ c ∈ src, P x → P (x ++ [c]))
    (hgroup : ∀ x d, P x → P (x ++ groupText path groups d)) (hout : P out) :
    P (expandReplacement path groups fuel src out) := by
  induction fuel generalizing src out with
  | zero => exact hout
  | succ fuel ih =>
    cases src with
    | nil => exact hout
    | cons c t =>
      by_cases hroom : out.length < 1023
      · by_cases hc : c = 36 ∧ (t.head?.any isdigit) = true
        · obtain ⟨rfl, hd⟩ := hc
          obtain ⟨d, rest, rfl, hd⟩ := exists_digit_cons hd
          rw [expandReplacement_group hd _ _ hroom]
          refine ih (fun x c hc => hbyte x c (by simp [hc])) ?_
          split_ifs with hcopy
          · rw [← groupText_eq_slice d hcopy.1]
            exact hgroup out d hout
          · exact hout
        · rw [expandReplacement_byte hc _ hroom]
          exact ih (fun x c hc => hbyte x c (by simp [hc])) (hbyte out c (by simp) hout)
      · rwa [expandReplacement_full _ _ hroom]

lemma PosixGroups.length_groupText (h : PosixGroups path groups) {d : UInt8}
    (hset : (groupOf groups d).1 ≠ -1) :
    ((groupText path groups d).length : ℤ) =
      (groupOf groups d).2 - (groupOf groups d).1 := by
  obtain ⟨hpos, hle, hin⟩ := h.inside_groupOf hset
  rw [groupText, if_neg hset, Memory.length_slice (by omega)]
  omega

/-- The text of a group is appended, where it fits. -/
lemma PosixGroups.append_groupText (h : PosixGroups path groups) {d : UInt8} {out : List UInt8}
    (hfits : out.length + (groupText path groups d).length < 1023) :
    (if (groupOf groups d).1 ≠ -1 ∧
        (groupOf groups d).2 - (groupOf groups d).1 > 0 ∧
        out.length + ((groupOf groups d).2 - (groupOf groups d).1) < 1023 then
      out ++ Memory.slice path (groupOf groups d).1.toNat
        (groupOf groups d).2.toNat
    else out) = out ++ groupText path groups d := by
  by_cases hset : (groupOf groups d).1 = -1
  · rw [if_neg (fun hc => hc.1 hset), groupText, if_pos hset, List.append_nil]
  · have hlen := h.length_groupText hset
    by_cases hpos : (groupOf groups d).2 - (groupOf groups d).1 > 0
    · rw [if_pos ⟨hset, hpos, by omega⟩, groupText, if_neg hset]
    · have hnil : groupText path groups d = [] := List.eq_nil_of_length_eq_zero (by omega)
      rw [if_neg (fun hc => hpos hc.2.1), hnil, List.append_nil]

/-- **Exactness**: an ideal expansion of at most 1022 bytes is what the loop writes. -/
lemma expandReplacement_eq_ideal (h : PosixGroups path groups) (src out : List UInt8)
    (hshort : out.length + (idealExpansion path groups src).length ≤ 1022) :
    expandReplacement path groups src.length src out = out ++ idealExpansion path groups src := by
  fun_induction idealExpansion path groups src generalizing out with
  | case1 => rw [expandReplacement_nil, List.append_nil]
  | case2 c =>
    rw [List.length_singleton, expandReplacement_byte (by simp) 0 (by omega)]
    rfl
  | case3 c d rest hgroup ih =>
    obtain ⟨rfl, hd⟩ := hgroup
    rw [List.length_append] at hshort
    rw [List.length_cons, expandReplacement_group hd _ _ (by omega),
      h.append_groupText (by omega), expandReplacement_of_le (by simp),
      ih _ (by rw [List.length_append]; omega), List.append_assoc]
  | case4 c d rest hbyte ih =>
    rw [List.length_cons] at hshort
    rw [List.length_cons, expandReplacement_byte (by simpa using hbyte) _ (by omega),
      ih _ (by rw [List.length_append, List.length_singleton]; omega), List.append_assoc]
    rfl

lemma zero_notMem_groupText (hpath : 0 ∉ path) (d : UInt8) : 0 ∉ groupText path groups d := by
  rw [groupText]
  split_ifs
  · exact List.not_mem_nil
  · exact fun h => hpath (List.mem_of_mem_drop (List.mem_of_mem_take h))

lemma zero_notMem_idealExpansion (hpath : 0 ∉ path) {src : List UInt8} (hsrc : 0 ∉ src) :
    0 ∉ idealExpansion path groups src := by
  fun_induction idealExpansion path groups src with
  | case1 => exact hsrc
  | case2 c => exact hsrc
  | case3 c d rest hgroup ih =>
    rw [List.mem_append, not_or]
    exact ⟨zero_notMem_groupText hpath d,
      ih fun h => hsrc (List.mem_cons_of_mem _ (List.mem_cons_of_mem _ h))⟩
  | case4 c d rest hbyte ih =>
    rw [List.mem_cons, not_or] at hsrc ⊢
    exact ⟨hsrc.1, ih hsrc.2⟩

end Lists

/-! ### The loop stays inside -/

section Arrays

variable {path tail : List UInt8} {groups : List (ℤ × ℤ)} {buf : Chars 1024} {repl : Chars 512}

/-- A group that is set is read inside `path_buf`. -/
lemma PosixGroups.loadAll_eq (h : PosixGroups path groups) (hbuf : buf.elems = path ++ 0 :: tail)
    {d : UInt8} (hset : (groupOf groups d).1 ≠ -1) :
    buf.loadAll (groupOf groups d).1.toNat
      ((groupOf groups d).2 - (groupOf groups d).1).toNat
        = some (groupText path groups d) := by
  obtain ⟨hpos, hle, hin⟩ := h.inside_groupOf hset
  have hsize : path.length < 1024 := by
    have := buf.length_eq
    rw [hbuf, List.length_append, List.length_cons] at this
    omega
  have hcut : ((groupOf groups d).2 - (groupOf groups d).1).toNat
      = (groupOf groups d).2.toNat - (groupOf groups d).1.toNat := by omega
  rw [loadAll, if_pos (by omega), hbuf, hcut, groupText, if_neg hset, Memory.slice,
    List.drop_append_of_le_length (by omega), List.take_append_of_le_length]
  rw [List.length_drop]
  omega

section Rounds

variable {c : UInt8} {t : List UInt8} {src dest : ℕ} (hends : repl.Ends src)
  (hstr : repl.str src = c :: t) (rounds : ℕ) (new : Chars 1024)
include hends hstr

/-- The byte behind a byte of the replacement. -/
lemma ends_next : repl.str (src + 1) = t ∧ repl.Ends (src + 1) := by
  have hlen : 1 ≤ (repl.str src).length := by rw [hstr]; simp
  exact ⟨by rw [str_add hlen, hstr]; rfl, hends.add hlen⟩

lemma get?_byte : repl.get? src = some c ∧ c ≠ 0 := by
  have hget := hends.get?_eq
  rw [hstr] at hget
  have hnul := zero_notMem_str repl src
  rw [hstr] at hnul
  exact ⟨hget, fun h0 => hnul (h0 ▸ List.mem_cons_self)⟩

lemma get?_next : (if c = 36 then repl.get? (src + 1) else some 0)
    = some (if c = 36 then t.headD 0 else 0) := by
  obtain ⟨hnext, hends'⟩ := ends_next hends hstr
  split_ifs
  · rw [hends'.get?_eq, hnext]
  · rfl

lemma expandLoop_full (hdest : ¬dest < 1023) :
    expandLoop buf groups repl (rounds + 1) src new dest = some (new, dest) := by
  rw [expandLoop, (get?_byte hends hstr).1, Option.bind_some, if_pos (.inr hdest)]

lemma expandLoop_byte (hdest : dest < 1023) (hc : ¬(c = 36 ∧ (t.head?.any isdigit) = true)) :
    expandLoop buf groups repl (rounds + 1) src new dest =
      (new.store dest c).bind fun new =>
        expandLoop buf groups repl rounds (src + 1) new (dest + 1) := by
  obtain ⟨hget, hc0⟩ := get?_byte hends hstr
  have hplain : ¬(c = 36 ∧ isdigit (if c = 36 then t.headD 0 else 0) = true) := by
    rintro ⟨rfl, hd⟩
    rw [if_pos rfl] at hd
    refine hc ⟨rfl, ?_⟩
    cases t with
    | nil => exact absurd hd (by decide)
    | cons d rest => exact hd
  rw [expandLoop, hget, Option.bind_some, if_neg (not_or.mpr ⟨hc0, not_not.mpr hdest⟩),
    get?_next hends hstr, Option.bind_some, if_neg hplain]

end Rounds

lemma expandLoop_group {d : UInt8} {rest : List UInt8} {src dest : ℕ} (hends : repl.Ends src)
    (hstr : repl.str src = 36 :: d :: rest) (hd : isdigit d = true) (rounds : ℕ)
    (new : Chars 1024) (hdest : dest < 1023) :
    expandLoop buf groups repl (rounds + 1) src new dest =
      if (groupOf groups d).1 ≠ -1 ∧ (groupOf groups d).2 - (groupOf groups d).1 > 0 ∧
          dest + ((groupOf groups d).2 - (groupOf groups d).1) < 1023 then
        (buf.loadAll (groupOf groups d).1.toNat
          ((groupOf groups d).2 - (groupOf groups d).1).toNat).bind fun text =>
            (new.storeAll dest text).bind fun new =>
              expandLoop buf groups repl rounds (src + 2) new
                (dest + ((groupOf groups d).2 - (groupOf groups d).1).toNat)
      else expandLoop buf groups repl rounds (src + 2) new dest := by
  obtain ⟨hget, hc0⟩ := get?_byte hends hstr
  rw [expandLoop, hget, Option.bind_some, if_neg (not_or.mpr ⟨hc0, not_not.mpr hdest⟩),
    get?_next hends hstr, Option.bind_some, if_pos ⟨rfl, hd⟩]
  rfl

/-- **The loop stays inside its arrays**, whatever the number of rounds, and `new_path` holds
what the loop over lists computes. -/
lemma exists_expandLoop (h : PosixGroups path groups) (hbuf : buf.elems = path ++ 0 :: tail)
    (rounds src : ℕ) (hends : repl.Ends src) (new : Chars 1024) (out : List UInt8)
    (hout : out.length ≤ 1023) (hnew : new.elems.take out.length = out) :
    ∃ new' out', expandReplacement path groups rounds (repl.str src) out = out' ∧
      expandLoop buf groups repl rounds src new out.length = some (new', out'.length) ∧
      out'.length ≤ 1023 ∧ new'.elems.take out'.length = out' := by
  induction rounds generalizing src new out with
  | zero => exact ⟨new, out, rfl, rfl, hout, hnew⟩
  | succ rounds ih =>
    cases hstr : repl.str src with
    | nil =>
      have hget := hends.get?_eq
      rw [hstr] at hget
      exact ⟨new, out, rfl, by rw [expandLoop, hget]; rfl, hout, hnew⟩
    | cons c t =>
      by_cases hroom : out.length < 1023
      · by_cases hc : c = 36 ∧ (t.head?.any isdigit) = true
        · obtain ⟨rfl, hd⟩ := hc
          obtain ⟨d, rest, rfl, hd⟩ := exists_digit_cons hd
          obtain ⟨hstr₁, hends₁⟩ := ends_next hends hstr
          obtain ⟨hstr₂, hends₂⟩ := ends_next hends₁ hstr₁
          rw [expandReplacement_group hd _ _ hroom, expandLoop_group hends hstr hd _ _ hroom,
            ← hstr₂]
          split_ifs with hcopy
          · -- the text of the group goes to the end of what is there
            obtain ⟨hset, hpos, hfits⟩ := hcopy
            have hlen := h.length_groupText hset
            obtain ⟨new', hstore, htake⟩ := new.exists_storeAll_take out.length
              (groupText path groups d) (by omega)
            have hsum : out.length + ((groupOf groups d).2 - (groupOf groups d).1).toNat
                = (out ++ groupText path groups d).length := by
              rw [List.length_append]
              omega
            rw [h.loadAll_eq hbuf hset, Option.bind_some, hstore, Option.bind_some, hsum,
              ← groupText_eq_slice d hset]
            refine ih (src + 2) hends₂ new' _ ?_ ?_
            · rw [List.length_append]
              omega
            · rw [List.length_append, htake, hnew]
          · exact ih (src + 2) hends₂ new out hout hnew
        · obtain ⟨hstr₁, hends₁⟩ := ends_next hends hstr
          obtain ⟨new', hstore, -⟩ := new.exists_store (show out.length < 1024 by omega) c
          have hsum : out.length + 1 = (out ++ [c]).length := by
            rw [List.length_append, List.length_singleton]
          rw [expandReplacement_byte hc _ hroom, expandLoop_byte hends hstr _ _ hroom hc, hstore,
            Option.bind_some, hsum, ← hstr₁]
          refine ih (src + 1) hends₁ new' _ (by omega) ?_
          rw [← hsum, take_succ_of_store hstore, hnew]
      · refine ⟨new, out, expandReplacement_full _ _ hroom, ?_, hout, hnew⟩
        exact expandLoop_full hends hstr _ _ hroom

end Arrays

lemma exists_pathBuf (junk : Chars 1024) {path : List UInt8} (hlen : path.length ≤ 1023) :
    ∃ buf tail, pathBuf junk path = some buf ∧ buf.elems = path ++ 0 :: tail := by
  obtain ⟨a, ha, hae⟩ := junk.exists_storeAll 0 (path.take 1023) (by rw [List.length_take]; omega)
  rw [List.take_of_length_le hlen, List.take_zero, List.nil_append, Nat.zero_add] at hae
  have hmin : min path.length 1023 = path.length := by omega
  obtain ⟨b, hb, hbe⟩ := a.exists_store (show path.length < 1024 by omega) 0
  obtain ⟨d, tail, htail⟩ : ∃ d tail, junk.elems.drop path.length = d :: tail :=
    List.exists_cons_of_ne_nil (by
      rw [Ne, List.drop_eq_nil_iff, junk.length_eq]
      omega)
  refine ⟨b, tail, by rw [pathBuf, ha, Option.bind_some, hmin, hb], ?_⟩
  rw [hbe, hae, htail, List.set_append_right _ _ le_rfl, Nat.sub_self, List.set_cons_zero]

section Rule

variable (r : RuleCell) (junk : Chars 1024) {path : List UInt8} {groups : List (ℤ × ℤ)}
  (hlen : path.length ≤ 1023) (h : PosixGroups path groups)
include hlen h

/-- Any number of rounds stays inside. -/
lemma RuleCell.expandLoop_inside : ∃ buf, pathBuf junk path = some buf ∧ ∀ rounds, ∃ new dest,
    expandLoop buf groups r.replacement rounds 0 (.replicate 1024 0) 0 = some (new, dest) ∧
      dest ≤ 1023 := by
  obtain ⟨buf, tail, hbuf, hbytes⟩ := exists_pathBuf junk hlen
  refine ⟨buf, hbuf, fun rounds => ?_⟩
  obtain ⟨new, out, -, hloop, hout, -⟩ := exists_expandLoop h hbytes rounds 0 r.closed.ends
    (.replicate 1024 0) [] (Nat.zero_le _) rfl
  exact ⟨new, out.length, hloop, hout⟩

lemma RuleCell.exists_newPath : ∃ new, r.newPath junk path groups = some new ∧ new.Ends 0 ∧
    new.str 0 = cstr (expandReplacement path groups (r.replacement.str 0).length
      (r.replacement.str 0) []) := by
  obtain ⟨buf, tail, hbuf, hbytes⟩ := exists_pathBuf junk hlen
  obtain ⟨new, out, hexp, hloop, hout, htake⟩ := exists_expandLoop h hbytes 512 0 r.closed.ends
    (.replicate 1024 0) [] (Nat.zero_le _) rfl
  obtain ⟨b, hb, -⟩ := new.exists_store (show out.length < 1024 by omega) 0
  have hrounds : (r.replacement.str 0).length ≤ 512 := by
    have := r.closed.ends
    rw [FixedArray.Ends] at this
    omega
  rw [List.length_nil] at hloop
  refine ⟨b, ?_, ends_of_store_zero hb (Nat.zero_le _), ?_⟩
  · simp [newPath, hbuf, hloop, hb]
  · rw [← expandReplacement_of_le hrounds, hexp, str_of_store_zero hb (Nat.zero_le _), Nat.sub_zero,
      str, List.drop_zero, List.take_takeWhile, htake]
    rfl

/-- An ideal expansion of at most 1022 bytes is what `new_path` holds. -/
lemma RuleCell.str_newPath_eq_ideal {new : Chars 1024}
    (hnew : r.newPath junk path groups = some new) (hnul : 0 ∉ path)
    (hshort : (idealExpansion path groups (r.replacement.str 0)).length ≤ 1022) :
    new.str 0 = idealExpansion path groups (r.replacement.str 0) := by
  obtain ⟨new', hnew', -, hstr⟩ := r.exists_newPath junk hlen h
  obtain rfl := Option.some.inj (hnew.symm.trans hnew')
  rw [hstr, expandReplacement_eq_ideal h _ [] (by simpa using hshort), List.nil_append,
    cstr_eq_self_iff]
  exact zero_notMem_idealExpansion hnul (zero_notMem_str _ _)

end Rule

/-! ### The dispatcher -/

section Rules

variable {cells before after : List RuleCell} {cell : RuleCell} {path : List UInt8}
  {groups : List (ℤ × ℤ)}

lemma rewritePath_of_none (h : ∀ c ∈ cells, c.re path = none) (hnul : 0 ∉ path)
    (hlen : path.length ≤ 1023) : rewritePath (cells.map RuleCell.rule) path = none := by
  rw [rewritePath, List.take_of_length_le hlen, cstr_eq_self_iff.mpr hnul, List.findSome?_map,
    List.findSome?_eq_none_iff]
  intro c hc
  rw [Function.comp_apply, show c.rule.re path = none from h c hc, Option.map_none]

/-- The rules in front of one that matches, and those behind it, do nothing. -/
lemma rewritePath_of_first (h : ∀ c ∈ before, c.re path = none) (hcell : cell.re path = some groups)
    (hnul : 0 ∉ path) (hlen : path.length ≤ 1023) :
    rewritePath ((before ++ cell :: after).map RuleCell.rule) path =
      some (cstr (expandReplacement path groups (cell.replacement.str 0).length
        (cell.replacement.str 0) [])) := by
  have hbefore := rewritePath_of_none h hnul hlen
  rw [rewritePath, List.take_of_length_le hlen] at hbefore ⊢
  rw [List.map_append, List.findSome?_append, hbefore, Option.none_or, List.map_cons,
    List.findSome?_cons, cstr_eq_self_iff.mpr hnul, show cell.rule.re path = some groups from hcell]
  rfl

end Rules

namespace St

/-- The arena of the connection has room for a path. -/
def ArenaGives (st : St) : Prop := ∀ size ≤ 1024, (st.alloc size arenaAlign).1 ≠ none

/-- So it is if the block in use has room for a path and its alignment. -/
lemma arenaGives_of_room {st : St}
    (h : st.conn.arena.head.used + 1031 ≤ st.conn.arena.head.cap) : st.ArenaGives := by
  intro size hsize
  have hpad : (arenaAlign - (st.conn.arena.head.start + st.conn.arena.head.used) % arenaAlign) %
      arenaAlign < 8 := Nat.mod_lt _ (by decide)
  rw [alloc, arenaAllocAligned]
  simp only
  split
  · omega
  · exact Option.some_ne_none _

/-- The path of a request behind the rewrite rules: the new one, if the arena has room for it. -/
lemma arrival_path_eq (st : St) (req : HttpRequest) :
    (st.arrival req).1.path =
      match rewritePath (st.ws.hctx.config.server (st.blockOf req)).rewrite req.path.bytes with
      | none => req.path
      | some path =>
        if (st.alloc (path.length + 1) arenaAlign).1 = none then req.path else ⟨.mem, path⟩ := by
  rw [arrival, rewrite]
  change (match rewritePath (st.ws.hctx.config.server (st.blockOf req)).rewrite req.path.bytes with
    | none => _
    | some path => _ : HttpRequest × St).1.path = _
  cases rewritePath (st.ws.hctx.config.server (st.blockOf req)).rewrite req.path.bytes with
  | none => rfl
  | some path =>
    simp only
    split
    · rename_i hfull
      exact (if_pos (congrArg Prod.fst hfull)).symm
    · rename_i addr _ hgiven
      have hsome : (st.alloc (path.length + 1) arenaAlign).1 = some addr :=
        congrArg Prod.fst hgiven
      rw [if_neg (hsome ▸ Option.some_ne_none addr)]

/-- **URL rewriting.** The dispatcher goes on with the path that the first matching rule gives,
and with the path of the request if no rule matches. The loop that expands the replacement stays
inside its arrays, after any number of rounds, and an ideal expansion of at most 1022 bytes is
the new path. -/
theorem rewrite_first_match (st : St) (req : HttpRequest) (cells : List RuleCell)
    (hrules : (st.ws.hctx.config.server (st.blockOf req)).rewrite = cells.map RuleCell.rule)
    (hnul : 0 ∉ req.path.bytes) (hlen : req.path.bytes.length ≤ 1023)
    (hposix : ∀ cell ∈ cells, ∀ groups, cell.re req.path.bytes = some groups →
      PosixGroups req.path.bytes groups)
    (harena : st.ArenaGives) :
    (moduleRunRequestHandlers st.ws.hctx.modules
        { req with remoteIp := inetNtop st.conn.peer } = none →
      st.handlerDispatch req =
        (st.arrival req).2.routeLimited (st.arrival req).1 (st.blockOf req)) ∧
      ((∀ cell ∈ cells, cell.re req.path.bytes = none) → (st.arrival req).1.path = req.path) ∧
      ∀ before cell after groups, cells = before ++ cell :: after →
        (∀ c ∈ before, c.re req.path.bytes = none) → cell.re req.path.bytes = some groups →
        ∀ junk, ∃ buf new, pathBuf junk req.path.bytes = some buf ∧
          (∀ rounds, ∃ new dest,
            expandLoop buf groups cell.replacement rounds 0 (.replicate 1024 0) 0
              = some (new, dest) ∧ dest ≤ 1023) ∧
          cell.newPath junk req.path.bytes groups = some new ∧
          (st.arrival req).1.path = ⟨.mem, new.str 0⟩ ∧
          ((idealExpansion req.path.bytes groups (cell.replacement.str 0)).length ≤ 1022 →
            new.str 0 = idealExpansion req.path.bytes groups (cell.replacement.str 0)) := by
  refine ⟨handlerDispatch_of_declined, fun hnone => ?_, ?_⟩
  · rw [arrival_path_eq, hrules, rewritePath_of_none hnone hnul hlen]
  · rintro before cell after groups rfl hbefore hmatch junk
    have hgroups := hposix cell (List.mem_append_right _ List.mem_cons_self) groups hmatch
    obtain ⟨buf, hbuf, hinside⟩ := cell.expandLoop_inside junk hlen hgroups
    obtain ⟨new, hnew, hends, hstr⟩ := cell.exists_newPath junk hlen hgroups
    refine ⟨buf, new, hbuf, hinside, hnew, ?_,
      cell.str_newPath_eq_ideal junk hlen hgroups hnew hnul⟩
    have hroom : (new.str 0).length + 1 ≤ 1024 := by
      rw [FixedArray.Ends, Nat.zero_add] at hends
      omega
    rw [arrival_path_eq, hrules, rewritePath_of_first hbefore hmatch hnul hlen, ← hstr]
    exact if_neg (harena _ hroom)

end St

/-! ### A rule for the root -/

/-- The root goes to `/v2` with the path behind it. -/
def rootRule : RuleCell where
  re path := if path = bytes "/" then some ((0, 1) :: List.replicate 9 (-1, -1)) else none
  replacement := ⟨bytes "/v2$0" ++ List.replicate 507 0, by
    rw [List.length_append, List.length_replicate]
    rfl⟩
  closed := by
    rw [Closed, List.getLast?_append, List.getLast?_replicate, if_neg (by decide)]
    rfl

/-- A server with this rule. -/
def rewritingServer : ServerConfig := { backendServer with
  rewrite := [rootRule.rule]
  proxyEnabled := false
  cacheEnabled := false }

/-- A client of this server. -/
def rewritingClient : St :=
  { bareClient with
    ws := { bareClient.ws with
      hctx := { bareClient.ws.hctx with config := ⟨[rewritingServer], bytes "/metrics"⟩ } } }

lemma rewritingClient_arenaGives : rewritingClient.ArenaGives :=
  St.arenaGives_of_room (show (arenaCreate 65536 4096).head.used + 1031 ≤ 65536 by decide)

/-- The path of its request becomes `/v2/`. -/
theorem rewrite_first_match_rootRule :
    (rewritingClient.arrival pageRequest).1.path = ⟨.mem, bytes "/v2/"⟩ := by
  have hposix : ∀ cell ∈ [rootRule], ∀ groups, cell.re pageRequest.path.bytes = some groups →
      PosixGroups pageRequest.path.bytes groups := by
    intro cell hcell groups hgroups
    obtain rfl := List.mem_singleton.mp hcell
    obtain rfl := Option.some.inj hgroups
    exact ⟨rfl, by decide⟩
  obtain ⟨-, -, hfirst⟩ := rewritingClient.rewrite_first_match pageRequest [rootRule] rfl
    (by decide) (by decide) hposix rewritingClient_arenaGives
  obtain ⟨-, new, -, -, -, hpath, hideal⟩ := hfirst [] rootRule [] _ rfl (by simp) rfl
    (.replicate 1024 0)
  have hexpanded : idealExpansion pageRequest.path.bytes
      ((0, 1) :: List.replicate 9 (-1, -1)) (rootRule.replacement.str 0) = bytes "/v2/" := by
    decide +kernel
  rw [hexpanded] at hideal
  rw [hpath, hideal (by decide)]

end Nproxy
