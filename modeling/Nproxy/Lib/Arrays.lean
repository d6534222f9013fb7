import Mathlib.Tactic
import Mathlib.Data.List.DropRight

/-!
Arrays of a fixed size, and C strings in them.

* `FixedArray α n` is an array of exactly `n` elements. A store gives `none` when
  it goes outside (`store`, `storeAll`), so a program whose result is `some` has
  stored nothing outside its arrays.
* `str a i` is the C string at index `i`. `Ends a i` says that it has its NUL
  inside the array, so that a scan from `i` stays inside.
* The scans over such a string (`strchr`, `skip`, `backOver`) and the stores that
  shorten it (`store_zero`, `cutBack`, `strtok`) are given by indices, as pointer
  code has them; each has a lemma that says what it does to the string.
-/

/-- An array of `n` elements, which never grows or shrinks. -/
structure FixedArray (α : Type*) (n : ℕ) where
  elems : List α
  length_eq : elems.length = n
  deriving DecidableEq

namespace FixedArray

variable {α : Type*} {n : ℕ}

/-- All elements equal. -/
def replicate (n : ℕ) (x : α) : FixedArray α n := ⟨List.replicate n x, by simp⟩

/-- Reading an element. -/
def get? (a : FixedArray α n) (i : ℕ) : Option α := a.elems[i]?

/-- Storing an element, inside the array only. -/
def store (a : FixedArray α n) (i : ℕ) (x : α) : Option (FixedArray α n) :=
  if i < n then some ⟨a.elems.set i x, by simp [a.length_eq]⟩ else none

/-- Storing elements one after the other from an index on, inside the array only. -/
def storeAll (a : FixedArray α n) (i : ℕ) (xs : List α) : Option (FixedArray α n) :=
  if h : i + xs.length ≤ n then
    some ⟨a.elems.take i ++ xs ++ a.elems.drop (i + xs.length), by
      simp [a.length_eq]; omega⟩
  else none

/-- Reading elements one after the other from an index on, inside the array only. -/
def loadAll (a : FixedArray α n) (i len : ℕ) : Option (List α) :=
  if i + len ≤ n then some ((a.elems.drop i).take len) else none

variable {a b : FixedArray α n} {i : ℕ} {x : α}

@[ext] lemma ext (h : a.elems = b.elems) : a = b := by
  cases a
  cases b
  simpa using h

@[simp] lemma elems_replicate : (replicate n x).elems = List.replicate n x := rfl

lemma get?_of_lt (h : i < n) : ∃ x, a.get? i = some x := by
  have hlt : i < a.elems.length := by rw [a.length_eq]; exact h
  exact ⟨a.elems[i], List.getElem?_eq_getElem hlt⟩

lemma get?_replicate (h : i < n) : (replicate n x).get? i = some x := by
  simp [get?, h]

/-- A store inside the array succeeds. -/
lemma exists_store (a : FixedArray α n) (h : i < n) (x : α) :
    ∃ b, a.store i x = some b ∧ b.elems = a.elems.set i x := by
  rw [store, if_pos h]
  exact ⟨_, rfl, rfl⟩

lemma exists_storeAll (a : FixedArray α n) (i : ℕ) (xs : List α) (h : i + xs.length ≤ n) :
    ∃ b, a.storeAll i xs = some b ∧
      b.elems = a.elems.take i ++ xs ++ a.elems.drop (i + xs.length) := by
  rw [storeAll, dif_pos h]
  exact ⟨_, rfl, rfl⟩

/-- The elements up to the end of those stored. -/
lemma exists_storeAll_take (a : FixedArray α n) (i : ℕ) (xs : List α) (h : i + xs.length ≤ n) :
    ∃ b, a.storeAll i xs = some b ∧ b.elems.take (i + xs.length) = a.elems.take i ++ xs := by
  obtain ⟨b, hb, he⟩ := a.exists_storeAll i xs h
  have hlen : (a.elems.take i ++ xs).length = i + xs.length := by
    rw [List.length_append, List.length_take, a.length_eq]
    omega
  exact ⟨b, hb, by rw [he, List.take_left' hlen]⟩

lemma elems_of_store (h : a.store i x = some b) : i < n ∧ b.elems = a.elems.set i x := by
  rw [store] at h
  split at h
  · rename_i hlt
    rw [← Option.some.inj h]
    exact ⟨hlt, rfl⟩
  · simp at h

lemma get?_of_store (h : a.store i x = some b) (j : ℕ) :
    b.get? j = if j = i then some x else a.get? j := by
  obtain ⟨hlt, he⟩ := elems_of_store h
  rw [get?, he, List.getElem?_set, a.length_eq]
  by_cases hj : j = i
  · rw [if_pos hj.symm, if_pos hj, if_pos (by omega)]
  · rw [if_neg (Ne.symm hj), if_neg hj, get?]

lemma mem_of_get? (h : a.get? i = some x) : x ∈ a.elems := List.mem_of_getElem? h

lemma mem_of_store {y : α} (h : a.store i x = some b) (hy : y ∈ b.elems) :
    y ∈ a.elems ∨ y = x := by
  rw [(elems_of_store h).2] at hy
  exact List.mem_or_eq_of_mem_set hy

lemma take_succ_of_store (h : a.store i x = some b) :
    b.elems.take (i + 1) = a.elems.take i ++ [x] := by
  obtain ⟨hlt, he⟩ := elems_of_store h
  have hlen : i < (a.elems.set i x).length := by rw [List.length_set, a.length_eq]; exact hlt
  rw [he, List.take_succ_eq_append_getElem hlen, List.take_set_of_le le_rfl, List.getElem_set_self]

lemma take_of_store (h : a.store i x = some b) : b.elems.take i = a.elems.take i := by
  rw [(elems_of_store h).2, List.take_set_of_le le_rfl]

/-! ### C strings -/

/-- An array of bytes. -/
abbrev Chars (n : ℕ) := FixedArray UInt8 n

/-- Is this byte inside a C string? -/
def inString (c : UInt8) : Bool := c != 0

@[simp] lemma inString_zero : inString 0 = false := by decide

lemma inString_iff {c : UInt8} : inString c = true ↔ c ≠ 0 := by simp [inString]

/-- The C string at an index. -/
def str (a : Chars n) (i : ℕ) : List UInt8 := (a.elems.drop i).takeWhile inString

/-- The C string at an index has its NUL inside the array. -/
def Ends (a : Chars n) (i : ℕ) : Prop := i + (a.str i).length < n

variable {a b : Chars n} {c : UInt8} {k e : ℕ} {p : UInt8 → Bool}

lemma zero_notMem_str (a : Chars n) (i : ℕ) : 0 ∉ a.str i := by
  intro h
  simpa using List.mem_takeWhile_imp h

/-! ### Strings and stores -/

lemma takeWhile_set_zero (l : List UInt8) (j : ℕ) :
    (l.set j 0).takeWhile inString = (l.takeWhile inString).take j := by
  induction l generalizing j with
  | nil => simp
  | cons c l ih =>
    cases j with
    | zero => simp
    | succ j =>
      rw [List.set_cons_succ, List.takeWhile_cons, List.takeWhile_cons]
      split
      · rw [ih, List.take_succ_cons]
      · rfl

/-- A zero stored in a string cuts it there. -/
lemma str_of_store_zero (h : a.store k 0 = some b) (hik : i ≤ k) :
    b.str i = (a.str i).take (k - i) := by
  rw [str, (elems_of_store h).2, List.drop_set, if_neg (by omega), takeWhile_set_zero, str]

/-- A store in front of a string leaves it alone. -/
lemma str_of_store_of_lt (h : a.store k c = some b) (hki : k < i) : b.str i = a.str i := by
  rw [str, (elems_of_store h).2, List.drop_set, if_pos hki, str]

/-- A zero stored behind a string, or at its NUL, leaves it alone. -/
lemma str_of_store_behind (h : a.store k 0 = some b) (hk : i + (a.str i).length ≤ k) :
    b.str i = a.str i := by
  rw [str_of_store_zero h (by omega), List.take_of_length_le (by omega)]

/-- A stored zero ends every string in front of it. -/
lemma ends_of_store_zero (h : a.store k 0 = some b) (hik : i ≤ k) : b.Ends i := by
  have hk := (elems_of_store h).1
  rw [Ends, str_of_store_zero h hik, List.length_take]
  omega

/-- The string at a later byte of a string is its rest. -/
lemma str_add (h : k ≤ (a.str i).length) : a.str (i + k) = (a.str i).drop k := by
  induction k with
  | zero => rfl
  | succ k ih =>
    have hrest := ih (by omega)
    have hlt : k < (a.str i).length := by omega
    rw [List.drop_eq_getElem_cons hlt] at hrest
    rw [str] at hrest ⊢
    rw [← Nat.add_assoc, ← List.drop_drop, List.drop_one]
    cases hl : a.elems.drop (i + k) with
    | nil => rw [hl] at hrest; exact absurd hrest (List.cons_ne_nil _ _).symm
    | cons d l =>
      rw [hl, List.takeWhile_cons] at hrest
      split at hrest
      · exact (List.cons.inj hrest).2
      · exact absurd hrest (List.cons_ne_nil _ _).symm

lemma Ends.add (h : a.Ends i) (hk : k ≤ (a.str i).length) : a.Ends (i + k) := by
  rw [Ends] at h ⊢
  rw [str_add hk, List.length_drop]
  omega

/-- A store at a byte of a string, or at its NUL, is inside the array. -/
lemma Ends.exists_store (h : a.Ends i) (hk : k ≤ i + (a.str i).length) (c : UInt8) :
    ∃ b, a.store k c = some b := by
  obtain ⟨b, hb, -⟩ := a.exists_store (show k < n from lt_of_le_of_lt hk h) c
  exact ⟨b, hb⟩

/-- The byte where a string begins: its first one, or its NUL. -/
lemma Ends.get?_eq (h : a.Ends i) : a.get? i = some ((a.str i).headD 0) := by
  have hi : i < a.elems.length := by
    rw [a.length_eq]
    exact lt_of_le_of_lt (Nat.le_add_right _ _) h
  rw [get?, List.getElem?_eq_getElem hi, str, List.drop_eq_getElem_cons hi, List.takeWhile_cons]
  split_ifs with hc
  · rfl
  · rw [inString_iff, not_not] at hc
    exact congrArg some hc

lemma getD_str (h : k < (a.str i).length) : a.elems.getD (i + k) 0 = (a.str i)[k] := by
  have hpre : a.str i <+: a.elems.drop i := List.takeWhile_prefix _
  have hd := hpre.getElem h
  rw [hd, List.getElem_drop, List.getD_eq_getElem?_getD, List.getElem?_eq_getElem, Option.getD_some]

/-! ### Scans -/

/-- `strchr`. -/
def strchr (a : Chars n) (i : ℕ) (c : UInt8) : Option ℕ :=
  ((a.str i).findIdx? (· == c)).map (i + ·)

/-- `while (p(*s)) s++`, for a test that fails at NUL. -/
def skip (p : UInt8 → Bool) (a : Chars n) (i : ℕ) : ℕ := i + ((a.str i).takeWhile p).length

/-- `while (end > s && p(end[-1])) end--`. -/
def backOver (p : UInt8 → Bool) (a : Chars n) (i : ℕ) : ℕ → ℕ
  | 0 => 0
  | e + 1 => if i < e + 1 ∧ p (a.elems.getD e 0) = true then backOver p a i e else e + 1

/-- `while (end > s && p(end[-1])) { end--; *end = '\0'; }`. -/
def cutBack (p : UInt8 → Bool) (i : ℕ) : Chars n → ℕ → Option (Chars n)
  | a, 0 => some a
  | a, e + 1 =>
    if i < e + 1 ∧ p (a.elems.getD e 0) = true then (a.store e 0).bind (cutBack p i · e)
    else some a

lemma strchr_eq_none_iff : a.strchr i c = none ↔ c ∉ a.str i := by
  rw [strchr, Option.map_eq_none_iff, List.findIdx?_eq_none_iff]
  simp only [beq_eq_false_iff_ne, ne_eq]
  exact ⟨fun h hc => h c hc rfl, fun h d hd hdc => h (hdc ▸ hd)⟩

/-- What `strchr` finds splits the string. -/
lemma strchr_eq_some (h : a.strchr i c = some k) :
    ∃ pre post, a.str i = pre ++ c :: post ∧ c ∉ pre ∧ k = i + pre.length := by
  rw [strchr, Option.map_eq_some_iff] at h
  obtain ⟨j, hj, rfl⟩ := h
  obtain ⟨hlt, hc, hbefore⟩ := List.findIdx?_eq_some_iff_getElem.mp hj
  refine ⟨(a.str i).take j, (a.str i).drop (j + 1), ?_, ?_, ?_⟩
  · have hcj : (a.str i)[j] = c := by simpa using hc
    rw [← hcj, ← List.drop_eq_getElem_cons hlt, List.take_append_drop]
  · intro hmem
    obtain ⟨m, hm, hget⟩ := List.getElem_of_mem hmem
    rw [List.length_take] at hm
    rw [List.getElem_take] at hget
    exact hbefore m (by omega) (by simp [hget])
  · rw [List.length_take, Nat.min_eq_left hlt.le]

lemma exists_strchr (h : c ∈ a.str i) : ∃ k, a.strchr i c = some k := by
  cases hchr : a.strchr i c with
  | none => exact absurd h (strchr_eq_none_iff.mp hchr)
  | some k => exact ⟨k, rfl⟩

/-- A string cut at the first `c` is what stands before it, and the rest stands
behind the cut. -/
lemma exists_cutAt (hi : a.Ends i) (h : a.strchr i c = some k) :
    ∃ b, a.store k 0 = some b ∧ i ≤ k ∧ b.Ends i ∧ b.Ends (k + 1) ∧
      b.str i = (a.str i).takeWhile (· != c) ∧
      b.str (k + 1) = ((a.str i).dropWhile (· != c)).drop 1 ∧
      k = i + (b.str i).length := by
  obtain ⟨pre, post, hsplit, hpre, rfl⟩ := strchr_eq_some h
  obtain ⟨b, hb⟩ := hi.exists_store (k := i + pre.length) (by rw [hsplit]; simp) 0
  have hpos : ∀ d ∈ pre, (d != c) = true := by
    intro d hd
    rw [bne_iff_ne]
    rintro rfl
    exact hpre hd
  have htake : (a.str i).takeWhile (· != c) = pre := by
    rw [hsplit, List.takeWhile_append_of_pos hpos]
    simp
  have hdrop : (a.str i).dropWhile (· != c) = c :: post := by
    rw [hsplit, List.dropWhile_append_of_pos hpos]
    simp
  have hfront : b.str i = pre := by
    rw [str_of_store_zero hb (by omega), Nat.add_sub_cancel_left, hsplit, List.take_left]
  have hrest : b.str (i + pre.length + 1) = post := by
    rw [str_of_store_of_lt hb (by omega), Nat.add_assoc, str_add (by rw [hsplit]; simp), hsplit]
    simp
  have hends : b.Ends (i + pre.length + 1) := by
    have := hi.add (k := pre.length + 1) (by rw [hsplit]; simp)
    rw [← Nat.add_assoc] at this
    rw [Ends, str_of_store_of_lt hb (by omega)]
    exact this
  refine ⟨b, hb, by omega, ends_of_store_zero hb (by omega), hends, ?_, ?_, ?_⟩
  · rw [hfront, htake]
  · rw [hrest, hdrop, List.drop_one, List.tail_cons]
  · rw [hfront]

lemma str_skip (p : UInt8 → Bool) (a : Chars n) (i : ℕ) :
    a.str (skip p a i) = (a.str i).dropWhile p := by
  have hle : ((a.str i).takeWhile p).length ≤ (a.str i).length :=
    (List.takeWhile_prefix p).length_le
  rw [skip, str_add hle]
  nth_rewrite 2 [← List.takeWhile_append_dropWhile (p := p) (l := a.str i)]
  rw [List.drop_left]

lemma Ends.skip (h : a.Ends i) (p : UInt8 → Bool) : a.Ends (a.skip p i) :=
  h.add (List.takeWhile_prefix p).length_le

lemma le_skip (p : UInt8 → Bool) (a : Chars n) (i : ℕ) : i ≤ a.skip p i := Nat.le_add_right _ _

lemma backOver_eq {m : ℕ} (hm : m ≤ (a.str i).length) :
    a.backOver p i (i + m) = i + (((a.str i).take m).rdropWhile p).length := by
  induction m with
  | zero =>
    rw [List.take_zero, List.rdropWhile_nil]
    cases i with
    | zero => rfl
    | succ i => simp [backOver]
  | succ m ih =>
    have hlt : m < (a.str i).length := by omega
    rw [← Nat.add_assoc, backOver, getD_str hlt, List.take_succ_eq_append_getElem hlt]
    by_cases hp : p (a.str i)[m] = true
    · rw [if_pos ⟨by omega, hp⟩, ih (by omega), List.rdropWhile_concat_pos _ _ _ hp]
    · rw [if_neg fun h => hp h.2, List.rdropWhile_concat_neg _ _ _ hp]
      rw [List.length_append, List.length_take, List.length_singleton]
      omega

/-- Cutting back a string leaves it without its last bytes that pass the test, and
touches no string behind it or in front of it. -/
lemma exists_cutBack (h : a.Ends i) :
    ∃ b, cutBack p i a (i + (a.str i).length) = some b ∧
      b.str i = (a.str i).rdropWhile p ∧ b.Ends i ∧
      (∀ j, i + (a.str i).length ≤ j → b.str j = a.str j) ∧
      ∀ j, j + (a.str j).length ≤ i → b.str j = a.str j := by
  induction hlen : (a.str i).length generalizing a with
  | zero =>
    have hnil : a.str i = [] := List.length_eq_zero_iff.mp hlen
    refine ⟨a, ?_, by rw [hnil, List.rdropWhile_nil], h, fun _ _ => rfl, fun _ _ => rfl⟩
    cases i with
    | zero => rfl
    | succ i => simp [cutBack]
  | succ m ih =>
    have hlt : m < (a.str i).length := by omega
    have hsplit : a.str i = (a.str i).take m ++ [(a.str i)[m]] := by
      rw [← List.take_succ_eq_append_getElem hlt, List.take_of_length_le (by omega)]
    rw [← Nat.add_assoc, cutBack, getD_str hlt]
    by_cases hp : p (a.str i)[m] = true
    · rw [if_pos ⟨by omega, hp⟩]
      obtain ⟨b, hb⟩ := h.exists_store (k := i + m) (by omega) 0
      have hstr : b.str i = (a.str i).take m := by
        rw [str_of_store_zero hb (by omega), Nat.add_sub_cancel_left]
      have hblen : (b.str i).length = m := by
        rw [hstr, List.length_take]
        omega
      obtain ⟨b', hb', hbstr, hbends, hbehind, hfront⟩ :=
        ih (ends_of_store_zero hb (by omega)) hblen
      refine ⟨b', ?_, ?_, hbends, fun j hj => ?_, fun j hj => ?_⟩
      · rw [hb, Option.bind_some]
        exact hb'
      · conv_rhs => rw [hsplit, List.rdropWhile_concat_pos _ _ _ hp]
        rw [hbstr, hstr]
      · rw [hbehind j (by omega), str_of_store_of_lt hb (by omega)]
      · have hsame := str_of_store_behind (i := j) hb (by omega)
        rw [hfront j (by rw [hsame]; omega), hsame]
    · rw [if_neg fun h => hp h.2]
      refine ⟨a, rfl, ?_, h, fun _ _ => rfl, fun _ _ => rfl⟩
      conv_rhs => rw [hsplit, List.rdropWhile_concat_neg _ _ _ hp]
      exact hsplit

/-! ### Copies -/

/-- `strncpy`: the string and zeros up to the count. -/
def strncpy (a : Chars n) (src : List UInt8) (m : ℕ) : Option (Chars n) :=
  a.storeAll 0 (src.take m ++ List.replicate (m - src.length) 0)

/-- `memcpy` of the first bytes of a string and a NUL behind them. -/
def copyStr (a : Chars n) (src : List UInt8) (m : ℕ) : Option (Chars n) :=
  (a.storeAll 0 (src.take m)).bind (·.store m 0)

/-- The last byte is NUL. -/
def Closed (a : Chars n) : Prop := a.elems.getLast? = some 0

lemma Closed.zero_mem (h : a.Closed) : 0 ∈ a.elems := List.mem_of_getLast? h

/-- The string in a closed array ends inside. -/
lemma Closed.ends (h : a.Closed) : a.Ends 0 := by
  have hpre : a.str 0 <+: a.elems := List.takeWhile_prefix _
  rw [Ends, Nat.zero_add]
  refine lt_of_le_of_ne (hpre.length_le.trans_eq a.length_eq) fun heq => ?_
  have hall := hpre.eq_of_length (heq.trans a.length_eq.symm)
  exact zero_notMem_str a 0 (hall ▸ h.zero_mem)

lemma Closed.drop_eq {m : ℕ} (h : a.Closed) (hm : m + 1 = n) : a.elems.drop m = [0] := by
  have hlen : (a.elems.drop m).length = 1 := by
    rw [List.length_drop, a.length_eq]
    omega
  obtain ⟨c, hc⟩ := List.length_eq_one_iff.mp hlen
  have hlast : a.elems.getLast? = some c := by
    rw [← List.take_append_drop m a.elems, hc, List.getLast?_append]
    rfl
  rw [hc, Option.some.inj (hlast.symm.trans h)]

@[simp] lemma str_replicate_zero : (replicate n 0 : Chars n).str i = [] := by
  rw [str, elems_replicate, List.drop_replicate]
  cases n - i with
  | zero => rfl
  | succ k => rw [List.replicate_succ, List.takeWhile_cons_of_neg (by simp)]

lemma closed_replicate {m : ℕ} (hm : m + 1 = n) : (replicate n 0 : Chars n).Closed := by
  subst hm
  rw [Closed, elems_replicate, List.getLast?_replicate, if_neg (by omega)]

lemma takeWhile_inString_append (l m : List UInt8) :
    (l ++ 0 :: m).takeWhile inString = l.takeWhile inString := by
  induction l with
  | nil => simp
  | cons c l ih => rw [List.cons_append, List.takeWhile_cons, List.takeWhile_cons, ih]

lemma takeWhile_inString {l : List UInt8} (h : 0 ∉ l) : l.takeWhile inString = l := by
  rw [List.takeWhile_eq_self_iff]
  intro c hc
  rw [inString_iff]
  rintro rfl
  exact h hc

/-- `strncpy` of all but the last byte of a closed array. -/
lemma exists_strncpy {m : ℕ} (h : a.Closed) (hm : m + 1 = n) {src : List UInt8}
    (h0 : 0 ∉ src) : ∃ b, a.strncpy src m = some b ∧ b.str 0 = src.take m ∧ b.Closed := by
  have hlen : (src.take m ++ List.replicate (m - src.length) 0).length = m := by
    rw [List.length_append, List.length_take, List.length_replicate]
    omega
  obtain ⟨b, hb, he⟩ := a.exists_storeAll 0
    (src.take m ++ List.replicate (m - src.length) 0) (by omega)
  rw [hlen, Nat.zero_add, h.drop_eq hm, List.take_zero, List.nil_append] at he
  refine ⟨b, hb, ?_, ?_⟩
  · have h0' : 0 ∉ src.take m := fun hmem => h0 (List.mem_of_mem_take hmem)
    rw [str, List.drop_zero, he, List.append_assoc]
    cases m - src.length with
    | zero => exact (takeWhile_inString_append _ _).trans (takeWhile_inString h0')
    | succ d => exact (takeWhile_inString_append _ _).trans (takeWhile_inString h0')
  · rw [Closed, he, List.getLast?_append]
    rfl

/-- A copy of part of a string, with its NUL. -/
lemma exists_copyStr (h : a.Closed) (m : ℕ) (hm : m < n) (src : List UInt8)
    (h0 : 0 ∉ src) (hsrc : m ≤ src.length) :
    ∃ b, a.copyStr src m = some b ∧ b.str 0 = src.take m ∧ b.Closed := by
  have hlen : (src.take m).length = m := by
    rw [List.length_take]
    omega
  obtain ⟨a', ha', he'⟩ := a.exists_storeAll 0 (src.take m) (by omega)
  rw [hlen, Nat.zero_add, List.take_zero, List.nil_append] at he'
  obtain ⟨b, hb, he⟩ := a'.exists_store hm 0
  have hne : a.elems.drop m ≠ [] := by
    intro hnil
    have := congrArg List.length hnil
    rw [List.length_drop, a.length_eq, List.length_nil] at this
    omega
  obtain ⟨d, rest, hd⟩ := List.exists_cons_of_ne_nil hne
  have hbe : b.elems = src.take m ++ 0 :: rest := by
    rw [he, he', List.set_append_right _ _ (by omega), hlen, hd, Nat.sub_self, List.set_cons_zero]
  refine ⟨b, ?_, ?_, ?_⟩
  · rw [copyStr, ha', Option.bind_some, hb]
  · rw [str, List.drop_zero, hbe]
    rw [takeWhile_inString_append, takeWhile_inString fun hmem => h0 (List.mem_of_mem_take hmem)]
  · have hlast : (d :: rest).getLast? = some 0 := by
      have := h
      rw [Closed, ← List.take_append_drop m a.elems, hd, List.getLast?_append] at this
      simpa using this
    rw [Closed, hbe, List.getLast?_append]
    cases rest with
    | nil => rfl
    | cons r rest => simpa using hlast

/-! ### Tokens -/

/-- `strtok` with one delimiter, from an index on: the token found, the index from
which the search continues, and the array with the token's end marked. -/
def strtok (a : Chars n) (d : UInt8) (i : ℕ) : Option (Option (ℕ × ℕ × Chars n)) :=
  let s := a.skip (· == d) i
  if a.str s = [] then some none
  else
    match a.strchr s d with
    | some e => (a.store e 0).map fun b => some (s, e + 1, b)
    | none => some (some (s, s + (a.str s).length, a))

/-- The nonempty pieces of a string between delimiters. -/
def tokens (d : UInt8) (s : List UInt8) : List (List UInt8) := (s.splitOn d).filter (· ≠ [])

variable {d : UInt8} {s t : List UInt8}

@[simp] lemma tokens_nil : tokens d [] = [] := by simp [tokens]

lemma tokens_append_cons (s t : List UInt8) :
    tokens d (s ++ d :: t) = tokens d s ++ tokens d t := by
  rw [tokens, List.splitOn_append_cons_self, List.filter_append, tokens, tokens]

/-- A string without delimiters is one token. -/
lemma tokens_of_notMem (h : d ∉ t) (hne : t ≠ []) : tokens d t = [t] := by
  rw [tokens, List.splitOn_eq_singleton h]
  simp [hne]

lemma tokens_dropWhile (s : List UInt8) : tokens d (s.dropWhile (· == d)) = tokens d s := by
  induction s with
  | nil => rfl
  | cons c s ih =>
    by_cases hc : c = d
    · subst hc
      have hfront := tokens_append_cons (d := c) [] s
      rw [List.nil_append, tokens_nil, List.nil_append] at hfront
      rw [List.dropWhile_cons_of_pos (by simp), ih, hfront]
    · rw [List.dropWhile_cons_of_neg (by simpa using hc)]

/-- The first token, when no delimiter stands in front of it. -/
lemma tokens_eq_cons (hd : d ∈ s) (hne : s.head? ≠ some d) :
    tokens d s = s.takeWhile (· != d) :: tokens d ((s.dropWhile (· != d)).drop 1) := by
  have hnot : d ∉ s.takeWhile (· != d) := fun h => by simpa using List.mem_takeWhile_imp h
  have hfront : s.takeWhile (· != d) ≠ [] := by
    cases s with
    | nil => simp at hd
    | cons c s => rw [List.takeWhile_cons_of_pos (by simpa using hne)]; simp
  have hrest : s.dropWhile (· != d) = d :: (s.dropWhile (· != d)).drop 1 := by
    cases hs : s.dropWhile (· != d) with
    | nil =>
      have := List.takeWhile_append_dropWhile (p := (· != d)) (l := s)
      rw [hs, List.append_nil] at this
      rw [this] at hnot
      exact absurd hd hnot
    | cons c t =>
      have hhead := List.head?_dropWhile_not (· != d) s
      rw [hs] at hhead
      simpa using hhead
  nth_rewrite 1 [← List.takeWhile_append_dropWhile (p := (· != d)) (l := s)]
  nth_rewrite 1 [hrest]
  rw [tokens_append_cons, tokens_of_notMem hnot hfront, List.singleton_append]

/-- `strtok` takes the first token, if there is one, and goes on with the others. -/
lemma strtok_cases (h : a.Ends i) :
    (tokens d (a.str i) = [] ∧ a.strtok d i = some none) ∨
      ∃ s e b, a.strtok d i = some (some (s, e, b)) ∧
        tokens d (a.str i) = b.str s :: tokens d (b.str e) ∧ b.Ends e := by
  have hs := h.skip (· == d)
  have htok : tokens d (a.str i) = tokens d (a.str (a.skip (· == d) i)) := by
    rw [str_skip, tokens_dropWhile]
  by_cases hnil : a.str (a.skip (· == d) i) = []
  · refine Or.inl ⟨by rw [htok, hnil, tokens_nil], ?_⟩
    rw [strtok]
    exact if_pos hnil
  refine Or.inr ?_
  rw [strtok]
  simp only [if_neg hnil]
  cases hchr : a.strchr (a.skip (· == d) i) d with
  | none =>
    refine ⟨_, _, a, rfl, ?_, hs.add le_rfl⟩
    rw [htok, tokens_of_notMem (strchr_eq_none_iff.mp hchr) hnil, str_add le_rfl,
      List.drop_length, tokens_nil]
  | some e =>
    obtain ⟨b, hb, -, -, hends, hfront, hrest, -⟩ := exists_cutAt hs hchr
    have hmem : d ∈ a.str (a.skip (· == d) i) := by
      by_contra hd
      rw [strchr_eq_none_iff.mpr hd] at hchr
      simp at hchr
    refine ⟨a.skip (· == d) i, e + 1, b, by simp only [hb, Option.map_some], ?_, hends⟩
    rw [htok, hfront, hrest]
    exact tokens_eq_cons hmem fun h => by
      have hhead := List.head?_dropWhile_not (· == d) (a.str i)
      rw [← str_skip, h] at hhead
      simp at hhead

end FixedArray
