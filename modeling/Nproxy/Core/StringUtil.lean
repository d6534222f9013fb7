import Mathlib.Tactic
import Mathlib.Data.List.DropRight
import Nproxy.Lib.Lines

/-!
`core/string_util.c` and the limits of `core/types.h`: byte strings, the
non-owning slices `str_t` and the operations on them.

* `Str` is a slice as its holder sees it: where it points (`Ptr`) and the bytes
  that stand there. Offsets count from the start of the buffer a parser was
  given, so a slice says both what it denotes and where it lies.
* The character classes are those of the C locale, the program never calling
  `setlocale`.
* `strtoll` follows the C standard for base ten: white space, a sign, digits,
  saturation at the ends of `long long`.

The lemmas say what the comparisons decide: `strIeq_iff` reads `str_ieq`
against a literal as equality of the lower-cased bytes.
-/

namespace Nproxy

/-! ### The limits of `core/types.h` -/

/-- `NP_MAX_HEADERS`. -/
def npMaxHeaders : ℕ := 64

/-- `NP_MAX_HEADER_LEN`. -/
def npMaxHeaderLen : ℕ := 8192

/-- `NP_READ_BUF_SIZE`. -/
def npReadBufSize : ℕ := 64 * 1024

/-- `NP_WRITE_BUF_SIZE`. -/
def npWriteBufSize : ℕ := 128 * 1024

/-- `NP_ARENA_SIZE`. -/
def npArenaSize : ℕ := 64 * 1024

/-! ### Bytes -/

/-- The bytes of a string literal of the source (all of them ASCII). -/
def bytes (s : String) : List UInt8 := s.toList.map fun c => c.toNat.toUInt8

/-- The length of a literal: a literal is `String.ofList` of its letters, so nothing has to
be decoded. -/
lemma length_bytes_ofList (l : List Char) : (bytes (String.ofList l)).length = l.length := by
  rw [bytes, List.length_map, String.toList_ofList]

/-- Carriage return. -/
def cr : UInt8 := 13

/-- Line feed. -/
def lf : UInt8 := 10

/-- The line terminator of the protocol. -/
def crlf : List UInt8 := [cr, lf]

/-- `isspace` in the C locale. -/
def isspace (c : UInt8) : Bool := c = 32 || (9 ≤ c && c ≤ 13)

/-- `isdigit`. -/
def isdigit (c : UInt8) : Bool := 48 ≤ c && c ≤ 57

/-- `tolower` in the C locale. -/
def tolower (c : UInt8) : UInt8 := if 65 ≤ c ∧ c ≤ 90 then c + 32 else c

/-- `memchr`: the offset of the first `c`. -/
def memchr (l : List UInt8) (c : UInt8) : Option ℕ := l.findIdx? (· == c)

/-! ### Slices -/

/-- Where a `str_t` points. -/
inductive Ptr where
  /-- `NULL` -/
  | null
  /-- an offset into the buffer handed to the parser -/
  | buf (off : ℕ)
  /-- any other memory: a literal, the arena -/
  | mem
  deriving DecidableEq, Repr

/-- Pointer arithmetic. -/
def Ptr.add : Ptr → ℕ → Ptr
  | .buf off, k => .buf (off + k)
  | p, _ => p

/-- `str_t`: a pointer and the bytes from there on, as many as the length says. -/
structure Str where
  ptr : Ptr
  bytes : List UInt8
  deriving DecidableEq, Repr

/-- `STR_NULL`, which is also the all-zero slice. -/
def Str.null : Str := ⟨.null, []⟩

/-- `STR(s)`. -/
def Str.lit (s : String) : Str := ⟨.mem, Nproxy.bytes s⟩

/-- The field `len`. -/
def Str.len (s : Str) : ℕ := s.bytes.length

/-- `np_strncasecmp`. The arguments of all callers are at least `n` long, so the
last equation is never used. -/
def npStrncasecmp : List UInt8 → List UInt8 → ℕ → ℤ
  | _, _, 0 => 0
  | a :: as, b :: bs, n + 1 =>
    let ca := tolower a
    let cb := tolower b
    if ca ≠ cb then (ca.toNat : ℤ) - cb.toNat
    else if ca = 0 then 0
    else npStrncasecmp as bs n
  | _, _, _ + 1 => 0

/-- `str_ieq`. -/
def strIeq (a b : Str) : Bool :=
  if a.len ≠ b.len then false else npStrncasecmp a.bytes b.bytes a.len = 0

/-- `str_trim_left`. -/
def strTrimLeft (s : Str) : Str :=
  ⟨s.ptr.add (s.bytes.takeWhile isspace).length, s.bytes.dropWhile isspace⟩

/-- `str_trim_right`. -/
def strTrimRight (s : Str) : Str := ⟨s.ptr, s.bytes.rdropWhile isspace⟩

/-- `str_trim`. -/
def strTrim (s : Str) : Str := strTrimRight (strTrimLeft s)

/-- `str_starts_with`. -/
def strStartsWith (s pre : Str) : Bool :=
  if s.len < pre.len then false else s.bytes.take pre.len = pre.bytes

/-- `str_contains_i`. -/
def strContainsI (haystack needle : Str) : Bool :=
  if needle.len = 0 then true
  else if haystack.len < needle.len then false
  else (List.range (haystack.len - needle.len + 1)).any fun i =>
    npStrncasecmp (haystack.bytes.drop i) needle.bytes needle.len = 0

/-! ### Decimal numbers -/

/-- The value of a string of digits. -/
def decVal (l : List UInt8) : ℕ := l.foldl (fun acc c => 10 * acc + (c.toNat - 48)) 0

/-- `LLONG_MAX`. -/
def llongMax : ℤ := 2 ^ 63 - 1

/-- `LLONG_MIN`. -/
def llongMin : ℤ := -2 ^ 63

/-- `strtoll(buf, &end, 10)` on a NUL-terminated buffer: the value, saturated to
the range of `long long`, and the offset of `end`, which is `0` when there is no
number. -/
def strtoll (buf : List UInt8) : ℤ × ℕ :=
  let ws := (buf.takeWhile isspace).length
  let rest := buf.drop ws
  let neg := rest.head? = some 45
  let sgn := if rest.head? = some 45 ∨ rest.head? = some 43 then 1 else 0
  let digits := (rest.drop sgn).takeWhile isdigit
  if digits = [] then (0, 0)
  else
    let v : ℤ := if neg then -(decVal digits : ℤ) else decVal digits
    (max llongMin (min llongMax v), ws + sgn + digits.length)

/-- `str_to_int`: `none` is the return value `-1`, which leaves `*out` alone. The
copy is NUL-terminated, and what follows the number is compared with NUL, be it
that terminator or a NUL of the string itself. -/
def strToInt (s : Str) : Option ℤ :=
  if s.len = 0 then none
  else if s.len ≥ 32 then none
  else
    let buf := s.bytes ++ [0]
    let r := strtoll buf
    if r.2 = 0 ∨ buf.getD r.2 0 ≠ 0 then none else some r.1

/-- `atoi`, the low 32 bits of `strtol`. -/
def atoi (mem : List UInt8) : ℤ := (strtoll mem).1.bmod (2 ^ 32)

/-- The decimal numeral of a number, as `%d` and `%zu` print it. -/
def decimal (n : ℕ) : List UInt8 := (Nat.toDigits 10 n).map fun c => c.toNat.toUInt8

/-- `%d` and `%ld` of any number. -/
def decimalInt (n : ℤ) : List UInt8 :=
  if n < 0 then 45 :: decimal n.natAbs else decimal n.toNat

/-- What `%s` and `%.*s` print of a string: the bytes in front of its first NUL. -/
def cstr (l : List UInt8) : List UInt8 := l.takeWhile (· != 0)

/-- An IPv4 address, `struct in_addr`. -/
structure InAddr where
  a : UInt8
  b : UInt8
  c : UInt8
  d : UInt8
  deriving DecidableEq, Repr

/-- `inet_ntop(AF_INET, ...)`: the dotted quad. -/
def inetNtop (ip : InAddr) : List UInt8 :=
  decimal ip.a.toNat ++ 46 :: (decimal ip.b.toNat ++ 46 ::
    (decimal ip.c.toNat ++ 46 :: decimal ip.d.toNat))

/-! ### Search -/

lemma memchr_eq {l : List UInt8} {c : UInt8} (h : c ∈ l) :
    memchr l c = some (l.findIdx (· == c)) := by
  rw [memchr, List.findIdx?_eq_some_iff_findIdx_eq]
  exact ⟨List.findIdx_lt_length_of_exists ⟨c, h, by simp⟩, rfl⟩

lemma memchr_eq_none_iff {l : List UInt8} {c : UInt8} : memchr l c = none ↔ c ∉ l := by
  rw [memchr, List.findIdx?_eq_none_iff]
  constructor
  · intro h hm
    simpa using h c hm
  · intro h d hd
    simp only [beq_eq_false_iff_ne, ne_eq]
    rintro rfl
    exact h hd

/-- The first `c` is the one behind a string without any. -/
lemma memchr_append_cons {l : List UInt8} {c : UInt8} (h : c ∉ l) (m : List UInt8) :
    memchr (l ++ c :: m) c = some l.length := by
  have hl : l.findIdx? (· == c) = none := memchr_eq_none_iff.mpr h
  rw [memchr, List.findIdx?_append, hl]
  simp [List.findIdx?_cons]

/-- What `memchr` finds splits the string. -/
lemma eq_of_memchr {l : List UInt8} {c : UInt8} {n : ℕ} (h : memchr l c = some n) :
    l = l.take n ++ c :: l.drop (n + 1) ∧ c ∉ l.take n := by
  by_cases hc : c ∈ l
  · rw [memchr_eq hc] at h
    obtain rfl := Option.some.inj h
    have hlt : l.findIdx (· == c) < l.length :=
      List.findIdx_lt_length_of_exists ⟨c, hc, by simp⟩
    have hget : l[l.findIdx (· == c)] = c := by simpa using List.findIdx_getElem (w := hlt)
    refine ⟨?_, fun hmem => ?_⟩
    · nth_rewrite 1 [← List.take_append_drop (l.findIdx (· == c)) l]
      rw [List.drop_eq_getElem_cons hlt, hget]
    · have hbefore : c ∈ l.takeWhile (· != c) := by
        rw [List.takeWhile_eq_take_findIdx_not]
        simpa [bne] using hmem
      simpa using List.mem_takeWhile_imp hbefore
  · rw [memchr_eq_none_iff.mpr hc] at h
    simp at h

/-! ### Comparison -/

@[simp] lemma Str.len_mk (p : Ptr) (l : List UInt8) : (Str.mk p l).len = l.length := rfl

lemma tolower_ne_zero (c : UInt8) (h : c ≠ 0) : tolower c ≠ 0 := by
  rw [tolower]
  grind

/-- On strings of the same length, the second of them without NUL,
`np_strncasecmp` finds no difference exactly when the lower-cased bytes agree. -/
lemma npStrncasecmp_eq_zero_iff : ∀ (a b : List UInt8), a.length = b.length → 0 ∉ b →
    (npStrncasecmp a b a.length = 0 ↔ a.map tolower = b.map tolower)
  | [], [], _, _ => by simp [npStrncasecmp]
  | x :: a, y :: b, hlen, h0 => by
    have ih := npStrncasecmp_eq_zero_iff a b (by simpa using hlen) fun h => h0 (by simp [h])
    have hy : tolower y ≠ 0 := tolower_ne_zero y fun h => h0 (by simp [h])
    rw [List.length_cons, npStrncasecmp, List.map_cons, List.map_cons, List.cons.injEq]
    by_cases hxy : tolower x = tolower y
    · have hx : ¬tolower x = 0 := hxy ▸ hy
      simpa [hxy, hy] using ih
    · have hne : ((tolower x).toNat : ℤ) - (tolower y).toNat ≠ 0 := by
        intro h
        apply hxy
        apply UInt8.toNat_inj.mp
        omega
      simp [hxy, hne]

/-- `str_ieq` against a string without NUL compares the lower-cased bytes. -/
lemma strIeq_iff {a b : Str} (h0 : 0 ∉ b.bytes) :
    strIeq a b = true ↔ a.bytes.map tolower = b.bytes.map tolower := by
  rw [strIeq]
  by_cases hlen : a.len = b.len
  · simp only [hlen, ne_eq, not_true_eq_false, if_false, decide_eq_true_eq]
    have h := npStrncasecmp_eq_zero_iff a.bytes b.bytes hlen h0
    rwa [show a.bytes.length = b.len from hlen] at h
  · simp only [ne_eq, hlen, not_false_eq_true, if_true, Bool.false_eq_true, false_iff]
    intro h
    exact hlen (by simpa [Str.len] using congrArg List.length h)

/-! ### Trimming -/

/-- A string without white space at its ends. -/
def Trimmed (l : List UInt8) : Prop :=
  (∀ c ∈ l.head?, isspace c = false) ∧ ∀ c ∈ l.getLast?, isspace c = false

instance (l : List UInt8) : Decidable (Trimmed l) := inferInstanceAs (Decidable (_ ∧ _))

lemma Trimmed.dropWhile_eq {l : List UInt8} (h : Trimmed l) : l.dropWhile isspace = l := by
  cases l with
  | nil => rfl
  | cons c l => rw [List.dropWhile_cons_of_neg]; simpa using h.1 c (by simp)

lemma Trimmed.rdropWhile_eq {l : List UInt8} (h : Trimmed l) : l.rdropWhile isspace = l := by
  rw [List.rdropWhile_eq_self_iff]
  intro hl
  have := h.2 (l.getLast hl) (by simp [List.getLast?_eq_getLast_of_ne_nil hl])
  simp [this]

/-- Trimming leaves a trimmed string alone. -/
lemma strTrim_of_trimmed {l : List UInt8} (h : Trimmed l) (p : Ptr) :
    (strTrim ⟨p, l⟩).bytes = l := by
  simp [strTrim, strTrimLeft, strTrimRight, h.dropWhile_eq, h.rdropWhile_eq]

/-- Trimming does not care where the string lies, or for a blank in front of it. -/
lemma strTrim_cons_blank (p q : Ptr) (l : List UInt8) :
    (strTrim ⟨p, 32 :: l⟩).bytes = (strTrim ⟨q, l⟩).bytes := by
  have : isspace 32 = true := by decide
  simp [strTrim, strTrimLeft, strTrimRight, this]

/-- A trimmed string is a part of the string. -/
lemma strTrim_isInfix (s : Str) : (strTrim s).bytes <:+: s.bytes :=
  (List.rdropWhile_prefix _ _).isInfix.trans (List.dropWhile_suffix _).isInfix

lemma strTrim_trimmed (s : Str) : Trimmed (strTrim s).bytes := by
  rw [strTrim, strTrimRight, strTrimLeft]
  constructor
  · intro c hc
    obtain ⟨t, ht⟩ := List.rdropWhile_prefix isspace (s.bytes.dropWhile isspace)
    have hhead : (s.bytes.dropWhile isspace).head? = some c := by
      rw [← ht, List.head?_append, Option.mem_def.mp hc]
      rfl
    rw [← List.find?_not_eq_head?_dropWhile] at hhead
    simpa using List.find?_some hhead
  · intro c hc
    obtain ⟨hne, rfl⟩ := List.mem_getLast?_eq_getLast hc
    simpa using List.rdropWhile_last_not isspace (s.bytes.dropWhile isspace) hne

/-! ### Numerals -/

lemma isspace_of_isdigit (c : UInt8) (h : isdigit c = true) : isspace c = false := by
  simp only [isdigit, isspace, Bool.and_eq_true, decide_eq_true_eq, Bool.or_eq_false_iff,
    Bool.and_eq_false_iff, decide_eq_false_iff_not] at h ⊢
  grind

/-- `strtoll` reads a string of digits to its end. -/
lemma strtoll_digits {l : List UInt8} (h : ∀ c ∈ l, isdigit c = true) (hne : l ≠ []) :
    strtoll (l ++ [0]) = (min llongMax (decVal l), l.length) := by
  obtain ⟨c, l', rfl⟩ := List.exists_cons_of_ne_nil hne
  have hc := h c (by simp)
  have hspace : (c :: l' ++ [0]).takeWhile isspace = [] := by
    simp [isspace_of_isdigit c hc]
  have h45 : c ≠ 45 := by rintro rfl; exact absurd hc (by decide)
  have h43 : c ≠ 43 := by rintro rfl; exact absurd hc (by decide)
  have hdigits : (c :: l' ++ [0]).takeWhile isdigit = c :: l' := by
    rw [List.takeWhile_append_of_pos h]
    simp [show isdigit 0 = false by decide]
  have hmax : max llongMin (min llongMax (decVal (c :: l') : ℤ))
      = min llongMax (decVal (c :: l')) := by
    have hv : (0 : ℤ) ≤ decVal (c :: l') := by positivity
    rw [llongMin, llongMax]
    omega
  rw [strtoll, hspace]
  simp only [List.length_nil, List.drop_zero, List.cons_append, List.head?_cons,
    Option.some.injEq, h45, h43, or_self, if_false]
  rw [← List.cons_append, hdigits, if_neg hne, hmax]
  simp

/-- `str_to_int` reads a string of at most 31 digits as its value, saturated. -/
lemma strToInt_digits {l : List UInt8} (h : ∀ c ∈ l, isdigit c = true) (hne : l ≠ [])
    (hlen : l.length < 32) (p : Ptr) :
    strToInt ⟨p, l⟩ = some (min llongMax (decVal l)) := by
  have hl0 : l.length ≠ 0 := by simpa using hne
  rw [strToInt, Str.len_mk, if_neg hl0, if_neg (by omega)]
  simp [strtoll_digits h hne, hl0]

lemma isdigit_of_mem_decimal {n : ℕ} {c : UInt8} (h : c ∈ decimal n) : isdigit c = true := by
  obtain ⟨d, hd, rfl⟩ := List.mem_map.mp h
  have hdig : d.isDigit := Nat.isDigit_of_mem_toDigits (by norm_num) (by norm_num) hd
  simp only [Char.isDigit, Bool.and_eq_true, decide_eq_true_eq] at hdig
  have h1 : 48 ≤ d.toNat := by simpa using UInt32.le_iff_toNat_le.mp hdig.1
  have h2 : d.toNat ≤ 57 := by simpa using UInt32.le_iff_toNat_le.mp hdig.2
  have hval : d.toNat.toUInt8.toNat = d.toNat := by
    rw [Nat.toUInt8, UInt8.toNat_ofNat']
    omega
  simp only [isdigit, Bool.and_eq_true, decide_eq_true_eq, UInt8.le_iff_toNat_le]
  rw [hval]
  exact ⟨h1, h2⟩

lemma lf_notMem_decimal (n : ℕ) : lf ∉ decimal n := fun h =>
  absurd (isdigit_of_mem_decimal h) (by decide)

lemma decimal_ne_nil (n : ℕ) : decimal n ≠ [] := by
  simp [decimal, Nat.toDigits_ne_nil]

/-- The digits of a number below a power of ten. -/
lemma length_decimal_le_of_lt {n k : ℕ} (hk : 0 < k) (h : n < 10 ^ k) :
    (decimal n).length ≤ k := by
  rw [decimal, List.length_map]
  exact Nat.toDigits_length 10 n k hk h

lemma length_decimal_le {n : ℕ} (h : n < 2 ^ 63) : (decimal n).length ≤ 31 :=
  length_decimal_le_of_lt (by norm_num) (by omega)

/-- A numeral has nothing but digits, and a sign in front. -/
lemma mem_decimalInt {n : ℤ} {c : UInt8} (h : c ∈ decimalInt n) : c = 45 ∨ isdigit c = true := by
  rw [decimalInt] at h
  split_ifs at h
  · exact (List.mem_cons.mp h).imp_right isdigit_of_mem_decimal
  · exact Or.inr (isdigit_of_mem_decimal h)

lemma length_decimalInt_le {n : ℤ} {k : ℕ} (hk : 0 < k) (h : n.natAbs < 10 ^ k) :
    (decimalInt n).length ≤ k + 1 := by
  rw [decimalInt]
  split_ifs with hneg
  · exact Nat.succ_le_succ (length_decimal_le_of_lt hk h)
  · have htoNat : n.toNat < 10 ^ k := by omega
    exact (length_decimal_le_of_lt hk htoNat).trans (Nat.le_succ k)

lemma decVal_decimal (n : ℕ) : decVal (decimal n) = n := by
  have hfold : ∀ (l : List Char), (∀ d ∈ l, d.toNat < 256) → ∀ acc,
      (l.map fun c => c.toNat.toUInt8).foldl (fun acc c => 10 * acc + (c.toNat - 48)) acc
        = Nat.ofDigitChars 10 l acc := by
    intro l
    induction l with
    | nil => intro _ acc; simp
    | cons d l ih =>
      intro hl acc
      have hd := hl d (by simp)
      have hval : d.toNat.toUInt8.toNat = d.toNat := by
        rw [Nat.toUInt8, UInt8.toNat_ofNat']
        omega
      rw [List.map_cons, List.foldl_cons, ih (fun e he => hl e (by simp [he])), hval,
        Nat.ofDigitChars_cons]
      rfl
  rw [decVal, decimal, hfold, Nat.ofDigitChars_ten_toDigits]
  intro d hd
  have hdig : d.isDigit := Nat.isDigit_of_mem_toDigits (by norm_num) (by norm_num) hd
  simp only [Char.isDigit, Bool.and_eq_true, decide_eq_true_eq] at hdig
  have h2 : d.toNat ≤ 57 := by simpa using UInt32.le_iff_toNat_le.mp hdig.2
  omega

/-- `str_to_int` reads the numeral of every number below `2^63`. -/
lemma strToInt_decimal {n : ℕ} (h : n < 2 ^ 63) (p : Ptr) :
    strToInt ⟨p, decimal n⟩ = some (n : ℤ) := by
  have hlen := length_decimal_le h
  rw [strToInt_digits (fun c hc => isdigit_of_mem_decimal hc) (decimal_ne_nil n) (by omega),
    decVal_decimal, llongMax]
  congr 1
  omega

/-! ### C strings and addresses -/

lemma zero_notMem_cstr (l : List UInt8) : 0 ∉ cstr l := by
  intro hmem
  simpa using List.mem_takeWhile_imp hmem

lemma cstr_isPrefix (l : List UInt8) : cstr l <+: l := List.takeWhile_prefix _

lemma length_cstr_le (l : List UInt8) : (cstr l).length ≤ l.length := (cstr_isPrefix l).length_le

/-- A string is printed whole exactly when it has no NUL. -/
lemma cstr_eq_self_iff {l : List UInt8} : cstr l = l ↔ 0 ∉ l := by
  rw [cstr, List.takeWhile_eq_self_iff]
  constructor
  · intro h hmem
    simpa using h 0 hmem
  · intro h c hc
    rw [bne_iff_ne]
    rintro rfl
    exact h hc

/-- A dotted quad is made of digits and dots. -/
lemma mem_inetNtop {ip : InAddr} {c : UInt8} (h : c ∈ inetNtop ip) : isdigit c = true ∨ c = 46 := by
  simp only [inetNtop, List.mem_append, List.mem_cons] at h
  rcases h with h | rfl | h | rfl | h | rfl | h
  · exact Or.inl (isdigit_of_mem_decimal h)
  · exact Or.inr rfl
  · exact Or.inl (isdigit_of_mem_decimal h)
  · exact Or.inr rfl
  · exact Or.inl (isdigit_of_mem_decimal h)
  · exact Or.inr rfl
  · exact Or.inl (isdigit_of_mem_decimal h)

/-- A letter that is no digit and no dot does not occur in a dotted quad. -/
lemma notMem_inetNtop (ip : InAddr) {c : UInt8} (hc : isdigit c = false) (hdot : c ≠ 46) :
    c ∉ inetNtop ip := by
  intro h
  rcases mem_inetNtop h with h1 | h1
  · simp [hc] at h1
  · exact hdot h1

lemma trimmed_inetNtop (ip : InAddr) : Trimmed (inetNtop ip) := by
  have hall : ∀ c ∈ inetNtop ip, isspace c = false := by
    intro c hc
    rcases mem_inetNtop hc with h | rfl
    · exact isspace_of_isdigit c h
    · decide
  exact ⟨fun c hc => hall c (List.mem_of_mem_head? hc),
    fun c hc => hall c (List.mem_of_getLast? hc)⟩

/-- A dotted quad fits `INET_ADDRSTRLEN`, the final NUL included. -/
lemma length_inetNtop_le (ip : InAddr) : (inetNtop ip).length ≤ 15 := by
  have hdec : ∀ c : UInt8, (decimal c.toNat).length ≤ 3 := by
    intro c
    rw [decimal, List.length_map]
    exact Nat.toDigits_length 10 _ 3 (by norm_num) (by have := c.toNat_lt; omega)
  have ha := hdec ip.a
  have hb := hdec ip.b
  have hc := hdec ip.c
  have hd := hdec ip.d
  simp only [inetNtop, List.length_append, List.length_cons]
  omega

end Nproxy
