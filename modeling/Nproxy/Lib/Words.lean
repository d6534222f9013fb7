import Mathlib.Tactic
import Mathlib.Data.Nat.Digits.Lemmas

/-!
Numbers as bytes: the words of a machine that stores the lowest byte first, and numerals in
base sixteen.

Both have a fixed number of digits, so that `Nat.digitsAppend` is the number written out and
`Nat.ofDigits` reads it back. `twos` and `ofTwos` are the numbers with a sign.
-/

namespace Words

/-- The word of `k` bytes that holds `n`, the lowest byte first. -/
def wordBytes (k n : ℕ) : List UInt8 := (Nat.digitsAppend 256 k n).map Nat.toUInt8

/-- The number in a word, the least byte first. -/
def ofWordBytes (l : List UInt8) : ℕ := Nat.ofDigits 256 (l.map UInt8.toNat)

/-- A number with a sign as one without, of `w` bits. -/
def twos (w : ℕ) (x : ℤ) : ℕ := (x % 2 ^ w).toNat

/-- The number with a sign that `w` bits stand for. -/
def ofTwos (w n : ℕ) : ℤ := (n : ℤ).bmod (2 ^ w)

/-- A digit in base sixteen. -/
def hexDigit (d : ℕ) : UInt8 := if d < 10 then 48 + d.toUInt8 else 87 + d.toUInt8

/-- The numeral of `k` digits in base sixteen, the highest digit first. -/
def hexBytes (k n : ℕ) : List UInt8 := ((Nat.digitsAppend 16 k n).map hexDigit).reverse

variable {k n : ℕ}

lemma length_wordBytes (h : n < 256 ^ k) : (wordBytes k n).length = k := by
  rw [wordBytes, List.length_map, Nat.length_digitsAppend (by decide) k h]

/-- **A word holds its number.** -/
lemma ofWordBytes_wordBytes (h : n < 256 ^ k) : ofWordBytes (wordBytes k n) = n := by
  have hdigits : (wordBytes k n).map UInt8.toNat = Nat.digitsAppend 256 k n := by
    rw [wordBytes, List.map_map]
    refine (List.map_congr_left fun d hd => ?_).trans (List.map_id _)
    have hd : d < 256 := Nat.lt_of_mem_digitsAppend (by decide) k d hd
    simp [Nat.mod_eq_of_lt hd]
  rw [ofWordBytes, hdigits]
  exact (Nat.setInvOn_digitsAppend_ofDigits (by decide) k).2 h

lemma twos_lt (w : ℕ) (x : ℤ) : twos w x < 2 ^ w := by
  have hpos : (0 : ℤ) < 2 ^ w := by positivity
  have hlt := Int.emod_lt_of_pos x hpos
  rw [twos, Int.toNat_lt (Int.emod_nonneg x hpos.ne')]
  exact_mod_cast hlt

/-- A number that is small enough stands for itself. -/
lemma bmod_eq_self {w : ℕ} {x : ℤ} (hlo : -2 ^ w ≤ x) (hhi : x < 2 ^ w) :
    x.bmod (2 ^ (w + 1)) = x := by
  have hcast : ((2 ^ (w + 1) : ℕ) : ℤ) = 2 * 2 ^ w := by push_cast; ring
  refine Int.bmod_eq_of_le ?_ ?_
  · rw [hcast]
    omega
  · rw [hcast]
    omega

lemma ofTwos_of_lt {w : ℕ} (h : n < 2 ^ w) : ofTwos (w + 1) n = n := by
  have hcast : (n : ℤ) < 2 ^ w := by exact_mod_cast h
  exact bmod_eq_self ((neg_nonpos.mpr (by positivity)).trans (Int.natCast_nonneg n)) hcast

/-- **The sign is kept.** -/
lemma ofTwos_twos {w : ℕ} {x : ℤ} (hlo : -2 ^ w ≤ x) (hhi : x < 2 ^ w) :
    ofTwos (w + 1) (twos (w + 1) x) = x := by
  have hpos : (0 : ℤ) < 2 ^ (w + 1) := by positivity
  have hcast : ((2 ^ (w + 1) : ℕ) : ℤ) = 2 ^ (w + 1) := by push_cast; rfl
  rw [ofTwos, twos, Int.toNat_of_nonneg (Int.emod_nonneg x hpos.ne'), ← hcast, Int.emod_bmod]
  exact bmod_eq_self hlo hhi

/-- The value of a digit in base sixteen. -/
def hexValue (c : UInt8) : ℕ := if c < 58 then c.toNat - 48 else c.toNat - 87

lemma hexValue_hexDigit {d : ℕ} (hd : d < 16) : hexValue (hexDigit d) = d := by
  interval_cases d <;> decide

lemma length_hexBytes (h : n < 16 ^ k) : (hexBytes k n).length = k := by
  rw [hexBytes, List.length_reverse, List.length_map, Nat.length_digitsAppend (by decide) k h]

/-- **Different numbers have different numerals.** -/
lemma hexBytes_inj {n' : ℕ} (h : n < 16 ^ k) (h' : n' < 16 ^ k)
    (heq : hexBytes k n = hexBytes k n') : n = n' := by
  have hread : ∀ m, (hexBytes k m).reverse.map hexValue = Nat.digitsAppend 16 k m := by
    intro m
    rw [hexBytes, List.reverse_reverse, List.map_map]
    refine (List.map_congr_left fun d hd => ?_).trans (List.map_id _)
    exact hexValue_hexDigit (Nat.lt_of_mem_digitsAppend (by decide) k d hd)
  refine (Nat.bijOn_digitsAppend (by decide) k).injOn h h' ?_
  rw [← hread n, ← hread n', heq]

end Words
