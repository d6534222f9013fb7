import Nproxy.Http.Framing

/-!
`str_to_int`, through which the parser reads a `Content-Length`.

The function copies at most 31 bytes, ends the copy with a NUL and asks `strtoll` for a number
that ends at a NUL. A NUL of the string itself will do, and `errno` is not looked at.

* `Numeral`: an optional sign and digits, with the number they denote.
* `strToInt_eq_some_iff`: what is accepted is a numeral up to the first NUL, and what is
  returned is its number, saturated.
* `readsExactly_iff`: so integers are read exactly if and only if there is no such NUL and no
  number out of range.
-/

namespace Nproxy

/-- An optional sign and digits, and the number that they denote. -/
inductive Numeral : List UInt8 → ℤ → Prop where
  | plain {l : List UInt8} (h : Digits l) : Numeral l (decVal l)
  | plus {l : List UInt8} (h : Digits l) : Numeral (43 :: l) (decVal l)
  | minus {l : List UInt8} (h : Digits l) : Numeral (45 :: l) (-decVal l)

/-- The numbers of an `i64`. -/
def IsI64 (v : ℤ) : Prop := -2 ^ 63 ≤ v ∧ v < 2 ^ 63

/-- `str_to_int(s, &out)`: what is returned, and what `out` is afterwards. -/
def strToIntOut (s : List UInt8) (out : ℤ) : ℤ × ℤ :=
  match strToInt ⟨.mem, s⟩ with
  | some v => (0, v)
  | none => (-1, out)

lemma strToIntOut_eq_zero_iff {s : List UInt8} {out v : ℤ} :
    strToIntOut s out = (0, v) ↔ strToInt ⟨.mem, s⟩ = some v := by
  rw [strToIntOut]
  cases strToInt ⟨.mem, s⟩ with
  | none => simp
  | some w => simp

lemma strToIntOut_eq_neg_iff {s : List UInt8} {out : ℤ} :
    strToIntOut s out = (-1, out) ↔ strToInt ⟨.mem, s⟩ = none := by
  rw [strToIntOut]
  cases strToInt ⟨.mem, s⟩ with
  | none => simp
  | some w => simp

/-! ### What `strtoll` makes of the copy -/

lemma isdigit_ne_zero {c : UInt8} (hc : isdigit c = true) : c ≠ 0 := by
  rintro rfl
  exact absurd hc (by decide)

lemma cstr_cons_of_ne {c : UInt8} (hc : c ≠ 0) (l : List UInt8) : cstr (c :: l) = c :: cstr l :=
  List.takeWhile_cons_of_pos (bne_iff_ne.mpr hc)

/-- The digits stop at a NUL exactly if the C string is digits throughout. -/
lemma getD_digits_eq_zero_iff (l : List UInt8) :
    (l ++ [0]).getD (l.takeWhile isdigit).length 0 = 0 ↔ cstr l = l.takeWhile isdigit := by
  induction l with
  | nil => simp [cstr]
  | cons c l ih =>
    by_cases hc : isdigit c = true
    · rw [List.takeWhile_cons_of_pos hc, cstr_cons_of_ne (isdigit_ne_zero hc), List.cons.injEq,
        ← ih]
      simp
    · rw [List.takeWhile_cons_of_neg hc, cstr, List.takeWhile_cons]
      by_cases hc0 : c = 0 <;> simp [hc0]

lemma takeWhile_isdigit_copy (l : List UInt8) :
    (l ++ [0]).takeWhile isdigit = l.takeWhile isdigit := by
  induction l with
  | nil => rfl
  | cons c l ih => rw [List.cons_append, List.takeWhile_cons, List.takeWhile_cons, ih]

lemma takeWhile_isdigit_cstr (l : List UInt8) :
    (cstr l).takeWhile isdigit = l.takeWhile isdigit := by
  rw [cstr, List.takeWhile_takeWhile]
  congr 1
  funext c
  by_cases hc : isdigit c = true
  · simp [hc, isdigit_ne_zero hc]
  · simp [hc]

lemma digits_cstr_iff (l : List UInt8) :
    Digits (cstr l) ↔ l.takeWhile isdigit ≠ [] ∧ cstr l = l.takeWhile isdigit := by
  constructor
  · intro h
    have heq : cstr l = l.takeWhile isdigit :=
      (List.takeWhile_eq_self_iff.mpr h.2).symm.trans (takeWhile_isdigit_cstr l)
    exact ⟨heq ▸ h.1, heq⟩
  · rintro ⟨hne, heq⟩
    rw [heq]
    exact ⟨hne, fun c hc => List.mem_takeWhile_imp hc⟩

/-- The number that a saturated conversion gives. -/
def saturate (v : ℤ) : ℤ := max llongMin (min llongMax v)

lemma saturate_eq_self_iff (v : ℤ) : saturate v = v ↔ IsI64 v := by
  rw [saturate, IsI64, llongMin, llongMax]
  omega

/-- The length of the sign. -/
def signLength (s : List UInt8) : ℕ := if s.head? = some 45 ∨ s.head? = some 43 then 1 else 0

/-- What follows the sign, up to a NUL. -/
def magnitude (s : List UInt8) : List UInt8 := cstr (s.drop (signLength s))

/-- The number, if these are digits. -/
def signedVal (s : List UInt8) : ℤ :=
  if s.head? = some 45 then -(decVal (magnitude s) : ℤ) else decVal (magnitude s)

lemma numeral_minus_iff {l : List UInt8} {v : ℤ} :
    Numeral (45 :: l) v ↔ Digits l ∧ v = -decVal l := by
  constructor
  · intro h
    cases h with
    | plain hl => exact absurd (hl.2 45 (by simp)) (by decide)
    | minus hl => exact ⟨hl, rfl⟩
  · rintro ⟨hl, rfl⟩
    exact .minus hl

lemma numeral_plus_iff {l : List UInt8} {v : ℤ} :
    Numeral (43 :: l) v ↔ Digits l ∧ v = decVal l := by
  constructor
  · intro h
    cases h with
    | plain hl => exact absurd (hl.2 43 (by simp)) (by decide)
    | plus hl => exact ⟨hl, rfl⟩
  · rintro ⟨hl, rfl⟩
    exact .plus hl

lemma numeral_unsigned_iff {l : List UInt8} (h45 : l.head? ≠ some 45) (h43 : l.head? ≠ some 43)
    {v : ℤ} : Numeral l v ↔ Digits l ∧ v = decVal l := by
  constructor
  · intro h
    cases h with
    | plain hl => exact ⟨hl, rfl⟩
    | plus hl => exact absurd rfl h43
    | minus hl => exact absurd rfl h45
  · rintro ⟨hl, rfl⟩
    exact .plain hl

/-- The sign and the digits of a C string. -/
lemma numeral_cstr_iff (s : List UInt8) (v : ℤ) :
    Numeral (cstr s) v ↔ Digits (magnitude s) ∧ v = signedVal s := by
  by_cases h45 : s.head? = some 45
  · obtain ⟨l, rfl⟩ := List.head?_eq_some_iff.mp h45
    rw [cstr_cons_of_ne (by decide), numeral_minus_iff]
    rfl
  by_cases h43 : s.head? = some 43
  · obtain ⟨l, rfl⟩ := List.head?_eq_some_iff.mp h43
    rw [cstr_cons_of_ne (by decide), numeral_plus_iff]
    rfl
  have hsign : signLength s = 0 := if_neg (by simp [h45, h43])
  have hhead (c : UInt8) (hc : s.head? ≠ some c) : (cstr s).head? ≠ some c := fun h => by
    obtain ⟨rest, hrest⟩ := cstr_isPrefix s
    rw [← hrest, List.head?_append, h] at hc
    exact hc rfl
  rw [numeral_unsigned_iff (hhead 45 h45) (hhead 43 h43), signedVal, if_neg h45, magnitude, hsign,
    List.drop_zero]

lemma strtoll_copy {s : List UInt8} (hspace : ∀ c ∈ s.head?, isspace c = false) :
    strtoll (s ++ [0]) =
      let digits := (s.drop (signLength s)).takeWhile isdigit
      if digits = [] then (0, 0)
      else (saturate (if s.head? = some 45 then -(decVal digits : ℤ) else decVal digits),
        signLength s + digits.length) := by
  cases s with
  | nil => rfl
  | cons c l =>
    have hws : (c :: l ++ [0]).takeWhile isspace = [] :=
      List.takeWhile_cons_of_neg (by simp [hspace c rfl])
    have hdigits : ((c :: l ++ [0]).drop (signLength (c :: l))).takeWhile isdigit =
        ((c :: l).drop (signLength (c :: l))).takeWhile isdigit := by
      rw [List.drop_append_of_le_length, takeWhile_isdigit_copy]
      rw [signLength]
      split_ifs <;> simp
    rw [strtoll, hws, ← hdigits]
    simp only [List.length_nil, List.drop_zero, Nat.zero_add]
    rfl

lemma getD_copy (s : List UInt8) (k : ℕ) :
    (s ++ [0]).getD (signLength s + k) 0 = (s.drop (signLength s) ++ [0]).getD k 0 := by
  have hle : signLength s ≤ s.length := by
    rw [signLength]
    split_ifs with h
    · cases s with
      | nil => simp at h
      | cons c l => simp
    · exact Nat.zero_le _
  rw [← List.drop_append_of_le_length hle, List.getD_eq_getElem?_getD, List.getD_eq_getElem?_getD,
    List.getElem?_drop]

/-- **What `str_to_int` accepts** is a numeral up to the first NUL, and it gives its number,
saturated. -/
lemma strToInt_eq_some_iff {s : List UInt8} (hspace : ∀ c ∈ s.head?, isspace c = false) {v : ℤ} :
    strToInt ⟨.mem, s⟩ = some v ↔
      s.length ≤ 31 ∧ ∃ w, Numeral (cstr s) w ∧ v = saturate w := by
  simp only [numeral_cstr_iff, and_assoc, exists_and_left, exists_eq_left]
  rw [strToInt, Str.len_mk]
  by_cases h0 : s.length = 0
  · rw [if_pos h0, List.length_eq_zero_iff.mp h0]
    simp [magnitude, signLength, cstr, Digits]
  rw [if_neg h0]
  by_cases hlong : s.length ≥ 32
  · rw [if_pos hlong]
    simp only [reduceCtorEq, false_iff, not_and]
    omega
  rw [if_neg hlong, and_iff_right (by omega)]
  dsimp only
  rw [strtoll_copy hspace, magnitude, digits_cstr_iff]
  dsimp only
  by_cases hd : (s.drop (signLength s)).takeWhile isdigit = []
  · simp [hd]
  rw [if_neg hd]
  simp only [getD_copy]
  by_cases hend : cstr (s.drop (signLength s)) = (s.drop (signLength s)).takeWhile isdigit
  · have hnul := (getD_digits_eq_zero_iff _).mpr hend
    rw [if_neg (by simp only [hnul]; simp [hd]), signedVal, magnitude, hend]
    simp [hd, eq_comm]
  · rw [if_pos (.inr (by rwa [Ne, getD_digits_eq_zero_iff]))]
    simp [hend]

/-! ### Reading exactly -/

/-- `str_to_int` reads `s` exactly: it returns a number if and only if `s` is a numeral of at
most 31 bytes for that number, and the number fits; if there is none, it fails and leaves `out`
alone. -/
structure ReadsExactly (s : List UInt8) (out : ℤ) : Prop where
  accepts : ∀ v, strToIntOut s out = (0, v) ↔ s.length ≤ 31 ∧ Numeral s v ∧ IsI64 v
  rejects : (¬∃ v, s.length ≤ 31 ∧ Numeral s v ∧ IsI64 v) → strToIntOut s out = (-1, out)

lemma Numeral.cstr_eq {s : List UInt8} {v : ℤ} (h : Numeral s v) : cstr s = s := by
  rw [cstr_eq_self_iff]
  intro h0
  cases h with
  | plain hl => exact isdigit_ne_zero (hl.2 0 h0) rfl
  | plus hl => exact isdigit_ne_zero (hl.2 0 ((List.mem_cons.mp h0).resolve_left (by decide))) rfl
  | minus hl => exact isdigit_ne_zero (hl.2 0 ((List.mem_cons.mp h0).resolve_left (by decide))) rfl

lemma Numeral.unique {s : List UInt8} {v w : ℤ} (hv : Numeral s v) (hw : Numeral s w) : v = w := by
  have hcstr := hv.cstr_eq
  rw [← hcstr, numeral_cstr_iff] at hv hw
  exact hv.2.trans hw.2.symm

/-- **Integers are read exactly**, from a string without white space in front, if and only if it
is longer than 31 bytes, or no numeral stands in front of its first NUL, or it is a numeral as a
whole whose number fits. -/
theorem readsExactly_iff (s : List UInt8) (hspace : ∀ c ∈ s.head?, isspace c = false) (out : ℤ) :
    ReadsExactly s out ↔ s.length ≤ 31 → ∀ v, Numeral (cstr s) v → 0 ∉ s ∧ IsI64 v := by
  constructor
  · intro h hlen v hv
    obtain ⟨-, hs, hrange⟩ := (h.accepts (saturate v)).mp
      (strToIntOut_eq_zero_iff.mpr ((strToInt_eq_some_iff hspace).mpr ⟨hlen, v, hv, rfl⟩))
    have hcstr := hs.cstr_eq
    rw [hcstr] at hv
    refine ⟨cstr_eq_self_iff.mp hcstr, ?_⟩
    rwa [hv.unique hs]
  · intro h
    have hsome (v : ℤ) : strToInt ⟨.mem, s⟩ = some v ↔
        s.length ≤ 31 ∧ Numeral s v ∧ IsI64 v := by
      rw [strToInt_eq_some_iff hspace]
      refine and_congr_right fun hlen => ⟨?_, ?_⟩
      · rintro ⟨w, hw, rfl⟩
        obtain ⟨h0, hrange⟩ := h hlen w hw
        rw [(saturate_eq_self_iff w).mpr hrange]
        rw [cstr_eq_self_iff.mpr h0] at hw
        exact ⟨hw, hrange⟩
      · rintro ⟨hv, hrange⟩
        exact ⟨v, by rwa [hv.cstr_eq], ((saturate_eq_self_iff v).mpr hrange).symm⟩
    refine ⟨fun v => strToIntOut_eq_zero_iff.trans (hsome v), fun hnone => ?_⟩
    rw [strToIntOut_eq_neg_iff, Option.eq_none_iff_forall_ne_some]
    exact fun v hv => hnone ⟨v, (hsome v).mp hv⟩

/-- The numeral `42` is read exactly, over the 7 that `*out` held before. -/
theorem readsExactly_fortyTwo : ReadsExactly (bytes "42") 7 := by
  have hspace : ∀ c ∈ (bytes "42").head?, isspace c = false := by
    intro c hc
    rw [← Option.some.inj hc]
    decide
  refine (readsExactly_iff (bytes "42") hspace 7).mpr fun _ v hv => ⟨by decide, ?_⟩
  have hval : signedVal (bytes "42") = 42 := by decide
  rw [((numeral_cstr_iff _ _).mp hv).2, hval, IsI64]
  norm_num

/-- **A number out of range** is read as `LLONG_MAX`, and what follows a NUL is not read at
all. -/
theorem exists_misread :
    strToIntOut (bytes "9223372036854775808") 0 = (0, 9223372036854775807) ∧
    ¬ReadsExactly (bytes "9223372036854775808") 0 ∧
    strToIntOut (bytes "1\x00x") 0 = (0, 1) ∧ ¬ReadsExactly (bytes "1\x00x") 0 := by
  have hmax : strToIntOut (bytes "9223372036854775808") 0 = (0, 9223372036854775807) := by
    decide +kernel
  have hnul : strToIntOut (bytes "1\x00x") 0 = (0, 1) := by decide +kernel
  refine ⟨hmax, fun h => ?_, hnul, fun h => ?_⟩
  · have hnumeral := ((h.accepts _).mp hmax).2.1
    rw [← hnumeral.cstr_eq, numeral_cstr_iff] at hnumeral
    exact absurd hnumeral.2 (by decide +kernel)
  · exact absurd (((h.accepts _).mp hnul).2.1).cstr_eq (by decide)

end Nproxy
