import Mathlib.Tactic

/-!
The token bucket: at most `burst` tokens, `rate` new ones for every unit of time, one for
every call that is accepted.

`Bucket` is a bucket in use; one that was never called is `none`, and full. `decisions` is
what a sequence of calls is told. The tokens that are there and those that the clock will
still bring pay for the calls that are accepted, which gives the bound on any window of
time (`accepted_le`).
-/

namespace TokenBucket

variable {K : Type*} [Field K] [LinearOrder K]

/-- A bucket as its last call has left it. -/
structure Bucket (K : Type*) where
  tokens : K
  last : ℤ

/-- The tokens that a call finds at time `now`. -/
def level (rate burst : K) (b : Option (Bucket K)) (now : ℤ) : K :=
  match b with
  | none => burst
  | some b => min burst (b.tokens + (now - b.last : ℤ) * rate)

/-- One call at time `now`: is it accepted? -/
def call (rate burst : K) (b : Option (Bucket K)) (now : ℤ) : Bool × Bucket K :=
  if level rate burst b now < 1 then (false, ⟨level rate burst b now, now⟩)
  else (true, ⟨level rate burst b now - 1, now⟩)

/-- What the calls at these times are told. -/
def decisions (rate burst : K) : Option (Bucket K) → List ℤ → List Bool
  | _, [] => []
  | b, t :: ts =>
    let r := call rate burst b t
    r.1 :: decisions rate burst (some r.2) ts

/-- How many of the calls are accepted at times from `a` to `b`. -/
def accepted (a b : ℤ) (ts : List ℤ) (ds : List Bool) : ℕ :=
  (ts.zip ds).countP fun x => a ≤ x.1 ∧ x.1 ≤ b ∧ x.2 = true

/-! ### The range of the tokens -/

lemma level_le (rate burst : K) (bucket : Option (Bucket K)) (now : ℤ) :
    level rate burst bucket now ≤ burst := by
  cases bucket with
  | none => exact le_rfl
  | some b => exact min_le_left _ _

@[simp] lemma call_last (rate burst : K) (bucket : Option (Bucket K)) (now : ℤ) :
    (call rate burst bucket now).2.last = now := by
  rw [call]
  split <;> rfl

lemma call_tokens (rate burst : K) (bucket : Option (Bucket K)) (now : ℤ) :
    (call rate burst bucket now).2.tokens + (if (call rate burst bucket now).1 then 1 else 0) =
      level rate burst bucket now := by
  rw [call]
  split <;> simp

/-- The tokens of a bucket are between none and `burst`. -/
structure InRange (burst : K) (b : Bucket K) : Prop where
  nonneg : 0 ≤ b.tokens
  le_burst : b.tokens ≤ burst

/-- A bucket that was used, if at all, within range and not after `now`. -/
def Ready (burst : K) (bucket : Option (Bucket K)) (now : ℤ) : Prop :=
  ∀ b, bucket = some b → InRange burst b ∧ b.last ≤ now

variable [IsStrictOrderedRing K] {rate burst : K} {bucket : Option (Bucket K)}

lemma level_nonneg (hrate : 0 ≤ rate) (hburst : 0 ≤ burst) {now : ℤ}
    (hb : Ready burst bucket now) : 0 ≤ level rate burst bucket now := by
  cases bucket with
  | none => exact hburst
  | some b =>
    obtain ⟨hrange, hlast⟩ := hb b rfl
    have hdiff : (0 : K) ≤ ((now - b.last : ℤ) : K) := by exact_mod_cast sub_nonneg.mpr hlast
    exact le_min hburst (add_nonneg hrange.nonneg (mul_nonneg hdiff hrate))

/-- **A call leaves the tokens in range.** -/
lemma inRange_call (hrate : 0 ≤ rate) (hburst : 0 ≤ burst) {now : ℤ}
    (hb : Ready burst bucket now) : InRange burst (call rate burst bucket now).2 := by
  have hlevel := level_le rate burst bucket now
  have h0 := level_nonneg hrate hburst hb
  rw [call]
  split
  · exact ⟨h0, hlevel⟩
  · rename_i hone
    exact ⟨sub_nonneg.mpr (not_lt.mp hone), (sub_le_self _ zero_le_one).trans hlevel⟩

/-! ### A window of time -/

lemma accepted_cons (a b t : ℤ) (ts : List ℤ) (d : Bool) (ds : List Bool) :
    accepted a b (t :: ts) (d :: ds) =
      accepted a b ts ds + if a ≤ t ∧ t ≤ b ∧ d = true then 1 else 0 := by
  simp [accepted, List.countP_cons]

/-- Nothing is accepted behind the window. -/
lemma accepted_eq_zero {a b : ℤ} {ts : List ℤ} (h : ∀ t ∈ ts, b < t) (ds : List Bool) :
    accepted a b ts ds = 0 := by
  rw [accepted, List.countP_eq_zero]
  intro x hx
  have := h x.1 (List.of_mem_zip hx).1
  simp only [decide_eq_true_eq, not_and]
  omega

lemma forall_lt_of_lt {b t : ℤ} {ts : List ℤ} (hts : (t :: ts).Pairwise (· ≤ ·)) (h : b < t) :
    ∀ t' ∈ t :: ts, b < t' := by
  rw [List.pairwise_cons] at hts
  rintro t' (_ | ⟨_, ht'⟩)
  · exact h
  · exact h.trans_le (hts.1 t' ht')

lemma mul_sub_nonneg (hrate : 0 ≤ rate) {s t : ℤ} (h : s ≤ t) :
    (0 : K) ≤ (t - s : ℤ) * rate := by
  have hdiff : (0 : K) ≤ ((t - s : ℤ) : K) := by exact_mod_cast sub_nonneg.mpr h
  exact mul_nonneg hdiff hrate

/-- What the first call adds to the count, it takes from the level it finds. -/
lemma accepted_decisions_cons_le (rate burst : K) (bucket : Option (Bucket K)) (a b t : ℤ)
    (ts : List ℤ) :
    (accepted a b (t :: ts) (decisions rate burst bucket (t :: ts)) : K) ≤
      accepted a b ts (decisions rate burst (some (call rate burst bucket t).2) ts) +
        (level rate burst bucket t - (call rate burst bucket t).2.tokens) := by
  have hone : ((if a ≤ t ∧ t ≤ b ∧ (call rate burst bucket t).1 = true then 1 else 0 : ℕ) : K) ≤
      if (call rate burst bucket t).1 then 1 else 0 := by
    split_ifs with h1 h2 <;> simp_all
  rw [decisions, accepted_cons, Nat.cast_add, ← call_tokens rate burst bucket t,
    add_sub_cancel_left]
  exact add_le_add_right hone _

/-- **The tokens pay**: from a bucket in use on, what is accepted until `b` is paid by the
tokens it has and those that the clock brings until then. -/
lemma accepted_le_of_used (hrate : 0 ≤ rate) (hburst : 0 ≤ burst) {a b : ℤ} {ts : List ℤ}
    (hts : ts.Pairwise (· ≤ ·)) {k : Bucket K} (hk : InRange burst k)
    (hlast : ∀ t ∈ ts, k.last ≤ t) (hb : k.last ≤ b) :
    (accepted a b ts (decisions rate burst (some k) ts) : K) ≤
      k.tokens + (b - k.last : ℤ) * rate := by
  induction ts generalizing k with
  | nil => simpa [decisions, accepted] using add_nonneg hk.nonneg (mul_sub_nonneg hrate hb)
  | cons t ts ih =>
    by_cases htb : t ≤ b
    · have hready : Ready burst (some k) t := by
        rintro k' hk'
        obtain rfl := Option.some.inj hk'
        exact ⟨hk, hlast t (by simp)⟩
      have hrest := ih (List.pairwise_cons.mp hts).2 (inRange_call hrate hburst hready)
        (by simpa using (List.pairwise_cons.mp hts).1) (by simpa using htb)
      have hfirst := accepted_decisions_cons_le rate burst (some k) a b t ts
      have hlevel : level rate burst (some k) t ≤ k.tokens + (t - k.last : ℤ) * rate :=
        min_le_right _ _
      rw [call_last] at hrest
      push_cast at hrest hlevel ⊢
      linarith
    · have hzero := accepted_eq_zero (a := a) (forall_lt_of_lt hts (not_le.mp htb))
        (decisions rate burst (some k) (t :: ts))
      rw [hzero, Nat.cast_zero]
      exact add_nonneg hk.nonneg (mul_sub_nonneg hrate hb)

/-- **The bound on a window of time.** -/
lemma accepted_le (hrate : 0 ≤ rate) (hburst : 0 ≤ burst) {a b : ℤ} (hab : a ≤ b) {ts : List ℤ}
    (hts : ts.Pairwise (· ≤ ·)) (hready : ∀ t ∈ ts, Ready burst bucket t) :
    (accepted a b ts (decisions rate burst bucket ts) : K) ≤ burst + (b - a : ℤ) * rate := by
  induction ts generalizing bucket with
  | nil => simpa [decisions, accepted] using add_nonneg hburst (mul_sub_nonneg hrate hab)
  | cons t ts ih =>
    obtain ⟨hle, hts'⟩ := List.pairwise_cons.mp hts
    have hcall := inRange_call hrate hburst (hready t (by simp))
    by_cases hta : t < a
    · -- a call in front of the window counts for nothing
      have hready' : ∀ t' ∈ ts, Ready burst (some (call rate burst bucket t).2) t' := by
        rintro t' ht' k' hk'
        obtain rfl := Option.some.inj hk'
        exact ⟨hcall, by simpa using hle t' ht'⟩
      rw [decisions, accepted_cons, if_neg (by omega)]
      exact ih hts' hready'
    · by_cases htb : t ≤ b
      · -- the first call in the window finds at most `burst` tokens
        have hrest := accepted_le_of_used (a := a) hrate hburst hts' hcall (by simpa using hle)
          (by simpa using htb)
        have hfirst := accepted_decisions_cons_le rate burst bucket a b t ts
        have hlevel := level_le rate burst bucket t
        have hlater := mul_sub_nonneg hrate (not_lt.mp hta)
        rw [call_last] at hrest
        push_cast at hrest hlater ⊢
        linarith
      · have hzero := accepted_eq_zero (a := a) (forall_lt_of_lt hts (not_le.mp htb))
          (decisions rate burst bucket (t :: ts))
        rw [hzero, Nat.cast_zero]
        exact add_nonneg hburst (mul_sub_nonneg hrate hab)

end TokenBucket
