import Nproxy.Features.RateLimit
import Nproxy.Lib.TokenBucket

/-!
Runs of `rate_limit_check`.

The table is shared by all addresses, but as long as no other address of the run has the slot
of `x`, the slot is the token bucket of `x` (`RateLimiter.Holds`): a call for `x` is a call of
that bucket (`RateLimiter.Holds.self`), every other call leaves it alone
(`table_rateLimitCheck_of_ne`). So the calls for `x` are told what the bucket alone would tell
them (`answersFor_eq_decisions`), and the bounds of `TokenBucket` are those of the limiter.
-/

namespace Nproxy

open TokenBucket

/-- A call of `rate_limit_check`: the address, and what the clock says. -/
structure RlCall where
  ip : List UInt8
  now : ℤ

/-- The slot of an address. -/
def rlSlot (ip : List UInt8) : ℕ := (ipHash ip).toNat % rlTableSize

/-- The limiter after a run of calls. -/
def RateLimiter.after (rl : RateLimiter) (calls : List RlCall) : RateLimiter :=
  calls.foldl (fun rl c => (rateLimitCheck rl c.ip c.now).2) rl

/-- What the calls of a run are told, in order. -/
def RateLimiter.answers (rl : RateLimiter) : List RlCall → List Bool
  | [] => []
  | c :: calls =>
    let r := rateLimitCheck rl c.ip c.now
    r.1 :: r.2.answers calls

/-- What the calls for `x` are told. -/
def RateLimiter.answersFor (rl : RateLimiter) (x : List UInt8) (calls : List RlCall) : List Bool :=
  ((calls.zip (rl.answers calls)).filter fun q => q.1.ip = x).map Prod.snd

/-- How many calls for `x` are let through at times from `a` to `b`. -/
def RateLimiter.acceptedFor (rl : RateLimiter) (x : List UInt8) (a b : ℤ)
    (calls : List RlCall) : ℕ :=
  (calls.zip (rl.answers calls)).countP fun q =>
    q.1.ip = x ∧ a ≤ q.1.now ∧ q.1.now ≤ b ∧ q.2 = true

/-- The times of the calls for `x`. -/
def timesFor (x : List UInt8) (calls : List RlCall) : List ℤ :=
  (calls.filter fun c => c.ip = x).map RlCall.now

/-- No other address of the run has the slot of `x`. -/
def AloneInSlot (x : List UInt8) (calls : List RlCall) : Prop :=
  ∀ c ∈ calls, c.ip ≠ x → rlSlot c.ip ≠ rlSlot x

/-- The clock of the run never goes back. -/
def ClockForward (calls : List RlCall) : Prop := calls.Pairwise fun c d => c.now ≤ d.now

/-- The slot of `x` is the bucket of `x`: not in use yet, or in use for `x`. -/
def RateLimiter.Holds (rl : RateLimiter) (x : List UInt8) : Option (Bucket ℚ) → Prop
  | none => rl.table (rlSlot x) = ⟨[], 0, 0, false⟩
  | some k => rl.table (rlSlot x) = ⟨x, k.tokens, k.last, true⟩

/-! ### One call -/

/-- The bucket that a call works on. -/
def RateLimiter.entry (rl : RateLimiter) (ip : List UInt8) (now : ℤ) : RlBucket :=
  let b := rl.table (rlSlot ip)
  if b.used = false ∨ b.ip ≠ ip then ⟨ip.take 15, rl.burst, now, true⟩ else b

/-- The tokens that a call finds in it. -/
def RateLimiter.refilled (rl : RateLimiter) (ip : List UInt8) (now : ℤ) : ℚ :=
  min rl.burst ((rl.entry ip now).tokens + (now - (rl.entry ip now).lastRefill : ℤ) * rl.rate)

/-- The limiter with `tokens` left in the bucket of a call. -/
def RateLimiter.settle (rl : RateLimiter) (ip : List UInt8) (now : ℤ) (tokens : ℚ) : RateLimiter :=
  { rl with
    table := Function.update rl.table (rlSlot ip)
      ⟨(rl.entry ip now).ip, tokens, now, (rl.entry ip now).used⟩ }

lemma rateLimitCheck_eq (rl : RateLimiter) (ip : List UInt8) (now : ℤ) :
    rateLimitCheck rl ip now =
      if rl.refilled ip now < 1 then (false, rl.settle ip now (rl.refilled ip now))
      else (true, rl.settle ip now (rl.refilled ip now - 1)) := by
  have hentry : (if (rl.table (rlSlot ip)).used = false ∨ (rl.table (rlSlot ip)).ip ≠ ip then
      { ip := ip.take 15, tokens := rl.burst, lastRefill := now, used := true }
    else rl.table (rlSlot ip)) = rl.entry ip now := rfl
  rw [rateLimitCheck]
  simp only [← rlSlot.eq_1, hentry, RateLimiter.refilled, RateLimiter.settle]
  -- the cap at `burst` is the minimum
  by_cases hcap : rl.burst <
      (rl.entry ip now).tokens + (now - (rl.entry ip now).lastRefill : ℤ) * rl.rate
  · simp only [gt_iff_lt, if_pos hcap, min_eq_left hcap.le]
  · simp only [gt_iff_lt, if_neg hcap, min_eq_right (not_lt.mp hcap)]

@[simp] lemma rate_rateLimitCheck (rl : RateLimiter) (ip : List UInt8) (now : ℤ) :
    (rateLimitCheck rl ip now).2.rate = rl.rate := by
  rw [rateLimitCheck_eq]
  split <;> rfl

@[simp] lemma burst_rateLimitCheck (rl : RateLimiter) (ip : List UInt8) (now : ℤ) :
    (rateLimitCheck rl ip now).2.burst = rl.burst := by
  rw [rateLimitCheck_eq]
  split <;> rfl

/-- A call for another slot leaves the slot alone. -/
lemma table_rateLimitCheck_of_ne (rl : RateLimiter) {ip : List UInt8} {i : ℕ} (now : ℤ)
    (h : rlSlot ip ≠ i) : (rateLimitCheck rl ip now).2.table i = rl.table i := by
  rw [rateLimitCheck_eq]
  split <;> exact Function.update_of_ne h.symm _ _

lemma RateLimiter.Holds.of_ne {rl : RateLimiter} {x ip : List UInt8} {k : Option (Bucket ℚ)}
    (h : rl.Holds x k) (now : ℤ) (hne : rlSlot ip ≠ rlSlot x) :
    (rateLimitCheck rl ip now).2.Holds x k := by
  cases k with
  | none => exact (table_rateLimitCheck_of_ne rl now hne).trans h
  | some k => exact (table_rateLimitCheck_of_ne rl now hne).trans h

/-- The entry of `x` is its bucket, loaded at its first use. -/
lemma RateLimiter.Holds.entry {rl : RateLimiter} {x : List UInt8} (hx : x.length ≤ 15)
    {k : Option (Bucket ℚ)} (h : rl.Holds x k) (now : ℤ) :
    (rl.entry x now).ip = x ∧ (rl.entry x now).used = true ∧
      rl.refilled x now = level rl.rate rl.burst k now := by
  cases k with
  | none =>
    have hslot : rl.table (rlSlot x) = ⟨[], 0, 0, false⟩ := h
    simp [RateLimiter.refilled, RateLimiter.entry, hslot, level, List.take_of_length_le hx]
  | some k =>
    have hslot : rl.table (rlSlot x) = ⟨x, k.tokens, k.last, true⟩ := h
    simp [RateLimiter.refilled, RateLimiter.entry, hslot, level]

/-- **A call for `x` is a call of its bucket.** -/
lemma RateLimiter.Holds.self {rl : RateLimiter} {x : List UInt8} (hx : x.length ≤ 15)
    {k : Option (Bucket ℚ)} (h : rl.Holds x k) (now : ℤ) :
    (rateLimitCheck rl x now).1 = (call rl.rate rl.burst k now).1 ∧
      (rateLimitCheck rl x now).2.Holds x (some (call rl.rate rl.burst k now).2) := by
  obtain ⟨hip, hused, hlevel⟩ := h.entry hx now
  have hsettle : ∀ tokens, (rl.settle x now tokens).Holds x (some ⟨tokens, now⟩) := by
    intro tokens
    rw [RateLimiter.settle, hip, hused]
    exact Function.update_self _ _ _
  rw [rateLimitCheck_eq, call, hlevel]
  split
  · exact ⟨rfl, hsettle _⟩
  · exact ⟨rfl, hsettle _⟩

/-! ### Runs -/

lemma answersFor_cons (rl : RateLimiter) (x : List UInt8) (c : RlCall) (calls : List RlCall) :
    rl.answersFor x (c :: calls) =
      (if c.ip = x then [(rateLimitCheck rl c.ip c.now).1] else []) ++
        (rateLimitCheck rl c.ip c.now).2.answersFor x calls := by
  by_cases h : c.ip = x <;> simp [RateLimiter.answersFor, RateLimiter.answers, h]

lemma timesFor_cons (x : List UInt8) (c : RlCall) (calls : List RlCall) :
    timesFor x (c :: calls) = (if c.ip = x then [c.now] else []) ++ timesFor x calls := by
  by_cases h : c.ip = x <;> simp [timesFor, h]

/-- The calls counted are those that the bucket of `x` counts. -/
lemma acceptedFor_eq (rl : RateLimiter) (x : List UInt8) (a b : ℤ) (calls : List RlCall) :
    rl.acceptedFor x a b calls = accepted a b (timesFor x calls) (rl.answersFor x calls) := by
  induction calls generalizing rl with
  | nil => rfl
  | cons c calls ih =>
    have hrest := ih (rateLimitCheck rl c.ip c.now).2
    rw [RateLimiter.acceptedFor] at hrest ⊢
    rw [timesFor_cons, answersFor_cons, RateLimiter.answers, List.zip_cons_cons,
      List.countP_cons, hrest]
    by_cases h : c.ip = x
    · simp [h, accepted_cons]
    · simp [h]

/-- **The run of `x` is that of its bucket**, whatever the others call. -/
lemma answersFor_eq_decisions {x : List UInt8} (hx : x.length ≤ 15) {calls : List RlCall}
    (halone : AloneInSlot x calls) {rl : RateLimiter} {k : Option (Bucket ℚ)}
    (h : rl.Holds x k) :
    rl.answersFor x calls = decisions rl.rate rl.burst k (timesFor x calls) := by
  induction calls generalizing rl k with
  | nil => rfl
  | cons c calls ih =>
    have halone' : AloneInSlot x calls := fun d hd => halone d (List.mem_cons_of_mem c hd)
    rw [answersFor_cons, timesFor_cons]
    by_cases hc : c.ip = x
    · obtain ⟨hanswer, hholds⟩ := h.self hx c.now
      have hrest := ih halone' hholds
      simp only [rate_rateLimitCheck, burst_rateLimitCheck] at hrest
      simp only [hc, if_true, List.singleton_append, decisions, hanswer, hrest]
    · have hrest := ih halone' (h.of_ne c.now (halone c List.mem_cons_self hc))
      simp only [rate_rateLimitCheck, burst_rateLimitCheck] at hrest
      simp only [hc, if_false, List.nil_append, hrest]

/-- All through a run the bucket of `x` is in range. -/
lemma inRange_after {x : List UInt8} (hx : x.length ≤ 15) {calls : List RlCall}
    (halone : AloneInSlot x calls) (hclock : ClockForward calls) {rl : RateLimiter}
    (hrate : 0 ≤ rl.rate) (hburst : 0 ≤ rl.burst) {k : Option (Bucket ℚ)} (h : rl.Holds x k)
    (hk : ∀ b, k = some b → InRange rl.burst b) (hready : ∀ c ∈ calls, Ready rl.burst k c.now) :
    0 ≤ ((rl.after calls).table (rlSlot x)).tokens ∧
      ((rl.after calls).table (rlSlot x)).tokens ≤ rl.burst := by
  induction calls generalizing rl k with
  | nil =>
    cases k with
    | none =>
      have hslot : rl.table (rlSlot x) = ⟨[], 0, 0, false⟩ := h
      simpa [RateLimiter.after, hslot] using hburst
    | some b =>
      have hslot : rl.table (rlSlot x) = ⟨x, b.tokens, b.last, true⟩ := h
      simpa [RateLimiter.after, hslot] using And.intro (hk b rfl).nonneg (hk b rfl).le_burst
  | cons c calls ih =>
    obtain ⟨hle, hclock'⟩ := List.pairwise_cons.mp hclock
    have halone' : AloneInSlot x calls := fun d hd => halone d (List.mem_cons_of_mem c hd)
    have hafter : rl.after (c :: calls) = (rateLimitCheck rl c.ip c.now).2.after calls := rfl
    have hstep := @ih halone' hclock' (rateLimitCheck rl c.ip c.now).2
    simp only [rate_rateLimitCheck, burst_rateLimitCheck] at hstep
    rw [hafter]
    by_cases hc : c.ip = x
    · have hrange := inRange_call hrate hburst (hready c List.mem_cons_self)
      have hholds := (h.self hx c.now).2
      rw [show rateLimitCheck rl x c.now = rateLimitCheck rl c.ip c.now by rw [hc]] at hholds
      refine hstep hrate hburst hholds ?_ ?_
      · rintro b hb
        obtain rfl := Option.some.inj hb
        exact hrange
      · rintro d hd b hb
        obtain rfl := Option.some.inj hb
        exact ⟨hrange, by simpa using hle d hd⟩
    · exact hstep hrate hburst (h.of_ne c.now (halone c List.mem_cons_self hc)) hk
        fun d hd => hready d (List.mem_cons_of_mem c hd)

/-! ### From a fresh limiter -/

lemma holds_create (requestsPerSecond burst : ℤ) (x : List UInt8) :
    (rateLimiterCreate requestsPerSecond burst).Holds x none := rfl

/-- **Isolation**: in two runs from a fresh limiter that make the same calls for `x` at the same
times, with whatever calls for addresses outside the slot of `x` between them, the calls for `x`
are told the same, namely what a token bucket of their own would tell them. -/
theorem rateLimit_isolated (requestsPerSecond burst : ℤ) (x : InAddr) (calls calls' : List RlCall)
    (halone : AloneInSlot (inetNtop x) calls) (halone' : AloneInSlot (inetNtop x) calls')
    (htimes : timesFor (inetNtop x) calls = timesFor (inetNtop x) calls') :
    let rl := rateLimiterCreate requestsPerSecond burst
    rl.answersFor (inetNtop x) calls = rl.answersFor (inetNtop x) calls' ∧
      rl.answersFor (inetNtop x) calls =
        decisions (requestsPerSecond : ℚ) burst none (timesFor (inetNtop x) calls) := by
  have hx := length_inetNtop_le x
  have hfresh := holds_create requestsPerSecond burst (inetNtop x)
  have hrun := answersFor_eq_decisions hx halone hfresh
  have hrun' := answersFor_eq_decisions hx halone' hfresh
  refine ⟨?_, hrun⟩
  rw [hrun, hrun', htimes]

/-- Two runs of four calls for one address; another address calls in the second. -/
theorem rateLimit_isolated_twoRuns :
    let rl := rateLimiterCreate 1 2
    let x := inetNtop ⟨10, 0, 0, 1⟩
    let own : List RlCall := [⟨x, 0⟩, ⟨x, 0⟩, ⟨x, 0⟩, ⟨x, 3⟩]
    let mixed := ⟨inetNtop ⟨10, 0, 0, 2⟩, 0⟩ :: own
    rl.answersFor x own = rl.answersFor x mixed ∧
      rl.answersFor x own = decisions ((1 : ℤ) : ℚ) (2 : ℤ) none (timesFor x own) :=
  rateLimit_isolated 1 2 ⟨10, 0, 0, 1⟩ _ _ (by unfold AloneInSlot; decide +kernel)
    (by unfold AloneInSlot; decide +kernel) (by decide +kernel)

/-- **The rate limit**: over every window of time, no more calls for `x` are let through than
`burst` and what the rate brings in the window; and its bucket is never overdrawn or overfull. -/
theorem rateLimit_bound (requestsPerSecond burst : ℤ) (hrate : 0 ≤ requestsPerSecond)
    (hburst : 0 ≤ burst) (x : InAddr) (calls : List RlCall) (hclock : ClockForward calls)
    (halone : AloneInSlot (inetNtop x) calls) :
    let rl := rateLimiterCreate requestsPerSecond burst
    (∀ a b : ℤ, a ≤ b →
      (rl.acceptedFor (inetNtop x) a b calls : ℚ) ≤ burst + requestsPerSecond * (b - a)) ∧
    ∀ done, done <+: calls →
      0 ≤ ((rl.after done).table (rlSlot (inetNtop x))).tokens ∧
        ((rl.after done).table (rlSlot (inetNtop x))).tokens ≤ burst := by
  intro rl
  have hx := length_inetNtop_le x
  have hfresh : rl.Holds (inetNtop x) none := holds_create requestsPerSecond burst _
  have hrate' : (0 : ℚ) ≤ rl.rate := by
    simpa [rl, rateLimiterCreate] using hrate
  have hburst' : (0 : ℚ) ≤ rl.burst := by
    simpa [rl, rateLimiterCreate] using hburst
  have hready : ∀ now, Ready rl.burst none now := by
    rintro now b hb
    cases hb
  constructor
  · rintro a b hab
    -- alone in its slot, the address sees a bucket of its own, and the clock goes forward
    have hsorted : (timesFor (inetNtop x) calls).Pairwise (· ≤ ·) :=
      List.Pairwise.map _ (fun _ _ h => h) (hclock.sublist List.filter_sublist)
    have hbound := accepted_le hrate' hburst' hab hsorted fun t _ => hready t
    rw [acceptedFor_eq, answersFor_eq_decisions hx halone hfresh]
    calc (accepted a b _ _ : ℚ) ≤ rl.burst + (b - a : ℤ) * rl.rate := hbound
      _ = burst + requestsPerSecond * (b - a) := by
        rw [Int.cast_sub, mul_comm]
        rfl
  · rintro done hdone
    exact inRange_after hx (fun c hc => halone c (hdone.subset hc)) (hclock.sublist hdone.sublist)
      hrate' hburst' hfresh (by rintro b hb; cases hb) fun c _ => hready c.now

/-- An address that calls four times, while another one calls. -/
theorem rateLimit_bound_fourCalls :
    let rl := rateLimiterCreate 1 2
    let x := inetNtop ⟨10, 0, 0, 1⟩
    let calls : List RlCall := [⟨inetNtop ⟨10, 0, 0, 2⟩, 0⟩, ⟨x, 0⟩, ⟨x, 0⟩, ⟨x, 1⟩, ⟨x, 3⟩]
    (∀ a b : ℤ, a ≤ b → (rl.acceptedFor x a b calls : ℚ) ≤ (2 : ℤ) + (1 : ℤ) * (b - a)) ∧
    ∀ done, done <+: calls →
      0 ≤ ((rl.after done).table (rlSlot x)).tokens ∧
        ((rl.after done).table (rlSlot x)).tokens ≤ (2 : ℤ) :=
  rateLimit_bound 1 2 (by decide) (by decide) ⟨10, 0, 0, 1⟩ _
    (by unfold ClockForward; decide +kernel) (by unfold AloneInSlot; decide +kernel)

end Nproxy
