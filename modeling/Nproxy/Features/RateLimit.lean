import Nproxy.Core.StringUtil

/-!
`features/rate_limit.c`: a table of token buckets, one for each hash of an
address. Tokens are counted exactly, in place of `double`.
-/

namespace Nproxy

/-- `RL_TABLE_SIZE`. -/
def rlTableSize : ℕ := 4096

/-- `rl_bucket_t`. -/
structure RlBucket where
  ip : List UInt8
  tokens : ℚ
  lastRefill : ℤ
  used : Bool

/-- `struct rate_limiter`. -/
structure RateLimiter where
  table : ℕ → RlBucket
  rate : ℚ
  burst : ℚ

/-- `ip_hash`. -/
def ipHash (ip : List UInt8) : UInt32 :=
  ip.foldl (fun h c => (h ^^^ c.toUInt32) * 16777619) 2166136261

/-- `rate_limiter_create`. -/
def rateLimiterCreate (requestsPerSecond burst : ℤ) : RateLimiter :=
  ⟨fun _ => ⟨[], 0, 0, false⟩, requestsPerSecond, burst⟩

/-- `rate_limit_check` at time `now`: is the request let through? -/
def rateLimitCheck (rl : RateLimiter) (ip : List UInt8) (now : ℤ) : Bool × RateLimiter :=
  let idx := (ipHash ip).toNat % rlTableSize
  let b := rl.table idx
  let b := if b.used = false ∨ b.ip ≠ ip then
      { ip := ip.take 15, tokens := rl.burst, lastRefill := now, used := true }
    else b
  let elapsed := now - b.lastRefill
  let b := { b with tokens := b.tokens + elapsed * rl.rate }
  let b := if b.tokens > rl.burst then { b with tokens := rl.burst } else b
  let b := { b with lastRefill := now }
  if b.tokens < 1 then (false, { rl with table := Function.update rl.table idx b })
  else (true, { rl with
    table := Function.update rl.table idx { b with tokens := b.tokens - 1 } })

end Nproxy
