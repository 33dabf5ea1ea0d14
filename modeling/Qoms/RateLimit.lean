import Qoms.Redis
import Mathlib.Algebra.Order.Field.Basic
import Mathlib.Algebra.Order.Floor.Ring
import Mathlib.Data.Rat.Floor
import Mathlib.Tactic.NormNum

/-!
# The gateway's rate limits

`RateLimitService` of `apps/api-gateway`. Each policy is of one of three kinds, and each kind
has its own check, which keeps what it needs to know of a principal under one key of Redis. A
check is a sequence of Redis commands; here they come one after another, with nothing between
them, at one time `now` (in milliseconds), for `Date.now()` and for the clock of Redis.

Numbers are exact. A text that spells a number is never empty, so `current.tokens ? … : …` asks
whether the field is there.
-/

set_option autoImplicit false

namespace Qoms

/-- `RatePolicyName`. -/
inductive RatePolicyName
  | defaultRead
  | defaultWrite
  | login
  | joinQueue
  | createReservation
  | adminWrite
  | occupancyIngest
  deriving DecidableEq, Repr

/-- The name in a key. -/
def RatePolicyName.text : RatePolicyName → String
  | .defaultRead => "default_read"
  | .defaultWrite => "default_write"
  | .login => "login"
  | .joinQueue => "join_queue"
  | .createReservation => "create_reservation"
  | .adminWrite => "admin_write"
  | .occupancyIngest => "occupancy_ingest"

namespace RateLimitService

/-! ## Policies -/

/-- `TokenBucketPolicy`. -/
structure TokenBucketPolicy where
  capacity : ℚ
  refillPerSecond : ℚ
  one_le_capacity : 1 ≤ capacity
  refill_pos : 0 < refillPerSecond

/-- `SlidingWindowPolicy`. -/
structure SlidingWindowPolicy where
  limit : ℕ
  windowSeconds : ℕ
  window_pos : 0 < windowSeconds

/-- `LeakyBucketPolicy`. -/
structure LeakyBucketPolicy where
  capacity : ℚ
  leakPerSecond : ℚ
  one_le_capacity : 1 ≤ capacity
  leak_pos : 0 < leakPerSecond

/-- `RatePolicyConfig`. -/
inductive RatePolicyConfig
  | tokenBucket (policy : TokenBucketPolicy)
  | slidingWindow (policy : SlidingWindowPolicy)
  | leakyBucket (policy : LeakyBucketPolicy)

/-- `POLICIES`. -/
def policies : RatePolicyName → RatePolicyConfig
  | .defaultRead => .tokenBucket ⟨30, 1, by norm_num, by norm_num⟩
  | .defaultWrite => .tokenBucket ⟨15, 1 / 2, by norm_num, by norm_num⟩
  | .login => .slidingWindow ⟨5, 60, by decide⟩
  | .joinQueue => .slidingWindow ⟨5, 30, by decide⟩
  | .createReservation => .slidingWindow ⟨5, 30, by decide⟩
  | .adminWrite => .slidingWindow ⟨20, 60, by decide⟩
  | .occupancyIngest => .leakyBucket ⟨10, 1 / 2, by norm_num, by norm_num⟩

/-- What a check answers. -/
inductive CheckResult
  | allowed
  | denied (retryAfterSeconds : ℤ)
  deriving DecidableEq, Repr

def CheckResult.isAllowed : CheckResult → Bool
  | .allowed => true
  | .denied _ => false

/-! ## Checks -/

/-- The key of a principal. -/
def redisKey (policyName : RatePolicyName) (principal : String) : String :=
  "ratelimit:" ++ policyName.text ++ ":" ++ principal

/-- The tokens that the fields of a hash amount to at the time `now`. -/
def refilledTokens (policy : TokenBucketPolicy) (current : Hash) (now : ℤ) : ℚ :=
  let lastRefill := (current "lastRefill").getD now
  let tokens := (current "tokens").getD policy.capacity
  min policy.capacity (tokens + (now - lastRefill) / 1000 * policy.refillPerSecond)

/-- `checkTokenBucket`. -/
def checkTokenBucket (redis : Redis) (policyName : RatePolicyName) (principal : String)
    (policy : TokenBucketPolicy) (now : ℤ) : CheckResult × Redis :=
  let key := redisKey policyName principal
  let refilledTokens := refilledTokens policy (redis.hgetall key now) now
  if refilledTokens < 1 then
    (.denied (max 1 ⌈(1 - refilledTokens) / policy.refillPerSecond⌉), redis)
  else
    let redis := redis.hset key [("tokens", refilledTokens - 1), ("lastRefill", now)] now
    (.allowed, redis.expire key ⌈policy.capacity / policy.refillPerSecond⌉ now)

/-- `checkSlidingWindow`. -/
def checkSlidingWindow (redis : Redis) (policyName : RatePolicyName) (principal : String)
    (policy : SlidingWindowPolicy) (now : ℤ) : CheckResult × Redis :=
  let key := redisKey policyName principal
  let windowStart := now - policy.windowSeconds * 1000
  let redis := redis.zremrangebyscore key 0 windowStart now
  let currentCount := redis.zcard key now
  if currentCount ≥ policy.limit then
    (.denied policy.windowSeconds, redis)
  else
    let redis := redis.zadd key now now
    (.allowed, redis.expire key policy.windowSeconds now)

/-- The level that the fields of a hash amount to at the time `now`. -/
def leakedLevel (policy : LeakyBucketPolicy) (current : Hash) (now : ℤ) : ℚ :=
  let lastLeak := (current "lastLeak").getD now
  let level := (current "level").getD 0
  max 0 (level - (now - lastLeak) / 1000 * policy.leakPerSecond)

/-- `checkLeakyBucket`. -/
def checkLeakyBucket (redis : Redis) (policyName : RatePolicyName) (principal : String)
    (policy : LeakyBucketPolicy) (now : ℤ) : CheckResult × Redis :=
  let key := redisKey policyName principal
  let leakedLevel := leakedLevel policy (redis.hgetall key now) now
  if leakedLevel ≥ policy.capacity then
    (.denied (max 1 ⌈(leakedLevel - policy.capacity + 1) / policy.leakPerSecond⌉), redis)
  else
    let redis := redis.hset key [("level", leakedLevel + 1), ("lastLeak", now)] now
    (.allowed, redis.expire key ⌈policy.capacity / policy.leakPerSecond⌉ now)

/-- `check`. -/
def check (redis : Redis) (policyName : RatePolicyName) (principal : String) (now : ℤ) :
    CheckResult × Redis :=
  match policies policyName with
  | .tokenBucket policy => checkTokenBucket redis policyName principal policy now
  | .slidingWindow policy => checkSlidingWindow redis policyName principal policy now
  | .leakyBucket policy => checkLeakyBucket redis policyName principal policy now

/-- The answers of checks at these times, one after another. -/
def answers (check : Redis → ℤ → CheckResult × Redis) : Redis → List ℤ → List CheckResult
  | _, [] => []
  | redis, now :: times => (check redis now).1 :: answers check (check redis now).2 times

/-- The store after `n` checks at one time. -/
def afterChecks (check : Redis → ℤ → CheckResult × Redis) (redis : Redis) (now : ℤ) : ℕ → Redis
  | 0 => redis
  | n + 1 => (check (afterChecks check redis now n) now).2

end RateLimitService

end Qoms
