import Roze.RateLimiting.MemoryStore

/-!
# The token buckets in Redis

One script reads the bucket of a key, refills it for the time since the last invocation,
takes a token or denies, writes the bucket back and sets the key to expire. An expired
key reads as a full bucket. The script is run here on a store whose keys vanish at their
deadline and on one that keeps them, with exact rational numbers for those of Lua.
-/

namespace Roze.RateLimiting

open Roze.Library

/-- The arguments of the script, all positive. -/
structure ScriptArgs where
  burst : Nat
  refillMs : Nat
  tokensPerRefill : Nat
  burst_pos : 1 ≤ burst
  refill_pos : 1 ≤ refillMs
  tokens_pos : 1 ≤ tokensPerRefill

/-- The hash of a key and the deadline of its expiry, in milliseconds. -/
structure RedisBucket where
  tokens : ℚ
  lastMs : Nat
  deadline : Nat
deriving DecidableEq

/-- What the script returns. -/
structure ScriptReply where
  allowed : Bool
  retryAfterMs : Nat
deriving DecidableEq, Repr

/-- The milliseconds of the two numbers that `TIME` returns for a clock in microseconds. -/
def nowMs (clock : Nat) : Nat := clock / 10 ^ 6 * 1000 + clock % 10 ^ 6 / 1000

namespace ScriptArgs

variable (args : ScriptArgs)

/-- The tokens after the refill. -/
def scriptTokens (stored : Option RedisBucket) (now : Nat) : ℚ :=
  let tokens := (stored.map RedisBucket.tokens).getD args.burst
  let lastMs := (stored.map RedisBucket.lastMs).getD now
  let elapsed := max 0 ((now : ℚ) - lastMs)
  min args.burst (tokens + elapsed / args.refillMs * args.tokensPerRefill)

def fullRefillMs : Nat := ⌈(args.refillMs * args.burst / args.tokensPerRefill : ℚ)⌉₊

/-- The time to live that the script sets. -/
def ttl : Nat := max (args.fullRefillMs * 2) (args.refillMs + 1000)

/-- `REDIS_TOKEN_BUCKET`, with what it reads and what it leaves. -/
def script (stored : Option RedisBucket) (now : Nat) : RedisBucket × ScriptReply :=
  let tokens := args.scriptTokens stored now
  if 1 ≤ tokens then (⟨tokens - 1, now, now + args.ttl⟩, ⟨true, 0⟩)
  else
    let retryAfterMs := max 1 ⌈(1 - tokens) * args.refillMs / args.tokensPerRefill⌉₊
    (⟨tokens, now, now + args.ttl⟩, ⟨false, retryAfterMs⟩)

end ScriptArgs

/-- What a store still has of a key. -/
def live (expires : Bool) (stored : Option RedisBucket) (now : Nat) : Option RedisBucket :=
  stored.filter (fun bucket => !(expires && decide (bucket.deadline ≤ now)))

/-- The replies to a sequence of invocations at the given clock readings. -/
def replies (expires : Bool) (args : ScriptArgs) :
    Option RedisBucket → List Nat → List ScriptReply
  | _, [] => []
  | stored, clock :: rest =>
      let ran := args.script (live expires stored (nowMs clock)) (nowMs clock)
      ran.2 :: replies expires args (some ran.1) rest

/-- The arguments that a valid limit is checked with. -/
def RateLimit.scriptArgs (limit : RateLimit) (valid : limit.validate = .ok ()) : ScriptArgs where
  burst := limit.burst.toNat
  refillMs := min (max (limit.refill.nanos / 10 ^ 6) 1) (2 ^ 64 - 1)
  tokensPerRefill := limit.tokensPerRefill.toNat
  burst_pos := (RateLimit.validate_ok valid).1
  refill_pos := le_min (le_max_right _ _) (by decide)
  tokens_pos := (RateLimit.validate_ok valid).2.2

/-- The decision for a reply. -/
def ScriptReply.decision (reply : ScriptReply) : RateLimitDecision :=
  if reply.allowed then .allow false else .denied (max reply.retryAfterMs 1 * 10 ^ 6)

/-- The decisions of `RedisRateLimitStore::check` for one key and a valid limit. -/
def redisChecks (expires : Bool) (limit : RateLimit) (valid : limit.validate = .ok ())
    (clocks : List Nat) : List RateLimitDecision :=
  (replies expires (limit.scriptArgs valid) none clocks).map ScriptReply.decision

/-! ## The script as a bucket -/

def RedisBucket.level (stored : RedisBucket) : TokenLevel := ⟨stored.tokens, stored.lastMs⟩

namespace ScriptArgs

/-- The bucket of the script, with the time in milliseconds. -/
def bucket (args : ScriptArgs) : TokenBucket where
  capacity := args.burst
  rate := args.tokensPerRefill / args.refillMs
  capacity_one := by exact_mod_cast args.burst_pos
  rate_pos := by
    have refill : (0 : ℚ) < args.refillMs := by exact_mod_cast args.refill_pos
    have tokens : (0 : ℚ) < args.tokensPerRefill := by exact_mod_cast args.tokens_pos
    exact div_pos tokens refill

variable {args : ScriptArgs}

theorem scriptTokens_eq (stored : Option RedisBucket) (now : Nat) :
    args.scriptTokens stored now = args.bucket.refilled (stored.map RedisBucket.level) now := by
  cases stored with
  | none => simp [scriptTokens, TokenBucket.refilled, bucket]
  | some =>
    simp only [scriptTokens, TokenBucket.refilled, TokenBucket.refill, bucket, RedisBucket.level,
      Option.map_some, Option.getD_some]
    rw [min_comm, div_mul_eq_mul_div, mul_div_assoc]

/-- The time to live is enough to fill the bucket from any level. -/
theorem capacity_le_ttl : args.bucket.capacity ≤ args.ttl * args.bucket.rate := by
  have refill : (0 : ℚ) < args.refillMs := by exact_mod_cast args.refill_pos
  have tokens : (0 : ℚ) < args.tokensPerRefill := by exact_mod_cast args.tokens_pos
  have rounded : (args.refillMs * args.burst / args.tokensPerRefill : ℚ) ≤ args.fullRefillMs :=
    Nat.le_ceil _
  have longer : (args.fullRefillMs : ℚ) ≤ args.ttl := by
    have double : args.fullRefillMs ≤ args.ttl := by
      unfold ttl
      omega
    exact_mod_cast double
  have enough := rounded.trans longer
  rw [div_le_iff₀ tokens] at enough
  rw [bucket, ← mul_div_assoc, le_div_iff₀ refill]
  linarith

/-- What the script leaves is within the bucket and lives for the time to live. -/
structure Sound (args : ScriptArgs) (stored : RedisBucket) : Prop where
  within : args.bucket.Within stored.level
  deadline : stored.deadline = stored.lastMs + args.ttl

/-- The script is a request of its bucket. -/
theorem script_level (stored : Option RedisBucket) (now : Nat) :
    (args.script stored now).1.level =
      (args.bucket.request (stored.map RedisBucket.level) now).1 := by
  unfold script TokenBucket.request
  rw [scriptTokens_eq]
  simp only
  split <;> rfl

variable {stored : Option RedisBucket}

section

variable (sound : ∀ found ∈ stored, args.Sound found)
include sound

theorem script_sound (now : Nat) :
    args.Sound (args.script stored now).1 := by
  constructor
  · rw [script_level]
    refine TokenBucket.request_within ?_ now
    intro level held
    obtain ⟨found, member, rfl⟩ := Option.mem_map.mp held
    exact (sound found member).within
  · unfold script
    simp only
    split <;> rfl

/-- A key that has vanished would have been a full bucket. -/
theorem scriptTokens_live (expires : Bool) (now : Nat) :
    args.scriptTokens (live expires stored now) now = args.scriptTokens stored now := by
  cases stored with
  | none => rfl
  | some found =>
    obtain ⟨within, deadline⟩ := sound found rfl
    by_cases gone : (expires && decide (found.deadline ≤ now)) = true
    · have vanished : live expires (some found) now = none := by
        simp only [live, Option.filter_some, gone, Bool.not_true, Bool.false_eq_true, if_false]
      have passed : found.lastMs + args.ttl ≤ now := by simp_all
      have elapsed : (args.ttl : ℚ) ≤ (now : ℚ) - found.lastMs := by
        have cast : (found.lastMs : ℚ) + args.ttl ≤ now := by exact_mod_cast passed
        linarith
      have long : args.bucket.capacity ≤ ((now : ℚ) - found.lastMs) * args.bucket.rate :=
        capacity_le_ttl.trans (mul_le_mul_of_nonneg_right elapsed args.bucket.rate_pos.le)
      rw [vanished, scriptTokens_eq, scriptTokens_eq, Option.map_some,
        TokenBucket.refilled_eq_capacity within long]
      rfl
    · have kept : live expires (some found) now = some found := by
        simp only [live, Option.filter_some, gone, Bool.not_false, if_true]
      rw [kept]

/-- The script looks at the stored bucket only through the tokens after the refill. -/
theorem script_live (expires : Bool) (now : Nat) :
    args.script (live expires stored now) now = args.script stored now := by
  unfold script
  rw [scriptTokens_live sound]

end

end ScriptArgs

/-- Expiry does not change any reply, from any state that the script leaves. -/
theorem replies_eq {args : ScriptArgs} {stored : Option RedisBucket}
    (sound : ∀ found ∈ stored, args.Sound found) (clocks : List Nat) :
    replies true args stored clocks = replies false args stored clocks := by
  induction clocks generalizing stored with
  | nil => rfl
  | cons clock rest ih =>
    have next : ∀ found ∈ some (args.script stored (nowMs clock)).1, args.Sound found := by
      intro found member
      cases member
      exact ScriptArgs.script_sound sound (nowMs clock)
    simp only [replies, ScriptArgs.script_live sound, ih next]

/-- On one key, for any positive arguments and any clock readings, the script gives the same
replies on a store whose keys vanish at their deadline and on one that keeps them. -/
theorem expiry_transparent (args : ScriptArgs) (clocks : List Nat) :
    replies true args none clocks = replies false args none clocks :=
  replies_eq (by simp) clocks

/-- So the decisions for a key do not depend on expiry either. -/
theorem redisChecks_eq (limit : RateLimit) (valid : limit.validate = .ok ()) (clocks : List Nat) :
    redisChecks true limit valid clocks = redisChecks false limit valid clocks := by
  rw [redisChecks, replies_eq (by simp), redisChecks]

end Roze.RateLimiting
