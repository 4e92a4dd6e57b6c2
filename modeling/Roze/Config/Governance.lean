import Roze.Resilience.Governance

/-!
# Governance configuration

The protections of operations as they are configured, for all operations and for some of
them by name. Times are given in milliseconds. What an operation sets itself comes before
what is set for all.
-/

namespace Roze.Config

open Roze.Library

structure RetryConfig where
  maxAttempts : UInt32
  backoffMs : UInt64
  maxBackoffMs : UInt64
  budgetPercent : Option UInt32
deriving DecidableEq

structure RateLimitConfig where
  burst : UInt32
  refillMs : UInt64
  tokensPerRefill : UInt32
deriving DecidableEq

structure BreakerConfig where
  failureThreshold : UInt32
  resetTimeoutMs : UInt64
deriving DecidableEq

structure SheddingConfig where
  concurrency : UInt64
  windowMs : UInt64
  minSamples : UInt64
  maxAvgLatencyMs : UInt64
  maxFailureRatioPerMille : UInt32
  coolDownMs : UInt64
deriving DecidableEq

/-- What one operation sets. -/
structure RouteGovernanceConfig where
  timeoutMs : Option UInt64
  retry : Option RetryConfig
  rateLimit : Option RateLimitConfig
  breaker : Option BreakerConfig
  shedding : Option SheddingConfig
deriving DecidableEq

/-- The settings of a service and of its routes. -/
structure GovernanceConfig where
  timeoutMs : Option UInt64
  retry : Option RetryConfig
  rateLimit : Option RateLimitConfig
  breaker : Option BreakerConfig
  shedding : Option SheddingConfig
  routes : String → Option RouteGovernanceConfig

/-- Milliseconds become durations. -/
def RetryConfig.policy (config : RetryConfig) : Resilience.RetryPolicy where
  maxAttempts := config.maxAttempts
  backoff := .fromMillis config.backoffMs
  maxBackoff := .fromMillis config.maxBackoffMs
  budgetPercent := config.budgetPercent

def RateLimitConfig.policy (config : RateLimitConfig) : Resilience.RateLimitConfig where
  burst := config.burst
  refill := .fromMillis config.refillMs
  tokensPerRefill := config.tokensPerRefill

def BreakerConfig.policy (config : BreakerConfig) : Resilience.BreakerConfig where
  failureThreshold := config.failureThreshold
  resetTimeout := .fromMillis config.resetTimeoutMs

def SheddingConfig.policy (config : SheddingConfig) : Resilience.SheddingConfig where
  concurrency := config.concurrency
  window := .fromMillis config.windowMs
  minSamples := config.minSamples
  maxAvgLatency := .fromMillis config.maxAvgLatencyMs
  maxFailureRatioPerMille := config.maxFailureRatioPerMille
  coolDown := .fromMillis config.coolDownMs

/-- What a route sets, or else the service. -/
def GovernanceConfig.resolvePolicy (config : GovernanceConfig) (key : String) :
    Resilience.GovernancePolicy :=
  let own := config.routes key
  { timeout := ((own.bind RouteGovernanceConfig.timeoutMs).or config.timeoutMs).map .fromMillis
    retry := ((own.bind RouteGovernanceConfig.retry).or config.retry).map RetryConfig.policy
    rateLimit := ((own.bind RouteGovernanceConfig.rateLimit).or config.rateLimit).map
      RateLimitConfig.policy
    breaker := ((own.bind RouteGovernanceConfig.breaker).or config.breaker).map
      BreakerConfig.policy
    shedding := ((own.bind RouteGovernanceConfig.shedding).or config.shedding).map
      SheddingConfig.policy }

/-! ## Configured delays -/

/-- The clock can show the end of every delay of the policy that begins early. -/
structure Timely (policy : Resilience.GovernancePolicy) : Prop where
  breaker : ∀ config, policy.breaker = some config → ∀ now : Instant, now.early = true →
    (now.checkedAdd config.resetTimeout).isSome
  shedding : ∀ config, policy.shedding = some config → ∀ now : Instant, now.early = true →
    (now.checkedAdd config.coolDown).isSome

/-- Every duration comes from milliseconds. -/
theorem GovernanceConfig.resolvePolicy_timely (config : GovernanceConfig) (key : String) :
    Timely (config.resolvePolicy key) where
  breaker breaker configured now early := by
    obtain ⟨settings, -, rfl⟩ := Option.map_eq_some_iff.mp configured
    exact Instant.checkedAdd_fromMillis early settings.resetTimeoutMs
  shedding shedding configured now early := by
    obtain ⟨settings, -, rfl⟩ := Option.map_eq_some_iff.mp configured
    exact Instant.checkedAdd_fromMillis early settings.coolDownMs

end Roze.Config
