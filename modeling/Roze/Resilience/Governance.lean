import Roze.Resilience.Shedding

/-!
# Governance policies and operation keys

A policy says which protections an operation has. The registries know an operation by
its key: the service, the boundary and the operation, joined by colons. The two free
parts are made canonical first; characters that are not accepted become underscores, a
run of them one underscore, and underscores at the ends go away.
-/

namespace Roze.Resilience

open Roze.Library

inductive GovernanceBoundary where
  | rest
  | rpc
  | gateway
  | mq
  | job
deriving DecidableEq, Repr

def GovernanceBoundary.asStr : GovernanceBoundary → String
  | .rest => "rest"
  | .rpc => "rpc"
  | .gateway => "gateway"
  | .mq => "mq"
  | .job => "job"

/-- The characters that a key keeps; the last two are the braces. -/
def operationCharAccepted (ch : Char) : Bool :=
  ch.isAlphanum || ['-', '_', '.', '/', ':', '\x7b', '\x7d'].contains ch

/-- One character of the loop: the text so far, and whether its last underscore stands for
characters that were not accepted. -/
def canonicalOperationChar (built : List Char × Bool) (ch : Char) : List Char × Bool :=
  if operationCharAccepted ch then (built.1 ++ [ch.toLower], false)
  else if built.2 then built
  else (built.1 ++ ['_'], true)

def canonicalOperationPart (value : String) : String :=
  let canonical := ((value.toList.take 160).foldl canonicalOperationChar ([], false)).1
  let trimmed := (canonical.dropWhile (· = '_')).rdropWhile (· = '_')
  if trimmed.isEmpty then "unknown" else String.ofList trimmed

def operationKey (service : String) (boundary : GovernanceBoundary) (operation : String) : String :=
  canonicalOperationPart service ++ ":" ++ boundary.asStr ++ ":" ++ canonicalOperationPart operation

structure RetryPolicy where
  maxAttempts : UInt32
  backoff : Duration
  maxBackoff : Duration
  budgetPercent : Option UInt32
deriving DecidableEq

def RetryPolicy.default : RetryPolicy where
  maxAttempts := 1
  backoff := .zero
  maxBackoff := .zero
  budgetPercent := none

/-- The longest delay before an attempt; it doubles with each one, at most 31 times. -/
def exponentialBackoffCap (base longest : Duration) (attempt : Nat) : Duration :=
  min (base.saturatingMul (2 ^ min (attempt - 1) 31)) longest

/-- A delay up to the longest, chosen by a sample. -/
def fullJitterDelay (base longest : Duration) (attempt : Nat) (sample : UInt64) : Duration :=
  let capNanos := min (exponentialBackoffCap base longest attempt).nanos (2 ^ 64 - 1)
  .fromNanos (if capNanos = 2 ^ 64 - 1 then sample else sample % .ofNat (capNanos + 1))

structure RateLimitConfig where
  burst : UInt32
  refill : Duration
  tokensPerRefill : UInt32
deriving DecidableEq

structure GovernancePolicy where
  timeout : Option Duration
  retry : Option RetryPolicy
  rateLimit : Option RateLimitConfig
  breaker : Option BreakerConfig
  shedding : Option SheddingConfig
deriving DecidableEq

/-- The registries that admit requests. -/
structure AdmissionRegistries where
  breakers : BreakerRegistry
  shedders : SheddingRegistry

def AdmissionRegistries.new : AdmissionRegistries where
  breakers := .new
  shedders := .new

end Roze.Resilience
