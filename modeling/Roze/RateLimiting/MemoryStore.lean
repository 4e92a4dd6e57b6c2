import Roze.Library.Clock
import Roze.Library.Execution
import Roze.Library.TokenBucket

/-!
# The token buckets in memory

A check refills the bucket of its key for the time since the last check and takes a token
or denies with the time to wait. Tokens are exact rational numbers here. Clock readings
and waiting times are whole nanoseconds; the source converts the waiting time with
`Duration::from_secs_f64`, which rounds to the nearest nanosecond, so a wait may end up
shorter than the bucket needs.
-/

namespace Roze.RateLimiting

open Roze.Library List

structure RateLimit where
  burst : UInt32
  refill : Duration
  tokensPerRefill : UInt32
deriving DecidableEq

def RateLimit.validate (limit : RateLimit) : Except String Unit :=
  if limit.burst = 0 then .error "rate limit burst must be positive"
  else if limit.refill = .zero then .error "rate limit refill duration must be positive"
  else if limit.tokensPerRefill = 0 then .error "rate limit tokens per refill must be positive"
  else .ok ()

/-- The time to wait is in nanoseconds. -/
structure RateLimitDecision where
  allowed : Bool
  retryAfter : Nat
  degraded : Bool
deriving DecidableEq, Repr

def RateLimitDecision.allow (degraded : Bool) : RateLimitDecision where
  allowed := true
  retryAfter := 0
  degraded := degraded

def RateLimitDecision.denied (retryAfter : Nat) : RateLimitDecision where
  allowed := false
  retryAfter := retryAfter
  degraded := false

/-- A number of nanoseconds in seconds. -/
def asSecs (nanos : Nat) : ℚ := nanos / 10 ^ 9

/-- A number of seconds in nanoseconds, rounded. -/
def durationFromSecs (secs : ℚ) : Nat := roundHalfEven (secs * 10 ^ 9)

def refilledTokens (tokens : ℚ) (elapsed : Nat) (limit : RateLimit) : ℚ :=
  min (tokens + asSecs elapsed / asSecs limit.refill.nanos * limit.tokensPerRefill.toNat)
    limit.burst.toNat

/-- At least a millisecond. -/
def retryAfterForTokens (tokens : ℚ) (limit : RateLimit) : Nat :=
  max (durationFromSecs
    (max (1 - tokens) 0 * asSecs limit.refill.nanos / limit.tokensPerRefill.toNat)) (10 ^ 6)

structure MemoryState where
  tokens : ℚ
  lastRefill : Nat
deriving DecidableEq

/-- What a check does to the entry of its key. -/
def MemoryState.check (state : MemoryState) (limit : RateLimit) (now : Nat) :
    MemoryState × RateLimitDecision :=
  let tokens := refilledTokens state.tokens (now - state.lastRefill) limit
  if 1 ≤ tokens then (⟨tokens - 1, now⟩, .allow false)
  else (⟨tokens, now⟩, .denied (retryAfterForTokens tokens limit))

structure InMemoryRateLimitStore where
  states : String → Option MemoryState

namespace InMemoryRateLimitStore

def empty : InMemoryRateLimitStore where
  states _ := none

/-- The entry of a key, a full bucket when the key is new. -/
def entry (store : InMemoryRateLimitStore) (key : String) (limit : RateLimit) (now : Nat) :
    MemoryState :=
  (store.states key).getD ⟨limit.burst.toNat, now⟩

def check (store : InMemoryRateLimitStore) (key : String) (limit : RateLimit) (now : Nat) :
    InMemoryRateLimitStore × RateLimitDecision :=
  let checked := (store.entry key limit now).check limit now
  ({ states := Function.update store.states key (some checked.1) }, checked.2)

end InMemoryRateLimitStore

structure CheckCall where
  key : String
  limit : RateLimit
  now : Nat

/-- The store with any number of callers. -/
def memoryStore : Machine InMemoryRateLimitStore CheckCall RateLimitDecision where
  step store call := some (store.check call.key call.limit call.now)

/-! ## The bucket of a key -/

variable {limit : RateLimit}

/-- What an accepted limit has; its bucket fills at `tokensPerRefill` in each `refill`. -/
theorem RateLimit.validate_ok (valid : limit.validate = .ok ()) :
    1 ≤ limit.burst.toNat ∧ 0 < limit.refill.nanos ∧ 0 < limit.tokensPerRefill.toNat := by
  unfold validate at valid
  split at valid
  · cases valid
  · rename_i burst
    split at valid
    · cases valid
    · rename_i refill
      split at valid
      · cases valid
      · rename_i tokens
        refine ⟨?_, ?_, ?_⟩
        · exact Nat.pos_of_ne_zero fun zero => burst (UInt32.toNat_inj.mp zero)
        · exact Nat.pos_of_ne_zero fun zero => refill (Duration.eq_of_nanos zero)
        · exact Nat.pos_of_ne_zero fun zero => tokens (UInt32.toNat_inj.mp zero)

/-- The bucket of an accepted limit, with the time in nanoseconds. -/
def RateLimit.bucket (limit : RateLimit) (valid : limit.validate = .ok ()) : TokenBucket where
  capacity := limit.burst.toNat
  rate := limit.tokensPerRefill.toNat / limit.refill.nanos
  capacity_one := by exact_mod_cast (RateLimit.validate_ok valid).1
  rate_pos := by
    obtain ⟨-, _, _⟩ := RateLimit.validate_ok valid
    positivity

def MemoryState.level (state : MemoryState) : TokenLevel := ⟨state.tokens, state.lastRefill⟩

namespace InMemoryRateLimitStore

/-- The level of the bucket of a key. -/
def level (store : InMemoryRateLimitStore) (key : String) : Option TokenLevel :=
  (store.states key).map MemoryState.level

end InMemoryRateLimitStore

open InMemoryRateLimitStore

section Refinement

variable {limit : RateLimit} (valid : limit.validate = .ok ())

/-- The seconds cancel: the refill is the elapsed time at the rate of the bucket. -/
theorem refilledTokens_eq (tokens : ℚ) (elapsed : Nat) :
    refilledTokens tokens elapsed limit = (limit.bucket valid).refill tokens elapsed := by
  obtain ⟨-, _, -⟩ := RateLimit.validate_ok valid
  have gained : asSecs elapsed / asSecs limit.refill.nanos * limit.tokensPerRefill.toNat =
      elapsed * (limit.bucket valid).rate := by
    simp only [asSecs, RateLimit.bucket]
    field_simp
  rw [refilledTokens, gained, TokenBucket.refill]
  rfl

theorem cast_sub_eq_max (now last : Nat) : ((now - last : Nat) : ℚ) = max 0 ((now : ℚ) - last) := by
  rcases le_total last now with forward | backward <;> simp_all

/-- The tokens that a check finds. -/
theorem entry_refilled (store : InMemoryRateLimitStore) (key : String) (now : Nat) :
    refilledTokens (store.entry key limit now).tokens
        (now - (store.entry key limit now).lastRefill) limit =
      (limit.bucket valid).refilled (store.level key) now := by
  rw [refilledTokens_eq valid]
  cases found : store.states key with
  | none =>
    simp [entry, level, found, TokenBucket.refilled,
      TokenBucket.refill, RateLimit.bucket]
  | some =>
    simp only [entry, level, found, Option.getD_some,
      Option.map_some, TokenBucket.refilled, MemoryState.level, cast_sub_eq_max]

/-- A check is a request of the bucket of its key. -/
theorem check_request (store : InMemoryRateLimitStore) (key : String) (now : Nat) :
    (store.check key limit now).1.level key =
        some ((limit.bucket valid).request (store.level key) now).1 ∧
      (store.check key limit now).2.allowed =
        ((limit.bucket valid).request (store.level key) now).2 := by
  have found := entry_refilled valid store key now
  unfold check MemoryState.check TokenBucket.request
  simp only [found]
  by_cases enough : 1 ≤ (limit.bucket valid).refilled (store.level key) now
  · simp only [if_pos enough]
    exact ⟨by simp [level, MemoryState.level], rfl⟩
  · simp only [if_neg enough]
    exact ⟨by simp [level, MemoryState.level], rfl⟩

end Refinement

variable {key : String}

/-- A check leaves the buckets of other keys alone. -/
theorem check_other (store : InMemoryRateLimitStore) {other : String} (different : other ≠ key)
    (limit : RateLimit) (now : Nat) :
    (store.check key limit now).1.states other = store.states other :=
  Function.update_of_ne different _ _

/-! ## Runs -/

/-- The allowed checks of a key in a closed interval. -/
def allowedWithin (key : String) (start stop : ℚ) (events : List (CheckCall × RateLimitDecision)) :
    Nat :=
  events.countP (fun event => event.1.key = key && event.2.allowed && start ≤ event.1.now &&
    event.1.now ≤ stop)

/-- The checks of a key have its limit and come in the order of their times. -/
structure Governed (key : String) (limit : RateLimit)
    (events : List (CheckCall × RateLimitDecision)) : Prop where
  limited : ∀ event ∈ events, event.1.key = key → event.1.limit = limit
  ordered : events.Pairwise (fun earlier later =>
    earlier.1.key = key → later.1.key = key → earlier.1.now ≤ later.1.now)

theorem Governed.tail {event : CheckCall × RateLimitDecision}
    {events : List (CheckCall × RateLimitDecision)}
    (governed : Governed key limit (event :: events)) : Governed key limit events :=
  ⟨fun other member => governed.limited other (mem_cons_of_mem _ member),
    (pairwise_cons.mp governed.ordered).2⟩

section Bounds

variable {limit : RateLimit} (valid : limit.validate = .ok ()) {key : String}
variable {store next final : InMemoryRateLimitStore} {call : CheckCall}
variable {decision : RateLimitDecision} {events : List (CheckCall × RateLimitDecision)}

/-- A check of another key does not touch the level; a check of the key requests. -/
theorem step_level (taken : memoryStore.step store call = some (next, decision))
    (limited : call.key = key → call.limit = limit) :
    (call.key ≠ key ∧ next.level key = store.level key) ∨
      (call.key = key ∧
        next.level key = some ((limit.bucket valid).request (store.level key) call.now).1 ∧
        decision.allowed = ((limit.bucket valid).request (store.level key) call.now).2) := by
  obtain ⟨rfl, rfl⟩ := Prod.ext_iff.mp (Option.some.inj taken)
  by_cases own : call.key = key
  · rw [limited own, own]
    exact .inr ⟨rfl, check_request valid store key call.now⟩
  · refine .inl ⟨own, ?_⟩
    rw [level, check_other store (Ne.symm own)]
    rfl

/-- The tokens of a key stay between none and the burst. -/
theorem step_within (taken : memoryStore.step store call = some (next, decision))
    (limited : call.key = key → call.limit = limit)
    (within : ∀ level ∈ store.level key, (limit.bucket valid).Within level) :
    ∀ level ∈ next.level key, (limit.bucket valid).Within level := by
  intro level held
  rcases step_level valid taken limited with ⟨_, same⟩ | ⟨_, changed, _⟩
  · simp_all
  · rw [changed] at held
    cases held
    exact TokenBucket.request_within within call.now

theorem run_within (run : memoryStore.Run store events final) (governed : Governed key limit events)
    (within : ∀ level ∈ store.level key, (limit.bucket valid).Within level) :
    ∀ level ∈ final.level key, (limit.bucket valid).Within level := by
  induction run with
  | done => exact within
  | step taken rest ih =>
    have limited := governed.limited _ mem_cons_self
    exact ih governed.tail (step_within valid taken limited within)

/-- The allowed checks of an interval do not exceed the potential.

Proof: along the run, a check of the key moves at most one token from the potential to
the count, and the other checks change neither. -/
theorem allowedWithin_le {start stop : ℚ} (interval : start ≤ stop)
    (run : memoryStore.Run store events final) (governed : Governed key limit events)
    (within : ∀ level ∈ store.level key, (limit.bucket valid).Within level)
    (forward : ∀ level ∈ store.level key, ∀ event ∈ events, event.1.key = key →
      level.last ≤ event.1.now) :
    (allowedWithin key start stop events : ℚ) ≤
      (limit.bucket valid).potential start stop (store.level key) := by
  induction run with
  | done => exact TokenBucket.potential_nonneg interval within
  | @step store next final call decision events taken rest ih =>
    have limited : call.key = key → call.limit = limit :=
      governed.limited (call, decision) mem_cons_self
    have later := ih governed.tail (step_within valid taken limited within)
    rcases step_level valid taken limited with ⟨other, same⟩ | ⟨own, changed, allowed⟩
    · rw [same] at later
      have skipped : allowedWithin key start stop ((call, decision) :: events) =
          allowedWithin key start stop events := by
        simp [allowedWithin, other]
      grind
    · rw [changed] at later
      have now := fun level held => forward level held (call, decision) mem_cons_self own
      have moved := TokenBucket.request_potential interval within now
      have counted : (allowedWithin key start stop ((call, decision) :: events) : ℚ) =
          (if ((limit.bucket valid).request (store.level key) call.now).2 ∧ start ≤ call.now ∧
            call.now ≤ stop then 1 else 0) + allowedWithin key start stop events := by
        rw [allowedWithin, countP_cons, ← allowed]
        simp [own, and_assoc, add_comm, allowedWithin]
      have bounded := later (by
        intro level held event member same
        cases held
        rw [TokenBucket.request_last]
        have order := (pairwise_cons.mp governed.ordered).1 event member own same
        exact_mod_cast order)
      linarith

end Bounds

/-! ## Waiting after a denial -/

/-- The time until there is a token, in nanoseconds. -/
def exactWait (tokens : ℚ) (limit : RateLimit) : ℚ :=
  (1 - tokens) * limit.refill.nanos / limit.tokensPerRefill.toNat

/-- The wait is longer than the least one and not a whole number, and the nearest whole
number is below it. -/
def CutShort (tokens : ℚ) (limit : RateLimit) : Prop :=
  10 ^ 6 < exactWait tokens limit ∧ RoundedDown (exactWait tokens limit)

instance (tokens : ℚ) (limit : RateLimit) : Decidable (CutShort tokens limit) :=
  inferInstanceAs (Decidable (_ ∧ _))

/-- After any checks of other keys, a check at least the wait after the given time is
allowed. -/
def SufficientWait (key : String) (limit : RateLimit) (store : InMemoryRateLimitStore)
    (now wait : Nat) : Prop :=
  ∀ between middle, memoryStore.Run store between middle →
    (∀ event ∈ between, event.1.key ≠ key) →
    ∀ later, now + wait ≤ later → (middle.check key limit later).2.allowed = true

/-- Checks of other keys leave the bucket of a key alone. -/
theorem run_other {store middle : InMemoryRateLimitStore}
    {between : List (CheckCall × RateLimitDecision)} (run : memoryStore.Run store between middle)
    (others : ∀ event ∈ between, event.1.key ≠ key) : middle.states key = store.states key := by
  induction run with
  | done => rfl
  | @step store next final call decision events taken rest ih =>
    obtain ⟨rfl, rfl⟩ := Prod.ext_iff.mp (Option.some.inj taken)
    have other := others _ mem_cons_self
    rw [ih (fun event member => others event (mem_cons_of_mem _ member)),
      check_other store (Ne.symm other)]

variable {tokens : ℚ}

/-- The wait of a denial, in nanoseconds. -/
theorem retryAfterForTokens_eq (short : tokens ≤ 1) :
    retryAfterForTokens tokens limit = max (roundHalfEven (exactWait tokens limit)) (10 ^ 6) := by
  have scaled : max (1 - tokens) 0 * asSecs limit.refill.nanos / limit.tokensPerRefill.toNat *
      10 ^ 9 = exactWait tokens limit := by
    rw [max_eq_left (sub_nonneg.mpr short), asSecs, exactWait]
    ring
  rw [retryAfterForTokens, durationFromSecs, scaled]

/-- The returned wait is at least the exact one unless rounding cuts it short. -/
theorem exactWait_le_retryAfter_iff (short : tokens ≤ 1) :
    exactWait tokens limit ≤ retryAfterForTokens tokens limit ↔ ¬ CutShort tokens limit := by
  have nonneg : 0 ≤ exactWait tokens limit := by
    unfold exactWait
    positivity
  rw [retryAfterForTokens_eq short, Nat.cast_max, le_max_iff]
  constructor
  · rintro (rounded | least) ⟨long, down⟩
    · rw [roundHalfEven_of_roundedDown down, floor_toNat_cast nonneg] at rounded
      linarith [down.1]
    · push_cast at least
      linarith
  · intro kept
    by_cases long : 10 ^ 6 < exactWait tokens limit
    · exact .inl (le_roundHalfEven nonneg fun down => kept ⟨long, down⟩)
    · right
      exact not_lt.mp long

section Waiting

variable {limit : RateLimit} (valid : limit.validate = .ok ()) {key : String}

include valid

/-- With less than a token, there is one again after the exact wait. -/
theorem one_le_iff_exactWait_le (tokens elapsed : ℚ) :
    1 ≤ tokens + elapsed * (limit.bucket valid).rate ↔ exactWait tokens limit ≤ elapsed := by
  obtain ⟨-, refill, gained⟩ := RateLimit.validate_ok valid
  have refillPos : (0 : ℚ) < limit.refill.nanos := by exact_mod_cast refill
  have gainedPos : (0 : ℚ) < limit.tokensPerRefill.toNat := by exact_mod_cast gained
  rw [exactWait, div_le_iff₀ gainedPos, RateLimit.bucket, ← mul_div_assoc,
    ← sub_le_iff_le_add', le_div_iff₀ refillPos]

/-- A wait is sufficient exactly when it is at least the exact one. -/
theorem sufficientWait_iff {store : InMemoryRateLimitStore} {tokens : ℚ} {now : Nat}
    (held : store.states key = some ⟨tokens, now⟩) (wait : Nat) :
    SufficientWait key limit store now wait ↔ exactWait tokens limit ≤ wait := by
  have decided : ∀ middle : InMemoryRateLimitStore, middle.states key = store.states key →
      ∀ later, now ≤ later → ((middle.check key limit later).2.allowed = true ↔
        exactWait tokens limit ≤ (later : ℚ) - now) := by
    intro middle same later after
    have level : middle.level key = some ⟨tokens, now⟩ := by
      rw [level, same, held]
      rfl
    have ordered : (0 : ℚ) ≤ (later : ℚ) - now := sub_nonneg.mpr (by exact_mod_cast after)
    rw [(check_request valid middle key later).2, TokenBucket.request_granted_iff, level,
      TokenBucket.refilled, max_eq_right ordered, TokenBucket.refill, le_min_iff,
      and_iff_left (TokenBucket.capacity_one _),
      one_le_iff_exactWait_le valid]
  constructor
  · intro sufficient
    have allowed := sufficient [] store (.done store) (by simp) (now + wait) (le_refl _)
    simp_all
  · intro long between middle run others later after
    rw [decided middle (run_other run others) later (by omega)]
    have passed : (now : ℚ) + wait ≤ later := by exact_mod_cast after
    linarith

end Waiting

/-- A denied check leaves the tokens it found, less than one, and answers with their wait. -/
theorem check_denied {store : InMemoryRateLimitStore} {now : Nat}
    (found : refilledTokens (store.entry key limit now).tokens
      (now - (store.entry key limit now).lastRefill) limit = tokens)
    (denied : (store.check key limit now).2.allowed = false) :
    tokens < 1 ∧ (store.check key limit now).1.states key = some ⟨tokens, now⟩ ∧
      (store.check key limit now).2.retryAfter = retryAfterForTokens tokens limit := by
  simp only [check, MemoryState.check, found] at denied ⊢
  split at denied
  · cases denied
  · rename_i short
    rw [if_neg short, Function.update_self]
    exact ⟨not_le.mp short, rfl, rfl⟩

/-- For every valid limit and every run whose checks of the key have the limit and
non-decreasing times: in any interval the allowed checks number at most the burst and
what the interval refills; the tokens stay in their range; and the wait of a denial is
sufficient if and only if rounding to nanoseconds does not cut it short. -/
theorem memory_bucket_iff (limit : RateLimit) (valid : limit.validate = .ok ()) (key : String)
    (events : List (CheckCall × RateLimitDecision)) (store : InMemoryRateLimitStore)
    (run : memoryStore.Run .empty events store) (governed : Governed key limit events) :
    (∀ start length : ℚ, 0 ≤ length → (allowedWithin key start (start + length) events : ℚ) ≤
        limit.burst.toNat + length * limit.tokensPerRefill.toNat / limit.refill.nanos) ∧
      (∀ state ∈ store.states key, 0 ≤ state.tokens ∧ state.tokens ≤ limit.burst.toNat) ∧
      ∀ now, (∀ event ∈ events, event.1.key = key → event.1.now ≤ now) →
        (store.check key limit now).2.allowed = false →
        (SufficientWait key limit (store.check key limit now).1 now
            (store.check key limit now).2.retryAfter ↔
          ¬ CutShort (refilledTokens (store.entry key limit now).tokens
            (now - (store.entry key limit now).lastRefill) limit) limit) := by
  have new : empty.level key = none := rfl
  have within := run_within valid run governed (by simp [new])
  refine ⟨fun start length nonneg => ?_, fun state held => ?_, fun now _ denied => ?_⟩
  · have interval : start ≤ start + length := le_add_of_nonneg_right nonneg
    have bounded := allowedWithin_le valid interval run governed (by simp [new]) (by simp [new])
    rw [new, TokenBucket.potential, add_sub_cancel_left, RateLimit.bucket, ← mul_div_assoc] at bounded
    exact bounded
  · have held' : state.level ∈ store.level key := Option.mem_map_of_mem MemoryState.level held
    exact ⟨(within _ held').nonneg, (within _ held').le_capacity⟩
  · obtain ⟨short, held, wait⟩ := check_denied rfl denied
    rw [wait, sufficientWait_iff valid held, exactWait_le_retryAfter_iff short.le]

/-- One token at a time, and a number of them each second. -/
def eachSecond (tokens : UInt32) : RateLimit where
  burst := 1
  refill := ⟨10 ^ 9, by decide⟩
  tokensPerRefill := tokens

/-- The store after one allowed check. -/
def afterFirst (limit : RateLimit) : InMemoryRateLimitStore := (InMemoryRateLimitStore.empty.check "k" limit 0).1

theorem first_governed (limit : RateLimit) (decision : RateLimitDecision) :
    Governed "k" limit [(⟨"k", limit, 0⟩, decision)] :=
  ⟨by simp, pairwise_singleton _ _⟩

/-- With ten tokens a second the wait is a tenth of a second, which is sufficient. -/
theorem memory_bucket_iff_ten :
    (allowedWithin "k" 0 (0 + 0) [(⟨"k", eachSecond 10, 0⟩, .allow false)] : ℚ) ≤ 1 ∧
      ((afterFirst (eachSecond 10)).check "k" (eachSecond 10) 0).2 = .denied (10 ^ 8) ∧
      SufficientWait "k" (eachSecond 10) ((afterFirst (eachSecond 10)).check "k" (eachSecond 10) 0).1 0
        (10 ^ 8) := by
  have decided : (empty.check "k" (eachSecond 10) 0).2 = .allow false := by
    decide +kernel
  have denied : ((afterFirst (eachSecond 10)).check "k" (eachSecond 10) 0).2 = .denied (10 ^ 8) := by
    decide +kernel
  have run : memoryStore.Run .empty [(⟨"k", eachSecond 10, 0⟩, .allow false)]
      (afterFirst (eachSecond 10)) := by
    rw [← decided]
    exact .single rfl
  obtain ⟨bounded, _, sufficient⟩ := memory_bucket_iff (eachSecond 10) (by decide) "k" _ _ run
    (first_governed _ _)
  refine ⟨?_, denied, ?_⟩
  · simpa [eachSecond] using bounded 0 0 (le_refl 0)
  · have law := sufficient 0 (by simp) (by rw [denied]; rfl)
    rw [denied] at law
    exact law.mpr (by decide +kernel)

/-- With three tokens a second the wait is a third of a second, rounded down to 333333333
nanoseconds, and a check at that time is denied again. -/
theorem wait_cut_short :
    ¬ ∀ (limit : RateLimit), limit.validate = .ok () → ∀ (key : String)
      (events : List (CheckCall × RateLimitDecision)) (store : InMemoryRateLimitStore),
      memoryStore.Run .empty events store → Governed key limit events →
      ∀ now, (∀ event ∈ events, event.1.key = key → event.1.now ≤ now) →
        (store.check key limit now).2.allowed = false →
        SufficientWait key limit (store.check key limit now).1 now
          (store.check key limit now).2.retryAfter := by
  intro sufficient
  have run : memoryStore.Run .empty [(⟨"k", eachSecond 3, 0⟩,
      (empty.check "k" (eachSecond 3) 0).2)] (afterFirst (eachSecond 3)) :=
    .single rfl
  have denied : ((afterFirst (eachSecond 3)).check "k" (eachSecond 3) 0).2 = .denied 333333333 := by
    decide +kernel
  have again : (((afterFirst (eachSecond 3)).check "k" (eachSecond 3) 0).1.check "k" (eachSecond 3)
      333333333).2.allowed = false := by
    decide +kernel
  have wait := sufficient (eachSecond 3) (by decide) "k" _ _ run (first_governed _ _) 0 (by simp)
    (by rw [denied]; rfl)
  have allowed := wait [] _ (.done _) (by simp) 333333333 (by rw [denied]; decide)
  rw [again] at allowed
  cases allowed

end Roze.RateLimiting
