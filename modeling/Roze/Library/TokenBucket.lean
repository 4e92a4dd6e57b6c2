import Mathlib

/-!
# Token buckets

A bucket fills at a constant rate up to its capacity; a request takes one token or is
denied when there is less than one. A level is the tokens at the time of the last
request; no level is a full bucket.

The number of requests granted in an interval is bounded by a potential: what can still
be granted from the current level to the end of the interval. Every request keeps the
sum of the requests granted and the potential from growing.
-/

namespace Roze.Library

structure TokenBucket where
  capacity : ℚ
  rate : ℚ
  capacity_one : 1 ≤ capacity
  rate_pos : 0 < rate

/-- The tokens after the last request and its time. -/
structure TokenLevel where
  tokens : ℚ
  last : ℚ

namespace TokenBucket

variable (bucket : TokenBucket)

def refill (tokens elapsed : ℚ) : ℚ := min (tokens + elapsed * bucket.rate) bucket.capacity

/-- The tokens that a request finds. A clock that goes back adds nothing. -/
def refilled (level : Option TokenLevel) (now : ℚ) : ℚ :=
  match level with
  | none => bucket.capacity
  | some level => bucket.refill level.tokens (max 0 (now - level.last))

/-- The level that a request leaves, and whether it was granted. -/
def request (level : Option TokenLevel) (now : ℚ) : TokenLevel × Bool :=
  if 1 ≤ bucket.refilled level now then (⟨bucket.refilled level now - 1, now⟩, true)
  else (⟨bucket.refilled level now, now⟩, false)

/-- The tokens are between none and the capacity. -/
structure Within (level : TokenLevel) : Prop where
  nonneg : 0 ≤ level.tokens
  le_capacity : level.tokens ≤ bucket.capacity

theorem refill_le_add (tokens elapsed : ℚ) :
    bucket.refill tokens elapsed ≤ tokens + elapsed * bucket.rate :=
  min_le_left _ _

theorem refilled_le_capacity (level : Option TokenLevel) (now : ℚ) :
    bucket.refilled level now ≤ bucket.capacity := by
  cases level with
  | none => exact le_refl bucket.capacity
  | some => exact min_le_right _ _

/-- What a request leaves and what it takes is what it found. -/
theorem request_tokens (level : Option TokenLevel) (now : ℚ) :
    (bucket.request level now).1.tokens + (if (bucket.request level now).2 then 1 else 0) =
      bucket.refilled level now := by
  unfold request
  split <;> simp

variable {bucket}

variable {level : Option TokenLevel}

theorem refilled_nonneg (within : ∀ held ∈ level, bucket.Within held) (now : ℚ) :
    0 ≤ bucket.refilled level now := by
  cases level with
  | none => exact zero_le_one.trans bucket.capacity_one
  | some level =>
    obtain ⟨nonneg, below⟩ := within level rfl
    have gained := mul_nonneg (le_max_left 0 (now - level.last)) bucket.rate_pos.le
    exact nonneg.trans (le_min (by linarith) below)

variable {now : ℚ}

/-- Once the time since the last request refills the whole capacity, the bucket is as good
as new. -/
theorem refilled_eq_capacity {level : TokenLevel} (within : bucket.Within level)
    (long : bucket.capacity ≤ (now - level.last) * bucket.rate) :
    bucket.refilled (some level) now = bucket.capacity := by
  have gained := mul_le_mul_of_nonneg_right (le_max_right 0 (now - level.last)) bucket.rate_pos.le
  have nonneg := within.nonneg
  rw [refilled, refill, min_eq_right (by linarith)]

/-- A request keeps the tokens in their range. -/
theorem request_within (within : ∀ held ∈ level, bucket.Within held) (now : ℚ) :
    bucket.Within (bucket.request level now).1 := by
  have nonneg := refilled_nonneg within now
  have below := bucket.refilled_le_capacity level now
  unfold request
  split
  · rename_i granted
    exact ⟨by simpa using granted, by simp only; linarith⟩
  · exact ⟨nonneg, below⟩

@[simp] theorem request_last (level : Option TokenLevel) (now : ℚ) :
    (bucket.request level now).1.last = now := by
  unfold request
  split <;> rfl

theorem request_granted_iff :
    (bucket.request level now).2 = true ↔ 1 ≤ bucket.refilled level now := by
  unfold request
  grind

/-! ## The potential of an interval -/

variable (bucket) in
/-- The most that can be granted from the level to the end of the interval. -/
def potential (start stop : ℚ) : Option TokenLevel → ℚ
  | none => bucket.capacity + (stop - start) * bucket.rate
  | some level =>
      if level.last < start then bucket.capacity + (stop - start) * bucket.rate
      else if level.last ≤ stop then level.tokens + (stop - level.last) * bucket.rate
      else 0

variable {start stop : ℚ}

theorem potential_before {level : TokenLevel} (before : level.last < start) :
    bucket.potential start stop (some level) = bucket.capacity + (stop - start) * bucket.rate :=
  if_pos before

theorem potential_nonneg (interval : start ≤ stop) (within : ∀ held ∈ level, bucket.Within held) :
    0 ≤ bucket.potential start stop level := by
  have whole : 0 ≤ bucket.capacity + (stop - start) * bucket.rate :=
    add_nonneg (zero_le_one.trans bucket.capacity_one)
      (mul_nonneg (sub_nonneg.mpr interval) bucket.rate_pos.le)
  cases level with
  | none => exact whole
  | some level =>
    simp only [potential]
    split
    · exact whole
    · split
      · rename_i inside
        exact add_nonneg (within level rfl).nonneg
          (mul_nonneg (sub_nonneg.mpr inside) bucket.rate_pos.le)
      · exact le_refl 0

variable (bucket) in
/-- What a request in the interval finds, and what is gained after it, was in the
potential. -/
theorem refilled_le_potential (after : start ≤ now) (before : now ≤ stop)
    (forward : ∀ held ∈ level, held.last ≤ now) :
    bucket.refilled level now + (stop - now) * bucket.rate ≤ bucket.potential start stop level := by
  have whole : bucket.refilled level now + (stop - now) * bucket.rate ≤
      bucket.capacity + (stop - start) * bucket.rate := by
    have room := bucket.refilled_le_capacity level now
    have gained := mul_le_mul_of_nonneg_right (sub_le_sub_left after stop) bucket.rate_pos.le
    linarith
  cases level with
  | none => exact whole
  | some level =>
    have passed := forward level rfl
    simp only [potential]
    split
    · exact whole
    · rw [if_pos (passed.trans before)]
      have found := bucket.refill_le_add level.tokens (max 0 (now - level.last))
      rw [max_eq_right (sub_nonneg.mpr passed)] at found
      rw [refilled, max_eq_right (sub_nonneg.mpr passed)]
      grind

/-- A request moves at most its token from the potential to the requests granted in the
interval. -/
theorem request_potential (interval : start ≤ stop) (within : ∀ held ∈ level, bucket.Within held)
    (forward : ∀ held ∈ level, held.last ≤ now) :
    (if (bucket.request level now).2 ∧ start ≤ now ∧ now ≤ stop then 1 else 0) +
        bucket.potential start stop (some (bucket.request level now).1) ≤
      bucket.potential start stop level := by
  by_cases early : now < start
  · have same : bucket.potential start stop level =
        bucket.capacity + (stop - start) * bucket.rate := by
      cases level with
      | none => rfl
      | some level => exact potential_before ((forward level rfl).trans_lt early)
    rw [same, if_neg (fun counted => absurd counted.2.1 (not_le.mpr early)), zero_add,
      potential_before (by rwa [request_last])]
  · rw [not_lt] at early
    by_cases late : now ≤ stop
    · have found := bucket.refilled_le_potential early late forward
      have taken := bucket.request_tokens level now
      rw [potential, request_last, if_neg (not_lt.mpr early), if_pos late]
      simp only [early, late, and_true]
      linarith
    · rw [if_neg (fun counted => late counted.2.2), zero_add,
        potential, request_last, if_neg (not_lt.mpr early), if_neg late]
      exact potential_nonneg interval within

end TokenBucket

end Roze.Library
