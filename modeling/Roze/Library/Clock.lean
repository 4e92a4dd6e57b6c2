import Mathlib

/-!
# Instants and durations of a bounded clock

Both count nanoseconds and both are bounded: the seconds of a duration fit into an
unsigned, those of a clock reading into a signed 64-bit integer. A reading plus a
duration may therefore lie beyond the clock, and the addition says so.
-/

namespace Roze.Library

/-- A span of time. -/
structure Duration where
  nanos : Nat
  representable : nanos < 2 ^ 64 * 10 ^ 9
deriving DecidableEq

/-- The longest span. -/
def Duration.max : Duration where
  nanos := 2 ^ 64 * 10 ^ 9 - 1
  representable := by decide

namespace Duration

instance : LE Duration := ⟨fun first second => first.nanos ≤ second.nanos⟩

instance (first second : Duration) : Decidable (first ≤ second) :=
  inferInstanceAs (Decidable (first.nanos ≤ second.nanos))

instance : LT Duration := ⟨fun first second => first.nanos < second.nanos⟩

instance (first second : Duration) : Decidable (first < second) :=
  inferInstanceAs (Decidable (first.nanos < second.nanos))

instance : Max Duration := maxOfLe

instance : Min Duration := minOfLe

/-- No time at all. -/
def zero : Duration where
  nanos := 0
  representable := by decide

/-- One millisecond. -/
def millisecond : Duration where
  nanos := 1000000
  representable := by decide

/-- One second. -/
def second : Duration where
  nanos := 1000000000
  representable := by decide

/-- The whole milliseconds of a span. -/
def asMillis (duration : Duration) : Nat := duration.nanos / 1000000

/-- A whole number of milliseconds. -/
def fromMillis (millis : UInt64) : Duration where
  nanos := millis.toNat * 1000000
  representable := by
    have bound : millis.toNat < 2 ^ 64 := millis.toNat_lt
    omega

/-- The span divided by a whole number, rounded down to nanoseconds. -/
def div (duration : Duration) (divisor : Nat) : Duration where
  nanos := duration.nanos / divisor
  representable := lt_of_le_of_lt (Nat.div_le_self _ _) duration.representable

/-- A whole number of nanoseconds. -/
def fromNanos (nanos : UInt64) : Duration where
  nanos := nanos.toNat
  representable := by
    have bound : nanos.toNat < 2 ^ 64 := nanos.toNat_lt
    omega

/-- A multiple of the span, or the longest span when the multiple is longer. -/
def saturatingMul (duration : Duration) (factor : Nat) : Duration :=
  if representable : duration.nanos * factor < 2 ^ 64 * 10 ^ 9
  then ⟨duration.nanos * factor, representable⟩ else max

/-- The sum of two spans, or the longest span when the sum is longer. -/
def saturatingAdd (first second : Duration) : Duration :=
  if representable : first.nanos + second.nanos < 2 ^ 64 * 10 ^ 9
  then ⟨first.nanos + second.nanos, representable⟩ else max

theorem eq_of_nanos {first second : Duration} (same : first.nanos = second.nanos) :
    first = second := by
  cases second
  cases same
  rfl

theorem nanos_max (first second : Duration) :
    (Max.max first second).nanos = Max.max first.nanos second.nanos := by
  simp only [Max.max, LE.le]
  split <;> rfl

theorem nanos_min (first second : Duration) :
    (Min.min first second).nanos = Min.min first.nanos second.nanos := by
  simp only [Min.min, LE.le]
  split <;> rfl

theorem nanos_saturatingAdd (first second : Duration) :
    (first.saturatingAdd second).nanos =
      min (first.nanos + second.nanos) (2 ^ 64 * 10 ^ 9 - 1) := by
  rw [saturatingAdd]
  split
  · simp only
    omega
  · simp only [max]
    omega

end Duration

/-- A reading of a monotonic clock. -/
structure Instant where
  nanos : Nat
  representable : nanos < 2 ^ 63 * 10 ^ 9
deriving DecidableEq

namespace Instant

instance : LT Instant := ⟨fun first second => first.nanos < second.nanos⟩

instance (first second : Instant) : Decidable (first < second) :=
  inferInstanceAs (Decidable (first.nanos < second.nanos))

instance : LE Instant := ⟨fun first second => first.nanos ≤ second.nanos⟩

instance (first second : Instant) : Decidable (first ≤ second) :=
  inferInstanceAs (Decidable (first.nanos ≤ second.nanos))

/-- The first reading. -/
def zero : Instant where
  nanos := 0
  representable := by decide

/-- A whole number of nanoseconds after the first reading. -/
def ofNanos (nanos : UInt64) : Instant where
  nanos := nanos.toNat
  representable := by
    have bound : nanos.toNat < 2 ^ 64 := nanos.toNat_lt
    omega

/-- The reading a span later, unless the clock cannot show it. -/
def checkedAdd (instant : Instant) (duration : Duration) : Option Instant :=
  if representable : instant.nanos + duration.nanos < 2 ^ 63 * 10 ^ 9
  then some ⟨instant.nanos + duration.nanos, representable⟩ else none

theorem eq_of_nanos {first second : Instant} (same : first.nanos = second.nanos) : first = second := by
  cases second
  cases same
  rfl

theorem nanos_checkedAdd {instant later : Instant} {duration : Duration}
    (added : instant.checkedAdd duration = some later) :
    later.nanos = instant.nanos + duration.nanos := by
  rw [checkedAdd] at added
  grind

/-- The clock can show the reading a span later, for every number of milliseconds that fits
into 64 bits. -/
def early (instant : Instant) : Bool :=
  instant.nanos + 2 ^ 64 * 1000000 ≤ 2 ^ 63 * 10 ^ 9

theorem checkedAdd_fromMillis {instant : Instant} (early : instant.early = true) (millis : UInt64) :
    (instant.checkedAdd (.fromMillis millis)).isSome := by
  have bound : millis.toNat < 2 ^ 64 := millis.toNat_lt
  have room : instant.nanos + 2 ^ 64 * 1000000 ≤ 2 ^ 63 * 10 ^ 9 := of_decide_eq_true early
  have within : instant.nanos + millis.toNat * 1000000 < 2 ^ 63 * 10 ^ 9 := by omega
  rw [checkedAdd]
  split
  · rfl
  · rename_i beyond
    exact absurd within beyond

/-- The span since a reading that is not later. -/
def checkedDurationSince (instant earlier : Instant) : Option Duration :=
  if earlier.nanos ≤ instant.nanos then
    some ⟨instant.nanos - earlier.nanos, by
      have bound := instant.representable
      omega⟩
  else none

theorem checkedDurationSince_eq_some_iff {instant earlier : Instant} {duration : Duration} :
    instant.checkedDurationSince earlier = some duration ↔
      earlier.nanos + duration.nanos = instant.nanos := by
  rw [checkedDurationSince]
  constructor
  · grind
  · intro sum
    have before : earlier.nanos ≤ instant.nanos := by omega
    rw [if_pos before]
    congr 1
    apply Duration.eq_of_nanos
    simp only
    omega

theorem checkedDurationSince_eq_none_iff {instant earlier : Instant} :
    instant.checkedDurationSince earlier = none ↔ instant < earlier := by
  rw [checkedDurationSince]
  constructor
  · intro since
    split at since
    · cases since
    · rename_i after
      exact Nat.lt_of_not_le after
  · intro after
    exact if_neg (Nat.not_le_of_lt after)

/-- The span since an earlier reading; zero when that one is not earlier. -/
def durationSince (instant earlier : Instant) : Duration where
  nanos := instant.nanos - earlier.nanos
  representable := by
    have bound := instant.representable
    omega

end Instant

/-! ## Rounding to whole units -/

/-- The nearest whole number, and of two that are equally near the even one. -/
def roundHalfEven (value : ℚ) : Nat :=
  let whole := ⌊value⌋.toNat
  if Int.fract value < 1 / 2 then whole
  else if 1 / 2 < Int.fract value then whole + 1
  else if whole % 2 = 0 then whole
  else whole + 1

/-- The value is not whole and its nearest whole number is below it. -/
def RoundedDown (value : ℚ) : Prop :=
  0 < Int.fract value ∧
    (Int.fract value < 1 / 2 ∨ (Int.fract value = 1 / 2 ∧ ⌊value⌋.toNat % 2 = 0))

instance (value : ℚ) : Decidable (RoundedDown value) := inferInstanceAs (Decidable (_ ∧ _))

theorem floor_toNat_cast {value : ℚ} (nonneg : 0 ≤ value) :
    ((⌊value⌋.toNat : Nat) : ℚ) = value - Int.fract value := by
  have whole : ((⌊value⌋.toNat : Nat) : Int) = ⌊value⌋ :=
    Int.toNat_of_nonneg (Int.floor_nonneg.mpr nonneg)
  have cast := congrArg (Int.cast : Int → ℚ) whole
  rw [Int.cast_natCast] at cast
  rw [cast, Int.self_sub_fract]

/-- A value that is rounded down lies above the result. -/
theorem roundHalfEven_of_roundedDown {value : ℚ} (down : RoundedDown value) :
    roundHalfEven value = ⌊value⌋.toNat := by
  obtain ⟨-, small | ⟨half, even⟩⟩ := down
  · exact if_pos small
  · simp [roundHalfEven, half, even]

theorem le_roundHalfEven {value : ℚ} (nonneg : 0 ≤ value) (kept : ¬ RoundedDown value) :
    value ≤ roundHalfEven value := by
  have cast := floor_toNat_cast nonneg
  have below := Int.fract_lt_one value
  unfold roundHalfEven
  simp only
  split
  · rename_i small
    have zero : ¬ 0 < Int.fract value := fun positive => kept ⟨positive, .inl small⟩
    linarith
  · split
    · push_cast
      linarith
    · have half : Int.fract value = 1 / 2 := by linarith
      split
      · rename_i even
        exact absurd ⟨by rw [half]; norm_num, .inr ⟨half, even⟩⟩ kept
      · push_cast
        linarith

end Roze.Library
