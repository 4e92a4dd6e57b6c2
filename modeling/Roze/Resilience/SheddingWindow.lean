import Roze.Library.RollingWindow
import Roze.Resilience.Shedding

/-!
# The rolling window decides on exactly its unexpired samples

Two rules evict buckets: age, at the front, and the limit of fifty. Against them
stands a window that evicts nothing. It groups all samples ever recorded, each group
starting with the first sample that is one bucket duration away from the start of the
group before it. The deque is at every time the unexpired part of these groups, so the
limit never evicts anything, and the decision to shed is one about the unexpired
samples.

The bucket duration is a fiftieth of the window, rounded down to nanoseconds, and at
least a millisecond. For a window that is a multiple of fifty nanoseconds the fifty
buckets cover it.
-/

namespace Roze.Resilience

open SheddingBucket

open Roze.Library List

/-- The arguments of a recording call. -/
structure Sample where
  now : Instant
  success : Bool
  latency : Duration
deriving DecidableEq

/-- Record samples one after another. -/
def SheddingState.recordSamples (state : SheddingState) (window : Duration)
    (samples : List Sample) : SheddingState :=
  samples.foldl (fun state sample =>
    state.recordSheddingSample sample.now sample.success sample.latency window) state

open SheddingState

/-! ## A window that evicts nothing -/

/-- Samples that share a bucket, in the order in which they were recorded. -/
structure SampleGroup where
  first : Sample
  rest : List Sample
deriving DecidableEq

namespace SampleGroup

def members (group : SampleGroup) : List Sample := group.first :: group.rest

/-- The time at which the group starts, in nanoseconds. -/
def start (group : SampleGroup) : Nat := group.first.now.nanos

/-- The group is younger than the effective window. -/
def live (now : Instant) (window : Duration) (group : SampleGroup) : Bool :=
  decide (now.durationSince group.first.now < effectiveWindow window)

/-- The bucket that holds the group. -/
def bucket (group : SampleGroup) : SheddingBucket :=
  group.rest.foldl (fun bucket sample => bucket.add sample.success sample.latency)
    (.opened group.first.now group.first.success group.first.latency)

end SampleGroup

open SampleGroup

/-- A sample joins the last group or, one bucket duration after its start, opens a new
one. -/
def addSample (window : Duration) (groups : List SampleGroup) (sample : Sample) :
    List SampleGroup :=
  match groups.getLast? with
  | some last =>
      if sample.now.durationSince last.first.now < sheddingBucketDuration window then
        groups.dropLast ++ [{ last with rest := last.rest ++ [sample] }]
      else groups ++ [⟨sample, []⟩]
  | none => [⟨sample, []⟩]

/-- All samples ever recorded, in their groups. -/
def groupSamples (window : Duration) (samples : List Sample) : List SampleGroup :=
  samples.foldl (addSample window) []

/-- The samples of the groups that are younger than the effective window. -/
def unexpiredSamples (window : Duration) (now : Instant) (samples : List Sample) : List Sample :=
  ((groupSamples window samples).filter (SampleGroup.live now window)).flatMap SampleGroup.members

/-! ## Durations -/

variable {window : Duration}

theorem nanos_sheddingBucketDuration (window : Duration) :
    (sheddingBucketDuration window).nanos = max (window.nanos / 50) 1000000 := by
  rw [sheddingBucketDuration, Duration.nanos_max]
  rfl

theorem nanos_effectiveWindow (window : Duration) :
    (effectiveWindow window).nanos = max window.nanos (sheddingBucketDuration window).nanos := by
  rw [effectiveWindow, Duration.nanos_max]

/-! ## The groups of ordered samples -/

/-- The groups of samples up to a time: they start one bucket duration apart, and not
later than that time. -/
structure GroupsUntil (window : Duration) (now : Instant) (groups : List SampleGroup) : Prop where
  spaced : Spaced SampleGroup.start (sheddingBucketDuration window).nanos groups
  past : ∀ group ∈ groups, group.start ≤ now.nanos

variable {now : Instant}

/-- A group is live exactly when its age in nanoseconds is below the window. -/
theorem SampleGroup.live_iff {group : SampleGroup} :
    group.live now window = true ↔ now.nanos - group.start < (effectiveWindow window).nanos := by
  simp only [SampleGroup.live, decide_eq_true_eq]
  exact Iff.rfl

theorem SampleGroup.bucket_startedAt (group : SampleGroup) :
    group.bucket.startedAt = group.first.now := by
  have same : ∀ (samples : List Sample) (bucket : SheddingBucket),
      (samples.foldl (fun bucket sample => bucket.add sample.success sample.latency)
        bucket).startedAt = bucket.startedAt := by
    intro samples
    induction samples with
    | nil => exact fun bucket => rfl
    | cons sample rest ih =>
      exact fun bucket => ih (bucket.add sample.success sample.latency)
  exact same group.rest _

/-- The three shapes of adding a sample: the first group, one more member of the last
group, or one more group. -/
theorem addSample_cases (window : Duration) (groups : List SampleGroup) (sample : Sample) :
    (groups = [] ∧ addSample window groups sample = [⟨sample, []⟩]) ∨
      ∃ init last, groups = init ++ [last] ∧
        ((sample.now.durationSince last.first.now < sheddingBucketDuration window ∧
            addSample window groups sample =
              init ++ [{ last with rest := last.rest ++ [sample] }]) ∨
          (¬ sample.now.durationSince last.first.now < sheddingBucketDuration window ∧
            addSample window groups sample = init ++ [last] ++ [⟨sample, []⟩])) := by
  rcases eq_nil_or_concat' groups with rfl | ⟨init, last, rfl⟩
  · exact .inl ⟨rfl, rfl⟩
  · refine .inr ⟨init, last, rfl, ?_⟩
    by_cases near : sample.now.durationSince last.first.now < sheddingBucketDuration window
    · exact .inl ⟨near, by simp [addSample, near]⟩
    · exact .inr ⟨near, by simp [addSample, near]⟩

/-- The groups hold the recorded samples, in order. -/
theorem groupSamples_members (window : Duration) (samples : List Sample) :
    (groupSamples window samples).flatMap SampleGroup.members = samples := by
  induction samples using List.reverseRecOn with
  | nil => rfl
  | append_singleton earlier sample ih =>
    rw [groupSamples, foldl_append, foldl_cons, foldl_nil, ← groupSamples]
    rcases addSample_cases window (groupSamples window earlier) sample with
      ⟨none, added⟩ | ⟨init, last, groups, ⟨_, added⟩ | ⟨_, added⟩⟩
    · rw [none] at ih
      rw [added, ← ih]
      rfl
    · rw [groups] at ih
      rw [added, ← ih]
      simp [members]
    · rw [groups] at ih
      rw [added, flatMap_append, ih]
      rfl

variable {groups : List SampleGroup} {sample : Sample}

/-- Adding a later sample keeps the groups spaced. -/
theorem GroupsUntil.add (until' : GroupsUntil window now groups)
    (later : now.nanos ≤ sample.now.nanos) :
    GroupsUntil window sample.now (addSample window groups sample) := by
  obtain ⟨spaced, past⟩ := until'
  rcases addSample_cases window groups sample with ⟨rfl, added⟩ | ⟨_, last, rfl, added⟩
  · rw [added]
    exact ⟨pairwise_singleton _ _, by simp [start]⟩
  · rcases added with ⟨_, added⟩ | ⟨far, added⟩
    · rw [added]
      constructor
      · rw [Spaced, pairwise_append] at spaced ⊢
        refine ⟨spaced.1, pairwise_singleton _ _, ?_⟩
        intro group member extended sameLast
        obtain rfl := mem_singleton.mp sameLast
        exact spaced.2.2 group member last (mem_singleton_self last)
      · intro group member
        rcases mem_append.mp member with earlier | extended
        · grind
        · obtain rfl := mem_singleton.mp extended
          exact (past last (mem_append_right _ (mem_singleton_self last))).trans later
    · rw [added]
      have gap : last.start + (sheddingBucketDuration window).nanos ≤ sample.now.nanos := by
        have apart : (sheddingBucketDuration window).nanos ≤
            sample.now.nanos - last.first.now.nanos := Nat.le_of_not_lt far
        have reached : last.first.now.nanos ≤ now.nanos :=
          past last (mem_append_right _ (mem_singleton_self last))
        rw [start]
        omega
      constructor
      · rw [Spaced, pairwise_append]
        refine ⟨spaced, pairwise_singleton _ _, ?_⟩
        intro group member opened sameLast
        obtain rfl := mem_singleton.mp sameLast
        rcases mem_append.mp member with earlier | isLast
        · have before : group.start + (sheddingBucketDuration window).nanos ≤ last.start :=
            (pairwise_append.mp spaced).2.2 group earlier last (mem_singleton_self last)
          exact (before.trans (Nat.le_add_right _ _)).trans gap
        · obtain rfl := mem_singleton.mp isLast
          exact gap
      · intro group member
        rcases mem_append.mp member with earlier | opened
        · exact (past group earlier).trans later
        · obtain rfl := mem_singleton.mp opened
          exact Nat.le_refl _

/-- Whatever starts before a group that has expired has expired. -/
theorem GroupsUntil.closed (until' : GroupsUntil window now groups) (later : Instant) :
    groups.Pairwise (fun earlier group =>
      (!group.live later window) = true → (!earlier.live later window) = true) := by
  refine until'.spaced.imp ?_
  intro earlier group apart expired
  rw [Bool.not_eq_true', ← Bool.not_eq_true, live_iff] at expired ⊢
  omega

/-- The unexpired groups are at most fifty. -/
theorem GroupsUntil.live_length_le (whole : 50 ∣ window.nanos)
    (until' : GroupsUntil window now groups) :
    (groups.filter (SampleGroup.live now window)).length ≤ sheddingBuckets := by
  have spaced : Spaced start (sheddingBucketDuration window).nanos
      (groups.filter (SampleGroup.live now window)) := until'.spaced.filter _
  have past : ∀ group ∈ groups.filter (SampleGroup.live now window), group.start ≤ now.nanos :=
    fun group member => until'.past group (mem_filter.mp member).1
  have young : ∀ group ∈ groups.filter (SampleGroup.live now window),
      now.nanos - group.start < (effectiveWindow window).nanos :=
    fun group member => live_iff.mp (mem_filter.mp member).2
  refine spaced.length_le past young ?_
  -- fifty bucket durations cover a window of a multiple of fifty nanoseconds
  have width := nanos_sheddingBucketDuration window
  rw [nanos_effectiveWindow, sheddingBuckets]
  omega

/-! ## The deque is the unexpired part -/

/-- The buckets of the live groups. -/
def liveBuckets (window : Duration) (now : Instant) (groups : List SampleGroup) :
    List SheddingBucket :=
  (groups.filter (SampleGroup.live now window)).map SampleGroup.bucket

/-- Pruning at a later time leaves the buckets of the groups that are live then. -/
theorem prune_liveBuckets {later : Instant} (until' : GroupsUntil window now groups)
    (order : now.nanos ≤ later.nanos) :
    (liveBuckets window now groups).dropWhile (SheddingBucket.expired later window) =
      liveBuckets window later groups := by
  have shape : expired later window ∘ SampleGroup.bucket =
      fun group => !group.live later window := by
    funext group
    rw [Function.comp_apply, expired, bucket_startedAt, live, ← decide_not]
    exact decide_eq_decide.mpr Nat.not_lt.symm
  have closed := (until'.closed later).filter (SampleGroup.live now window)
  rw [liveBuckets, liveBuckets, dropWhile_map, shape, dropWhile_eq_filter closed,
    filter_filter]
  congr 1
  apply filter_congr
  intro group member
  cases live : group.live later window with
  | false => simp
  | true =>
    have young : group.live now window = true := by
      rw [live_iff] at live ⊢
      omega
    simp [young]

/-- A group that has expired is followed by nothing that is live in ordered groups. -/
theorem liveBuckets_of_last_expired {later : Instant} {init : List SampleGroup}
    {last : SampleGroup} (until' : GroupsUntil window now (init ++ [last]))
    (gone : last.live later window = false) : liveBuckets window later (init ++ [last]) = [] := by
  have before := (pairwise_append.mp (until'.closed later)).2.2
  rw [liveBuckets, map_eq_nil_iff, filter_eq_nil_iff]
  intro group member
  rcases mem_append.mp member with earlier | isLast <;> simp_all

/-- A group with one sample is live at that sample's time. -/
theorem live_single (sample : Sample) :
    SampleGroup.live sample.now window ⟨sample, []⟩ = true := by
  have known := nanos_sheddingBucketDuration window
  simp only [live_iff, nanos_effectiveWindow, start]
  omega

/-- A group that takes a sample is live: the bucket duration is within the window. -/
theorem live_of_near {group : SampleGroup}
    (near : sample.now.durationSince group.first.now < sheddingBucketDuration window) :
    group.live sample.now window = true := by
  have age : sample.now.nanos - group.first.now.nanos < (sheddingBucketDuration window).nanos := near
  rw [live_iff, nanos_effectiveWindow, start]
  omega

/-- A member added to a group is added to its bucket. -/
theorem bucket_extend (group : SampleGroup) (sample : Sample) :
    SampleGroup.bucket { group with rest := group.rest ++ [sample] } =
      group.bucket.add sample.success sample.latency := by
  simp [SampleGroup.bucket, foldl_append]

/-- The live buckets after one more group. -/
theorem liveBuckets_concat (now : Instant) (init : List SampleGroup) {last : SampleGroup}
    (live : last.live now window = true) :
    liveBuckets window now (init ++ [last]) = liveBuckets window now init ++ [last.bucket] := by
  simp [liveBuckets, live]

variable {state : SheddingState}

/-- A sample near the start of the last unpruned bucket joins it. -/
theorem recordSheddingSample_joins {success : Bool} {latency : Duration}
    {init : List SheddingBucket} {bucket : SheddingBucket}
    (pruned : (state.pruneSheddingBuckets now window).buckets = init ++ [bucket])
    (near : now.durationSince bucket.startedAt < sheddingBucketDuration window) :
    (state.recordSheddingSample now success latency window).buckets =
      init ++ [bucket.add success latency] := by
  simp [recordSheddingSample, pruned, near]

/-- Any other sample is pushed in a bucket of its own, and while there is room nothing
is popped for it. -/
theorem recordSheddingSample_pushes {success : Bool} {latency : Duration}
    (far : ∀ bucket, (state.pruneSheddingBuckets now window).buckets.getLast? = some bucket →
      ¬ now.durationSince bucket.startedAt < sheddingBucketDuration window)
    (room : (state.pruneSheddingBuckets now window).buckets.length < sheddingBuckets) :
    (state.recordSheddingSample now success latency window).buckets =
      (state.pruneSheddingBuckets now window).buckets ++ [.opened now success latency] := by
  have pushed : ((state.pruneSheddingBuckets now window).pushBucket
      (.opened now success latency)).buckets =
      (state.pruneSheddingBuckets now window).buckets ++ [.opened now success latency] := by
    have excess : ((state.pruneSheddingBuckets now window).buckets ++
        [opened now success latency]).length - sheddingBuckets = 0 := by simp_all
    rw [pushBucket]
    simp only [excess, drop_zero]
  rw [recordSheddingSample]
  grind

/-- Recording a sample on the unexpired part of the groups is adding it to the groups.

Proof: pruning leaves the buckets of the groups that are live now. The last of them is
the last group, unless that has expired, and then everything has and the sample is too
far from it anyway. A pushed bucket is the last of at most fifty. -/
theorem record_liveBuckets (whole : 50 ∣ window.nanos) (until' : GroupsUntil window now groups)
    (held : state.buckets = liveBuckets window now groups) (order : now.nanos ≤ sample.now.nanos) :
    (state.recordSheddingSample sample.now sample.success sample.latency window).buckets =
      liveBuckets window sample.now (addSample window groups sample) := by
  have pruned : (state.pruneSheddingBuckets sample.now window).buckets =
      liveBuckets window sample.now groups := by
    simp only [pruneSheddingBuckets, held, prune_liveBuckets until' order]
  have bounded : (liveBuckets window sample.now (addSample window groups sample)).length ≤
      sheddingBuckets := by
    rw [liveBuckets, length_map]
    exact (until'.add order).live_length_le whole
  have pushes (opens : addSample window groups sample = groups ++ [⟨sample, []⟩])
      (far : ∀ bucket, (liveBuckets window sample.now groups).getLast? = some bucket →
        ¬ sample.now.durationSince bucket.startedAt < sheddingBucketDuration window) :
      (state.recordSheddingSample sample.now sample.success sample.latency window).buckets =
        liveBuckets window sample.now (addSample window groups sample) := by
    rw [opens, liveBuckets_concat sample.now groups (live_single sample)] at bounded ⊢
    rw [length_append, length_singleton] at bounded
    rw [recordSheddingSample_pushes (by rwa [pruned]) (by rw [pruned]; omega), pruned]
    rfl
  rcases addSample_cases window groups sample with ⟨rfl, added⟩ | ⟨init, last, rfl, added⟩
  · exact pushes added (by simp [liveBuckets])
  · rcases added with ⟨near, added⟩ | ⟨_, added⟩
    · have live : last.live sample.now window = true := live_of_near near
      have extended : SampleGroup.live sample.now window
          { last with rest := last.rest ++ [sample] } = true := live_of_near near
      rw [liveBuckets_concat sample.now init live] at pruned
      rw [recordSheddingSample_joins pruned (by rwa [bucket_startedAt]), added,
        liveBuckets_concat sample.now init extended, bucket_extend]
    · apply pushes added
      intro bucket back
      cases live : last.live sample.now window with
      | true =>
        rw [liveBuckets_concat sample.now init live, getLast?_concat] at back
        obtain rfl := Option.some.inj back
        rwa [bucket_startedAt]
      | false =>
        rw [liveBuckets_of_last_expired until' live] at back
        cases back

/-- Recording ordered samples keeps the deque equal to the unexpired part of their
groups. -/
theorem recordSamples_liveBuckets (whole : 50 ∣ window.nanos) (samples : List Sample)
    (until' : GroupsUntil window now groups)
    (held : state.buckets = liveBuckets window now groups)
    (later : ∀ sample ∈ samples, now.nanos ≤ sample.now.nanos)
    (ordered : samples.Pairwise (fun first second => first.now.nanos ≤ second.now.nanos)) :
    GroupsUntil window (samples.foldl (fun _ sample => sample.now) now)
        (samples.foldl (addSample window) groups) ∧
      (state.recordSamples window samples).buckets =
        liveBuckets window (samples.foldl (fun _ sample => sample.now) now)
          (samples.foldl (addSample window) groups) := by
  induction samples generalizing state now groups with
  | nil => exact ⟨until', held⟩
  | cons sample rest ih =>
    obtain ⟨after, remaining⟩ := pairwise_cons.mp ordered
    have order := later sample mem_cons_self
    exact ih (until'.add order) (record_liveBuckets whole until' held order)
      after remaining

/-! ## The decision to shed -/

/-- A quantity of samples, added up. -/
def total (quantity : Sample → Nat) (samples : List Sample) : Nat := (samples.map quantity).sum

/-- Whether a sample is a failure, as a number. -/
def Sample.failed (sample : Sample) : Nat := if sample.success then 0 else 1

/-- The samples show overload: there are enough of them, and their average latency or
their failures per thousand are above the limit. -/
def Overloaded (config : SheddingConfig) (samples : List Sample) : Prop :=
  max config.minSamples.toNat 1 ≤ samples.length ∧
    (config.maxAvgLatency.nanos <
        total (fun sample => sample.latency.nanos) samples / samples.length ∨
      config.maxFailureRatioPerMille.toNat < total Sample.failed samples * 1000 / samples.length)

/-- No count, ratio or total of the samples is beyond its type. -/
structure Unsaturated (samples : List Sample) : Prop where
  count : samples.length < 2 ^ 64
  failures : total Sample.failed samples * 1000 < 2 ^ 64
  latency : total (fun sample => sample.latency.nanos) samples < 2 ^ 64 * 10 ^ 9

/-- A bucket's field adds up a quantity of the bucket's samples, up to a cap. -/
structure Accumulates (field : SheddingBucket → Nat) (quantity : Sample → Nat) (cap : Nat) :
    Prop where
  opens : ∀ sample : Sample,
    field (.opened sample.now sample.success sample.latency) = quantity sample
  adds : ∀ (bucket : SheddingBucket) (sample : Sample),
    field (bucket.add sample.success sample.latency) = min (field bucket + quantity sample) cap
  fits : ∀ sample : Sample, quantity sample ≤ cap

theorem accumulates_samples :
    Accumulates (fun bucket => bucket.samples.toNat) (fun _ => 1) (2 ^ 64 - 1) where
  opens _ := rfl
  adds bucket _ := saturatingAddU64_toNat bucket.samples 1
  fits _ := by omega

theorem accumulates_failures :
    Accumulates (fun bucket => bucket.failures.toNat) Sample.failed (2 ^ 64 - 1) where
  opens sample := by
    cases success : sample.success <;> simp [opened, Sample.failed, success]
  adds bucket sample := by
    rw [add]
    simp only [saturatingAddU64_toNat]
    cases success : sample.success <;> simp [Sample.failed, success]
  fits sample := by
    rw [Sample.failed]
    split <;> omega

theorem accumulates_latency :
    Accumulates (fun bucket => bucket.totalLatency.nanos) (fun sample => sample.latency.nanos)
      (2 ^ 64 * 10 ^ 9 - 1) where
  opens _ := rfl
  adds bucket sample := Duration.nanos_saturatingAdd bucket.totalLatency sample.latency
  fits sample := Nat.le_sub_one_of_lt sample.latency.representable

variable {field : SheddingBucket → Nat} {quantity : Sample → Nat} {cap : Nat}

/-- The field of a group's bucket is the total of its members, up to the cap. -/
theorem Accumulates.bucket (accumulates : Accumulates field quantity cap) (group : SampleGroup) :
    field group.bucket = min (total quantity group.members) cap := by
  have first : field (.opened group.first.now group.first.success group.first.latency) ≤ cap := by
    rw [accumulates.opens]
    exact accumulates.fits group.first
  rw [SampleGroup.bucket, foldl_saturating accumulates.adds group.rest first, accumulates.opens,
    total, members, map_cons, sum_cons]

/-- The totals of the groups add up to the total of their samples. -/
theorem total_flatMap (quantity : Sample → Nat) (groups : List SampleGroup) :
    total quantity (groups.flatMap SampleGroup.members) =
      (groups.map (fun group => total quantity group.members)).sum := by
  induction groups with
  | nil => rfl
  | cons group rest ih =>
    rw [total] at ih
    rw [total, flatMap_cons, map_append, sum_append, ih,
      map_cons, sum_cons, total]

/-- Added up without a cap over the buckets, the field is the total of all samples when
that is within the cap: then no bucket was capped. -/
theorem Accumulates.sum (accumulates : Accumulates field quantity cap) (groups : List SampleGroup)
    (within : total quantity (groups.flatMap SampleGroup.members) ≤ cap) :
    ((groups.map SampleGroup.bucket).map field).sum =
      total quantity (groups.flatMap SampleGroup.members) := by
  rw [total_flatMap] at within ⊢
  induction groups with
  | nil => rfl
  | cons group rest ih =>
    rw [map_cons, sum_cons] at within
    rw [map_cons, map_cons, sum_cons, map_cons, sum_cons,
      ih (by omega), accumulates.bucket group]
    omega

theorem total_one (samples : List Sample) : total (fun _ => 1) samples = samples.length := by
  simp [total]

/-- On the buckets of unsaturated groups the decision is the one on their samples. -/
theorem shouldShed_iff (held : state.buckets = groups.map SampleGroup.bucket)
    (unsaturated : Unsaturated (groups.flatMap SampleGroup.members)) (config : SheddingConfig) :
    state.shouldShed config = true ↔ Overloaded config (groups.flatMap SampleGroup.members) := by
  obtain ⟨countBelow, _, _⟩ := unsaturated
  have count : (state.buckets.map SheddingBucket.samples).sum.toNat =
      (groups.flatMap members).length := by
    have sum := accumulates_samples.sum groups (by rw [total_one]; omega)
    rw [total_one, map_map] at sum
    rw [held, sumU64_toNat, map_map, map_map]
    exact (congrArg (· % 2 ^ 64) sum).trans (Nat.mod_eq_of_lt countBelow)
  have failures : (state.buckets.map SheddingBucket.failures).sum.toNat =
      total Sample.failed (groups.flatMap members) := by
    have sum := accumulates_failures.sum groups (by omega)
    rw [map_map] at sum
    rw [held, sumU64_toNat, map_map, map_map]
    exact (congrArg (· % 2 ^ 64) sum).trans (Nat.mod_eq_of_lt (by omega))
  have latency : (state.buckets.foldl (fun sum bucket => sum.saturatingAdd bucket.totalLatency)
      Duration.zero).nanos =
      total (fun sample => sample.latency.nanos) (groups.flatMap members) := by
    have sum := accumulates_latency.sum groups (by omega)
    have none : Duration.zero.nanos ≤ 2 ^ 64 * 10 ^ 9 - 1 := by decide
    have folded := foldl_saturating
      (fun (sum : Duration) (bucket : SheddingBucket) =>
        Duration.nanos_saturatingAdd sum bucket.totalLatency) state.buckets none
    have zero : Duration.zero.nanos = 0 := rfl
    grind
  generalize groups.flatMap members = samples at *
  rw [shouldShed, Overloaded]
  simp only [UInt64.lt_iff_toNat_lt, UInt64.toNat_max, count, UInt64.toNat_one, latency]
  by_cases few : samples.length < max config.minSamples.toNat 1
  · grind
  · rw [if_neg few]
    have positive : max samples.length 1 = samples.length := by omega
    have ratio : (saturatingMulU64 (state.buckets.map SheddingBucket.failures).sum 1000 /
        max (state.buckets.map SheddingBucket.samples).sum 1).toNat =
        total Sample.failed samples * 1000 / samples.length := by
      have thousand : (1000 : UInt64).toNat = 1000 := rfl
      rw [UInt64.toNat_div, saturatingMulU64_toNat, UInt64.toNat_max, failures, count, UInt64.toNat_one,
        positive, thousand, Nat.min_eq_left (by omega)]
    simp only [ratio, UInt32.toNat_toUInt64]
    by_cases slow : config.maxAvgLatency.nanos <
        total (fun sample => sample.latency.nanos) samples / samples.length
    · rw [if_pos slow]
      simp only [true_iff]
      omega
    · rw [if_neg slow]
      simp only [decide_eq_true_eq, slow, false_or]
      omega

/-- For a window that is a multiple of fifty nanoseconds and samples recorded in the order
of their times: the deque holds at most fifty buckets, at least one bucket duration apart;
all samples are in the groups, and it holds exactly the groups younger than the effective
window; the decision is the one on the samples of these groups, short of saturation. -/
theorem window_exact (whole : 50 ∣ window.nanos) (state : SheddingState)
    (fresh : state.buckets = []) (samples : List Sample) (last : Sample)
    (ordered : (samples ++ [last]).Pairwise
      (fun first second => first.now.nanos ≤ second.now.nanos)) :
    let final := state.recordSamples window (samples ++ [last])
    final.buckets.length ≤ 50 ∧
      final.buckets.Pairwise (fun earlier later => earlier.startedAt < later.startedAt ∧
        earlier.startedAt.nanos + max (window.nanos / 50) 1000000 ≤ later.startedAt.nanos) ∧
      (groupSamples window (samples ++ [last])).flatMap members = samples ++ [last] ∧
      final.buckets = ((groupSamples window (samples ++ [last])).filter
        (SampleGroup.live last.now window)).map SampleGroup.bucket ∧
      (Unsaturated (unexpiredSamples window last.now (samples ++ [last])) →
        ∀ config, final.shouldShed config = true ↔
          Overloaded config (unexpiredSamples window last.now (samples ++ [last]))) := by
  intro final
  have start : GroupsUntil window .zero [] := ⟨List.Pairwise.nil, by simp⟩
  obtain ⟨until', held⟩ := recordSamples_liveBuckets whole (samples ++ [last]) start
    (by simpa [liveBuckets] using fresh) (fun _ _ => Nat.zero_le _) ordered
  rw [foldl_append, foldl_cons, foldl_nil] at until' held
  refine ⟨?_, ?_, groupSamples_members window _, held,
    fun unsaturated config => shouldShed_iff held unsaturated config⟩
  · rw [held, liveBuckets, length_map]
    exact until'.live_length_le whole
  · rw [held, liveBuckets, pairwise_map]
    refine (until'.spaced.filter _).imp ?_
    intro earlier later apart
    rw [nanos_sheddingBucketDuration] at apart
    simp only [bucket_startedAt]
    refine ⟨?_, apart⟩
    change earlier.start < later.start
    omega

/-- With a window of a tenth of a second, two of three samples failed: the first two share
a bucket, and the shedder decides on all three. -/
theorem window_exact_three_samples :
    let window : Duration := ⟨100000000, by decide⟩
    let config : SheddingConfig :=
      { concurrency := 10, window := window, minSamples := 2, maxAvgLatency := Duration.max
        maxFailureRatioPerMille := 499, coolDown := .millisecond }
    let samples : List Sample :=
      [⟨.zero, false, .millisecond⟩, ⟨⟨1500000, by decide⟩, true, .millisecond⟩]
    let last : Sample := ⟨⟨2000000, by decide⟩, false, .millisecond⟩
    let final := default.recordSamples window (samples ++ [last])
    final.buckets.length = 2 ∧ final.buckets.length ≤ 50 ∧ final.shouldShed config = true := by
  intro window config samples last final
  obtain ⟨bounded, _, _, _, decision⟩ := window_exact (by decide : 50 ∣ window.nanos)
    default rfl samples last (by decide)
  have unsaturated : Unsaturated (unexpiredSamples window last.now (samples ++ [last])) :=
    ⟨by decide, by decide, by decide⟩
  exact ⟨by decide, bounded, (decision unsaturated config).mpr ⟨by decide, .inr (by decide)⟩⟩

end Roze.Resilience
