import Roze.Library.MachineInteger
import Roze.Library.Streak

/-!
# Health of upstream instances

Each probe of an instance counts in a row of failures or of successes. An instance becomes unhealthy when
the failures in a row reach a threshold, and healthy again when the successes in a row reach another one.
-/

namespace Roze.Gateway

open Roze.Library

structure HealthState where
  healthy : Bool
  failures : UInt32
  successes : UInt32
deriving DecidableEq

def HealthState.default : HealthState := ⟨true, 0, 0⟩

/-- What the record of a probe reads of `GatewayHealthCheckConfig`. -/
structure GatewayHealthCheckConfig where
  unhealthyThreshold : UInt32
  healthyThreshold : UInt32

def HealthState.record (config : GatewayHealthCheckConfig) (state : HealthState) (healthy : Bool) :
    HealthState :=
  if healthy then
    let successes := saturatingAddU32 state.successes 1
    ⟨state.healthy || max config.healthyThreshold.toNat 1 ≤ successes.toNat, 0, successes⟩
  else
    let failures := saturatingAddU32 state.failures 1
    ⟨state.healthy && failures.toNat < max config.unhealthyThreshold.toNat 1, failures, 0⟩

abbrev HealthStates := String → Option HealthState

def recordHealthResult (configOf : String → GatewayHealthCheckConfig) (states : HealthStates)
    (probe : String × Bool) : HealthStates :=
  Function.update states probe.1
    (some (((states probe.1).getD .default).record (configOf probe.1) probe.2))

/-- The states after a sequence of probes of any instances. -/
def recordedHealth (configOf : String → GatewayHealthCheckConfig) (probes : List (String × Bool)) :
    HealthStates :=
  probes.foldl (recordHealthResult configOf) (fun _ => none)

/-- An instance that was never probed is healthy. -/
def HealthStates.healthy (states : HealthStates) (key : String) : Bool :=
  (states key).all HealthState.healthy

/-- The results of the probes of one instance. -/
def resultsOf (key : String) (probes : List (String × Bool)) : List Bool :=
  (probes.filter (fun probe => probe.1 = key)).map Prod.snd

/-- The counters are the rows at the end of the results, and neither row has reached the threshold at
which the state would have changed. -/
structure HealthState.Follows (state : HealthState) (config : GatewayHealthCheckConfig)
    (results : List Bool) : Prop where
  failures : state.failures.toNat = min (streak false results) (2 ^ 32 - 1)
  successes : state.successes.toNat = min (streak true results) (2 ^ 32 - 1)
  healthy : state.healthy = true → streak false results < max config.unhealthyThreshold.toNat 1
  unhealthy : state.healthy = false → streak true results < max config.healthyThreshold.toNat 1

namespace HealthState

variable {config : GatewayHealthCheckConfig} {state : HealthState} {results : List Bool}

/-- A probe changes the state exactly when it completes the row that is as long as the threshold. -/
theorem Follows.record_healthy (follows : state.Follows config results) (result : Bool) :
    (state.record config result).healthy = !state.healthy ↔
      if state.healthy then streak false (results ++ [result]) = max config.unhealthyThreshold.toNat 1
      else streak true (results ++ [result]) = max config.healthyThreshold.toNat 1 := by
  have high := config.healthyThreshold.toNat_lt
  have low := config.unhealthyThreshold.toNat_lt
  obtain ⟨failures, successes, up, down⟩ := follows
  simp only [streak_concat]
  cases result with
  | true =>
    cases here : state.healthy with
    | true =>
      simp [record, here]
      omega
    | false =>
      have short := down here
      simp [record, here, saturatingAddU32_toNat, successes]
      omega
  | false =>
    cases here : state.healthy with
    | true =>
      have short := up here
      simp [record, here, saturatingAddU32_toNat, failures]
      omega
    | false =>
      simp [record, here]
      omega

theorem Follows.record (follows : state.Follows config results) (result : Bool) :
    (state.record config result).Follows config (results ++ [result]) := by
  have high := config.healthyThreshold.toNat_lt
  have low := config.unhealthyThreshold.toNat_lt
  obtain ⟨failures, successes, _, _⟩ := follows
  cases result with
  | true =>
    refine ⟨?_, ?_, fun _ => ?_, fun unhealthy => ?_⟩
    · simp [HealthState.record, streak_concat]
    · simp [HealthState.record, streak_concat, saturatingAddU32_toNat, successes]
      omega
    · simp [streak_concat]
    · simp [HealthState.record, saturatingAddU32_toNat, successes] at unhealthy
      simp only [streak_concat, if_true]
      omega
  | false =>
    refine ⟨?_, ?_, fun healthy => ?_, fun _ => ?_⟩
    · simp [HealthState.record, streak_concat, saturatingAddU32_toNat, failures]
      omega
    · simp [HealthState.record, streak_concat]
    · simp [HealthState.record, saturatingAddU32_toNat, failures] at healthy
      simp only [streak_concat, if_true]
      omega
    · simp [streak_concat]

end HealthState

section Probes

variable (configOf : String → GatewayHealthCheckConfig)

theorem recordedHealth_concat (probes : List (String × Bool)) (probe : String × Bool) (key : String) :
    recordedHealth configOf (probes ++ [probe]) key =
      if key = probe.1 then
        some (((recordedHealth configOf probes key).getD .default).record (configOf key) probe.2)
      else recordedHealth configOf probes key := by
  rw [recordedHealth, List.foldl_concat, recordHealthResult, Function.update_apply]
  split
  · rename_i same
    rw [same]
    rfl
  · rfl

/-- The state of an instance follows the results of its own probes.

Proof: by induction on the probes, the last one first. -/
theorem recordedHealth_follows (probes : List (String × Bool)) (key : String) :
    ((recordedHealth configOf probes key).getD .default).Follows (configOf key) (resultsOf key probes) := by
  induction probes using List.reverseRecOn with
  | nil => exact ⟨rfl, rfl, fun _ => lt_max_of_lt_right Nat.one_pos, nofun⟩
  | append_singleton probes probe ih =>
    rw [recordedHealth_concat, resultsOf, List.filter_append, List.map_append]
    split
    · rename_i same
      simpa [same] using (same ▸ ih).record probe.2
    · rename_i other
      simpa [resultsOf, Ne.symm other] using ih

theorem healthy_eq (states : HealthStates) (key : String) :
    states.healthy key = ((states key).getD .default).healthy := by
  cases found : states key <;> simp [HealthStates.healthy, found, HealthState.default]

/-- An instance is healthy at first. A probe of it changes that exactly if it is the failure, or for an
instance that is unhealthy the success, with which the row of them is as long as the threshold; a
threshold of zero counts as one. Probes of other instances change nothing. -/
theorem health_hysteresis (probes : List (String × Bool)) (key : String) (result : Bool) :
    (recordedHealth configOf []).healthy key = true ∧
    ((recordedHealth configOf (probes ++ [(key, result)])).healthy key =
        !(recordedHealth configOf probes).healthy key ↔
      if (recordedHealth configOf probes).healthy key then
        streak false (resultsOf key probes ++ [result]) = max (configOf key).unhealthyThreshold.toNat 1
      else
        streak true (resultsOf key probes ++ [result]) = max (configOf key).healthyThreshold.toNat 1) ∧
    ∀ other ≠ key, (recordedHealth configOf (probes ++ [(other, result)])).healthy key =
      (recordedHealth configOf probes).healthy key := by
  refine ⟨rfl, ?_, fun other differs => ?_⟩
  · have changes := (recordedHealth_follows configOf probes key).record_healthy result
    rw [healthy_eq, recordedHealth_concat, if_pos rfl, healthy_eq]
    exact changes
  · rw [healthy_eq, recordedHealth_concat, if_neg (Ne.symm differs), ← healthy_eq]

/-- Two failures make an instance unhealthy, and one success makes it healthy again. -/
theorem health_hysteresis_probed :
    let recorded := recordedHealth (fun _ => ⟨2, 1⟩)
    (recorded [("a", false), ("a", true)]).healthy "a" = true ∧
      (recorded ([("a", true), ("a", false)] ++ [("a", false)])).healthy "a" =
        !(recorded [("a", true), ("a", false)]).healthy "a" ∧
      (recorded ([("a", false), ("a", false)] ++ [("b", true)])).healthy "a" =
        (recorded [("a", false), ("a", false)]).healthy "a" := by
  intro recorded
  refine ⟨by decide +kernel, ?_, ?_⟩
  · exact (health_hysteresis (fun _ => ⟨2, 1⟩) [("a", true), ("a", false)] "a" false).2.1.mpr
      (by decide +kernel)
  · exact (health_hysteresis (fun _ => ⟨2, 1⟩) [("a", false), ("a", false)] "a" true).2.2 "b"
      (by decide)

end Probes

end Roze.Gateway
