import Roze.Resilience.Breaker

/-!
# Outcomes recorded after the breaker left the closed phase

A slow request may outlive the closed period it was admitted in. Its permit says
only that the breaker was closed then, and the recording calls compare that with the
phase they find. An outcome that arrives while the breaker is open or half open is
dropped. After a probe has closed the breaker again, the same permit matches, and the
outcome counts as one of the new period.
-/

namespace Roze.Resilience

open Roze.Library List

/-- The resolution records an outcome; cancelling does not. -/
def Resolution.recordsOutcome : Resolution → Bool
  | .success => true
  | .failure _ _ => true
  | .cancelled _ _ => false

/-- The breaker is not closed, or the outcome is a success and no failure is counted. -/
def BreakerState.Ignores (state : BreakerState) : Resolution → Prop
  | .success => state.phase ≠ .closed ∨ state.failures = 0
  | .failure _ _ => state.phase ≠ .closed
  | .cancelled _ _ => True

/-- The outcome of a closed permit leaves a breaker alone exactly when it is ignored: in
the closed phase a failure opens or is counted, and a success resets the count. -/
theorem BreakerState.resolve_closed_eq_iff (state : BreakerState) {resolution : Resolution}
    (outcome : resolution.recordsOutcome = true) :
    (state.resolve .closed resolution).1 = state ↔ state.Ignores resolution := by
  obtain ⟨failures, phase, _⟩ := state
  cases resolution with
  | success =>
    cases phase with
    | closed => simp [resolve, recordSuccess, Ignores, eq_comm]
    | opened | halfOpen => simp [resolve, recordSuccess, Ignores]
  | failure config =>
    cases phase with
    | opened | halfOpen => simp [resolve, recordFailure, Ignores]
    | closed =>
      simp only [Ignores, ne_eq, not_true, iff_false]
      intro unchanged
      by_cases reached : max config.failureThreshold 1 ≤ saturatingAddU32 failures 1
      · simp only [resolve, recordFailure, if_pos reached, openBreaker_fst] at unchanged
        simp_all
      · simp only [resolve, recordFailure, if_neg reached] at unchanged
        -- a count that does not reach a positive threshold was raised
        have same : saturatingAddU32 failures 1 = failures := congrArg BreakerState.failures unchanged
        have count := saturatingAddU32_toNat failures 1
        have bound : (max config.failureThreshold 1).toNat < 2 ^ 32 := UInt32.toNat_lt _
        rw [same, UInt32.le_iff_toNat_le] at reached
        grind
  | cancelled => cases outcome

namespace BreakerSystem

variable {system next : BreakerSystem} {action : BreakerAction} {output : BreakerOutput}
variable {key : String} {ticket : Nat}

/-- The ticket is a closed permit of the key that was issued before the breaker last left
the closed phase: some state since then is in another phase. The ticket was not issued
again since. -/
def Stale (key : String) (ticket : Nat) (events : List (BreakerAction × BreakerOutput)) : Prop :=
  ∃ before now between after middle,
    events = before ++ (.allow ticket key now, .decided (.allow .closed)) :: (between ++ after) ∧
    breakers.Run idle
      (before ++ (.allow ticket key now, .decided (.allow .closed)) :: between) middle ∧
    (middle.breaker key).phase ≠ .closed ∧
    ∀ event ∈ between ++ after, ∀ other later, event.1 ≠ .allow ticket other later

/-- A stale ticket stays stale until it is issued again. -/
theorem Stale.append {events later : List (BreakerAction × BreakerOutput)}
    (stale : Stale key ticket events)
    (kept : ∀ event ∈ later, ∀ other now, event.1 ≠ .allow ticket other now) :
    Stale key ticket (events ++ later) := by
  obtain ⟨before, now, between, after, middle, rfl, run, left, once⟩ := stale
  refine ⟨before, now, between, after ++ later, middle, by simp, run, left, ?_⟩
  grind

/-- The ticket, if it is out, is a closed permit of the key. -/
def ClosedTicket (key : String) (ticket : Nat) (system : BreakerSystem) : Prop :=
  ∀ issued ∈ system.outstanding, issued.id = ticket → issued.key = key ∧ issued.permit = .closed

/-- Issuing a ticket as a closed permit: no other ticket that is out has its number. -/
theorem closedTicket_issued {now : Instant}
    (taken : breakers.step system (.allow ticket key now) =
      some (next, .decided (.allow .closed))) : ClosedTicket key ticket next := by
  simp only [breakers, step] at taken
  split at taken
  · cases taken
  · rename_i fresh
    obtain ⟨same, decided⟩ := Prod.mk.inj (Option.some.inj taken)
    have decision := BreakerOutput.decided.inj decided
    rw [decision] at same
    subst same
    intro issued member named
    grind

/-- Nothing but issuing the ticket again changes what it is. -/
theorem closedTicket_step (held : ClosedTicket key ticket system)
    (taken : breakers.step system action = some (next, output))
    (kept : ∀ other later, action ≠ .allow ticket other later) : ClosedTicket key ticket next := by
  cases action with
  | allow number wanted now =>
    have different : number ≠ ticket := fun same => kept wanted now (same ▸ rfl)
    obtain ⟨_, built⟩ := of_unless taken
    cases built
    cases (system.registry.allow wanted now).2 with
    | reject => exact held
    | allow =>
      intro issued member named
      rcases mem_cons.mp member with rfl | member
      · exact absurd named different
      · exact held issued member named
  | resolve =>
    simp only [breakers, step] at taken
    split at taken
    · cases taken
    · cases taken
      intro issued member
      exact held issued (mem_of_mem_erase member)

/-- The outcome of a stale permit never closes the breaker, and it leaves the breaker's
state alone exactly when the breaker is not closed as it arrives, or when it is a success
and no failure is counted.

Proof: the ticket is still a closed permit of the key, so the outcome acts in the closed
phase only, and there it is the outcome of a permit of the current period. -/
theorem stale_outcome_iff {events : List (BreakerAction × BreakerOutput)} {resolution : Resolution}
    (run : breakers.Run idle events system) (stale : Stale key ticket events)
    (taken : breakers.step system (.resolve ticket resolution) = some (next, output))
    (outcome : resolution.recordsOutcome = true) :
    (next.breaker key = system.breaker key ↔ (system.breaker key).Ignores resolution) ∧
      ((next.breaker key).phase = .closed → (system.breaker key).phase = .closed) := by
  obtain ⟨issued, out, after⟩ := step_resolve taken
  have named : issued.id = ticket := by simpa using find?_some out
  obtain ⟨rfl, permit⟩ : issued.key = key ∧ issued.permit = .closed := by
    obtain ⟨_, _, _, _, _, rfl, _, _, once⟩ := stale
    obtain ⟨_, _, following⟩ := Machine.run_append_iff.mp run
    obtain ⟨_, first, later⟩ := Machine.run_cons_iff.mp following
    have held := later.invariant_along (Machine.along_of_forall_mem once) (closedTicket_issued first)
      (fun _ _ _ _ held stepped kept => closedTicket_step held stepped kept)
    exact held issued (mem_of_find?_eq_some out) named
  rw [permit] at after
  have unchanged := (system.breaker issued.key).resolve_closed_eq_iff outcome
  rw [after]
  refine ⟨unchanged, fun closed => ?_⟩
  by_contra left
  have ignored : (system.breaker issued.key).Ignores resolution := by
    cases resolution with
    | success => exact .inl left
    | failure => exact left
    | cancelled => trivial
  rw [unchanged.mpr ignored] at closed
  exact left closed

/-- Two requests are admitted and the second fails, which opens the breaker. -/
def tripped : List (BreakerAction × BreakerOutput) :=
  [(.allow 0 "svc:GetUser" .zero, .decided (.allow .closed)),
    (.allow 1 "svc:GetUser" .zero, .decided (.allow .closed)),
    (.resolve 1 (.failure ⟨1, ⟨1, by decide⟩⟩ .zero), .completed .returned)]

/-- A probe is admitted and succeeds, which closes the breaker again. -/
def recovery : List (BreakerAction × BreakerOutput) :=
  [(.allow 2 "svc:GetUser" ⟨1, by decide⟩, .decided (.allow .probe)),
    (.resolve 2 .success, .completed .returned)]

/-- The first request is still out, and its permit is stale. -/
theorem tripped_stale : Stale "svc:GetUser" 0 tripped := by
  refine ⟨[], .zero, tripped.tail, [], _, rfl,
    .step rfl (.step rfl (.step rfl (.done _))), by decide, ?_⟩
  intro event member other later
  simp only [tripped, tail_cons, append_nil, mem_cons, not_mem_nil,
    or_false] at member
  rcases member with rfl | rfl <;> simp

/-- Its success leaves the open breaker alone. -/
theorem stale_outcome_iff_tripped : ∃ system next output,
    breakers.Run idle tripped system ∧
      breakers.step system (.resolve 0 .success) = some (next, output) ∧
      next.breaker "svc:GetUser" = system.breaker "svc:GetUser" := by
  obtain ⟨system, run, phase, next, output, taken⟩ : ∃ system,
      breakers.Run idle tripped system ∧ (system.breaker "svc:GetUser").phase = .opened ∧
        ∃ next output, breakers.step system (.resolve 0 .success) = some (next, output) :=
    ⟨_, .step rfl (.step rfl (.step rfl (.done _))), rfl, _, _, rfl⟩
  have unchanged := (stale_outcome_iff run tripped_stale taken rfl).1
  exact ⟨system, next, output, run, taken, unchanged.mpr (.inl (by simp [phase]))⟩

/-- After the recovery its failure opens the breaker of the new period. -/
theorem stale_failure_opens : ¬ ∀ (key : String) (ticket : Nat) (resolution : Resolution)
    (events : List (BreakerAction × BreakerOutput)) (system next : BreakerSystem)
    (output : BreakerOutput), breakers.Run idle events system → Stale key ticket events →
      breakers.step system (.resolve ticket resolution) = some (next, output) →
      resolution.recordsOutcome = true → next.breaker key = system.breaker key := by
  intro isolated
  obtain ⟨system, run, closed, next, output, taken, opened⟩ : ∃ system,
      breakers.Run idle (tripped ++ recovery) system ∧
        (system.breaker "svc:GetUser").phase = .closed ∧
        ∃ next output, breakers.step system
            (.resolve 0 (.failure ⟨1, ⟨1, by decide⟩⟩ ⟨1, by decide⟩)) = some (next, output) ∧
          (next.breaker "svc:GetUser").phase = .opened :=
    ⟨_, .step rfl (.step rfl (.step rfl (.step rfl (.step rfl (.done _))))), rfl, _, _, rfl, rfl⟩
  have stale : Stale "svc:GetUser" 0 (tripped ++ recovery) := by
    apply tripped_stale.append
    intro event member other later
    simp only [recovery, mem_cons, not_mem_nil, or_false] at member
    rcases member with rfl | rfl <;> simp
  have same := isolated _ _ _ _ _ _ _ run stale taken rfl
  rw [same, closed] at opened
  cases opened

end BreakerSystem

end Roze.Resilience
