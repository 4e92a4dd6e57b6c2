import Roze.Admission.Guard
import Roze.Context.Propagation
import Roze.Library.Execution

/-!
# Deadlines along a chain of hops

A request that enters a route, a method or the gateway gets the deadline of its own policy. The
gateway combines it with the deadline that the request already had; a route and a method put
the one in place of the other. The gateway reads the clock twice, for what remains and for the
new deadline, and adds the time between the two readings.
-/

namespace Roze.Deadline

open Roze.Admission
open Roze.Library

/-- The context that `begin_route` and `begin_method` return. -/
def beginContext (timeout : Option Duration) (context : Context) (now : Instant) : Option Context :=
  match timeout with
  | some timeout => context.withTimeout timeout now
  | none => some context

/-- The timeouts that apply to a route of the gateway. -/
structure GatewayTimeouts where
  route : Option Duration
  serviceMs : Option UInt64
  all : Option Duration

def GatewayTimeouts.default : Duration where
  nanos := 5 * 10 ^ 9
  representable := by decide

def GatewayTimeouts.effective (timeouts : GatewayTimeouts) : Duration :=
  ((timeouts.route.or (timeouts.serviceMs.map .fromMillis)).or timeouts.all).getD default

/-- What remains is read first, and the clock is read again for the new deadline. -/
def gatewayContext (context : Context) (timeout : Duration) (read now : Instant) : Option Context :=
  match context.deadline, context.remainingTimeout read with
  | some _, none => some context
  | some _, some remaining => context.withTimeout (min remaining timeout) now
  | none, _ => context.withTimeout timeout now

/-- One boundary that a request enters, with the readings of the clock there. -/
inductive Hop where
  | route (governance : Option Config.GovernanceConfig) (path : String) (now : Instant)
  | method (governance : Option Config.GovernanceConfig) (name : String) (now : Instant)
  | gateway (timeouts : GatewayTimeouts) (read now : Instant) (ordered : read ≤ now)

namespace Hop

/-- The timeout of the policy. -/
def timeout : Hop → Option Duration
  | .route governance path _ => (routePolicy governance path).timeout
  | .method governance name _ => (methodPolicy governance name).timeout
  | .gateway timeouts _ _ _ => some timeouts.effective

/-- The reading that a new deadline is counted from. -/
def now : Hop → Instant
  | .route _ _ now => now
  | .method _ _ now => now
  | .gateway _ _ now _ => now

/-- The context that the boundary returns, unless the clock cannot show its deadline. -/
def enter (context : Context) : Hop → Option Context
  | .route governance path now => beginContext (routePolicy governance path).timeout context now
  | .method governance name now => beginContext (methodPolicy governance name).timeout context now
  | .gateway timeouts read now _ => gatewayContext context timeouts.effective read now

end Hop

/-- A request that passes boundaries one after another. -/
def hops : Machine Context Hop Unit where
  step context hop := (hop.enter context).map (fun after => (after, ()))

/-- The deadline of a context is there and not later than a bound in nanoseconds. -/
def Within (bound : Nat) (context : Context) : Prop :=
  ∃ deadline, context.deadline = some deadline ∧ deadline.nanos ≤ bound

/-- The hop keeps to the deadline that was there and to the timeout of its policy. -/
structure Tightens (before : Context) (hop : Hop) (after : Context) : Prop where
  inbound : ∀ deadline, before.deadline = some deadline → Within deadline.nanos after
  policy : ∀ timeout, hop.timeout = some timeout → Within (hop.now.nanos + timeout.nanos) after

/-- The timeout of the policy ends before the deadline that was there. The gateway also keeps
to a deadline that has passed, or when its clock stands still. -/
def Respects (before : Context) (hop : Hop) : Prop :=
  ∀ deadline timeout, before.deadline = some deadline → hop.timeout = some timeout →
    hop.now.nanos + timeout.nanos ≤ deadline.nanos ∨
      ∃ timeouts read now ordered, hop = .gateway timeouts read now ordered ∧
        (deadline < read ∨ read = now)

/-! ## One hop -/

section Steps

variable {before after : Context}

theorem deadline_withTimeout {timeout : Duration} {now : Instant}
    (entered : before.withTimeout timeout now = some after) :
    ∃ deadline, after.deadline = some deadline ∧ deadline.nanos = now.nanos + timeout.nanos := by
  obtain ⟨deadline, added, rfl⟩ := Option.map_eq_some_iff.mp entered
  exact ⟨deadline, rfl, Instant.nanos_checkedAdd added⟩

/-- A deadline that was set to a reading is within a bound exactly if the reading is. -/
theorem within_iff {reading bound : Nat}
    (set : ∃ deadline, after.deadline = some deadline ∧ deadline.nanos = reading) :
    Within bound after ↔ reading ≤ bound := by
  obtain ⟨deadline, found, rfl⟩ := set
  constructor
  · rintro ⟨_, same, below⟩
    simp_all
  · intro below
    exact ⟨deadline, found, below⟩

/-- A route or a method tightens exactly if its timeout ends in time. -/
theorem begin_tightens_iff {hop : Hop} {now : Instant} (reading : hop.now = now)
    (plain : ∀ timeouts read now ordered, hop ≠ .gateway timeouts read now ordered)
    (entered : beginContext hop.timeout before now = some after) :
    Tightens before hop after ↔ Respects before hop := by
  cases timed : hop.timeout with
  | none =>
    rw [timed] at entered
    cases entered
    refine iff_of_true ⟨fun deadline found => ⟨deadline, found, le_rfl⟩, ?_⟩ ?_
    · simp_all
    · intro deadline timeout _ same
      simp_all
  | some timeout =>
    rw [timed] at entered
    have set := deadline_withTimeout entered
    constructor
    · intro tightens deadline other found same
      rw [timed] at same
      cases same
      rw [reading]
      exact .inl ((within_iff set).mp (tightens.inbound deadline found))
    · intro respects
      refine ⟨?_, ?_⟩
      · intro deadline found
        rcases respects deadline timeout found timed with ends | ⟨_, _, _, _, same, -⟩
        · rw [reading] at ends
          exact (within_iff set).mpr ends
        · exact absurd same (plain _ _ _ _)
      · intro other same
        rw [timed] at same
        cases same
        rw [reading]
        exact (within_iff set).mpr le_rfl

theorem gateway_tightens_iff {timeouts : GatewayTimeouts} {read now : Instant} {ordered : read ≤ now}
    (entered : gatewayContext before timeouts.effective read now = some after) :
    Tightens before (.gateway timeouts read now ordered) after ↔
      Respects before (.gateway timeouts read now ordered) := by
  unfold gatewayContext at entered
  have readings : read.nanos ≤ now.nanos := ordered
  cases present : before.deadline with
  | none =>
    simp only [present] at entered
    refine iff_of_true ⟨?_, ?_⟩ ?_
    · simp_all
    · rintro timeout ⟨⟩
      exact (within_iff (deadline_withTimeout entered)).mpr le_rfl
    · intro deadline timeout found _
      simp_all
  | some deadline =>
    cases left : before.remainingTimeout read with
    | none =>
      -- the deadline has passed, and the context stays as it is
      simp only [present, left] at entered
      cases entered
      rw [Context.remainingTimeout, present] at left
      have passed : deadline < read := Instant.checkedDurationSince_eq_none_iff.mp left
      have before : deadline.nanos < read.nanos := passed
      refine iff_of_true ⟨?_, ?_⟩ ?_
      · intro other found
        exact ⟨other, found, le_rfl⟩
      · rintro timeout ⟨⟩
        refine ⟨deadline, present, ?_⟩
        simp only [Hop.now]
        omega
      · intro other timeout found _
        simp_all
    | some remaining =>
      simp only [present, left] at entered
      rw [Context.remainingTimeout, present] at left
      have sum : read.nanos + remaining.nanos = deadline.nanos :=
        Instant.checkedDurationSince_eq_some_iff.mp left
      have set := deadline_withTimeout entered
      rw [Duration.nanos_min] at set
      constructor
      · intro tightens other timeout found same
        rw [present] at found
        cases found
        cases same
        have bounded := (within_iff set).mp (tightens.inbound deadline present)
        by_cases still : read.nanos = now.nanos
        · exact .inr ⟨timeouts, read, now, ordered, rfl, .inr (Instant.eq_of_nanos still)⟩
        · left
          simp only [Hop.now]
          omega
      · intro respects
        refine ⟨?_, ?_⟩
        · intro other found
          rw [present] at found
          cases found
          rw [within_iff set]
          rcases respects deadline _ present rfl with ends | ⟨_, _, _, _, same, passed | still⟩
          · simp only [Hop.now] at ends
            omega
          · cases same
            have before : deadline.nanos < read.nanos := passed
            omega
          · grind
        · rintro _ ⟨⟩
          rw [within_iff set]
          simp only [Hop.now]
          omega

end Steps

/-- Every hop of a chain keeps to the deadline that was there and to the timeout of its policy,
if and only if every hop meets the condition; a chain of such hops never yields a deadline later
than the first. -/
theorem deadline_tightened_iff {first final : Context} {events : List (Hop × Unit)}
    (run : hops.Run first events final) :
    (hops.Along (fun before hop _ after => Tightens before hop after) first events ↔
      hops.Along (fun before hop _ _ => Respects before hop) first events) ∧
    (hops.Along (fun before hop _ _ => Respects before hop) first events →
      ∀ deadline, first.deadline = some deadline → Within deadline.nanos final) := by
  have agree : hops.Along (fun before hop _ after => Tightens before hop after) first events ↔
      hops.Along (fun before hop _ _ => Respects before hop) first events := by
    have anywhere : (fun _ : Context => True) first := trivial
    refine Machine.along_congr anywhere (fun _ _ _ _ _ _ => trivial) ?_
    intro before hop output after _ taken _
    obtain ⟨_, found, same⟩ := Option.map_eq_some_iff.mp taken
    cases same
    cases hop with
    | route | method => exact begin_tightens_iff rfl (by simp) found
    | gateway => exact gateway_tightens_iff found
  refine ⟨agree, ?_⟩
  intro respects deadline found
  have initially : Within deadline.nanos first := ⟨deadline, found, le_rfl⟩
  refine run.invariant_along (agree.mpr respects) initially ?_
  rintro _ _ _ _ ⟨earlier, present, below⟩ _ tightens
  obtain ⟨later, kept, bounded⟩ := tightens.inbound earlier present
  exact ⟨later, kept, bounded.trans below⟩

/-! ### A deadline that is put off -/

namespace PutOff

/-- A timeout for all operations. -/
def governance (timeoutMs : UInt64) : Config.GovernanceConfig where
  timeoutMs := some timeoutMs
  retry := none
  rateLimit := none
  breaker := none
  shedding := none
  routes _ := none

/-- A request that is due at a reading. -/
def due (deadline : Instant) : Context :=
  { Context.backgroundWithRequestIdAndTraceId "request-1" "trace-1" with deadline := some deadline }

/-- One second is left. -/
def inbound : Context := due (.ofNanos (10 ^ 9))

def gateway (read now : Instant) (ordered : read ≤ now) : Hop :=
  .gateway ⟨none, none, none⟩ read now ordered

end PutOff

open PutOff in
/-- With one second left, a route and a method with a timeout of thirty seconds put the deadline
off to thirty seconds; the gateway puts it off by the nanosecond between its two readings. -/
theorem deadline_put_off :
    ((Hop.route (some (governance 30000)) "/users" .zero).enter inbound).map Context.deadline =
      some (some (.ofNanos (30 * 10 ^ 9))) ∧
    ((Hop.method (some (governance 30000)) "GetUser" .zero).enter inbound).map Context.deadline =
      some (some (.ofNanos (30 * 10 ^ 9))) ∧
    ((gateway .zero (.ofNanos 1) (by decide)).enter inbound).map Context.deadline =
      some (some (.ofNanos (10 ^ 9 + 1))) := by
  decide

open PutOff in
/-- A gateway whose clock stands still and a route with half a second keep to the deadline. -/
theorem deadline_tightened_iff_short_timeout :
    ∃ events final, hops.Run inbound events final ∧
      events.map Prod.fst =
        [gateway .zero .zero (by decide), .route (some (governance 500)) "/users" .zero] ∧
      hops.Along (fun before hop _ _ => Respects before hop) inbound events ∧
      Within (10 ^ 9) final := by
  have first : hops.step inbound (gateway .zero .zero (by decide)) = some (inbound, ()) := rfl
  have second : hops.step inbound (.route (some (governance 500)) "/users" .zero) =
      some (due (.ofNanos (5 * 10 ^ 8)), ()) := rfl
  have run := Machine.Run.step first (.step second (.done _))
  have respects : hops.Along (fun before hop _ _ => Respects before hop) inbound
      [(gateway .zero .zero (by decide), ()), (.route (some (governance 500)) "/users" .zero, ())] := by
    refine (Machine.along_cons_iff first).mpr ⟨?_, (Machine.along_cons_iff second).mpr
      ⟨?_, Machine.along_nil _ _⟩⟩
    · rintro deadline timeout ⟨⟩ ⟨⟩
      exact .inr ⟨_, _, _, _, rfl, .inr rfl⟩
    · rintro _ _ ⟨⟩ ⟨⟩
      exact .inl (by decide)
  exact ⟨_, _, run, rfl, respects, (deadline_tightened_iff run).2 respects _ rfl⟩

end Roze.Deadline
