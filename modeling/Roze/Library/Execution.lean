import Mathlib

/-!
# Finite runs of a machine with observed results

A machine takes one action at a time. An action that is not available has no
successor; an available one yields the next state and the value its caller
observes. A run records the actions with their observed values, in the order in
which they took effect, whichever party issued each of them.

The laws below carry a one-step argument to whole runs: an invariant, an
invariant that also needs a condition on every step, and the persistence of a
fact from the first state in which it holds. They name no particular system.
-/

namespace Roze.Library

open Option List

universe u v w

section Guards

variable {Result : Type u} {check : Prop} [Decidable check] {first second : Result}

/-- A result behind a check. -/
theorem of_guard (found : (if check then some first else none) = some second) :
    check ∧ first = second := by simp_all

theorem of_unless (found : (if check then none else some first) = some second) :
    ¬ check ∧ first = second := by simp_all

end Guards

/-- One available action leads to a single next state and observed value. -/
structure Machine (State : Type u) (Action : Type v) (Output : Type w) where
  step : State → Action → Option (State × Output)

namespace Machine

variable {State : Type u} {Action : Type v} {Output : Type w}
variable (machine : Machine State Action Output)

/-- A finite run from one state to another, with its actions and their observed
values in order. -/
inductive Run : State → List (Action × Output) → State → Prop
  | done (state : State) : Run state [] state
  | step {state next final : State} {action : Action} {output : Output}
      {events : List (Action × Output)}
      (taken : machine.step state action = some (next, output))
      (rest : Run next events final) : Run state ((action, output) :: events) final

/-- Every step along the given events satisfies the law. The state before the
step is the one that the earlier events lead to. -/
def Along (law : State → Action → Output → State → Prop) (start : State)
    (events : List (Action × Output)) : Prop :=
  ∀ before action output after state next, events = before ++ (action, output) :: after →
    machine.Run start before state → machine.step state action = some (next, output) →
      law state action output next

/-- Every state that a first part of the events leads to has the property. -/
def Throughout (property : State → Prop) (start : State) (events : List (Action × Output)) :
    Prop :=
  ∀ before after state, events = before ++ after → machine.Run start before state → property state

/-- From the first state in which `held` is true it stays true, and every later
event is `quiet`. All three parts of the history range over the same run. -/
def Persists (held : State → Prop) (quiet : Action → Output → Prop) (start : State)
    (events : List (Action × Output)) : Prop :=
  ∀ before middle after state final, events = before ++ middle ++ after →
    machine.Run start before state → machine.Run state middle final → held state →
      held final ∧ ∀ event ∈ middle, quiet event.1 event.2

/-- Take the given actions one after another, collecting what they observe. There
is no result when one of them is not available. -/
def exec : State → List Action → Option (State × List (Action × Output))
  | state, [] => some (state, [])
  | state, action :: rest =>
      (machine.step state action).bind (fun taken =>
        (exec taken.1 rest).map (fun result => (result.1, (action, taken.2) :: result.2)))

/-- Execute actions in order and check a law at every step. -/
def checks (law : State → Action → Output → State → Prop)
    [∀ state action output next, Decidable (law state action output next)] :
    State → List Action → Bool
  | _, [] => true
  | state, action :: rest =>
      match machine.step state action with
      | none => false
      | some (next, output) =>
          decide (law state action output next) && checks law next rest

variable {machine}

variable {next : State} {action : Action} {output : Output}

/-- An action taken twice from one state reaches one state. -/
theorem step_unique {state other : State} {value : Output}
    (taken : machine.step state action = some (next, output))
    (again : machine.step state action = some (other, value)) : next = other :=
  congrArg Prod.fst (Option.some.inj (taken.symm.trans again))

variable {start final : State} {events : List (Action × Output)}

/-- Two runs over the same events from one state reach one state. -/
theorem Run.unique {other : State} (run : machine.Run start events final)
    (again : machine.Run start events other) : final = other := by
  induction run with
  | done =>
    cases again
    rfl
  | step taken rest ih =>
    cases again with
    | step takenAgain restAgain => simp_all

/-- A run with no event stays where it is. -/
theorem run_nil_iff : machine.Run start [] final ↔ final = start := by
  constructor
  · intro run
    cases run
    rfl
  · rintro rfl
    exact .done _

/-- A nonempty run takes its first action and then the remaining run. -/
theorem run_cons_iff :
    machine.Run start ((action, output) :: events) final ↔
      ∃ next, machine.step start action = some (next, output) ∧
        machine.Run next events final := by
  constructor
  · intro run
    cases run with
    | step taken rest => exact ⟨_, taken, rest⟩
  · rintro ⟨_, taken, rest⟩
    exact .step taken rest

/-- A run over two event lists passes through a state that separates them. -/
theorem run_append_iff {first second : List (Action × Output)} :
    machine.Run start (first ++ second) final ↔
      ∃ middle, machine.Run start first middle ∧ machine.Run middle second final := by
  induction first generalizing start with
  | nil =>
    constructor
    · intro run
      exact ⟨start, .done start, run⟩
    · rintro ⟨middle, stayed, run⟩
      rw [run_nil_iff] at stayed
      exact stayed ▸ run
  | cons event rest ih =>
    obtain ⟨_, _⟩ := event
    simp only [cons_append, run_cons_iff, ih]
    constructor
    · simp_all
    · grind

/-- One available action is a run of one event. -/
theorem Run.single (taken : machine.step start action = some (next, output)) :
    machine.Run start [(action, output)] next :=
  .step taken (.done next)

variable {actions : List Action}

/-- Executing the given actions is a run. -/
theorem exec_run (executed : machine.exec start actions = some (final, events)) :
    machine.Run start events final := by
  induction actions generalizing start events with
  | nil =>
    cases executed
    exact .done _
  | cons action rest ih =>
    simp only [exec, bind_eq_some_iff, map_eq_some_iff, Prod.exists,
      Prod.mk.injEq] at executed
    obtain ⟨_, _, taken, _, _, remaining, rfl, rfl⟩ := executed
    exact .step taken (ih remaining)

/-- The events of an execution are the given actions with what they observed. -/
theorem exec_actions (executed : machine.exec start actions = some (final, events)) :
    events.map Prod.fst = actions := by
  induction actions generalizing start events with
  | nil =>
    cases executed
    rfl
  | cons action rest ih =>
    simp only [exec, bind_eq_some_iff, map_eq_some_iff, Prod.exists,
      Prod.mk.injEq] at executed
    grind

/-- An execution of which something is observed is a run of the given actions. -/
theorem exec_observed {Value : Type*} {observe : State × List (Action × Output) → Value}
    {value : Value} (evaluated : (machine.exec start actions).map observe = some value) :
    ∃ events final, machine.Run start events final ∧ events.map Prod.fst = actions ∧
      observe (final, events) = value := by
  obtain ⟨⟨final, events⟩, executed, same⟩ := map_eq_some_iff.mp evaluated
  exact ⟨events, final, exec_run executed, exec_actions executed, same⟩

/-- A condition that the given actions meet is met by the action of every event. -/
theorem exec_events (condition : Action → Prop)
    (executed : machine.exec start actions = some (final, events))
    (all : ∀ action ∈ actions, condition action) : ∀ event ∈ events, condition event.1 := by
  intro event member
  apply all
  rw [← exec_actions executed]
  exact mem_map_of_mem member

/-- One execution after another is a run, and its events are the actions of both. -/
theorem exec_twice {middle : State} {more : List Action} {before after : List (Action × Output)}
    (first : machine.exec start actions = some (middle, before))
    (second : machine.exec middle more = some (final, after)) :
    machine.Run start (before ++ after) final ∧
      ∀ event ∈ before ++ after, event.1 ∈ actions ++ more := by
  refine ⟨run_append_iff.mpr ⟨middle, exec_run first, exec_run second⟩, fun event member => ?_⟩
  rw [← exec_actions first, ← exec_actions second, ← map_append]
  exact mem_map_of_mem member

/-- A step of a machine without outputs. -/
theorem of_map_unit {result : Option State} {output : Unit}
    (taken : result.map (fun state => (state, ())) = some (next, output)) : result = some next := by
  simp_all

/-- A law along no event is vacuous. -/
theorem along_nil (law : State → Action → Output → State → Prop) (start : State) :
    machine.Along law start [] := by
  intro before action output after state next split
  simp at split

variable {law : State → Action → Output → State → Prop}

/-- A law along a nonempty history is the law of its first step and the law along
the remaining events. -/
theorem along_cons_iff (taken : machine.step start action = some (next, output)) :
    machine.Along law start ((action, output) :: events) ↔
      law start action output next ∧ machine.Along law next events := by
  constructor
  · intro along
    refine ⟨along [] action output events start next rfl (.done start) taken, ?_⟩
    intro before other value after state following split run stepped
    exact along ((action, output) :: before) other value after state following
      (by rw [split, cons_append]) (.step taken run) stepped
  · rintro ⟨first, rest⟩ before other value after state following split run stepped
    cases before with
    | nil =>
      rw [run_nil_iff] at run
      simp_all
    | cons event before =>
      obtain ⟨sameEvent, sameRest⟩ := List.cons.inj split
      subst sameEvent
      obtain ⟨second, takenAgain, reached⟩ := run_cons_iff.mp run
      have same : next = second := step_unique taken takenAgain
      exact rest before other value after state following sameRest (same ▸ reached) stepped

/-- A law that is checked at every step of an execution holds along its run. -/
theorem along_of_checks [∀ state action output next, Decidable (law state action output next)]
    (executed : machine.exec start actions = some (final, events))
    (checked : machine.checks law start actions = true) : machine.Along law start events := by
  induction actions generalizing start events with
  | nil =>
    cases executed
    exact along_nil law _
  | cons action rest ih =>
    obtain ⟨⟨_, _⟩, taken, later⟩ := bind_eq_some_iff.mp executed
    obtain ⟨⟨_, _⟩, continued, built⟩ := map_eq_some_iff.mp later
    cases built
    simp only [checks, taken, Bool.and_eq_true, decide_eq_true_eq] at checked
    exact (along_cons_iff taken).mpr ⟨checked.1, ih continued checked.2⟩

/-- A law along a whole history holds along its first part. -/
theorem Along.first {first second : List (Action × Output)}
    (along : machine.Along law start (first ++ second)) : machine.Along law start first := by
  intro before action output after state next split run stepped
  exact along before action output (after ++ second) state next
    (by simp_all) run stepped

/-- A law along a whole history holds along its second part, from the state the
first part leads to. -/
theorem Along.second {middle : State} {first second : List (Action × Output)}
    (along : machine.Along law start (first ++ second)) (reached : machine.Run start first middle) :
    machine.Along law middle second := by
  intro before action output after state next split run stepped
  exact along (first ++ before) action output after state next
    (by rw [split, append_assoc]) (run_append_iff.mpr ⟨middle, reached, run⟩) stepped

/-- A family of laws holds along a history exactly when each of them does. -/
theorem along_forall_iff {Index : Type*} {law : Index → State → Action → Output → State → Prop} :
    (∀ index, machine.Along (law index) start events) ↔
      machine.Along (fun state action output next => ∀ index, law index state action output next)
        start events := by
  constructor
  · intro along before action output after state next split run stepped index
    exact along index before action output after state next split run stepped
  · intro along index before action output after state next split run stepped
    exact along before action output after state next split run stepped index

/-- A condition on events alone holds along a history when it holds of each event. -/
theorem along_of_forall_mem {condition : Action → Output → Prop}
    (all : ∀ event ∈ events, condition event.1 event.2) :
    machine.Along (fun _ action output _ => condition action output) start events := by
  intro before action output after state next split _ _
  simp_all

variable {condition : State → Action → Output → State → Prop}

/-- An invariant kept by every step that meets a condition holds at the end of a
run all of whose steps meet it. -/
theorem Run.invariant_along {invariant : State → Prop} (run : machine.Run start events final)
    (along : machine.Along condition start events) (initial : invariant start)
    (kept : ∀ state action output next, invariant state →
      machine.step state action = some (next, output) → condition state action output next →
      invariant next) : invariant final := by
  induction run with
  | done => exact initial
  | step taken rest ih =>
    obtain ⟨met, following⟩ := (along_cons_iff taken).mp along
    grind

/-- A law of every step that takes an allowed action in an invariant state holds along the
histories of allowed actions. -/
theorem along_of_invariant (allowed : Action → Prop) (invariant : State → Prop)
    (initial : invariant start)
    (kept : ∀ state action output next, invariant state → allowed action →
      machine.step state action = some (next, output) →
      law state action output next ∧ invariant next) (all : ∀ event ∈ events, allowed event.1) :
    machine.Along law start events := by
  intro before action output after state next split run stepped
  have first : machine.Along (fun _ action _ _ => allowed action) start before := by
    apply along_of_forall_mem
    exact fun event member => all event (by simp [split, member])
  have reached : invariant state := run.invariant_along first initial
    fun state action output next holds stepped met => (kept state action output next holds met stepped).2
  exact (kept state action output next reached (all (action, output) (by simp [split])) stepped).1

/-- An invariant kept by every step holds at the end of every run. -/
theorem Run.invariant {invariant : State → Prop} (run : machine.Run start events final)
    (initial : invariant start)
    (kept : ∀ state action output next, invariant state →
      machine.step state action = some (next, output) → invariant next) : invariant final := by
  induction run with
  | done => exact initial
  | step taken rest ih =>
    exact ih (kept _ _ _ _ initial taken)

variable {property : State → Prop}

/-- A property holds throughout a history when it holds at the start and after every
step.

Proof: the last event of a first part is a step to the state that part leads to. -/
theorem throughout_iff :
    machine.Throughout property start events ↔
      property start ∧ machine.Along (fun _ _ _ next => property next) start events := by
  constructor
  · intro throughout
    refine ⟨throughout [] events start rfl (.done start), ?_⟩
    intro before action output after state next split run stepped
    exact throughout (before ++ [(action, output)]) after next
      (by simp_all)
      (run_append_iff.mpr ⟨state, run, .single stepped⟩)
  · rintro ⟨initial, along⟩ _ _ _ split run
    rw [split] at along
    exact run.invariant_along along.first initial (fun _ _ _ _ _ _ holds => holds)

/-- In the states of an invariant each step with an allowed action leads to the property exactly when
it meets a condition, and the property then brings the invariant with it. So the property holds
throughout a run of allowed actions exactly when the condition is met along it. -/
theorem Run.throughout_iff_along_of_allowed (allowed : Action → Prop) (invariant : State → Prop)
    (agree : ∀ state action output next, invariant state → allowed action →
      machine.step state action = some (next, output) →
      (property next ↔ condition state action output next))
    (kept : ∀ state action output next, invariant state → allowed action →
      machine.step state action = some (next, output) → property next → invariant next)
    (run : machine.Run start events final) (all : ∀ event ∈ events, allowed event.1)
    (initial : invariant start) (holds : property start) :
    machine.Throughout property start events ↔ machine.Along condition start events := by
  rw [throughout_iff, and_iff_right holds]
  clear holds
  induction run with
  | done state => exact iff_of_true (along_nil _ state) (along_nil _ state)
  | step taken rest ih =>
    obtain ⟨first, later⟩ := forall_mem_cons.mp all
    rw [along_cons_iff taken, along_cons_iff taken, ← agree _ _ _ _ initial first taken]
    grind

/-- A property that a step keeps exactly when it meets a condition holds throughout a run exactly
when the condition is met along it. -/
theorem Run.throughout_iff_along
    (agree : ∀ state action output next, property state →
      machine.step state action = some (next, output) →
      (property next ↔ condition state action output next)) (run : machine.Run start events final)
    (initial : property start) :
    machine.Throughout property start events ↔ machine.Along condition start events := by
  refine Run.throughout_iff_along_of_allowed (fun _ => True) property ?_ ?_ run
    (fun _ _ => trivial) initial initial
  · grind
  · simp

/-- Two laws that agree on every step from an invariant state agree along every
history from such a state. -/
theorem along_congr {first second : State → Action → Output → State → Prop}
    {invariant : State → Prop} (initial : invariant start)
    (kept : ∀ state action output next, invariant state →
      machine.step state action = some (next, output) → invariant next)
    (agree : ∀ state action output next, invariant state →
      machine.step state action = some (next, output) →
      (action, output) ∈ events →
      (first state action output next ↔ second state action output next)) :
    machine.Along first start events ↔ machine.Along second start events := by
  constructor <;> intro along before action output after state next split run stepped
  · exact (agree state action output next (run.invariant initial kept) stepped (by simp [split])).mp
      (along before action output after state next split run stepped)
  · exact (agree state action output next (run.invariant initial kept) stepped (by simp [split])).mpr
      (along before action output after state next split run stepped)

/-- Persistence is a one-step law. Each step from a state in which the fact holds
keeps it and is quiet; conversely a single step is itself a later part of the run.

Proof: a later part is consumed from its first event. The law gives the fact
after that event and its quietness, and the induction covers what follows. -/
theorem persists_iff {held : State → Prop} {quiet : Action → Output → Prop} :
    machine.Persists held quiet start events ↔
      machine.Along (fun state action output next => held state →
        held next ∧ quiet action output) start events := by
  constructor
  · intro persists before action output after state next split run stepped holds
    obtain ⟨kept, silent⟩ := persists before [(action, output)] after state next
      (by simp_all) run (.single stepped) holds
    simp_all
  · intro along before middle after state final split run later holds
    rw [split, append_assoc] at along
    have following := (along.second run).first
    clear split run along
    induction later with
    | done => exact ⟨holds, by simp⟩
    | step taken rest ih =>
      obtain ⟨stepLaw, restLaw⟩ := (along_cons_iff taken).mp following
      obtain ⟨kept, silent⟩ := stepLaw holds
      simp_all

/-- A mark that exactly the steps of one kind set, and that no step takes away, shows whether
such a step was taken. -/
theorem Run.marked_iff {mark : State → Prop} {sets : State → Action → Prop}
    (set : ∀ state action output next, machine.step state action = some (next, output) →
      (mark next ↔ mark state ∨ sets state action)) (run : machine.Run start events final)
    (unmarked : ¬ mark start) :
    ¬ mark final ↔ machine.Along (fun state action _ _ => ¬ sets state action) start events := by
  induction run with
  | done state => exact iff_of_true unmarked (along_nil _ state)
  | @step state next final action output events taken rest ih =>
    have first := set state action output next taken
    rw [along_cons_iff taken]
    by_cases here : sets state action
    · refine iff_of_false (not_not.mpr ?_) fun ⟨avoided, _⟩ => avoided here
      have marked : mark next := first.mpr (.inr here)
      exact rest.invariant marked fun state action output next held taken =>
        (set state action output next taken).mpr (.inl held)
    · simp_all

/-- A machine whose states carry more, and that takes the steps of another one when the
rest is forgotten, has the runs of that machine. -/
theorem run_forget_iff {Detailed : Type*} {detailed : Machine Detailed Action Output}
    {forget : Detailed → State}
    (same : ∀ state action, machine.step (forget state) action =
      (detailed.step state action).map fun taken => (forget taken.1, taken.2)) {start : Detailed} :
    machine.Run (forget start) events final ↔
      ∃ reached, detailed.Run start events reached ∧ forget reached = final := by
  induction events generalizing start with
  | nil =>
    simp only [run_nil_iff]
    grind
  | cons event rest ih =>
    obtain ⟨_, output⟩ := event
    simp only [run_cons_iff, same, map_eq_some_iff, Prod.exists, Prod.mk.injEq]
    constructor
    · simp_all
    · grind

end Machine

/-! ## Systems that answer every input -/

/-- The inputs one after another, each with its answer. -/
def answers {State : Type u} {Input : Type v} {Output : Type w}
    (respond : State → Input → State × Output) : State → List Input → List (Input × Output)
  | _, [] => []
  | state, input :: rest =>
      (input, (respond state input).2) :: answers respond (respond state input).1 rest

/-- Two systems whose states stay related and that answer alike have one history. -/
theorem answers_eq_of_related {State : Type u} {Other : Type*} {Input : Type v} {Output : Type w}
    {respond : State → Input → State × Output} {respond' : Other → Input → Other × Output}
    {related : State → Other → Prop} {allowed : Input → Prop}
    (kept : ∀ state other input, allowed input → related state other →
      related (respond state input).1 (respond' other input).1 ∧
        (respond state input).2 = (respond' other input).2)
    {state : State} {other : Other} (initial : related state other) {inputs : List Input}
    (all : ∀ input ∈ inputs, allowed input) :
    answers respond state inputs = answers respond' other inputs := by
  induction inputs generalizing state other with
  | nil => rfl
  | cons input rest ih =>
    obtain ⟨next, same⟩ := kept state other input (all input mem_cons_self) initial
    have later := ih next
      (fun input member => all input (mem_cons_of_mem _ member))
    simp only [answers, same, later]

/-! ## Computations that may fail -/

section Failing

variable {Failure : Type u} {First Second : Type v} {first : Except Failure First}
variable {second : First → Except Failure Second} {result : Second}

/-- A sequence succeeds when both parts do. -/
theorem bind_eq_ok_iff :
    first >>= second = .ok result ↔ ∃ value, first = .ok value ∧ second value = .ok result := by
  cases first with
  | error | ok => simp [bind, Except.bind]

theorem bind_ok (bound : first >>= second = .ok result) :
    ∃ value, first = .ok value ∧ second value = .ok result :=
  bind_eq_ok_iff.mp bound

theorem map_ok {change : First → Second} (mapped : first.map change = .ok result) :
    ∃ value, first = .ok value ∧ change value = result := by
  cases first with
  | error => cases mapped
  | ok value => exact ⟨value, rfl, Except.ok.inj mapped⟩

end Failing

end Roze.Library
