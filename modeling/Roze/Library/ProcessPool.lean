import Mathlib
import Roze.Library.Execution

/-!
# Processes over a shared state

A process has a local state, its place in its program, and takes steps that read and
change a shared state. A pool holds any number of processes; its runs are their
interleavings.

Two laws carry an argument about one step of one process to every run of the pool.
What a process holds may be counted: when each step changes the shared state in
agreement with what the process holds before and after it, the shared state agrees
with what all processes hold together. And what the steps of one process take and
give back balances with what it still holds.
-/

namespace Roze.Library

open List

universe u v w x

/-- The local states in which a process may start, and its steps. -/
structure Process (Shared : Type u) (Local : Type v) (Action : Type w) (Output : Type x) where
  initial : Local → Bool
  step : Shared → Local → Action → Option (Shared × Local × Output)

/-- A shared state and the local states of the processes, by number. -/
structure Pool (Shared : Type u) (Local : Type v) where
  shared : Shared
  locals : List Local

inductive PoolAction (Local : Type v) (Action : Type w) where
  | spawn (start : Local)
  | act (index : Nat) (action : Action)

variable {Shared : Type u} {Local : Type v} {Action : Type w} {Output : Type x}

/-- A pool without processes. -/
def Pool.empty (shared : Shared) : Pool Shared Local := ⟨shared, []⟩

/-- A quantity of the local states, added up over the processes. -/
def Pool.total (weight : Local → Nat) (pool : Pool Shared Local) : Nat :=
  (pool.locals.map weight).sum

/-- Every process is in a local state with the property. -/
def Pool.All (property : Local → Prop) (pool : Pool Shared Local) : Prop :=
  ∀ current ∈ pool.locals, property current

/-- Every process has the property, and the shared state agrees with a quantity that the
processes hold together. -/
structure Pool.Balanced (property : Local → Prop) (agrees : Shared → Nat → Prop)
    (weight : Local → Nat) (pool : Pool Shared Local) : Prop where
  all : pool.All property
  agreed : agrees pool.shared (pool.total weight)

/-- A quantity of one process; nothing for a number that is not in use. -/
def Pool.of (weight : Local → Nat) (index : Nat) (pool : Pool Shared Local) : Nat :=
  (pool.locals[index]?).elim 0 weight

namespace Process

variable (process : Process Shared Local Action Output)

/-- Start a process, or let one take a step. -/
def pool : Machine (Pool Shared Local) (PoolAction Local Action) (Option Output) where
  step state
    | .spawn start =>
        if process.initial start then some ({ state with locals := state.locals ++ [start] }, none)
        else none
    | .act index action =>
        match state.locals[index]? with
        | none => none
        | some current => (process.step state.shared current action).map (fun taken =>
            (⟨taken.1, state.locals.set index taken.2.1⟩, some taken.2.2))

/-- The process with only those of its steps whose actions are allowed. -/
def restrict (allowed : Action → Bool) : Process Shared Local Action Output where
  initial := process.initial
  step shared current action := if allowed action then process.step shared current action else none

/-- A quantity of the results that the steps of one process had. -/
def tally (quantity : Output → Nat) (index : Nat) :
    List (PoolAction Local Action × Option Output) → Nat
  | [] => 0
  | (.act other _, some output) :: rest =>
      (if other = index then quantity output else 0) + tally quantity index rest
  | _ :: rest => tally quantity index rest

variable {process} {state next : Pool Shared Local} {action : PoolAction Local Action}
variable {output : Option Output}

/-- A step of the pool starts a process or is a step of one. -/
theorem pool_step (taken : process.pool.step state action = some (next, output)) :
    (∃ start, action = .spawn start ∧ process.initial start = true ∧ output = none ∧
        next = { state with locals := state.locals ++ [start] }) ∨
      ∃ index move current shared after result, action = .act index move ∧
        state.locals[index]? = some current ∧
        process.step state.shared current move = some (shared, after, result) ∧
        output = some result ∧ next = ⟨shared, state.locals.set index after⟩ := by
  cases action with
  | spawn start =>
    obtain ⟨allowed, built⟩ := of_guard taken
    simp_all
  | act index move =>
    simp only [pool] at taken
    split at taken
    · cases taken
    · rename_i current found
      obtain ⟨⟨shared, after, result⟩, stepped, built⟩ := Option.map_eq_some_iff.mp taken
      grind

variable {index : Nat} {current : Local}

/-- A process that goes on with a property leaves one with it in the pool. -/
theorem exists_mem_set {property : Local → Prop} {locals : List Local} {after : Local}
    (found : locals[index]? = some current) (goesOn : property current → property after)
    (some : ∃ other ∈ locals, property other) :
    ∃ other ∈ locals.set index after, property other := by
  obtain ⟨inside, place⟩ := List.getElem?_eq_some_iff.mp found
  obtain ⟨other, member, holds⟩ := some
  obtain ⟨position, bound, same⟩ := mem_iff_getElem.mp member
  by_cases own : index = position
  · subst own
    rw [place] at same
    exact ⟨after, mem_set inside after, goesOn (same ▸ holds)⟩
  · refine ⟨other, mem_iff_getElem.mpr ⟨position, by simpa using bound, ?_⟩, holds⟩
    simp_all

variable {events : List (PoolAction Local Action × Option Output)}

/-- A run whose actions are all allowed is a run of the restricted process. -/
theorem restrict_run {allowed : Action → Bool} (run : process.pool.Run state events next)
    (all : ∀ index move result, (.act index move, result) ∈ events → allowed move = true) :
    (process.restrict allowed).pool.Run state events next := by
  induction run with
  | done state => exact .done state
  | @step state middle final action output events taken rest ih =>
    have later := ih fun index move result member =>
      all index move result (mem_cons_of_mem _ member)
    refine .step ?_ later
    cases action with
    | spawn => exact taken
    | act index move =>
      have permitted := all index move output mem_cons_self
      simpa only [pool, restrict, permitted, if_true] using taken

/-- The actions of the processes are all allowed. -/
def allows (allowed : Action → Bool) (actions : List (PoolAction Local Action)) : Bool :=
  actions.all fun
    | .spawn _ => true
    | .act _ move => allowed move

theorem allowed_of_allows {allowed : Action → Bool}
    (all : allows allowed (events.map Prod.fst) = true) (index : Nat) (move : Action)
    (result : Option Output) (member : (.act index move, result) ∈ events) :
    allowed move = true := by
  have listed : PoolAction.act index move ∈ events.map Prod.fst := mem_map.mpr ⟨_, member, rfl⟩
  exact all_eq_true.mp all _ listed

/-- A smaller quantity of each result has a smaller tally. -/
theorem tally_le {lesser greater : Output → Nat} (le : ∀ output, lesser output ≤ greater output)
    (index : Nat) (events : List (PoolAction Local Action × Option Output)) :
    tally lesser index events ≤ tally greater index events := by
  induction events with
  | nil => exact le_rfl
  | cons event rest ih =>
    obtain ⟨_ | ⟨_, _⟩, _ | output⟩ := event
    · exact ih
    · exact ih
    · exact ih
    · simp only [tally]
      have first := le output
      split <;> omega

/-- Replacing a local state changes the total by the difference. -/
theorem sum_map_set (weight : Local → Nat) {locals : List Local}
    (found : locals[index]? = some current) (after : Local) :
    ((locals.set index after).map weight).sum + weight current =
      (locals.map weight).sum + weight after := by
  induction locals generalizing index with
  | nil => cases found
  | cons first rest ih =>
    cases index with
    | zero | succ => grind

/-- A property of local states that a process starts with and that its steps keep. -/
structure Invariant (process : Process Shared Local Action Output) (property : Local → Prop) :
    Prop where
  starts : ∀ start, process.initial start = true → property start
  kept : ∀ shared current move shared' after result, property current →
    process.step shared current move = some (shared', after, result) → property after

variable {property : Local → Prop}

section

variable (invariant : process.Invariant property)
include invariant

theorem Invariant.spawned {start : Local} (allowed : process.initial start = true)
    (all : state.All property) :
    Pool.All property { state with locals := state.locals ++ [start] } := by
  intro current member
  rcases mem_append.mp member with old | new
  · exact all current old
  · rw [mem_singleton.mp new]
    exact invariant.starts start allowed

variable {shared : Shared}

theorem Invariant.acted {move : Action} {old new : Local} {result : Output}
    (found : state.locals[index]? = some old)
    (stepped : process.step state.shared old move = some (shared, new, result))
    (all : state.All property) : Pool.All property ⟨shared, state.locals.set index new⟩ := by
  intro current member
  rcases mem_or_eq_of_mem_set member with before | rfl
  · exact all current before
  · exact invariant.kept _ old move shared _ result (all old (mem_of_getElem? found)) stepped

/-- An invariant of one process holds of all processes of a pool. -/
theorem Invariant.step (all : state.All property)
    (taken : process.pool.step state action = some (next, output)) : next.All property := by
  rcases pool_step taken with ⟨_, rfl, allowed, rfl, rfl⟩ |
    ⟨index, move, old, shared, new, result, rfl, found, stepped, rfl, rfl⟩
  · exact invariant.spawned allowed all
  · exact invariant.acted found stepped all

end

theorem empty_all (shared : Shared) : (Pool.empty shared : Pool Shared Local).All property := by
  intro current member
  cases member

variable {weight : Local → Nat}

/-- A step of one process changes what that process holds and nothing else. -/
theorem of_set {old : Local} {other : Nat} (found : state.locals[other]? = some old)
    (shared : Shared) (new : Local) (index : Nat) :
    Pool.of weight index ⟨shared, state.locals.set other new⟩ =
      if other = index then weight new else state.of weight index := by
  have bound : other < state.locals.length := (List.getElem?_eq_some_iff.mp found).1
  simp only [Pool.of, getElem?_set, bound, if_true]
  split <;> rfl

theorem tally_cons (quantity : Output → Nat) (index : Nat)
    (event : PoolAction Local Action × Option Output)
    (rest : List (PoolAction Local Action × Option Output)) :
    tally quantity index (event :: rest) =
      tally quantity index [event] + tally quantity index rest := by
  obtain ⟨_ | ⟨_, _⟩, _ | _⟩ := event
  · exact (Nat.zero_add _).symm
  · exact (Nat.zero_add _).symm
  · exact (Nat.zero_add _).symm
  · rfl

/-- A step of the pool is a step of the process with the number, or leaves what that one holds
alone. -/
theorem of_step (starts : ∀ start, process.initial start = true → weight start = 0)
    (taken : process.pool.step state action = some (next, output)) (index : Nat) :
    (next.of weight index = state.of weight index ∧
        ∀ quantity : Output → Nat, tally quantity index [(action, output)] = 0) ∨
      ∃ move old shared new result, old ∈ state.locals ∧
        process.step state.shared old move = some (shared, new, result) ∧
        state.of weight index = weight old ∧ next.of weight index = weight new ∧
        ∀ quantity : Output → Nat, tally quantity index [(action, output)] = quantity result := by
  rcases pool_step taken with ⟨start, rfl, allowed, rfl, rfl⟩ |
    ⟨other, move, old, shared, new, result, rfl, found, stepped, rfl, rfl⟩
  · refine .inl ⟨?_, fun _ => rfl⟩
    simp only [Pool.of, getElem?_append]
    split
    · rfl
    · rename_i beyond
      rw [getElem?_eq_none (Nat.le_of_not_lt beyond)]
      cases index - state.locals.length with
      | zero => exact starts start allowed
      | succ => rfl
  · by_cases own : other = index
    · subst own
      refine .inr ⟨move, old, shared, new, result, mem_of_getElem? found, stepped, ?_, ?_, ?_⟩
      · rw [Pool.of, found]
        rfl
      · rw [of_set found, if_pos rfl]
      · intro quantity
        simp [tally]
    · refine .inl ⟨?_, fun quantity => ?_⟩
      · rw [of_set found, if_neg own]
      · simp [tally, own]

section Accounting

variable (invariant : process.Invariant property)
    (starts : ∀ start, process.initial start = true → weight start = 0)
include invariant starts

/-- What the shared state says of a quantity that the processes hold stays true, when each
step of one process keeps it true whatever the others hold.

Proof: a step replaces one local state, and the total without that process is what the
others hold. -/
theorem run_total {agrees : Shared → Nat → Prop}
    (balanced : ∀ shared current move shared' after result others, property current →
      process.step shared current move = some (shared', after, result) →
      agrees shared (others + weight current) → agrees shared' (others + weight after))
    (initially : agrees shared 0) (run : process.pool.Run (.empty shared) events state) :
    state.Balanced property agrees weight := by
  have none : (Pool.empty shared : Pool Shared Local).Balanced property agrees weight :=
    ⟨empty_all shared, initially⟩
  refine run.invariant none ?_
  intro before action output after balance taken
  refine ⟨invariant.step balance.all taken, ?_⟩
  rcases pool_step taken with ⟨start, rfl, allowed, rfl, rfl⟩ |
    ⟨index, move, old, shared', new, result, rfl, found, stepped, rfl, rfl⟩
  · simpa [Pool.total, starts start allowed] using balance.agreed
  · have place := mem_of_getElem? found
    have member : weight old ∈ before.locals.map weight := mem_map_of_mem place
    obtain ⟨others, split⟩ := Nat.exists_eq_add_of_le' (le_sum_of_mem member)
    have changed := sum_map_set weight found new
    have same : ((before.locals.set index new).map weight).sum = others + weight new := by omega
    have agreed := balance.agreed
    rw [Pool.total] at agreed ⊢
    rw [same]
    rw [split] at agreed
    exact balanced _ old move shared' new result others (balance.all old place) stepped agreed

variable {gain : Output → Nat}

section Ledger

variable {loss : Output → Nat} (balanced : ∀ shared current move shared' after result,
  property current → process.step shared current move = some (shared', after, result) →
  weight current + gain result = weight after + loss result)
include balanced

/-- What the steps of one process take is what they give back and what it still holds. -/
theorem run_ledger (run : process.pool.Run state events next) (all : state.All property)
    (index : Nat) :
    state.of weight index + tally gain index events =
      tally loss index events + next.of weight index := by
  induction run with
  | done => simp [tally]
  | @step state next final action output events taken rest ih =>
    have later := ih (invariant.step all taken)
    rw [tally_cons gain, tally_cons loss]
    rcases of_step starts taken index with ⟨_, nothing⟩ |
      ⟨move, old, shared, new, result, member, stepped, before, after, counted⟩
    · rw [nothing, nothing]
      omega
    · have law := balanced _ old move shared new result (all old member) stepped
      rw [counted, counted]
      omega

variable (weight) in
/-- From an empty pool: what the steps of a process took it has given back or still holds. -/
theorem settled_of_empty (run : process.pool.Run (.empty shared) events next)
    (found : next.locals[index]? = some current) :
    tally gain index events = tally loss index events + weight current := by
  have paid := run_ledger invariant starts balanced run (empty_all shared) index
  simpa [Pool.of, Pool.empty, found] using paid

end Ledger

section Spending

variable (spends : ∀ shared current move shared' after result, property current →
  process.step shared current move = some (shared', after, result) →
  weight current + gain result ≤ weight after)
include spends

/-- What the steps of one process take is at most what it has used up. -/
theorem run_spent (run : process.pool.Run state events next) (all : state.All property)
    (index : Nat) :
    state.of weight index + tally gain index events ≤ next.of weight index := by
  induction run with
  | done => exact le_rfl
  | @step state next final action output events taken rest ih =>
    have later := ih (invariant.step all taken)
    rw [tally_cons gain]
    rcases of_step starts taken index with ⟨_, nothing⟩ |
      ⟨move, old, shared, new, result, member, stepped, before, after, counted⟩
    · rw [nothing]
      omega
    · have law := spends _ old move shared new result (all old member) stepped
      rw [counted]
      omega

variable (weight) in
/-- From an empty pool: the steps of a process take no more than it may spend. -/
theorem spent_le_of_empty {limit : Nat} (bound : ∀ current, weight current ≤ limit)
    (run : process.pool.Run (.empty shared) events next) (index : Nat) :
    tally gain index events ≤ limit := by
  have spent := run_spent invariant starts spends run (empty_all shared) index
  have most : next.of weight index ≤ limit := by
    rw [Pool.of]
    cases next.locals[index]? with
    | none => exact Nat.zero_le limit
    | some current => exact bound current
  omega

end Spending

end Accounting

/-- A mark that exactly the steps of one kind set, and that ends a process, stays in the pool. -/
theorem pool_marked {mark : Local → Prop} {sets : Shared → Local → Action → Prop}
    (starts : ∀ start, process.initial start = true → ¬ mark start)
    (set : ∀ shared current move shared' after result,
      process.step shared current move = some (shared', after, result) →
      (mark after ↔ sets shared current move))
    (ends : ∀ shared current move, mark current → process.step shared current move = none)
    (taken : process.pool.step state action = some (next, output)) :
    (∃ current ∈ next.locals, mark current) ↔ (∃ current ∈ state.locals, mark current) ∨
      ∃ index move current, action = .act index move ∧ state.locals[index]? = some current ∧
        sets state.shared current move := by
  rcases pool_step taken with ⟨_, rfl, allowed, rfl, rfl⟩ |
    ⟨index, move, old, shared, new, result, rfl, found, stepped, rfl, rfl⟩
  · constructor
    · simp_all
    · simp_all
  · have sets_iff := set _ old move shared new result stepped
    constructor
    · rintro ⟨current, member, marked⟩
      rcases mem_or_eq_of_mem_set member with before | rfl
      · exact .inl ⟨current, before, marked⟩
      · exact .inr ⟨index, move, old, rfl, found, sets_iff.mp marked⟩
    · rintro (⟨current, member, marked⟩ | ⟨_, _, current, same, there, setting⟩)
      · obtain ⟨place, here⟩ := mem_iff_getElem?.mp member
        have elsewhere : index ≠ place := by grind
        refine ⟨current, mem_iff_getElem?.mpr ⟨place, ?_⟩, marked⟩
        simp_all
      · cases same
        obtain rfl : old = current := Option.some.inj (found.symm.trans there)
        have inside := (List.getElem?_eq_some_iff.mp found).1
        exact ⟨new, mem_set inside new, sets_iff.mpr setting⟩

end Process

end Roze.Library
