import Roze.Context.RetryBudget
import Roze.Library.Execution
import Roze.Library.Text

/-!
# Delegated retry budgets

One logical request starts with a budget and spreads over clones, forks and children in other
services. `delegate_retry_budget` reads what a context has, takes up to half of that and gives
it to a child context; `reconcile_delegated_retry_budget` puts back what the answer reports,
but not more than was given. Reading, taking, opening the child and putting back are separate
atomic steps that interleave with those of all other contexts.

An answer ends nothing: a clone or a fork that the child kept can spend the credits that the answer
has given back. The budget is kept in every run in which the contexts of a child are out of use, and
have what it reported left, before its answer is reconciled.
-/

namespace Roze.Rpc

open RetryBudgets

open Roze.Library Option

/-- How far a delegation has come. -/
inductive DelegationStage where
  | read (available : Nat)
  | taken (allocated : Nat)
  | sent (allocated child : Nat)
  | answered (allocated child : Nat) (metadata : Option String)
  | over (allocated : Nat) (metadata : Option String)
  | reconciled
deriving DecidableEq, Repr

open DelegationStage

/-- A delegation from a context. -/
structure Delegation where
  context : Nat
  stage : DelegationStage
deriving DecidableEq, Repr

/-- The number in the metadata of an answer; a number that is missing or unreadable is zero. -/
def reported (metadata : Option String) : Nat :=
  (metadata.bind (parseUnsigned (2 ^ 64))).getD 0

def returned (allocated : Nat) (metadata : Option String) : Nat :=
  min (reported metadata) allocated

/-- The credits on their way to a child or back from it. As long as contexts of a child are in use,
what it was given is in them or consumed, whether or not it has answered. -/
def DelegationStage.inTransit : DelegationStage → Nat
  | .taken allocated => allocated
  | .over allocated metadata => returned allocated metadata
  | .read _ | .sent _ _ | .answered _ _ _ | .reconciled => 0

/-- A logical request with all its contexts and delegations, and the retries so far. -/
structure LogicalRequest where
  budgets : RetryBudgets
  delegations : List Delegation
  consumed : Nat
deriving DecidableEq, Repr

inductive BudgetAction where
  | fork (context : Nat)
  | tryConsume (context : Nat)
  | readAvailable (context : Nat)
  | takeHalf (delegation : Nat)
  | openChild (delegation : Nat)
  | lose (delegation : Nat)
  | answer (delegation : Nat) (metadata : Option String)
  | retire (delegation : Nat)
  | reconcile (delegation context : Nat)
deriving DecidableEq, Repr

inductive BudgetOutput where
  | done
  | consumed (granted : Bool)
  | returned (amount : Nat)
deriving DecidableEq, Repr

namespace LogicalRequest

/-- A request with an explicit budget. -/
def start (budget : Nat) : LogicalRequest :=
  ⟨RetryBudgets.empty.withRetryBudget budget, [], 0⟩

/-- Move a delegation on. -/
def advance (request : LogicalRequest) (number : Nat) (delegation : Delegation)
    (budgets : RetryBudgets) (stage : DelegationStage) : LogicalRequest :=
  { request with
    budgets := budgets
    delegations := request.delegations.set number { delegation with stage := stage } }

/-- Put back what the answer reports. -/
def putBack (request : LogicalRequest) (number : Nat) (delegation : Delegation) (allocated : Nat)
    (metadata : Option String) (context : Nat) : Option (LogicalRequest × BudgetOutput) :=
  (request.budgets.inUse context).map (fun _ =>
    let amount := returned allocated metadata
    (request.advance number delegation (request.budgets.restoreRetryBudget context amount)
      .reconciled, .returned amount))

/-- The steps of a delegation. The context that delegates, the child and the context that is
paid back must still be in use. A child is retired when the last of its contexts goes out of use; one
whose answer is lost may run on. -/
def delegate (request : LogicalRequest) (number : Nat) (delegation : Delegation) :
    DelegationStage → BudgetAction → Option (LogicalRequest × BudgetOutput)
  | .read available, .takeHalf _ =>
      (request.budgets.inUse delegation.context).map (fun _ =>
        let taken := request.budgets.takeRetryBudgetUpTo delegation.context (available / 2)
        (request.advance number delegation taken.1 (.taken taken.2), .done))
  | .taken allocated, .openChild _ =>
      (request.budgets.inUse delegation.context).map (fun _ =>
        (request.advance number delegation (request.budgets.withRetryBudget allocated)
          (.sent allocated request.budgets.handles.length), .done))
  | .sent allocated _, .lose _ =>
      some (request.advance number delegation request.budgets (.over allocated none), .done)
  | .sent allocated child, .answer _ metadata =>
      (request.budgets.inUse child).map (fun _ =>
        (request.advance number delegation request.budgets (.answered allocated child metadata), .done))
  | .answered allocated child metadata, .retire _ =>
      (request.budgets.inUse child).map (fun used =>
        (request.advance number delegation (request.budgets.release used.1) (.over allocated metadata),
          .done))
  | .answered allocated _ metadata, .reconcile _ context =>
      request.putBack number delegation allocated metadata context
  | .over allocated metadata, .reconcile _ context =>
      request.putBack number delegation allocated metadata context
  | _, _ => none

end LogicalRequest

/-- The delegation that an action moves on. -/
def BudgetAction.delegation : BudgetAction → Option Nat
  | .takeHalf delegation | .openChild delegation | .lose delegation
  | .answer delegation _ | .retire delegation | .reconcile delegation _ => some delegation
  | .fork _ | .tryConsume _ | .readAvailable _ => none

/-- One atomic step of one context of the request. -/
def budgetSteps : Machine LogicalRequest BudgetAction BudgetOutput where
  step request
    | .fork context =>
        (request.budgets.inUse context).map (fun _ =>
          ({ request with budgets := request.budgets.fork context }, .done))
    | .tryConsume context =>
        (request.budgets.inUse context).map (fun _ =>
          let tried := request.budgets.tryConsumeRetryBudget context
          ({ request with
              budgets := tried.1
              consumed := request.consumed + if tried.2 then 1 else 0 }, .consumed tried.2))
    | .readAvailable context =>
        (request.budgets.inUse context).map (fun _ =>
          ({ request with
              delegations := request.delegations ++
                [⟨context, .read ((request.budgets.retryBudgetRemaining context).getD 0)⟩] }, .done))
    | action =>
        action.delegation.bind (fun number => request.delegations[number]?.bind (fun delegation =>
          request.delegate number delegation delegation.stage action))

/-- The credits consumed, those that contexts in use have left, and those in transit. -/
def LogicalRequest.ledger (request : LogicalRequest) : Nat :=
  request.consumed + request.budgets.total +
    (request.delegations.map (fun delegation => delegation.stage.inTransit)).sum

/-- The request has not spent, and cannot still spend, more than a budget. -/
def LogicalRequest.Within (budget : Nat) (request : LogicalRequest) : Prop :=
  request.ledger ≤ budget

/-- What an action must not do at a stage. A child that is retired has left what it reported, and
its answer is reconciled after that. -/
def DelegationStage.settled (budgets : RetryBudgets) : DelegationStage → BudgetAction → Bool
  | .answered _ child metadata, .retire _ =>
      (budgets.inUse child).all (fun used => decide (reported metadata ≤ used.2))
  | .answered _ _ _, .reconcile _ _ => false
  | _, _ => true

/-- Contexts of a child are not used once its answer counts. -/
def Settled (request : LogicalRequest) (action : BudgetAction) : Prop :=
  ∀ number ∈ action.delegation, ∀ delegation ∈ request.delegations[number]?,
    delegation.stage.settled request.budgets action = true

instance (request : LogicalRequest) (action : BudgetAction) : Decidable (Settled request action) :=
  inferInstanceAs (Decidable (∀ number ∈ action.delegation, ∀ delegation ∈ request.delegations[number]?,
    delegation.stage.settled request.budgets action = true))

/-- A delegation was reconciled, and what was put back is at most what it allocated. -/
def PaidBack (request : LogicalRequest) (number : Nat) (output : BudgetOutput)
    (next : LogicalRequest) : Prop :=
  ∃ delegation allocated metadata amount, request.delegations[number]? = some delegation ∧
    (delegation.stage = .over allocated metadata ∨
      ∃ child, delegation.stage = .answered allocated child metadata) ∧
    output = .returned amount ∧ amount ≤ allocated ∧
    next.budgets.total ≤ request.budgets.total + amount

/-- What a reconciliation puts back is at most what its delegation allocated. -/
def ReturnsAllocated (request : LogicalRequest) (action : BudgetAction) (output : BudgetOutput)
    (next : LogicalRequest) : Prop :=
  ∀ number context, action = .reconcile number context → PaidBack request number output next

namespace LogicalRequest

variable {request next : LogicalRequest} {number : Nat} {delegation : Delegation}
variable {action : BudgetAction} {output : BudgetOutput}

theorem start_within (budget : Nat) : (start budget).Within budget := by
  have opened := total_withRetryBudget .empty budget
  have nothing : empty.total = 0 := rfl
  simp only [Within, ledger, start, List.map_nil, List.sum_nil]
  omega

/-- Moving a delegation on changes the ledger by what changes in the contexts and in transit. -/
theorem ledger_advance (found : request.delegations[number]? = some delegation)
    (budgets : RetryBudgets) (stage : DelegationStage) :
    (request.advance number delegation budgets stage).ledger +
        delegation.stage.inTransit + request.budgets.total =
      request.ledger + stage.inTransit + budgets.total := by
  have moved := Process.sum_map_set (fun delegation : Delegation => delegation.stage.inTransit)
    found { delegation with stage := stage }
  simp only [ledger, advance] at moved ⊢
  omega

/-- No step of a delegation makes credits, as long as nobody uses what the child has given back.

Proof: by the stages. Credits move from the context into the request, from there into the
child, from the child into the answer and from there into the context that is paid back. -/
theorem ledger_delegate (found : request.delegations[number]? = some delegation)
    (named : action.delegation = some number) (settled : Settled request action)
    (moved : request.delegate number delegation delegation.stage action = some (next, output)) :
    next.ledger ≤ request.ledger := by
  unfold delegate at moved
  split at moved
  · rename_i available _ stage
    obtain ⟨used, there, built⟩ := map_eq_some_iff.mp moved
    cases built
    have balance := ledger_advance found
      (request.budgets.takeRetryBudgetUpTo delegation.context (available / 2)).1
      (.taken (request.budgets.takeRetryBudgetUpTo delegation.context (available / 2)).2)
    have taken := total_takeRetryBudgetUpTo (holds_of_inUse there)
      (available / 2)
    simp only [stage, inTransit] at balance
    omega
  · rename_i allocated _ stage
    obtain ⟨used, there, built⟩ := map_eq_some_iff.mp moved
    cases built
    have balance := ledger_advance found (request.budgets.withRetryBudget allocated)
      (.sent allocated request.budgets.handles.length)
    have opened := total_withRetryBudget request.budgets allocated
    simp only [stage, inTransit] at balance
    omega
  · rename_i allocated child _ stage
    cases moved
    have balance := ledger_advance found request.budgets (.over allocated none)
    simp only [stage, inTransit, returned, reported, bind_none,
      getD_none, Nat.zero_min] at balance
    omega
  · rename_i allocated child _ metadata stage
    obtain ⟨used, there, built⟩ := map_eq_some_iff.mp moved
    cases built
    have balance := ledger_advance found request.budgets (.answered allocated child metadata)
    simp only [stage, inTransit] at balance
    omega
  · rename_i allocated child metadata _ stage
    obtain ⟨used, there, built⟩ := map_eq_some_iff.mp moved
    cases built
    have balance := ledger_advance found (request.budgets.release used.1) (.over allocated metadata)
    have closed := total_release there
    have left := settled number named delegation found
    have bounded : reported metadata ≤ used.2 := by
      simpa only [stage, DelegationStage.settled, there, all_some, decide_eq_true_eq] using left
    simp only [stage, inTransit, returned] at balance
    omega
  · rename_i stage
    have refused := settled number named delegation found
    rw [stage] at refused
    cases refused
  · rename_i allocated metadata _ context stage
    obtain ⟨_, there, built⟩ := map_eq_some_iff.mp moved
    cases built
    have balance := ledger_advance found
      (request.budgets.restoreRetryBudget context (returned allocated metadata)) .reconciled
    have restored := total_restoreRetryBudget (holds_of_inUse there)
      (returned allocated metadata)
    simp only [stage, inTransit] at balance
    omega
  · cases moved

theorem step_delegation (named : action.delegation = some number)
    (taken : budgetSteps.step request action = some (next, output)) :
    ∃ delegation, request.delegations[number]? = some delegation ∧
      request.delegate number delegation delegation.stage action = some (next, output) := by
  cases action with
  | fork | tryConsume | readAvailable => cases named
  | takeHalf | openChild | lose | answer | retire | reconcile =>
    cases named
    exact bind_eq_some_iff.mp taken

/-- No step makes credits, as long as nobody uses what a child has given back. -/
theorem ledger_step (settled : Settled request action)
    (taken : budgetSteps.step request action = some (next, output)) :
    next.ledger ≤ request.ledger := by
  cases named : action.delegation with
  | some =>
    obtain ⟨_, found, moved⟩ := step_delegation named taken
    exact ledger_delegate found named settled moved
  | none =>
    cases action with
    | fork =>
      obtain ⟨used, there, built⟩ := map_eq_some_iff.mp taken
      cases built
      exact le_rfl
    | tryConsume =>
      obtain ⟨used, there, built⟩ := map_eq_some_iff.mp taken
      cases built
      have tried := total_tryConsumeRetryBudget (holds_of_inUse there)
      simp only [ledger]
      omega
    | readAvailable =>
      obtain ⟨_, _, built⟩ := map_eq_some_iff.mp taken
      cases built
      simp [ledger, inTransit]
    | _ => cases named

/-- Whatever is reported, a reconciliation returns at most what was allocated. -/
theorem returnsAllocated_step (taken : budgetSteps.step request action = some (next, output)) :
    ReturnsAllocated request action output next := by
  rintro number context rfl
  obtain ⟨delegation, found, moved⟩ := step_delegation rfl taken
  have paid : ∀ allocated metadata, (delegation.stage = .over allocated metadata ∨
        ∃ child, delegation.stage = .answered allocated child metadata) →
      request.putBack number delegation allocated metadata context = some (next, output) →
      PaidBack request number output next := by
    intro allocated metadata stage put
    obtain ⟨_, there, built⟩ := map_eq_some_iff.mp put
    cases built
    exact ⟨delegation, allocated, metadata, _, found, stage, rfl, Nat.min_le_right _ _,
      total_restoreRetryBudget (holds_of_inUse there) _⟩
  unfold delegate at moved
  grind

end LogicalRequest

/-- At every moment of a request, the credits consumed anywhere, those left in contexts in use and
those on their way to a child or back are not more than its budget, as long as the contexts of every
child are out of use, with what it reported left in them, before its answer is reconciled. Whatever
is reported, each reconciliation returns at most what its delegation allocated. -/
theorem retry_budget_conserved (budget : Nat) (events : List (BudgetAction × BudgetOutput)) :
    (budgetSteps.Along (fun request action _ _ => Settled request action) (.start budget) events →
      budgetSteps.Throughout (LogicalRequest.Within budget) (.start budget) events) ∧
    budgetSteps.Along ReturnsAllocated (.start budget) events := by
  refine ⟨?_, ?_⟩
  · rintro settled before after request rfl reached
    refine reached.invariant_along settled.first (LogicalRequest.start_within budget) ?_
    intro state action output next bounded taken kept
    exact (LogicalRequest.ledger_step kept taken).trans bounded
  · intro _ _ _ _ _ _ _ _ taken
    exact LogicalRequest.returnsAllocated_step taken

/-- Half of four credits go to a child, which uses one and reports the other. -/
theorem retry_budget_conserved_half_delegated :
    ∃ events final, budgetSteps.Run (.start 4) events final ∧
      events.map Prod.fst = [.readAvailable 0, .takeHalf 0, .openChild 0, .tryConsume 1,
        .answer 0 (some "1"), .retire 0, .reconcile 0 0] ∧
      (final.consumed, final.budgets.total) = (1, 3) ∧
      budgetSteps.Throughout (LogicalRequest.Within 4) (.start 4) events := by
  have evaluated : ((budgetSteps.exec (.start 4) [.readAvailable 0, .takeHalf 0, .openChild 0,
      .tryConsume 1, .answer 0 (some "1"), .retire 0, .reconcile 0 0]).map
        (fun run => (run.1.consumed, run.1.budgets.total))) = some (1, 3) := by decide +kernel
  obtain ⟨⟨final, events⟩, executed, same⟩ := map_eq_some_iff.mp evaluated
  have settled : budgetSteps.Along (fun request action _ _ => Settled request action) (.start 4)
      events := Machine.along_of_checks executed (by decide +kernel)
  exact ⟨events, final, Machine.exec_run executed, Machine.exec_actions executed, same,
    (retry_budget_conserved 4 events).1 settled⟩

/-- A child has two of four credits, keeps a clone of its context and reports that it has two left.
Both of them are given back, the clone still has them, and there are six retries. -/
theorem retries_of_kept_clone :
    ((budgetSteps.exec (.start 4) [.readAvailable 0, .takeHalf 0, .openChild 0]).map
        (fun run => run.1.budgets.inUse 1)) = some (some (1, 2)) ∧
      ((budgetSteps.exec (.start 4) [.readAvailable 0, .takeHalf 0, .openChild 0,
          .answer 0 (some "2"), .reconcile 0 0, .tryConsume 0, .tryConsume 0, .tryConsume 0,
          .tryConsume 0, .tryConsume 1, .tryConsume 1]).map (fun run => run.1.consumed)) = some 6 := by
  decide +kernel

end Roze.Rpc
