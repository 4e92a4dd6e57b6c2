import Roze.Library.MachineInteger
import Roze.Rpc.MemoryRegistry

/-!
# Weighted selection

The round-robin balancer repeats each instance as often as its weight says and indexes the list with
its cursor. The gateway builds no list: it subtracts weights from the cursor until the rest lies
within one of them. For both a weight of zero counts as one; the gateway cuts weights at ten thousand.

The gateway adds the weights up in a `u64`, which no list that fits into memory exceeds.

The scores of the balancers use an integer square root, found by bisection with quotients in the place
of squares.
-/

namespace Roze.Rpc

open List Library

def weightedInstances (instances : List ServiceInstance) : List ServiceInstance :=
  instances.flatMap (fun item => List.replicate (max item.weight 1) item)

structure WeightedRoundRobinBalancer where
  cursor : UInt64

/-- The instance that is picked, and the balancer with its cursor moved on. -/
def WeightedRoundRobinBalancer.pick (balancer : WeightedRoundRobinBalancer)
    (instances : List ServiceInstance) : Option ServiceInstance × WeightedRoundRobinBalancer :=
  let weighted := weightedInstances instances
  if weighted.isEmpty then (none, balancer)
  else (weighted[balancer.cursor.toNat % weighted.length]?, ⟨balancer.cursor + 1⟩)

def maxEffectiveWeight : Nat := 10000

def effectiveWeight (item : ServiceInstance) : Nat := min (max item.weight 1) maxEffectiveWeight

def totalWeight (instances : List ServiceInstance) : Nat := (instances.map effectiveWeight).sum

/-- The loop of the gateway; it has no result where it falls through. -/
def scanWeights (point : Nat) : List ServiceInstance → Option ServiceInstance
  | [] => none
  | item :: rest =>
      if point < effectiveWeight item then some item
      else scanWeights (point - effectiveWeight item) rest

def pickWeightedInstance (instances : List ServiceInstance) (cursor : UInt64) :
    Option ServiceInstance :=
  let total := totalWeight instances
  if total = 0 then none
  else (scanWeights (cursor.toNat % total) instances).or instances.getLast?

/-! ## The list that the gateway does not build -/

/-- Each instance as often as its effective weight says. -/
def repeated (instances : List ServiceInstance) : List ServiceInstance :=
  instances.flatMap (fun item => List.replicate (effectiveWeight item) item)

variable {instances : List ServiceInstance}

theorem length_repeated : (repeated instances).length = totalWeight instances := by
  simp [repeated, totalWeight, length_flatMap]

theorem repeated_cons (item : ServiceInstance) :
    repeated (item :: instances) =
      List.replicate (effectiveWeight item) item ++ repeated instances := flatMap_cons

theorem scanWeights_eq (point : Nat) :
    scanWeights point instances = (repeated instances)[point]? := by
  induction instances generalizing point with
  | nil => rfl
  | cons item rest ih =>
    rw [scanWeights, repeated_cons, ih]
    grind

theorem totalWeight_pos (nonempty : instances ≠ []) : 0 < totalWeight instances := by
  obtain ⟨item, _, rfl⟩ := exists_cons_of_ne_nil nonempty
  have positive : 0 < effectiveWeight item := by
    rw [effectiveWeight, maxEffectiveWeight]
    omega
  rw [totalWeight, map_cons, sum_cons]
  omega

/-- The scan of a point below the total ends within the list. -/
theorem pickWeightedInstance_eq (nonempty : instances ≠ []) (cursor : UInt64) :
    ∃ item, scanWeights (cursor.toNat % totalWeight instances) instances = some item ∧
      pickWeightedInstance instances cursor = some item ∧
      (repeated instances)[cursor.toNat % totalWeight instances]? = some item := by
  have positive := totalWeight_pos nonempty
  have inside := (Nat.mod_lt cursor.toNat positive).trans_eq length_repeated.symm
  have here := getElem?_eq_getElem inside
  have scanned := (scanWeights_eq _).trans here
  refine ⟨_, scanned, ?_, here⟩
  rw [pickWeightedInstance, if_neg positive.ne', scanned, Option.some_or]

theorem count_repeated (item : ServiceInstance) :
    (repeated instances).count item = instances.count item * effectiveWeight item := by
  induction instances with
  | nil => rw [count_nil, Nat.zero_mul]; rfl
  | cons head rest ih =>
    rw [repeated_cons, count_append, ih, count_replicate, count_cons]
    grind

/-- The picks of a window of cursors are the list from some place on, around its end. -/
theorem window_eq (nonempty : instances ≠ []) {start : Nat}
    (fits : start + totalWeight instances ≤ 2 ^ 64) :
    (List.range (totalWeight instances)).map
        (fun offset => pickWeightedInstance instances (UInt64.ofNat (start + offset))) =
      ((repeated instances).rotate start).map some := by
  refine ext_getElem (by simp [length_repeated]) fun offset inside _ => ?_
  rw [length_map, length_range] at inside
  obtain ⟨_, -, picked, here⟩ :=
    pickWeightedInstance_eq nonempty (UInt64.ofNat (start + offset))
  have below : start + offset < UInt64.size := (Nat.add_lt_add_left inside start).trans_le fits
  rw [UInt64.toNat_ofNat_of_lt' below] at here
  have place := getElem?_rotate (n := start) (length_repeated.symm ▸ inside)
  rw [length_repeated, Nat.add_comm, here] at place
  grind

/-- The gateway picks the instance at the cursor's place in the repeated list and never falls through
its loop. With weights of at most ten thousand that list is the one of the balancer, and both pick
the same for equal cursors. Any window of as many cursors as the total picks each instance as often
as its effective weight says, for every time that it is in the list. -/
theorem weighted_selection (nonempty : instances ≠ []) :
    (∀ cursor, ∃ item, scanWeights (cursor.toNat % totalWeight instances) instances = some item ∧
      pickWeightedInstance instances cursor = some item ∧
      (repeated instances)[cursor.toNat % totalWeight instances]? = some item) ∧
    ((∀ item ∈ instances, item.weight ≤ maxEffectiveWeight) →
      repeated instances = weightedInstances instances ∧
      ∀ cursor, pickWeightedInstance instances cursor =
        (WeightedRoundRobinBalancer.pick ⟨cursor⟩ instances).1) ∧
    ∀ start, start + totalWeight instances ≤ 2 ^ 64 → ∀ item,
      ((List.range (totalWeight instances)).map (fun offset =>
        pickWeightedInstance instances (UInt64.ofNat (start + offset)))).count (some item) =
          instances.count item * effectiveWeight item := by
  refine ⟨pickWeightedInstance_eq nonempty, fun light => ?_, fun start fits item => ?_⟩
  · have same : repeated instances = weightedInstances instances := by
      refine flatMap_congr fun item member => ?_
      have weight : effectiveWeight item = max item.weight 1 :=
        min_eq_left (max_le (light item member) (by decide))
      rw [weight]
    have filled : (weightedInstances instances).isEmpty = false := by
      rw [← same, isEmpty_eq_false_iff, ← length_pos_iff, length_repeated]
      exact totalWeight_pos nonempty
    refine ⟨same, fun cursor => ?_⟩
    obtain ⟨_, -, picked, here⟩ := pickWeightedInstance_eq nonempty cursor
    rw [picked, ← here, WeightedRoundRobinBalancer.pick, filled, ← same, length_repeated]
    rfl
  · rw [window_eq nonempty fits, count_map_of_injective _ _ (Option.some_injective _),
      (rotate_perm _ _).count_eq, count_repeated]

/-- A window that begins within the list, with a weight of zero and an instance that is listed twice. -/
theorem weighted_selection_window :
    let first : ServiceInstance := ⟨"orders", "10.0.0.1:80", 0, []⟩
    let second : ServiceInstance := ⟨"orders", "10.0.0.2:80", 2, []⟩
    let instances := [second, first, second]
    totalWeight instances = 5 ∧ pickWeightedInstance instances 7 = some first ∧
      ((List.range (totalWeight instances)).map (fun offset =>
        pickWeightedInstance instances (UInt64.ofNat (7 + offset)))).count (some second) = 4 := by
  intro first second instances
  exact ⟨by decide, by decide, (weighted_selection (by decide)).2.2 7 (by decide) second⟩

/-! ## The integer square root -/

/-- The loop of the search, with the number of times its condition may be tested. It has no result
where an operation overflows, where it divides by zero or where the tests do not suffice. -/
def searchRoot (value : Nat) : Nat → Nat → Nat → Option Nat
  | 0, _, _ => none
  | tests + 1, left, right =>
      if left ≤ right then do
        let distance ← checkedDifference right left
        let middle ← checkedSum (2 ^ 128) left (distance / 2)
        let quotient ← checkedQuotient value middle
        if middle = quotient then return middle
        if middle < quotient then searchRoot value tests (← checkedSum (2 ^ 128) middle 1) right
        else searchRoot value tests left (← checkedDifference middle 1)
      else some right

def integerSqrt (tests value : Nat) : Option Nat :=
  if value < 2 then some value else searchRoot value tests 1 (min value (2 ^ 64 - 1))

variable {value left right tests : Nat}

/-- One round between bounds within 64 bits: no operation fails. -/
theorem searchRoot_round (value tests : Nat) (positive : 0 < left) (ordered : left ≤ right)
    (small : right < 2 ^ 64) :
    ∃ middle, left ≤ middle ∧ middle ≤ right ∧ right - middle ≤ (right + 1 - left) / 2 ∧
      middle - left ≤ (right + 1 - left) / 2 ∧
      searchRoot value (tests + 1) left right =
        if middle = value / middle then some middle
        else if middle < value / middle then searchRoot value tests (middle + 1) right
        else searchRoot value tests left (middle - 1) := by
  refine ⟨left + (right - left) / 2, by omega, by omega, by omega, by omega, ?_⟩
  have sum : left + (right - left) / 2 + 1 < 2 ^ 128 := by omega
  have divisor : left + (right - left) / 2 ≠ 0 := by omega
  have difference : 1 ≤ left + (right - left) / 2 := by omega
  simp only [searchRoot, if_pos ordered, checkedDifference, checkedSum, checkedQuotient,
    Option.bind_eq_bind, Option.bind_some, if_pos (Nat.lt_of_succ_lt sum), if_neg divisor, if_pos sum,
    if_pos difference, Option.pure_def]

/-- Below `left` the squares are at most the value, above `right` they are greater; each round halves
what lies between. -/
theorem searchRoot_exact (positive : 0 < left) (ordered : left ≤ right + 1) (small : right < 2 ^ 64)
    (lower : (left - 1) * (left - 1) ≤ value) (upper : value < (right + 1) * (right + 1))
    (enough : right + 1 - left < 2 ^ tests) :
    ∃ root, searchRoot value (tests + 1) left right = some root ∧ root * root ≤ value ∧
      value < (root + 1) * (root + 1) := by
  induction tests generalizing left right with
  | zero =>
    obtain rfl : left = right + 1 := by omega
    exact ⟨right, if_neg (by omega), lower, upper⟩
  | succ tests ih =>
    by_cases crossed : left ≤ right
    · obtain ⟨middle, above, below, later, earlier, round⟩ :=
        searchRoot_round value (tests + 1) positive crossed small
      have halved : (right + 1 - left) / 2 < 2 ^ tests := by omega
      have product := Nat.div_mul_le_self value middle
      rw [round]
      split
      · rename_i same
        rw [← same] at product
        have next := Nat.lt_mul_div_succ value (positive.trans_le above)
        grind
      · split
        · rename_i greater
          refine ih middle.succ_pos (by omega) small ?_ upper (by omega)
          exact (Nat.mul_le_mul_right middle greater.le).trans product
        · have less : value / middle < middle := by omega
          rw [Nat.div_lt_iff_lt_mul (positive.trans_le above)] at less
          refine ih positive (by omega) (by omega) lower ?_ (by omega)
          grind
    · obtain rfl : left = right + 1 := by omega
      exact ⟨right, if_neg (by omega), lower, upper⟩

/-- For every value of 128 bits the search ends, after at most 65 tests, with the square root rounded
down, and on the way nothing overflows or is divided by zero. -/
theorem integerSqrt_exact (value : BitVec 128) (tests : Nat) :
    ∃ root, integerSqrt (tests + 65) value.toNat = some root ∧ root * root ≤ value.toNat ∧
      value.toNat < (root + 1) * (root + 1) := by
  have bounded := value.isLt
  rw [integerSqrt]
  split
  · refine ⟨value.toNat, rfl, ?_, by nlinarith⟩
    interval_cases value.toNat <;> decide
  · have enough : 2 ^ 64 ≤ 2 ^ (tests + 64) := Nat.pow_le_pow_right (by decide) (by omega)
    refine searchRoot_exact Nat.one_pos (by omega) (by omega) (Nat.zero_le _) ?_ (by omega)
    rcases Nat.le_total value.toNat (2 ^ 64 - 1) with below | above
    · rw [min_eq_left below]
      nlinarith
    · rw [min_eq_right above]
      exact bounded

end Roze.Rpc
