import Mathlib
import Roze.Library.Text

/-!
# Shard routing

A router sorts its shard ids and sends a key to the position that jump consistent hashing
gives for the hash of the key. The hash draws candidates that grow from one to the next
and do not depend on the number of buckets; the last one below that number is the
position.

Growth rests on a quotient that is at least one, computed in floating point. The rounding
of that quotient is a parameter here: any that keeps an exact quotient of at least
`previous + 1` there.
-/

namespace Roze.Db

open Roze.Library List

/-- The characters of shard ids and topology names. -/
def nameCharAccepted (ch : Char) : Bool := ch.isAlphanum || ch == '-' || ch == '_'

/-- A name that is not empty and has accepted characters only. -/
def nameAccepted (name : String) : Bool := !name.isEmpty && name.toList.all nameCharAccepted

structure ShardId where
  value : String
  accepted : nameAccepted value = true

theorem ShardId.value_injective : Function.Injective ShardId.value := by
  intro first second same
  cases second
  cases same
  rfl

/-- Ids are ordered as their texts are. -/
instance : LinearOrder ShardId := LinearOrder.lift' ShardId.value ShardId.value_injective

def ShardId.new (value : String) : Except String ShardId :=
  let trimmed := trim value
  if trimmed.isEmpty then .error "database shard id must not be empty"
  else if accepted : nameAccepted trimmed = true then .ok ⟨trimmed, accepted⟩
  else .error ("database shard id `" ++ trimmed ++ "` contains unsupported characters")

/-! ## Jump consistent hashing -/

/-- How `next * 2^31 / divisor` is rounded to a whole number. -/
structure QuotientRounding where
  quotient : Nat → Nat → Nat
  keeps : ∀ next divisor : Nat, (next : ℚ) ≤ next * 2 ^ 31 / divisor → next ≤ quotient next divisor

/-- The next state of the generator of candidates. -/
def nextKey (key : UInt64) : UInt64 := key * 2862933555777941757 + 1

/-- The divisor that a state gives, from 1 to `2 ^ 31`. -/
def divisor (key : UInt64) : Nat := (key >>> 33).toNat + 1

theorem divisor_le (key : UInt64) : divisor key ≤ 2 ^ 31 := by
  have bound : key.toNat < 2 ^ 64 := key.toNat_lt
  have shifted : (key >>> 33).toNat = key.toNat / 2 ^ 33 := by
    simp [Nat.shiftRight_eq_div_pow]
  rw [divisor, shifted]
  omega

namespace QuotientRounding

variable (rounding : QuotientRounding)

/-- A candidate is larger than the one before. -/
theorem candidate_grows (key : UInt64) (candidate : Nat) :
    candidate < rounding.quotient (candidate + 1) (divisor key) := by
  apply rounding.keeps
  have positive : (0 : ℚ) < divisor key := by
    rw [divisor]
    positivity
  have small : (divisor key : ℚ) ≤ 2 ^ 31 := by exact_mod_cast divisor_le key
  rw [le_div_iff₀ positive]
  exact mul_le_mul_of_nonneg_left small (by positivity)

/-- The loop: `previous` is the last candidate below the number of buckets so far. -/
def jumpLoop (buckets : Nat) (key : UInt64) (previous : Int) (candidate : Nat) : Int :=
  if candidate < buckets then
    jumpLoop buckets (nextKey key) candidate
      (rounding.quotient (candidate + 1) (divisor (nextKey key)))
  else previous
termination_by buckets - candidate
decreasing_by
  have grows := rounding.candidate_grows (nextKey key) candidate
  omega

/-- With at least one bucket the loop runs, and `previous` is not negative. -/
def jumpConsistentHash (key : UInt64) (buckets : Nat) : Nat :=
  (rounding.jumpLoop buckets key (-1) 0).toNat

/-- From a candidate below the number of buckets, the loop ends with one below it. -/
theorem jumpLoop_range {buckets : Nat} (key : UInt64) (previous : Int) {candidate : Nat}
    (below : candidate < buckets) :
    (candidate : Int) ≤ rounding.jumpLoop buckets key previous candidate ∧
      rounding.jumpLoop buckets key previous candidate < buckets := by
  fun_induction jumpLoop rounding buckets key previous candidate with
  | case1 key previous candidate inside ih =>
    have grows := rounding.candidate_grows (nextKey key) candidate
    by_cases again : rounding.quotient (candidate + 1) (divisor (nextKey key)) < buckets
    · omega
    · rw [jumpLoop, if_neg again]
      omega
  | case2 key previous candidate outside => exact absurd below outside

/-- With one more bucket the loop ends as before or in the new bucket.

Proof: both loops draw the same candidates. Where the shorter one stops, the candidate is
at the new bucket, which is then the last one below, or beyond it. -/
theorem jumpLoop_succ (buckets : Nat) (key : UInt64) (previous : Int) (candidate : Nat) :
    rounding.jumpLoop (buckets + 1) key previous candidate =
        rounding.jumpLoop buckets key previous candidate ∨
      rounding.jumpLoop (buckets + 1) key previous candidate = buckets := by
  fun_induction jumpLoop rounding buckets key previous candidate with
  | case1 key previous candidate inside ih =>
    rw [jumpLoop, if_pos (by omega)]
    exact ih
  | case2 key previous candidate outside =>
    by_cases new : candidate < buckets + 1
    · have grows := rounding.candidate_grows (nextKey key) candidate
      rw [jumpLoop, if_pos new, jumpLoop, if_neg (by omega)]
      right
      omega
    · rw [jumpLoop, if_neg new]
      exact .inl rfl

theorem jumpConsistentHash_lt {buckets : Nat} (positive : 0 < buckets) (key : UInt64) :
    rounding.jumpConsistentHash key buckets < buckets := by
  obtain ⟨_, _⟩ := rounding.jumpLoop_range key (-1) positive
  rw [jumpConsistentHash]
  omega

theorem jumpConsistentHash_succ (buckets : Nat) (key : UInt64) :
    rounding.jumpConsistentHash key (buckets + 1) = rounding.jumpConsistentHash key buckets ∨
      rounding.jumpConsistentHash key (buckets + 1) = buckets := by
  rw [jumpConsistentHash, jumpConsistentHash]
  rcases rounding.jumpLoop_succ buckets key (-1) 0 with same | new
  · omega
  · exact .inr (by rw [new]; rfl)

end QuotientRounding

/-! ## Routers -/

/-- What is hashed to find a shard. -/
class ShardKey (Key : Type) where
  stableHash : Key → UInt64

def fnv1a64 (bytes : List UInt8) : UInt64 :=
  bytes.foldl (fun hash byte => (hash ^^^ byte.toUInt64) * 0x100000001b3) 0xcbf29ce484222325

instance : ShardKey (List UInt8) := ⟨fnv1a64⟩

instance : ShardKey String := ⟨fun key => fnv1a64 key.toUTF8.data.toList⟩

/-- The ids are in ascending order, without duplicates, and there is one. -/
structure ShardRouter where
  topology : String
  shardIds : List ShardId
  nonempty : shardIds ≠ []
  ascending : shardIds.Pairwise (· < ·)

namespace ShardRouter

/-- Two neighbours are the same. -/
def hasDuplicates (shardIds : List ShardId) : Bool :=
  (shardIds.zip shardIds.tail).any (fun pair => pair.1 = pair.2)

/-- A sorted list without equal neighbours is strictly ascending. -/
theorem ascending_of_sorted {shardIds : List ShardId} (sorted : shardIds.Pairwise (· ≤ ·))
    (distinct : hasDuplicates shardIds = false) : shardIds.Pairwise (· < ·) := by
  rw [← isChain_iff_pairwise]
  induction shardIds with
  | nil => exact .nil
  | cons first rest ih =>
    cases rest with
    | nil => exact .singleton first
    | cons second =>
      simp only [hasDuplicates, tail_cons, zip_cons_cons, any_cons,
        Bool.or_eq_false_iff, decide_eq_false_iff_not] at distinct
      obtain ⟨least, tail⟩ := pairwise_cons.mp sorted
      exact .cons_cons (lt_of_le_of_ne (least second mem_cons_self) distinct.1)
        (ih tail distinct.2)

/-- The ids in order. -/
def sortIds (ids : List ShardId) : List ShardId := ids.mergeSort (fun first second => first ≤ second)

theorem sortIds_sorted (ids : List ShardId) : (sortIds ids).Pairwise (· ≤ ·) := by
  have sorted : (sortIds ids).Pairwise (fun first second => decide (first ≤ second) = true) :=
    pairwise_mergeSort (by simpa using fun _ _ _ => le_trans) (by simpa using le_total) ids
  simp_all

def new (topology : String) (ids : List ShardId) : Except String ShardRouter :=
  let topology := trim topology
  if topology.isEmpty then .error "database topology name must not be empty"
  else if !topology.toList.all nameCharAccepted then
    .error ("database topology name `" ++ topology ++ "` contains unsupported characters")
  else if nonempty : sortIds ids = [] then
    .error ("database topology `" ++ topology ++ "` must contain at least one shard")
  else if distinct : hasDuplicates (sortIds ids) = false then
    .ok ⟨topology, sortIds ids, nonempty, ascending_of_sorted (sortIds_sorted ids) distinct⟩
  else .error ("database topology `" ++ topology ++ "` contains duplicate shard ids")

variable {Key : Type} [ShardKey Key]

/-- The shard of a key. -/
def route (router : ShardRouter) (rounding : QuotientRounding) (key : Key) : ShardId :=
  router.shardIds.get ⟨rounding.jumpConsistentHash (ShardKey.stableHash key) router.shardIds.length,
    rounding.jumpConsistentHash_lt (List.length_pos_of_ne_nil router.nonempty) _⟩

/-! ## Stability -/

/-- The order in which ids are supplied does not matter. -/
theorem sortIds_eq_of_perm {ids reordered : List ShardId} (perm : reordered.Perm ids) :
    sortIds reordered = sortIds ids :=
  ((mergeSort_perm _ _).trans (perm.trans (mergeSort_perm _ _).symm)).eq_of_pairwise
    (fun _ _ _ _ => le_antisymm) (sortIds_sorted reordered) (sortIds_sorted ids)

theorem mem_sortIds {ids : List ShardId} {id : ShardId} : id ∈ sortIds ids ↔ id ∈ ids :=
  (mergeSort_perm _ _).mem_iff

/-- An id after all others comes last. -/
theorem sortIds_cons_last {ids : List ShardId} {added : ShardId} (last : ∀ id ∈ ids, id < added) :
    sortIds (added :: ids) = sortIds ids ++ [added] := by
  have perm : (sortIds (added :: ids)).Perm (sortIds ids ++ [added]) :=
    (mergeSort_perm _ _).trans ((List.Perm.cons added (mergeSort_perm _ _).symm).trans
      (perm_append_singleton _ _).symm)
  refine perm.eq_of_pairwise (fun _ _ _ _ => le_antisymm) (sortIds_sorted _) ?_
  refine pairwise_append.mpr ⟨sortIds_sorted ids, pairwise_singleton _ _, ?_⟩
  intro id member other single
  rw [mem_singleton.mp single]
  exact (last id (mem_sortIds.mp member)).le

/-- Distinct ids have no equal neighbours. -/
theorem hasDuplicates_of_nodup {shardIds : List ShardId} (distinct : shardIds.Nodup) :
    hasDuplicates shardIds = false := by
  induction shardIds with
  | nil => rfl
  | cons first rest ih =>
    cases rest with
    | nil => rfl
    | cons second =>
      obtain ⟨fresh, tail⟩ := nodup_cons.mp distinct
      have different : first ≠ second := fun same => fresh (same ▸ mem_cons_self)
      have later := ih tail
      simp only [hasDuplicates, tail_cons, zip_cons_cons, any_cons] at later ⊢
      simp [different, later]

/-- A router of an accepted name and distinct ids has the ids in order. -/
theorem new_ok {topology : String} {ids : List ShardId} (named : nameAccepted (trim topology) = true)
    (nonempty : ids ≠ []) (distinct : ids.Nodup) :
    ∃ router, new topology ids = .ok router ∧ router.shardIds = sortIds ids := by
  obtain ⟨some, accepted⟩ := Bool.and_eq_true_iff.mp named
  have filled : sortIds ids ≠ [] := by
    obtain ⟨_, member⟩ := exists_mem_of_ne_nil ids nonempty
    exact ne_nil_of_mem (mem_sortIds.mpr member)
  have different : hasDuplicates (sortIds ids) = false :=
    hasDuplicates_of_nodup ((mergeSort_perm _ _).nodup_iff.mpr distinct)
  refine ⟨⟨trim topology, sortIds ids, filled, ascending_of_sorted (sortIds_sorted ids) different⟩,
    ?_, rfl⟩
  simp only [new]
  simp_all

/-- The route of a key is the id at the hashed position. -/
theorem route_position (router : ShardRouter) (rounding : QuotientRounding) (key : Key) :
    router.shardIds[rounding.jumpConsistentHash (ShardKey.stableHash key)
      router.shardIds.length]? = some (router.route rounding key) :=
  getElem?_eq_getElem _

/-- With one more id at the end, a key stays or moves to the new id. -/
theorem route_extended {router extended : ShardRouter} {added : ShardId}
    (appended : extended.shardIds = router.shardIds ++ [added]) (rounding : QuotientRounding)
    (key : Key) :
    extended.route rounding key = router.route rounding key ∨
      extended.route rounding key = added := by
  have position := extended.route_position rounding key
  have before := router.route_position rounding key
  have below := rounding.jumpConsistentHash_lt (length_pos_of_ne_nil router.nonempty)
    (ShardKey.stableHash key)
  rw [appended, length_append, length_singleton] at position
  rcases rounding.jumpConsistentHash_succ router.shardIds.length (ShardKey.stableHash key) with
    same | new
  · grind
  · simp_all

/-- For an accepted topology name and any distinct ids there is a router; the hash ends in
range and every key goes to one of the ids; the order of the ids does not matter; and
when an id after all others is added, every key stays or moves to it. -/
theorem routing_stable (rounding : QuotientRounding) (topology : String) (ids : List ShardId)
    (named : nameAccepted (trim topology) = true) (nonempty : ids ≠ []) (distinct : ids.Nodup) :
    ∃ router, new topology ids = .ok router ∧
      (∀ hash, rounding.jumpConsistentHash hash ids.length < ids.length) ∧
      (∀ (Key : Type) [ShardKey Key] (key : Key), router.route rounding key ∈ ids) ∧
      (∀ reordered, reordered.Perm ids → new topology reordered = .ok router) ∧
      ∀ added, (∀ id ∈ ids, id < added) →
        ∃ extended, new topology (added :: ids) = .ok extended ∧
          ∀ (Key : Type) [ShardKey Key] (key : Key),
            extended.route rounding key = router.route rounding key ∨
              extended.route rounding key = added := by
  obtain ⟨router, built, sorted⟩ := new_ok named nonempty distinct
  refine ⟨router, built, ?_, ?_, ?_, ?_⟩
  · exact rounding.jumpConsistentHash_lt (length_pos_of_ne_nil nonempty)
  · intro Key _ key
    have member := mem_of_getElem? (router.route_position rounding key)
    rw [sorted] at member
    exact mem_sortIds.mp member
  · intro reordered perm
    rw [← built]
    simp only [new, sortIds_eq_of_perm perm]
  · intro added last
    have fresh : (added :: ids).Nodup :=
      nodup_cons.mpr ⟨fun member => lt_irrefl added (last added member), distinct⟩
    obtain ⟨extended, extendedBuilt, extendedSorted⟩ :=
      new_ok named (cons_ne_nil added ids) fresh
    refine ⟨extended, extendedBuilt, fun Key _ key => ?_⟩
    refine route_extended ?_ rounding key
    rw [extendedSorted, sortIds_cons_last last, sorted]

/-- Rounding the quotient down. -/
def floorRounding : QuotientRounding where
  quotient next divisor := next * 2 ^ 31 / divisor
  keeps next divisor exact := by
    rcases Nat.eq_zero_or_pos divisor with rfl | positive
    · simp_all
    · rw [Nat.le_div_iff_mul_le positive]
      have scaled := (le_div_iff₀ (by exact_mod_cast positive)).mp exact
      exact_mod_cast scaled

/-- Two shards to which a third is added. -/
theorem routing_stable_two_shards :
    ∃ router, new "commerce" [⟨"shard-01", by decide⟩, ⟨"shard-00", by decide⟩] = .ok router ∧
      ∃ extended, new "commerce" [⟨"shard-02", by decide⟩, ⟨"shard-01", by decide⟩,
          ⟨"shard-00", by decide⟩] = .ok extended ∧
        (extended.route floorRounding "order-7" = router.route floorRounding "order-7" ∨
          extended.route floorRounding "order-7" = ⟨"shard-02", by decide⟩) := by
  obtain ⟨router, built, _, _, _, stable⟩ := routing_stable floorRounding "commerce"
    [⟨"shard-01", by decide⟩, ⟨"shard-00", by decide⟩] (by decide) (by simp) (by decide)
  obtain ⟨extended, extendedBuilt, moves⟩ := stable ⟨"shard-02", by decide⟩ (by decide)
  exact ⟨router, built, extended, extendedBuilt, moves String "order-7"⟩

end ShardRouter

end Roze.Db
