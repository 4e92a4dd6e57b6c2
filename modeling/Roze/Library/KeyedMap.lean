import Mathlib

/-!
# Ordered maps whose records carry their own key

A map files each record under one of the record's fields, its key, and keeps the
records in ascending key order. Both an ordered in-memory map and a table with a
primary key are of this kind. Ascending keys are part of the type, so a duplicate
or misplaced record cannot be built, and no operation has to be told so again.

Lookup determines the contents. Each operation below comes with its lookup law;
the claim operation, which rewrites the first few records that satisfy a
predicate, also says which records it returns and in which order. The traversal
with early exit is the shape of a loop over mutable values that may break.
-/

namespace Roze.Library

open List

universe u v w

variable {Key : Type u} {Value : Type v} [LinearOrder Key] {key : Value → Key}

/-- Records in strictly ascending order of their own keys. -/
structure KeyedMap (key : Value → Key) where
  values : List Value
  ascending : (values.map key).Pairwise (· < ·)

namespace KeyedMap

/-- The map without records. -/
def empty (key : Value → Key) : KeyedMap key := ⟨[], List.Pairwise.nil⟩

/-- The record filed under a key. -/
def find? (map : KeyedMap key) (wanted : Key) : Option Value :=
  map.values.find? (fun value => decide (key value = wanted))

/-- Place a record before the first larger key, replacing a record with its own. -/
def insertSorted (key : Value → Key) (fresh : Value) : List Value → List Value
  | [] => [fresh]
  | head :: rest =>
      if key fresh < key head then fresh :: head :: rest
      else if key fresh = key head then fresh :: rest
      else head :: insertSorted key fresh rest

variable {fresh value : Value} {values : List Value}

/-- The inserted list holds the new record and the old ones with other keys. -/
theorem mem_insertSorted_iff (ascending : (values.map key).Pairwise (· < ·)) :
    value ∈ insertSorted key fresh values ↔
      value = fresh ∨ (value ∈ values ∧ key value ≠ key fresh) := by
  induction values with
  | nil => simp [insertSorted]
  | cons head rest ih =>
    simp only [map_cons, pairwise_cons, forall_mem_map] at ascending
    obtain ⟨above, restAscending⟩ := ascending
    simp only [insertSorted]
    split
    · rename_i before
      have others : ∀ other ∈ head :: rest, key other ≠ key fresh := by grind
      grind
    · split
      · rename_i same
        have others : ∀ other ∈ rest, key other ≠ key fresh := by grind
        rw [mem_cons, mem_cons]
        grind
      · rename_i different
        rw [mem_cons, mem_cons, ih restAscending]
        constructor <;> grind

/-- Sorted insertion keeps the keys strictly ascending. The three branches put the
new key before the head, in its place, or after it. -/
theorem insertSorted_ascending (ascending : (values.map key).Pairwise (· < ·)) :
    ((insertSorted key fresh values).map key).Pairwise (· < ·) := by
  induction values with
  | nil => simp [insertSorted]
  | cons head rest ih =>
    simp only [map_cons, pairwise_cons, forall_mem_map] at ascending
    obtain ⟨above, restAscending⟩ := ascending
    simp only [insertSorted]
    split
    · rename_i before
      simp only [map_cons, pairwise_cons, mem_cons, forall_mem_map,
        forall_eq_or_imp]
      grind
    · split
      · simp_all
      · rename_i notBefore different
        simp only [map_cons, pairwise_cons, forall_mem_map]
        refine ⟨?_, ih restAscending⟩
        intro value member
        rcases (mem_insertSorted_iff restAscending).mp member with rfl | ⟨old, -⟩
        · grind
        · exact above value old

/-- Add a record, replacing the one that had its key. -/
def insert (map : KeyedMap key) (fresh : Value) : KeyedMap key :=
  ⟨insertSorted key fresh map.values, insertSorted_ascending map.ascending⟩

/-- Rewrite every record that satisfies a predicate, without moving it. -/
def update (map : KeyedMap key) (chosen : Value → Bool) (change : Value → Value)
    (keeps : ∀ value, key (change value) = key value) : KeyedMap key :=
  ⟨map.values.map (fun value => if chosen value then change value else value), by
    have same : (map.values.map (fun value => if chosen value then change value else value)).map
        key = map.values.map key := by
      rw [List.map_map]
      apply List.map_congr_left
      grind
    rw [same]
    exact map.ascending⟩

/-- Rewrite the record filed under one key, if there is one. -/
def adjust (map : KeyedMap key) (target : Key) (change : Value → Value)
    (keeps : ∀ value, key (change value) = key value) : KeyedMap key :=
  map.update (fun value => decide (key value = target)) change keeps

/-- Drop every record that fails a predicate. -/
def restrict (map : KeyedMap key) (retained : Value → Bool) : KeyedMap key :=
  ⟨map.values.filter retained,
    map.ascending.sublist (List.Sublist.map key List.filter_sublist)⟩

/-- Visit the records in key order, rewriting each and threading an accumulator,
until the body asks to stop. Records after that point are left as they are. -/
def visitValues {Acc : Type w} (body : Acc → Value → Value × Acc × Bool) :
    Acc → List Value → List Value × Acc
  | acc, [] => ([], acc)
  | acc, head :: rest =>
      match body acc head with
      | (changed, next, true) => (changed :: rest, next)
      | (changed, next, false) =>
          let visited := visitValues body next rest
          (changed :: visited.1, visited.2)

omit [LinearOrder Key] in
/-- A body that keeps each record's key keeps the list of keys. -/
theorem visitValues_keys {Acc : Type w} {body : Acc → Value → Value × Acc × Bool}
    (keeps : ∀ acc value, key (body acc value).1 = key value) (acc : Acc) (values : List Value) :
    (visitValues body acc values).1.map key = values.map key := by
  induction values generalizing acc with
  | nil => rfl
  | cons head rest ih =>
    have kept := keeps acc head
    rcases result : body acc head with ⟨_, _, stop⟩
    cases stop with
    | true => simpa [visitValues, result] using kept
    | false => simpa [visitValues, result, ih] using kept

/-- The traversal on a map, returning the rewritten map and the accumulator. -/
def visit {Acc : Type w} (map : KeyedMap key) (body : Acc → Value → Value × Acc × Bool)
    (keeps : ∀ acc value, key (body acc value).1 = key value) (acc : Acc) : KeyedMap key × Acc :=
  (⟨(visitValues body acc map.values).1, by
      rw [visitValues_keys keeps]
      exact map.ascending⟩,
    (visitValues body acc map.values).2)

variable {first second : KeyedMap key}

/-- Equal record lists are equal maps. -/
@[ext] theorem ext (same : first.values = second.values) : first = second := by
  cases first
  cases second
  cases same
  rfl

variable {map : KeyedMap key}

/-- An update that chooses no record changes nothing. -/
theorem update_eq_self {chosen : Value → Bool} {change : Value → Value}
    {keeps : ∀ value, key (change value) = key value}
    (none : ∀ value ∈ map.values, chosen value = false) : map.update chosen change keeps = map := by
  apply ext
  conv_rhs => rw [← map_id map.values]
  apply map_congr_left
  simp_all

/-- Distinct records of a map have distinct keys. -/
theorem key_injective {first second : Value} (left : first ∈ map.values)
    (right : second ∈ map.values) (same : key first = key second) : first = second := by
  have unique : (map.values.map key).Nodup := map.ascending.imp ne_of_lt
  exact inj_on_of_nodup_map unique left right same

variable {wanted : Key}

/-- Lookup finds exactly the record of the map that has the wanted key. -/
theorem find?_eq_some_iff :
    map.find? wanted = some value ↔ value ∈ map.values ∧ key value = wanted := by
  constructor
  · intro found
    exact ⟨mem_of_find?_eq_some found, by simpa using find?_some found⟩
  · rintro ⟨member, same⟩
    cases found : map.find? wanted with
    | none =>
      have absent := find?_eq_none.mp found value member
      simp [same] at absent
    | some other =>
      have otherMember : other ∈ map.values := mem_of_find?_eq_some found
      have otherKey : key other = wanted := by simpa using find?_some found
      rw [key_injective otherMember member (otherKey.trans same.symm)]

theorem mem_values_iff : value ∈ map.values ↔ map.find? (key value) = some value := by
  rw [find?_eq_some_iff, and_iff_left rfl]

/-- A found record has the key it was found under. -/
theorem find?_key (found : map.find? wanted = some value) : key value = wanted :=
  (find?_eq_some_iff.mp found).2

@[simp] theorem find?_empty (wanted : Key) : (empty key).find? wanted = none := rfl

/-- Two maps are equal as lookups when they hold the same records under each key. -/
theorem find?_congr
    (same : ∀ value, key value = wanted → (value ∈ first.values ↔ value ∈ second.values)) :
    first.find? wanted = second.find? wanted := by
  apply Option.ext
  intro value
  rw [find?_eq_some_iff, find?_eq_some_iff]
  simp_all

/-- After an insertion the new record answers its own key and no other lookup
changes. -/
theorem find?_insert (map : KeyedMap key) (fresh : Value) (wanted : Key) :
    (map.insert fresh).find? wanted = if key fresh = wanted then some fresh else map.find? wanted := by
  split
  · rename_i same
    exact find?_eq_some_iff.mpr ⟨(mem_insertSorted_iff map.ascending).mpr (.inl rfl), same⟩
  · rename_i different
    apply find?_congr
    intro value hasKey
    refine (mem_insertSorted_iff map.ascending).trans ?_
    grind

/-- The records one after another; of several with one key the last stays. -/
def collect (key : Value → Key) (records : List Value) : KeyedMap key :=
  records.foldl insert (empty key)

theorem find?_foldl_insert (records : List Value) (map : KeyedMap key) (wanted : Key) :
    (records.foldl insert map).find? wanted =
      (records.filter (fun value => decide (key value = wanted))).getLast?.or (map.find? wanted) := by
  induction records generalizing map with
  | nil => rfl
  | cons first rest ih =>
    rw [foldl_cons, ih, find?_insert, filter_cons]
    by_cases same : key first = wanted
    · grind
    · simp_all

variable {records : List Value}

/-- The records after some with different keys have been inserted: these, and those under other
keys. -/
theorem mem_foldl_insert_iff (unique : (records.map key).Nodup) :
    value ∈ (records.foldl insert map).values ↔
      value ∈ records ∨ (value ∈ map.values ∧ ∀ record ∈ records, key record ≠ key value) := by
  induction records generalizing map with
  | nil => simp
  | cons first rest ih =>
    obtain ⟨fresh, restUnique⟩ := nodup_cons.mp unique
    rw [foldl_cons, ih restUnique, insert, mem_insertSorted_iff map.ascending,
      mem_cons, forall_mem_cons]
    constructor
    · grind
    · rintro ((rfl | later) | ⟨old, different, others⟩)
      · simp_all
      · exact .inl later
      · grind

/-- A collected map answers with the last record of the wanted key. -/
theorem find?_collect (records : List Value) (wanted : Key) :
    (collect key records).find? wanted =
      (records.filter (fun value => decide (key value = wanted))).getLast? := by
  rw [collect, find?_foldl_insert, find?_empty, Option.or_none]

/-- A record of a collected map is one of the given ones. -/
theorem mem_of_mem_collect (member : value ∈ (collect key records).values) : value ∈ records := by
  have found := find?_eq_some_iff.mpr ⟨member, rfl⟩
  rw [find?_collect] at found
  exact mem_of_mem_filter (mem_of_getLast? found)

/-- When no two of the given records share a key, the map has all of them. -/
theorem find?_collect_eq_some_iff
    (unique : ∀ first ∈ records, ∀ second ∈ records, key first = key second → first = second) :
    (collect key records).find? wanted = some value ↔ value ∈ records ∧ key value = wanted := by
  constructor
  · intro found
    exact ⟨mem_of_mem_collect (find?_eq_some_iff.mp found).1, find?_key found⟩
  · rintro ⟨member, rfl⟩
    have listed : value ∈ records.filter (fun other => decide (key other = key value)) :=
      mem_filter.mpr ⟨member, decide_eq_true rfl⟩
    rw [find?_collect]
    cases last : (records.filter (fun other => decide (key other = key value))).getLast? with
    | none => grind
    | some other => grind

theorem values_nodup (map : KeyedMap key) : map.values.Nodup :=
  List.Nodup.of_map key (map.ascending.imp ne_of_lt)

/-- Lookup determines the map. -/
theorem ext_find? (same : ∀ wanted, first.find? wanted = second.find? wanted) : first = second := by
  have ordered (map : KeyedMap key) : map.values.Pairwise (fun left right => key left < key right) :=
    pairwise_map.mp map.ascending
  have members (value : Value) : value ∈ first.values ↔ value ∈ second.values := by
    rw [mem_values_iff, mem_values_iff, same]
  apply ext
  refine List.Perm.eq_of_pairwise ?_ (ordered first) (ordered second)
    ((perm_ext_iff_of_nodup (first.values_nodup) (second.values_nodup)).mpr members)
  grind

/-- The records of a map give the map again. -/
theorem collect_values (map : KeyedMap key) : collect key map.values = map := by
  apply ext_find?
  intro wanted
  apply Option.ext
  intro value
  rw [find?_collect_eq_some_iff (fun _ left _ right => key_injective left right), find?_eq_some_iff]

/-- An update rewrites the found record when it is chosen. -/
theorem find?_update (map : KeyedMap key) (chosen : Value → Bool) (change : Value → Value)
    (keeps : ∀ value, key (change value) = key value) (wanted : Key) :
    (map.update chosen change keeps).find? wanted =
      (map.find? wanted).map (fun value => if chosen value then change value else value) := by
  have keepsBoth : ∀ value, key (if chosen value then change value else value) = key value := by
    grind
  apply Option.ext
  intro value
  rw [find?_eq_some_iff, Option.map_eq_some_iff]
  constructor
  · rintro ⟨member, hasKey⟩
    obtain ⟨original, originalMember, rfl⟩ := mem_map.mp member
    exact ⟨original, find?_eq_some_iff.mpr
      ⟨originalMember, (keepsBoth original).symm.trans hasKey⟩, rfl⟩
  · rintro ⟨original, found, rfl⟩
    obtain ⟨originalMember, originalKey⟩ := find?_eq_some_iff.mp found
    exact ⟨mem_map.mpr ⟨original, originalMember, rfl⟩,
      (keepsBoth original).trans originalKey⟩

/-- An adjustment rewrites the record under its key and changes no other lookup. -/
theorem find?_adjust (map : KeyedMap key) (target : Key) (change : Value → Value)
    (keeps : ∀ value, key (change value) = key value) (wanted : Key) :
    (map.adjust target change keeps).find? wanted =
      if wanted = target then (map.find? wanted).map change else map.find? wanted := by
  rw [adjust, find?_update]
  cases found : map.find? wanted with
  | none => simp
  | some value =>
    have hasKey : key value = wanted := find?_key found
    grind

/-- A restriction answers with the found record when that record is retained. -/
theorem find?_restrict (map : KeyedMap key) (retained : Value → Bool) (wanted : Key) :
    (map.restrict retained).find? wanted = (map.find? wanted).filter retained := by
  apply Option.ext
  intro value
  rw [find?_eq_some_iff, Option.filter_eq_some_iff, find?_eq_some_iff]
  simp only [restrict, mem_filter]
  exact and_right_comm

/-- The first records in key order that satisfy a predicate, at most `limit`. -/
def firstMatching (map : KeyedMap key) (eligible : Value → Bool) (limit : Nat) : List Value :=
  (map.values.filter eligible).take limit

/-- Rewrite exactly the first matching records and return their new versions. -/
def claimFirst (map : KeyedMap key) (eligible : Value → Bool) (limit : Nat)
    (change : Value → Value) (keeps : ∀ value, key (change value) = key value) :
    KeyedMap key × List Value :=
  (map.update (fun value => decide (key value ∈ (map.firstMatching eligible limit).map key))
      change keeps,
    (map.firstMatching eligible limit).map change)

/-- The number of matching records before a key: the position at which a record
with that key stands among the matching ones. -/
def rank (map : KeyedMap key) (eligible : Value → Bool) (wanted : Key) : Nat :=
  (map.values.filter (fun value => eligible value && decide (key value < wanted))).length

variable {eligible : Value → Bool} {limit : Nat}

/-- A selected record is a matching record of the map. -/
theorem firstMatching_mem (selected : value ∈ map.firstMatching eligible limit) :
    value ∈ map.values ∧ eligible value = true :=
  mem_filter.mp (mem_of_mem_take selected)

/-- A record is among the first matching ones exactly when it matches and fewer
than `limit` matching records precede it.

Proof: follow the ascending list. A matching head is selected first and counts
one predecessor of every later record; a head that does not match changes neither
the selection nor the count. -/
theorem mem_firstMatching_iff :
    value ∈ map.firstMatching eligible limit ↔
      value ∈ map.values ∧ eligible value = true ∧ map.rank eligible (key value) < limit := by
  obtain ⟨values, ascending⟩ := map
  simp only [firstMatching, rank]
  induction values generalizing limit with
  | nil => simp
  | cons head rest ih =>
    simp only [map_cons, pairwise_cons, forall_mem_map] at ascending
    obtain ⟨above, restAscending⟩ := ascending
    have noneBefore : (rest.filter (fun other =>
        eligible other && decide (key other < key head))).length = 0 := by
      rw [length_eq_zero_iff, filter_eq_nil_iff]
      grind
    have restLaw := fun bound => @ih bound restAscending
    by_cases holds : eligible head = true
    · cases limit with
      | zero => simp
      | succ limit =>
        rw [filter_cons_of_pos holds, take_succ_cons, mem_cons, restLaw limit]
        by_cases same : value = head
        · subst same
          simp [holds, noneBefore]
        · simp only [same, false_or, mem_cons]
          apply and_congr_right
          intro member
          apply and_congr_right
          intro _
          have counted : (eligible head && decide (key head < key value)) = true := by simp_all
          have predecessor : ((head :: rest).filter (fun other =>
              eligible other && decide (key other < key value))).length =
              (rest.filter (fun other =>
                eligible other && decide (key other < key value))).length + 1 := by simp_all
          omega
    · have skipped : (eligible head && decide (key head < key value)) = false := by
        simp [holds]
      have sameCount : (head :: rest).filter (fun other =>
          eligible other && decide (key other < key value)) =
          rest.filter (fun other => eligible other && decide (key other < key value)) := by simp_all
      rw [filter_cons_of_neg holds, restLaw limit, sameCount, mem_cons]
      grind

/-- A key is selected exactly when the record found under it matches and fewer than
`limit` matching records precede it. -/
theorem mem_firstMatching_keys_iff :
    wanted ∈ (map.firstMatching eligible limit).map key ↔
      ∃ value, map.find? wanted = some value ∧ eligible value = true ∧
        map.rank eligible wanted < limit := by
  constructor
  · intro returned
    obtain ⟨value, selected, rfl⟩ := mem_map.mp returned
    obtain ⟨member, holds, position⟩ := mem_firstMatching_iff.mp selected
    exact ⟨value, find?_eq_some_iff.mpr ⟨member, rfl⟩, holds, position⟩
  · rintro ⟨value, found, holds, position⟩
    obtain ⟨member, rfl⟩ := find?_eq_some_iff.mp found
    exact mem_map.mpr ⟨value, mem_firstMatching_iff.mpr ⟨member, holds, position⟩, rfl⟩

section Claim

variable {map : KeyedMap key} {eligible : Value → Bool} {limit : Nat} {change : Value → Value}
variable {keeps : ∀ value, key (change value) = key value}

/-- The returned records have the keys of the selected ones, in the same order. -/
theorem claimFirst_keys :
    (map.claimFirst eligible limit change keeps).2.map key =
      (map.firstMatching eligible limit).map key := by
  simp [claimFirst, Function.comp_def, keeps]

/-- A claim returns at most `limit` records. -/
theorem claimFirst_length : (map.claimFirst eligible limit change keeps).2.length ≤ limit := by
  rw [claimFirst, length_map, firstMatching]
  exact length_take_le _ _

/-- A claim returns its records in ascending key order, hence without repetition. -/
theorem claimFirst_ascending :
    ((map.claimFirst eligible limit change keeps).2.map key).Pairwise (· < ·) := by
  rw [claimFirst_keys]
  exact map.ascending.sublist (Sublist.map key ((take_sublist _ _).trans filter_sublist))

/-- Each returned record is the rewritten version of a matching record, and it is
what the map holds after the claim. -/
theorem claimFirst_returned {claimed : Value}
    (returned : claimed ∈ (map.claimFirst eligible limit change keeps).2) :
    (map.claimFirst eligible limit change keeps).1.find? (key claimed) = some claimed ∧
      ∃ value, map.find? (key claimed) = some value ∧ eligible value = true ∧
        claimed = change value := by
  obtain ⟨value, selected, rfl⟩ := mem_map.mp returned
  obtain ⟨member, holds⟩ := firstMatching_mem selected
  have found : map.find? (key (change value)) = some value :=
    find?_eq_some_iff.mpr ⟨member, (keeps value).symm⟩
  have chosen : key value ∈ (map.firstMatching eligible limit).map key :=
    mem_map.mpr ⟨value, selected, rfl⟩
  refine ⟨?_, value, found, holds, rfl⟩
  simp only [claimFirst, find?_update, found, Option.map_some, decide_eq_true_eq, if_pos chosen]

/-- A key that is not returned keeps its record. -/
theorem claimFirst_frame {wanted : Key}
    (unreturned : wanted ∉ (map.claimFirst eligible limit change keeps).2.map key) :
    (map.claimFirst eligible limit change keeps).1.find? wanted = map.find? wanted := by
  rw [claimFirst_keys] at unreturned
  simp only [claimFirst, find?_update]
  cases found : map.find? wanted with
  | none => rfl
  | some value =>
    have hasKey : key value = wanted := find?_key found
    simp_all

end Claim

/-- The loop body that rewrites and collects a matching record, and asks to stop
once `limit` records are collected. -/
def claimBody (eligible : Value → Bool) (limit : Nat) (change : Value → Value)
    (claimed : List Value) (value : Value) : Value × List Value × Bool :=
  if eligible value then
    (change value, claimed ++ [change value], decide (limit ≤ (claimed ++ [change value]).length))
  else (value, claimed, false)

omit [LinearOrder Key] in
/-- The loop body rewrites a record only by the given change. -/
theorem claimBody_keeps {change : Value → Value} (keeps : ∀ value, key (change value) = key value)
    (claimed : List Value) (value : Value) :
    key (claimBody eligible limit change claimed value).1 = key value := by
  simp only [claimBody]
  split
  · exact keeps value
  · rfl

/-- With room for at least one more record, the loop collects the first matching
records that fit and rewrites exactly those.

Proof: induction over the records. The head's key is smaller than every later
key, so whether a later record is rewritten does not depend on the head. When the
collected list becomes full the remaining room is zero and no later record is
selected, which is the early exit. -/
theorem visitValues_claims (key : Value → Key) (eligible : Value → Bool) (change : Value → Value)
    (claimed values : List Value) (ascending : (values.map key).Pairwise (· < ·))
    (room : claimed.length < limit) :
    visitValues (claimBody eligible limit change) claimed values =
      (values.map (fun value =>
          if key value ∈ ((values.filter eligible).take (limit - claimed.length)).map key
          then change value else value),
        claimed ++ ((values.filter eligible).take (limit - claimed.length)).map change) := by
  induction values generalizing claimed with
  | nil => simp [visitValues]
  | cons head rest ih =>
    simp only [map_cons, pairwise_cons, forall_mem_map] at ascending
    obtain ⟨above, restAscending⟩ := ascending
    obtain ⟨left, remaining⟩ : ∃ left, limit - claimed.length = left + 1 :=
      ⟨limit - claimed.length - 1, by omega⟩
    by_cases holds : eligible head = true
    · have selection : ((head :: rest).filter eligible).take (limit - claimed.length) =
          head :: (rest.filter eligible).take left := by
        rw [filter_cons_of_pos holds, remaining, take_succ_cons]
      have later : ∀ other ∈ rest,
          (if key other ∈ (head :: (rest.filter eligible).take left).map key
            then change other else other) =
          (if key other ∈ ((rest.filter eligible).take left).map key
            then change other else other) := by grind
      rw [selection, map_cons, map_congr_left later]
      by_cases full : limit ≤ (claimed ++ [change head]).length
      · have none : left = 0 := by grind
        subst none
        simp only [visitValues, claimBody, holds, if_true, full, decide_true]
        simp
      · have more : (claimed ++ [change head]).length < limit := Nat.lt_of_not_le full
        have smaller : limit - (claimed ++ [change head]).length = left := by grind
        simp only [visitValues, claimBody, holds, if_true, full, decide_false,
          ih (claimed ++ [change head]) restAscending more, smaller]
        simp
    · have selection : ((head :: rest).filter eligible).take (limit - claimed.length) =
          (rest.filter eligible).take (limit - claimed.length) := by
        rw [filter_cons_of_neg holds]
      have headKept : key head ∉
          ((rest.filter eligible).take (limit - claimed.length)).map key := by grind
      rw [selection, map_cons, if_neg headKept]
      simp [visitValues, claimBody, holds,
        ih claimed restAscending room]

/-- A loop that stops at a positive limit is the claim of the first matching
records. -/
theorem visit_claims (map : KeyedMap key) (eligible : Value → Bool) (change : Value → Value)
    (keeps : ∀ value, key (change value) = key value) (positive : 0 < limit) :
    map.visit (claimBody eligible limit change) (claimBody_keeps keeps) [] =
      map.claimFirst eligible limit change keeps := by
  have loop := visitValues_claims key eligible change [] map.values map.ascending positive
  simp only [length_nil, Nat.sub_zero, nil_append] at loop
  apply Prod.ext
  · apply ext
    simp only [visit, claimFirst, update, firstMatching, loop]
    simp
  · simp only [visit, claimFirst, firstMatching, loop]

end KeyedMap

/-! ## Maps of entries -/

/-- A map whose records are pairs of a key and a value. -/
abbrev Entries (Key : Type u) (Value : Type v) [LinearOrder Key] :=
  KeyedMap (Prod.fst : Key × Value → Key)

namespace Entries

variable {Key : Type u} {Value : Type v} [LinearOrder Key]

def get? (entries : Entries Key Value) (wanted : Key) : Option Value :=
  (entries.find? wanted).map Prod.snd

def put (entries : Entries Key Value) (place : Key) (value : Value) : Entries Key Value :=
  entries.insert (place, value)

def erase (entries : Entries Key Value) (place : Key) : Entries Key Value :=
  entries.restrict (fun entry => decide (entry.1 ≠ place))

/-- File a value under a key, or leave nothing there. -/
def set (entries : Entries Key Value) (place : Key) : Option Value → Entries Key Value
  | some value => entries.put place value
  | none => entries.erase place

theorem get?_put (entries : Entries Key Value) (place : Key) (value : Value) (wanted : Key) :
    (entries.put place value).get? wanted =
      if place = wanted then some value else entries.get? wanted := by
  rw [get?, put, KeyedMap.find?_insert]
  split <;> rfl

theorem get?_erase (entries : Entries Key Value) (place wanted : Key) :
    (entries.erase place).get? wanted = if place = wanted then none else entries.get? wanted := by
  rw [get?, erase, KeyedMap.find?_restrict]
  cases found : entries.find? wanted with
  | none => simp [get?, found]
  | some entry =>
    have named : entry.1 = wanted := KeyedMap.find?_key found
    by_cases same : place = wanted
    · simp [same, named]
    · have kept : decide (entry.1 ≠ place) = true := by simp [named, Ne.symm same]
      rw [Option.filter_some, if_pos kept, if_neg same, get?, found]

theorem get?_set (entries : Entries Key Value) (place wanted : Key) (value : Option Value) :
    (entries.set place value).get? wanted = if place = wanted then value else entries.get? wanted := by
  cases value with
  | none => exact get?_erase entries place wanted
  | some value => exact get?_put entries place value wanted

/-- The keys of a map, in ascending order. -/
def keys (entries : Entries Key Value) : List Key := entries.values.map Prod.fst

theorem mem_keys_iff {entries : Entries Key Value} {wanted : Key} :
    wanted ∈ entries.keys ↔ (entries.get? wanted).isSome := by
  rw [keys, mem_map, get?, Option.isSome_map, Option.isSome_iff_exists]
  exact exists_congr fun entry => KeyedMap.find?_eq_some_iff.symm

theorem mem_keys_put {entries : Entries Key Value} {place wanted : Key} {value : Value} :
    wanted ∈ (entries.put place value).keys ↔ wanted = place ∨ wanted ∈ entries.keys := by
  rw [mem_keys_iff, mem_keys_iff, get?_put]
  grind

theorem keys_nodup (entries : Entries Key Value) : entries.keys.Nodup :=
  entries.ascending.imp ne_of_lt

end Entries

end Roze.Library
