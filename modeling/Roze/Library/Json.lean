import Mathlib

/-!
# JSON values

The kind of the numbers is left open. The members of an object are kept in a list; a map that is
ordered by names keeps them in ascending order.
-/

namespace Roze.Library

/-- A value, with its items and members in order. -/
inductive Json (Number : Type) where
  | null
  | bool (value : Bool)
  | number (value : Number)
  | string (text : String)
  | array (items : List (Json Number))
  | object (members : List (String × Json Number))

namespace Json

variable {Number : Type}

/-! ## Equality -/

section Equality

variable [DecidableEq Number]

mutual

/-- Whether two values are equal. -/
def same : Json Number → Json Number → Bool
  | .null, .null => true
  | .bool first, .bool second => first == second
  | .number first, .number second => decide (first = second)
  | .string first, .string second => first == second
  | .array first, .array second => sameItems first second
  | .object first, .object second => sameMembers first second
  | _, _ => false

/-- The items of two arrays, one by one. -/
def sameItems : List (Json Number) → List (Json Number) → Bool
  | [], [] => true
  | first :: firsts, second :: seconds => same first second && sameItems firsts seconds
  | _, _ => false

/-- The members of two objects, with their names. -/
def sameMembers : List (String × Json Number) → List (String × Json Number) → Bool
  | [], [] => true
  | (name, first) :: firsts, (other, second) :: seconds =>
      name == other && same first second && sameMembers firsts seconds
  | _, _ => false

end

mutual

/-- `same` decides equality: by recursion on both values and their lists. -/
theorem same_iff : (first second : Json Number) → (same first second = true ↔ first = second)
  | .null, second => by cases second <;> simp [same]
  | .bool first, second => by cases second <;> simp [same]
  | .number first, second => by cases second <;> simp [same]
  | .string first, second => by cases second <;> simp [same]
  | .array first, second => by
      cases second with
      | array second => simp [same, sameItems_iff first second]
      | _ => simp [same]
  | .object first, second => by
      cases second with
      | object second => simp [same, sameMembers_iff first second]
      | _ => simp [same]

/-- The same for items. -/
theorem sameItems_iff :
    (first second : List (Json Number)) → (sameItems first second = true ↔ first = second)
  | [], second => by cases second <;> simp [sameItems]
  | item :: items, second => by
      cases second with
      | nil => simp [sameItems]
      | cons other others => simp [sameItems, same_iff item other, sameItems_iff items others]

/-- The same for members. -/
theorem sameMembers_iff : (first second : List (String × Json Number)) →
    (sameMembers first second = true ↔ first = second)
  | [], second => by cases second <;> simp [sameMembers]
  | (name, item) :: items, second => by
      cases second with
      | nil => simp [sameMembers]
      | cons other others =>
        simp [sameMembers, same_iff item other.2, sameMembers_iff items others, Prod.ext_iff]

end

instance : DecidableEq (Json Number) := fun first second =>
  decidable_of_iff _ (same_iff first second)

end Equality

end Json

end Roze.Library
