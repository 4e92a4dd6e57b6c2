import Mathlib

/-!
# Saturating arithmetic and checked conversions of fixed-width integers

Saturating operations stop at the largest value of the type instead of wrapping.
A checked conversion between a signed and an unsigned type of one width accepts
exactly the values both types have; the unchecked cast keeps the bits. Casting and
then converting back with the check therefore loses precisely the upper half of
the unsigned range.
-/

namespace Roze.Library

/-- Unsigned 32-bit addition that stops at the largest value. -/
def saturatingAddU32 (left right : UInt32) : UInt32 :=
  UInt32.ofNat (min (left.toNat + right.toNat) (2 ^ 32 - 1))

/-- Unsigned 64-bit addition that stops at the largest value. -/
def saturatingAddU64 (left right : UInt64) : UInt64 :=
  UInt64.ofNat (min (left.toNat + right.toNat) (2 ^ 64 - 1))

/-- Unsigned 64-bit subtraction that stops at zero. -/
def saturatingSubU64 (left right : UInt64) : UInt64 :=
  UInt64.ofNat (left.toNat - right.toNat)

/-- Unsigned 64-bit multiplication that stops at the largest value. -/
def saturatingMulU64 (left right : UInt64) : UInt64 :=
  UInt64.ofNat (min (left.toNat * right.toNat) (2 ^ 64 - 1))

/-- Unsigned 64-bit exponentiation that stops at the largest value. -/
def saturatingPowU64 (base : UInt64) (exponent : Nat) : UInt64 :=
  UInt64.ofNat (min (base.toNat ^ exponent) (2 ^ 64 - 1))

/-- The sum of two values of the unsigned type whose values are below `size`, where it has it. -/
def checkedSum (size left right : Nat) : Option Nat :=
  if left + right < size then some (left + right) else none

/-- The difference of two values of an unsigned type. -/
def checkedDifference (left right : Nat) : Option Nat :=
  if right ≤ left then some (left - right) else none

def checkedQuotient (left right : Nat) : Option Nat :=
  if right = 0 then none else some (left / right)

/-- The checked conversion of an unsigned to a signed 32-bit integer. -/
def tryI32FromU32 (value : UInt32) : Option Int32 :=
  if value.toNat < 2 ^ 31 then some value.toInt32 else none

/-- The checked conversion of a signed to an unsigned 32-bit integer. -/
def tryU32FromI32 (value : Int32) : Option UInt32 :=
  if 0 ≤ value.toInt then some value.toUInt32 else none

/-- The checked conversion of an unsigned to a signed 64-bit integer. -/
def tryI64FromU64 (value : UInt64) : Option Int64 :=
  if value.toNat < 2 ^ 63 then some value.toInt64 else none

/-- The checked conversion of a signed to an unsigned 64-bit integer. -/
def tryU64FromI64 (value : Int64) : Option UInt64 :=
  if 0 ≤ value.toInt then some value.toUInt64 else none

/-- Saturation on natural numbers: the sum, or the largest 32-bit value. -/
theorem saturatingAddU32_toNat (left right : UInt32) :
    (saturatingAddU32 left right).toNat = min (left.toNat + right.toNat) (2 ^ 32 - 1) := by
  rw [saturatingAddU32, UInt32.toNat_ofNat']
  omega

/-- The 64-bit forms of the same reading. -/
theorem saturatingAddU64_toNat (left right : UInt64) :
    (saturatingAddU64 left right).toNat = min (left.toNat + right.toNat) (2 ^ 64 - 1) := by
  rw [saturatingAddU64, UInt64.toNat_ofNat']
  omega

theorem saturatingSubU64_toNat (left right : UInt64) :
    (saturatingSubU64 left right).toNat = left.toNat - right.toNat := by
  have bound : left.toNat < 2 ^ 64 := left.toNat_lt
  rw [saturatingSubU64, UInt64.toNat_ofNat']
  omega

theorem saturatingMulU64_toNat (left right : UInt64) :
    (saturatingMulU64 left right).toNat = min (left.toNat * right.toNat) (2 ^ 64 - 1) := by
  rw [saturatingMulU64, UInt64.toNat_ofNat']
  omega

/-- A wrapping sum means the sum of the values up to multiples of `2 ^ 64`. -/
theorem sumU64_toNat (values : List UInt64) :
    values.sum.toNat = (values.map UInt64.toNat).sum % 2 ^ 64 := by
  induction values with
  | nil => rfl
  | cons value rest ih => simp_all

/-- Folding an operation that adds up to a cap adds up to the cap: stopping early at
it and stopping at the end are the same. -/
theorem foldl_saturating {State Item : Type*} {measure : State → Nat} {weight : Item → Nat}
    {step : State → Item → State} {cap : Nat}
    (adds : ∀ state item, measure (step state item) = min (measure state + weight item) cap)
    (items : List Item) {state : State} (bounded : measure state ≤ cap) :
    measure (items.foldl step state) = min (measure state + (items.map weight).sum) cap := by
  induction items generalizing state with
  | nil => simp [bounded]
  | cons item rest ih =>
    have first := adds state item
    rw [List.foldl_cons, ih (by omega), first, List.map_cons, List.sum_cons]
    omega

/-- The bits of an unsigned value below `2 ^ 31` mean the same signed value; the
upper half means the value minus `2 ^ 32`. -/
theorem toInt32_toInt (value : UInt32) :
    value.toInt32.toInt =
      if value.toNat < 2 ^ 31 then (value.toNat : Int) else (value.toNat : Int) - 2 ^ 32 := by
  have bits : value.toInt32.toInt = value.toBitVec.toInt := rfl
  rw [bits, BitVec.toInt_eq_toNat_cond]
  have same : value.toBitVec.toNat = value.toNat := rfl
  split <;> split <;> omega

/-- The 64-bit form of the same reading. -/
theorem toInt64_toInt (value : UInt64) :
    value.toInt64.toInt =
      if value.toNat < 2 ^ 63 then (value.toNat : Int) else (value.toNat : Int) - 2 ^ 64 := by
  have bits : value.toInt64.toInt = value.toBitVec.toInt := rfl
  rw [bits, BitVec.toInt_eq_toNat_cond]
  have same : value.toBitVec.toNat = value.toNat := rfl
  split <;> split <;> omega

/-- Casting to a signed integer and converting back with the check returns the
lower half of the range and refuses the upper half. -/
theorem tryU32FromI32_cast (value : UInt32) :
    tryU32FromI32 value.toInt32 = if value.toNat < 2 ^ 31 then some value else none := by
  have bound : value.toNat < 2 ^ 32 := value.toNat_lt
  rw [tryU32FromI32, toInt32_toInt, UInt32.toUInt32_toInt32]
  grind

/-- A checked conversion to a signed integer is undone by the checked conversion
back. -/
theorem tryU64FromI64_tryI64FromU64 {value : UInt64} {signed : Int64}
    (converted : tryI64FromU64 value = some signed) : tryU64FromI64 signed = some value := by
  rw [tryI64FromU64] at converted
  split at converted
  · rename_i small
    cases converted
    rw [tryU64FromI64, toInt64_toInt, UInt64.toUInt64_toInt64, if_pos small,
      if_pos (Int.natCast_nonneg _)]
  · cases converted

/-- A converted unsigned value is below `2 ^ 31` and equals the signed one. -/
theorem tryU32FromI32_toNat {signed : Int32} {value : UInt32}
    (converted : tryU32FromI32 signed = some value) :
    (value.toNat : Int) = signed.toInt ∧ value.toNat < 2 ^ 31 := by
  rw [tryU32FromI32] at converted
  split at converted
  · cases converted
    have back : signed.toUInt32.toInt32 = signed := rfl
    have reading := toInt32_toInt signed.toUInt32
    rw [back] at reading
    have bound : signed.toUInt32.toNat < 2 ^ 32 := signed.toUInt32.toNat_lt
    omega
  · cases converted

end Roze.Library
