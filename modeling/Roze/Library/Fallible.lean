import Mathlib

/-!
# Computations that fail, and generators

What a computation ensures is said of both of its ends: its result has a property, and its failure
is not one of those that are excluded. A generator is a computation that also yields items on its
way; how it ends does not depend on them.
-/

namespace Roze.Library

universe u

/-! ## What a computation ensures -/

variable {Failure : Type u} {A B : Type u}

/-- The result has the property, or the failure is not excluded. -/
def Ensures (excluded : Failure → Prop) (post : A → Prop) : Except Failure A → Prop
  | .ok value => post value
  | .error failure => ¬ excluded failure

variable {excluded : Failure → Prop}

/-- One computation after another. -/
theorem Ensures.bind {middle : A → Prop} {post : B → Prop} {first : Except Failure A}
    {second : A → Except Failure B} (ensured : Ensures excluded middle first)
    (next : ∀ value, middle value → Ensures excluded post (second value)) :
    Ensures excluded post (first >>= second) := by
  cases first with
  | error => exact ensured
  | ok value => exact next value ensured

/-- Less is ensured too. -/
theorem Ensures.mono {post weaker : A → Prop} {result : Except Failure A}
    (ensured : Ensures excluded post result) (weakens : ∀ value, post value → weaker value) :
    Ensures excluded weaker result := by
  cases result with
  | error => exact ensured
  | ok value => exact weakens value ensured

/-- A loop ensures what each of its rounds keeps. The invariant may speak of the items that are
done. -/
theorem ensures_foldlM {Item : Type*} (invariant : List Item → A → Prop) {items : List Item}
    {body : A → Item → Except Failure A}
    (kept : ∀ front item back, items = front ++ item :: back → ∀ value, invariant front value →
      Ensures excluded (invariant (front ++ [item])) (body value item))
    {start : A} (initial : invariant [] start) :
    Ensures excluded (invariant items) (items.foldlM body start) := by
  -- the items that are left, with those that are done in front
  have loop : ∀ (left done : List Item), items = done ++ left → ∀ value, invariant done value →
      Ensures excluded (invariant items) (left.foldlM body value) := by
    intro left
    induction left with
    | nil =>
      intro done all value holds
      rw [List.append_nil] at all
      exact all ▸ holds
    | cons item rest ih =>
      intro done all value holds
      refine (kept done item rest all value holds).bind fun next following => ?_
      grind
  exact loop items [] rfl start initial

/-! ## Generators -/

/-- What was yielded, and how the generator ended. -/
structure Generator (Item Failure A : Type u) where
  items : List Item
  ended : Except Failure A

namespace Generator

variable {Item : Type u}

instance : Monad (Generator Item Failure) where
  pure value := ⟨[], .ok value⟩
  bind first second :=
    match first.ended with
    | .error failure => ⟨first.items, .error failure⟩
    | .ok value => ⟨first.items ++ (second value).items, (second value).ended⟩

def yield (item : Item) : Generator Item Failure PUnit := ⟨[item], .ok ⟨⟩⟩

/-- Go on with the result of a computation, or end with its failure. -/
def attempt (result : Except Failure A) : Generator Item Failure A := ⟨[], result⟩

@[simp] theorem ended_pure (value : A) : (pure value : Generator Item Failure A).ended = .ok value :=
  rfl

@[simp] theorem ended_yield (item : Item) : (yield item : Generator Item Failure PUnit).ended = .ok ⟨⟩ :=
  rfl

@[simp] theorem ended_attempt (result : Except Failure A) :
    (attempt result : Generator Item Failure A).ended = result := rfl

/-- A failure ends the rest. -/
@[simp] theorem ended_bind (first : Generator Item Failure A) (second : A → Generator Item Failure B) :
    (first >>= second).ended = first.ended >>= fun value => (second value).ended := by
  obtain ⟨_, ended⟩ := first
  cases ended with
  | error | ok => rfl

/-- So it does in a loop. -/
@[simp] theorem ended_foldlM {Element : Type*} (elements : List Element)
    (body : A → Element → Generator Item Failure A) (start : A) :
    (elements.foldlM body start).ended =
      elements.foldlM (fun value element => (body value element).ended) start := by
  induction elements generalizing start with
  | nil => rfl
  | cons element rest ih => simp_all

/-- How computations are grouped does not matter. -/
theorem bind_assoc {C : Type u} (first : Generator Item Failure A)
    (second : A → Generator Item Failure B) (third : B → Generator Item Failure C) :
    first >>= second >>= third = first >>= fun value => second value >>= third := by
  obtain ⟨_, ended⟩ := first
  cases ended with
  | error => rfl
  | ok value =>
    simp only [bind]
    cases (second value).ended with
    | error => rfl
    | ok => simp only [List.append_assoc]

/-- A generator whose last act is to yield has that item last, when it does not fail. -/
theorem getLast?_bind_yield (first : Generator Item Failure A) (last : A → Item) {value : A}
    (succeeds : first.ended = .ok value) :
    (first >>= fun value => yield (last value)).items.getLast? = some (last value) := by
  obtain ⟨_, _⟩ := first
  cases succeeds
  exact List.getLast?_concat

end Generator

end Roze.Library
