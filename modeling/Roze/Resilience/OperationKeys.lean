import Roze.Library.Text
import Roze.Resilience.Governance

/-!
# Which operation keys can coincide

A canonical part is a short text of accepted characters without an underscore at its ends, and is
its own canonical form. The parts are joined by colons, which a part may have itself. So the keys
of two services can coincide exactly when one service continues the other with a boundary.
-/

namespace Roze.Resilience

open Roze.Library List

/-! ## Canonical parts -/

/-- The characters of a canonical part. -/
structure CanonicalChars (chars : List Char) : Prop where
  inhabited : chars ≠ []
  short : chars.length ≤ 160
  accepted : ∀ ch ∈ chars, operationCharAccepted ch = true ∧ ch.toLower = ch
  front : chars.head? ≠ some '_'
  back : chars.getLast? ≠ some '_'

/-- An accepted character stays accepted in lower case, and is in lower case then. -/
theorem operationCharAccepted_toLower {ch : Char} (accepted : operationCharAccepted ch = true) :
    operationCharAccepted ch.toLower = true ∧ ch.toLower.toLower = ch.toLower := by
  have small : ch.toNat < 128 := by
    rw [operationCharAccepted, Bool.or_eq_true] at accepted
    rcases accepted with alphanumeric | listed
    · exact toNat_lt_of_isAlphanum alphanumeric
    · simp only [contains_iff_mem, mem_cons, not_mem_nil, or_false] at listed
      rcases listed with rfl | rfl | rfl | rfl | rfl | rfl | rfl <;> decide
  exact forall_ascii (fun ch => operationCharAccepted ch = true →
    operationCharAccepted ch.toLower = true ∧ ch.toLower.toLower = ch.toLower) (by decide +kernel) small
    accepted

/-- The loop keeps accepted characters in lower case as they are. -/
theorem foldl_canonicalOperationChar {chars : List Char} (built : List Char × Bool)
    (accepted : ∀ ch ∈ chars, operationCharAccepted ch = true ∧ ch.toLower = ch) :
    (chars.foldl canonicalOperationChar built).1 = built.1 ++ chars := by
  induction chars generalizing built with
  | nil => simp
  | cons first rest ih =>
    obtain ⟨own, lower⟩ := accepted first mem_cons_self
    rw [foldl_cons, ih _ fun ch member => accepted ch (mem_cons_of_mem _ member),
      canonicalOperationChar, if_pos own, lower]
    simp

/-- What the loop builds is accepted, in lower case, and not longer than what it reads. -/
theorem foldl_canonicalOperationChar_accepted (chars : List Char) (built : List Char × Bool)
    (before : ∀ ch ∈ built.1, operationCharAccepted ch = true ∧ ch.toLower = ch) :
    (∀ ch ∈ (chars.foldl canonicalOperationChar built).1,
        operationCharAccepted ch = true ∧ ch.toLower = ch) ∧
      (chars.foldl canonicalOperationChar built).1.length ≤ built.1.length + chars.length := by
  induction chars generalizing built with
  | nil => exact ⟨before, le_rfl⟩
  | cons first rest ih =>
    rw [foldl_cons, canonicalOperationChar]
    split
    · rename_i accepted
      have next : ∀ ch ∈ built.1 ++ [first.toLower], operationCharAccepted ch = true ∧ ch.toLower = ch := by
        intro ch member
        rcases mem_append.mp member with old | new
        · exact before ch old
        · rw [mem_singleton.mp new]
          exact operationCharAccepted_toLower accepted
      obtain ⟨all, bound⟩ := ih (built.1 ++ [first.toLower], false) next
      grind
    · split
      · obtain ⟨all, bound⟩ := ih built before
        grind
      · have next : ∀ ch ∈ built.1 ++ ['_'], operationCharAccepted ch = true ∧ ch.toLower = ch := by
          intro ch member
          rcases mem_append.mp member with old | new
          · exact before ch old
          · rw [mem_singleton.mp new]
            decide
        obtain ⟨all, bound⟩ := ih (built.1 ++ ['_'], true) next
        grind

/-- The ends of a text without a character at its ends. -/
theorem trimmed_ends {chars : List Char} :
    ((chars.dropWhile (· = '_')).rdropWhile (· = '_')).head? ≠ some '_' ∧
      ((chars.dropWhile (· = '_')).rdropWhile (· = '_')).getLast? ≠ some '_' := by
  constructor
  · intro front
    obtain ⟨_, whole⟩ := rdropWhile_prefix (· = '_') (chars.dropWhile (· = '_'))
    have head := head?_dropWhile_not (· = '_') chars
    grind
  · intro last
    have some : (chars.dropWhile (· = '_')).rdropWhile (· = '_') ≠ [] := by grind
    have kept := rdropWhile_last_not (· = '_') (chars.dropWhile (· = '_')) some
    grind

theorem canonicalOperationPart_chars (value : String) :
    CanonicalChars (canonicalOperationPart value).toList := by
  obtain ⟨accepted, bound⟩ := foldl_canonicalOperationChar_accepted (value.toList.take 160) ([], false) nofun
  rw [canonicalOperationPart]
  generalize ((value.toList.take 160).foldl canonicalOperationChar ([], false)).1 = built at accepted bound ⊢
  split
  · have accepted : "unknown".toList.all (fun ch => operationCharAccepted ch && ch.toLower = ch) = true := by
      decide
    refine ⟨by decide, by decide, fun ch member => ?_, by decide, by decide⟩
    simpa using all_eq_true.mp accepted ch member
  · rename_i some
    rw [String.toList_ofList]
    have front := rdropWhile_prefix (· = '_') (built.dropWhile (· = '_'))
    have inside := front.sublist.trans (dropWhile_sublist _)
    refine ⟨by simpa using some, ?_, fun ch member => accepted ch (inside.subset member), trimmed_ends.1,
      trimmed_ends.2⟩
    grind

theorem canonicalOperationPart_of_chars {value : String} (canonical : CanonicalChars value.toList) :
    canonicalOperationPart value = value := by
  have front : value.toList.dropWhile (· = '_') = value.toList := by
    cases chars : value.toList with
    | nil => rfl
    | cons =>
      have other := canonical.front
      simp_all
  have back : value.toList.rdropWhile (· = '_') = value.toList := by
    rw [rdropWhile_eq_self_iff]
    intro some same
    apply canonical.back
    grind
  rw [canonicalOperationPart, take_of_length_le canonical.short,
    foldl_canonicalOperationChar _ canonical.accepted, nil_append, front, back,
    if_neg (by simpa using canonical.inhabited), String.ofList_toList]

/-! ## Keys -/

theorem colon_notMem_asStr (boundary : GovernanceBoundary) : ':' ∉ boundary.asStr.toList := by
  cases boundary <;> decide

theorem asStr_injective {first second : GovernanceBoundary}
    (same : first.asStr.toList = second.asStr.toList) : first = second := by
  cases first <;> cases second <;> first | rfl | exact absurd same (by decide)

theorem operationKey_toList (service : String) (boundary : GovernanceBoundary) (operation : String) :
    (operationKey service boundary operation).toList =
      (canonicalOperationPart service).toList ++ ':' :: (boundary.asStr.toList ++
        ':' :: (canonicalOperationPart operation).toList) := by
  simp [operationKey]

/-- A service goes on where another one ends: with a colon, the name of a boundary, and then nothing
or a colon and what an operation can begin with. -/
def Continues (first second : String) : Prop :=
  ∃ boundary : GovernanceBoundary, ∃ tail,
    second.toList = first.toList ++ ':' :: (boundary.asStr.toList ++ tail) ∧
      (tail = [] ∨ ∃ rest, tail = ':' :: rest ∧ rest.head? ≠ some '_')

variable {first second : String}

theorem Continues.ne (continues : Continues first second) : first ≠ second := by
  rintro rfl
  obtain ⟨_, _, whole, -⟩ := continues
  simp_all

/-- When a key ends its service before another one does, the longer service continues the shorter. -/
theorem continues_of_append {boundary other : GovernanceBoundary} {operation last : List Char}
    (front : operation.head? ≠ some '_') {more : List Char}
    (longer : second.toList = first.toList ++ ':' :: more)
    (same : boundary.asStr.toList ++ ':' :: operation =
      more ++ ':' :: (other.asStr.toList ++ ':' :: last)) : Continues first second := by
  rcases append_separator_cases (colon_notMem_asStr boundary) same with ⟨rfl, _⟩ | ⟨middle, rfl, whole⟩
  · exact ⟨boundary, [], by rw [longer, append_nil], .inl rfl⟩
  · refine ⟨boundary, ':' :: middle, longer, .inr ⟨middle, rfl, ?_⟩⟩
    grind

/-- Keys that coincide have the same parts, unless one service continues the other. -/
theorem parts_of_operationKey_eq {operation last : String} {boundary other : GovernanceBoundary}
    (same : operationKey first boundary operation = operationKey second other last)
    (apart : ¬ Continues (canonicalOperationPart first) (canonicalOperationPart second))
    (apart' : ¬ Continues (canonicalOperationPart second) (canonicalOperationPart first)) :
    boundary = other ∧ canonicalOperationPart first = canonicalOperationPart second ∧
      canonicalOperationPart operation = canonicalOperationPart last := by
  have lists := congrArg String.toList same
  rw [operationKey_toList, operationKey_toList] at lists
  rcases append_eq_append_iff.mp lists with ⟨more, whole, left⟩ | ⟨more, whole, left⟩
  · cases more with
    | nil =>
      rw [append_nil] at whole
      rcases append_separator_cases (colon_notMem_asStr boundary) (List.cons.inj left).2 with
        ⟨names, operations⟩ | ⟨middle, names, _⟩
      · exact ⟨(asStr_injective names).symm, String.toList_inj.mp whole.symm,
          String.toList_inj.mp operations⟩
      · exact absurd (names ▸ mem_append_right _ mem_cons_self) (colon_notMem_asStr other)
    | cons =>
      obtain ⟨rfl, following⟩ := List.cons.inj left
      exact absurd (continues_of_append (canonicalOperationPart_chars operation).front whole following) apart
  · cases more with
    | nil =>
      rw [append_nil] at whole
      rcases append_separator_cases (colon_notMem_asStr boundary) (List.cons.inj left).2.symm with
        ⟨names, operations⟩ | ⟨middle, names, _⟩
      · exact ⟨(asStr_injective names).symm, String.toList_inj.mp whole, String.toList_inj.mp operations⟩
      · exact absurd (names ▸ mem_append_right _ mem_cons_self) (colon_notMem_asStr other)
    | cons =>
      obtain ⟨rfl, following⟩ := List.cons.inj left
      exact absurd (continues_of_append (canonicalOperationPart_chars last).front whole following) apart'

/-- The keys of a service and of one that continues it coincide for some operations.

Proof: what the longer service has after the boundary is the beginning of the other operation. There
is room for it, as a canonical part is not longer than the whole service. -/
theorem operationKey_collision
    (continues : Continues (canonicalOperationPart first) (canonicalOperationPart second)) :
    ∃ boundary operation, operationKey first boundary operation = operationKey second .mq "x" := by
  have last : canonicalOperationPart "x" = "x" := by decide
  obtain ⟨boundary, _, whole, rfl | ⟨rest, rfl, front⟩⟩ := continues
  · have operation : canonicalOperationPart "mq:x" = "mq:x" := by decide
    refine ⟨boundary, "mq:x", String.toList_inj.mp ?_⟩
    rw [operationKey_toList, operationKey_toList, whole, last, operation]
    simp [GovernanceBoundary.asStr]
  · have service := canonicalOperationPart_chars second
    have ending : ":mq:x".toList.all (fun ch => operationCharAccepted ch && ch.toLower = ch) = true := by
      decide
    have canonical : CanonicalChars (String.ofList (rest ++ ":mq:x".toList)).toList := by
      rw [String.toList_ofList]
      refine ⟨by simp, ?_, fun ch member => ?_, ?_, by simp⟩
      · have named : 2 ≤ boundary.asStr.toList.length := by cases boundary <;> decide
        have some := length_pos_iff.mpr (canonicalOperationPart_chars first).inhabited
        have short := service.short
        rw [whole] at short
        simp only [length_append, length_cons] at short ⊢
        have ended : ":mq:x".toList.length = 5 := by decide
        omega
      · rcases mem_append.mp member with inside | inside
        · apply service.accepted
          simp_all
        · simpa using all_eq_true.mp ending ch inside
      · cases rest with
        | nil => decide
        | cons => exact front
    have operation := canonicalOperationPart_of_chars canonical
    refine ⟨boundary, String.ofList (rest ++ ":mq:x".toList), String.toList_inj.mp ?_⟩
    rw [operationKey_toList, operationKey_toList, whole, last, operation]
    simp [GovernanceBoundary.asStr]

/-- A canonical part is its own canonical form and is not empty. The keys of two services separate
the boundary and the canonical parts, for all operations, exactly when neither service continues the
other. -/
theorem operationKey_separates_iff (first second : String) :
    (∀ value, canonicalOperationPart (canonicalOperationPart value) = canonicalOperationPart value ∧
      canonicalOperationPart value ≠ "") ∧
    ((∀ boundary other operation last,
        operationKey first boundary operation = operationKey second other last →
        boundary = other ∧ canonicalOperationPart first = canonicalOperationPart second ∧
          canonicalOperationPart operation = canonicalOperationPart last) ↔
      ¬ Continues (canonicalOperationPart first) (canonicalOperationPart second) ∧
        ¬ Continues (canonicalOperationPart second) (canonicalOperationPart first)) := by
  refine ⟨fun value => ⟨?_, ?_⟩, ?_, ?_⟩
  · exact canonicalOperationPart_of_chars (canonicalOperationPart_chars value)
  · intro empty
    have some := (canonicalOperationPart_chars value).inhabited
    rw [empty] at some
    exact some rfl
  · intro separates
    constructor
    · intro continues
      obtain ⟨boundary, operation, same⟩ := operationKey_collision continues
      exact continues.ne (separates boundary .mq operation "x" same).2.1
    · intro continues
      obtain ⟨boundary, operation, same⟩ := operationKey_collision continues
      exact continues.ne (separates .mq boundary "x" operation same.symm).2.1.symm
  · rintro ⟨apart, apart'⟩ _ _ _ _ same
    exact parts_of_operationKey_eq same apart apart'

/-- A service whose name has a boundary in it shares a key with an operation of a shorter one. -/
theorem operationKey_collides :
    operationKey "a" .rest "b:rest:c" = operationKey "a:rest:b" .rest "c" ∧
      canonicalOperationPart "a" ≠ canonicalOperationPart "a:rest:b" ∧
      canonicalOperationPart "b:rest:c" ≠ canonicalOperationPart "c" := by
  decide

theorem operationKey_separates_iff_users :
    ∀ boundary other operation last,
      operationKey "users" boundary operation = operationKey "orders" other last → boundary = other := by
  intro boundary other operation last same
  have plain (service : String) (colonless : ':' ∉ service.toList) (shorter : String) :
      ¬ Continues shorter service := by
    rintro ⟨boundary, _, whole, -⟩
    exact colonless (whole ▸ mem_append_right _ mem_cons_self)
  exact ((operationKey_separates_iff "users" "orders").2.mpr
    ⟨plain _ (by decide) _, plain _ (by decide) _⟩ boundary other operation last same).1

end Roze.Resilience
