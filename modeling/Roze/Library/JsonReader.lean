import Mathlib
import Roze.Library.JsonText

/-!
# Readers of JSON texts

A reader is known by what is documented of it: which values come back from their own texts, that
white space around a value means nothing, and that nothing else may follow a value. The canonical
reader, which accepts the compact texts only, is one.
-/

namespace Roze.Library

open String

namespace Json

variable {Number : Type}

/-- The white space of JSON. -/
def isBlank (ch : Char) : Bool := ch == ' ' || ch == '\t' || ch == '\n' || ch == '\r'

def blank (text : String) : Bool := text.toList.all isBlank

/-- The usual limit of the depth. -/
def recursionLimit : Nat := 128

/-- What is documented of a reader that refuses values nested as deep as the limit. A value comes
back from its own text when it is not too deep and its numbers come back from theirs. -/
structure Reader (format : NumberFormat Number) (limit : Nat) where
  read : String → Option (Value Number)
  written : ∀ value : Value Number, read (value.json.text format) = some value ↔
    value.json.depth < limit ∧ ∀ number, Within (.number number) value.json →
      read (format.text number) = some ⟨.number number, distinct_number number⟩
  empty : read "" = none
  leading : ∀ before text, blank before = true → read (before ++ text) = read text
  trailing : ∀ text after value, blank after = true → read text = some value →
    read (text ++ after) = some value
  delimited : ∀ text rest, text.toList.head? = some '{' → (read text).isSome = true →
    (read (text ++ rest)).isSome = true → blank rest = true

theorem blank_append (first second : String) :
    blank (first ++ second) = (blank first && blank second) := by
  simp [blank]

/-- A text that begins an object and can be read is the whole object. -/
theorem Reader.eq_empty_of_readable {format : NumberFormat Number} {limit : Nat}
    (reader : Reader format limit) {text first last : String} (opens : text.toList.head? = some '{')
    (closes : text.toList.getLast? = some '}') (whole : (reader.read text).isSome = true)
    (split : text = first ++ last) (filled : first ≠ "")
    (readable : (reader.read first).isSome = true) : last = "" := by
  by_contra more
  have begins : first.toList.head? = some '{' := by simp_all
  have space : blank last = true := reader.delimited first last begins readable (split ▸ whole)
  have ends : '}' ∈ last.toList := by
    rw [split, toList_append, List.getLast?_append_of_ne_nil] at closes
    · exact List.mem_of_mem_getLast? closes
    · simp_all
  have dark := List.all_eq_true.mp space '}' ends
  cases dark

/-! ## The canonical reader -/

section Canonical

variable {format : NumberFormat Number} {limit : Nat}

/-- The text is the compact text of the value, up to white space around it. -/
def Spells (format : NumberFormat Number) (value : Json Number) (text : String) : Prop :=
  ∃ before after, blank before = true ∧ blank after = true ∧
    text = before ++ value.text format ++ after

theorem isBlank_kindOf {ch : Char} (space : isBlank ch = true) (value : Json Number) :
    kindOf ch ≠ value.kind := by
  simp only [isBlank, Bool.or_eq_true, beq_iff_eq] at space
  rcases space with ((rfl | rfl) | rfl) | rfl <;> cases value <;> exact nofun

variable {text : String}

theorem free_of_blank (space : blank text = true) : Free text.toList := by
  intro ch head
  have inside : isBlank ch = true := List.all_eq_true.mp space ch (List.mem_of_mem_head? head)
  simp only [isBlank, Bool.or_eq_true, beq_iff_eq] at inside
  rcases inside with ((rfl | rfl) | rfl) | rfl <;> decide

variable {value : Json Number}

/-- White space before a value is known from the whole. -/
theorem exists_blank_of_append_eq {before rest more : String} (space : blank before = true)
    (space' : blank rest = true) (same : before ++ text = rest ++ (value.text format ++ more)) :
    ∃ left, blank left = true ∧ text = left ++ (value.text format ++ more) := by
  have lists := congrArg String.toList same
  simp only [toList_append] at lists
  rcases List.append_eq_append_iff.mp lists with ⟨middle, own, other⟩ | ⟨middle, own, other⟩
  · refine ⟨String.ofList middle, ?_, ?_⟩
    · rw [blank, own, List.all_append] at space'
      rw [blank, toList_ofList]
      simp_all
    · apply toList_inj.mp
      simpa using other
  · cases middle with
    | nil =>
      refine ⟨"", rfl, ?_⟩
      apply toList_inj.mp
      simpa using other.symm
    | cons ch =>
      obtain ⟨_, _, written, kind⟩ := head_chars format value
      rw [Json.text, toList_ofList, written] at other
      have inside : isBlank ch = true :=
        List.all_eq_true.mp space ch (own ▸ List.mem_append_right _ List.mem_cons_self)
      rw [(List.cons.inj other).1] at kind
      exact absurd kind (isBlank_kindOf inside value)

theorem append_text_inj (injective : Function.Injective format.text) {first second : Json Number}
    {rest rest' : String} (free : first.kind = .number → Free rest.toList ∧ Free rest'.toList)
    (same : first.text format ++ rest = second.text format ++ rest') :
    first = second ∧ rest = rest' := by
  have lists := congrArg String.toList same
  simp only [toList_append, Json.text, toList_ofList] at lists
  obtain ⟨values, rests⟩ := selfDelimiting injective first second _ _ free lists
  simp_all

theorem Spells.unique (injective : Function.Injective format.text) {first second : Json Number}
    (spells : Spells format first text) (spells' : Spells format second text) : first = second := by
  obtain ⟨_, _, space, last, rfl⟩ := spells
  obtain ⟨_, _, space', last', same⟩ := spells'
  rw [append_assoc, append_assoc] at same
  obtain ⟨left, blankLeft, whole⟩ := exists_blank_of_append_eq space space' same
  -- a value begins with no white space, so that none is left
  obtain ⟨_, -, again⟩ := exists_blank_of_append_eq blankLeft (rfl : blank "" = true)
    (whole.symm.trans (empty_append).symm)
  have lengths := congrArg String.length whole
  have lengths' := congrArg String.length again
  simp only [length_append] at lengths lengths'
  have empty : left = "" := by
    apply toList_inj.mp
    apply List.eq_nil_of_length_eq_zero
    rw [length_toList]
    omega
  subst empty
  exact (append_text_inj injective (fun _ => ⟨free_of_blank last, free_of_blank last'⟩) whole).1

theorem spells_append_iff {before : String} (space : blank before = true) :
    Spells format value (before ++ text) ↔ Spells format value text := by
  constructor
  · rintro ⟨first, after, blankFirst, last, same⟩
    rw [append_assoc] at same
    obtain ⟨left, blankLeft, whole⟩ := exists_blank_of_append_eq space blankFirst same
    exact ⟨left, after, blankLeft, last, by rw [whole, append_assoc]⟩
  · rintro ⟨first, after, blankFirst, last, rfl⟩
    refine ⟨before ++ first, after, ?_, last, ?_⟩
    · rw [blank_append, space, blankFirst]
      rfl
    · simp only [append_assoc]

/-- A text that begins with a brace spells an object, with nothing before it. -/
theorem Spells.of_opens   (spells : Spells format value text)
    (opens : text.toList.head? = some '{') :
    ∃ after, blank after = true ∧ text = value.text format ++ after ∧ value.kind = .object := by
  obtain ⟨before, after, space, last, rfl⟩ := spells
  obtain ⟨_, _, written, kind⟩ := head_chars format value
  cases front : before.toList with
  | nil =>
    have empty : before = "" := toList_eq_nil_iff.mp front
    subst empty
    simp only [empty_append, toList_append, Json.text, toList_ofList, written,
      List.cons_append, List.head?_cons, Option.some.injEq] at opens
    rw [opens] at kind
    exact ⟨after, last, empty_append ▸ rfl, kind.symm⟩
  | cons first =>
    simp only [toList_append, front, List.cons_append, List.head?_cons, Option.some.injEq]
      at opens
    have inside : isBlank first = true :=
      List.all_eq_true.mp space first (front ▸ List.mem_cons_self)
    rw [opens] at inside
    cases inside

open Classical in
/-- The value that a text spells. -/
noncomputable def canonicalRead (format : NumberFormat Number) (limit : Nat) (text : String) :
    Option (Value Number) :=
  if spelled : ∃ value : Value Number, value.json.depth < limit ∧ Spells format value.json text then
    some spelled.choose
  else none

theorem canonicalRead_eq_some_iff (injective : Function.Injective format.text)
    {value : Value Number} : canonicalRead format limit text = some value ↔
      value.json.depth < limit ∧ Spells format value.json text := by
  rw [canonicalRead]
  constructor
  · intro read
    split at read
    · grind
    · cases read
  · intro spells
    have spelled : ∃ value : Value Number, value.json.depth < limit ∧ Spells format value.json text :=
      ⟨value, spells⟩
    rw [dif_pos spelled]
    exact congrArg some (Value.ext (spelled.choose_spec.2.unique injective spells.2))

theorem spells_text (value : Json Number) : Spells format value (value.text format) :=
  ⟨"", "", rfl, rfl, by simp⟩

theorem canonicalRead_number (injective : Function.Injective format.text) (positive : 0 < limit)
    (number : Number) : canonicalRead format limit (format.text number) =
      some ⟨.number number, distinct_number number⟩ := by
  have own : (Json.number number).text format = format.text number := by
    rw [Json.text, chars, ofList_toList]
  exact (canonicalRead_eq_some_iff injective).mpr ⟨positive, own ▸ spells_text _⟩

/-- The reader that accepts the compact texts, with white space around them. -/
noncomputable def canonical (injective : Function.Injective format.text) (limit : Nat) :
    Reader format limit where
  read := canonicalRead format limit
  written value := by
    rw [canonicalRead_eq_some_iff injective]
    constructor
    · rintro ⟨shallow, -⟩
      exact ⟨shallow, fun number _ => canonicalRead_number injective (Nat.zero_lt_of_lt shallow) number⟩
    · exact fun ⟨shallow, _⟩ => ⟨shallow, spells_text _⟩
  empty := by
    rw [Option.eq_none_iff_forall_ne_some]
    intro value read
    obtain ⟨-, before, after, -, -, same⟩ := (canonicalRead_eq_some_iff injective).mp read
    obtain ⟨_, rest, written, -⟩ := head_chars format value.json
    have lists := congrArg String.toList same
    simp [Json.text, written] at lists
  leading before text space := by
    apply Option.ext
    intro value
    rw [canonicalRead_eq_some_iff injective, canonicalRead_eq_some_iff injective,
      spells_append_iff space]
  trailing text after value space read := by
    obtain ⟨shallow, before, last, blankBefore, blankLast, rfl⟩ :=
      (canonicalRead_eq_some_iff injective).mp read
    refine (canonicalRead_eq_some_iff injective).mpr ⟨shallow, before, last ++ after, blankBefore, ?_, ?_⟩
    · rw [blank_append, blankLast, space]
      rfl
    · simp only [String.append_assoc]
  delimited text rest opens first second := by
    obtain ⟨_, read⟩ := Option.isSome_iff_exists.mp first
    obtain ⟨_, readOther⟩ := Option.isSome_iff_exists.mp second
    obtain ⟨-, spells⟩ := (canonicalRead_eq_some_iff injective).mp read
    obtain ⟨-, spellsOther⟩ := (canonicalRead_eq_some_iff injective).mp readOther
    obtain ⟨_, _, rfl, object⟩ := spells.of_opens opens
    obtain ⟨_, space', same, -⟩ := spellsOther.of_opens (by
      rw [String.toList_append, List.head?_append, opens, Option.some_or])
    rw [String.append_assoc] at same
    obtain ⟨-, rests⟩ := append_text_inj injective (fun number => by simp_all)
      same
    rw [← rests, blank_append, Bool.and_eq_true_iff] at space'
    exact space'.2

end Canonical

/-- Natural numbers in decimal digits. -/
def decimal : NumberFormat Nat where
  text := toString
  filled number empty := by simp_all
  numeric number ch inside := by
    have digit : ch ∈ Nat.toDigits 10 number := by simpa using inside
    rw [isNumeric, Nat.isDigit_of_mem_toDigits (by decide) (by decide) digit, Bool.true_or]

theorem decimal_injective : Function.Injective decimal.text := by
  intro first second same
  have read := congrArg (parseUnsigned (max first second + 1)) same
  change parseUnsigned _ (toString first) = parseUnsigned _ (toString second) at read
  rw [parseUnsigned_toString (by omega), parseUnsigned_toString (by omega)] at read
  exact Option.some.inj read

end Json

end Roze.Library
