import Roze.Library.Text

/-!
# Texts of named, length-prefixed fields

A field is framed as an opening symbol, its name, a separator, the size of its value in
decimal digits, the separator again and the value. Names do not contain the separator;
values are arbitrary. Since the size says where the value ends, a concatenation of
frames has one reading.

Fields may be optional. When the names of a fixed sequence of optional fields differ
from each other and from the name that follows, leaving some out loses nothing: the
fields that are there say which ones are missing.
-/

namespace Roze.Library

open List

/-- Two texts that end at their first separator. -/
theorem append_separator_inj {Symbol : Type*} {separator : Symbol}
    {first second rest rest' : List Symbol} (free : separator ∉ first) (free' : separator ∉ second)
    (same : first ++ separator :: rest = second ++ separator :: rest') :
    first = second ∧ rest = rest' := by
  rcases append_separator_cases free same with ⟨rfl, tails⟩ | ⟨middle, rfl, _⟩
  · exact ⟨rfl, tails⟩
  · simp_all

/-- Two texts of the same size at the start of one text. -/
theorem append_size_inj {Symbol : Type*} {weight : Symbol → Nat}
    (positive : ∀ symbol, 0 < weight symbol) {first second rest rest' : List Symbol}
    (size : (first.map weight).sum = (second.map weight).sum)
    (same : first ++ rest = second ++ rest') : first = second ∧ rest = rest' := by
  have nothing : ∀ more : List Symbol, (more.map weight).sum = 0 → more = [] := by
    rintro (_ | ⟨symbol, more⟩) empty
    · rfl
    · grind
  rcases append_eq_append_iff.mp same with ⟨more, rfl, rfl⟩ | ⟨more, rfl, rfl⟩ <;> simp_all

/-- Two concatenations of pieces of the same lengths. -/
theorem flatMap_eq_iff {Item Symbol : Type*} {first second : Item → List Symbol}
    (lengths : ∀ item, (first item).length = (second item).length) (items : List Item) :
    items.flatMap first = items.flatMap second ↔ ∀ item ∈ items, first item = second item := by
  induction items with
  | nil => simp
  | cons item rest ih =>
    rw [flatMap_cons, flatMap_cons, forall_mem_cons, ← ih]
    constructor
    · intro same
      exact append_inj same (lengths item)
    · simp_all

/-- The length of a text in bytes is the sum of those of its characters. -/
theorem utf8ByteSize_eq (text : String) :
    text.utf8ByteSize = (text.toList.map Char.utf8Size).sum := by
  have general : ∀ chars : List Char, String.utf8Len chars = (chars.map Char.utf8Size).sum := by
    intro chars
    induction chars with
    | nil => rfl
    | cons ch rest ih =>
      rw [String.utf8Len_cons, ih, map_cons, sum_cons, Nat.add_comm]
  have size := String.utf8ByteSize_ofList text.toList
  simp_all

theorem isDigit_colon : ':'.isDigit = false := by decide

/-- The symbols of a frame and the size of a value. -/
structure Framing where
  opening : Char
  separator : Char
  weight : Char → Nat
  separator_not_digit : separator.isDigit = false
  weight_pos : ∀ symbol, 0 < weight symbol

namespace Framing

variable (framing : Framing)

def size (value : List Char) : Nat := (value.map framing.weight).sum

def frame (field : List Char × List Char) : List Char :=
  framing.opening :: (field.1 ++ framing.separator ::
    (Nat.toDigits 10 (framing.size field.2) ++ framing.separator :: field.2))

def encode (fields : List (List Char × List Char)) : List Char := fields.flatMap framing.frame

variable {framing} {field field' : List Char × List Char} {rest rest' : List Char}

/-- The digits of a size do not contain the separator. -/
theorem separator_free (number : Nat) : framing.separator ∉ Nat.toDigits 10 number := by
  intro member
  have digit := Nat.isDigit_of_mem_toDigits (by decide) (le_refl 10) member
  rw [framing.separator_not_digit] at digit
  cases digit

/-- A value after its size and a separator can be read in one way. -/
theorem sized_inj {value value' : List Char}
    (same : Nat.toDigits 10 (framing.size value) ++ framing.separator :: (value ++ rest) =
      Nat.toDigits 10 (framing.size value') ++ framing.separator :: (value' ++ rest')) :
    value = value' ∧ rest = rest' := by
  obtain ⟨digits, afterDigits⟩ := append_separator_inj (separator_free _) (separator_free _) same
  have sizes := congrArg (fun digits => Nat.ofDigitChars 10 digits 0) digits
  simp only [Nat.ofDigitChars_ten_toDigits] at sizes
  exact append_size_inj framing.weight_pos sizes afterDigits

/-- A frame at the start of a text can be read in one way. -/
theorem frame_inj (free : framing.separator ∉ field.1) (free' : framing.separator ∉ field'.1)
    (same : framing.frame field ++ rest = framing.frame field' ++ rest') :
    field = field' ∧ rest = rest' := by
  simp only [frame, cons_append, append_assoc] at same
  obtain ⟨names, afterNames⟩ := append_separator_inj free free' (tail_eq_of_cons_eq same)
  obtain ⟨values, rests⟩ := sized_inj afterNames
  exact ⟨Prod.ext names values, rests⟩

/-- A concatenation of frames determines the fields. -/
theorem encode_inj {fields fields' : List (List Char × List Char)}
    (free : ∀ field ∈ fields, framing.separator ∉ field.1)
    (free' : ∀ field ∈ fields', framing.separator ∉ field.1)
    (same : framing.encode fields = framing.encode fields') : fields = fields' := by
  induction fields generalizing fields' with
  | nil =>
    cases fields' with
    | nil => rfl
    | cons => cases same
  | cons field rest ih =>
    cases fields' with
    | nil => cases same
    | cons field' =>
      obtain ⟨rfl, rests⟩ :=
        frame_inj (free field mem_cons_self) (free' field' mem_cons_self) same
      rw [ih (fun other member => free other (mem_cons_of_mem _ member))
        (fun other member => free' other (mem_cons_of_mem _ member)) rests]

end Framing

/-! ## Optional fields -/

section Optional

variable {Name Value : Type*}

/-- The fields that have a value. -/
def present (fields : List (Name × Option Value)) : List (Name × Value) :=
  fields.filterMap (fun field => field.2.map (fun value => (field.1, value)))

theorem present_append (first second : List (Name × Option Value)) :
    present (first ++ second) = present first ++ present second := filterMap_append

variable {fields : List (Name × Option Value)}

theorem name_of_mem_present {field : Name × Value} (member : field ∈ present fields) :
    field.1 ∈ fields.map Prod.fst := by
  obtain ⟨_, place, found⟩ := mem_filterMap.mp member
  obtain ⟨_, _, rfl⟩ := Option.map_eq_some_iff.mp found
  exact mem_map_of_mem place

/-- Of fields with distinct names, the one of a name is found by it. -/
theorem filter_present [DecidableEq Name] {name : Name} {value : Option Value}
    (distinct : (fields.map Prod.fst).Nodup) (member : (name, value) ∈ fields) :
    (present fields).filter (fun field => decide (field.1 = name)) =
      (value.map (fun value => (name, value))).toList := by
  have nowhere {others : List (Name × Option Value)} (absent : name ∉ others.map Prod.fst) :
      (present others).filter (fun field => decide (field.1 = name)) = [] := by
    apply filter_eq_nil_iff.mpr
    intro field place
    have named := name_of_mem_present place
    grind
  induction fields with
  | nil => cases member
  | cons field tail ih =>
    obtain ⟨fresh, tailDistinct⟩ := nodup_cons.mp distinct
    have unfolded : present (field :: tail) = present [field] ++ present tail :=
      present_append [field] tail
    rw [unfolded, filter_append]
    rcases mem_cons.mp member with rfl | later
    · rw [nowhere fresh, append_nil]
      cases value with
      | none => rfl
      | some => simp [present]
    · grind

/-- A field that is there where another sequence has a different name. -/
theorem present_ne {name : Name} {value : Value} {rest rest' : List (Name × Value)}
    (other : name ∉ fields.map Prod.fst) (follows : ∀ field ∈ rest'.head?, field.1 ≠ name) :
    (name, value) :: rest ≠ present fields ++ rest' := by
  intro same
  cases shown : present fields with
  | nil => grind
  | cons =>
    rw [shown, cons_append] at same
    have member : (name, value) ∈ present fields := by grind
    exact other (name_of_mem_present member)

/-- Optional fields with distinct names, which also differ from the name that follows, are
determined by those that are there. -/
theorem present_inj {fields' : List (Name × Option Value)} {rest rest' : List (Name × Value)}
    (same : present fields ++ rest = present fields' ++ rest')
    (names : fields.map Prod.fst = fields'.map Prod.fst) (distinct : (fields.map Prod.fst).Nodup)
    (follows : ∀ field ∈ rest.head?, field.1 ∉ fields.map Prod.fst)
    (follows' : ∀ field ∈ rest'.head?, field.1 ∉ fields.map Prod.fst) :
    fields = fields' ∧ rest = rest' := by
  induction fields generalizing fields' with
  | nil => simp_all
  | cons field tail ih =>
    cases fields' with
    | nil => cases names
    | cons field' tail' =>
      obtain ⟨name, value⟩ := field
      obtain ⟨_, value'⟩ := field'
      obtain ⟨rfl, tailNames⟩ := List.cons.inj names
      obtain ⟨fresh, tailDistinct⟩ := nodup_cons.mp distinct
      have later : ∀ {suffix : List (Name × Value)},
          (∀ field ∈ suffix.head?, field.1 ∉ ((name, value) :: tail).map Prod.fst) →
          (∀ field ∈ suffix.head?, field.1 ∉ tail.map Prod.fst) ∧
            ∀ field ∈ suffix.head?, field.1 ≠ name := by grind
      have tails : present tail ++ rest = present tail' ++ rest' → tail = tail' ∧ rest = rest' :=
        fun remainder => ih remainder tailNames tailDistinct (later follows).1
          (later follows').1
      cases value with
      | none =>
        cases value' with
        | none =>
          obtain ⟨rfl, rests⟩ := tails same
          exact ⟨rfl, rests⟩
        | some value' =>
          have unequal : (name, value') :: (present tail' ++ rest') ≠ present tail ++ rest :=
            present_ne fresh (later follows).2
          exact absurd same.symm unequal
      | some value =>
        cases value' with
        | none =>
          have unequal : (name, value) :: (present tail ++ rest) ≠ present tail' ++ rest' :=
            present_ne (tailNames ▸ fresh) (later follows').2
          exact absurd same unequal
        | some =>
          obtain ⟨fields, remainder⟩ := List.cons.inj same
          obtain ⟨rfl, rests⟩ := tails remainder
          grind

end Optional

end Roze.Library
