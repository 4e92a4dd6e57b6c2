import Mathlib
import Roze.Library.Json
import Roze.Library.Text

/-!
# JSON texts

The compact text of a value: no white space between the tokens, and in strings only quotation
marks, backslashes and control characters are escaped. The text of a value says where it ends, so
that different values have different texts, whatever follows them. It consists of visible characters
when the strings and the names do, but for control characters.
-/

namespace Roze.Library

open List

namespace Json

variable {Number : Type}

/-! ## Parts -/

/-- Induction over a value and the values in it. -/
@[elab_as_elim]
theorem induct {motive : Json Number → Prop} (null : motive .null)
    (bool : ∀ value, motive (.bool value)) (number : ∀ value, motive (.number value))
    (string : ∀ text, motive (.string text))
    (array : ∀ items, (∀ item ∈ items, motive item) → motive (.array items))
    (object : ∀ members : List (String × Json Number),
      (∀ member ∈ members, motive member.2) → motive (.object members)) :
    ∀ value, motive value
  | .null => null
  | .bool value => bool value
  | .number value => number value
  | .string text => string text
  | .array items => array items fun item _ => induct null bool number string array object item
  | .object members => object members fun member inside =>
      have : sizeOf member.2 < 1 + sizeOf members := by
        have := sizeOf_lt_of_mem inside
        grind
      induct null bool number string array object member.2

/-- A value in a value. -/
inductive Within (part : Json Number) : Json Number → Prop
  | self : Within part part
  | item {items : List (Json Number)} {item : Json Number} (inside : item ∈ items)
      (within : Within part item) : Within part (.array items)
  | member {members : List (String × Json Number)} {member : String × Json Number}
      (inside : member ∈ members) (within : Within part member.2) : Within part (.object members)

section Within

variable {part : Json Number}

@[simp] theorem within_array_iff {items : List (Json Number)} :
    Within part (.array items) ↔ part = .array items ∨ ∃ item ∈ items, Within part item := by
  constructor
  · rintro (_ | ⟨inside, within⟩)
    · exact .inl rfl
    · exact .inr ⟨_, inside, within⟩
  · rintro (rfl | ⟨_, inside, within⟩)
    · exact .self
    · exact .item inside within

@[simp] theorem within_object_iff {members : List (String × Json Number)} :
    Within part (.object members) ↔
      part = .object members ∨ ∃ member ∈ members, Within part member.2 := by
  constructor
  · rintro (_ | _ | ⟨inside, within⟩)
    · exact .inl rfl
    · exact .inr ⟨_, inside, within⟩
  · rintro (rfl | ⟨_, inside, within⟩)
    · exact .self
    · exact .member inside within

@[simp] theorem within_null_iff : Within part .null ↔ part = .null :=
  ⟨fun within => by cases within; rfl, fun same => same ▸ .self⟩

@[simp] theorem within_bool_iff {value : Bool} : Within part (.bool value) ↔ part = .bool value :=
  ⟨fun within => by cases within; rfl, fun same => same ▸ .self⟩

@[simp] theorem within_number_iff {value : Number} :
    Within part (.number value) ↔ part = .number value :=
  ⟨fun within => by cases within; rfl, fun same => same ▸ .self⟩

@[simp] theorem within_string_iff {text : String} :
    Within part (.string text) ↔ part = .string text :=
  ⟨fun within => by cases within; rfl, fun same => same ▸ .self⟩

end Within

mutual

/-- How deep arrays and objects are nested. -/
def depth : Json Number → Nat
  | .array items => itemsDepth items + 1
  | .object members => membersDepth members + 1
  | _ => 0

/-- The deepest of some items. -/
def itemsDepth : List (Json Number) → Nat
  | [] => 0
  | item :: items => max item.depth (itemsDepth items)

/-- The deepest of some members. -/
def membersDepth : List (String × Json Number) → Nat
  | [] => 0
  | (_, item) :: members => max item.depth (membersDepth members)

end

/-- No object has two members of one name. -/
def Distinct (value : Json Number) : Prop :=
  ∀ members, Within (.object members) value → (members.map Prod.fst).Nodup

/-- The member of a name. -/
def get? (name : String) : Json Number → Option (Json Number)
  | .object members => (members.find? (fun member => member.1 == name)).map Prod.snd
  | _ => none

/-- A value as a map holds it. -/
structure Value (Number : Type) where
  json : Json Number
  distinct : json.Distinct

/-- A value is its JSON. -/
theorem Value.ext {first second : Value Number} (same : first.json = second.json) : first = second := by
  cases second
  cases same
  rfl

theorem distinct_number (number : Number) : (Json.number number).Distinct := nofun

/-! ## Texts -/

/-- The characters of numbers: digits, signs, the point and the letter of the exponent. -/
def isNumeric (ch : Char) : Bool := ch.isDigit || "+-.eE".toList.contains ch

/-- How numbers are written. -/
structure NumberFormat (Number : Type) where
  text : Number → String
  filled : ∀ number, text number ≠ ""
  numeric : ∀ number, ∀ ch ∈ (text number).toList, isNumeric ch = true

/-- A character of a string. -/
def escape (ch : Char) : List Char :=
  if ch = '"' then ['\\', '"']
  else if ch = '\\' then ['\\', '\\']
  else if ch.toNat = 8 then ['\\', 'b']
  else if ch.toNat = 9 then ['\\', 't']
  else if ch.toNat = 10 then ['\\', 'n']
  else if ch.toNat = 12 then ['\\', 'f']
  else if ch.toNat = 13 then ['\\', 'r']
  else if ch.toNat < 32 then ['\\', 'u', '0', '0'] ++ hexByte (UInt8.ofNat ch.toNat)
  else [ch]

/-- A text with its escapes, in quotes. -/
def stringChars (text : String) : List Char := '"' :: (text.toList.flatMap escape ++ ['"'])

mutual

/-- The characters of a value. -/
def chars (format : NumberFormat Number) : Json Number → List Char
  | .null => "null".toList
  | .bool true => "true".toList
  | .bool false => "false".toList
  | .number value => (format.text value).toList
  | .string text => stringChars text
  | .array items => '[' :: itemsChars format true items
  | .object members => '{' :: membersChars format true members

/-- The items from the first one, or a later one, to the closing bracket. -/
def itemsChars (format : NumberFormat Number) (first : Bool) : List (Json Number) → List Char
  | [] => [']']
  | item :: items => (if first then [] else [',']) ++ (chars format item ++ itemsChars format false items)

/-- The rest of an object, after some members. -/
def membersChars (format : NumberFormat Number) (first : Bool) :
    List (String × Json Number) → List Char
  | [] => ['}']
  | (name, item) :: members => (if first then [] else [',']) ++
      (stringChars name ++ ':' :: (chars format item ++ membersChars format false members))

end

/-- The compact text of a value. -/
def text (format : NumberFormat Number) (value : Json Number) : String :=
  String.ofList (value.chars format)

variable {ch : Char}

/-- The characters of numbers are ASCII. -/
theorem isNumeric_ascii (numeric : isNumeric ch = true) : ch.toNat < 128 := by
  rw [isNumeric, Bool.or_eq_true] at numeric
  rcases numeric with digit | mark
  · exact toNat_lt_of_isAlphanum (by rw [Char.isAlphanum, digit, Bool.or_true])
  · have marks : "+-.eE".toList.all (fun ch => ch.toNat < 128) = true := by decide
    grind

/-! ## A text says where it ends -/

/-- Read one character of a string. -/
def unescape : List Char → Option (Char × List Char)
  | '\\' :: '"' :: rest => some ('"', rest)
  | '\\' :: '\\' :: rest => some ('\\', rest)
  | '\\' :: 'b' :: rest => some (Char.ofNat 8, rest)
  | '\\' :: 't' :: rest => some (Char.ofNat 9, rest)
  | '\\' :: 'n' :: rest => some (Char.ofNat 10, rest)
  | '\\' :: 'f' :: rest => some (Char.ofNat 12, rest)
  | '\\' :: 'r' :: rest => some (Char.ofNat 13, rest)
  | '\\' :: 'u' :: '0' :: '0' :: high :: low :: rest =>
      ((List.range 32).find? (fun code => hexByte (UInt8.ofNat code) == [high, low])).map
        (fun code => (Char.ofNat code, rest))
  | ch :: rest => some (ch, rest)
  | [] => none

/-- An escaped character is read back. -/
theorem unescape_escape (ch : Char) (rest : List Char) :
    unescape (escape ch ++ rest) = some (ch, rest) := by
  by_cases control : ch.toNat < 32
  · have all : ∀ code < 32, unescape (escape (Char.ofNat code) ++ rest) =
        some (Char.ofNat code, rest) := by
      intro code small
      interval_cases code <;> rfl
    have own := all ch.toNat control
    rwa [Char.ofNat_toNat] at own
  · by_cases quote : ch = '"'
    · subst quote
      rfl
    by_cases backslash : ch = '\\'
    · subst backslash
      rfl
    have plain : escape ch = [ch] := by
      rw [escape, if_neg quote, if_neg backslash, if_neg (by omega), if_neg (by omega),
        if_neg (by omega), if_neg (by omega), if_neg (by omega), if_neg control]
    rw [plain, singleton_append, unescape]
    all_goals grind

/-- Escapes can be told apart in front of anything. -/
theorem escape_inj {first second : Char} {rest rest' : List Char}
    (same : escape first ++ rest = escape second ++ rest') : first = second ∧ rest = rest' := by
  have read := congrArg unescape same
  rw [unescape_escape, unescape_escape] at read
  simp_all

/-- No escape begins with a quote. -/
theorem head_escape (ch : Char) : ∃ first rest, escape ch = first :: rest ∧ first ≠ '"' := by
  by_cases quote : ch = '"'
  · exact ⟨'\\', ['"'], by rw [escape, if_pos quote], by decide⟩
  · rw [escape, if_neg quote]
    split_ifs
    all_goals first
      | exact ⟨_, _, rfl, quote⟩
      | exact ⟨_, _, rfl, by decide⟩

/-- A string says where it ends. -/
theorem stringChars_inj {first second : String} {rest rest' : List Char}
    (same : stringChars first ++ rest = stringChars second ++ rest') :
    first = second ∧ rest = rest' := by
  have opens (ch : Char) (more tail : List Char) : '"' :: more ≠ [] ++ (escape ch ++ tail) := by
    obtain ⟨_, _, escaped, other⟩ := head_escape ch
    grind
  obtain ⟨whole, last⟩ := sequence_inj (fun _ chars => chars.flatMap escape ++ ['"']) (fun _ => [])
    escape (fun _ => rfl) (fun _ ch chars => by simp) (fun _ => opens)
    (fun _ _ _ _ _ _ _ same => escape_inj same) true (List.cons.inj same).2
  exact ⟨String.toList_inj.mp whole, last⟩

/-- What the first character of a text tells about its value. -/
inductive Kind where
  | null
  | bool
  | number
  | string
  | array
  | object
  | none
deriving DecidableEq

/-- Which of the six kinds a value is. -/
def kind : Json Number → Kind
  | .null => .null
  | .bool _ => .bool
  | .number _ => .number
  | .string _ => .string
  | .array _ => .array
  | .object _ => .object

/-- The kind that a character begins. -/
def kindOf (ch : Char) : Kind :=
  if ch = 'n' then .null
  else if ch = 't' ∨ ch = 'f' then .bool
  else if ch = '"' then .string
  else if ch = '[' then .array
  else if ch = '{' then .object
  else if isNumeric ch then .number
  else .none

/-- A character of a number begins a number. -/
theorem kindOf_numeric (numeric : isNumeric ch = true) : kindOf ch = .number := by
  have other {mark : Char} (plain : isNumeric mark = false) : ch ≠ mark := by grind
  rw [kindOf, if_neg (other (by decide)), if_neg, if_neg (other (by decide)), if_neg (other (by decide)),
    if_neg (other (by decide)), if_pos numeric]
  rintro (same | same)
  · exact other (by decide) same
  · exact other (by decide) same

section Unique

variable {format : NumberFormat Number}

/-- The first character shows the kind. -/
theorem head_chars (format : NumberFormat Number) (value : Json Number) :
    ∃ ch rest, value.chars format = ch :: rest ∧ kindOf ch = value.kind := by
  cases value with
  | null => exact ⟨'n', _, rfl, rfl⟩
  | bool value => cases value <;> exact ⟨_, _, rfl, rfl⟩
  | number number =>
    cases written : (format.text number).toList with
    | nil => exact absurd (String.toList_eq_nil_iff.mp written) (format.filled number)
    | cons ch rest =>
      refine ⟨ch, rest, by rw [chars, written], kindOf_numeric ?_⟩
      exact format.numeric number ch (written ▸ mem_cons_self)
  | string => exact ⟨'"', _, rfl, rfl⟩
  | array => exact ⟨'[', _, by rw [chars], rfl⟩
  | object => exact ⟨'{', _, by rw [chars], rfl⟩

variable {rest rest' : List Char}

/-- Texts that begin alike are of one kind. -/
theorem kind_eq {first second : Json Number}
    (same : first.chars format ++ rest = second.chars format ++ rest') :
    first.kind = second.kind := by
  obtain ⟨_, _, left, kind⟩ := head_chars format first
  obtain ⟨_, _, right, kind'⟩ := head_chars format second
  simp_all

/-- No number goes on here. -/
def Free (rest : List Char) : Prop := ∀ ch ∈ rest.head?, isNumeric ch = false

/-- What is written after the text of a value is known from the whole. -/
def SelfDelimiting (format : NumberFormat Number) (value : Json Number) : Prop :=
  ∀ second rest rest', (value.kind = .number → Free rest ∧ Free rest') →
    value.chars format ++ rest = second.chars format ++ rest' → value = second ∧ rest = rest'

/-- What follows an item goes on with no number. -/
theorem free_itemsChars (items : List (Json Number)) (rest : List Char) :
    Free (itemsChars format false items ++ rest) := by
  cases items with
  | nil =>
    rintro ch ⟨⟩
    decide
  | cons =>
    rintro _ ⟨⟩
    decide

/-- What follows a member goes on with no number. -/
theorem free_membersChars (members : List (String × Json Number)) (rest : List Char) :
    Free (membersChars format false members ++ rest) := by
  cases members with
  | nil =>
    rintro ch ⟨⟩
    decide
  | cons =>
    rintro _ ⟨⟩
    decide

/-- Numbers can be told apart in front of a free rest. -/
theorem append_inj_of_numeric {first second : List Char}
    (numeric : ∀ ch ∈ first, isNumeric ch = true) (numeric' : ∀ ch ∈ second, isNumeric ch = true)
    (free : Free rest) (free' : Free rest') (same : first ++ rest = second ++ rest') :
    first = second ∧ rest = rest' := by
  have stops {rest : List Char} (free : Free rest) : rest.takeWhile isNumeric = [] := by
    cases rest with
    | nil => rfl
    | cons ch => rw [takeWhile_cons_of_neg (by simp [free ch rfl])]
  have taken := congrArg (List.takeWhile isNumeric) same
  rw [takeWhile_append_of_pos numeric, takeWhile_append_of_pos numeric', stops free,
    stops free', append_nil, append_nil] at taken
  simp_all

/-- Arrays of such items can be told apart. -/
theorem itemsChars_inj {items : List (Json Number)}
    (delimiting : ∀ item ∈ items, SelfDelimiting format item) {first : Bool}
    {others : List (Json Number)}
    (same : itemsChars format first items ++ rest = itemsChars format first others ++ rest') :
    items = others ∧ rest = rest' := by
  -- the closing bracket begins neither an item nor a separator
  have closes (first : Bool) (item : Json Number) (more tail : List Char) :
      ']' :: more ≠ ((if first then [] else [',']) ++ (item.chars format ++ tail)) := by
    obtain ⟨_, _, written, kind⟩ := head_chars format item
    rw [written]
    cases first with
    | true =>
      intro same
      rw [← (List.cons.inj same).1] at kind
      cases item <;> cases kind
    | false => simp
  refine sequence_inj (itemsChars format) _ (chars format) (fun _ => rfl) (fun _ _ _ => rfl) closes
    ?_ first same
  intro item inside other later later' rest rest' same
  exact delimiting item inside other _ _
    (fun _ => ⟨free_itemsChars later rest, free_itemsChars later' rest'⟩) same

/-- Objects of such members can be told apart. -/
theorem membersChars_inj {members : List (String × Json Number)}
    (delimiting : ∀ member ∈ members, SelfDelimiting format member.2) {first : Bool}
    {others : List (String × Json Number)}
    (same : membersChars format first members ++ rest = membersChars format first others ++ rest') :
    members = others ∧ rest = rest' := by
  refine sequence_inj (membersChars format) (fun first => if first then [] else [','])
    (fun member => stringChars member.1 ++ ':' :: member.2.chars format) (fun _ => rfl) ?_ ?_ ?_
    first same
  · rintro first ⟨name, item⟩ _
    simp only [membersChars, append_assoc, cons_append]
  · intro first member more tail
    cases first <;> exact fun same => absurd (List.cons.inj same).1 (by decide)
  · rintro ⟨name, item⟩ inside ⟨_, other⟩ later later' rest rest' same
    simp only [append_assoc, cons_append] at same
    obtain ⟨rfl, colon⟩ := stringChars_inj same
    obtain ⟨rfl, last⟩ := delimiting (name, item) inside other _ _
      (fun _ => ⟨free_membersChars later rest, free_membersChars later' rest'⟩) (List.cons.inj colon).2
    exact ⟨rfl, last⟩

/-- Every text says where it ends.

Proof: the first character tells the kind of the value. Items and members are separated by
characters at which no number goes on, and strings end at a quotation mark that is not escaped. -/
theorem selfDelimiting (injective : Function.Injective format.text) (value : Json Number) :
    SelfDelimiting format value := by
  induction value using induct with
  | null =>
    intro second rest rest' _ same
    cases second with
    | null => simp_all
    | _ => cases kind_eq same
  | bool value =>
    intro second rest rest' _ same
    cases second with
    | bool other =>
      cases value <;> cases other
      · simp_all
      · exact absurd (List.cons.inj same).1 (by decide)
      · exact absurd (List.cons.inj same).1 (by decide)
      · simp_all
    | _ => cases kind_eq same
  | number number =>
    intro second rest rest' free same
    cases second with
    | number other =>
      obtain ⟨ends, ends'⟩ := free rfl
      obtain ⟨written, last⟩ :=
        append_inj_of_numeric (format.numeric number) (format.numeric other) ends ends' same
      rw [injective (String.toList_inj.mp written)]
      exact ⟨rfl, last⟩
    | _ => cases kind_eq same
  | string =>
    intro second rest rest' _ same
    cases second with
    | string =>
      obtain ⟨rfl, last⟩ := stringChars_inj same
      exact ⟨rfl, last⟩
    | _ => cases kind_eq same
  | array items delimiting =>
    intro second rest rest' _ same
    cases second with
    | array =>
      obtain ⟨rfl, last⟩ := itemsChars_inj delimiting (List.cons.inj same).2
      exact ⟨rfl, last⟩
    | _ => cases kind_eq same
  | object members delimiting =>
    intro second rest rest' _ same
    cases second with
    | object =>
      obtain ⟨rfl, last⟩ := membersChars_inj delimiting (List.cons.inj same).2
      exact ⟨rfl, last⟩
    | _ => cases kind_eq same

end Unique

/-! ## Visible texts -/

/-- The character is visible ASCII. -/
def isVisible (ch : Char) : Bool := 32 ≤ ch.toNat && ch.toNat < 127

/-- No character beyond the visible ones; control characters are escaped. -/
def plainText (text : String) : Bool := text.toList.all (fun ch => ch.toNat < 127)

/-- All strings and names are plain. -/
structure Plain (value : Json Number) : Prop where
  strings : ∀ text, Within (.string text) value → plainText text = true
  names : ∀ members, Within (.object members) value → ∀ member ∈ members, plainText member.1 = true

/-- Numbers are visible. -/
theorem visible_of_numeric (numeric : isNumeric ch = true) : isVisible ch = true :=
  forall_ascii (fun ch => isNumeric ch = true → isVisible ch = true) (by decide +kernel)
    (isNumeric_ascii numeric) numeric

/-- An escape is visible, other than of DEL and beyond. -/
theorem all_visible_escape (ch : Char) : (escape ch).all isVisible = decide (ch.toNat < 127) := by
  by_cases ascii : ch.toNat < 128
  · exact forall_ascii (fun ch => (escape ch).all isVisible = decide (ch.toNat < 127))
      (by decide +kernel) ascii
  · have quote : ch ≠ '"' := by
      rintro rfl
      exact ascii (by decide)
    have backslash : ch ≠ '\\' := by
      rintro rfl
      exact ascii (by decide)
    rw [escape, if_neg quote, if_neg backslash, if_neg (by omega), if_neg (by omega),
      if_neg (by omega), if_neg (by omega), if_neg (by omega), if_neg (by omega)]
    simp only [all_cons, all_nil, isVisible, Bool.and_true]
    grind

/-- A text is visible if it is plain. -/
theorem all_visible_stringChars (text : String) :
    (stringChars text).all isVisible = plainText text := by
  have quote : isVisible '"' = true := by decide
  simp only [stringChars, all_cons, all_append, all_nil, quote, Bool.true_and,
    Bool.and_true, all_flatMap, all_visible_escape, plainText]

section Visible

variable {format : NumberFormat Number}

/-- An array is visible if its items are. -/
theorem all_visible_itemsChars (first : Bool) (items : List (Json Number)) :
    (itemsChars format first items).all isVisible =
      items.all (fun item => (item.chars format).all isVisible) := by
  induction items generalizing first with
  | nil => rfl
  | cons item items ih =>
    cases first <;> simp [itemsChars, ih, isVisible]

/-- An object is visible if its names are plain and its items visible. -/
theorem all_visible_membersChars (first : Bool) (members : List (String × Json Number)) :
    (membersChars format first members).all isVisible =
      members.all (fun member => plainText member.1 && (member.2.chars format).all isVisible) := by
  have comma : isVisible ',' = true := by decide
  have colon : isVisible ':' = true := by decide
  induction members generalizing first with
  | nil => rfl
  | cons member members ih =>
    cases first <;> simp only [membersChars, all_append, all_cons, all_nil,
      all_visible_stringChars, ih, comma, colon, Bool.true_and, Bool.and_true,
      Bool.and_assoc, Bool.false_eq_true, if_false, if_true]

/-- A text is visible when the strings and the names are plain. -/
theorem all_visible_chars_iff (format : NumberFormat Number) (value : Json Number) :
    (value.chars format).all isVisible = true ↔ value.Plain := by
  induction value using induct with
  | null => exact iff_of_true rfl ⟨nofun, nofun⟩
  | bool value => cases value <;> exact iff_of_true rfl ⟨nofun, nofun⟩
  | number number =>
    refine iff_of_true ?_ ⟨nofun, nofun⟩
    rw [chars, all_eq_true]
    intro ch inside
    exact visible_of_numeric (format.numeric number ch inside)
  | string text =>
    rw [chars, all_visible_stringChars]
    constructor
    · intro plain
      refine ⟨?_, nofun⟩
      simp_all
    · exact fun plain => plain.strings text .self
  | array items ih =>
    have bracket : isVisible '[' = true := by decide
    rw [chars, all_cons, bracket, Bool.true_and, all_visible_itemsChars, all_eq_true]
    constructor
    · intro visible
      have plain (item : Json Number) (inside : item ∈ items) : item.Plain :=
        (ih item inside).mp (visible item inside)
      constructor
      · rintro text (_ | ⟨inside, within⟩)
        exact (plain _ inside).strings text within
      · rintro members (_ | ⟨inside, within⟩)
        exact (plain _ inside).names members within
    · intro plain item inside
      exact (ih item inside).mpr
        ⟨fun text within => plain.strings text (.item inside within),
          fun members within => plain.names members (.item inside within)⟩
  | object members ih =>
    have brace : isVisible '{' = true := by decide
    rw [chars, all_cons, brace, Bool.true_and, all_visible_membersChars, all_eq_true]
    constructor
    · intro visible
      have plain (member : String × Json Number) (inside : member ∈ members) : member.2.Plain :=
        (ih member inside).mp (Bool.and_eq_true_iff.mp (visible member inside)).2
      constructor
      · rintro text (_ | _ | ⟨inside, within⟩)
        exact (plain _ inside).strings text within
      · rintro others (_ | _ | ⟨inside, within⟩)
        · grind
        · exact (plain _ inside).names others within
    · intro plain member inside
      refine Bool.and_eq_true_iff.mpr ⟨plain.names members .self member inside, ?_⟩
      exact (ih member inside).mpr
        ⟨fun text within => plain.strings text (.member inside within),
          fun others within => plain.names others (.member inside within)⟩

end Visible

end Json

end Roze.Library
