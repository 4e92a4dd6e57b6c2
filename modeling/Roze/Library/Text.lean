import Mathlib

/-!
# Operations on texts

White space is the Unicode property, as the standard library of the source language has
it; case is changed for the letters of ASCII only.
-/

namespace Roze.Library

open List

/-- The characters with the Unicode property `White_Space`. -/
def isWhitespace (ch : Char) : Bool :=
  let code := ch.toNat
  (9 ≤ code && code ≤ 13) || (0x2000 ≤ code && code ≤ 0x200A) ||
    [0x20, 0x85, 0xA0, 0x1680, 0x2028, 0x2029, 0x202F, 0x205F, 0x3000].contains code

/-- The text without white space at its ends. -/
def trim (text : String) : String :=
  String.ofList ((text.toList.dropWhile isWhitespace).rdropWhile isWhitespace)

/-- The text with the ASCII capitals made small. -/
def toAsciiLowercase (text : String) : String := String.ofList (text.toList.map Char.toLower)

def toAsciiUppercase (text : String) : String := String.ofList (text.toList.map Char.toUpper)

variable {ch : Char}

/-- What holds of every ASCII character, code by code. -/
theorem forall_ascii (property : Char → Prop) (all : ∀ code < 128, property (Char.ofNat code))
    (small : ch.toNat < 128) : property ch := by
  have own := all ch.toNat small
  rwa [Char.ofNat_toNat] at own

/-- Letters and digits are ASCII characters. -/
theorem toNat_lt_of_isAlphanum (alphanumeric : ch.isAlphanum = true) : ch.toNat < 128 := by
  simp only [Char.isAlphanum, Char.isAlpha, Char.isUpper, Char.isLower, Char.isDigit, Bool.or_eq_true,
    Bool.and_eq_true, decide_eq_true_eq, UInt32.le_iff_toNat_le, ge_iff_le] at alphanumeric
  have own : ch.toNat = ch.val.toNat := rfl
  grind

/-- The texts before and after the first occurrence of a character. -/
def splitOnce (separator : Char) (text : String) : Option (String × String) :=
  match text.toList.dropWhile (· ≠ separator) with
  | [] => none
  | _ :: rest => some (String.ofList (text.toList.takeWhile (· ≠ separator)), String.ofList rest)

theorem toAsciiLowercase_append (first second : String) :
    toAsciiLowercase (first ++ second) = toAsciiLowercase first ++ toAsciiLowercase second := by
  simp [toAsciiLowercase, String.ofList_append]

theorem toAsciiLowercase_idem (text : String) :
    toAsciiLowercase (toAsciiLowercase text) = toAsciiLowercase text := by
  have small : Char.toLower ∘ Char.toLower = Char.toLower := by
    funext ch
    simp
  rw [toAsciiLowercase, toAsciiLowercase, String.toList_ofList, map_map, small]

/-- The texts differ at most in the case of ASCII letters. -/
def eqIgnoreAsciiCase (first second : String) : Bool :=
  toAsciiLowercase first == toAsciiLowercase second

def beginsWith (beginning text : String) : Bool := beginning.toList.isPrefixOf text.toList

/-- What follows a given beginning of a text. -/
def stripBeginning (beginning text : String) : Option String :=
  (text.toList.dropPrefix? beginning.toList).map String.ofList

variable {text : String}

theorem stripBeginning_eq_some_iff {beginning rest : String} :
    stripBeginning beginning text = some rest ↔ text = beginning ++ rest := by
  rw [stripBeginning, Option.map_eq_some_iff]
  constructor
  · rintro ⟨_, dropped, rfl⟩
    obtain ⟨_, whole, same⟩ := dropPrefix?_eq_some_iff.mp dropped
    rw [← String.ofList_toList (s := text), whole, eq_of_beq same, String.ofList_append,
      String.ofList_toList]
  · rintro rfl
    refine ⟨rest.toList, ?_, String.ofList_toList⟩
    exact dropPrefix?_eq_some_iff.mpr ⟨beginning.toList, String.toList_append, beq_self_eq_true _⟩

/-- The number below a bound that some decimal digits write. -/
def parseDigits (bound : Nat) (digits : List Char) : Option Nat :=
  if digits.isEmpty || !digits.all Char.isDigit then none
  else if Nat.ofDigitChars 10 digits 0 < bound then some (Nat.ofDigitChars 10 digits 0)
  else none

/-- The number below a bound that a text writes in decimal digits, with or without a plus
sign. -/
def parseUnsigned (bound : Nat) (text : String) : Option Nat :=
  match text.toList with
  | '+' :: digits => parseDigits bound digits
  | digits => parseDigits bound digits

variable {value : Nat}

theorem parseDigits_toDigits {bound : Nat} (within : value < bound) :
    parseDigits bound (Nat.toDigits 10 value) = some value := by
  have digits : ∀ ch ∈ Nat.toDigits 10 value, ch.isDigit = true :=
    fun ch member => Nat.isDigit_of_mem_toDigits (by decide) (by decide) member
  rw [parseDigits, Nat.ofDigitChars_ten_toDigits, if_pos within, if_neg]
  simp_all

/-- The digits of a number are read back. -/
theorem parseUnsigned_toString {bound : Nat} (within : value < bound) :
    parseUnsigned bound (toString value) = some value := by
  have written : (toString value).toList = Nat.toDigits 10 value := by simp
  rw [parseUnsigned, written]
  split
  · rename_i signed
    have sign : '+' ∈ Nat.toDigits 10 value := signed ▸ mem_cons_self
    have digit := Nat.isDigit_of_mem_toDigits (by decide) (by decide) sign
    contradiction
  · exact parseDigits_toDigits within

/-- The 64-bit number that a text writes in decimal digits, with or without a sign. -/
def parseSigned64 (text : String) : Option Int :=
  match text.toList with
  | '-' :: digits => (parseDigits (2 ^ 63 + 1) digits).map (fun value => -value)
  | _ => (parseUnsigned (2 ^ 63) text).map Int.ofNat

theorem parseSigned64_toString (within : value < 2 ^ 63) :
    parseSigned64 (toString value) = some (value : Int) := by
  have written : (toString value).toList = Nat.toDigits 10 value := by simp
  rw [parseSigned64]
  split
  · rename_i signed
    have sign : '-' ∈ Nat.toDigits 10 value := written ▸ signed ▸ mem_cons_self
    have digit := Nat.isDigit_of_mem_toDigits (by decide) (by decide) sign
    contradiction
  · rw [parseUnsigned_toString within]
    rfl

/-- The text without any of a character at its ends. -/
def trimMatches (ch : Char) (text : String) : String :=
  String.ofList ((text.toList.dropWhile (· == ch)).rdropWhile (· == ch))

/-- The parts of a text between the occurrences of a character. -/
def splitParts (separator : Char) (text : String) : List String :=
  (text.toList.splitOn separator).map String.ofList

/-- The parts of two texts with a separator between them are those of both. -/
theorem splitParts_append (separator : Char) (front back : List Char) :
    splitParts separator (String.ofList (front ++ separator :: back)) =
      splitParts separator (String.ofList front) ++ splitParts separator (String.ofList back) := by
  simp only [splitParts, String.toList_ofList, splitOn_append_cons_self, map_append]

theorem splitParts_ne_nil (separator : Char) (text : String) : splitParts separator text ≠ [] := by
  intro none
  exact splitOn_ne_nil _ _ (map_eq_nil_iff.mp none)

/-- Texts one after another, with a separator between them. -/
def joinParts (separator : String) (parts : List String) : String :=
  String.ofList (separator.toList.intercalate (parts.map String.toList))

/-- Texts without the separator are the parts of what they are joined to. -/
theorem splitParts_joinParts {separator : Char} {parts : List String}
    (single : text.toList = [separator]) (nonempty : parts ≠ [])
    (free : ∀ part ∈ parts, separator ∉ part.toList) :
    splitParts separator (joinParts text parts) = parts := by
  have plain : ∀ chars ∈ parts.map String.toList, separator ∉ chars := by simp_all
  rw [splitParts, joinParts, String.toList_ofList, single,
    splitOn_intercalate separator plain (by simpa using nonempty), map_map]
  simp

/-- The entries of a text that lists them with commas, without the white space around
them. A text without characters has no entry. -/
def listEntries (text : String) : List String :=
  if text.isEmpty then [] else (splitParts ',' text).map trim

/-- A text that can be an entry of a list: some characters, none a comma or white space. -/
def isEntry (text : String) : Bool :=
  !text.isEmpty && text.toList.all (fun ch => !isWhitespace ch && ch != ',')

/-- A text without white space. -/
theorem trim_of_solid (solid : ∀ ch ∈ text.toList, isWhitespace ch = false) : trim text = text := by
  have keeps (chars : List Char) (same : ∀ ch ∈ chars, isWhitespace ch = false) :
      chars.dropWhile isWhitespace = chars := by simp_all
  rw [trim, keeps _ solid, List.rdropWhile, keeps _ (by simpa using solid), reverse_reverse,
    String.ofList_toList]

/-- The characters of a token besides letters and digits. -/
def tokenMarks : String := "!#$%&'*+-.^_`|~"

def tokenChar (ch : Char) : Bool := ch.isAlphanum || tokenMarks.toList.contains ch

/-- A token, as methods and the names of headers are. -/
def isToken (text : String) : Bool := !text.isEmpty && text.toList.all tokenChar

theorem tokenChar_ascii (token : tokenChar ch = true) : ch.toNat < 128 := by
  rcases Bool.or_eq_true_iff.mp token with alphanumeric | mark
  · exact toNat_lt_of_isAlphanum alphanumeric
  · have marks : tokenMarks.toList.all (fun ch => ch.toNat < 128) = true := by decide
    simp_all

/-- A token can be listed. -/
theorem isEntry_of_isToken (token : isToken text = true) : isEntry text = true := by
  obtain ⟨filled, characters⟩ := Bool.and_eq_true_iff.mp token
  refine Bool.and_eq_true_iff.mpr ⟨filled, all_eq_true.mpr fun ch member => ?_⟩
  have own := all_eq_true.mp characters ch member
  exact forall_ascii (fun ch => tokenChar ch = true → (!isWhitespace ch && ch != ',') = true)
    (by decide +kernel) (tokenChar_ascii own) own

theorem trim_entry (entry : isEntry text = true) : trim text = text := by
  apply trim_of_solid
  intro ch member
  have each := all_eq_true.mp (Bool.and_eq_true_iff.mp entry).2 ch member
  simp_all

/-- A text that neither begins nor ends with white space. -/
theorem trim_of_ends {first last : Char} (begins : text.toList.head? = some first)
    (ends : text.toList.getLast? = some last) (solid : isWhitespace first = false)
    (solid' : isWhitespace last = false) : trim text = text := by
  have front : text.toList.dropWhile isWhitespace = text.toList := by
    cases chars : text.toList with
    | nil => rfl
    | cons => simp_all
  have back : text.toList.reverse.dropWhile isWhitespace = text.toList.reverse := by
    rw [getLast?_eq_head?_reverse] at ends
    cases chars : text.toList.reverse with
    | nil => rfl
    | cons => simp_all
  rw [trim, front, List.rdropWhile, back, reverse_reverse, String.ofList_toList]

theorem trim_ne_empty (member : ch ∈ text.toList) (solid : isWhitespace ch = false) :
    trim text ≠ "" := by
  intro empty
  have none : (text.toList.dropWhile isWhitespace).rdropWhile isWhitespace = [] := by
    have chars := congrArg String.toList empty
    rwa [trim, String.toList_ofList, String.toList_empty] at chars
  have split : text.toList.takeWhile isWhitespace ++ text.toList.dropWhile isWhitespace = text.toList :=
    takeWhile_append_dropWhile
  rw [← split, mem_append] at member
  have blank : isWhitespace ch = true := by
    rcases member with front | back
    · exact mem_takeWhile_imp front
    · simp_all
  simp_all

/-- A blank at the front of a list does not change its entries. -/
theorem map_trim_splitParts_blank (chars : List Char) :
    (splitParts ',' (String.ofList (' ' :: chars))).map trim =
      (splitParts ',' (String.ofList chars)).map trim := by
  have blank : isWhitespace ' ' = true := by decide
  have front (part : List Char) : trim (String.ofList (' ' :: part)) = trim (String.ofList part) := by
    simp [trim, blank]
  simp only [splitParts, String.toList_ofList, splitOn_cons_eq_if_modifyHead]
  rw [if_neg (by decide)]
  obtain ⟨_, _, split⟩ := exists_cons_of_ne_nil (splitOn_ne_nil ',' chars)
  simp_all

/-- An entry has one part. -/
theorem splitParts_entry (entry : isEntry text = true) : splitParts ',' text = [text] := by
  have solid : ',' ∉ text.toList := by
    intro member
    have each := all_eq_true.mp (Bool.and_eq_true_iff.mp entry).2 _ member
    simp at each
  simp [splitParts, splitOn_eq_singleton solid]

theorem map_trim_splitParts_join (first : String) (rest : List String)
    (entries : ∀ part ∈ first :: rest, isEntry part = true) :
    (splitParts ',' (joinParts ", " (first :: rest))).map trim = first :: rest := by
  have entry := entries first mem_cons_self
  induction rest generalizing first with
  | nil => simp [joinParts, splitParts_entry entry, trim_entry entry]
  | cons second rest ih =>
    have joined : joinParts ", " (first :: second :: rest) =
        String.ofList (first.toList ++ ',' ::
          (' ' :: (joinParts ", " (second :: rest)).toList)) := by
      simp [joinParts]
    have others : ∀ part ∈ second :: rest, isEntry part = true :=
      fun part member => entries part (mem_cons_of_mem first member)
    have later := ih second others (others second mem_cons_self)
    rw [joined, splitParts_append, map_append, map_trim_splitParts_blank,
      String.ofList_toList, String.ofList_toList, later, splitParts_entry entry]
    simp [trim_entry entry]

/-- The entries of joined texts are the texts. -/
theorem listEntries_join {parts : List String} (entries : ∀ part ∈ parts, isEntry part = true) :
    listEntries (joinParts ", " parts) = parts := by
  cases parts with
  | nil => rfl
  | cons first rest =>
    have split := map_trim_splitParts_join first rest entries
    by_cases empty : joinParts ", " (first :: rest) = ""
    · -- the text without characters has one part, which is no entry
      rw [empty] at split
      have blank : first = "" := (List.cons.inj split).1.symm
      have entry := entries first mem_cons_self
      rw [blank] at entry
      cases entry
    · rw [listEntries, if_neg (by simpa using empty), split]

/-! ## Lists between commas without blank entries -/

/-- The entries of a list between commas that are not blank, without the white space around
them. -/
def listItems (text : String) : List String :=
  ((splitParts ',' text).map trim).filter (fun part => !part.isEmpty)

/-- A text that can be an item: not empty, without commas and without white space at its
ends. -/
def isItem (text : String) : Bool :=
  !text.isEmpty && !text.toList.contains ',' && trim text == text

theorem trim_chars_subset (text : String) : (trim text).toList ⊆ text.toList := by
  rw [trim, String.toList_ofList]
  have front := rdropWhile_prefix isWhitespace (text.toList.dropWhile isWhitespace)
  exact fun ch member => (dropWhile_sublist _).subset (front.subset member)

theorem trim_trim (text : String) : trim (trim text) = trim text := by
  have front : ((text.toList.dropWhile isWhitespace).rdropWhile isWhitespace).dropWhile isWhitespace =
      (text.toList.dropWhile isWhitespace).rdropWhile isWhitespace := by
    obtain ⟨_, whole⟩ := rdropWhile_prefix isWhitespace (text.toList.dropWhile isWhitespace)
    cases trimmed : (text.toList.dropWhile isWhitespace).rdropWhile isWhitespace with
    | nil => rfl
    | cons first =>
      -- the first character that is left is the first one of the text that is no white space
      have head := head?_dropWhile_not isWhitespace text.toList
      rw [← whole, trimmed] at head
      exact dropWhile_cons_of_neg (by simpa using head)
  rw [trim, trim, String.toList_ofList, front, rdropWhile_idempotent]

/-- A part without the separator ends where the other side has its first one, or the other side goes
on after it. -/
theorem append_separator_cases {Symbol : Type*} {separator : Symbol} {part rest other last : List Symbol}
    (plain : separator ∉ part) (same : part ++ separator :: rest = other ++ separator :: last) :
    (other = part ∧ rest = last) ∨
      ∃ middle, other = part ++ separator :: middle ∧ rest = middle ++ separator :: last := by
  rcases append_eq_append_iff.mp same with ⟨more, whole, left⟩ | ⟨more, whole, left⟩
  · cases more with
    | nil => simp_all
    | cons first middle => simp_all
  · cases more with
    | nil | cons => simp_all

/-- No part has the separator. -/
theorem separator_notMem_splitOn {Symbol : Type*} [DecidableEq Symbol] {separator : Symbol}
    {symbols part : List Symbol} (member : part ∈ symbols.splitOn separator) : separator ∉ part := by
  induction symbols generalizing part with
  | nil => simp_all
  | cons first rest ih =>
    rw [splitOn_cons_eq_if_modifyHead] at member
    split at member
    · grind
    · rename_i other
      obtain ⟨head, _, split⟩ := exists_cons_of_ne_nil (splitOn_ne_nil separator rest)
      rw [split, modifyHead_cons] at member
      rw [split] at ih
      rcases mem_cons.mp member with rfl | later
      · grind
      · simp_all

theorem isItem_of_mem_listItems {part : String} (member : part ∈ listItems text) :
    isItem part = true := by
  obtain ⟨listed, filled⟩ := mem_filter.mp member
  obtain ⟨_, split, rfl⟩ := mem_map.mp listed
  obtain ⟨chars, between, rfl⟩ := mem_map.mp split
  have free : ',' ∉ (trim (String.ofList chars)).toList := by
    intro inside
    have comma := trim_chars_subset _ inside
    rw [String.toList_ofList] at comma
    exact separator_notMem_splitOn between comma
  simp only [isItem, Bool.and_eq_true, beq_iff_eq]
  exact ⟨⟨filled, by simpa using free⟩, trim_trim _⟩

/-- Joined texts are read back exactly when each of them can be an item. -/
theorem listItems_join_iff (parts : List String) :
    (if parts.isEmpty then [] else listItems (joinParts "," parts)) = parts ↔
      ∀ part ∈ parts, isItem part = true := by
  cases parts with
  | nil => simp
  | cons first rest =>
    constructor
    · intro same part member
      rw [← same] at member
      exact isItem_of_mem_listItems member
    · intro items
      have parted : splitParts ',' (joinParts "," (first :: rest)) = first :: rest := by
        refine splitParts_joinParts rfl (by simp) fun part listed => ?_
        have item := items part listed
        simp only [isItem, Bool.and_eq_true] at item
        simpa using item.1.2
      rw [listItems, parted]
      have kept : (first :: rest).map trim = first :: rest := by
        conv_rhs => rw [← map_id (first :: rest)]
        apply map_congr_left
        intro part member
        have item := items part member
        simp only [isItem, Bool.and_eq_true, beq_iff_eq] at item
        exact item.2
      rw [kept]
      apply filter_eq_self.mpr
      intro part member
      have item := items part member
      simp only [isItem, Bool.and_eq_true] at item
      exact item.1.1

/-! ## Sequences with an end -/

/-- Items that are written one after another up to a closing symbol can be read back, when each of
them can and none begins with that symbol. What leads an item may depend on whether it is the
first one. -/
theorem sequence_inj {Item Symbol : Type*} (text : Bool → List Item → List Symbol)
    (lead : Bool → List Symbol) (code : Item → List Symbol) {close : Symbol}
    (nil : ∀ first, text first [] = [close])
    (cons : ∀ first item items, text first (item :: items) = lead first ++ (code item ++ text false items))
    (closes : ∀ first item more tail, close :: more ≠ lead first ++ (code item ++ tail))
    {items : List Item}
    (unique : ∀ item ∈ items, ∀ other later later' rest rest',
      code item ++ (text false later ++ rest) = code other ++ (text false later' ++ rest') →
        item = other ∧ text false later ++ rest = text false later' ++ rest')
    (first : Bool) {others : List Item} {rest rest' : List Symbol}
    (same : text first items ++ rest = text first others ++ rest') :
    items = others ∧ rest = rest' := by
  induction items generalizing first others with
  | nil =>
    cases others with
    | nil => exact ⟨rfl, append_cancel_left same⟩
    | cons other => grind
  | cons item items ih =>
    cases others with
    | nil => grind
    | cons other =>
      simp only [cons, append_assoc] at same
      obtain ⟨rfl, later⟩ := unique item mem_cons_self other _ _ _ _
        (append_cancel_left same)
      obtain ⟨rfl, last⟩ := ih (fun item inside => unique item (mem_cons_of_mem _ inside)) false
        later
      exact ⟨rfl, last⟩

/-! ## Hexadecimal digits -/

/-- A byte as two hexadecimal digits. -/
def hexByte (byte : UInt8) : List Char :=
  [Nat.digitChar (byte.toNat / 16), Nat.digitChar (byte.toNat % 16)]

/-- Bytes as hexadecimal digits, in small letters. -/
def hexText (bytes : List UInt8) : String := String.ofList (bytes.flatMap hexByte)

theorem digitChar_inj : ∀ first < 16, ∀ second < 16,
    Nat.digitChar first = Nat.digitChar second → first = second := by
  decide

theorem hexByte_inj {first second : UInt8} (same : hexByte first = hexByte second) :
    first = second := by
  have bound : first.toNat < 256 := first.toNat_lt
  have bound' : second.toNat < 256 := second.toNat_lt
  obtain ⟨high, rest⟩ := List.cons.inj same
  have low := head_eq_of_cons_eq rest
  have quotient := digitChar_inj _ (by omega) _ (by omega) high
  have remainder := digitChar_inj _ (by omega) _ (by omega) low
  apply UInt8.toNat_inj.mp
  omega

theorem flatMap_hexByte_inj {first second : List UInt8}
    (same : first.flatMap hexByte = second.flatMap hexByte) : first = second := by
  induction first generalizing second with
  | nil =>
    cases second with
    | nil => rfl
    | cons => cases same
  | cons byte rest ih =>
    cases second with
    | nil => cases same
    | cons =>
      obtain ⟨heads, tails⟩ := append_inj same rfl
      rw [hexByte_inj heads, ih tails]

/-! ## Bytes -/

theorem fromUTF8?_toByteArray (text : String) : String.fromUTF8? text.toByteArray = some text := by
  rw [String.fromUTF8?, dif_pos text.isValidUTF8]
  rfl

theorem toByteArray_of_fromUTF8? {bytes : ByteArray} (read : String.fromUTF8? bytes = some text) :
    bytes = text.toByteArray := by
  rw [String.fromUTF8?] at read
  split at read
  · cases read
    rfl
  · cases read

/-- When the bytes of a text begin with those of another text, the rest are the bytes of a text. -/
theorem exists_text_of_append {first whole : String} {rest : ByteArray}
    (split : first.toByteArray ++ rest = whole.toByteArray) :
    ∃ last : String, whole = first ++ last ∧ rest = last.toByteArray := by
  have encoded : first.toList.utf8Encode ++ rest = whole.toList.utf8Encode := by simp_all
  obtain ⟨chars, same⟩ := isPrefix_of_utf8Encode_append_eq_utf8Encode _ encoded
  have joined : whole = first ++ String.ofList chars :=
    String.toList_inj.mp (by simp_all)
  refine ⟨String.ofList chars, joined, ?_⟩
  rw [joined, String.toByteArray_append] at split
  exact (ByteArray.append_right_inj _).mp split

end Roze.Library
