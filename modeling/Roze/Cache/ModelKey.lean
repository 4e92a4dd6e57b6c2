import Roze.Library.Text

/-!
# Keys of cached models

A key is `model:v1:` and three segments with a colon between them. A segment goes through the UTF-8
bytes of a text: ASCII letters and digits, `_`, `-` and `.` stand for themselves, and any other byte
is written as a percent sign and two hexadecimal digits. So a colon ends a segment, and the bytes
can be read back.
-/

namespace Roze.Cache

open Roze.Library List

/-- The byte stands for itself. -/
def isPlain (byte : UInt8) : Bool :=
  (Char.ofNat byte.toNat).isAlphanum || "_-.".toList.contains (Char.ofNat byte.toNat)

def escapeByte (byte : UInt8) : List Char :=
  if isPlain byte then [Char.ofNat byte.toNat] else '%' :: (hexByte byte).map Char.toUpper

def escapeCacheSegment (value : String) : String :=
  String.ofList (value.toByteArray.data.toList.flatMap escapeByte)

def modelCacheKey {Value : Type} [ToString Value] (keyPrefix field : String) (value : Value) :
    String :=
  "model:v1:" ++ escapeCacheSegment keyPrefix ++ ":" ++ escapeCacheSegment field ++ ":" ++
    escapeCacheSegment (toString value)

/-- The characters of a key. -/
def isKeyChar (ch : Char) : Bool := ch.isAlphanum || "_-.%:".toList.contains ch

/-- An escaped byte has no colon. -/
theorem escapeByte_chars {byte : UInt8} {ch : Char} (member : ch ∈ escapeByte byte) :
    isKeyChar ch = true ∧ ch ≠ ':' := by
  rw [escapeByte] at member
  split at member
  · rename_i plain
    rw [mem_singleton.mp member]
    rw [isPlain, Bool.or_eq_true] at plain
    refine ⟨Bool.or_eq_true_iff.mpr (plain.imp_right fun mark => contains_iff_mem.mpr
      (mem_append_left ['%', ':'] (contains_iff_mem.mp mark))), ?_⟩
    intro colon
    simp_all
  · have digits : ∀ digit < 16, isKeyChar (Nat.digitChar digit).toUpper = true ∧
        (Nat.digitChar digit).toUpper ≠ ':' := by decide +kernel
    have bound : byte.toNat < 256 := byte.toNat_lt
    simp only [hexByte, map_cons, map_nil, mem_cons, not_mem_nil, or_false]
      at member
    rcases member with rfl | rfl | rfl
    · decide
    · exact digits _ (by omega)
    · exact digits _ (by omega)

/-- A byte can be read back: only an escaped one begins with a percent sign. -/
theorem escapeByte_inj {first second : UInt8} {rest rest' : List Char}
    (same : escapeByte first ++ rest = escapeByte second ++ rest') : first = second ∧ rest = rest' := by
  have codes : ∀ code < 256, (Char.ofNat code).toNat = code := by decide +kernel
  have digits : ∀ digit < 16, ∀ other < 16,
      (Nat.digitChar digit).toUpper = (Nat.digitChar other).toUpper → digit = other := by decide
  have bound : first.toNat < 256 := first.toNat_lt
  have bound' : second.toNat < 256 := second.toNat_lt
  have unmarked {byte : UInt8} (plain : isPlain byte = true) : Char.ofNat byte.toNat ≠ '%' := by
    intro mark
    rw [isPlain, mark] at plain
    exact absurd plain (by decide)
  simp only [escapeByte, hexByte, map_cons, map_nil] at same
  split at same
  · rename_i plain
    split at same
    · obtain ⟨head, tail⟩ := List.cons.inj same
      have code := congrArg Char.toNat head
      rw [codes _ bound, codes _ bound'] at code
      exact ⟨UInt8.toNat_inj.mp code, tail⟩
    · simp_all
  · split at same
    · grind
    · obtain ⟨high, later⟩ := List.cons.inj (List.cons.inj same).2
      obtain ⟨low, tail⟩ := List.cons.inj later
      have quotient := digits _ (by omega) _ (by omega) high
      have remainder := digits _ (by omega) _ (by omega) low
      exact ⟨UInt8.toNat_inj.mp (by omega), tail⟩

/-- A segment ends at the colon and says what its text was. -/
theorem escapeCacheSegment_inj {first second : String} {rest rest' : List Char}
    (same : (escapeCacheSegment first).toList ++ ':' :: rest =
      (escapeCacheSegment second).toList ++ ':' :: rest') : first = second ∧ rest = rest' := by
  have opens (byte : UInt8) (more tail : List Char) : ':' :: more ≠ [] ++ (escapeByte byte ++ tail) := by
    obtain ⟨ch, chars, written⟩ : ∃ ch chars, escapeByte byte = ch :: chars := by
      rw [escapeByte]
      split <;> exact ⟨_, _, rfl⟩
    have other : ch ≠ ':' := (@escapeByte_chars byte ch (written ▸ mem_cons_self)).2
    grind
  simp only [escapeCacheSegment, String.toList_ofList] at same
  obtain ⟨bytes, last⟩ := sequence_inj (fun _ bytes => bytes.flatMap escapeByte ++ [':'])
    (fun _ => []) escapeByte (fun _ => rfl) (fun _ byte bytes => by simp) (fun _ => opens)
    (fun _ _ _ _ _ _ _ same => escapeByte_inj same) true (by simpa using same)
  exact ⟨String.toByteArray_inj.mp (ByteArray.ext (Array.toList_inj.mp bytes)), last⟩

/-- Keys are equal only for the same prefix, field and text of the value, and consist of letters,
digits and five marks. -/
theorem modelCacheKey_faithful {First Second : Type} [ToString First] [ToString Second]
    (prefix₁ field₁ prefix₂ field₂ : String) (value₁ : First) (value₂ : Second) :
    (modelCacheKey prefix₁ field₁ value₁ = modelCacheKey prefix₂ field₂ value₂ ↔
        prefix₁ = prefix₂ ∧ field₁ = field₂ ∧ toString value₁ = toString value₂) ∧
      (modelCacheKey prefix₁ field₁ value₁).toList.all isKeyChar = true := by
  refine ⟨⟨fun same => ?_, ?_⟩, ?_⟩
  · have chars := congrArg (fun key => key.toList ++ [':']) same
    simp only [modelCacheKey, String.toList_append, append_assoc] at chars
    obtain ⟨rfl, later⟩ := escapeCacheSegment_inj (append_cancel_left chars)
    obtain ⟨rfl, last⟩ := escapeCacheSegment_inj later
    exact ⟨rfl, rfl, (escapeCacheSegment_inj last).1⟩
  · rintro ⟨rfl, rfl, text⟩
    rw [modelCacheKey, text]
    rfl
  · have segment (text : String) : (escapeCacheSegment text).toList.all isKeyChar = true := by
      rw [escapeCacheSegment, String.toList_ofList, all_eq_true]
      intro ch member
      obtain ⟨_, -, written⟩ := mem_flatMap.mp member
      exact (escapeByte_chars written).1
    have marks : "model:v1:".toList.all isKeyChar = true ∧ ":".toList.all isKeyChar = true := by
      decide +kernel
    simp only [modelCacheKey, String.toList_append, all_append, segment, marks, Bool.and_self]

example : modelCacheKey "user" "e:mail" "ä" = "model:v1:user:e%3Amail:%C3%A4" := by decide +kernel

end Roze.Cache
