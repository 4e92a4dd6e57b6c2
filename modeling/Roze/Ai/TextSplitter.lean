import Roze.Library.Json
import Roze.Library.KeyedMap
import Roze.Library.MachineInteger

/-!
# Splitting a document into chunks

A splitter cuts a text into chunks of at most a number of characters, each of which begins with the
last characters of the one before it. Positions are `usize` values of 64 bits. No text has more
than `isize::MAX` bytes, which is why a position and the size of a chunk can be added.
-/

namespace Roze.Ai

open List Library

structure Document (Number Score : Type) where
  id : String
  content : String
  metadata : Entries String (Json Number)
  score : Option Score

/-- A splitter whose overlap is smaller than its chunks. -/
structure CharacterTextSplitter where
  maxChars : UInt64
  overlapChars : UInt64
  smaller : overlapChars < maxChars

namespace CharacterTextSplitter

def new (maxChars overlapChars : UInt64) : Except String CharacterTextSplitter :=
  if maxChars = 0 then .error "AI text splitter max_chars must be greater than zero"
  else if smaller : overlapChars < maxChars then .ok ⟨maxChars, overlapChars, smaller⟩
  else .error "AI text splitter overlap_chars must be smaller than max_chars"

variable {Number Score : Type} [NatCast Number]

def chunk (document : Document Number Score) (index : Nat) (characters : List Char) :
    Document Number Score where
  id := document.id ++ ":" ++ toString index
  content := String.ofList characters
  metadata := (document.metadata.put "source_document_id" (.string document.id)).put
    "chunk_index" (.number index)
  score := document.score

/-- The loop with the rounds it may take, from a number of chunks and a position on. It has no result
where the position of the end overflows or the rounds do not suffice. -/
def splitLoop (document : Document Number Score) (characters : List Char) (maxChars step : Nat) :
    Nat → Nat → Nat → Option (List (Document Number Score))
  | 0, _, _ => none
  | rounds + 1, index, start =>
      if start < characters.length then do
        let stop := min (← checkedSum (2 ^ 64) start maxChars) characters.length
        let piece := chunk document index (characters.extract start stop)
        if stop = characters.length then return [piece]
        let rest ← splitLoop document characters maxChars step rounds (index + 1)
          (min (start + step) (2 ^ 64 - 1))
        return piece :: rest
      else some []

def split (splitter : CharacterTextSplitter) (rounds : Nat) (document : Document Number Score) :
    Option (List (Document Number Score)) :=
  let characters := document.content.toList
  if characters.isEmpty then some []
  else do
    let step ← checkedDifference splitter.maxChars.toNat splitter.overlapChars.toNat
    splitLoop document characters splitter.maxChars.toNat step rounds 0 0

/-- A chunk begins with the last characters of the one before it and goes on. -/
def Continues (overlap : Nat) (previous next : List Char) : Prop :=
  next.take overlap = previous.drop (previous.length - overlap) ∧ overlap ≤ previous.length ∧
    overlap < next.length

def texts (chunks : List (Document Number Score)) : List (List Char) :=
  chunks.map (fun chunk => chunk.content.toList)

/-- The first chunk and the others without their overlap. -/
def joined (overlap : Nat) : List (List Char) → List Char
  | [] => []
  | first :: rest => first ++ rest.flatMap (drop overlap)

variable {document : Document Number Score} {characters : List Char} {maxChars overlap : Nat}

/-- Pieces whose positions differ by the step overlap, while text is left after the first. -/
theorem continues_pieces {start : Nat} (smaller : overlap < maxChars)
    (left : start + maxChars < characters.length) :
    Continues overlap ((characters.drop start).take maxChars)
      ((characters.drop (start + (maxChars - overlap))).take maxChars) := by
  have whole : ((characters.drop start).take maxChars).length = maxChars := by
    rw [length_take, length_drop]
    omega
  refine ⟨?_, ?_, ?_⟩
  · rw [whole, drop_take, drop_drop, take_take, min_eq_left smaller.le, Nat.sub_sub_self smaller.le]
  · omega
  · rw [length_take, length_drop]
    omega

/-- One round within the text; the position of the end does not overflow. -/
theorem splitLoop_round {start : Nat} (step rounds index : Nat) (inside : start < characters.length)
    (safe : start + maxChars < 2 ^ 64) :
    splitLoop document characters maxChars step (rounds + 1) index start =
      let piece := chunk document index ((characters.drop start).take maxChars)
      if characters.length ≤ start + maxChars then some [piece]
      else (splitLoop document characters maxChars step rounds (index + 1)
        (min (start + step) (2 ^ 64 - 1))).map (piece :: ·) := by
  have piece : characters.extract start (min (start + maxChars) characters.length) =
      (characters.drop start).take maxChars := by
    rw [extract_eq_take_drop, take_eq_take_iff, length_drop]
    omega
  have sum : checkedSum (2 ^ 64) start maxChars = some (start + maxChars) := if_pos safe
  simp only [splitLoop, if_pos inside, sum, Option.bind_eq_bind, Option.bind_some, piece,
    min_eq_right_iff, Option.pure_def, Option.map_eq_bind]
  rfl

/-- The loop from a position on: what the other chunks add to the first is the rest of the text. -/
theorem splitLoop_covers (document : Document Number Score) (smaller : overlap < maxChars)
    (fits : characters.length < 2 ^ 63) {rounds start : Nat} (index : Nat)
    (inside : start < characters.length) (safe : start + maxChars < 2 ^ 64)
    (enough : characters.length - start < rounds) :
    ∃ chunks rest, splitLoop document characters maxChars (maxChars - overlap) rounds index start =
        some chunks ∧
      texts chunks = (characters.drop start).take maxChars :: rest ∧
      (∀ text ∈ texts chunks, text.length ≤ maxChars) ∧ (texts chunks).IsChain (Continues overlap) ∧
      joined overlap (texts chunks) = characters.drop start := by
  induction rounds generalizing index start with
  | zero => omega
  | succ rounds ih =>
    have short : ((characters.drop start).take maxChars).length ≤ maxChars := length_take_le _ _
    rw [splitLoop_round _ _ _ inside safe]
    by_cases last : characters.length ≤ start + maxChars
    · have all : (characters.drop start).take maxChars = characters.drop start := by
        rw [take_eq_self_iff, length_drop]
        omega
      refine ⟨_, [], if_pos last, ?_⟩
      rw [all] at short ⊢
      simp [texts, chunk, joined]
      omega
    · have step : min (start + (maxChars - overlap)) (2 ^ 64 - 1) = start + (maxChars - overlap) := by
        omega
      obtain ⟨chunks, rest, found, first, sizes, chain, whole⟩ :=
        ih (index + 1) (by omega : start + (maxChars - overlap) < _) (by omega) (by omega)
      have continues := continues_pieces smaller (not_le.mp last)
      refine ⟨_, texts chunks, by rw [if_neg last, step, found]; rfl, ?_⟩
      have head : texts (chunk document index ((characters.drop start).take maxChars) :: chunks) =
          (characters.drop start).take maxChars :: texts chunks := by
        simp [texts, chunk]
      rw [head]
      refine ⟨rfl, forall_mem_cons.mpr ⟨short, sizes⟩, ?_, ?_⟩
      · grind
      · rw [first, joined] at whole
        rw [first, joined, flatMap_cons, ← drop_append_of_le_length continues.2.2.le, whole, drop_drop]
        have again : start + (maxChars - overlap) + overlap = start + maxChars := by omega
        rw [again, ← drop_drop, take_append_drop]

/-- Every document is split, whatever its text, into chunks of at most the given size that overlap as
asked for, each with something new, and that together are the text. -/
theorem split_covers (splitter : CharacterTextSplitter) (document : Document Number Score)
    (fits : document.content.length < 2 ^ 63) (more : Nat) :
    ∃ chunks, splitter.split (document.content.length + more + 1) document = some chunks ∧
      (∀ text ∈ texts chunks, text.length ≤ splitter.maxChars.toNat) ∧
      (texts chunks).IsChain (Continues splitter.overlapChars.toNat) ∧
      joined splitter.overlapChars.toNat (texts chunks) = document.content.toList := by
  have smaller := UInt64.lt_iff_toNat_lt.mp splitter.smaller
  have small := splitter.maxChars.toNat_lt
  have step : checkedDifference splitter.maxChars.toNat splitter.overlapChars.toNat =
      some (splitter.maxChars.toNat - splitter.overlapChars.toNat) := if_pos smaller.le
  rw [split, step]
  by_cases empty : document.content.toList = []
  · exact ⟨[], by rw [empty]; rfl, by simp [texts], by simp [texts], empty.symm⟩
  · have positive := length_pos_iff.mpr empty
    have count : document.content.toList.length = document.content.length := String.length_toList
    have enough : document.content.toList.length - 0 < document.content.length + more + 1 := by omega
    obtain ⟨chunks, _, found, -, sizes, chain, whole⟩ :=
      splitLoop_covers document smaller (by omega) 0 positive (by omega) enough
    refine ⟨chunks, ?_, sizes, chain, whole⟩
    rw [if_neg (by simpa using empty)]
    exact found

/-- Five characters in chunks of three that share one. -/
theorem split_covers_five :
    ∃ splitter chunks, new 3 1 = .ok splitter ∧
      splitter.split 6 (⟨"doc", "abcde", .empty _, none⟩ : Document Nat Nat) = some chunks ∧
      texts chunks = ["abc".toList, "cde".toList] ∧ joined 1 (texts chunks) = "abcde".toList := by
  obtain ⟨chunks, found, -, -, whole⟩ :=
    split_covers ⟨3, 1, by decide⟩ (⟨"doc", "abcde", .empty _, none⟩ : Document Nat Nat) (by decide) 0
  refine ⟨_, chunks, rfl, found, ?_, whole⟩
  cases found
  decide

end CharacterTextSplitter

end Roze.Ai
