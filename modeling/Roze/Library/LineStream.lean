import Mathlib
import Roze.Library.Text

/-!
# Texts that arrive in pieces, one line each

A stream holds texts with a line end after each. It arrives in pieces that need not end where a line
ends. A receiver decodes each complete line; what is left after the last line end it tries to decode
as well, and takes it for a whole text if that succeeds. When no beginning of a text can be decoded,
the receiver decodes each text once and in order, however the stream is cut.
-/

namespace Roze.Library

open String

namespace LineStream

variable {Item Failure : Type} (decode : String → Except Failure (List Item))

/-- What the lines hold, up to the first one that cannot be decoded. -/
def takeLines : List String → List Item × Option Failure
  | [] => ([], none)
  | line :: lines =>
      if trim line = "" then takeLines lines
      else
        match decode (trim line) with
        | .error failure => ([], some failure)
        | .ok items => (items ++ (takeLines lines).1, (takeLines lines).2)

/-- What the collected text holds, and what is kept of it. -/
def take (buffer : String) : List Item × Except Failure String :=
  let lines := (splitParts '\n' buffer).dropLast
  let rest := (splitParts '\n' buffer).getLastD ""
  match takeLines decode lines with
  | (items, some failure) => (items, .error failure)
  | (items, none) =>
      match decode rest with
      | .ok more => (items ++ more, .ok "")
      | .error _ => (items, .ok rest)

/-- A text of the stream. No beginning of it can be decoded. -/
structure Frame where
  text : String
  items : List Item
  decodes : decode text = .ok items
  filled : text ≠ ""
  trimmed : trim text = text
  single : '\n' ∉ text.toList
  whole : ∀ first last, text = first ++ last → first ≠ "" → last ≠ "" →
    ∃ failure, decode first = .error failure

variable {decode}

def streamText (frames : List (Frame decode)) : String :=
  frames.foldr (fun frame rest => frame.text ++ ("\n" ++ rest)) ""

theorem streamText_cons (frame : Frame decode) (frames : List (Frame decode)) :
    streamText (frame :: frames) = frame.text ++ ("\n" ++ streamText frames) := rfl

theorem streamText_append (first second : List (Frame decode)) :
    streamText (first ++ second) = streamText first ++ streamText second := by
  induction first with
  | nil => exact empty_append.symm
  | cons frame first ih =>
    rw [List.cons_append, streamText_cons, ih, streamText_cons]
    simp only [append_assoc]

/-- Where a receiver stands that has kept a text, with what is still to come: between two texts, after
a text and before its line end, or inside a text. -/
inductive Standing : String → String → List (Frame decode) → Prop
  | between (rest : List (Frame decode)) : Standing "" (streamText rest) rest
  | unended (rest : List (Frame decode)) : Standing "" ("\n" ++ streamText rest) rest
  | inside {first last : String} {frame : Frame decode} (rest : List (Frame decode))
      (split : frame.text = first ++ last) (begun : first ≠ "") (unfinished : last ≠ "") :
      Standing first (last ++ ("\n" ++ streamText rest)) (frame :: rest)

theorem line_ne_empty (text rest : String) : text ++ ("\n" ++ rest) ≠ "" := by simp

/-- When nothing is to come, all texts have been decoded. -/
theorem Standing.exhausted {kept : String} {rest : List (Frame decode)}
    (standing : Standing kept "" rest) : rest = [] := by
  generalize left : "" = nothing at standing
  cases standing with
  | between =>
    cases rest with
    | nil => rfl
    | cons => exact absurd left.symm (line_ne_empty _ _)
  | unended | inside => simp_all

/-- The stream grows at its end. -/
theorem Standing.append {kept left : String} {rest : List (Frame decode)}
    (standing : Standing kept left rest) (more : List (Frame decode)) :
    Standing kept (left ++ streamText more) (rest ++ more) := by
  cases standing with
  | between =>
    rw [← streamText_append]
    exact .between _
  | unended =>
    rw [append_assoc, ← streamText_append]
    exact .unended _
  | inside rest split begun unfinished =>
    rw [append_assoc, append_assoc, ← streamText_append]
    exact .inside _ split begun unfinished

/-! ## Taking what was collected -/

theorem splitParts_single {text : String} (single : '\n' ∉ text.toList) :
    splitParts '\n' text = [text] := by
  simp [splitParts, List.splitOn_eq_singleton single]

/-- A text without line ends is tried as a whole. -/
theorem take_of_ok {buffer : String} {items : List Item} (single : '\n' ∉ buffer.toList)
    (decodes : decode buffer = .ok items) : take decode buffer = (items, .ok "") := by
  simp [take, splitParts_single single, takeLines, decodes]

theorem splitParts_line {line rest : String} (single : '\n' ∉ line.toList) :
    splitParts '\n' (line ++ ("\n" ++ rest)) = line :: splitParts '\n' rest := by
  have joined : line ++ ("\n" ++ rest) = String.ofList (line.toList ++ '\n' :: rest.toList) := by
    apply toList_inj.mp
    simp
  rw [joined, splitParts_append, ofList_toList, ofList_toList, splitParts_single single,
    List.singleton_append]

/-- A complete line is decoded before the rest. -/
theorem take_line {line rest : String} {items : List Item} (single : '\n' ∉ line.toList)
    (decodes : if trim line = "" then items = [] else decode (trim line) = .ok items) :
    take decode (line ++ ("\n" ++ rest)) = (items ++ (take decode rest).1, (take decode rest).2) := by
  have some : splitParts '\n' rest ≠ [] := splitParts_ne_nil _ _
  have lines : takeLines decode (line :: (splitParts '\n' rest).dropLast) =
      (items ++ (takeLines decode (splitParts '\n' rest).dropLast).1,
        (takeLines decode (splitParts '\n' rest).dropLast).2) := by
    rw [takeLines]
    grind
  have last : (line :: splitParts '\n' rest).getLastD "" = (splitParts '\n' rest).getLastD "" := by
    grind
  simp only [take, splitParts_line single, List.dropLast_cons_of_ne_nil some, lines, last]
  generalize takeLines decode (splitParts '\n' rest).dropLast = result
  grind

/-- A beginning of some lines ends in the first line, or goes beyond it. -/
theorem append_eq_line {buffer left text rest : String}
    (whole : buffer ++ left = text ++ ("\n" ++ rest)) :
    (∃ last, text = buffer ++ last ∧ left = last ++ ("\n" ++ rest)) ∨
      ∃ more, buffer = text ++ ("\n" ++ more) ∧ more ++ left = rest := by
  have newline : "\n".toList = ['\n'] := rfl
  have lists := congrArg String.toList whole
  simp only [toList_append, newline, List.cons_append, List.nil_append] at lists
  have string {first second : String} (same : first.toList = second.toList) : first = second :=
    toList_inj.mp same
  rcases List.append_eq_append_iff.mp lists with ⟨last, split, further⟩ | ⟨more, begun, further⟩
  · exact .inl ⟨String.ofList last, string (by simpa using split), string (by simpa using further)⟩
  · cases more with
    | nil =>
      refine .inl ⟨"", string ?_, string ?_⟩
      · simpa using begun.symm
      · simpa using further.symm
    | cons ch more =>
      obtain ⟨rfl, same⟩ := List.cons.inj further
      exact .inr ⟨String.ofList more, string (by simpa using begun), string (by simpa using same.symm)⟩

/-- What is collected from the beginning of some texts on holds those that are complete in it. -/
theorem take_stream (empty : decode "" = .ok []) {frames : List (Frame decode)} {buffer left : String}
    (whole : buffer ++ left = streamText frames) :
    ∃ done rest kept, frames = done ++ rest ∧
      take decode buffer = (done.flatMap Frame.items, .ok kept) ∧ Standing kept left rest := by
  induction frames generalizing buffer with
  | nil =>
    obtain ⟨rfl, rfl⟩ := append_eq_empty_iff.mp whole
    exact ⟨[], [], "", rfl, take_of_ok (by decide) empty, .between []⟩
  | cons frame frames ih =>
    rw [streamText_cons] at whole
    rcases append_eq_line whole with ⟨last, own, rfl⟩ | ⟨_, rfl, further⟩
    · -- the collected text ends within the first text, or with it
      have single : '\n' ∉ buffer.toList := fun inside =>
        frame.single (by simp_all)
      by_cases none : buffer = ""
      · rw [none, empty_append] at own
        refine ⟨[], frame :: frames, "", rfl, ?_, ?_⟩
        · rw [none]
          exact take_of_ok (by decide) empty
        · rw [← own, ← streamText_cons]
          exact .between _
      · by_cases complete : last = ""
        · rw [complete, append_empty] at own
          refine ⟨[frame], frames, "", rfl, ?_, ?_⟩
          · rw [← own, take_of_ok frame.single frame.decodes, List.flatMap_singleton]
          · rw [complete, empty_append]
            exact .unended _
        · obtain ⟨_, fails⟩ := frame.whole _ _ own none complete
          refine ⟨[], frame :: frames, buffer, rfl, ?_, .inside _ own none complete⟩
          simp [take, splitParts_single single, takeLines, fails]
    · -- the first text is a complete line of it
      obtain ⟨done, rest, kept, split, taken, standing⟩ := ih further
      refine ⟨frame :: done, rest, kept, ?_, ?_, standing⟩
      · rw [split, List.cons_append]
      · have decodes : if trim frame.text = "" then frame.items = []
            else decode (trim frame.text) = .ok frame.items := by
          rw [frame.trimmed, if_neg frame.filled]
          exact frame.decodes
        rw [take_line frame.single decodes, taken, List.flatMap_cons]

/-- A piece of the stream: the texts that it completes are decoded, each once and in order. -/
theorem Standing.take (empty : decode "" = .ok []) {frames : List (Frame decode)}
    {kept piece left : String} (standing : Standing kept (piece ++ left) frames) :
    ∃ done rest next, frames = done ++ rest ∧
      LineStream.take decode (kept ++ piece) = (done.flatMap Frame.items, .ok next) ∧
      Standing next left rest := by
  generalize coming : piece ++ left = whole at standing
  cases standing with
  | between => exact take_stream empty (by rw [empty_append, coming])
  | inside rest split =>
    refine take_stream empty ?_
    rw [append_assoc, coming, ← append_assoc, ← split, streamText_cons]
  | unended =>
    rw [empty_append]
    -- the line end of a text that has been decoded makes an empty line
    have line : piece ++ left = "" ++ ("\n" ++ streamText frames) := by rw [coming, empty_append]
    rcases append_eq_line line with ⟨_, own, rfl⟩ | ⟨_, rfl, further⟩
    · obtain ⟨rfl, rfl⟩ := append_eq_empty_iff.mp own.symm
      refine ⟨[], frames, "", rfl, take_of_ok (by decide) empty, ?_⟩
      exact .unended _
    · obtain ⟨done, rest, next, split, taken, later⟩ := take_stream empty further
      refine ⟨done, rest, next, split, ?_, later⟩
      have blank : if trim "" = "" then ([] : List Item) = [] else decode (trim "") = .ok [] := by
        rw [if_pos (by decide)]
      rw [take_line (by decide) blank, taken, List.nil_append]

end LineStream

end Roze.Library
