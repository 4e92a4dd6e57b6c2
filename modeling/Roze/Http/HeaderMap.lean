import Roze.Library.Text

/-!
# Header maps

A request has field lines; several of them may have one name. Values are bytes, and only those
of visible ASCII characters have a text. Names are stored in small letters.
-/

namespace Roze.Http

open Roze.Library

/-! ## Values -/

structure HeaderValue where
  bytes : List UInt8
deriving DecidableEq, Repr

namespace HeaderValue

def visibleAscii (byte : UInt8) : Bool := (32 ≤ byte && byte < 127) || byte == 9

/-- The text of a value of visible ASCII characters. -/
def toStr (value : HeaderValue) : Option String :=
  if value.bytes.all visibleAscii then
    some (String.ofList (value.bytes.map (fun byte => Char.ofNat byte.toNat)))
  else none

/-- A header value may also have bytes beyond ASCII. -/
def validByte (byte : UInt8) : Bool := (32 ≤ byte && byte != 127) || byte == 9

def fromStr (text : String) : Option HeaderValue :=
  let bytes := text.toUTF8.data.toList
  if bytes.all validByte then some ⟨bytes⟩ else none

/-- Field lines of one name mean the list of their values, joined by commas. -/
def join (values : List HeaderValue) : HeaderValue :=
  ⟨[(44 : UInt8)].intercalate (values.map HeaderValue.bytes)⟩

end HeaderValue

/-! ## Maps -/

/-- The field lines of a request, in the order of receipt, with names in small letters. -/
structure HeaderMap where
  lines : List (String × HeaderValue)

namespace HeaderMap

/-- The values of a name, one for each field line. -/
def getAll (headers : HeaderMap) (name : String) : List HeaderValue :=
  (headers.lines.filter (fun line => line.1 == name)).map Prod.snd

/-- The value of the first field line of a name. -/
def get (headers : HeaderMap) (name : String) : Option HeaderValue := (headers.getAll name).head?

end HeaderMap

/-- A name in small letters, if the text can be one. -/
def parseHeaderName (text : String) : Option String :=
  if isToken text && text.length ≤ 65535 then some (toAsciiLowercase text) else none

/-- A header map as a server holds it: its names are in small letters. -/
structure RequestHeaders extends HeaderMap where
  lower : ∀ line ∈ lines, toAsciiLowercase line.1 = line.1

namespace RequestHeaders

/-- No field lines. -/
def empty : RequestHeaders where
  lines := []
  lower := nofun

variable (headers : RequestHeaders)

/-- Without the field lines of a name. -/
def remove (name : String) : RequestHeaders where
  lines := headers.lines.filter (fun line => line.1 != name)
  lower line member := headers.lower line (List.mem_of_mem_filter member)

/-- With one field line of a name in place of those that were there. -/
def insert (name : String) (value : HeaderValue) : RequestHeaders where
  lines := (headers.remove (toAsciiLowercase name)).lines ++ [(toAsciiLowercase name, value)]
  lower line member := by
    rcases List.mem_append.mp member with old | fresh
    · exact (headers.remove _).lower line old
    · rw [List.mem_singleton.mp fresh]
      exact toAsciiLowercase_idem name

/-- The values of a name after other lines were removed. -/
theorem getAll_remove (name other : String) :
    (headers.remove other).getAll name = if name = other then [] else headers.getAll name := by
  simp only [HeaderMap.getAll, remove, List.filter_filter]
  split
  · simp_all
  · grind

theorem getAll_insert (name : String) (value : HeaderValue) (wanted : String) :
    (headers.insert name value).getAll wanted =
      if wanted = toAsciiLowercase name then [value] else headers.getAll wanted := by
  have removed := headers.getAll_remove wanted (toAsciiLowercase name)
  simp only [HeaderMap.getAll] at removed
  simp only [HeaderMap.getAll, insert, List.filter_append, List.map_append, removed]
  split
  · rename_i same
    simp [same]
  · grind

/-- The values of a name after several names were removed. -/
theorem getAll_removeAll (names : List String) (name : String) :
    (names.foldl remove headers).getAll name = if name ∈ names then [] else headers.getAll name := by
  induction names generalizing headers with
  | nil => simp
  | cons first rest ih =>
    rw [List.foldl_cons, ih, getAll_remove]
    grind

end RequestHeaders

end Roze.Http
