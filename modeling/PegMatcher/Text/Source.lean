import PegMatcher.Fault

/-! # Source texts

A source is a finite sequence of characters with constant-time access. Offsets are integers: a negative
offset counts from the end, as a request for a single character or as a bound of a slice. Lines are the
pieces between line feeds, and a carriage return in front of a line feed, or at the very end, is not part of
its line.
-/

namespace PegMatcher

/-- The text that a run reads. -/
structure Source where
  chars : Array Char
  deriving DecidableEq, Inhabited

namespace Source

def ofString (text : String) : Source :=
  ⟨text.toList.toArray⟩

def toList (source : Source) : List Char :=
  source.chars.toList

def length (source : Source) : Nat :=
  source.chars.size

@[simp] theorem length_toList (source : Source) : source.toList.length = source.length :=
  Array.length_toList

@[simp] theorem toList_ofString (text : String) : (ofString text).toList = text.toList := by
  simp [ofString, toList]

/-- The index that an offset refers to, where a negative offset counts back from the end. -/
def fromEnd (length : Nat) (offset : Int) : Int :=
  if offset < 0 then offset + length else offset

def char? (source : Source) (offset : Int) : Option Char :=
  let index := fromEnd source.length offset
  if index < 0 then none else source.chars[index.toNat]?

/-- Where offsets count from the front, they are indices. -/
theorem char?_of_nonneg (source : Source) {offset : Int} (start : 0 ≤ offset) :
    source.char? offset = source.toList[offset.toNat]? := by
  have behind : ¬offset < 0 := by omega
  simp only [char?, fromEnd, behind, ↓reduceIte, toList, Array.getElem?_toList]

/-- Whether a number fits into a signed index of 64 bits. -/
def fitsIndex (number : Int) : Bool :=
  -0x8000000000000000 ≤ number && number < 0x8000000000000000

/-- The character at an offset; an offset without one is a fault, of its own kind if it is no index. -/
def charAt (source : Source) (offset : Int) : Except Fault Char :=
  match source.char? offset with
  | some c => .ok c
  | none => .error (if fitsIndex offset then .offsetOutOfRange else .offsetTooWide)

/-- The index nearest to an offset at which a slice can begin or end. -/
def clampIndex (length : Nat) (offset : Int) : Nat :=
  min (fromEnd length offset).toNat length

/-- The characters from one offset up to another; empty if the second does not lie behind the first. -/
def slice (source : Source) (start stop : Int) : String :=
  String.ofList
    (source.chars.extract (clampIndex source.length start) (clampIndex source.length stop)).toList

/-- A slice is what lies in front of its end, without what lies in front of its start. -/
theorem slice_of_nonneg (source : Source) {start stop : Int} (first : 0 ≤ start) (second : 0 ≤ stop) :
    source.slice start stop = String.ofList ((source.toList.take stop.toNat).drop start.toNat) := by
  have behind : ¬start < 0 := by omega
  have behind' : ¬stop < 0 := by omega
  have length : source.toList.length = source.length := source.length_toList
  simp only [slice, clampIndex, fromEnd, behind, behind', ↓reduceIte, Array.toList_extract, List.extract,
    List.drop_take]
  change String.ofList ((source.toList.drop (min start.toNat source.length)).take _) = _
  congr 1
  by_cases inside : start.toNat ≤ source.length
  · rw [Nat.min_eq_left inside, List.take_eq_take_iff, List.length_drop, length]
    omega
  · rw [List.drop_of_length_le (by omega), List.drop_of_length_le (by omega), List.take_nil, List.take_nil]

/-- The pieces of a text between its line feeds; there is one more of them than line feeds. -/
def splitLines (text : List Char) : List (List Char) :=
  text.foldr (fun c lines =>
    if c = '\n' then [] :: lines
    else match lines with
      | [] => [[c]]
      | line :: rest => (c :: line) :: rest) [[]]

/-- A line without the carriage return that may end it. -/
def dropCarriageReturn (line : List Char) : List Char :=
  if line.getLast? = some '\r' then line.dropLast else line

/-- The line with a given number, counted from one, without its line ending. -/
def line (source : Source) (number : Int) : Except Fault String :=
  let lines := splitLines source.toList
  if number < 1 then .error (.lineTooSmall number)
  else match lines[(number - 1).toNat]? with
    | some line => .ok (String.ofList (dropCarriageReturn line))
    | none => .error (.lineTooLarge number lines.length)

end Source

end PegMatcher
