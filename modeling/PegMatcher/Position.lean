import PegMatcher.Text.Source

/-! # Positions

A position locates an offset by line and column, both counted from one. `Position.resolve` finds the
position of an offset by going back over the characters in front of it, so a line feed belongs to the line
that it ends, and an offset behind the end of the text is the end of the text.
-/

namespace PegMatcher

/-- An offset with its line and column. -/
@[ext]
structure Position where
  offset : Nat
  line : Nat
  column : Nat
  one_le_line : 1 ≤ line
  one_le_column : 1 ≤ column
  deriving DecidableEq

namespace Position

/-- Goes back over the characters in front of an index. Every line feed adds a line, and the first one that is
met gives the column of an offset; until then, the column is -1. -/
def scan (source : Source) (offset : Nat) : Nat → Nat → Int → Nat × Int
  | 0, line, column => (line, column)
  | index + 1, line, column =>
    if source.char? index = some '\n' then
      scan source offset index (line + 1) (if column = -1 then offset - index else column)
    else scan source offset index line column

theorem le_line_scan (source : Source) (offset index line : Nat) (column : Int) :
    line ≤ (scan source offset index line column).1 := by
  induction index generalizing line column with
  | zero => exact Nat.le_refl line
  | succ index ih =>
    rw [scan]
    split
    · exact Nat.le_of_succ_le (ih (line + 1) _)
    · exact ih line column

/-- A column that was found is counted from one. -/
theorem column_scan (source : Source) {offset index : Nat} (inside : index ≤ offset) (line : Nat) {column : Int}
    (found : column = -1 ∨ 1 ≤ column) :
    (scan source offset index line column).2 = -1 ∨ 1 ≤ (scan source offset index line column).2 := by
  induction index generalizing line column with
  | zero => exact found
  | succ index ih =>
    rw [scan]
    split
    · refine ih (by omega) (line + 1) ?_
      split <;> omega
    · exact ih (by omega) line found

/-- The position of an offset in a source. Without a line feed in front of it, it is on the first line. -/
def resolve (source : Source) (offset : Nat) : Position :=
  let reached := min offset source.length
  let counted := scan source reached reached 1 (-1)
  { offset := reached
    line := counted.1
    column := if counted.2 = -1 then reached + 1 else counted.2.toNat
    one_le_line := le_line_scan ..
    one_le_column := by
      have found : counted.2 = -1 ∨ 1 ≤ counted.2 := column_scan source (Nat.le_refl reached) 1 (.inl rfl)
      split
      · exact Nat.le_add_left 1 reached
      · omega }

/-- The position of an offset that lies in the text has that offset. -/
theorem offset_resolve {source : Source} {offset : Nat} (inside : offset ≤ source.length) :
    (resolve source offset).offset = offset :=
  Nat.min_eq_left inside

/-- The position of an integer offset; an offset in front of the text has none. -/
def resolveInt (source : Source) (offset : Int) : Except Fault Position :=
  if offset < 0 then .error (.negativeOffset offset) else .ok (resolve source offset.toNat)

/-- A position with given parts, which are checked in the order offset, line, column. -/
def ofParts (offset line column : Int) : Except Fault Position :=
  if offset < 0 then .error (.positionOffset offset)
  else if hl : line < 1 then .error (.positionLine line)
  else if hc : column < 1 then .error (.positionColumn column)
  else .ok ⟨offset.toNat, line.toNat, column.toNat, by omega, by omega⟩

def atEnd (position : Position) (source : Source) : Bool :=
  source.length ≤ position.offset

end Position

end PegMatcher
