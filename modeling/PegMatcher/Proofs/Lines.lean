import Mathlib.Algebra.GroupWithZero.Nat
import Mathlib.Data.Prod.Lex
import Mathlib.Order.Bounds.Defs
import Mathlib.Order.Interval.Set.Defs
import PegMatcher.Position

/-! # Lines and columns

The lines of a text are its pieces between line feeds. A place in the text is a row and a column of them, where the
column behind the last character of a row is the place of the line feed, or of the end of the text. Walking over the
text visits these places in reading order, each of them once: a step goes to the next column, and from behind the last
character of a row to the first column of the next one.

A position is found by going back from its offset, not by a walk. `resolve_eq_walk` says that it makes no difference:
at every index, `scan_eq` relates what is still to be found to the walk up to there. `Sits` relates a position to its
place. `sits_advance` is the step, `sits_resolve` the walk, and `offsetOf_lt_offsetOf` says that the order of places is
the order of offsets.
-/

namespace PegMatcher

namespace Position

/-- The line and the column of a position, in reading order. -/
def place (position : Position) : ℕ ×ₗ ℕ :=
  toLex (position.line, position.column)

/-- The position behind a character: a line feed starts a new line. -/
def advance (position : Position) (c : Char) : Position :=
  if c = '\n' then
    ⟨position.offset + 1, position.line + 1, 1, Nat.le_add_left 1 _, Nat.le_refl 1⟩
  else
    ⟨position.offset + 1, position.line, position.column + 1, position.one_le_line, Nat.le_add_left 1 _⟩

def start : Position :=
  ⟨0, 1, 1, Nat.le_refl 1, Nat.le_refl 1⟩

/-- The position behind the characters in front of an offset. -/
def walk (source : Source) (offset : Nat) : Position :=
  (source.toList.take offset).foldl advance start

end Position

namespace Lines

theorem splitLines_eq_splitOn (text : List Char) : Source.splitLines text = text.splitOn '\n' := by
  induction text with
  | nil => rfl
  | cons c rest ih =>
    rw [List.splitOn_cons_eq_if_modifyHead, ← ih]
    simp only [Source.splitLines, List.foldr_cons, beq_iff_eq]
    split
    · rfl
    · cases segments : rest.foldr _ _ with
      | nil => exact absurd (ih.symm.trans segments) (List.splitOn_ne_nil _ _)
      | cons segment more => rfl

/-- A line holds no line feed. -/
theorem not_mem_of_mem_splitOn {text segment : List Char} (member : segment ∈ text.splitOn '\n') : '\n' ∉ segment := by
  induction text generalizing segment with
  | nil =>
    cases List.mem_singleton.mp member
    exact List.not_mem_nil
  | cons c rest ih =>
    rw [List.splitOn_cons_eq_if_modifyHead] at member
    split at member
    · obtain rfl | later := List.mem_cons.mp member
      · exact List.not_mem_nil
      · exact ih later
    · rename_i other
      cases segments : rest.splitOn '\n' with
      | nil => exact absurd segments (List.splitOn_ne_nil _ _)
      | cons first more =>
        rw [segments] at ih member
        obtain rfl | later := List.mem_cons.mp member
        · intro feed
          obtain same | within := List.mem_cons.mp feed
          · exact other (by rw [← same]; rfl)
          · exact ih List.mem_cons_self within
        · exact ih (List.mem_cons_of_mem _ later)

/-- The offset of a column in a row, both counted from zero: every row in front takes its characters and a line
feed. -/
def offsetOf (segments : List (List Char)) (row column : Nat) : Nat :=
  ((segments.take row).map List.length).sum + row + column

/-- A column of a row, or the place behind its last one, both counted from zero. -/
def OnLine (segments : List (List Char)) (row column : Nat) : Prop :=
  ∃ segment, segments[row]? = some segment ∧ column ≤ segment.length

/-- A line and a column that some segments have, both counted from one. -/
structure InBounds (segments : List (List Char)) (line column : Nat) : Prop where
  one_le_line : 1 ≤ line
  line_le : line ≤ segments.length
  one_le_column : 1 ≤ column
  column_le : column ≤ (segments.getD (line - 1) []).length + 1

section Places

variable {segments : List (List Char)} {row column : Nat} {segment : List Char}

theorem inBounds_succ_iff : InBounds segments (row + 1) (column + 1) ↔ OnLine segments row column := by
  constructor
  · intro bounds
    have inside : row < segments.length := bounds.line_le
    refine ⟨segments[row], List.getElem?_eq_getElem inside, ?_⟩
    have le := bounds.column_le
    rw [Nat.add_sub_cancel, List.getD_eq_getElem?_getD, List.getElem?_eq_getElem inside, Option.getD_some] at le
    omega
  · rintro ⟨segment, here, inside⟩
    obtain ⟨below, _⟩ := List.getElem?_eq_some_iff.mp here
    refine ⟨Nat.le_add_left 1 row, below, Nat.le_add_left 1 column, ?_⟩
    rw [Nat.add_sub_cancel, List.getD_eq_getElem?_getD, here, Option.getD_some]
    omega

theorem offsetOf_add (segments : List (List Char)) (row column : Nat) :
    offsetOf segments row column = offsetOf segments row 0 + column := rfl

/-- A row begins behind the line feed of the one in front of it. -/
theorem offsetOf_succ (here : segments[row]? = some segment) :
    offsetOf segments (row + 1) 0 = offsetOf segments row segment.length + 1 := by
  simp only [offsetOf, List.take_add_one, here, Option.toList_some, List.map_append, List.map_cons, List.map_nil,
    List.sum_append, List.sum_cons, List.sum_nil]
  omega

theorem offsetOf_le_offsetOf {row' : Nat} (le : row ≤ row') : offsetOf segments row 0 ≤ offsetOf segments row' 0 := by
  obtain ⟨more, rfl⟩ := Nat.exists_eq_add_of_le le
  simp only [offsetOf, List.take_add, List.map_append, List.sum_append]
  omega

/-- The order of places is that of their offsets. -/
theorem offsetOf_lt_offsetOf {row' column' : Nat} (here : segments[row]? = some segment)
    (inside : column ≤ segment.length) (before : row < row' ∨ row = row' ∧ column < column') :
    offsetOf segments row column < offsetOf segments row' column' := by
  rw [offsetOf_add segments row column, offsetOf_add segments row' column']
  obtain lower | ⟨rfl, left⟩ := before
  · have next := offsetOf_succ here
    rw [offsetOf_add segments row segment.length] at next
    have further : offsetOf segments (row + 1) 0 ≤ offsetOf segments row' 0 := offsetOf_le_offsetOf lower
    omega
  · omega

/-- What stands at a place of joined lines: a character of its line, or behind them a line feed unless the line is the
last one. -/
theorem getElem?_offsetOf (here : segments[row]? = some segment) (inside : column ≤ segment.length) :
    (['\n'].intercalate segments)[offsetOf segments row column]? =
      if column < segment.length then segment[column]? else if row + 1 < segments.length then some '\n' else none := by
  induction segments generalizing row with
  | nil => cases here
  | cons first rest ih =>
    cases row with
    | zero =>
      obtain rfl : first = segment := Option.some.inj here
      have start : offsetOf (first :: rest) 0 column = column := by simp [offsetOf]
      rw [start]
      cases rest with
      | nil =>
        rw [List.intercalate_singleton]
        split
        · rfl
        · rw [if_neg (by simp)]
          exact List.getElem?_eq_none (by omega)
      | cons next more =>
        rw [List.intercalate_cons_cons, List.append_assoc]
        split
        · exact List.getElem?_append_left ‹_›
        · rw [if_pos (by simp), List.getElem?_append_right (by omega)]
          have last : column - first.length = 0 := by omega
          rw [last]
          rfl
    | succ row =>
      rw [List.getElem?_cons_succ] at here
      have nonempty : rest ≠ [] := by
        rintro rfl
        cases here
      have start : offsetOf (first :: rest) (row + 1) column = (first ++ ['\n']).length + offsetOf rest row column := by
        simp only [offsetOf, List.take_succ_cons, List.map_cons, List.sum_cons, List.length_append, List.length_cons,
          List.length_nil]
        omega
      rw [List.intercalate_cons_of_ne_nil nonempty, start, List.getElem?_append_right (by omega),
        Nat.add_sub_cancel_left, ih here, List.length_cons]
      simp only [Nat.add_lt_add_iff_right]

/-- The same for the lines of a text. -/
theorem getElem?_place {text : List Char} (here : (text.splitOn '\n')[row]? = some segment)
    (inside : column ≤ segment.length) :
    text[offsetOf (text.splitOn '\n') row column]? =
      if column < segment.length then segment[column]?
      else if row + 1 < (text.splitOn '\n').length then some '\n' else none := by
  rw [← getElem?_offsetOf here inside, List.intercalate_splitOn]

end Places

/-- A position that stands at a place, whose row and column are counted from zero. -/
structure Sits (segments : List (List Char)) (position : Position) (row column : Nat) : Prop where
  atLine : position.line = row + 1
  atColumn : position.column = column + 1
  atOffset : position.offset = offsetOf segments row column
  onLine : OnLine segments row column

section Walk

variable {text : List Char} {source : Source} {offset : Nat}

/-- Behind a character stands the next place. -/
theorem sits_advance {position : Position} {row column : Nat} {c : Char}
    (sits : Sits (text.splitOn '\n') position row column) (next : text[position.offset]? = some c) :
    ∃ row' column', Sits (text.splitOn '\n') (position.advance c) row' column' := by
  obtain ⟨segment, here, inside⟩ := sits.onLine
  have found := getElem?_place here inside
  rw [← sits.atOffset, next] at found
  -- The character belongs to the line, or is the line feed behind it: at the end of the text there is none.
  split at found
  · rename_i within
    have other : c ≠ '\n' := by
      rintro rfl
      exact not_mem_of_mem_splitOn (List.mem_of_getElem? here) (List.mem_of_getElem? found.symm)
    rw [Position.advance, if_neg other]
    refine ⟨row, column + 1, sits.atLine, congrArg (· + 1) sits.atColumn, congrArg (· + 1) sits.atOffset, ?_⟩
    exact ⟨segment, here, within⟩
  · rename_i behind
    split at found
    · rename_i further
      cases found
      have last : column = segment.length := by omega
      rw [Position.advance, if_pos rfl]
      refine ⟨row + 1, 0, congrArg (· + 1) sits.atLine, rfl, ?_, _, List.getElem?_eq_getElem further, Nat.zero_le _⟩
      dsimp only
      rw [offsetOf_succ here, sits.atOffset, last]
    · cases found

/-- The character at an offset in front of the end. -/
theorem exists_getElem? (before : offset < source.length) : ∃ c, source.toList[offset]? = some c :=
  ⟨_, List.getElem?_eq_getElem (source.length_toList ▸ before)⟩

theorem walk_succ {c : Char} (next : source.toList[offset]? = some c) :
    Position.walk source (offset + 1) = (Position.walk source offset).advance c := by
  rw [Position.walk, List.take_add_one, next, Option.toList_some, List.foldl_append]
  rfl

theorem offset_walk (inside : offset ≤ source.length) : (Position.walk source offset).offset = offset := by
  induction offset with
  | zero => rfl
  | succ offset ih =>
    obtain ⟨c, next⟩ := exists_getElem? inside
    rw [walk_succ next, Position.advance]
    split <;> exact congrArg (· + 1) (ih (by omega))

/-- On the first line the columns count from the start of the text. -/
theorem column_walk (inside : offset ≤ source.length) (first : (Position.walk source offset).line = 1) :
    (Position.walk source offset).column = offset + 1 := by
  induction offset with
  | zero => rfl
  | succ offset ih =>
    obtain ⟨c, next⟩ := exists_getElem? inside
    have counted := (Position.walk source offset).one_le_line
    rw [walk_succ next, Position.advance] at first ⊢
    split at first
    · dsimp only at first
      omega
    · rw [if_neg ‹_›]
      exact congrArg (· + 1) (ih (by omega) first)

/-- Going back from an index finds the line feeds that the walk up to it has met. The last of these is the first one
that is found, and it gives the column unless one behind the index has given it already. -/
theorem scan_eq {index : Nat} (inside : index ≤ source.length) (before : index ≤ offset) (line : Nat) (column : Int) :
    Position.scan source offset index line column =
      (line + ((Position.walk source index).line - 1),
        if column ≠ -1 then column
        else if (Position.walk source index).line = 1 then -1
        else (Position.walk source index).column + (offset - index : Int)) := by
  induction index generalizing line column with
  | zero =>
    have first : (Position.walk source 0).line = 1 := rfl
    rw [Position.scan, first]
    refine Prod.ext rfl ?_
    dsimp only
    split_ifs <;> omega
  | succ index ih =>
    obtain ⟨c, next⟩ := exists_getElem? inside
    have here : source.char? index = some c := by rw [source.char?_of_nonneg (by omega), Int.toNat_natCast, next]
    have counted := (Position.walk source index).one_le_line
    rw [Position.scan, here, walk_succ next, Position.advance]
    by_cases feed : c = '\n'
    · rw [if_pos (congrArg some feed), if_pos feed, ih (by omega) (by omega)]
      have found : (if column = -1 then (offset - index : Int) else column) ≠ -1 := by split <;> omega
      rw [if_pos found]
      refine Prod.ext (by dsimp only; omega) ?_
      dsimp only
      split_ifs <;> omega
    · rw [if_neg (fun same => feed (Option.some.inj same)), if_neg feed, ih (by omega) (by omega)]
      refine Prod.ext rfl ?_
      dsimp only
      split_ifs <;> omega

private theorem resolve_eq_walk_of_le (inside : offset ≤ source.length) :
    Position.resolve source offset = Position.walk source offset := by
  have counted := (Position.walk source offset).one_le_line
  have found := scan_eq inside (Nat.le_refl offset) 1 (-1)
  rw [if_neg (by decide)] at found
  ext
  · rw [Position.offset_resolve inside, offset_walk inside]
  · simp only [Position.resolve, Nat.min_eq_left inside, found]
    omega
  · simp only [Position.resolve, Nat.min_eq_left inside, found]
    by_cases first : (Position.walk source offset).line = 1
    · rw [if_pos first, if_pos rfl, column_walk inside first]
    · rw [if_neg first, if_neg (by omega)]
      omega

/-- An offset behind the end stands for the end. -/
theorem resolve_min (source : Source) (offset : Nat) :
    Position.resolve source (min offset source.length) = Position.resolve source offset := by
  simp only [Position.resolve, Nat.min_assoc, Nat.min_self]

/-- Going back from an offset and walking up to it come to the same position. -/
theorem resolve_eq_walk (source : Source) (offset : Nat) :
    Position.resolve source offset = Position.walk source offset := by
  have same : source.toList.take (min offset source.length) = source.toList.take offset := by
    rw [List.take_eq_take_iff, source.length_toList]
    omega
  rw [← resolve_min, resolve_eq_walk_of_le (Nat.min_le_right _ _), Position.walk, same, Position.walk]

theorem resolve_succ {c : Char} (next : source.toList[offset]? = some c) :
    Position.resolve source (offset + 1) = (Position.resolve source offset).advance c := by
  rw [resolve_eq_walk, resolve_eq_walk, walk_succ next]

theorem sits_resolve (inside : offset ≤ source.length) :
    ∃ row column, Sits (source.toList.splitOn '\n') (Position.resolve source offset) row column := by
  induction offset with
  | zero =>
    cases segments : source.toList.splitOn '\n' with
    | nil => exact absurd segments (List.splitOn_ne_nil _ _)
    | cons first rest => exact ⟨0, 0, rfl, rfl, rfl, first, rfl, Nat.zero_le _⟩
  | succ offset ih =>
    obtain ⟨row, column, sits⟩ := ih (by omega)
    obtain ⟨c, next⟩ := exists_getElem? inside
    rw [resolve_succ next]
    refine sits_advance sits ?_
    rwa [Position.offset_resolve (by omega)]

private theorem line_foldl_advance (text : List Char) (position : Position) :
    (text.foldl Position.advance position).line = position.line + text.count '\n' := by
  induction text generalizing position with
  | nil => rfl
  | cons c rest ih =>
    rw [List.foldl_cons, ih, List.count_cons, Position.advance]
    by_cases feed : c = '\n'
    · simp only [feed, ↓reduceIte, beq_self_eq_true]
      omega
    · simp only [feed, ↓reduceIte, beq_iff_eq]
      rfl

/-- The indices of the line feeds in front of an offset, and -1. -/
def feedsBefore (text : List Char) (offset : Nat) : Set Int :=
  {index | index = -1 ∨ ∃ position : Nat, position < offset ∧ text[position]? = some '\n' ∧ index = position}

/-- The column counts from the last line feed in front. -/
theorem isGreatest_feedsBefore (inside : offset ≤ source.length) :
    IsGreatest (feedsBefore source.toList offset) (offset - (Position.resolve source offset).column : Int) := by
  induction offset with
  | zero =>
    refine ⟨.inl rfl, ?_⟩
    rintro index (rfl | ⟨position, before, _⟩)
    · exact Int.le_refl _
    · omega
  | succ offset ih =>
    obtain ⟨⟨member, greatest⟩, c, next⟩ := And.intro (ih (by omega)) (exists_getElem? inside)
    rw [resolve_succ next, Position.advance]
    by_cases feed : c = '\n'
    · rw [if_pos feed]
      have here : ((offset + 1 : Nat) : Int) - (1 : Nat) = offset := by omega
      rw [here]
      refine ⟨.inr ⟨offset, by omega, feed ▸ next, rfl⟩, ?_⟩
      rintro index (rfl | ⟨position, before, _, rfl⟩) <;> omega
    · rw [if_neg feed]
      have same : ((offset + 1 : Nat) : Int) - ((Position.resolve source offset).column + 1 : Nat) =
          offset - (Position.resolve source offset).column := by omega
      rw [same]
      constructor
      · obtain start | ⟨position, before, found, rest⟩ := member
        · exact .inl start
        · exact .inr ⟨position, by omega, found, rest⟩
      · rintro index (rfl | ⟨position, before, found, rfl⟩)
        · exact greatest (.inl rfl)
        · have other : position ≠ offset := by
            rintro rfl
            rw [next] at found
            exact feed (Option.some.inj found)
          exact greatest (.inr ⟨position, by omega, found, rfl⟩)

end Walk

section Offsets

variable {source : Source}

/-- At one offset there is one place. -/
theorem place_unique {segments : List (List Char)} {row column row' column' : Nat}
    (first : OnLine segments row column) (second : OnLine segments row' column')
    (same : offsetOf segments row column = offsetOf segments row' column') : row = row' ∧ column = column' := by
  obtain ⟨segment, here, le⟩ := first
  obtain ⟨segment', here', le'⟩ := second
  by_contra other
  have apart : (row < row' ∨ row = row' ∧ column < column') ∨ row' < row ∨ row' = row ∧ column' < column := by omega
  obtain before | behind := apart
  · exact absurd same (Nat.ne_of_lt (offsetOf_lt_offsetOf here le before))
  · exact absurd same.symm (Nat.ne_of_lt (offsetOf_lt_offsetOf here' le' behind))

/-- The only place where nothing stands is the last one. -/
theorem last_of_getElem?_eq_none {text : List Char} {row column : Nat} {segment : List Char}
    (here : (text.splitOn '\n')[row]? = some segment) (inside : column ≤ segment.length)
    (nothing : text[offsetOf (text.splitOn '\n') row column]? = none) :
    row + 1 = (text.splitOn '\n').length ∧ column = segment.length := by
  have found := getElem?_place here inside
  rw [nothing] at found
  obtain ⟨below, _⟩ := List.getElem?_eq_some_iff.mp here
  split at found
  · rw [List.getElem?_eq_getElem ‹_›] at found
    cases found
  · split at found
    · cases found
    · omega

/-- Every place is in the text or at its end. -/
theorem offsetOf_le_length {row column : Nat} (place : OnLine (source.toList.splitOn '\n') row column) :
    offsetOf (source.toList.splitOn '\n') row column ≤ source.length := by
  by_contra behind
  -- Nothing stands at the place, nor at the end of the text, but there is only one such place.
  have nothing {offset : Nat} (le : source.length ≤ offset) : source.toList[offset]? = none :=
    List.getElem?_eq_none (source.length_toList ▸ le)
  obtain ⟨row', column', sits⟩ := sits_resolve (Nat.le_refl source.length)
  have atEnd := sits.atOffset
  rw [Position.offset_resolve (Nat.le_refl _)] at atEnd
  obtain ⟨segment, here, inside⟩ := place
  obtain ⟨segment', here', inside'⟩ := sits.onLine
  obtain ⟨lastRow, lastColumn⟩ := last_of_getElem?_eq_none here inside (nothing (by omega))
  obtain ⟨lastRow', lastColumn'⟩ := last_of_getElem?_eq_none here' inside' (nothing (by omega))
  obtain rfl : row = row' := by omega
  cases here.symm.trans here'
  rw [lastColumn, ← lastColumn'] at behind
  omega

/-- The line of a place is there to be shown. -/
theorem line_eq {position : Position} {row column : Nat} {segment : List Char}
    (sits : Sits (source.toList.splitOn '\n') position row column)
    (here : (source.toList.splitOn '\n')[row]? = some segment) :
    source.line position.line = .ok (String.ofList (Source.dropCarriageReturn segment)) := by
  have number : ((position.line : Int) - 1).toNat = row := by
    rw [sits.atLine]
    omega
  have start : ¬(position.line : Int) < 1 := by
    rw [sits.atLine]
    omega
  simp only [Source.line, splitLines_eq_splitOn, start, ↓reduceIte, number, here]

theorem place_lt_place {first second : Nat} (lt : first < second) (inside : second ≤ source.length) :
    (Position.resolve source first).place < (Position.resolve source second).place := by
  obtain ⟨row, column, sits⟩ := sits_resolve (Nat.le_trans (Nat.le_of_lt lt) inside)
  obtain ⟨row', column', sits'⟩ := sits_resolve inside
  have offset := sits.atOffset
  have offset' := sits'.atOffset
  rw [Position.offset_resolve (by omega)] at offset offset'
  obtain ⟨segment', here', inside'⟩ := sits'.onLine
  rw [Position.place, Position.place, Prod.Lex.toLex_lt_toLex, sits.atLine, sits.atColumn, sits'.atLine,
    sits'.atColumn]
  by_contra not
  have behind : (row' < row ∨ row' = row ∧ column' < column) ∨ row' = row ∧ column' = column := by omega
  obtain behind | ⟨rfl, rfl⟩ := behind
  · have := offsetOf_lt_offsetOf here' inside' behind
    omega
  · omega

/-- Every place is that of an offset. -/
theorem exists_resolve {row column : Nat} (place : OnLine (source.toList.splitOn '\n') row column) :
    ∃ offset ≤ source.length, (Position.resolve source offset).line = row + 1 ∧
      (Position.resolve source offset).column = column + 1 := by
  have inside := offsetOf_le_length place
  obtain ⟨row', column', sits⟩ := sits_resolve inside
  have same := sits.atOffset
  rw [Position.offset_resolve inside] at same
  obtain ⟨rfl, rfl⟩ := place_unique place sits.onLine same
  exact ⟨_, inside, sits.atLine, sits.atColumn⟩

end Offsets

end Lines

open Lines

/-- Offsets and places correspond one to one. An offset that is not negative has a position, where an offset behind
the end of the text stands for the end. Its line is one more than the number of line feeds in front of it, and its
column counts from the last of them. Both are within the bounds that the lines of the text set, the offset can be
computed back from them, and the line is there to be shown. In the text and at its end, places are in the order of
offsets, and every line and column within the bounds is the place of one. -/
theorem offsets_are_places (source : Source) :
    let text := source.toList
    let segments := text.splitOn '\n'
    let place := fun offset => (Position.resolve source offset).place
    (∀ offset : Int, 0 ≤ offset →
      let reached := min offset.toNat source.length
      ∃ position, Position.resolveInt source offset = .ok position ∧ position.offset = reached ∧
        position.line = 1 + (text.take reached).count '\n' ∧
        IsGreatest (feedsBefore text reached) (reached - position.column : Int) ∧
        InBounds segments position.line position.column ∧
        ((segments.take (position.line - 1)).map List.length).sum + (position.line - 1) + (position.column - 1) =
          reached ∧
        ∃ line, source.line position.line = .ok line) ∧
    Set.InjOn place (Set.Iic source.length) ∧ StrictMonoOn place (Set.Iic source.length) ∧
    Set.image place (Set.Iic source.length) = {pair | InBounds segments (ofLex pair).1 (ofLex pair).2} := by
  intro text segments place
  have increasing : StrictMonoOn place (Set.Iic source.length) :=
    fun first _ second inside lt => place_lt_place lt inside
  refine ⟨?_, increasing.injOn, increasing, ?_⟩
  · intro offset start reached
    have inside : reached ≤ source.length := Nat.min_le_right _ _
    obtain ⟨row, column, sits⟩ := sits_resolve inside
    have bounds := inBounds_succ_iff.mpr sits.onLine
    have atOffset := sits.atOffset
    rw [Position.offset_resolve inside] at atOffset
    obtain ⟨line, here, _⟩ := sits.onLine
    refine ⟨Position.resolve source reached, ?_, Position.offset_resolve inside, ?_, isGreatest_feedsBefore inside, ?_,
      ?_, _, line_eq sits here⟩
    · rw [Position.resolveInt, if_neg (by omega), resolve_min]
    · rw [resolve_eq_walk]
      exact line_foldl_advance (text.take reached) Position.start
    · rw [sits.atLine, sits.atColumn]
      exact bounds
    · rw [sits.atLine, sits.atColumn, Nat.add_sub_cancel, Nat.add_sub_cancel]
      exact atOffset.symm
  · ext pair
    constructor
    · rintro ⟨offset, inside, rfl⟩
      obtain ⟨row, column, sits⟩ := sits_resolve inside
      change InBounds segments (Position.resolve source offset).line (Position.resolve source offset).column
      rw [sits.atLine, sits.atColumn]
      exact inBounds_succ_iff.mpr sits.onLine
    · intro bounds
      obtain ⟨row, line⟩ := Nat.exists_eq_add_of_le' bounds.one_le_line
      obtain ⟨column, atColumn⟩ := Nat.exists_eq_add_of_le' bounds.one_le_column
      have onLine : OnLine segments row column := inBounds_succ_iff.mp (by rw [← line, ← atColumn]; exact bounds)
      obtain ⟨offset, inside, sameLine, sameColumn⟩ := exists_resolve onLine
      refine ⟨offset, inside, ?_⟩
      change toLex ((Position.resolve source offset).line, (Position.resolve source offset).column) = pair
      rw [sameLine, sameColumn, ← line, ← atColumn]
      rfl

/-- Behind the end of a text that ends with an empty line and a line feed stands the first column of its last line. -/
theorem offsets_of_blank_line_are_places :
    let source := Source.ofString "a\n\n"
    (0 : Int) ≤ 9 ∧ ∃ position, Position.resolveInt source 9 = .ok position ∧ position.offset = 3 ∧
      position.line = 3 ∧ position.column = 1 ∧ IsGreatest (feedsBefore source.toList 3) 2 ∧
      InBounds [['a'], [], []] 3 1 ∧ ∃ shown, source.line 3 = .ok shown := by
  intro source
  obtain ⟨position, resolved, offset, line, greatest, bounds, recovered, shown, shows⟩ :=
    (offsets_are_places source).1 9 (by decide)
  have segments : source.toList.splitOn '\n' = [['a'], [], []] := by decide
  have line : position.line = 3 := line
  rw [segments, line] at bounds recovered
  rw [line] at shows
  have column : position.column = 1 := by
    have first := bounds.one_le_column
    change 3 + (position.column - 1) = 3 at recovered
    omega
  rw [column] at greatest bounds
  exact ⟨by decide, position, resolved, offset, line, column, greatest, bounds, shown, shows⟩

end PegMatcher
