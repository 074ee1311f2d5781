import PegMatcher.Proofs.HostCalls
import PegMatcher.Proofs.Lines
import PegMatcher.Proofs.Passes
import PegMatcher.Rendering

/-! # The caret under the offending character

A parse error that a run reports can be shown against the text of the run, because its offset lies in that text. The
caret stands in the column of the offset, and above it stands the line of the offset without its carriage return. So
the caret points at the offending character if the line shows it, and behind the line otherwise.

Which characters a line shows is said of the text alone, by `EndsLine` and `Visible`. `endsLine_iff` says what a
carriage return at the end is for the line itself, and `getElem?_dropCarriageReturn` and `length_dropCarriageReturn`
what is left of the line without it.
-/

namespace PegMatcher

namespace Caret

open Lines

/-- A carriage return with only a line feed behind it, or nothing. -/
def EndsLine (text : List Char) (offset : Nat) : Prop :=
  text[offset]? = some '\r' ∧ ∀ c, text[offset + 1]? = some c → c = '\n'

/-- A character that its line shows: neither a line feed nor a carriage return that ends the line. -/
def Visible (text : List Char) (offset : Nat) : Prop :=
  offset < text.length ∧ text[offset]? ≠ some '\n' ∧ ¬EndsLine text offset

section Places

variable {text segment : List Char} {row column : Nat}

private theorem prefix_dropCarriageReturn (segment : List Char) : Source.dropCarriageReturn segment <+: segment := by
  rw [Source.dropCarriageReturn]
  split
  · exact List.dropLast_prefix segment
  · exact List.prefix_refl segment

/-- A carriage return at the end of a line is not shown. -/
theorem length_dropCarriageReturn (last : column + 1 = segment.length) (here : segment[column]? = some '\r') :
    (Source.dropCarriageReturn segment).length = column := by
  have ending : segment.getLast? = some '\r' := by
    rw [List.getLast?_eq_getElem?, ← last, Nat.add_sub_cancel, here]
  rw [Source.dropCarriageReturn, if_pos ending, List.length_dropLast, ← last, Nat.add_sub_cancel]

/-- All other characters of a line are. -/
theorem getElem?_dropCarriageReturn (other : ¬(column + 1 = segment.length ∧ segment[column]? = some '\r')) :
    (Source.dropCarriageReturn segment)[column]? = segment[column]? := by
  rw [Source.dropCarriageReturn]
  split
  · rename_i ending
    rw [List.getElem?_dropLast]
    split
    · rfl
    · rename_i behind
      rw [List.getLast?_eq_getElem?] at ending
      refine (List.getElem?_eq_none ?_).symm
      by_contra within
      have last : segment.length - 1 = column := by omega
      exact other ⟨by omega, last ▸ ending⟩
  · rfl

/-- A carriage return ends a line if it is the last character of one. -/
theorem endsLine_iff (here : (text.splitOn '\n')[row]? = some segment) (inside : column ≤ segment.length) :
    EndsLine text (offsetOf (text.splitOn '\n') row column) ↔
      column + 1 = segment.length ∧ segment[column]? = some '\r' := by
  have found := getElem?_place here inside
  constructor
  · rintro ⟨carriage, behind⟩
    -- Behind a carriage return in the middle of a line stands a character of that line, which is no line feed.
    rw [carriage] at found
    split at found
    · rename_i within
      refine ⟨?_, found.symm⟩
      by_contra more
      have further : column + 1 < segment.length := by omega
      have next := getElem?_place here within
      rw [if_pos further, List.getElem?_eq_getElem further] at next
      have feed : '\n' ∈ segment := behind _ next ▸ List.getElem_mem further
      exact not_mem_of_mem_splitOn (List.mem_of_getElem? here) feed
    · split at found <;> cases found
  · rintro ⟨last, carriage⟩
    have within : column < segment.length := by omega
    refine ⟨by rw [found, if_pos within, carriage], fun c behind => ?_⟩
    have next := getElem?_place here within
    rw [if_neg (by omega)] at next
    have same := behind.symm.trans next
    split at same <;> cases same
    rfl

/-- A line shows its own characters, unless a carriage return ends it. -/
theorem visible_iff (here : (text.splitOn '\n')[row]? = some segment) (inside : column ≤ segment.length) :
    Visible text (offsetOf (text.splitOn '\n') row column) ↔
      column < segment.length ∧ ¬(column + 1 = segment.length ∧ segment[column]? = some '\r') := by
  have found := getElem?_place here inside
  rw [Visible, endsLine_iff here inside, ← and_assoc]
  refine and_congr_left' ?_
  constructor
  · rintro ⟨before, other⟩
    by_contra behind
    rw [if_neg behind] at found
    split at found
    · exact other found
    · exact absurd (List.getElem?_eq_none_iff.mp found) (Nat.not_le.mpr before)
  · intro within
    rw [if_pos within, List.getElem?_eq_getElem within] at found
    refine ⟨(List.getElem?_eq_some_iff.mp found).1, fun feed => ?_⟩
    have member : '\n' ∈ segment := Option.some.inj (found.symm.trans feed) ▸ List.getElem_mem within
    exact not_mem_of_mem_splitOn (List.mem_of_getElem? here) member

end Places

section Positions

variable {source : Source} {position : Position} {row column : Nat} {segment : List Char}

/-- The line of a position has a visible character in the column of the position. -/
theorem getElem?_of_visible (sits : Sits (source.toList.splitOn '\n') position row column)
    (here : (source.toList.splitOn '\n')[row]? = some segment) (visible : Visible source.toList position.offset) :
    (Source.dropCarriageReturn segment)[position.column - 1]? = source.toList[position.offset]? := by
  obtain ⟨segment', here', inside⟩ := sits.onLine
  cases here.symm.trans here'
  have found := getElem?_place here inside
  rw [sits.atOffset, visible_iff here inside] at visible
  rw [if_pos visible.1, ← sits.atOffset] at found
  rw [sits.atColumn, Nat.add_sub_cancel, getElem?_dropCarriageReturn visible.2, found]

/-- At any other offset, the line of a position does not reach its column. -/
theorem length_le_of_not_visible (sits : Sits (source.toList.splitOn '\n') position row column)
    (here : (source.toList.splitOn '\n')[row]? = some segment) (hidden : ¬Visible source.toList position.offset) :
    (Source.dropCarriageReturn segment).length ≤ position.column - 1 := by
  obtain ⟨segment', here', inside⟩ := sits.onLine
  cases here.symm.trans here'
  rw [sits.atOffset, visible_iff here inside, not_and, not_not] at hidden
  rw [sits.atColumn, Nat.add_sub_cancel]
  by_cases within : column < segment.length
  · obtain ⟨last, carriage⟩ := hidden within
    exact Nat.le_of_eq (length_dropCarriageReturn last carriage)
  · exact Nat.le_trans (prefix_dropCarriageReturn segment).length_le (Nat.not_lt.mp within)

/-- The caret is no wider than the text. -/
theorem column_le_length (sits : Sits (source.toList.splitOn '\n') position row column) :
    position.column - 1 ≤ source.length := by
  have inside := offsetOf_le_length sits.onLine
  rw [offsetOf_add] at inside
  rw [sits.atColumn]
  omega

end Positions

section Rendering

variable {error : ParseError} {source : Source}

private theorem prefix_intercalate (first : String) (rest : List String) :
    first.toList <+: ("\n".intercalate (first :: rest)).toList := by
  cases rest with
  | nil => exact List.prefix_refl _
  | cons second more =>
    rw [String.intercalate_cons_cons, String.append_assoc, String.toList_append]
    exact List.prefix_append _ _

private theorem intercalate_three (first : String) (rest : List String) (place line caret : String) :
    "\n".intercalate ((first :: rest) ++ [place, line, caret]) =
      ("\n".intercalate (first :: rest) ++ "\n" ++ place) ++ "\n" ++ line ++ "\n" ++ caret := by
  rw [String.intercalate_append_of_ne_nil (List.cons_ne_nil _ _) (List.cons_ne_nil _ _)]
  simp only [String.intercalate_cons_cons, String.intercalate_singleton, String.append_assoc]

/-- Several lines are shown if the line of the error can be, and the caret is no wider than the text. The first of
them begins with the problem, and the last two are the source line and the caret. -/
theorem exists_renderText {line : String} (shown : source.line error.position.line = .ok line)
    (narrow : error.position.column - 1 ≤ source.length) :
    ∃ head : String, (error.problem source).toList <+: head.toList ∧
      error.renderText source = .ok (head ++ "\n" ++ line ++ "\n" ++
        String.ofList (List.replicate (error.position.column - 1) ' ' ++ ['^'])) := by
  have begins : ∃ first rest,
      (if error.ruleStacks.isEmpty then [error.problem source]
        else (error.problem source ++ ", expected:") :: error.ruleStacks.map fun stack => "  " ++ stack.label) =
          first :: rest ∧ (error.problem source).toList <+: first.toList := by
    split
    · exact ⟨_, [], rfl, List.prefix_refl _⟩
    · refine ⟨_, _, rfl, ?_⟩
      rw [String.toList_append]
      exact List.prefix_append _ _
  obtain ⟨first, rest, lines, begins⟩ := begins
  have fits : ¬(source.length < error.position.column - 1 ∧ !Source.fitsIndex (error.position.column - 1 : Nat)) :=
    fun wide => absurd wide.1 (Nat.not_lt.mpr narrow)
  simp only [ParseError.renderText, shown, fits, ↓reduceIte, lines, intercalate_three]
  refine ⟨_, ?_, rfl⟩
  rw [String.append_assoc, String.toList_append]
  exact (begins.trans (prefix_intercalate first rest)).trans (List.prefix_append _ _)

/-- In the text, there is a character at every offset but the last. -/
theorem found?_eq_none_iff (inside : error.position.offset ≤ source.length) :
    error.found? source = none ↔ error.position.offset = source.toList.length := by
  rw [ParseError.found?, Array.getElem?_eq_none_iff, source.length_toList]
  exact ⟨Nat.le_antisymm inside, fun last => Nat.le_of_eq last.symm⟩

/-- What is wrong is the end of the text if there is no character, and only then. -/
theorem endOfInput_prefix_iff {shown : String} (begins : (error.problem source).toList <+: shown.toList) :
    "Unexpected end of input".toList <+: shown.toList ↔ error.found? source = none := by
  rw [ParseError.problem] at begins
  split at begins
  · rename_i ended
    exact ⟨fun _ => ended, fun _ => begins⟩
  · rename_i c found
    refine ⟨fun ended => ?_, fun ended => ?_⟩
    · -- The two texts differ in their first character.
      obtain ⟨rest, whole⟩ := begins
      obtain ⟨rest', whole'⟩ := ended
      rw [String.toList_append, String.toList_append] at whole
      have first := congrArg List.head? (whole.trans whole'.symm)
      cases first
    · rw [found] at ended
      cases ended

end Rendering

end Caret

variable {σ : Type}

/-- A parse error that a run reports has a place in the text of the run. -/
theorem Caret.sits_of_failure {session next : Session σ} {grammar : Grammar (HostCall σ)} {rule : Rule (HostCall σ)}
    {budget : Nat} {shape : Shape} {report : Report} {error : ParseError}
    (ran : session.run (rule.matcher (HostCall.interpret Engine.call) grammar budget) shape = some (report, next))
    (failed : report.ending = .ok (.failure error)) :
    ∃ row column, Lines.Sits (session.context.source.toList.splitOn '\n') error.position row column := by
  obtain ⟨last, concludes, _⟩ := Session.concludes_of_run (Session.idle_of_failure ran failed) ran
  obtain ⟨after, paths, answer, plain, _, _, rfl, _⟩ := concludes.of_failure failed
  have start : HostCall.InText session.context ({ memory := session.state.memory } : State σ) :=
    ⟨⟨Int.le_refl 0, Int.natCast_nonneg _⟩, Nat.zero_le _⟩
  exact Lines.sits_resolve (HostCall.inText_matcher start plain).deepest

open Caret Lines

/-- A parse error that a run reports can be shown against the text of the run, in every form. Shown in several lines,
the last of them is the caret in the column of the error, and the one above it is the line of the error. If the
offending character is visible, the line has it where the caret stands; otherwise the caret stands behind the line. The
first line speaks of the end of the text if the error is there, and only then. Actions and factories may be any
functions of the host program. -/
theorem run_error_renders {session next : Session σ} {grammar : Grammar (HostCall σ)} {rule : Rule (HostCall σ)}
    {budget : Nat} {shape : Shape} {report : Report} {error : ParseError}
    (ran : session.run (rule.matcher (HostCall.interpret Engine.call) grammar budget) shape = some (report, next))
    (failed : report.ending = .ok (.failure error)) :
    let source := session.context.source
    let text := source.toList
    let position := error.position
    (∀ format, ∃ shown, error.render source format = .ok shown) ∧
    ∃ shown head line, error.render source .text = .ok shown ∧ source.line position.line = .ok line ∧
      shown = head ++ "\n" ++ line ++ "\n" ++ String.ofList (List.replicate (position.column - 1) ' ' ++ ['^']) ∧
      '\n' ∉ line.toList ∧
      (Visible text position.offset → line.toList[position.column - 1]? = text[position.offset]?) ∧
      (¬Visible text position.offset → line.length ≤ position.column - 1) ∧
      ("Unexpected end of input".toList <+: shown.toList ↔ position.offset = text.length) := by
  intro source text position
  obtain ⟨row, column, sits⟩ := sits_of_failure ran failed
  have inside : position.offset ≤ source.length := sits.atOffset ▸ offsetOf_le_length sits.onLine
  obtain ⟨line, here, _⟩ := sits.onLine
  obtain ⟨head, begins, rendered⟩ := exists_renderText (line_eq sits here) (column_le_length sits)
  constructor
  · intro format
    cases format with
    | text => exact ⟨_, rendered⟩
    | simple => exact ⟨_, rfl⟩
    | json => exact ⟨_, rfl⟩
  · refine ⟨_, head, _, rendered, line_eq sits here, rfl, ?_, ?_, ?_, ?_⟩
    · rw [String.toList_ofList]
      intro feed
      exact not_mem_of_mem_splitOn (List.mem_of_getElem? here) ((prefix_dropCarriageReturn line).subset feed)
    · rw [String.toList_ofList]
      exact getElem?_of_visible sits here
    · rw [String.length_ofList]
      exact length_le_of_not_visible sits here
    · rw [← found?_eq_none_iff inside]
      refine endOfInput_prefix_iff (begins.trans ?_)
      simp only [String.toList_append, List.append_assoc]
      exact List.prefix_append _ _

def loneReturn : Session Unit :=
  { context := ⟨Source.ofString "\na\r", 10, 10⟩, state := { running := false, memory := () } }

/-- The carriage return is no part of the line, so the caret stands behind the line, and not at the end of the text. -/
theorem run_error_of_lone_return_renders : ∃ report next error shown head,
    loneReturn.run (Rule.matcher (HostCall.interpret Engine.call) { definitions := [] } 1 (.literal "\nab")) .all =
      some (report, next) ∧
    report.ending = .ok (.failure error) ∧ error.position.offset = 2 ∧
    error.render loneReturn.context.source .text = .ok shown ∧ shown = head ++ "\n" ++ "a" ++ "\n" ++ " ^" ∧
    ¬"Unexpected end of input".toList <+: shown.toList := by
  have ran : ∃ report next error,
      loneReturn.run (Rule.matcher (HostCall.interpret Engine.call) { definitions := [] } 1 (.literal "\nab")) .all =
        some (report, next) ∧
      report.ending = .ok (.failure error) ∧ error.position.offset = 2 ∧ error.position.line = 2 ∧
      error.position.column = 2 := ⟨_, _, _, rfl, rfl, rfl, rfl, rfl⟩
  obtain ⟨report, next, error, ran, failed, offset, atLine, atColumn⟩ := ran
  obtain ⟨_, shown, head, line, rendered, shows, split, _, _, _, ended⟩ := run_error_renders ran failed
  rw [atLine] at shows
  obtain rfl : "a" = line := by
    cases shows
    rfl
  rw [atColumn] at split
  refine ⟨report, next, error, shown, head, ran, failed, offset, rendered, split, ?_⟩
  rw [ended, offset]
  decide

end PegMatcher
