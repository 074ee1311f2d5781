import PegMatcher.Proofs.Innermost
import PegMatcher.Rendering

/-! # Which renderings are a single printable line

The simple rendering of a parse error is meant to be one line of a log, with nothing in it that the text or the rules
could have smuggled in. It consists of a few fixed words, two numbers, a character of the text that is escaped if it is
not printable, and the labels of what was expected. The labels of leaves quote what the leaf is looking for, except
that ranges show their bounds as they are. So the rendering is printable exactly if the bounds of the expected ranges
are, and a range between control characters puts these characters into it.
-/

namespace PegMatcher

variable {σ χ : Type}

namespace Text

def Printable (text : String) : Prop :=
  ∀ c ∈ text.toList, isPrintable c = true

instance (text : String) : Decidable (Printable text) :=
  decidable_of_iff (text.toList.all isPrintable = true) List.all_eq_true

private theorem isPrintable_of_ascii {c : Char} (low : 0x20 ≤ c.toNat) (high : c.toNat ≤ 0x7e) :
    isPrintable c = true := by
  have first : (0x20, 0x7e) ∈ printableRanges := List.mem_cons_self
  refine List.any_eq_true.mpr ⟨_, first, ?_⟩
  rw [decide_eq_true low, decide_eq_true high, Bool.and_self]

@[simp] theorem printable_append {front back : String} :
    Printable (front ++ back) ↔ Printable front ∧ Printable back := by
  rw [Printable, String.toList_append]
  exact List.forall_mem_append

/-- Texts that are joined by a printable separator are printable together if each of them is. -/
theorem printable_intercalate {separator : String} (printable : Printable separator) (texts : List String) :
    Printable (separator.intercalate texts) ↔ ∀ text ∈ texts, Printable text := by
  induction texts with
  | nil => exact ⟨fun _ => nofun, fun _ => nofun⟩
  | cons first rest ih =>
    cases rest with
    | nil => simp
    | cons second rest => simp [String.intercalate_cons_cons, ih, printable]

private theorem isPrintable_hexDigit : ∀ n < 16, isPrintable (hexDigit n) = true := by
  decide

private theorem isPrintable_hexDigits (width n : Nat) : ∀ d ∈ hexDigits width n, isPrintable d = true := by
  induction width generalizing n with
  | zero => exact nofun
  | succ width ih =>
    refine List.forall_mem_append.mpr ⟨ih (n / 16), List.forall_mem_singleton.mpr ?_⟩
    exact isPrintable_hexDigit _ (Nat.mod_lt n (by decide))

private theorem isPrintable_escapeCode (c : Char) : ∀ d ∈ escapeCode c, isPrintable d = true := by
  have code (letter : Char) (printable : isPrintable letter = true) (width : Nat) :
      ∀ d ∈ '\\' :: letter :: hexDigits width c.toNat, isPrintable d = true := by
    refine List.forall_mem_cons.mpr ⟨by decide, List.forall_mem_cons.mpr ⟨printable, ?_⟩⟩
    exact isPrintable_hexDigits width c.toNat
  rw [escapeCode]
  split_ifs
  · exact code 'n' (by decide) 0
  · exact code 'r' (by decide) 0
  · exact code 't' (by decide) 0
  · exact code 'x' (by decide) 2
  · exact code 'u' (by decide) 4
  · exact code 'U' (by decide) 8

/-- An escaped character is printable, whatever the character is. -/
theorem isPrintable_escapeUnprintable (c : Char) : ∀ d ∈ escapeUnprintable c, isPrintable d = true := by
  rw [escapeUnprintable]
  split_ifs with printable
  · exact List.forall_mem_singleton.mpr printable
  · exact isPrintable_escapeCode c

private theorem isPrintable_quoteChar {mark : Char} (printable : isPrintable mark = true) (c : Char) :
    ∀ d ∈ quoteChar mark c, isPrintable d = true := by
  rw [quoteChar]
  split_ifs with special
  · refine List.forall_mem_cons.mpr ⟨by decide, List.forall_mem_singleton.mpr ?_⟩
    obtain rfl | rfl := special
    · exact printable
    · decide
  · exact isPrintable_escapeUnprintable c

/-- A quoted text is printable, whatever the text is. -/
theorem printable_quote (text : String) : Printable (quote text) := by
  have mark : isPrintable (quoteMark text.toList) = true := by
    rw [quoteMark]
    split_ifs <;> decide
  rw [Printable, toList_quote, quoteChars]
  refine List.forall_mem_append.mpr ⟨List.forall_mem_cons.mpr ⟨mark, ?_⟩, List.forall_mem_singleton.mpr mark⟩
  intro d member
  obtain ⟨c, _, written⟩ := List.mem_flatMap.mp member
  exact isPrintable_quoteChar mark c d written

private theorem printable_toString (n : Nat) : Printable (toString n) := by
  intro c member
  change c ∈ n.repr.toList at member
  rw [Nat.toList_repr] at member
  have digit : 48 ≤ c.toNat ∧ c.toNat ≤ 57 :=
    Char.isDigit_iff_toNat.mp (Nat.isDigit_of_mem_toDigits (by decide) (by decide) member)
  exact isPrintable_of_ascii (by omega) (by omega)

end Text

open Text

namespace ParseError

private theorem printable_problem (error : ParseError) (source : Source) : Printable (error.problem source) := by
  rw [problem]
  split
  · decide
  · rename_i c _
    have escaped : Printable (String.ofList (escapeUnprintable c)) := by
      rw [Printable, String.toList_ofList]
      exact isPrintable_escapeUnprintable c
    exact printable_append.mpr ⟨printable_append.mpr ⟨by decide, escaped⟩, by decide⟩

/-- The simple rendering is printable exactly if the labels of the innermost frames are. -/
theorem printable_renderSimple (error : ParseError) (source : Source) :
    Printable (error.renderSimple source) ↔
      ∀ stack ∈ error.ruleStacks, ∀ frame, stack.innermost? = some frame → Printable frame.label := by
  have labels : (∀ label ∈ error.expected, Printable label) ↔
      ∀ stack ∈ error.ruleStacks, ∀ frame, stack.innermost? = some frame → Printable frame.label := by
    simp only [expected, List.mem_eraseDups, List.mem_filterMap, Option.map_eq_some_iff]
    grind
  have head : Printable (toString error.position.line ++ ":" ++ toString error.position.column ++ ": " ++
      error.problem source) := by
    simp only [printable_append, printable_toString, printable_problem, and_true, true_and]
    decide
  rw [renderSimple, ← labels]
  split_ifs with nothing
  · rw [List.isEmpty_iff.mp nothing]
    exact ⟨fun _ => nofun, fun _ => head⟩
  · have opening : Printable " (expected: " := by decide
    have closing : Printable ")" := by decide
    have comma : Printable ", " := by decide
    simp only [printable_append, head, opening, closing, printable_intercalate comma, true_and, and_true]

end ParseError

namespace SingleLine

private theorem printable_rangeFrame (low high : String) :
    Printable (Matcher.rangeFrame low high).label ↔ Printable low ∧ Printable high := by
  have fixed : Printable "[" ∧ Printable "-" ∧ Printable "]" := by decide
  change Printable ("[" ++ (low ++ "-" ++ high) ++ "]") ↔ _
  simp only [printable_append, fixed, true_and, and_true]

/-- The label of a leaf is printable, unless the leaf is a range with a bound that is not. -/
theorem printable_label {leaf : Rule χ} {frame : Frame} (isLeaf : leaf.IsLeaf) (framed : leaf.frame? = some frame)
    (bounds : ∀ low high, leaf = .range low high → Printable low ∧ Printable high) : Printable frame.label := by
  cases leaf with
  | char c =>
    cases framed
    exact printable_quote (String.singleton c)
  | literal text =>
    cases framed
    exact printable_quote text
  | anyOf chars =>
    cases framed
    exact printable_append.mpr ⟨by decide, printable_quote chars⟩
  | range low high =>
    cases framed
    exact (printable_rangeFrame low high).mpr (bounds low high rfl)
  | anyChar =>
    cases framed
    decide
  | endOfInput =>
    cases framed
    decide
  | _ => exact isLeaf.elim

end SingleLine

open SingleLine

/-- The simple rendering of a parse error is a single printable line, whatever the text and the names, literals and
character sets of the rules are, but not whatever the ranges are. It is printable exactly if the bounds of all ranges
that it lists are. So it is printable for rules whose ranges have printable bounds. -/
theorem simple_rendering_is_printable_but_for_ranges {session next : Session σ} {grammar : Grammar (HostCall σ)}
    {rule : Rule (HostCall σ)} (quiet : ∀ part, grammar.Meets rule part → part.Quiet) {budget : Nat} {shape : Shape}
    {report : Report} {error : ParseError}
    (ran : session.run (rule.matcher (HostCall.interpret Engine.call) grammar budget) shape = some (report, next))
    (failed : report.ending = .ok (.failure error)) :
    ∃ line, error.render session.context.source .simple = .ok line ∧
      (Printable line ↔ ∀ stack ∈ error.ruleStacks, ∀ low high,
        stack.innermost? = some (Matcher.rangeFrame low high) → Printable low ∧ Printable high) ∧
      ((∀ low high, grammar.Meets rule (.range low high) → Printable low ∧ Printable high) → Printable line) := by
  have ends := Innermost.of_failure quiet ran failed
  refine ⟨_, rfl, ?_, ?_⟩
  · rw [ParseError.printable_renderSimple]
    constructor
    · intro labels stack member low high innermost
      exact (printable_rangeFrame low high).mp (labels stack member _ innermost)
    · intro bounds stack member frame innermost
      obtain ⟨leaf, _, isLeaf, framed⟩ := (ends stack member).exists_leaf innermost
      refine printable_label isLeaf framed ?_
      rintro low high rfl
      cases framed
      exact bounds stack member low high innermost
  · intro bounds
    rw [ParseError.printable_renderSimple]
    intro stack member frame innermost
    obtain ⟨leaf, meets, isLeaf, framed⟩ := (ends stack member).exists_leaf innermost
    -- Another range may have the same frame, so the bounds are those of the range that was met.
    refine printable_label isLeaf framed ?_
    rintro low high rfl
    exact bounds low high meets

/-- A choice between a range of letters and two leaves that look for what is not printable. -/
def blanks : Rule (HostCall Unit) :=
  .firstOf [.range "a" "z", .literal "\r\n", .char '\t']

def narrowSession (text : String) : Session Unit :=
  { context := ⟨Source.ofString text, 10, 10⟩, state := { running := false, memory := () } }

private theorem quiet_and_printable_of_meets_blanks {part : Rule (HostCall Unit)}
    (meets : Grammar.Meets ⟨[]⟩ blanks part) :
    part.Quiet ∧ ∀ low high, part = .range low high → Printable low ∧ Printable high := by
  have known := Grammar.mem_of_meets_leaves (by simp [Rule.IsLeaf]) meets
  simp only [List.mem_cons, List.not_mem_nil, or_false] at known
  rcases known with rfl | rfl | rfl | rfl <;> refine ⟨trivial, ?_⟩ <;> rintro _ _ ⟨⟩
  decide

/-- Neither the text nor the literals bring their control characters into the rendering. -/
theorem simple_rendering_of_blanks_is_printable :
    ∃ report next error line,
      (narrowSession "\n").run (blanks.matcher (HostCall.interpret Engine.call) ⟨[]⟩ 3) .all = some (report, next) ∧
      report.ending = .ok (.failure error) ∧ error.ruleStacks.length = 3 ∧
      error.render (Source.ofString "\n") .simple = .ok line ∧ Printable line := by
  have ran : ∃ report next error,
      (narrowSession "\n").run (blanks.matcher (HostCall.interpret Engine.call) ⟨[]⟩ 3) .all = some (report, next) ∧
      report.ending = .ok (.failure error) ∧ error.ruleStacks.length = 3 :=
    ⟨_, _, _, rfl, rfl, rfl⟩
  obtain ⟨report, next, error, ran, failed, count⟩ := ran
  have quiet (part : Rule (HostCall Unit)) (meets : Grammar.Meets ⟨[]⟩ blanks part) :=
    (quiet_and_printable_of_meets_blanks meets).1
  obtain ⟨line, rendered, _, printable⟩ := simple_rendering_is_printable_but_for_ranges quiet ran failed
  refine ⟨report, next, error, line, ran, failed, count, rendered, printable fun low high meets => ?_⟩
  exact (quiet_and_printable_of_meets_blanks meets).2 low high rfl

/-- A range between two control characters breaks the line. -/
theorem simple_rendering_of_control_range_breaks :
    ∃ report next error line,
      (narrowSession "x").run
        ((.range "\n" "\r" : Rule (HostCall Unit)).matcher (HostCall.interpret Engine.call) ⟨[]⟩ 1) .all =
          some (report, next) ∧
      report.ending = .ok (.failure error) ∧ error.render (Source.ofString "x") .simple = .ok line ∧
      '\n' ∈ line.toList ∧ ¬Printable line := by
  have feed : isPrintable '\n' ≠ true := by decide +kernel
  have breaks : '\n' ∈ "1:1: Invalid input 'x' (expected: [\n-\r])".toList := by decide
  exact ⟨_, _, _, _, rfl, rfl, rfl, breaks, fun printable => feed (printable '\n' breaks)⟩

end PegMatcher
