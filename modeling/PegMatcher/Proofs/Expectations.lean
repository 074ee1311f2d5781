import Mathlib.Data.List.Induction
import PegMatcher.Proofs.Innermost
import PegMatcher.Proofs.Quoting

/-! # Labels tell expectations apart

A parse error lists what was expected by the labels of leaves, each label once. Nothing is lost by that: a label tells
what its leaf was looking for, up to the difference between a character and the literal of it, as long as ranges have
single characters as their bounds. `Frame.ofLabel?` reads a label back. The kinds of leaves differ in how their labels
begin, and what is quoted can be unquoted.
-/

namespace PegMatcher

variable {σ χ : Type}

/-- A range, if the rule is one, is bounded by two characters. -/
def Rule.SingleBounds : Rule χ → Prop
  | .range low high => low.length = 1 ∧ high.length = 1
  | _ => True

namespace Frame

/-- What a leaf is looking for, as a frame: a character is taken for the literal of it. -/
def expectation (frame : Frame) : Frame :=
  if frame.kind = .charMatch then { frame with kind := .stringMatch } else frame

/-- The expectation of a leaf with a given label. -/
def ofLabel? (label : String) : Option Frame :=
  match label.toList with
  | ['a', 'n', 'y', '-', 'c', 'h', 'a', 'r'] => some { kind := .anyChar }
  | ['e', 'n', 'd', '-', 'o', 'f', '-', 'i', 'n', 'p', 'u', 't'] => some { kind := .endOfInput }
  | ['[', low, '-', high, ']'] => some (Matcher.rangeFrame (String.singleton low) (String.singleton high))
  | 'a' :: 'n' :: 'y' :: ' ' :: 'o' :: 'f' :: ' ' :: quoted =>
    (Text.unquote (String.ofList quoted)).map Matcher.anyOfFrame
  | _ => (Text.unquote label).map Matcher.literalFrame

end Frame

namespace Expectations

private theorem exists_singleton {text : String} (single : text.length = 1) : ∃ c, text = String.singleton c := by
  rw [← String.length_toList, List.length_eq_one_iff] at single
  obtain ⟨c, only⟩ := single
  refine ⟨c, String.toList_injective ?_⟩
  rw [only, String.toList_singleton]

/-- A quoted text is the label of a literal. -/
theorem ofLabel?_quote (text : String) : Frame.ofLabel? (Text.quote text) = some (Matcher.literalFrame text) := by
  have begins : ∃ mark rest, (Text.quote text).toList = mark :: rest ∧ (mark = '\'' ∨ mark = '"') := by
    rw [Text.toList_quote]
    exact ⟨_, _, rfl, Text.quoteMark_eq text.toList⟩
  obtain ⟨mark, rest, begins, isMark⟩ := begins
  -- No other label begins with a quote mark.
  rw [Frame.ofLabel?, begins, Text.unquote_quote, Option.map_some]
  obtain rfl | rfl := isMark <;> rfl

/-- The label of a leaf is read back as what the leaf is looking for. -/
theorem ofLabel?_label {leaf : Rule χ} {frame : Frame} (isLeaf : leaf.IsLeaf) (single : leaf.SingleBounds)
    (framed : leaf.frame? = some frame) : Frame.ofLabel? frame.label = some frame.expectation := by
  cases leaf with
  | char c =>
    cases framed
    exact ofLabel?_quote (String.singleton c)
  | literal text =>
    cases framed
    exact ofLabel?_quote text
  | anyOf chars =>
    cases framed
    have begins : (Matcher.anyOfFrame chars).label.toList =
        'a' :: 'n' :: 'y' :: ' ' :: 'o' :: 'f' :: ' ' :: (Text.quote chars).toList := by
      simp only [Frame.label, Matcher.anyOfFrame, String.toList_append]
      rfl
    rw [Frame.ofLabel?, begins]
    change (Text.unquote (String.ofList (Text.quote chars).toList)).map Matcher.anyOfFrame = _
    rw [String.ofList_toList, Text.unquote_quote, Option.map_some]
    rfl
  | range low high =>
    cases framed
    obtain ⟨a, rfl⟩ := exists_singleton single.1
    obtain ⟨b, rfl⟩ := exists_singleton single.2
    have begins : (Matcher.rangeFrame (String.singleton a) (String.singleton b)).label.toList =
        ['[', a, '-', b, ']'] := by
      simp only [Frame.label, Matcher.rangeFrame, String.toList_append, String.toList_singleton]
      rfl
    rw [Frame.ofLabel?, begins]
    rfl
  | anyChar =>
    cases framed
    rfl
  | endOfInput =>
    cases framed
    rfl
  | _ => exact isLeaf.elim

/-- Labels of leaves are equal only if the leaves look for the same. -/
theorem expectation_eq_of_label_eq {first second : Rule χ} {f g : Frame} (isLeaf : first.IsLeaf)
    (isLeaf' : second.IsLeaf) (single : first.SingleBounds) (single' : second.SingleBounds)
    (framed : first.frame? = some f) (framed' : second.frame? = some g) (same : f.label = g.label) :
    f.expectation = g.expectation := by
  have reads := ofLabel?_label isLeaf single framed
  rw [same, ofLabel?_label isLeaf' single' framed'] at reads
  exact (Option.some.inj reads).symm

/-- What a leaf is looking for has the label of the leaf. -/
theorem label_expectation (frame : Frame) : frame.expectation.label = frame.label := by
  rw [Frame.expectation]
  split_ifs with char
  · simp only [Frame.label, char]
  · rfl

/-- Of two leaves that look for the same, one can only be a character if the other one is that character or the literal
of it. -/
theorem eq_or_of_charMatch {rule : Rule χ} {f g : Frame} (framed : rule.frame? = some f)
    (char : f.kind = .charMatch) (same : f.expectation = g.expectation) :
    f = g ∨ ∃ c, f = Matcher.charFrame c ∧ g = Matcher.literalFrame (String.singleton c) := by
  rw [Frame.expectation, if_pos char, Frame.expectation] at same
  split_ifs at same with char'
  · left
    cases f
    cases g
    simp_all
  · right
    cases rule with
    | char c =>
      cases framed
      exact ⟨c, rfl, same.symm⟩
    | _ => cases framed <;> cases char

/-- Leaves look for the same if they have the same frame, or one of them is a character and the other one the literal
of it. -/
theorem eq_or_of_expectation_eq {first second : Rule χ} {f g : Frame} (framed : first.frame? = some f)
    (framed' : second.frame? = some g) (same : f.expectation = g.expectation) :
    f = g ∨ ∃ c, f = Matcher.charFrame c ∧ g = Matcher.literalFrame (String.singleton c) ∨
      f = Matcher.literalFrame (String.singleton c) ∧ g = Matcher.charFrame c := by
  by_cases char : f.kind = .charMatch
  · obtain equal | ⟨c, pair⟩ := eq_or_of_charMatch framed char same
    · exact .inl equal
    · exact .inr ⟨c, .inl pair⟩
  · by_cases char' : g.kind = .charMatch
    · obtain equal | ⟨c, pair⟩ := eq_or_of_charMatch framed' char' same.symm
      · exact .inl equal.symm
      · exact .inr ⟨c, .inr pair.symm⟩
    · rw [Frame.expectation, if_neg char, Frame.expectation, if_neg char'] at same
      exact .inl same

section Distinct

variable {α β : Type} [DecidableEq α] [DecidableEq β]

/-- One more member is kept at the end unless it is there before. -/
theorem eraseDups_concat (members : List α) (last : α) :
    (members ++ [last]).eraseDups = members.eraseDups ++ if last ∈ members then [] else [last] := by
  rw [List.eraseDups_append, List.cons_removeAll]
  split_ifs <;> simp_all [List.removeAll, List.eraseDups_cons]

private theorem eraseDups_map {members : List α} {f : α → β}
    (injective : ∀ a ∈ members, ∀ b ∈ members, f a = f b → a = b) :
    (members.map f).eraseDups = members.eraseDups.map f := by
  induction members using List.reverseRecOn with
  | nil => rfl
  | append_singleton members last ih =>
    have kept : f last ∈ members.map f ↔ last ∈ members := by
      constructor
      · intro image
        obtain ⟨a, member, same⟩ := List.mem_map.mp image
        rw [← injective a (by simp [member]) last (by simp) same]
        exact member
      · exact List.mem_map_of_mem
    have front := ih fun a member b member' => injective a (by simp [member]) b (by simp [member'])
    rw [List.map_append, List.map_singleton, eraseDups_concat, eraseDups_concat, front, List.map_append]
    simp only [kept]
    split_ifs <;> rfl

/-- The members of a list are kept in the order of their first occurrence. -/
theorem pairwise_eraseDups (members : List α) :
    members.eraseDups.Pairwise fun a b => members.idxOf a < members.idxOf b := by
  -- From the end, because a member added there leaves the first occurrences of the others where they are.
  induction members using List.reverseRecOn with
  | nil => exact List.Pairwise.nil
  | append_singleton members last ih =>
    have front : members.eraseDups.Pairwise fun a b =>
        (members ++ [last]).idxOf a < (members ++ [last]).idxOf b := by
      refine ih.imp_of_mem fun inside inside' before => ?_
      rw [List.idxOf_append_of_mem (List.mem_eraseDups.mp inside),
        List.idxOf_append_of_mem (List.mem_eraseDups.mp inside')]
      exact before
    rw [eraseDups_concat]
    split_ifs with known
    · rw [List.append_nil]
      exact front
    · refine List.pairwise_append.mpr ⟨front, List.pairwise_singleton _ _, fun a inside b added => ?_⟩
      obtain rfl := List.mem_singleton.mp added
      have earlier := List.idxOf_lt_length_of_mem (List.mem_eraseDups.mp inside)
      rw [List.idxOf_append_of_mem (List.mem_eraseDups.mp inside), List.idxOf_append_of_notMem known]
      omega

end Distinct

/-- The labels of leaves, each once, are the labels of what the leaves look for, each once. -/
theorem eraseDups_labels {leaves : List Frame}
    (met : ∀ frame ∈ leaves, ∃ leaf : Rule χ, leaf.IsLeaf ∧ leaf.SingleBounds ∧ leaf.frame? = some frame) :
    (leaves.map Frame.label).eraseDups = (leaves.map Frame.expectation).eraseDups.map Frame.label := by
  have labels : leaves.map Frame.label = (leaves.map Frame.expectation).map Frame.label := by
    rw [List.map_map]
    exact List.map_congr_left fun frame _ => (label_expectation frame).symm
  rw [labels, eraseDups_map]
  -- Labels are not injective on frames, but on what the frames of leaves look for.
  intro a member b member' same
  obtain ⟨f, inside, rfl⟩ := List.mem_map.mp member
  obtain ⟨g, inside', rfl⟩ := List.mem_map.mp member'
  obtain ⟨first, isLeaf, single, framed⟩ := met f inside
  obtain ⟨second, isLeaf', single', framed'⟩ := met g inside'
  rw [label_expectation, label_expectation] at same
  exact expectation_eq_of_label_eq isLeaf isLeaf' single single' framed framed' same

end Expectations

open Expectations

/-- Labels tell expectations apart. Leaves whose ranges are bounded by single characters have equal labels only if they
have the same frame, or one of them is a character and the other one the literal of it. In particular a quoted text can
be unquoted. So the labels that a parse error lists are those of the distinct expectations at the ends of its rule
stacks: none is missing, and each of them is listed once, in the order of their first occurrence. -/
theorem labels_tell_expectations_apart :
    (∀ (first second : Rule χ) (f g : Frame), first.IsLeaf → second.IsLeaf → first.SingleBounds →
      second.SingleBounds → first.frame? = some f → second.frame? = some g → f.label = g.label →
        f = g ∨ ∃ c, f = Matcher.charFrame c ∧ g = Matcher.literalFrame (String.singleton c) ∨
          f = Matcher.literalFrame (String.singleton c) ∧ g = Matcher.charFrame c) ∧
    (∀ text, Text.unquote (Text.quote text) = some text) ∧
    ∀ (session next : Session σ) (grammar : Grammar (HostCall σ)) (rule : Rule (HostCall σ)) (budget : Nat)
      (shape : Shape) (report : Report) (error : ParseError),
      (∀ part, grammar.Meets rule part → part.Quiet ∧ part.SingleBounds) →
      session.run (rule.matcher (HostCall.interpret Engine.call) grammar budget) shape = some (report, next) →
      report.ending = .ok (.failure error) →
      ∃ leaves distinct : List Frame,
        error.ruleStacks.map RuleStack.innermost? = leaves.map some ∧
        (∀ frame ∈ leaves, ∃ leaf, grammar.Meets rule leaf ∧ leaf.IsLeaf ∧ leaf.frame? = some frame) ∧
        (∀ frame, frame ∈ distinct ↔ frame ∈ leaves.map Frame.expectation) ∧
        distinct.Pairwise (fun a b =>
          (leaves.map Frame.expectation).idxOf a < (leaves.map Frame.expectation).idxOf b) ∧
        error.expected = distinct.map Frame.label ∧ error.expected.Nodup := by
  refine ⟨?_, Text.unquote_quote, ?_⟩
  · intro first second f g isLeaf isLeaf' single single' framed framed' same
    exact eq_or_of_expectation_eq framed framed'
      (expectation_eq_of_label_eq isLeaf isLeaf' single single' framed framed' same)
  · intro session next grammar rule budget shape report error orderly ran failed
    have quiet (part : Rule (HostCall σ)) (meets : grammar.Meets rule part) := (orderly part meets).1
    obtain ⟨leaves, frames, expected, met⟩ := Innermost.exists_leaves_of_failure quiet ran failed
    refine ⟨leaves, (leaves.map Frame.expectation).eraseDups, frames, met, fun frame => List.mem_eraseDups,
      pairwise_eraseDups _, ?_, ?_⟩
    · rw [expected, eraseDups_labels]
      intro frame member
      obtain ⟨leaf, meets, isLeaf, framed⟩ := met frame member
      exact ⟨leaf, isLeaf, (orderly leaf meets).2, framed⟩
    · rw [expected]
      refine (pairwise_eraseDups _).imp fun before same => ?_
      rw [same] at before
      exact Nat.lt_irrefl _ before

/-- A choice between leaves whose labels are alike. -/
def lookalikes : Rule (HostCall Unit) :=
  .firstOf [.anyOf "a", .char 'a', .literal "any of 'a'", .literal "a", .range "a" "-"]

def lookalikeSession : Session Unit :=
  { context := ⟨Source.ofString "x", 10, 10⟩, state := { running := false, memory := () } }

private theorem orderly_of_meets_lookalikes {part : Rule (HostCall Unit)} (meets : Grammar.Meets ⟨[]⟩ lookalikes part) :
    part.Quiet ∧ part.SingleBounds := by
  have known := Grammar.mem_of_meets_leaves (by simp [Rule.IsLeaf]) meets
  simp only [List.mem_cons, List.not_mem_nil, or_false] at known
  rcases known with rfl | rfl | rfl | rfl | rfl | rfl <;> simp [Rule.Quiet, Rule.SingleBounds]
  decide

/-- Of five leaves that look alike, only the character and the literal of it are listed as one. -/
theorem labels_of_lookalikes :
    ∃ (report : Report) (next : Session Unit) (error : ParseError) (distinct : List Frame),
      lookalikeSession.run (lookalikes.matcher (HostCall.interpret Engine.call) ⟨[]⟩ 3) .all = some (report, next) ∧
      report.ending = .ok (.failure error) ∧ error.ruleStacks.length = 5 ∧
      error.expected = distinct.map Frame.label ∧ error.expected.Nodup ∧
      ∀ frame, frame ∈ distinct ↔ frame ∈ [Matcher.anyOfFrame "a", Matcher.literalFrame "a",
        Matcher.literalFrame "any of 'a'", Matcher.rangeFrame "a" "-"] := by
  have ran : ∃ report next error,
      lookalikeSession.run (lookalikes.matcher (HostCall.interpret Engine.call) ⟨[]⟩ 3) .all = some (report, next) ∧
      report.ending = .ok (.failure error) ∧ error.ruleStacks.map RuleStack.innermost? =
        [Matcher.anyOfFrame "a", Matcher.charFrame 'a', Matcher.literalFrame "any of 'a'", Matcher.literalFrame "a",
          Matcher.rangeFrame "a" "-"].map some :=
    ⟨_, _, _, rfl, rfl, rfl⟩
  obtain ⟨report, next, error, ran, failed, innermost⟩ := ran
  obtain ⟨_, _, listed⟩ := @labels_tell_expectations_apart Unit Empty
  obtain ⟨leaves, distinct, frames, _, members, _, labels, once⟩ :=
    listed _ _ _ _ _ _ _ _ (fun _ => orderly_of_meets_lookalikes) ran failed
  obtain rfl := List.map_injective_iff.mpr (fun _ _ => Option.some.inj) (innermost.symm.trans frames)
  refine ⟨report, next, error, distinct, ran, failed, ?_, labels, once, fun frame => (members frame).trans ?_⟩
  · simpa using congrArg List.length innermost
  · change frame ∈ [Matcher.anyOfFrame "a", Matcher.literalFrame "a", Matcher.literalFrame "any of 'a'",
      Matcher.literalFrame "a", Matcher.rangeFrame "a" "-"] ↔ _
    simp only [List.mem_cons, List.not_mem_nil, or_false]
    grind

end PegMatcher
