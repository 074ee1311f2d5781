import PegMatcher.Proofs.Keeping
import PegMatcher.Proofs.Parsing
import PegMatcher.Proofs.Recognition
import PegMatcher.Proofs.Verdict

/-! # Rule stacks are trails through the grammar

A trail goes from a rule down to a leaf, from each rule to one of its parts, and through references to what
they stand for. The frames of a rule stack are those of the rules on a trail from the top rule, and the leaf
at the end of it does fail where the run has failed.

What a composite rule reports is what its parts report, with its frame in front: `Reports` is closed under
everything that composite matchers are made of. Only leaves report mismatches of their own, and they look at
the text first. That the cursor is in the text then is asked of all moments of a record, because it passes to
both parts of a composed evaluation; `dwells_matcher` provides it.
-/

namespace PegMatcher

variable {σ χ : Type}

namespace Rule

/-- The frame that a rule adds to a rule stack. Rules that hold no mismatch and references have none. -/
def frame? : Rule χ → Option Frame
  | char c => some (Matcher.charFrame c)
  | literal text => some (Matcher.literalFrame text)
  | anyOf chars => some (Matcher.anyOfFrame chars)
  | range low high => some (Matcher.rangeFrame low high)
  | anyChar => some { kind := .anyChar }
  | endOfInput => some { kind := .endOfInput }
  | sequence _ => some { kind := .sequence }
  | firstOf _ => some { kind := .firstOf }
  | optional _ => some { kind := .optional }
  | zeroOrMore _ => some { kind := .zeroOrMore }
  | oneOrMore _ => some { kind := .oneOrMore }
  | andPredicate _ => some { kind := .andPredicate }
  | notPredicate _ => some { kind := .notPredicate }
  | capture _ => some { kind := .capture }
  | named name _ => some { kind := .named, name := name }
  | push _ => none
  | action _ _ => none
  | reference _ => none
  | unbuilt _ => none
  | extension _ _ => none

/-- A leaf looks at the text itself. -/
def IsLeaf : Rule χ → Prop
  | char _ => True
  | literal _ => True
  | anyOf _ => True
  | range _ _ => True
  | anyChar => True
  | endOfInput => True
  | _ => False

end Rule

def RuleKind.isLeaf : RuleKind → Bool
  | charMatch => true
  | stringMatch => true
  | anyOf => true
  | charRange => true
  | anyChar => true
  | endOfInput => true
  | _ => false

namespace Rule

private theorem isLeaf_kind_iff {rule : Rule χ} {frame : Frame} (framed : rule.frame? = some frame) :
    frame.kind.isLeaf = true ↔ rule.IsLeaf := by
  cases rule <;> cases framed <;> simp [IsLeaf, RuleKind.isLeaf, Matcher.charFrame, Matcher.literalFrame,
    Matcher.anyOfFrame, Matcher.rangeFrame]

/-- Values leave no frames. -/
theorem kind_ne_action {rule : Rule χ} {frame : Frame} (framed : rule.frame? = some frame) :
    frame.kind ≠ .action := by
  cases rule <;> cases framed <;> nofun

/-- The matcher of a rule with a frame puts this frame around what it does, on every machine. -/
theorem exists_matcher_eq_framed {m : Type → Type} [Machine m] (host : Interpretation χ m) (grammar : Grammar χ)
    (budget : Nat) {rule : Rule χ} {frame : Frame} (framed : rule.frame? = some frame) :
    ∃ body : m Bool, rule.matcher host grammar (budget + 1) =
      Machine.suspend fun _ => Machine.framed frame body := by
  cases rule <;> cases framed <;> exact ⟨_, rfl⟩

theorem not_isLeaf_of_part {rule part : Rule χ} (member : part ∈ rule.parts) : ¬rule.IsLeaf := by
  cases rule <;> first | exact id | cases member

end Rule

/-- The trails from a rule down to a leaf, with the rules that are passed on the way. Each of these rules is
tried by the one before it on its own account; references are not counted, but followed. -/
inductive Grammar.Trail (grammar : Grammar χ) : Rule χ → List (Rule χ) → Rule χ → Prop
  | leaf {leaf : Rule χ} : leaf.IsLeaf → Trail grammar leaf [] leaf
  | part {rule part leaf : Rule χ} {passed : List (Rule χ)} : part ∈ rule.parts →
      Trail grammar part passed leaf → Trail grammar rule (rule :: passed) leaf
  | target {name : String} {target leaf : Rule χ} {passed : List (Rule χ)} :
      grammar.find? name = some target → Trail grammar target passed leaf →
      Trail grammar (.reference name) passed leaf

theorem Grammar.Trail.isLeaf {grammar : Grammar χ} {rule leaf : Rule χ} {passed : List (Rule χ)}
    (trail : grammar.Trail rule passed leaf) : leaf.IsLeaf ∧ ∀ inner ∈ passed, ¬inner.IsLeaf := by
  induction trail with
  | leaf isLeaf => exact ⟨isLeaf, nofun⟩
  | part member _ ih => exact ⟨ih.1, List.forall_mem_cons.mpr ⟨Rule.not_isLeaf_of_part member, ih.2⟩⟩
  | target _ _ ih => exact ih

/-- The text ends at an offset, or goes on with a character that is not admitted. -/
def Refuses (text : List Char) (offset : Nat) (admits : Char → Prop) : Prop :=
  offset = text.length ∨ ∃ c, text[offset]? = some c ∧ ¬admits c

private theorem Refuses.mono {text : List Char} {offset : Nat} {admits admits' : Char → Prop}
    (refuses : Refuses text offset admits) (fewer : ∀ c, admits' c → admits c) : Refuses text offset admits' := by
  obtain ended | ⟨c, here, refused⟩ := refuses
  · exact .inl ended
  · exact .inr ⟨c, here, fun admitted => refused (fewer c admitted)⟩

/-- The comparison at an offset by which a leaf fails. For a literal this may be in the middle: the text in
front of the offset goes on as the literal begins. -/
def Rule.FailsAt (text : List Char) (offset : Nat) : Rule χ → Prop
  | .literal word => ∃ count c, word.toList[count]? = some c ∧ count ≤ offset ∧
      (text.take offset).drop (offset - count) = word.toList.take count ∧ Refuses text offset (· = c)
  | .endOfInput => offset < text.length
  | rule => ∃ admits, rule.admits? = some admits ∧ Refuses text offset admits

private theorem not_of_refuses {text : List Char} {offset : Nat} {admits : Char → Prop}
    (refuses : Refuses text offset admits) {c : Char} (here : text[offset]? = some c) : ¬admits c := by
  obtain ended | ⟨other, there, refused⟩ := refuses
  · rw [List.getElem?_eq_none (Nat.le_of_eq ended.symm)] at here
    cases here
  · cases here.symm.trans there
    exact refused

/-- What a leaf that fails was looking for is not there, where it was tried. Only a literal may have been tried
in front of the offset. -/
theorem Rule.FailsAt.parses {grammar : Grammar χ} {text : List Char} {offset : Nat} {leaf : Rule χ}
    (fails : leaf.FailsAt text offset) :
    ∃ start, start ≤ offset ∧ ((∀ word, leaf ≠ .literal word) → start = offset) ∧
      Parses grammar text 0 leaf start .failure := by
  cases leaf with
  | literal word =>
    obtain ⟨count, c, expected, inside, begun, refuses⟩ := fails
    refine ⟨offset - count, Nat.sub_le _ _, fun none => absurd rfl (none word), .differs fun present => ?_⟩
    -- The character of the literal at its count would stand at the offset.
    obtain ⟨rest, whole⟩ := present
    have there : (text.drop (offset - count))[count]? = some c := by
      rw [← whole, List.getElem?_append_left (List.getElem?_eq_some_iff.mp expected).1, expected]
    rw [List.getElem?_drop, Nat.sub_add_cancel inside] at there
    exact not_of_refuses refuses there rfl
  | endOfInput => exact ⟨offset, Nat.le_refl _, fun _ => rfl, .continued fails⟩
  | _ =>
    obtain ⟨admits, same, refuses⟩ := fails
    exact ⟨offset, Nat.le_refl _, fun _ => rfl, .refused same fun _ here => not_of_refuses refuses here⟩

namespace Trails

/-- The frames of a path are those of a trail to a leaf that fails at an offset. -/
def Leads (grammar : Grammar χ) (text : List Char) (rule : Rule χ) (path : List Frame) (offset : Int) : Prop :=
  ∃ passed leaf, grammar.Trail rule passed leaf ∧ path.map some = (passed ++ [leaf]).map Rule.frame? ∧
    0 ≤ offset ∧ leaf.FailsAt text offset.toNat

private theorem leads_leaf {grammar : Grammar χ} {text : List Char} {leaf : Rule χ} {frame : Frame} {offset : Int}
    (isLeaf : leaf.IsLeaf) (framed : leaf.frame? = some frame) (start : 0 ≤ offset)
    (fails : leaf.FailsAt text offset.toNat) : Leads grammar text leaf [frame] offset :=
  ⟨[], leaf, .leaf isLeaf, by simp [framed], start, fails⟩

theorem Leads.part {grammar : Grammar χ} {text : List Char} {rule part : Rule χ} {frame : Frame}
    {path : List Frame} {offset : Int} (leads : Leads grammar text part path offset) (member : part ∈ rule.parts)
    (framed : rule.frame? = some frame) : Leads grammar text rule (frame :: path) offset := by
  obtain ⟨passed, leaf, trail, frames, start, fails⟩ := leads
  exact ⟨rule :: passed, leaf, .part member trail, by simp [framed, frames], start, fails⟩

theorem Leads.target {grammar : Grammar χ} {text : List Char} {name : String} {target : Rule χ}
    {path : List Frame} {offset : Int} (leads : Leads grammar text target path offset)
    (found : grammar.find? name = some target) : Leads grammar text (.reference name) path offset := by
  obtain ⟨passed, leaf, trail, rest⟩ := leads
  exact ⟨passed, leaf, .target found trail, rest⟩

/-- Every mismatch that is reported from a state on has a property: its frames are the active rules, and
behind them a path that has the property together with the offset. -/
def ReportsFrom {α : Type} (context : Context) (P : List Frame → Int → Prop) (x : Evaluation .byDepth σ α)
    (state : State σ) : Prop :=
  ∀ active past ⦃outcome after record⦄, x.run context active past state = some (outcome, after, record) →
    (∀ moment ∈ record, Within context 0 moment.state.offset) →
    ∀ offset frames, (offset, frames) ∈ mismatches record → ∃ path, frames = active ++ path ∧ P path offset

def Reports {α : Type} (context : Context) (P : List Frame → Int → Prop) (x : Evaluation .byDepth σ α) : Prop :=
  ∀ state, ReportsFrom context P x state

section Reports

variable {α β : Type} {context : Context} {P Q : List Frame → Int → Prop}

private theorem Reports.mono {x : Evaluation .byDepth σ α} (reports : Reports context P x)
    (weaker : ∀ path offset, P path offset → Q path offset) : Reports context Q x := by
  intro state active past outcome after record ran within offset frames member
  obtain ⟨path, same, holds⟩ := reports state active past ran within offset frames member
  exact ⟨path, same, weaker path offset holds⟩

private theorem reports_pure (result : α) : Reports context P (pure result : Evaluation .byDepth σ α) := by
  intro state active past outcome after record ran within offset frames member
  cases ran
  cases member

private theorem reportsFrom_bind {x : Evaluation .byDepth σ α} {f : α → Evaluation .byDepth σ β} {state : State σ}
    (head : ReportsFrom context P x state)
    (tail : ∀ active past a middle early, x.run context active past state = some (.ok a, middle, early) →
      (∀ moment ∈ early, Within context 0 moment.state.offset) → ReportsFrom context P (f a) middle) :
    ReportsFrom context P (x >>= f) state := by
  intro active past outcome after record ran within offset frames member
  obtain ⟨interrupt, rfl, began⟩ | ⟨result, middle, early, late, began, rest, rfl⟩ :=
    Evaluation.run_bind_eq_some.mp ran
  · exact head active past began within offset frames member
  · obtain ⟨withinEarly, withinLate⟩ := List.forall_mem_append.mp within
    rw [mismatches_append] at member
    obtain before | behind := List.mem_append.mp member
    · exact head active past began withinEarly offset frames before
    · exact tail active past result middle early began withinEarly active (past ++ early) rest withinLate
        offset frames behind

private theorem reports_bind {x : Evaluation .byDepth σ α} {f : α → Evaluation .byDepth σ β}
    (head : Reports context P x) (tail : ∀ a, Reports context P (f a)) : Reports context P (x >>= f) :=
  fun state => reportsFrom_bind (head state) fun _ _ a middle _ _ _ => tail a middle

/-- An operation other than reporting a mismatch. -/
theorem reports_perform (operation : Engine σ α) :
    Reports context P (Evaluation.perform .other operation) := by
  intro state active past outcome after record ran within offset frames member
  obtain ⟨_, rfl⟩ := Evaluation.run_perform_eq_some.mp ran
  cases member

private theorem reports_reset (target : Checkpoint) :
    Reports context P (Machine.reset target : Evaluation .byDepth σ Unit) := by
  intro state active past outcome after record ran within offset frames member
  obtain ⟨_, rfl⟩ := Evaluation.run_perform_eq_some.mp ran
  cases member

private theorem reports_mark : Reports context P (Machine.mark : Evaluation .byDepth σ Checkpoint) := by
  intro state active past outcome after record ran within offset frames member
  cases ran
  cases member

private theorem reportsFrom_mismatch {state : State σ} (here : P [] state.offset) :
    ReportsFrom context P (Machine.mismatch : Evaluation .byDepth σ Unit) state := by
  intro active past outcome after record ran within offset frames member
  obtain ⟨performed, rfl⟩ := Evaluation.run_perform_eq_some.mp ran
  obtain ⟨tracker, rfl⟩ := Engine.state_of_mismatch performed
  cases List.mem_singleton.mp member
  exact ⟨[], (List.append_nil active).symm, here⟩

private theorem reportsFrom_framed {frame : Frame} {x : Evaluation .byDepth σ α} {state : State σ}
    (inner : ReportsFrom context (fun path => P (frame :: path)) x state) :
    ReportsFrom context P (Machine.framed frame x) state := by
  intro active past outcome after record ran within offset frames member
  obtain ⟨original, ran', rfl⟩ := Evaluation.run_framed_eq_some.mp ran
  obtain ⟨path, rfl, holds⟩ := inner (active ++ [frame]) past ran' within offset frames member
  exact ⟨frame :: path, by rw [List.append_assoc, List.singleton_append], holds⟩

private theorem reports_nested {x : Evaluation .byDepth σ α} (inner : Reports context P x) :
    Reports context P (Machine.nested x) := by
  refine reports_bind (reports_perform _) fun _ => ?_
  intro state active past outcome after record ran within offset frames member
  obtain ⟨ended, moments, ran', rfl, rfl⟩ := Evaluation.run_always_eq_some.mp ran
  rw [mismatches_append] at member
  obtain before | behind := List.mem_append.mp member
  · exact inner state active past ran' (List.forall_mem_append.mp within).1 offset frames before
  · cases behind

end Reports

section Leaves

variable {context : Context} {P : List Frame → Int → Prop} {state after : State σ}

private theorem reports_nextIs (accepts : Char → Bool) :
    Reports context P (Matcher.nextIs accepts : Evaluation .byDepth σ Bool) := by
  refine reports_bind (reports_perform _) fun ended => ?_
  cases ended with
  | true => exact reports_pure false
  | false => exact reports_bind (reports_perform _) fun c => reports_pure (accepts c)

/-- Looking at the next character tells what the text has at the cursor, and changes nothing. -/
theorem eq_of_nextIs {accepts : Char → Bool} {active : List Frame} {past record : List (Moment σ)}
    {answer : Bool}
    (ran : (Matcher.nextIs accepts : Evaluation .byDepth σ Bool).run context active past state =
      some (.ok answer, after, record))
    (within : ∀ moment ∈ record, Within context 0 moment.state.offset) :
    Within context 0 state.offset ∧ after = state ∧
      answer = context.source.toList[state.offset.toNat]?.any accepts := by
  obtain ⟨rfl, first, seen⟩ := Evaluation.nextIs_cases ran
  have inside : Within context 0 after.offset := within _ first
  have start := inside.1
  have length : context.source.toList.length = context.source.length := context.source.length_toList
  refine ⟨inside, rfl, ?_⟩
  obtain ⟨ended, rfl⟩ | ⟨before, c, here, rfl⟩ := seen
  · rw [List.getElem?_eq_none (by omega)]
    rfl
  · rw [Source.charAt, Source.char?_of_nonneg _ start] at here
    split at here <;> cases here
    rename_i found
    rw [found]
    rfl

/-- A character that is not accepted is refused, and so is the end of the text. -/
theorem refuses_of_any {accepts : Char → Bool} (inside : Within context 0 state.offset)
    (refused : context.source.toList[state.offset.toNat]?.any accepts = false) :
    Refuses context.source.toList state.offset.toNat (accepts · = true) := by
  have length : context.source.toList.length = context.source.length := context.source.length_toList
  have stop := inside.2
  cases found : context.source.toList[state.offset.toNat]? with
  | none =>
    have ended := List.getElem?_eq_none_iff.mp found
    exact .inl (by omega)
  | some c =>
    rw [found] at refused
    exact .inr ⟨c, found, by simpa using refused⟩

/-- A rule for one character reports a mismatch where it does not find one that it accepts. -/
theorem reports_oneChar {frame : Frame} {accepts : Char → Bool}
    (fails : ∀ offset : Int, 0 ≤ offset →
      Refuses context.source.toList offset.toNat (accepts · = true) → P [frame] offset) :
    Reports context P (Matcher.oneChar frame accepts : Evaluation .byDepth σ Bool) := by
  intro state
  refine reportsFrom_framed (reportsFrom_bind (reports_nextIs accepts state) ?_)
  intro _ _ accepted middle early looked within
  obtain ⟨inside, rfl, answer⟩ := eq_of_nextIs looked within
  cases accepted with
  | true => exact reports_bind (reports_perform _) (fun _ => reports_pure true) middle
  | false =>
    have here : P [frame] middle.offset := fails _ inside.1 (refuses_of_any inside answer.symm)
    exact reportsFrom_bind (reportsFrom_mismatch here) fun _ _ _ last _ _ _ => reports_pure false last

private theorem reports_endOfInput {frame : Frame}
    (fails : ∀ offset : Int, 0 ≤ offset → offset.toNat < context.source.toList.length → P [frame] offset) :
    Reports context P (Machine.framed frame (Machine.atEnd >>= fun ended =>
      if ended = true then pure true else Machine.mismatch >>= fun _ => pure false) :
        Evaluation .byDepth σ Bool) := by
  intro state
  refine reportsFrom_framed (reportsFrom_bind (reports_perform _ state) ?_)
  intro _ _ ended middle early looked within
  obtain ⟨performed, rfl⟩ := Evaluation.run_perform_eq_some.mp looked
  cases performed
  have inside : Within context 0 state.offset := within _ (List.mem_singleton.mpr rfl)
  have length : context.source.toList.length = context.source.length := context.source.length_toList
  split
  · exact reports_pure true state
  · rename_i goesOn
    have before : ¬(context.source.length : Int) ≤ state.offset := fun ended => goesOn (decide_eq_true ended)
    have start := inside.1
    have here : P [frame] state.offset := fails _ start (by omega)
    exact reportsFrom_bind (reportsFrom_mismatch here) fun _ _ _ last _ _ _ => reports_pure false last

/-- In front of the end of the text, an advance moves the cursor by one. -/
theorem offset_of_advance {outcome : Except Interrupt Char} {c : Char} (start : 0 ≤ state.offset)
    (here : context.source.toList[state.offset.toNat]? = some c)
    (ran : (Engine.advance : Engine σ Char).run context state = some (outcome, after)) :
    after.offset = state.offset + 1 := by
  have length : context.source.toList.length = context.source.length := context.source.length_toList
  have inside := (List.getElem?_eq_some_iff.mp here).1
  simp only [Engine.advance, Source.charAt, Source.char?_of_nonneg _ start, here] at ran
  rw [if_pos (by omega)] at ran
  cases ran
  rfl

/-- The text in front of an offset, one character later. -/
theorem drop_take_succ {text found : List Char} {offset : Nat} {c : Char} (here : text[offset]? = some c)
    (inside : found.length ≤ offset) (begun : (text.take offset).drop (offset - found.length) = found) :
    (text.take (offset + 1)).drop (offset + 1 - (found ++ [c]).length) = found ++ [c] := by
  obtain ⟨short, rfl⟩ := List.getElem?_eq_some_iff.mp here
  have same : offset + 1 - (found ++ [text[offset]]).length = offset - found.length := by
    rw [List.length_append, List.length_singleton]
    omega
  have shorter : offset - found.length ≤ (text.take offset).length := by
    rw [List.length_take]
    omega
  rw [same, List.take_succ_eq_append_getElem short, List.drop_append_of_le_length shorter, begun]

/-- A literal reports a mismatch at the first character that differs, with the text in front of it found. -/
theorem reportsFrom_literalFrom {home : Int} (found : List Char) {rest : List Char}
    (fails : ∀ (offset : Int) (count : Nat) (c : Char), 0 ≤ offset → (found ++ rest)[count]? = some c →
      count ≤ offset.toNat →
      (context.source.toList.take offset.toNat).drop (offset.toNat - count) = (found ++ rest).take count →
      Refuses context.source.toList offset.toNat (· = c) → P [] offset)
    (inside : found.length ≤ state.offset.toNat)
    (begun : (context.source.toList.take state.offset.toNat).drop (state.offset.toNat - found.length) = found) :
    ReportsFrom context P (Matcher.literalFrom home rest : Evaluation .byDepth σ Bool) state := by
  induction rest generalizing found state with
  | nil => exact reports_pure true state
  | cons c rest ih =>
    refine reportsFrom_bind (reports_nextIs _ state) ?_
    intro _ _ accepted middle early looked within
    obtain ⟨⟨start, _⟩, rfl, answer⟩ := eq_of_nextIs looked within
    cases accepted with
    | true =>
      obtain ⟨d, here, same⟩ := Option.any_eq_true _ _ |>.mp answer.symm
      obtain rfl : d = c := eq_of_beq same
      refine reportsFrom_bind (reports_perform _ middle) ?_
      intro _ _ _ next moments moved _
      obtain ⟨performed, _⟩ := Evaluation.run_perform_eq_some.mp moved
      have offset : next.offset.toNat = middle.offset.toNat + 1 := by
        rw [offset_of_advance start here performed]
        omega
      have whole : found ++ [d] ++ rest = found ++ d :: rest := List.append_cons .. |>.symm
      refine ih (found ++ [d]) (by rwa [whole]) ?_ ?_
      · rw [offset, List.length_append, List.length_singleton]
        omega
      · rw [offset]
        exact drop_take_succ here inside begun
    | false =>
      have refuses := refuses_of_any ⟨start, by assumption⟩ answer.symm
      have next : (found ++ c :: rest)[found.length]? = some c := by simp
      have reported : P [] middle.offset := by
        refine fails _ found.length c start next inside ?_ (refuses.mono fun d same => by simp [same])
        rw [List.take_left]
        exact begun
      refine reportsFrom_bind (reportsFrom_mismatch reported) fun _ _ _ last _ _ _ => ?_
      exact reports_bind (reports_perform _) (fun _ => reports_pure false) last

end Leaves

section Composition

variable {context : Context} {P : List Frame → Int → Prop} {x : Evaluation .byDepth σ Bool}
  {xs : List (Evaluation .byDepth σ Bool)}

private theorem reports_sequenceFrom (start : Checkpoint) (parts : ∀ x ∈ xs, Reports context P x) :
    Reports context P (Matcher.sequenceFrom start xs) := by
  induction xs with
  | nil => exact reports_pure true
  | cons first rest ih =>
    obtain ⟨head, tail⟩ := List.forall_mem_cons.mp parts
    refine reports_bind head fun matched => ?_
    cases matched with
    | true => exact ih tail
    | false => exact reports_bind (reports_reset start) fun _ => reports_pure false

private theorem reports_firstOfFrom (start : Checkpoint) (alternatives : ∀ x ∈ xs, Reports context P x) :
    Reports context P (Matcher.firstOfFrom start xs) := by
  induction xs with
  | nil => exact reports_pure false
  | cons first rest ih =>
    obtain ⟨head, tail⟩ := List.forall_mem_cons.mp alternatives
    refine reports_bind head fun matched => ?_
    cases matched with
    | true => exact reports_pure true
    | false => exact reports_bind (reports_reset start) fun _ => ih tail

private theorem reports_iterate (body : Reports context P x) (bound count : Nat) :
    Reports context P (Matcher.iterate x bound count) := by
  induction bound generalizing count with
  | zero =>
    intro state active past outcome after record ran
    cases ran
  | succ bound ih =>
    refine reports_bind (reports_perform _) fun origin => reports_bind reports_mark fun here => ?_
    refine reports_bind body fun matched => ?_
    cases matched with
    | true =>
      refine reports_bind (reports_perform _) fun stop => ?_
      split
      · exact reports_pure _
      · exact ih (count + 1)
    | false => exact reports_bind (reports_reset here) fun _ => reports_pure count

private theorem reports_repeated {kind : RuleKind} (minimum bound : Nat)
    (body : Reports context (fun path => P ({ kind := kind } :: path)) x) :
    Reports context P (Matcher.repeated kind minimum bound x) := by
  refine fun state => reportsFrom_framed (reports_bind reports_mark (fun start => ?_) state)
  refine reports_bind (reports_iterate body bound 0) fun count => ?_
  split
  · exact reports_bind (reports_reset start) fun _ => reports_pure false
  · exact reports_pure true

private theorem reports_optional (body : Reports context (fun path => P ({ kind := .optional } :: path)) x) :
    Reports context P (Matcher.optional x) := by
  refine fun state => reportsFrom_framed (reports_bind reports_mark (fun start => ?_) state)
  refine reports_bind body fun matched => ?_
  cases matched with
  | true => exact reports_pure true
  | false => exact reports_bind (reports_reset start) fun _ => reports_pure true

/-- Looking ahead reports what the body reports, whatever is concluded from it. -/
theorem reports_ahead (conclude : Bool → Bool) {frame : Frame}
    (body : Reports context (fun path => P (frame :: path)) x) :
    Reports context P (Machine.framed frame (Machine.mark >>= fun start => x >>= fun matched =>
      Machine.reset start >>= fun _ => pure (conclude matched))) := by
  refine fun state => reportsFrom_framed (reports_bind reports_mark (fun start => ?_) state)
  refine reports_bind body fun matched => ?_
  exact reports_bind (reports_reset start) fun _ => reports_pure (conclude matched)

private theorem reports_capture (body : Reports context (fun path => P ({ kind := .capture } :: path)) x) :
    Reports context P (Matcher.capture x) := by
  refine fun state => reportsFrom_framed (reports_bind (reports_perform _) (fun start => ?_) state)
  refine reports_bind body fun matched => ?_
  cases matched with
  | true =>
    refine reports_bind (reports_perform _) fun text => ?_
    exact reports_bind (reports_perform _) fun _ => reports_pure true
  | false => exact reports_pure false

private theorem reports_action (arity : Int) (compute : List Value → Except Fault Value) :
    Reports context P (Matcher.action arity compute : Evaluation .byDepth σ Bool) := by
  refine reports_bind (reports_perform _) fun operands => ?_
  refine reports_bind ?_ fun value => reports_bind (reports_perform _) fun _ => reports_pure true
  cases compute operands with
  | ok value => exact reports_pure value
  | error fault => exact reports_perform (Engine.fail fault)

end Composition

section Rules

variable {grammar : Grammar Empty} {context : Context}

/-- A part of a rule reports what the rule reports, but for the frame of the rule. -/
theorem Reports.part {rule part : Rule Empty} {frame : Frame} {x : Evaluation .byDepth σ Bool}
    (reports : Reports context (Leads grammar context.source.toList part) x) (member : part ∈ rule.parts)
    (framed : rule.frame? = some frame) :
    Reports context (fun path => Leads grammar context.source.toList rule (frame :: path)) x :=
  reports.mono fun _ _ leads => leads.part member framed

/-- What the matcher of a rule reports are trails from the rule to leaves that fail. -/
theorem reports_matcher (budget : Nat) (rule : Rule Empty) :
    Reports context (Leads grammar context.source.toList rule)
      (rule.matcher Interpretation.none grammar budget : Evaluation .byDepth σ Bool) := by
  induction budget generalizing rule with
  | zero =>
    intro state active past outcome after record ran
    cases ran
  | succ budget ih =>
    refine reports_bind (reports_pure ()) fun _ => ?_
    cases rule with
    | char c =>
      refine reports_oneChar fun offset start refuses => leads_leaf trivial rfl start ?_
      exact ⟨_, rfl, refuses.mono fun d same => beq_iff_eq.mpr same⟩
    | literal word =>
      intro state
      refine reportsFrom_framed (reportsFrom_bind (reports_perform _ state) ?_)
      intro _ _ home middle _ _ _
      refine reportsFrom_literalFrom [] ?_ (Nat.zero_le _) (by simp)
      intro offset count c start next inside begun refuses
      exact leads_leaf trivial rfl start ⟨count, c, next, inside, begun, refuses⟩
    | anyOf chars =>
      refine reports_oneChar fun offset start refuses => leads_leaf trivial rfl start ?_
      exact ⟨_, rfl, refuses.mono fun d member => List.contains_iff_mem.mpr member⟩
    | range low high =>
      refine reports_oneChar fun offset start refuses => leads_leaf trivial rfl start ?_
      refine ⟨_, rfl, refuses.mono fun d between => ?_⟩
      rw [Matcher.inRange, Bool.and_eq_true, Recognition.precedes_iff, Recognition.precedes_iff]
      exact between
    | anyChar =>
      refine reports_oneChar fun offset start refuses => leads_leaf trivial rfl start ?_
      exact ⟨_, rfl, refuses.mono fun _ _ => rfl⟩
    | endOfInput => exact reports_endOfInput fun offset start before => leads_leaf trivial rfl start before
    | sequence parts =>
      refine fun state => reportsFrom_framed (reports_bind reports_mark (fun start => ?_) state)
      exact reports_sequenceFrom start (List.forall_mem_map.mpr fun part member => (ih part).part member rfl)
    | firstOf alternatives =>
      refine fun state => reportsFrom_framed (reports_bind reports_mark (fun start => ?_) state)
      exact reports_firstOfFrom start (List.forall_mem_map.mpr fun part member => (ih part).part member rfl)
    | optional body => exact reports_optional ((ih body).part (List.mem_singleton.mpr rfl) rfl)
    | zeroOrMore body => exact reports_repeated _ _ ((ih body).part (List.mem_singleton.mpr rfl) rfl)
    | oneOrMore body => exact reports_repeated _ _ ((ih body).part (List.mem_singleton.mpr rfl) rfl)
    | andPredicate body => exact reports_ahead id ((ih body).part (List.mem_singleton.mpr rfl) rfl)
    | notPredicate body => exact reports_ahead not ((ih body).part (List.mem_singleton.mpr rfl) rfl)
    | capture body => exact reports_capture ((ih body).part (List.mem_singleton.mpr rfl) rfl)
    | push value => exact reports_bind (reports_perform _) fun _ => reports_pure true
    | action arity compute => exact reports_action arity compute
    | named name body =>
      refine fun state => reportsFrom_framed (reports_nested ?_ state)
      exact (ih body).part (List.mem_singleton.mpr rfl) rfl
    | reference name =>
      simp only [Rule.denote]
      cases found : grammar.find? name with
      | none => exact reports_perform (Engine.fail _)
      | some target => exact (ih target).mono fun _ _ leads => leads.target found
    | unbuilt fault => exact reports_perform (Engine.fail fault)
    | extension extended => exact extended.elim

end Rules

/-- The frames of a trail: only the last one is that of a leaf, and none is that of an action. -/
theorem Leads.frames {grammar : Grammar χ} {text : List Char} {rule : Rule χ} {path : List Frame} {offset : Int}
    (leads : Leads grammar text rule path offset) :
    ∃ passed leaf above last, grammar.Trail rule passed leaf ∧ leaf.FailsAt text offset.toNat ∧
      path = above ++ [last] ∧ above.map some = passed.map Rule.frame? ∧ leaf.frame? = some last ∧
      last.kind.isLeaf = true ∧ (∀ frame ∈ above, frame.kind.isLeaf = false) ∧
      ∀ frame ∈ path, frame.kind ≠ .action := by
  obtain ⟨passed, leaf, trail, frames, _, fails⟩ := leads
  rw [List.map_append, List.map_eq_append_iff] at frames
  obtain ⟨above, below, rfl, upper, lower⟩ := frames
  obtain ⟨last, rest, rfl, same, none⟩ := List.map_eq_cons_iff.mp lower
  cases List.map_eq_nil_iff.mp none
  obtain ⟨isLeaf, notLeaves⟩ := trail.isLeaf
  have framed : ∀ frame ∈ above, ∃ inner ∈ passed, inner.frame? = some frame := by
    intro frame member
    have present : some frame ∈ passed.map Rule.frame? := upper ▸ List.mem_map_of_mem member
    exact List.mem_map.mp present
  refine ⟨passed, leaf, above, last, trail, fails, rfl, upper, same.symm, ?_, ?_, ?_⟩
  · exact (Rule.isLeaf_kind_iff same.symm).mpr isLeaf
  · intro frame member
    obtain ⟨inner, here, shown⟩ := framed frame member
    exact Bool.eq_false_iff.mpr fun leafKind => notLeaves inner here ((Rule.isLeaf_kind_iff shown).mp leafKind)
  · intro frame member
    obtain before | final := List.mem_append.mp member
    · obtain ⟨inner, _, shown⟩ := framed frame before
      exact Rule.kind_ne_action shown
    · cases List.mem_singleton.mp final
      exact Rule.kind_ne_action same.symm

section Passes

variable {grammar : Grammar Empty} {rule : Rule Empty} {budget : Nat} {context : Context} {memory : σ}
  {outcome : Except Interrupt Bool} {after : State σ} {record : List (Moment σ)}

/-- The furthest offset of a pass lies in the text. -/
theorem deepest_le_length
    (recorded : (rule.matcher Interpretation.none grammar budget : Evaluation .byDepth σ Bool).run context [] []
      { memory := memory } = some (outcome, after, record)) :
    after.tracker.deepest ≤ context.source.length := by
  have ran := Evaluation.run_eq_forget Simulation.hosts_none grammar budget rule context [] []
    ({ memory := memory } : State σ)
  rw [recorded] at ran
  have kept := keeps_matcher (Int.natCast_nonneg _) ran
  exact Nat.le_trans kept.deepest (Nat.max_le.mpr ⟨Nat.zero_le _, Nat.le_refl _⟩)

/-- The mismatches that a pass reports are at the ends of trails from its rule. -/
theorem leads_of_mismatch
    (recorded : (rule.matcher Interpretation.none grammar budget : Evaluation .byDepth σ Bool).run context [] []
      { memory := memory } = some (outcome, after, record)) {offset : Int} {frames : List Frame}
    (reported : (offset, frames) ∈ mismatches record) :
    Leads grammar context.source.toList rule frames offset := by
  have dwells := dwells_matcher (Int.natCast_nonneg _) recorded
  obtain ⟨path, rfl, leads⟩ := reports_matcher budget rule _ [] [] recorded dwells.moments offset frames reported
  exact leads

end Passes

end Trails

open Trails Diagnosis

/-- The rule stacks of a parse error are trails through the grammar to leaves that fail. Its offset lies in
the text. The frames of each of its stacks are those of the rules on a trail from the top rule, the last one
is that of a leaf and the only one of that kind, and the leaf fails by its comparison at the offset. So what
it was looking for is not there: it fails as a parsing expression where it was tried. -/
theorem run_stacks_are_trails {session next : Session σ} {grammar : Grammar Empty} {rule : Rule Empty}
    {budget : Nat} {shape : Shape} {report : Report} {error : ParseError}
    (ran : session.run (rule.matcher Interpretation.none grammar budget : Engine σ Bool) shape =
      some (report, next)) (failed : report.ending = .ok (.failure error)) :
    let text := session.context.source.toList
    let offset := error.position.offset
    offset ≤ text.length ∧
    ∀ stack ∈ error.ruleStacks, ∃ passed leaf above last,
      stack.frames = above ++ [last] ∧ grammar.Trail rule passed leaf ∧
      above.map some = passed.map Rule.frame? ∧ leaf.frame? = some last ∧
      (∀ frame ∈ stack.frames, frame.kind ≠ .action) ∧
      (∀ frame ∈ above, frame.kind.isLeaf = false) ∧ last.kind.isLeaf = true ∧
      leaf.FailsAt text offset ∧
      ∃ start, start ≤ offset ∧ ((∀ word, leaf ≠ .literal word) → start = offset) ∧
        Parses grammar text 0 leaf start .failure := by
  obtain ⟨_, after, record, recorded, rfl, _⟩ := recorded_of_failure ran failed
  have inside := deepest_le_length recorded
  simp only [Position.offset_resolve inside, Source.length_toList]
  refine ⟨inside, ?_⟩
  intro stack member
  have leads := leads_of_mismatch recorded (mem_stacksAt_iff.mp member)
  obtain ⟨passed, leaf, above, last, trail, fails, frames, upper, lower, isLeaf, notLeaves, noAction⟩ := leads.frames
  exact ⟨passed, leaf, above, last, frames, trail, upper, lower, noAction, notLeaves, isLeaf, fails, fails.parses⟩

/-- Words in brackets, of which only one word is known. -/
def bracketed : Grammar Empty :=
  { definitions := [("group", .named (some "group") (.firstOf [
      .sequence [.char '(', .reference "group", .char ')'], .capture (.literal "abc")]))] }

def brokenWord : Session Unit :=
  { context := ⟨Source.ofString "(abx", 10, 10⟩, state := { running := false, memory := () } }

/-- The only stack leads through the recursion to the word, which differs at its third character. -/
theorem run_stack_of_broken_word : ∃ report next error stack passed,
    brokenWord.run (Rule.matcher Interpretation.none bracketed 12 (.reference "group")) .all =
      some (report, next) ∧
    report.ending = .ok (.failure error) ∧ error.position.offset = 3 ∧ error.ruleStacks = [stack] ∧
    stack.frames.length = 7 ∧ bracketed.Trail (.reference "group") passed (.literal "abc") ∧
    (Rule.literal "abc" : Rule Empty).FailsAt brokenWord.context.source.toList 3 := by
  have ran : ∃ report next error stack,
      brokenWord.run (Rule.matcher Interpretation.none bracketed 12 (.reference "group")) .all =
        some (report, next) ∧ report.ending = .ok (.failure error) ∧ error.position.offset = 3 ∧
      error.ruleStacks = [stack] ∧ stack.frames.length = 7 ∧
      stack.innermost? = some (Matcher.literalFrame "abc") := ⟨_, _, _, _, rfl, rfl, rfl, rfl, rfl, rfl⟩
  obtain ⟨report, next, error, stack, ran, failed, offset, found, length, innermost⟩ := ran
  obtain ⟨_, trails⟩ := run_stacks_are_trails ran failed
  obtain ⟨passed, leaf, above, last, frames, trail, _, framed, _, _, _, fails, _⟩ :=
    trails stack (found ▸ List.mem_singleton.mpr rfl)
  rw [offset] at fails
  have same : last = Matcher.literalFrame "abc" := by
    rw [RuleStack.innermost?, frames, List.getLast?_concat] at innermost
    exact Option.some.inj innermost
  subst same
  obtain rfl : leaf = .literal "abc" := by
    cases leaf <;> cases framed
    rfl
  exact ⟨report, next, error, stack, passed, ran, failed, offset, found, length, trail, fails⟩

end PegMatcher
