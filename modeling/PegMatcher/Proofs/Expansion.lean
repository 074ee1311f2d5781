import PegMatcher.Proofs.Outline
import PegMatcher.Proofs.Verdict

/-! # Derived combinators and their expansions

Some combinators could be written with others: a literal as the sequence of its characters, an optional rule as a
choice that ends in the empty sequence, looking ahead as not looking ahead twice, and one or more rounds of a rule
as one round and then any number of them. Each pair rolls back in its own way. A literal only moves the cursor, as
none of its characters has touched the values. Looking ahead returns once to a place where its expansion returns
twice. A loop that has failed in its first round returns to the place of that round and then to its own, and the
two places are the same.

As outlines the two sides of a pair are equal, apart from the loop: a first round that matches in place ends it,
whereas the expansion makes a second round. `shows_iff` carries this back to recorded evaluations, and
`failsWith_iff_shows` on to what a failing run reports.
-/

namespace PegMatcher

variable {σ χ : Type}

/-- A derived combinator beside its expansion. -/
inductive Rule.Expands : Rule χ → Rule χ → Prop
  | literal (text : String) : Expands (.literal text) (.sequence (text.toList.map .char))
  | optional (body : Rule χ) : Expands (.optional body) (.firstOf [body, .sequence []])
  | andPredicate (body : Rule χ) : Expands (.andPredicate body) (.notPredicate (.notPredicate body))
  | oneOrMore (body : Rule χ) : Expands (.oneOrMore body) (.sequence [body, .zeroOrMore body])

/-- An evaluation of a rule from a state ends with an outcome in another state, and has reported mismatches at some
offsets. -/
def Grammar.Shows (grammar : Grammar Empty) (rule : Rule Empty) (context : Context) (state : State σ)
    (outcome : Except Interrupt Bool) (after : State σ) (offsets : List Int) : Prop :=
  ∃ budget record,
    (rule.matcher Interpretation.none grammar budget : Evaluation .byDepth σ Bool).run context [] [] state =
      some (outcome, after, record) ∧ mismatchOffsets record = offsets

/-- If the rule asks for one or more rounds of a body, the first round from a state does not match in place. -/
def Grammar.SetsOut (grammar : Grammar Empty) (rule : Rule Empty) (context : Context) (state : State σ) : Prop :=
  ∀ body, rule = .oneOrMore body →
    ∀ after offsets, grammar.Shows body context state (.ok true) after offsets → after.offset ≠ state.offset

/-- A run of a rule ends in a parse error at a position and with a number of rule stacks. -/
def Grammar.FailsWith (grammar : Grammar Empty) (rule : Rule Empty) (session : Session σ) (shape : Shape)
    (position : Position) (number : Nat) : Prop :=
  ∃ budget report next error,
    session.run (rule.matcher Interpretation.none grammar budget : Engine σ Bool) shape = some (report, next) ∧
      report.ending = .ok (.failure error) ∧ error.position = position ∧ error.ruleStacks.length = number

namespace Expansion

open Outline

section Shows

variable {grammar : Grammar Empty} {rule : Rule Empty} {context : Context} {state : State σ}

private theorem shows_iff_outline (plain : state.tracker.collecting = none) {outcome : Except Interrupt Bool}
    {after : State σ} {offsets : List Int} :
    grammar.Shows rule context state outcome after offsets ↔
      ∃ budget, (rule.matcher Interpretation.none grammar budget : Outline σ Bool).run context state =
        some (outcome, after, offsets) := by
  constructor
  · rintro ⟨budget, record, ran, rfl⟩
    exact ⟨budget, by rw [run_eq_outline grammar budget rule context [] [] plain, ran, Option.map_some]⟩
  · rintro ⟨budget, ran⟩
    rw [run_eq_outline grammar budget rule context [] [] plain] at ran
    obtain ⟨⟨_, _, record⟩, recorded, same⟩ := Option.map_eq_some_iff.mp ran
    cases same
    exact ⟨budget, record, recorded, rfl⟩

/-- One rule shows what another one shows, if outlines with a large enough budget are passed on. -/
theorem shows_of_passed {first second : Rule Empty} (plain : state.tracker.collecting = none) (spare : Nat)
    (passed : ∀ budget ending,
      (first.matcher Interpretation.none grammar (budget + spare) : Outline σ Bool).run context state = some ending →
      ∃ budget', (second.matcher Interpretation.none grammar budget' : Outline σ Bool).run context state = some ending)
    {outcome : Except Interrupt Bool} {after : State σ} {offsets : List Int}
    (shown : grammar.Shows first context state outcome after offsets) :
    grammar.Shows second context state outcome after offsets := by
  rw [shows_iff_outline plain] at shown ⊢
  obtain ⟨budget, ran⟩ := shown
  exact passed budget _ ((endures_matcher grammar first (Nat.le_add_right budget spare)).run_eq ran)

/-- Rules that are equal as outlines agree, whatever budgets they need for it. -/
theorem shows_iff_of_eq {first second : Rule Empty} (plain : state.tracker.collecting = none) (spare spare' : Nat)
    (same : ∀ budget,
      (first.matcher Interpretation.none grammar (budget + spare) : Outline σ Bool) =
        second.matcher Interpretation.none grammar (budget + spare'))
    (outcome : Except Interrupt Bool) (after : State σ) (offsets : List Int) :
    grammar.Shows first context state outcome after offsets ↔
      grammar.Shows second context state outcome after offsets := by
  constructor
  · apply shows_of_passed plain spare
    intro budget ending ran
    exact ⟨budget + spare', by rw [← same, ran]⟩
  · apply shows_of_passed plain spare'
    intro budget ending ran
    exact ⟨budget + spare, by rw [same, ran]⟩

end Shows

theorem matcher_succ (grammar : Grammar Empty) (budget : Nat) (rule : Rule Empty) :
    (rule.matcher Interpretation.none grammar (budget + 1) : Outline σ Bool) =
      rule.denote Interpretation.none grammar budget (Rule.matcher Interpretation.none grammar budget) := by
  rw [Rule.matcher, Machine.suspend, pure_bind]

private theorem state_of_nextIs {accepts : Char → Bool} {context : Context} {state after : State σ} {answer : Bool}
    {offsets : List Int}
    (ran : (Matcher.nextIs accepts : Outline σ Bool).run context state = some (.ok answer, after, offsets)) :
    after = state := by
  change (Outline.perform Engine.atEnd >>= fun atEnd =>
    if atEnd then pure false else Outline.perform Engine.peek >>= fun c => pure (accepts c)).run
      context state = _ at ran
  rw [Engine.atEnd, run_observe_bind] at ran
  split at ran
  · cases ran
    rfl
  · obtain ⟨c, middle, _, _, peeked, answered⟩ := Outline.run_bind_eq_ok ran
    cases answered
    exact Engine.state_of_peek (run_perform_eq_some peeked)

theorem values_of_advance {context : Context} {state after : State σ} {c : Char} {offsets : List Int}
    (ran : (Machine.advance : Outline σ Char).run context state = some (.ok c, after, offsets)) :
    after.values = state.values :=
  Engine.values_of_advance (run_perform_eq_some ran)

private theorem values_of_mismatch {context : Context} {state after : State σ} {offsets : List Int}
    (ran : (Machine.mismatch : Outline σ Unit).run context state = some (.ok (), after, offsets)) :
    after.values = state.values := by
  obtain ⟨⟨_, _⟩, reported, same⟩ := Option.map_eq_some_iff.mp ran
  cases same
  obtain ⟨_, rfl⟩ := Engine.state_of_mismatch reported
  rfl

/-- The rest of a literal rolls back by moving the cursor, and the sequence of its characters by returning to a
place; as long as the values are those of that place, this is the same. -/
theorem run_literalFrom (start : Mark) (context : Context) (chars : List Char) (state : State σ)
    (untouched : state.values.depth = start.depth) :
    (Matcher.literalFrom start.offset chars : Outline σ Bool).run context state =
      (Matcher.sequenceFrom start (chars.map Matcher.char) : Outline σ Bool).run context state := by
  induction chars generalizing state with
  | nil => rfl
  | cons c rest ih =>
    change (Matcher.nextIs (· == c) >>= _ : Outline σ Bool).run context state =
      ((Matcher.nextIs (· == c) >>= _) >>= _ : Outline σ Bool).run context state
    rw [bind_assoc]
    apply run_bind_congr
    intro answer middle early looked
    obtain rfl := state_of_nextIs looked
    rcases answer with _ | _
    -- To report a mismatch leaves the values alone too, so a return has nothing to cut off.
    · simp only [Bool.false_eq_true, ↓reduceIte, bind_assoc, pure_bind]
      apply run_bind_congr
      intro _ last late reported
      have same : last.values.depth = start.depth := by rw [values_of_mismatch reported, untouched]
      rw [run_reset_bind, if_neg (by omega), ← same, ValueStack.take_depth]
      rfl
    · simp only [↓reduceIte, bind_assoc, pure_bind]
      apply run_bind_congr
      intro _ last late advanced
      exact ih last (by rw [values_of_advance advanced, untouched])

theorem literal_eq (text : String) :
    (Matcher.literal text : Outline σ Bool) = Matcher.sequence (text.toList.map Matcher.char) := by
  ext1 context state
  change (Machine.offset >>= fun start => Matcher.literalFrom start text.toList : Outline σ Bool).run context state =
    (Machine.mark >>= fun start => Matcher.sequenceFrom start (text.toList.map Matcher.char) :
      Outline σ Bool).run context state
  rw [run_offset_bind, run_mark_bind]
  exact run_literalFrom (Engine.markOf state) context text.toList state rfl

theorem optional_eq (body : Outline σ Bool) :
    Matcher.optional body = Matcher.firstOf [body, Matcher.sequence []] := by
  change (Machine.mark >>= fun start => body >>= fun matched =>
      if matched then pure true else Machine.reset start >>= fun _ => pure true) =
    Machine.mark >>= fun start => body >>= fun matched => if matched then pure true
      else Machine.reset start >>= fun _ => (Machine.mark >>= fun _ => pure true) >>= fun matched =>
        if matched then pure true else Machine.reset start >>= fun _ => pure false
  simp only [mark_bind_const, pure_bind, ↓reduceIte]

theorem andPredicate_eq (body : Outline σ Bool) :
    Matcher.andPredicate body = Matcher.notPredicate (Matcher.notPredicate body) := by
  change (Machine.mark >>= fun start => body >>= fun matched => Machine.reset start >>= fun _ => pure matched) =
    Machine.mark >>= fun start => (Machine.mark >>= fun start => body >>= fun matched =>
      Machine.reset start >>= fun _ => pure !matched) >>= fun matched =>
        Machine.reset start >>= fun _ => pure !matched
  simp only [bind_assoc, pure_bind, Bool.not_not, mark_bind_mark, reset_bind_reset]

/-- The number of rounds is counted from where the count starts. -/
theorem iterate_add (body : Outline σ Bool) (bound count more : Nat) :
    Matcher.iterate body bound (count + more) = (· + more) <$> Matcher.iterate body bound count := by
  induction bound generalizing count with
  | zero => rfl
  | succ bound ih =>
    simp only [Matcher.iterate, map_bind]
    congr 1; funext origin
    congr 1; funext here
    congr 1; funext matched
    rcases matched with _ | _
    · simp only [Bool.false_eq_true, ↓reduceIte, map_bind, map_pure]
    · simp only [↓reduceIte, map_bind]
      congr 1; funext stop
      by_cases unmoved : stop = origin
      · simp only [unmoved, ↓reduceIte, map_pure, Nat.add_right_comm]
      · simp only [unmoved, ↓reduceIte, ← ih, Nat.add_right_comm]

/-- One round, and then any number of rounds within a bound. -/
def rounds (first further : Outline σ Bool) (bound : Nat) : Outline σ Bool :=
  Matcher.sequence [first, Matcher.repeated .zeroOrMore 0 bound further]

/-- A loop whose first round does not match in place is that round, and the loop over the further ones. -/
theorem run_oneOrMore (body : Outline σ Bool) (bound : Nat) {context : Context} {state : State σ}
    (moves : ∀ after offsets, body.run context state = some (.ok true, after, offsets) → after.offset ≠ state.offset) :
    (Matcher.repeated .oneOrMore 1 (bound + 1) body).run context state =
      (rounds body body bound).run context state := by
  change (Machine.mark >>= fun start => Matcher.iterate body (bound + 1) 0 >>= fun count =>
      if count < 1 then Machine.reset start >>= fun _ => pure false else pure true : Outline σ Bool).run context state =
    (Machine.mark >>= fun start => body >>= fun matched =>
      if matched then
        (Machine.mark >>= fun _ => Matcher.iterate body bound 0 >>= fun _ => pure true) >>= fun matched =>
          if matched then pure true else Machine.reset start >>= fun _ => pure false
      else Machine.reset start >>= fun _ => pure false : Outline σ Bool).run context state
  rw [run_mark_bind, run_mark_bind, Matcher.iterate]
  simp only [bind_assoc]
  rw [run_offset_bind, run_mark_bind]
  apply run_bind_congr
  intro matched middle offsets ran
  rcases matched with _ | _
  -- The place of a failed first round is the place of the loop.
  · simp only [Bool.false_eq_true, ↓reduceIte, bind_assoc, pure_bind, Nat.lt_one_iff, reset_bind_reset]
  -- Behind a first round that has moved, the two loops differ in their counts only.
  · simp only [↓reduceIte, bind_assoc, pure_bind, mark_bind_const]
    rw [run_offset_bind, if_neg (moves middle offsets ran)]
    have counted := iterate_add body bound 0 1
    rw [Nat.zero_add] at counted
    rw [counted]
    simp

private theorem endures_rounds (grammar : Grammar Empty) (body : Rule Empty)
    {first first' further further' bound bound' : Nat} (le_first : first ≤ first') (le_further : further ≤ further')
    (le : bound ≤ bound') :
    Endures Eq
      (rounds (body.matcher Interpretation.none grammar first) (body.matcher Interpretation.none grammar further)
        bound : Outline σ Bool)
      (rounds (body.matcher Interpretation.none grammar first') (body.matcher Interpretation.none grammar further')
        bound') := by
  have head := Simulation.matcher Simulation.hosts_none grammar
    (.inr ⟨enduring_lax, le_first⟩ : (enduring σ).Fits first first') body
  have tail := Simulation.matcher Simulation.hosts_none grammar
    (.inr ⟨enduring_lax, le_further⟩ : (enduring σ).Fits further further') body
  have loop : (enduring σ).Agree _ _ := fun _ =>
    TextSimulation.repeated (by decide : RuleKind.zeroOrMore ≠ .named) 0 tail
      (.inr ⟨enduring_lax, le⟩ : (enduring σ).Fits bound bound')
  have whole : (enduring σ).Rel (fun _ _ => False) Eq _ _ :=
    TextSimulation.sequence (.cons head (.cons loop .nil))
  exact whole fun _ _ => False.elim

section Rules

variable {grammar : Grammar Empty} {context : Context} {state : State σ}

private theorem matcher_sequence_eq_rounds (grammar : Grammar Empty) (body : Rule Empty) (budget : Nat) :
    ((Rule.sequence [body, .zeroOrMore body]).matcher Interpretation.none grammar (budget + 2) : Outline σ Bool) =
      rounds (body.matcher Interpretation.none grammar (budget + 1)) (body.matcher Interpretation.none grammar budget)
        budget := by
  rw [matcher_succ, rounds]
  change Matcher.sequence [_, (Rule.zeroOrMore body).matcher Interpretation.none grammar (budget + 1)] = _
  rw [matcher_succ grammar budget (.zeroOrMore body)]
  rfl

theorem shows_oneOrMore_iff (body : Rule Empty) (plain : state.tracker.collecting = none)
    (moves : grammar.SetsOut (.oneOrMore body) context state) (outcome : Except Interrupt Bool) (after : State σ)
    (offsets : List Int) :
    grammar.Shows (.oneOrMore body) context state outcome after offsets ↔
      grammar.Shows (.sequence [body, .zeroOrMore body]) context state outcome after offsets := by
  have unfolded (budget : Nat) :
      ((Rule.oneOrMore body).matcher Interpretation.none grammar (budget + 2) : Outline σ Bool).run context state =
        (rounds (body.matcher Interpretation.none grammar (budget + 1))
          (body.matcher Interpretation.none grammar (budget + 1)) budget).run context state := by
    rw [matcher_succ]
    apply run_oneOrMore
    intro after offsets matched
    exact moves body rfl after offsets ((shows_iff_outline plain).mpr ⟨_, matched⟩)
  constructor
  · apply shows_of_passed plain 2
    intro budget ending ran
    rw [unfolded] at ran
    refine ⟨budget + 3, ?_⟩
    rw [matcher_sequence_eq_rounds]
    have longer := Nat.le_succ budget
    exact (endures_rounds grammar body (Nat.succ_le_succ longer) (Nat.le_refl _) longer).run_eq ran
  · apply shows_of_passed plain 2
    intro budget ending ran
    rw [matcher_sequence_eq_rounds] at ran
    refine ⟨budget + 2, ?_⟩
    rw [unfolded]
    exact (endures_rounds grammar body (Nat.le_refl _) (Nat.le_succ budget) (Nat.le_refl _)).run_eq ran

/-- From a state of a plain pass, a derived combinator and its expansion show the same. -/
theorem shows_iff {derived expansion : Rule Empty} (expands : derived.Expands expansion)
    (plain : state.tracker.collecting = none) (moves : grammar.SetsOut derived context state)
    (outcome : Except Interrupt Bool) (after : State σ) (offsets : List Int) :
    grammar.Shows derived context state outcome after offsets ↔
      grammar.Shows expansion context state outcome after offsets := by
  cases expands with
  | literal text =>
    apply shows_iff_of_eq plain 2 2
    intro budget
    have chars : text.toList.map (Rule.matcher Interpretation.none grammar (budget + 1) ∘ Rule.char) =
        text.toList.map (Matcher.char : Char → Outline σ Bool) := by
      apply List.map_congr_left
      intro c _
      exact matcher_succ grammar budget (.char c)
    rw [matcher_succ, matcher_succ]
    change Matcher.literal text = Matcher.sequence ((text.toList.map Rule.char).map _)
    rw [List.map_map, chars, literal_eq]
  | optional body =>
    apply shows_iff_of_eq plain 2 2
    intro budget
    rw [matcher_succ, matcher_succ]
    change Matcher.optional _ = Matcher.firstOf [_, (Rule.sequence []).matcher Interpretation.none grammar (budget + 1)]
    rw [matcher_succ grammar budget]
    exact optional_eq _
  | andPredicate body =>
    apply shows_iff_of_eq plain 1 2
    intro budget
    rw [matcher_succ, matcher_succ]
    change Matcher.andPredicate _ =
      Matcher.notPredicate ((Rule.notPredicate body).matcher Interpretation.none grammar (budget + 1))
    rw [matcher_succ grammar budget]
    exact andPredicate_eq _
  | oneOrMore body => exact shows_oneOrMore_iff body plain moves outcome after offsets

end Rules

theorem length_stacksAt (record : List (Moment σ)) (offset : Nat) :
    (stacksAt record offset).length = (mismatchOffsets record).count (offset : Int) := by
  rw [stacksAt, mismatchOffsets, List.length_map, List.count_eq_length_filter, List.filter_map, List.length_map]
  congr 1

/-- What a failing run reports is shown by the plain pass. -/
theorem failsWith_iff_shows {grammar : Grammar Empty} {rule : Rule Empty} {session : Session σ}
    (idle : session.running = false) (shape : Shape) (position : Position) (number : Nat) :
    grammar.FailsWith rule session shape position number ↔
      number ≤ session.context.maxErrorStacks.toNat ∧ ∃ after offsets,
        grammar.Shows rule session.context { memory := session.state.memory } (.ok false) after offsets ∧
          position = Position.resolve session.context.source after.tracker.deepest ∧
          number = offsets.count (after.tracker.deepest : Int) := by
  constructor
  · rintro ⟨budget, report, next, error, ran, failed, rfl, rfl⟩
    obtain ⟨_, after, record, recorded, rfl, few⟩ := Diagnosis.recorded_of_failure ran failed
    exact ⟨few, after, _, ⟨budget, record, recorded, rfl⟩, rfl, length_stacksAt record _⟩
  · rintro ⟨few, after, _, ⟨budget, record, recorded, rfl⟩, rfl, rfl⟩
    obtain ⟨report, next, ran, decided, _⟩ := Diagnosis.run_eq_verdict idle recorded shape
    rw [← length_stacksAt] at few ⊢
    simp only [Diagnosis.verdict, few, ↓reduceIte, Prod.mk.injEq] at decided
    exact ⟨budget, report, next, _, ran, decided.1, rfl, rfl⟩

end Expansion

/-- A derived combinator agrees with its expansion in every plain pass: an evaluation of the one from a state ends
with an outcome, in another state and with mismatches at some offsets, if and only if one of the other does. If one
of them fails as the rule of a run, the other one fails at the same position and with as many rule stacks. For one
or more rounds of a body, this needs that the first round does not match in place. -/
theorem derived_agrees_with_expansion (grammar : Grammar Empty) {derived expansion : Rule Empty}
    (expands : derived.Expands expansion) :
    (∀ (context : Context) (state : State σ), state.tracker.collecting = none → grammar.SetsOut derived context state →
      ∀ outcome after offsets, grammar.Shows derived context state outcome after offsets ↔
        grammar.Shows expansion context state outcome after offsets) ∧
    ∀ (session : Session σ) (shape : Shape), session.running = false →
      grammar.SetsOut derived session.context ({ memory := session.state.memory } : State σ) →
      ∀ position number, grammar.FailsWith derived session shape position number ↔
        grammar.FailsWith expansion session shape position number := by
  constructor
  · intro context state plain moves
    exact Expansion.shows_iff expands plain moves
  · intro session shape idle moves position number
    rw [Expansion.failsWith_iff_shows idle, Expansion.failsWith_iff_shows idle]
    simp only [Expansion.shows_iff expands rfl moves]

def letterPair : Rule Empty :=
  .sequence [.char 'a', .char 'b']

def pairsOn (text : String) : Session Unit :=
  { context := ⟨Source.ofString text, 5, 2⟩, state := { running := false, memory := () } }

/-- Pairs of letters are read alike on a text that begins with one, and fail alike where the first one is broken. -/
theorem pairs_agree_with_expansion :
    (∀ outcome after offsets,
      Grammar.Shows {} (.oneOrMore letterPair) (pairsOn "abac").context { memory := () } outcome after offsets ↔
        Grammar.Shows {} (.sequence [letterPair, .zeroOrMore letterPair]) (pairsOn "abac").context { memory := () }
          outcome after offsets) ∧
    Grammar.FailsWith {} (.sequence [letterPair, .zeroOrMore letterPair]) (pairsOn "ac") .all
      (Position.resolve (Source.ofString "ac") 1) 1 := by
  have setsOut (text : String) (known : text = "abac" ∨ text = "ac") :
      Grammar.SetsOut {} (.oneOrMore letterPair) (pairsOn text).context ({ memory := () } : State Unit) := by
    rintro _ ⟨⟩ after offsets ⟨budget, record, ran, _⟩
    rcases budget with _ | _ | budget
    · cases ran
    · cases ran
    · rcases known with rfl | rfl
      · cases ran
        decide
      · cases ran
  have agrees := @derived_agrees_with_expansion Unit {} _ _ (.oneOrMore letterPair)
  constructor
  · exact agrees.1 (pairsOn "abac").context { memory := () } rfl (setsOut _ (.inl rfl))
  · exact (agrees.2 (pairsOn "ac") .all rfl (setsOut _ (.inr rfl)) _ _).mp ⟨3, _, _, _, rfl, rfl, rfl, rfl⟩

end PegMatcher
