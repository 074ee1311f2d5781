import PegMatcher.Proofs.Checkpoints

/-! # What a failing rule leaves behind

A rule that fails, and a predicate whatever it answers, has the cursor where it was and as many values on the
stack as there were. The values themselves are those that were there as far down as the stack was never cut:
`restores_of_backtracking` says so, and `failing_sequence_replaces` shows a failing sequence that leaves
another value than it found, because an action popped a value from below the mark of the sequence.
-/

namespace PegMatcher

variable {σ : Type}

namespace Backtracking

/-- The cursor and the number of values are as they were. -/
def Returned (state after : State σ) : Prop :=
  after.offset = state.offset ∧ after.values.depth = state.values.depth

private theorem returned_refl (state : State σ) : Returned state state :=
  ⟨rfl, rfl⟩

section Matchers

variable {context : Context} {home state after : State σ}

private theorem returned_of_reset
    (back : (Machine.reset (Engine.markOf home) : Engine σ Unit).run context state = some (.ok (), after)) :
    Returned home after := by
  obtain ⟨reached, rfl⟩ := Engine.run_reset_eq_ok_iff.mp back
  refine ⟨rfl, ?_⟩
  simp only [Engine.markOf, ValueStack.depth_take] at reached ⊢
  omega

private theorem returned_of_mismatch {outcome : Except Interrupt Unit}
    (ran : (Machine.mismatch : Engine σ Unit).run context state = some (outcome, after)) :
    Returned state after := by
  obtain ⟨tracker, rfl⟩ := Engine.state_of_mismatch ran
  exact ⟨rfl, rfl⟩

theorem eq_of_nextIs {accepts : Char → Bool} {answer : Bool}
    (ran : (Matcher.nextIs accepts : Engine σ Bool).run context state = some (.ok answer, after)) :
    after = state := by
  obtain ⟨ended, between, looked, rest⟩ := Engine.run_bind_eq_ok_iff.mp ran
  cases looked
  split at rest
  · cases rest
    rfl
  · obtain ⟨c, last, peeked, rest⟩ := Engine.run_bind_eq_ok_iff.mp rest
    cases rest
    exact Engine.state_of_peek peeked

/-- A matcher that goes back when it fails. -/
def Backtracks (x : Engine σ Bool) : Prop :=
  ∀ context ⦃state after⦄, x.run context state = some (.ok false, after) → Returned state after

private theorem backtracks_framed {frame : Frame} {x : Engine σ Bool} (inner : Backtracks x) :
    Backtracks (Machine.framed frame x) :=
  fun context _ _ ran => inner context (Engine.run_framed_eq_ok_iff.mp ran)

private theorem backtracks_oneChar (frame : Frame) (accepts : Char → Bool) :
    Backtracks (Matcher.oneChar frame accepts : Engine σ Bool) := by
  refine backtracks_framed fun context state after ran => ?_
  obtain ⟨accepted, middle, looked, rest⟩ := Engine.run_bind_eq_ok_iff.mp ran
  cases eq_of_nextIs looked
  cases accepted with
  | true =>
    obtain ⟨c, last, _, answered⟩ := Engine.run_bind_eq_ok_iff.mp rest
    cases answered
  | false =>
    obtain ⟨_, last, reported, answered⟩ := Engine.run_bind_eq_ok_iff.mp rest
    cases answered
    exact returned_of_mismatch reported

private theorem returned_of_literalFrom {word : List Char} (values : state.values.depth = home.values.depth)
    (ran : (Matcher.literalFrom home.offset word : Engine σ Bool).run context state = some (.ok false, after)) :
    Returned home after := by
  induction word generalizing state with
  | nil => cases ran
  | cons c rest ih =>
    obtain ⟨accepted, middle, looked, tail⟩ := Engine.run_bind_eq_ok_iff.mp ran
    cases eq_of_nextIs looked
    cases accepted with
    | true =>
      obtain ⟨c', next, advanced, more⟩ := Engine.run_bind_eq_ok_iff.mp tail
      exact ih (by rw [Engine.values_of_advance advanced, values]) more
    | false =>
      obtain ⟨_, next, reported, more⟩ := Engine.run_bind_eq_ok_iff.mp tail
      cases more
      exact ⟨rfl, (returned_of_mismatch reported).2.trans values⟩

private theorem backtracks_endOfInput : Backtracks (Matcher.endOfInput : Engine σ Bool) := by
  refine backtracks_framed fun context state after ran => ?_
  obtain ⟨ended, middle, looked, rest⟩ := Engine.run_bind_eq_ok_iff.mp ran
  cases looked
  split at rest
  · cases rest
  · obtain ⟨_, last, reported, answered⟩ := Engine.run_bind_eq_ok_iff.mp rest
    cases answered
    exact returned_of_mismatch reported

/-- A sequence goes back to its start, whatever its parts do. -/
theorem returned_of_sequenceFrom {parts : List (Engine σ Bool)}
    (ran : (Matcher.sequenceFrom (Engine.markOf home) parts).run context state = some (.ok false, after)) :
    Returned home after := by
  induction parts generalizing state with
  | nil => cases ran
  | cons first rest ih =>
    obtain ⟨matched, middle, _, tail⟩ := Engine.run_bind_eq_ok_iff.mp ran
    cases matched with
    | true => exact ih tail
    | false =>
      obtain ⟨_, last, back, answered⟩ := Engine.run_bind_eq_ok_iff.mp tail
      cases answered
      exact returned_of_reset back

private theorem returned_of_firstOfFrom {alternatives : List (Engine σ Bool)} (started : Returned home state)
    (ran : (Matcher.firstOfFrom (Engine.markOf home) alternatives).run context state =
      some (.ok false, after)) : Returned home after := by
  induction alternatives generalizing state with
  | nil =>
    cases ran
    exact started
  | cons first rest ih =>
    obtain ⟨matched, middle, _, tail⟩ := Engine.run_bind_eq_ok_iff.mp ran
    cases matched with
    | true => cases tail
    | false =>
      obtain ⟨_, next, back, more⟩ := Engine.run_bind_eq_ok_iff.mp tail
      exact ih (returned_of_reset back) more

private theorem backtracks_repeated (kind : RuleKind) (minimum bound : Nat) (x : Engine σ Bool) :
    Backtracks (Matcher.repeated kind minimum bound x) := by
  refine backtracks_framed fun context state after ran => ?_
  rw [Engine.run_mark_bind] at ran
  obtain ⟨count, middle, _, tail⟩ := Engine.run_bind_eq_ok_iff.mp ran
  split at tail
  · obtain ⟨_, last, back, answered⟩ := Engine.run_bind_eq_ok_iff.mp tail
    cases answered
    exact returned_of_reset back
  · cases tail

/-- Looking ahead goes back, whatever is concluded from what was seen. -/
theorem returned_of_ahead (conclude : Bool → Bool) {frame : Frame} {x : Engine σ Bool} {answer : Bool}
    (ran : (Machine.framed frame (Machine.mark >>= fun here => x >>= fun matched =>
      Machine.reset here >>= fun _ => pure (conclude matched))).run context state = some (.ok answer, after)) :
    Returned state after := by
  have inner := Engine.run_framed_eq_ok_iff.mp ran
  rw [Engine.run_mark_bind] at inner
  obtain ⟨matched, middle, _, tail⟩ := Engine.run_bind_eq_ok_iff.mp inner
  obtain ⟨_, last, back, answered⟩ := Engine.run_bind_eq_ok_iff.mp tail
  cases answered
  exact returned_of_reset back

private theorem backtracks_capture {x : Engine σ Bool} (inner : Backtracks x) : Backtracks (Matcher.capture x) := by
  refine backtracks_framed fun context state after ran => ?_
  rw [Engine.run_offset_bind] at ran
  obtain ⟨matched, middle, body, tail⟩ := Engine.run_bind_eq_ok_iff.mp ran
  cases matched with
  | true =>
    obtain ⟨text, next, _, rest⟩ := Engine.run_bind_eq_ok_iff.mp tail
    cases rest
  | false =>
    cases tail
    exact inner context body

private theorem backtracks_named (name : Option String) {x : Engine σ Bool} (inner : Backtracks x) :
    Backtracks (Matcher.named name x) := by
  refine backtracks_framed fun context state after ran => ?_
  rw [Engine.run_nested] at ran
  split at ran
  · cases ran
  · obtain ⟨⟨outcome, ended⟩, body, same⟩ := Option.map_eq_some_iff.mp ran
    cases same
    obtain ⟨offset, depth⟩ := inner context body
    exact ⟨offset, depth⟩

/-- An action never fails: it matches, or it ends in a fault. -/
theorem backtracks_action (arity : Int) (compute : List Value → Except Fault Value) :
    Backtracks (Matcher.action arity compute : Engine σ Bool) := by
  intro context state after ran
  obtain ⟨operands, middle, _, tail⟩ := Engine.run_bind_eq_ok_iff.mp ran
  obtain ⟨value, next, _, rest⟩ := Engine.run_bind_eq_ok_iff.mp tail
  cases rest

end Matchers

/-- Every rule of combinators goes back when it fails. -/
theorem backtracks_matcher (grammar : Grammar Empty) (budget : Nat) (rule : Rule Empty) :
    Backtracks (rule.matcher Interpretation.none grammar budget : Engine σ Bool) := by
  induction budget generalizing rule with
  | zero =>
    intro context state after ran
    cases ran
  | succ budget ih =>
    change Backtracks (rule.denote Interpretation.none grammar budget
      (Rule.matcher Interpretation.none grammar budget) : Engine σ Bool)
    cases rule with
    | char c => exact backtracks_oneChar _ _
    | literal word => exact backtracks_framed fun context _ _ ran => returned_of_literalFrom rfl ran
    | anyOf chars => exact backtracks_oneChar _ _
    | range low high => exact backtracks_oneChar _ _
    | anyChar => exact backtracks_oneChar _ _
    | endOfInput => exact backtracks_endOfInput
    | sequence parts => exact backtracks_framed fun context _ _ ran => returned_of_sequenceFrom ran
    | firstOf alternatives =>
      exact backtracks_framed fun context state _ ran => returned_of_firstOfFrom (returned_refl state) ran
    | optional body =>
      refine backtracks_framed fun context state after ran => ?_
      rw [Engine.run_mark_bind] at ran
      obtain ⟨matched, middle, _, tail⟩ := Engine.run_bind_eq_ok_iff.mp ran
      cases matched with
      | true => cases tail
      | false =>
        obtain ⟨_, last, _, answered⟩ := Engine.run_bind_eq_ok_iff.mp tail
        cases answered
    | zeroOrMore body => exact backtracks_repeated _ _ _ _
    | oneOrMore body => exact backtracks_repeated _ _ _ _
    | andPredicate body => exact fun context _ _ ran => returned_of_ahead id ran
    | notPredicate body => exact fun context _ _ ran => returned_of_ahead not ran
    | capture body => exact backtracks_capture (ih body)
    | push value =>
      intro context state after ran
      cases ran
    | action arity compute => exact backtracks_action arity compute
    | named name body => exact backtracks_named name (ih body)
    | reference name =>
      simp only [Rule.denote]
      cases grammar.find? name with
      | none =>
        intro context state after ran
        cases ran
      | some target => exact ih target
    | unbuilt fault =>
      intro context state after ran
      cases ran
    | extension extended => exact extended.elim

end Backtracking

def Rule.LooksAhead {χ : Type} : Rule χ → Prop
  | .andPredicate _ => True
  | .notPredicate _ => True
  | _ => False

namespace Backtracking

private theorem returned_of_looksAhead {grammar : Grammar Empty} {budget : Nat} {rule : Rule Empty}
    (ahead : rule.LooksAhead) {context : Context} {state after : State σ} {answer : Bool}
    (ran : (rule.matcher Interpretation.none grammar budget : Engine σ Bool).run context state =
      some (.ok answer, after)) : Returned state after := by
  cases budget with
  | zero => cases ran
  | succ budget =>
    cases rule with
    | andPredicate body => exact returned_of_ahead id ran
    | notPredicate body => exact returned_of_ahead not ran
    | _ => exact ahead.elim

end Backtracking

/-- When a rule fails, and when a rule looked ahead, the cursor and the number of values are as they were, and
so are the values that lie below every depth of the stack in between. The stack is as it was if and only if
the values above are as well, and in particular if it was never shorter than at the start. -/
theorem restores_of_backtracking {grammar : Grammar Empty} {budget : Nat} {rule : Rule Empty}
    {context : Context} {state after : State σ} {answer : Bool}
    (ran : (rule.matcher Interpretation.none grammar budget : Engine σ Bool).run context state =
      some (.ok answer, after)) (gaveUp : answer = false ∨ rule.LooksAhead) :
    after.offset = state.offset ∧ after.values.depth = state.values.depth ∧
      ∃ record, (rule.matcher Interpretation.none grammar budget : Evaluation .byDepth σ Bool).run context [] []
          state = some (.ok answer, after, record) ∧
        (∀ kept, kept ≤ state.values.depth → (∀ moment ∈ record, kept ≤ moment.depth) →
          after.values.take kept = state.values.take kept ∧
            (after.values = state.values ↔ after.values.above kept = state.values.above kept)) ∧
        ((∀ moment ∈ record, state.values.depth ≤ moment.depth) → after.values = state.values) := by
  have returned : Backtracking.Returned state after := by
    obtain rfl | ahead := gaveUp
    · exact Backtracking.backtracks_matcher grammar budget rule context ran
    · exact Backtracking.returned_of_looksAhead ahead ran
  rw [Evaluation.run_eq_forget Simulation.hosts_none grammar budget rule context [] [] state] at ran
  obtain ⟨⟨outcome, ended, record⟩, recorded, same⟩ := Option.map_eq_some_iff.mp ran
  cases same
  have kept_of_reached : ∀ kept, kept ≤ state.values.depth → (∀ moment ∈ record, kept ≤ moment.depth) →
      after.values.take kept = state.values.take kept :=
    fun kept inside reached => Evaluation.take_eq_of_reached recorded inside reached
  refine ⟨returned.1, returned.2, record, recorded, ?_, ?_⟩
  · intro kept inside reached
    have below := kept_of_reached kept inside reached
    refine ⟨below, fun same => by rw [same], fun above => ?_⟩
    exact ValueStack.eq_of_take_above below above
  · intro reached
    have whole := kept_of_reached state.values.depth (Nat.le_refl _) reached
    rwa [ValueStack.take_depth, ← returned.2, ValueStack.take_depth] at whole

/-- Replaces the top value by a list of it, after some other parts, and then fails at the end of the text. -/
def wrapThenFail (parts : List (Rule Empty)) : Rule Empty :=
  .sequence (parts ++ [.action 1 Action.list.apply, .char 'x'])

def oneValue : State Unit :=
  { values := ⟨#[.int 1]⟩, memory := () }

/-- A value that the failing sequence has pushed itself may be popped: the value below it stays. -/
theorem failing_sequence_restores : ∃ after,
    ((wrapThenFail [.push .null]).matcher Interpretation.none {} 3 : Engine Unit Bool).run ⟨.ofString "", 10, 10⟩
      oneValue = some (.ok false, after) ∧ after.offset = 0 ∧ after.values = oneValue.values := by
  refine ⟨_, rfl, ?_⟩
  obtain ⟨offset, _, record, recorded, _, whole⟩ :=
    @restores_of_backtracking Unit {} 3 (wrapThenFail [.push .null]) ⟨.ofString "", 10, 10⟩ oneValue _ false rfl
      (.inl rfl)
  refine ⟨offset, whole ?_⟩
  cases recorded
  decide

/-- A value from below the mark of the failing sequence is not put back: the stack holds another value, and
no fault was reported. -/
theorem failing_sequence_replaces : ∃ after,
    ((wrapThenFail []).matcher Interpretation.none {} 3 : Engine Unit Bool).run ⟨.ofString "", 10, 10⟩ oneValue =
      some (.ok false, after) ∧ after.values.toList = [.list [.int 1]] ∧ after.values ≠ oneValue.values := by
  refine ⟨_, rfl, rfl, ?_⟩
  intro same
  cases congrArg ValueStack.toList same

end PegMatcher
