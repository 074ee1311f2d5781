import PegMatcher.Proofs.Progress
import PegMatcher.Proofs.Trails

/-! # A failure without lookahead is explained

The furthest offset of a pass is also raised by advances on ways that are given up later. Still, where nothing
looks ahead and every choice has an alternative, a rule that fails has reported a mismatch as far as it has
got. The invariant is about every evaluation of a part: how far it has got on its own account is where it has
stopped, if it matches, or else where it has reported a mismatch. `Accounts` says so. What comes behind a match
starts from where the match has stopped, so it cannot hide that the match had got further before.

A predicate breaks this: looking ahead gives up a match without a mismatch.
-/

namespace PegMatcher

variable {σ χ : Type}

/-- A rule that does not look ahead and is no choice without alternatives. -/
def Rule.Forthright : Rule χ → Prop
  | .andPredicate _ => False
  | .notPredicate _ => False
  | .firstOf alternatives => alternatives ≠ []
  | _ => True

namespace Furthest

def Reported (record : List (Moment σ)) (offset : Nat) : Prop :=
  ∃ frames, ((offset : Int), frames) ∈ mismatches record

/-- A state of a plain pass, with the cursor no further than the furthest offset. -/
structure Underway (state : State σ) : Prop where
  plain : state.tracker.collecting = none
  start : 0 ≤ state.offset
  reached : state.offset ≤ state.tracker.deepest

/-- How far an evaluation has got on its own account is where it has reported a mismatch, or where it has
stopped if it matches. -/
structure Accounts (state after : State σ) (record : List (Moment σ)) (answer : Bool) : Prop where
  plain : after.tracker.collecting = none
  forward : answer = true → state.offset ≤ after.offset ∧ after.offset ≤ after.tracker.deepest
  reach : ∃ reach : Nat, state.offset ≤ reach ∧ after.tracker.deepest = max state.tracker.deepest reach ∧
    (Reported record reach ∨ answer = true ∧ after.offset = reach)

section Accounts

variable {state middle after : State σ} {record early late : List (Moment σ)} {answer : Bool}

theorem Reported.left {offset : Nat} (reported : Reported early offset) : Reported (early ++ late) offset := by
  obtain ⟨frames, member⟩ := reported
  exact ⟨frames, by rw [mismatches_append]; exact List.mem_append_left _ member⟩

theorem Reported.right {offset : Nat} (reported : Reported late offset) : Reported (early ++ late) offset := by
  obtain ⟨frames, member⟩ := reported
  exact ⟨frames, by rw [mismatches_append]; exact List.mem_append_right _ member⟩

theorem Accounts.left (accounts : Accounts state after early answer) :
    Accounts state after (early ++ late) answer := by
  obtain ⟨reach, le, deepest, why⟩ := accounts.reach
  exact ⟨accounts.plain, accounts.forward, reach, le, deepest, why.imp_left Reported.left⟩

theorem Accounts.right (accounts : Accounts state after late answer) :
    Accounts state after (early ++ late) answer := by
  obtain ⟨reach, le, deepest, why⟩ := accounts.reach
  exact ⟨accounts.plain, accounts.forward, reach, le, deepest, why.imp_left Reported.right⟩

theorem Accounts.underway (underway : Underway state) (accounts : Accounts state after record true) :
    Underway after := by
  obtain ⟨forward, reached⟩ := accounts.forward rfl
  have start := underway.start
  exact ⟨accounts.plain, by omega, reached⟩

/-- To stay where one is, is no further than where one was. -/
theorem accounts_refl (underway : Underway state) (record : List (Moment σ)) :
    Accounts state state record true := by
  have start := underway.start
  have reached := underway.reached
  exact ⟨underway.plain, fun _ => ⟨Int.le_refl _, reached⟩, state.offset.toNat, by omega, by omega,
    .inr ⟨rfl, by omega⟩⟩

/-- If the first part had got further than the second one, then not to where the second one has started. -/
theorem Accounts.andThen (first : Accounts state middle early true) (second : Accounts middle after late answer) :
    Accounts state after (early ++ late) answer := by
  obtain ⟨reach, le, deepest, why⟩ := first.reach
  obtain ⟨reach', le', deepest', why'⟩ := second.reach
  obtain ⟨forward, _⟩ := first.forward rfl
  refine ⟨second.plain, ?_, ?_⟩
  · intro matched
    obtain ⟨forward', reached⟩ := second.forward matched
    exact ⟨Int.le_trans forward forward', reached⟩
  by_cases further : reach ≤ reach'
  · exact ⟨reach', by omega, by omega, why'.imp_left Reported.right⟩
  · obtain reported | ⟨_, stopped⟩ := why
    · exact ⟨reach, le, by omega, .inl reported.left⟩
    · omega

/-- A failure stays accounted for wherever the cursor goes back to. -/
theorem Accounts.failed (accounts : Accounts state middle record false) (same : after.tracker = middle.tracker) :
    Accounts state after record false := by
  obtain ⟨reach, le, deepest, reported | ⟨⟨⟩, _⟩⟩ := accounts.reach
  exact ⟨same ▸ accounts.plain, nofun, reach, le, same ▸ deepest, .inl reported⟩

/-- A failure can be answered with a match that consumes nothing. -/
theorem Accounts.recovered (accounts : Accounts state middle record false) (underway : Underway state)
    (same : after.tracker = middle.tracker) (back : after.offset = state.offset) :
    Accounts state after record true := by
  obtain ⟨reach, le, deepest, reported | ⟨⟨⟩, _⟩⟩ := accounts.reach
  have reached := underway.reached
  refine ⟨same ▸ accounts.plain, fun _ => ⟨Int.le_of_eq back.symm, ?_⟩, reach, le, same ▸ deepest, .inl reported⟩
  rw [same, deepest, back]
  omega

end Accounts

section Operations

variable {context : Context} {active : List Frame} {past record : List (Moment σ)} {state after : State σ}

private theorem accounts_advance (underway : Underway state) {c : Char}
    (ran : (Machine.advance : Evaluation .byDepth σ Char).run context active past state =
      some (.ok c, after, record)) : Accounts state after record true := by
  obtain ⟨performed, rfl⟩ := Evaluation.run_perform_eq_some.mp ran
  have start := underway.start
  have reached := underway.reached
  simp only [Engine.advance] at performed
  split at performed
  · split at performed <;> cases performed
    have plain := (Progress.le_observe underway.plain (state.offset + 1)).1
    have deepest : (state.tracker.observe (state.offset + 1)).deepest =
        max state.tracker.deepest (state.offset + 1).toNat := by
      simp only [Tracker.observe, underway.plain]
    refine ⟨plain, fun _ => ⟨?_, ?_⟩, (state.offset + 1).toNat, ?_, deepest, .inr ⟨rfl, ?_⟩⟩
    · exact Int.le_add_one (Int.le_refl _)
    · dsimp only
      omega
    · omega
    · dsimp only
      omega
  · cases performed
    exact accounts_refl underway _

private theorem accounts_mismatch (underway : Underway state)
    (ran : (Machine.mismatch : Evaluation .byDepth σ Unit).run context active past state =
      some (.ok (), after, record)) : Accounts state after record false := by
  obtain ⟨performed, rfl⟩ := Evaluation.run_perform_eq_some.mp ran
  change (Engine.mismatch : Engine σ Unit).run context state = _ at performed
  rw [Progress.run_mismatch_of_plain underway.plain] at performed
  cases performed
  have start := underway.start
  have plain := (Progress.le_observe underway.plain state.offset).1
  have deepest : (state.tracker.observe state.offset).deepest =
      max state.tracker.deepest state.offset.toNat := by
    simp only [Tracker.observe, underway.plain]
  have here : ((state.offset.toNat : Nat) : Int) = state.offset := Int.toNat_of_nonneg start
  refine ⟨plain, fun matched => absurd matched Bool.false_ne_true, state.offset.toNat, Int.le_of_eq here.symm,
    deepest, .inl ⟨active, ?_⟩⟩
  rw [here]
  exact List.mem_singleton.mpr rfl

private theorem eq_of_reset {target : Checkpoint} {result : Unit}
    (ran : (Machine.reset target : Evaluation .byDepth σ Unit).run context active past state =
      some (.ok result, after, record)) : after.tracker = state.tracker ∧ after.offset = target.offset := by
  obtain ⟨performed, rfl⟩ := Evaluation.run_perform_eq_some.mp ran
  obtain ⟨_, rfl⟩ := Engine.run_reset_eq_ok_iff.mp performed
  exact ⟨rfl, rfl⟩

end Operations

/-- A matcher that accounts for how far it gets, whenever it answers. -/
def Accounting (x : Evaluation .byDepth σ Bool) : Prop :=
  ∀ context active past ⦃state after record answer⦄, Underway state →
    x.run context active past state = some (.ok answer, after, record) → Accounts state after record answer

section Matchers

private theorem accounting_framed {frame : Frame} {x : Evaluation .byDepth σ Bool} (inner : Accounting x) :
    Accounting (Machine.framed frame x) :=
  fun context active past _ _ _ _ underway ran =>
    inner context (active ++ [frame]) past underway (Evaluation.run_framed_eq_ok.mp ran)

variable {context : Context} {active : List Frame} {past record : List (Moment σ)} {state after : State σ}
  {answer : Bool}

/-- A leaf that fails reports a mismatch before it answers. -/
theorem accounts_refusal (underway : Underway state) {f : Unit → Evaluation .byDepth σ Bool}
    (quiet : ∀ context active past ⦃state after record answer⦄,
      (f ()).run context active past state = some (.ok answer, after, record) →
        answer = false ∧ after.tracker = state.tracker)
    (ran : (Machine.mismatch >>= f).run context active past state = some (.ok answer, after, record)) :
    Accounts state after record answer := by
  obtain ⟨_, middle, early, late, reported, rest, rfl⟩ := Evaluation.run_bind_eq_ok.mp ran
  obtain ⟨rfl, same⟩ := quiet _ _ _ rest
  exact ((accounts_mismatch underway reported).failed same).left

private theorem quiet_pure (context : Context) (active : List Frame) (past : List (Moment σ)) ⦃state after : State σ⦄
    ⦃record : List (Moment σ)⦄ ⦃answer : Bool⦄
    (ran : (pure false : Evaluation .byDepth σ Bool).run context active past state =
      some (.ok answer, after, record)) : answer = false ∧ after.tracker = state.tracker := by
  cases ran
  exact ⟨rfl, rfl⟩

private theorem accounting_oneChar (frame : Frame) (accepts : Char → Bool) :
    Accounting (Matcher.oneChar frame accepts : Evaluation .byDepth σ Bool) := by
  refine accounting_framed fun context active past state after record answer underway ran => ?_
  obtain ⟨accepted, middle, early, late, looked, rest, rfl⟩ := Evaluation.run_bind_eq_ok.mp ran
  obtain ⟨rfl, _, _⟩ := Evaluation.nextIs_cases looked
  cases accepted with
  | true =>
    obtain ⟨c, last, moments, _, moved, answered, rfl⟩ := Evaluation.run_bind_eq_ok.mp rest
    cases answered
    exact (accounts_advance underway moved).left.right
  | false => exact (accounts_refusal underway quiet_pure rest).right

private theorem accounts_literalFrom (home : Int) {word : List Char} (underway : Underway state)
    (ran : (Matcher.literalFrom home word : Evaluation .byDepth σ Bool).run context active past state =
      some (.ok answer, after, record)) : Accounts state after record answer := by
  induction word generalizing state past record with
  | nil =>
    cases ran
    exact accounts_refl underway []
  | cons c rest ih =>
    obtain ⟨accepted, middle, early, late, looked, tail, rfl⟩ := Evaluation.run_bind_eq_ok.mp ran
    obtain ⟨rfl, _, _⟩ := Evaluation.nextIs_cases looked
    cases accepted with
    | true =>
      obtain ⟨d, next, moments, more, moved, continued, rfl⟩ := Evaluation.run_bind_eq_ok.mp tail
      have advanced := accounts_advance underway moved
      exact (advanced.andThen (ih (advanced.underway underway) continued)).right
    | false =>
      refine (accounts_refusal underway ?_ tail).right
      intro _ _ _ state after record answer back
      obtain ⟨_, middle, _, _, moved, answered, _⟩ := Evaluation.run_bind_eq_ok.mp back
      cases answered
      obtain ⟨performed, _⟩ := Evaluation.run_perform_eq_some.mp moved
      cases performed
      exact ⟨rfl, rfl⟩

private theorem accounting_endOfInput : Accounting (Matcher.endOfInput : Evaluation .byDepth σ Bool) := by
  refine accounting_framed fun context active past state after record answer underway ran => ?_
  obtain ⟨ended, middle, early, late, looked, rest, rfl⟩ := Evaluation.run_bind_eq_ok.mp ran
  obtain ⟨performed, rfl⟩ := Evaluation.run_perform_eq_some.mp looked
  cases performed
  split at rest
  · cases rest
    exact accounts_refl underway _
  · exact (accounts_refusal underway quiet_pure rest).right

/-- A mark stands for the state that it was taken in. -/
theorem run_mark_bind {α : Type} {f : Checkpoint → Evaluation .byDepth σ α} {result : α}
    (ran : (Machine.mark >>= f : Evaluation .byDepth σ α).run context active past state =
      some (.ok result, after, record)) :
    ∃ here early late, here.offset = state.offset ∧ record = early ++ late ∧
      (f here).run context active (past ++ early) state = some (.ok result, after, late) := by
  obtain ⟨here, middle, early, late, marked, rest, rfl⟩ := Evaluation.run_bind_eq_ok.mp ran
  cases marked
  exact ⟨_, _, late, rfl, rfl, rest⟩

private theorem accounts_sequenceFrom {start : Checkpoint} {xs : List (Evaluation .byDepth σ Bool)}
    (parts : ∀ x ∈ xs, Accounting x) (underway : Underway state)
    (ran : (Matcher.sequenceFrom start xs).run context active past state = some (.ok answer, after, record)) :
    Accounts state after record answer := by
  induction xs generalizing state past record with
  | nil =>
    cases ran
    exact accounts_refl underway []
  | cons first rest ih =>
    obtain ⟨head, tail⟩ := List.forall_mem_cons.mp parts
    obtain ⟨matched, middle, early, late, began, more, rfl⟩ := Evaluation.run_bind_eq_ok.mp ran
    have accounts := head context active past underway began
    cases matched with
    | true => exact accounts.andThen (ih tail (accounts.underway underway) more)
    | false =>
      obtain ⟨_, last, _, _, back, answered, rfl⟩ := Evaluation.run_bind_eq_ok.mp more
      cases answered
      exact (accounts.failed (eq_of_reset back).1).left

/-- A choice that fails has at least one alternative that has failed. -/
theorem accounts_firstOfFrom {start : Checkpoint} {xs : List (Evaluation .byDepth σ Bool)} (some_left : xs ≠ [])
    (alternatives : ∀ x ∈ xs, Accounting x) (underway : Underway state) (here : start.offset = state.offset)
    (ran : (Matcher.firstOfFrom start xs).run context active past state = some (.ok answer, after, record)) :
    Accounts state after record answer := by
  induction xs generalizing state past record with
  | nil => exact absurd rfl some_left
  | cons first rest ih =>
    obtain ⟨head, tail⟩ := List.forall_mem_cons.mp alternatives
    obtain ⟨matched, middle, early, late, began, more, rfl⟩ := Evaluation.run_bind_eq_ok.mp ran
    have accounts := head context active past underway began
    cases matched with
    | true =>
      cases more
      exact accounts.left
    | false =>
      obtain ⟨_, next, moments, last, back, continued, rfl⟩ := Evaluation.run_bind_eq_ok.mp more
      obtain ⟨tracker, offset⟩ := eq_of_reset back
      cases rest with
      | nil =>
        cases continued
        exact (accounts.failed tracker).left
      | cons second others =>
        have recovered := accounts.recovered underway tracker (offset.trans here)
        have later := ih nofun tail (recovered.underway underway) offset.symm continued
        exact recovered.andThen later.right

private theorem accounting_optional {x : Evaluation .byDepth σ Bool} (body : Accounting x) :
    Accounting (Matcher.optional x) := by
  refine accounting_framed fun context active past state after record answer underway ran => ?_
  obtain ⟨start, early, late, here, rfl, rest⟩ := run_mark_bind ran
  obtain ⟨matched, middle, moments, more, began, tail, rfl⟩ := Evaluation.run_bind_eq_ok.mp rest
  have accounts := body context active _ underway began
  cases matched with
  | true =>
    cases tail
    exact accounts.left.right
  | false =>
    obtain ⟨_, last, _, _, back, answered, rfl⟩ := Evaluation.run_bind_eq_ok.mp tail
    cases answered
    obtain ⟨tracker, offset⟩ := eq_of_reset back
    exact (accounts.recovered underway tracker (offset.trans here)).left.right

/-- A repetition accounts for how far it gets as a match does, and as a failure does if its body has failed at
once. -/
theorem accounts_iterate {x : Evaluation .byDepth σ Bool} (body : Accounting x) {bound count total : Nat}
    (underway : Underway state)
    (ran : (Matcher.iterate x bound count).run context active past state = some (.ok total, after, record)) :
    Accounts state after record true ∧ count ≤ total ∧ (total = count → Accounts state after record false) := by
  induction bound generalizing state past record count with
  | zero => cases ran
  | succ bound ih =>
    obtain ⟨origin, _, first, rest, looked, marked, rfl⟩ := Evaluation.run_bind_eq_ok.mp ran
    obtain ⟨performed, rfl⟩ := Evaluation.run_perform_eq_some.mp looked
    cases performed
    obtain ⟨start, early, late, here, rfl, tail⟩ := run_mark_bind marked
    obtain ⟨matched, middle, moments, more, began, ended, rfl⟩ := Evaluation.run_bind_eq_ok.mp tail
    have accounts := body context active _ underway began
    cases matched with
    | true =>
      obtain ⟨stop, _, _, further, looked, continued, rfl⟩ := Evaluation.run_bind_eq_ok.mp ended
      obtain ⟨performed, rfl⟩ := Evaluation.run_perform_eq_some.mp looked
      cases performed
      split at continued
      · cases continued
        exact ⟨accounts.left.right.right, Nat.le_succ count, fun same => absurd same (Nat.succ_ne_self count)⟩
      · obtain ⟨loops, le, _⟩ := ih (accounts.underway underway) continued
        exact ⟨(accounts.andThen loops.right).right.right, by omega, fun same => by omega⟩
    | false =>
      obtain ⟨_, last, _, _, back, answered, rfl⟩ := Evaluation.run_bind_eq_ok.mp ended
      cases answered
      obtain ⟨tracker, offset⟩ := eq_of_reset back
      have recovered := accounts.recovered underway tracker (offset.trans here)
      exact ⟨recovered.left.right.right, Nat.le_refl _, fun _ => (accounts.failed tracker).left.right.right⟩

private theorem accounting_repeated (kind : RuleKind) {minimum : Nat} (atMostOne : minimum ≤ 1) (bound : Nat)
    {x : Evaluation .byDepth σ Bool} (body : Accounting x) :
    Accounting (Matcher.repeated kind minimum bound x) := by
  refine accounting_framed fun context active past state after record answer underway ran => ?_
  obtain ⟨start, early, late, here, rfl, rest⟩ := run_mark_bind ran
  obtain ⟨total, middle, moments, more, looped, tail, rfl⟩ := Evaluation.run_bind_eq_ok.mp rest
  obtain ⟨matched, _, failed⟩ := accounts_iterate body underway looped
  split at tail
  · obtain ⟨_, last, _, _, back, answered, rfl⟩ := Evaluation.run_bind_eq_ok.mp tail
    cases answered
    exact ((failed (by omega)).failed (eq_of_reset back).1).left.right
  · cases tail
    exact matched.left.right

/-- Steps on values account for nothing of their own. -/
theorem Accounts.unmoved {middle : State σ} {late : List (Moment σ)} (accounts : Accounts state middle record answer)
    (touched : Evaluation.ValuesOnly middle after late) : Accounts state after (record ++ late) answer := by
  refine Accounts.left ⟨touched.tracker ▸ accounts.plain, ?_, ?_⟩
  · rw [touched.offset, touched.tracker]
    exact accounts.forward
  · rw [touched.offset, touched.tracker]
    exact accounts.reach

private theorem accounting_capture {x : Evaluation .byDepth σ Bool} (body : Accounting x) :
    Accounting (Matcher.capture x) := by
  intro context active past state after record answer underway ran
  obtain ⟨early, middle, moments, late, began, _, touched, rfl⟩ := Evaluation.capture_cases ran
  exact ((body _ _ _ underway began).unmoved touched).right

private theorem accounting_pushValue (value : Value) :
    Accounting (Matcher.pushValue value : Evaluation .byDepth σ Bool) := by
  intro context active past state after record answer underway ran
  obtain ⟨rfl, touched⟩ := Evaluation.valuesOnly_pushValue ran
  exact (accounts_refl underway []).unmoved touched

private theorem accounting_action (arity : Int) (compute : List Value → Except Fault Value) :
    Accounting (Matcher.action arity compute : Evaluation .byDepth σ Bool) := by
  intro context active past state after record answer underway ran
  obtain ⟨rfl, touched⟩ := Evaluation.valuesOnly_action ran
  exact (accounts_refl underway []).unmoved touched

/-- The nesting does not matter to how far an evaluation gets. -/
theorem accounting_named (name : Option String) {x : Evaluation .byDepth σ Bool} (body : Accounting x) :
    Accounting (Matcher.named name x) := by
  refine accounting_framed fun context active past state after record answer underway ran => ?_
  obtain ⟨_, inside, early, late, entered, rest, rfl⟩ := Evaluation.run_bind_eq_ok.mp ran
  obtain ⟨performed, _⟩ := Evaluation.run_perform_eq_some.mp entered
  simp only [Engine.enter] at performed
  split at performed <;> cases performed
  obtain ⟨ended, moments, inner, rfl, rfl⟩ := Evaluation.run_always_eq_some.mp rest
  have deeper : Underway ({ state with depth := state.depth + 1 } : State σ) :=
    ⟨underway.plain, underway.start, underway.reached⟩
  have accounts := body context active _ deeper inner
  have left : Accounts state { ended with depth := ended.depth - 1 } moments answer :=
    ⟨accounts.plain, accounts.forward, accounts.reach⟩
  exact left.left.right

end Matchers

/-- A rule that meets no lookahead and no empty choice accounts for how far it gets. -/
theorem accounting_matcher {grammar : Grammar Empty} (budget : Nat) {rule : Rule Empty}
    (forthright : ∀ part, grammar.Meets rule part → part.Forthright) :
    Accounting (rule.matcher Interpretation.none grammar budget : Evaluation .byDepth σ Bool) := by
  induction budget generalizing rule with
  | zero =>
    intro context active past state after record answer underway ran
    cases ran
  | succ budget ih =>
    intro context active past state after record answer underway ran
    obtain ⟨_, _, _, late, started, denoted, rfl⟩ := Evaluation.run_bind_eq_ok.mp ran
    cases started
    refine Accounts.right ?_
    have itself : rule.Forthright := forthright rule .refl
    have next {inner : Rule Empty} (enters : grammar.Enters rule inner) :
        Accounting (inner.matcher Interpretation.none grammar budget : Evaluation .byDepth σ Bool) :=
      ih fun part meets => forthright part (.head enters meets)
    have body {inner : Rule Empty} (only : rule.parts = [inner]) :
        Accounting (inner.matcher Interpretation.none grammar budget : Evaluation .byDepth σ Bool) :=
      next (.inl (only ▸ List.mem_singleton.mpr rfl))
    have each : ∀ x ∈ rule.parts.map (Rule.matcher Interpretation.none grammar budget),
        Accounting (x : Evaluation .byDepth σ Bool) :=
      List.forall_mem_map.mpr fun part member => next (.inl member)
    cases rule with
    | char | anyOf | range | anyChar => exact accounting_oneChar _ _ _ _ _ underway denoted
    | literal word =>
      obtain ⟨home, _, _, _, looked, rest, rfl⟩ :=
        Evaluation.run_bind_eq_ok.mp (Evaluation.run_framed_eq_ok.mp denoted)
      obtain ⟨performed, rfl⟩ := Evaluation.run_perform_eq_some.mp looked
      cases performed
      exact (accounts_literalFrom _ underway rest).right
    | endOfInput => exact accounting_endOfInput _ _ _ underway denoted
    | sequence parts =>
      obtain ⟨start, early, late, _, rfl, rest⟩ := run_mark_bind (Evaluation.run_framed_eq_ok.mp denoted)
      exact (accounts_sequenceFrom each underway rest).right
    | firstOf alternatives =>
      obtain ⟨start, early, late, here, rfl, rest⟩ := run_mark_bind (Evaluation.run_framed_eq_ok.mp denoted)
      exact (accounts_firstOfFrom (fun none => itself (List.map_eq_nil_iff.mp none)) each underway here rest).right
    | optional inner => exact accounting_optional (body rfl) _ _ _ underway denoted
    | zeroOrMore inner => exact accounting_repeated _ (Nat.zero_le 1) _ (body rfl) _ _ _ underway denoted
    | oneOrMore inner => exact accounting_repeated _ (Nat.le_refl 1) _ (body rfl) _ _ _ underway denoted
    | andPredicate | notPredicate => exact itself.elim
    | capture inner => exact accounting_capture (body rfl) _ _ _ underway denoted
    | push value => exact accounting_pushValue value _ _ _ underway denoted
    | action arity compute => exact accounting_action arity compute _ _ _ underway denoted
    | named name inner => exact accounting_named name (body rfl) _ _ _ underway denoted
    | reference name =>
      simp only [Rule.denote] at denoted
      cases found : grammar.find? name with
      | none =>
        rw [found] at denoted
        cases denoted
      | some target =>
        rw [found] at denoted
        exact next (.inr ⟨name, rfl, found⟩) _ _ _ underway denoted
    | unbuilt fault => cases denoted
    | extension extended => exact extended.elim

/-- A pass that fails has reported a mismatch at its furthest offset. -/
theorem reported_of_failure {grammar : Grammar Empty} {rule : Rule Empty}
    (forthright : ∀ part, grammar.Meets rule part → part.Forthright) {budget : Nat} {context : Context}
    {memory : σ} {after : State σ} {record : List (Moment σ)}
    (recorded : (rule.matcher Interpretation.none grammar budget : Evaluation .byDepth σ Bool).run context [] []
      { memory := memory } = some (.ok false, after, record)) :
    Reported record after.tracker.deepest := by
  have start : Underway ({ memory := memory } : State σ) := ⟨rfl, Int.le_refl 0, Int.le_refl 0⟩
  have accounts := accounting_matcher budget forthright context [] [] start recorded
  obtain ⟨reach, _, deepest, reported | ⟨⟨⟩, _⟩⟩ := accounts.reach
  rw [deepest]
  exact (Nat.zero_max reach).symm ▸ reported

end Furthest

/-- An error with a stack that is not empty expects something. -/
theorem ParseError.expected_ne_nil {error : ParseError} {stack : RuleStack} (member : stack ∈ error.ruleStacks)
    {frame : Frame} (innermost : stack.innermost? = some frame) : error.expected ≠ [] := by
  have label : frame.label ∈ error.ruleStacks.filterMap fun stack => stack.innermost?.map Frame.label :=
    List.mem_filterMap.mpr ⟨stack, member, by rw [innermost]; rfl⟩
  exact List.ne_nil_of_mem (List.mem_eraseDups.mpr label)

open Furthest Diagnosis Trails

/-- A failure without lookahead is explained. If the plain pass over a rule fails, and the rule meets neither a
predicate nor a choice without alternatives, then a mismatch was reported exactly at the furthest offset. So
the parse error at that offset has a rule stack and expects something, and only the limit on rule stacks can
stand in the way of it. -/
theorem run_explains_failure {session : Session σ} (idle : session.running = false) {grammar : Grammar Empty}
    {rule : Rule Empty} (forthright : ∀ part, grammar.Meets rule part → part.Forthright) {budget : Nat}
    (shape : Shape) {after : State σ}
    (failed : (Session.pass (rule.matcher Interpretation.none grammar budget : Engine σ Bool) none).run
      session.context session.state.startRun = some (.ok false, after)) :
    ∃ record report next,
      (rule.matcher Interpretation.none grammar budget : Evaluation .byDepth σ Bool).run session.context [] []
        { memory := session.state.memory } = some (.ok false, after, record) ∧
      (∃ frames, ((after.tracker.deepest : Int), frames) ∈ mismatches record) ∧
      session.run (rule.matcher Interpretation.none grammar budget : Engine σ Bool) shape = some (report, next) ∧
      let found := stacksAt record after.tracker.deepest
      let room := session.context.maxErrorStacks.toNat
      (found.length ≤ room → ∃ error, report.ending = .ok (.failure error) ∧
        error.position = Position.resolve session.context.source after.tracker.deepest ∧
        error.ruleStacks = found ∧ error.ruleStacks ≠ [] ∧ error.expected ≠ []) ∧
      (room < found.length →
        report.ending = .error (.stackLimit session.context.maxErrorStacks after.tracker.deepest)) := by
  have plain : session.nthPass (rule.matcher Interpretation.none grammar budget : Engine σ Bool) 0 =
      some (.ok false, after) := failed
  rw [nthPass_zero] at plain
  obtain ⟨⟨outcome, ended, record⟩, recorded, same⟩ := Option.map_eq_some_iff.mp plain
  cases same
  obtain ⟨frames, reported⟩ := reported_of_failure forthright recorded
  obtain ⟨report, next, ran, decided, _⟩ := run_eq_verdict idle recorded shape
  have ending : report.ending = _ := congrArg Prod.fst decided
  have member : ⟨frames⟩ ∈ stacksAt record after.tracker.deepest := mem_stacksAt_iff.mpr reported
  obtain ⟨_, _, above, last, _, _, split, _⟩ := (leads_of_mismatch recorded reported).frames
  have innermost : RuleStack.innermost? ⟨frames⟩ = some last := by
    rw [RuleStack.innermost?, split, List.getLast?_concat]
  refine ⟨record, report, next, recorded, ⟨frames, reported⟩, ran, fun fits => ?_, fun exceeds => ?_⟩
  · rw [verdict, if_pos fits] at ending
    exact ⟨_, ending, rfl, rfl, List.ne_nil_of_mem member, ParseError.expected_ne_nil member innermost⟩
  · rw [verdict, if_neg (by omega)] at ending
    exact ending

def nest : Rule Empty :=
  .firstOf [.sequence [.char '(', .reference "nest", .char ')'], .sequence []]

def nestOnly : Rule Empty :=
  .sequence [.reference "nest", .endOfInput]

def unclosed : Session Unit :=
  { context := ⟨Source.ofString "((", 10, 10⟩, state := { running := false, memory := () } }

/-- The rules that are met in matching brackets. -/
theorem mem_of_meets_nestOnly {part : Rule Empty} (meets : Grammar.Meets ⟨[("nest", nest)]⟩ nestOnly part) :
    part ∈ [nestOnly, .reference "nest", .endOfInput, nest,
      .sequence [.char '(', .reference "nest", .char ')'], .sequence [], .char '(', .char ')'] := by
  refine Grammar.mem_of_meets (fun rule known next enters => ?_) List.mem_cons_self meets
  obtain member | ⟨name, rfl, found⟩ := enters
  · simp only [List.mem_cons, List.not_mem_nil, or_false] at known
    rcases known with rfl | rfl | rfl | rfl | rfl | rfl | rfl | rfl <;>
      simp only [Rule.parts, nestOnly, nest, List.mem_cons, List.not_mem_nil] at member ⊢ <;> tauto
  · simp_all [Grammar.find?, nestOnly, nest, List.lookup_cons]

/-- All brackets are given up again, and the rule fails at the start of the text. What is reported is what would
have gone on behind the second bracket. -/
theorem run_explains_unclosed :
    ∃ report next error,
      unclosed.run (nestOnly.matcher Interpretation.none ⟨[("nest", nest)]⟩ 12) .all = some (report, next) ∧
      report.ending = .ok (.failure error) ∧ error.position.offset = 2 ∧ error.ruleStacks.length = 2 ∧
      error.expected ≠ [] := by
  have forthright : ∀ part, Grammar.Meets ⟨[("nest", nest)]⟩ nestOnly part → part.Forthright := by
    intro part meets
    have known := mem_of_meets_nestOnly meets
    simp only [List.mem_cons, List.not_mem_nil, or_false] at known
    rcases known with rfl | rfl | rfl | rfl | rfl | rfl | rfl | rfl <;>
      simp [Rule.Forthright, nestOnly, nest]
  have failed : ∃ after, (Session.pass (nestOnly.matcher Interpretation.none ⟨[("nest", nest)]⟩ 12 :
      Engine Unit Bool) none).run unclosed.context
        unclosed.state.startRun = some (.ok false, after) := ⟨_, rfl⟩
  obtain ⟨after, failed⟩ := failed
  obtain ⟨record, report, next, recorded, _, ran, enough, _⟩ := run_explains_failure rfl forthright .all failed
  cases recorded
  obtain ⟨error, ending, position, found, _, expected⟩ := enough (by decide)
  refine ⟨report, next, error, ran, ending, ?_, ?_, expected⟩
  · rw [position]
    rfl
  · rw [found]
    rfl

end PegMatcher
