import PegMatcher.Host.Action
import PegMatcher.Proofs.Evaluation

/-! # Rolling back by depth and by snapshot

Every operation leaves a stack that continues the one before it or is continued by it. Hence the values that
lie below the lowest depth since a moment are still those of that moment, and a return by depth finds them:
as long as the stack was never shorter than at a checkpoint, cutting it back to the depth of the checkpoint
gives the stack of the checkpoint.

`rollingBack` compares an evaluation of either kind with the evaluation by depth. A `Standing` says what a
computation relies on: where its past has left the stack, and that the checkpoints it may return to are
those of its past.
-/

namespace PegMatcher

variable {σ : Type}

/-- One of two stacks continues the other one. -/
def Adjacent (first second : ValueStack) : Prop :=
  first.toList <+: second.toList ∨ second.toList <+: first.toList

theorem adjacent_refl (stack : ValueStack) : Adjacent stack stack :=
  .inl (List.prefix_refl _)

theorem adjacent_push (stack : ValueStack) (value : Value) : Adjacent stack (stack.push value) := by
  refine .inl ?_
  rw [ValueStack.toList_push]
  exact List.prefix_append _ _

theorem adjacent_take (stack : ValueStack) (count : Nat) : Adjacent stack (stack.take count) := by
  refine .inr ?_
  rw [ValueStack.toList_take]
  exact List.take_prefix _ _

/-- Adjacent stacks have the values in common that both of them reach. -/
theorem Adjacent.take_eq {first second : ValueStack} (adjacent : Adjacent first second) {kept : Nat}
    (reached : kept ≤ first.depth) (reached' : kept ≤ second.depth) : first.take kept = second.take kept := by
  rw [← ValueStack.length_toList] at reached reached'
  ext1
  rw [ValueStack.toList_take, ValueStack.toList_take]
  obtain ⟨rest, whole⟩ | ⟨rest, whole⟩ := adjacent
  · rw [← whole, List.take_append_of_le_length reached]
  · rw [← whole, List.take_append_of_le_length reached']

/-- The stack has every value that no stack since some moment was too short for. -/
def Settled (passed : List ValueStack) (current : ValueStack) : Prop :=
  ∀ stack later, stack :: later <:+ passed → ∀ kept, (∀ other ∈ stack :: later, kept ≤ other.depth) →
    current.take kept = stack.take kept

theorem settled_nil (current : ValueStack) : Settled [] current := by
  intro stack later suffix
  cases List.suffix_nil.mp suffix

theorem Settled.concat {passed : List ValueStack} {current next : ValueStack} (settled : Settled passed current)
    (adjacent : Adjacent current next) : Settled (passed ++ [next]) next := by
  intro stack later suffix kept reached
  obtain none | ⟨front, whole, shorter⟩ := List.suffix_concat_iff.mp suffix
  · cases none
  cases front with
  | nil =>
    cases whole
    rfl
  | cons _ front =>
    cases whole
    have before : current.take kept = stack.take kept := by
      refine settled stack front shorter kept fun other member => reached other ?_
      exact List.mem_append_left [next] member
    have reachedStack : kept ≤ stack.depth := reached stack List.mem_cons_self
    have reachedNext : kept ≤ next.depth := reached next (by simp)
    have reachedCurrent : kept ≤ current.depth := by
      have depths := congrArg ValueStack.depth before
      rw [ValueStack.depth_take, ValueStack.depth_take] at depths
      omega
    rw [← before, adjacent.take_eq reachedCurrent reachedNext]

def stacksOf (record : List (Moment σ)) : List ValueStack :=
  record.map (·.state.values)

@[simp] theorem stacksOf_append (early late : List (Moment σ)) :
    stacksOf (early ++ late) = stacksOf early ++ stacksOf late :=
  List.map_append

/-- Every moment of a record, seen with the moments before it, has a property. -/
def Throughout (P : List (Moment σ) → Moment σ → Prop) (record : List (Moment σ)) : Prop :=
  ∀ early moment, early ++ [moment] <+: record → P early moment

private theorem throughout_nil {P : List (Moment σ) → Moment σ → Prop} : Throughout P [] := by
  intro early moment shorter
  have length := shorter.length_le
  simp at length

theorem Throughout.left {P : List (Moment σ) → Moment σ → Prop} {early late : List (Moment σ)}
    (throughout : Throughout P (early ++ late)) : Throughout P early :=
  fun before moment shorter => throughout before moment (shorter.trans (List.prefix_append _ _))

theorem Throughout.concat {P : List (Moment σ) → Moment σ → Prop} {early : List (Moment σ)} {last : Moment σ}
    (throughout : Throughout P early) (holds : P early last) : Throughout P (early ++ [last]) := by
  intro before moment shorter
  obtain same | shorter := List.prefix_concat_iff.mp shorter
  · obtain ⟨rfl, rfl⟩ := List.append_singleton_inj.mp same
    exact holds
  · exact throughout before moment shorter

/-- For a return, no stack since its checkpoint was shorter than at the checkpoint. -/
def Covered (before : List (Moment σ)) : Step → Prop
  | .reset taken depth => ∀ between ∈ before.drop taken, depth ≤ between.depth
  | .mismatch => True
  | .other => True

instance (before : List (Moment σ)) : (step : Step) → Decidable (Covered before step)
  | .reset taken depth => inferInstanceAs (Decidable (∀ between ∈ before.drop taken, depth ≤ between.depth))
  | .mismatch => inferInstanceAs (Decidable True)
  | .other => inferInstanceAs (Decidable True)

/-- A record without a return to a checkpoint below which values were popped since. -/
def NeverUndercut (record : List (Moment σ)) : Prop :=
  Throughout (fun before moment => Covered before moment.step) record

theorem neverUndercut_iff {record : List (Moment σ)} :
    NeverUndercut record ↔ ∀ index (inside : index < record.length),
      Covered (record.take index) record[index].step := by
  constructor
  · intro covered index inside
    refine covered (record.take index) record[index] ?_
    rw [List.take_append_getElem inside]
    exact List.take_prefix _ _
  · rintro covered before moment ⟨rest, rfl⟩
    have here := covered before.length (by simp)
    simpa using here

instance (record : List (Moment σ)) : Decidable (NeverUndercut record) :=
  decidable_of_iff' _ neverUndercut_iff

/-- If a moment is a return, the stack is what it was at the checkpoint. -/
def Restored (before : List (Moment σ)) (moment : Moment σ) : Prop :=
  ∀ taken depth, moment.step = .reset taken depth →
    ∃ marked, before[taken]? = some marked ∧ moment.state.values = marked.state.values

/-- An operation that leaves a stack adjacent to the one it finds. -/
def Linked {α : Type} (operation : Engine σ α) : Prop :=
  ∀ context ⦃state outcome after⦄, operation.run context state = some (outcome, after) →
    Adjacent state.values after.values

section Operations

variable {α : Type}

theorem linked_observe (view : Context → State σ → α) : Linked (Engine.observe view) := by
  intro context state outcome after run
  cases run
  exact adjacent_refl _

theorem linked_modify {change : State σ → State σ}
    (keeps : ∀ state, Adjacent state.values (change state).values) : Linked (Engine.modify change) := by
  intro context state outcome after run
  cases run
  exact keeps state

theorem linked_peek : Linked (Engine.peek : Engine σ Char) := by
  intro context state outcome after run
  rw [Engine.state_of_peek run]
  exact adjacent_refl _

theorem linked_advance : Linked (Engine.advance : Engine σ Char) := by
  intro context state outcome after run
  rw [Engine.values_of_advance run]
  exact adjacent_refl _

theorem linked_mismatch : Linked (Engine.mismatch : Engine σ Unit) := by
  intro context state outcome after run
  obtain ⟨tracker, rfl⟩ := Engine.state_of_mismatch run
  exact adjacent_refl _

theorem linked_popMany (count : Int) : Linked (Engine.popMany count : Engine σ (List Value)) := by
  intro context state outcome after run
  simp only [Engine.popMany] at run
  split at run <;> cases run
  · exact adjacent_take _ _
  · exact adjacent_refl _

theorem linked_enter : Linked (Engine.enter : Engine σ Unit) := by
  intro context state outcome after run
  simp only [Engine.enter] at run
  split at run <;> cases run <;> exact adjacent_refl _

theorem linked_reset (target : Mark) : Linked (Engine.reset target : Engine σ Unit) := by
  intro context state outcome after run
  change (Machine.reset target : Engine σ Unit).run context state = _ at run
  rw [Engine.run_reset] at run
  split at run <;> cases run
  · exact adjacent_refl _
  · exact adjacent_take _ _

end Operations

namespace Evaluation

variable {rollback : Rollback}

/-- What a computation relies on: its past has left the stack settled, the places it may return to are
checkpoints of the past, and returns by snapshot have restored the stack. The stacks of the origin come
before those of the past. -/
structure Standing (rollback : Rollback) (origin : List ValueStack)
    (live : Live (Evaluation rollback σ) (Evaluation .byDepth σ)) (past : List (Moment σ)) (state : State σ) :
    Prop where
  settled : Settled (origin ++ stacksOf past) state.values
  places : ∀ p q : Checkpoint, live p q → p = q ∧
    ∃ marked, past[p.taken]? = some marked ∧ marked.state.values = p.values
  restored : rollback = .bySnapshot → Throughout Restored past

variable {origin : List ValueStack} {live : Live (Evaluation rollback σ) (Evaluation .byDepth σ)}

theorem Standing.concat {past : List (Moment σ)} {state after : State σ}
    (standing : Standing rollback origin live past state) {step : Step} {active : List Frame}
    (adjacent : Adjacent state.values after.values)
    (restored : rollback = .bySnapshot → Restored past ⟨step, active, after⟩) :
    Standing rollback origin live (past ++ [⟨step, active, after⟩]) after := by
  constructor
  · rw [stacksOf_append, ← List.append_assoc]
    exact standing.settled.concat adjacent
  · intro p q known
    obtain ⟨same, marked, found, values⟩ := standing.places p q known
    have inside := (List.getElem?_eq_some_iff.mp found).1
    exact ⟨same, marked, by rw [List.getElem?_append_left inside, found], values⟩
  · exact fun snapshot => (standing.restored snapshot).concat (restored snapshot)

/-- An evaluation that does, from every standing, what an evaluation by depth does; one by snapshot may
count on never being undercut. -/
def Follows (live : Live (Evaluation rollback σ) (Evaluation .byDepth σ)) {α β : Type} (R : α → β → Prop)
    (x : Evaluation rollback σ α) (y : Evaluation .byDepth σ β) : Prop :=
  ∀ context ⦃active origin past state outcome after record⦄, Standing rollback origin live past state →
    x.run context active past state = some (outcome, after, record) →
    (rollback = .bySnapshot → NeverUndercut (past ++ record)) →
    ∃ outcome', y.run context active past state = some (outcome', after, record) ∧
      Outcomes R outcome outcome' ∧ Standing rollback origin live (past ++ record) after

private theorem follows_pure {α β : Type} {R : α → β → Prop} {a : α} {b : β} (related : R a b) :
    Follows live R (Pure.pure a) (Pure.pure b) := by
  intro context active origin past state outcome after record standing ran _
  cases ran
  exact ⟨.ok b, rfl, .ok related, by rwa [List.append_nil]⟩

theorem follows_bind {α β γ δ : Type} {R : α → β → Prop} {T : γ → δ → Prop} {first : Evaluation rollback σ α}
    {first' : Evaluation .byDepth σ β} {next : α → Evaluation rollback σ γ}
    {next' : β → Evaluation .byDepth σ δ} (head : Follows live R first first')
    (tail : ∀ a b, R a b → Follows live T (next a) (next' b)) :
    Follows live T (first >>= next) (first' >>= next') := by
  intro context active origin past state outcome after record standing ran covered
  obtain ⟨interrupt, rfl, begun⟩ | ⟨result, middle, early, late, begun, rest, rfl⟩ := run_bind_eq_some.mp ran
  · obtain ⟨outcome', ran', outcomes, standing'⟩ := head context standing begun covered
    cases outcomes
    exact ⟨_, run_bind_eq_some.mpr (.inl ⟨interrupt, rfl, ran'⟩), .error interrupt, standing'⟩
  · rw [← List.append_assoc] at covered ⊢
    obtain ⟨outcome', ran', outcomes, standing'⟩ :=
      head context standing begun fun snapshot => (covered snapshot).left
    cases outcomes with
    | @ok _ result' related =>
      obtain ⟨ended, rest', outcomes, standing''⟩ := tail result result' related context standing' rest covered
      exact ⟨ended, run_bind_eq_some.mpr (.inr ⟨_, _, _, _, ran', rest', rfl⟩), outcomes, standing''⟩

theorem follows_perform {α : Type} {R : α → α → Prop} (refl : ∀ result, R result result) (step : Step)
    (forward : ∀ taken depth, step ≠ .reset taken depth) {operation : Engine σ α} (linked : Linked operation) :
    Follows live R (perform step operation) (perform step operation) := by
  intro context active origin past state outcome after record standing ran _
  obtain ⟨performed, rfl⟩ := run_perform_eq_some.mp ran
  refine ⟨outcome, run_perform_eq_some.mpr ⟨performed, rfl⟩, ?_, standing.concat (linked context performed) ?_⟩
  · cases outcome with
    | ok result => exact .ok (refl result)
    | error interrupt => exact .error interrupt
  · intro _ taken depth same
    exact absurd same (forward taken depth)

private theorem follows_always {α β : Type} {R : α → β → Prop} {x : Evaluation rollback σ α}
    {y : Evaluation .byDepth σ β} {change : State σ → State σ}
    (keeps : ∀ state, (change state).values = state.values) (follows : Follows live R x y) :
    Follows live R (x.always change) (y.always change) := by
  intro context active origin past state outcome after record standing ran covered
  obtain ⟨ended, moments, inner, rfl, rfl⟩ := run_always_eq_some.mp ran
  rw [← List.append_assoc] at covered ⊢
  obtain ⟨outcome', ran', outcomes, standing'⟩ :=
    follows context standing inner fun snapshot => (covered snapshot).left
  refine ⟨outcome', run_always_eq_some.mpr ⟨ended, moments, ran', rfl, rfl⟩, outcomes, ?_⟩
  refine standing'.concat (keeps ended ▸ adjacent_refl _) ?_
  rintro _ taken depth ⟨⟩

/-- A checkpoint that is taken may be returned to. -/
theorem Standing.extend {past : List (Moment σ)} {state : State σ}
    (standing : Standing rollback origin live past state) (active : List Frame) :
    Standing rollback origin
      (live.extend (⟨state.offset, state.values, past.length⟩ : Checkpoint)
        (⟨state.offset, state.values, past.length⟩ : Checkpoint))
      (past ++ [⟨.other, active, state⟩]) state := by
  have unreturned : Restored past ⟨.other, active, state⟩ := by rintro taken depth ⟨⟩
  obtain ⟨settled, places, restored⟩ := standing.concat (adjacent_refl state.values) fun _ => unreturned
  refine ⟨settled, ?_, restored⟩
  rintro p q (old | ⟨rfl, rfl⟩)
  · exact places p q old
  · exact ⟨rfl, _, List.getElem?_concat_length .., rfl⟩

theorem follows_mark_bind {γ δ : Type} {T : γ → δ → Prop} {f : Checkpoint → Evaluation rollback σ γ}
    {g : Checkpoint → Evaluation .byDepth σ δ}
    (tail : ∀ p q : Checkpoint, Follows (live.extend p q) T (f p) (g q)) :
    Follows live T (mark >>= f) (mark >>= g) := by
  intro context active origin past state outcome after record standing ran covered
  obtain ⟨_, _, marking⟩ | ⟨_, _, _, late, marking, rest, rfl⟩ := run_bind_eq_some.mp ran
  · cases marking
  cases marking
  rw [← List.append_assoc] at covered ⊢
  obtain ⟨outcome', ran', outcomes, settled, places, restored⟩ :=
    tail _ _ context (standing.extend active) rest covered
  refine ⟨outcome', run_bind_eq_some.mpr (.inr ⟨_, _, _, _, rfl, ran', rfl⟩), outcomes, settled, ?_, restored⟩
  exact fun p q old => places p q (.inl old)

/-- A return by snapshot to a checkpoint that was not undercut finds the stack that a return by depth finds. -/
theorem resume_eq {past : List (Moment σ)} {state : State σ} {target : Checkpoint} {marked : Moment σ}
    (settled : Settled (origin ++ stacksOf past) state.values) (found : past[target.taken]? = some marked)
    (values : marked.state.values = target.values)
    (covered : Covered past (.reset target.taken target.values.depth)) (context : Context) :
    (resume .byDepth target).run context state = (resume .bySnapshot target).run context state := by
  obtain ⟨inside, here⟩ := List.getElem?_eq_some_iff.mp found
  have split : past.drop target.taken = marked :: past.drop (target.taken + 1) := by
    rw [List.drop_eq_getElem_cons inside, here]
  have suffix : marked.state.values :: stacksOf (past.drop (target.taken + 1)) <:+ origin ++ stacksOf past := by
    refine List.IsSuffix.trans ?_ (List.suffix_append origin (stacksOf past))
    have dropped := (List.drop_suffix target.taken past).map (·.state.values)
    rwa [split, List.map_cons] at dropped
  have kept : state.values.take target.values.depth = target.values := by
    rw [settled _ _ suffix target.values.depth ?_, values, ValueStack.take_depth]
    intro other member
    change other ∈ stacksOf (marked :: past.drop (target.taken + 1)) at member
    rw [← split] at member
    obtain ⟨between, inRecord, rfl⟩ := List.mem_map.mp member
    exact covered between inRecord
  have reached : ¬state.values.depth < target.values.depth := by
    have depths := congrArg ValueStack.depth kept
    rw [ValueStack.depth_take] at depths
    omega
  change (Machine.reset target.toMark : Engine σ Unit).run context state = _
  rw [Engine.run_reset, Checkpoint.toMark, if_neg reached, kept]
  rfl

theorem follows_reset {p q : Checkpoint} (known : live p q) :
    Follows live (fun _ _ => True) (reset p) (reset q) := by
  intro context active origin past state outcome after record standing ran covered
  obtain ⟨rfl, marked, found, values⟩ := standing.places p q known
  obtain ⟨performed, rfl⟩ := run_perform_eq_some.mp ran
  have same : (resume .byDepth p).run context state = some (outcome, after) := by
    cases rollback with
    | byDepth => exact performed
    | bySnapshot =>
      have last : Covered past (.reset p.taken p.values.depth) := covered rfl past _ (List.prefix_refl _)
      rw [resume_eq standing.settled found values last, performed]
  refine ⟨outcome, run_perform_eq_some.mpr ⟨same, rfl⟩, ?_, standing.concat (linked_reset _ context same) ?_⟩
  · cases outcome with
    | ok result => exact .ok trivial
    | error interrupt => exact .error interrupt
  · rintro rfl taken depth ⟨⟩
    cases performed
    exact ⟨marked, found, values.symm⟩

/-- Rolling back by depth is a simulation of both kinds of evaluations. -/
def rollingBack (rollback : Rollback) (σ : Type) :
    ModularSimulation (Evaluation rollback σ) (Evaluation .byDepth σ) where
  Rel live R x y := Follows live R x y
  Offsets := Eq
  offsets_eq_iff := Simulation.eq_offsets
  pure related := follows_pure related
  bind head tail := follows_bind head tail
  mark_bind tail := follows_mark_bind tail
  reset known := follows_reset known
  atEnd := follows_perform (fun _ => rfl) .other nofun (linked_observe _)
  peek := follows_perform (fun _ => rfl) .other nofun linked_peek
  advance := follows_perform (fun _ => trivial) .other nofun linked_advance
  offset := follows_perform (fun _ => rfl) .other nofun (linked_observe _)
  moveTo := by
    rintro _ a _ rfl
    exact follows_perform (fun _ => trivial) .other nofun (linked_modify fun _ => adjacent_refl _)
  sliceFrom := by
    rintro _ a _ rfl
    exact follows_perform (fun _ => rfl) .other nofun (linked_observe _)
  mismatch := follows_perform (fun _ => trivial) .mismatch nofun linked_mismatch
  push value := follows_perform (fun _ => trivial) .other nofun (linked_modify fun _ => adjacent_push _ _)
  popMany count := follows_perform (fun _ => rfl) .other nofun (linked_popMany count)
  fail fault _ := by
    intro context active origin past state outcome after record standing ran _
    obtain ⟨performed, rfl⟩ := run_perform_eq_some.mp ran
    cases performed
    refine ⟨_, run_perform_eq_some.mpr ⟨rfl, rfl⟩, .error _, standing.concat (adjacent_refl _) ?_⟩
    rintro _ taken depth ⟨⟩
  anyFrame frame inner := by
    intro context active origin past state outcome after record standing ran covered
    obtain ⟨original, within, rfl⟩ := run_framed_eq_some.mp ran
    obtain ⟨outcome', ran', outcomes, standing'⟩ := inner context standing within covered
    refine ⟨_, run_framed_eq_some.mpr ⟨outcome', ran', rfl⟩, ?_, standing'⟩
    cases outcomes with
    | ok related => exact .ok related
    | error interrupt => exact .error _
  nested inner := by
    refine follows_bind (R := Eq) (follows_perform (fun _ => rfl) .other nofun linked_enter) ?_
    rintro _ _ _
    exact follows_always (fun _ => rfl) inner
  exhausted := by
    intro _ _ _ _ context active origin past state outcome after record standing ran
    cases ran

/-- The matcher of a rule in an evaluation of either kind, from a standing without live places. -/
theorem follows_matcher (grammar : Grammar Empty) (budget : Nat) (rule : Rule Empty) :
    Follows (fun _ _ => False) Eq (rule.matcher Interpretation.none grammar budget : Evaluation rollback σ Bool)
      (rule.matcher Interpretation.none grammar budget) :=
  (Simulation.matcher Simulation.hosts_none grammar (.inl rfl : (rollingBack rollback σ).Fits budget budget) rule) _

/-- The values below every depth of an evaluation by depth are those that it began with. -/
theorem take_eq_of_reached {grammar : Grammar Empty} {budget : Nat} {rule : Rule Empty} {context : Context}
    {active : List Frame} {state after : State σ} {outcome : Except Interrupt Bool} {record : List (Moment σ)}
    (ran : (rule.matcher Interpretation.none grammar budget : Evaluation .byDepth σ Bool).run context active []
      state = some (outcome, after, record)) {kept : Nat} (inside : kept ≤ state.values.depth)
    (reached : ∀ moment ∈ record, kept ≤ moment.depth) :
    after.values.take kept = state.values.take kept := by
  have start : Standing .byDepth [state.values] (fun _ _ => False) [] state :=
    ⟨(settled_nil state.values).concat (adjacent_refl _), fun _ _ => False.elim, nofun⟩
  obtain ⟨_, _, _, settled, _, _⟩ := follows_matcher grammar budget rule context start ran nofun
  refine settled state.values (stacksOf record) (List.suffix_refl _) kept ?_
  simp only [List.forall_mem_cons, stacksOf, List.forall_mem_map]
  exact ⟨inside, reached⟩

end Evaluation

/-- Where no return by snapshot goes to a checkpoint that was undercut, the engine does the same: it has the
same outcome and ends in the same state after the same moments, and every return has restored the stack of
its checkpoint. -/
theorem run_eq_of_neverUndercut {grammar : Grammar Empty} {budget : Nat} {rule : Rule Empty}
    {context : Context} {active : List Frame} {state after : State σ} {outcome : Except Interrupt Bool}
    {record : List (Moment σ)}
    (ran : (rule.matcher Interpretation.none grammar budget : Evaluation .bySnapshot σ Bool).run context active []
      state = some (outcome, after, record)) (safe : NeverUndercut record) :
    (rule.matcher Interpretation.none grammar budget : Engine σ Bool).run context state =
        some (outcome, after) ∧
      (rule.matcher Interpretation.none grammar budget : Evaluation .byDepth σ Bool).run context active []
        state = some (outcome, after, record) ∧
      Throughout Restored record := by
  have start : Evaluation.Standing .bySnapshot [] (fun _ _ => False) [] state :=
    ⟨settled_nil _, fun _ _ => False.elim, fun _ => throughout_nil⟩
  obtain ⟨outcome', ran', outcomes, _, _, restored⟩ :=
    Evaluation.follows_matcher grammar budget rule context start ran fun _ => safe
  cases outcomes.eq
  refine ⟨?_, ran', restored rfl⟩
  rw [Evaluation.run_eq_forget Simulation.hosts_none grammar budget rule context active [] state, ran']
  rfl

/-- A rule for an operand and further operands behind operators, each of which applies its function to the
value so far, which was pushed before the operator was met, and the next operand. -/
def operations (operand : Rule Empty) (operators : List (Char × Action)) : Rule Empty :=
  .sequence [operand, .zeroOrMore (.firstOf (operators.map fun (sign, function) =>
    .sequence [.char sign, operand, .action 2 function.apply]))]

/-- Arithmetic expressions, computed while they are matched. -/
def calculator : Grammar Empty :=
  { definitions := [
      ("expression", .named (some "expression") (operations (.reference "term") [('+', .add), ('-', .sub)])),
      ("term", .named (some "term") (operations (.reference "factor") [('*', .mul), ('/', .div)])),
      ("factor", .named (some "factor") (.firstOf [.reference "number",
        .sequence [.char '(', .reference "expression", .char ')']])),
      ("number", .named (some "number")
        (.sequence [.capture (.oneOrMore (.range "0" "9")), .action 1 Action.int.apply]))] }

/-- The functions of the calculator consume operands from below their operators, and yet it is safe. -/
theorem run_calculator_eq : ∃ after record,
    (Rule.matcher Interpretation.none calculator 40 (.reference "expression") :
        Evaluation .bySnapshot Unit Bool).run ⟨.ofString "2*(1+3)", 20, 10⟩ [] [] { memory := () } =
      some (.ok true, after, record) ∧ NeverUndercut record ∧
    (Rule.matcher Interpretation.none calculator 40 (.reference "expression") : Engine Unit Bool).run
      ⟨.ofString "2*(1+3)", 20, 10⟩ { memory := () } = some (.ok true, after) ∧
    after.offset = 7 ∧ after.values.toList.map Value.count? = [some 8] := by
  have checked : ((Rule.matcher Interpretation.none calculator 40 (.reference "expression") :
      Evaluation .bySnapshot Unit Bool).run ⟨.ofString "2*(1+3)", 20, 10⟩ [] [] { memory := () }).any
      (fun ending => ending.1.toOption = some true ∧ NeverUndercut ending.2.2 ∧ ending.2.1.offset = 7 ∧
        ending.2.1.values.toList.map Value.count? = [some 8]) = true := by
    decide +kernel
  obtain ⟨⟨outcome, after, record⟩, ran, holds⟩ := Option.any_eq_true _ _ |>.mp checked
  obtain ⟨matched, safe, offset, values⟩ := of_decide_eq_true holds
  cases outcome with
  | error interrupt => cases matched
  | ok answer =>
    cases matched
    exact ⟨after, record, ran, safe, (run_eq_of_neverUndercut ran safe).1, offset, values⟩

end PegMatcher
