import PegMatcher.Proofs.Lines
import PegMatcher.Proofs.Progress
import PegMatcher.Proofs.Verdict

/-! # What a run has looked at

The furthest offset of a run bounds everything that the run has looked at: a character is looked at, or the
end of the text is tested for, only where the cursor then advances or a mismatch is reported, or where one
of both has happened before. So a text may be exchanged for any other one that agrees with it up to and
including the character at the furthest offset.

`mirroring` is about two evaluations on texts that agree up to a bound: as long as the furthest offset stays
within the bound, the second one takes the steps of the first one. The bound is asked of every moment, and
not of the end only, because then it passes to both parts of a composed evaluation. That the end bounds
every moment is what `rises_matcher` says.
-/

namespace PegMatcher

/-- Both texts have the same characters up to and including an offset, or end at the same place before it. -/
def Source.AgreeTo (first second : Source) (bound : Nat) : Prop :=
  second.toList.take (bound + 1) = first.toList.take (bound + 1)

namespace Source.AgreeTo

variable {first second : Source} {bound : Nat} (agree : first.AgreeTo second bound)

include agree

theorem getElem?_eq {index : Nat} (inside : index ≤ bound) :
    second.toList[index]? = first.toList[index]? := by
  rw [← List.getElem?_take_of_lt (Nat.lt_succ_of_le inside), agree,
    List.getElem?_take_of_lt (Nat.lt_succ_of_le inside)]

theorem take_eq {count : Nat} (inside : count ≤ bound) :
    second.toList.take count = first.toList.take count := by
  have shorter : min count (bound + 1) = count := by omega
  rw [← shorter, ← List.take_take, agree, List.take_take]

theorem length_le_iff {offset : Int} (start : 0 ≤ offset) (inside : offset ≤ bound) :
    (second.length : Int) ≤ offset ↔ (first.length : Int) ≤ offset := by
  have same : second.toList[offset.toNat]? = first.toList[offset.toNat]? := agree.getElem?_eq (by omega)
  have ends : second.toList.length ≤ offset.toNat ↔ first.toList.length ≤ offset.toNat := by
    rw [← List.getElem?_eq_none_iff, same, List.getElem?_eq_none_iff]
  rw [length_toList, length_toList] at ends
  omega

theorem charAt_eq {offset : Int} (start : 0 ≤ offset) (inside : offset ≤ bound) :
    second.charAt offset = first.charAt offset := by
  have same : second.toList[offset.toNat]? = first.toList[offset.toNat]? := agree.getElem?_eq (by omega)
  rw [charAt, charAt, char?_of_nonneg second start, char?_of_nonneg first start, same]

theorem slice_eq {start stop : Int} (begun : 0 ≤ start) (ended : 0 ≤ stop) (inside : stop ≤ bound) :
    second.slice start stop = first.slice start stop := by
  rw [slice_of_nonneg second begun ended, slice_of_nonneg first begun ended, agree.take_eq (by omega)]

theorem resolve_eq : Position.resolve second bound = Position.resolve first bound := by
  rw [Lines.resolve_eq_walk, Lines.resolve_eq_walk, Position.walk, agree.take_eq (Nat.le_refl bound), Position.walk]

end Source.AgreeTo

variable {σ : Type}

namespace Locality

open Progress

/-- Contexts with the same limit on the nesting and with texts that agree up to an offset. -/
structure Alike (bound : Nat) (first second : Context) : Prop where
  maxDepth : second.maxDepth = first.maxDepth
  agree : first.source.AgreeTo second.source bound

def Inside (bound : Nat) (offset : Int) : Prop :=
  0 ≤ offset ∧ offset ≤ bound

/-- The same state of a plain pass on either text, with the cursor in the part in which they agree. -/
structure Parallel (bound : Nat) (state state' : State σ) : Prop where
  plain : state.tracker.collecting = none
  inside : Inside bound state.offset
  offset : state'.offset = state.offset
  values : state'.values = state.values
  tracker : state'.tracker = state.tracker
  depth : state'.depth = state.depth

/-- An operation that does the same on either text, unless it goes beyond the part in which they agree. -/
def Local {α : Type} (bound : Nat) (operation : Engine σ α) : Prop :=
  ∀ ⦃first second : Context⦄ ⦃state state' after : State σ⦄ ⦃outcome⦄, Alike bound first second →
    Parallel bound state state' → operation.run first state = some (outcome, after) →
    after.tracker.deepest ≤ bound →
    ∃ after', operation.run second state' = some (outcome, after') ∧ Parallel bound after after'

section Operations

variable {bound : Nat}

private theorem local_observe {α : Type} {view : Context → State σ → α}
    (same : ∀ {first second : Context} {state state' : State σ}, Alike bound first second →
      Parallel bound state state' → view second state' = view first state) :
    Local bound (Engine.observe view) := by
  intro first second state state' after outcome alike parallel ran _
  cases ran
  refine ⟨state', ?_, parallel⟩
  simp only [Engine.observe, same alike parallel]

/-- Both texts end at the cursor, or neither does. -/
theorem Parallel.lt_length_iff {first second : Context} {state state' : State σ}
    (alike : Alike bound first second) (parallel : Parallel bound state state') :
    state'.offset < second.source.length ↔ state.offset < first.source.length := by
  have ends := alike.agree.length_le_iff parallel.inside.1 parallel.inside.2
  rw [parallel.offset]
  omega

theorem Parallel.charAt_eq {first second : Context} {state state' : State σ} (alike : Alike bound first second)
    (parallel : Parallel bound state state') :
    second.source.charAt state'.offset = first.source.charAt state.offset := by
  rw [parallel.offset]
  exact alike.agree.charAt_eq parallel.inside.1 parallel.inside.2

private theorem local_atEnd : Local bound (Engine.atEnd : Engine σ Bool) := by
  refine local_observe fun alike parallel => ?_
  have inText := parallel.lt_length_iff alike
  exact decide_eq_decide.mpr (by omega)

private theorem local_sliceFrom {start : Int} (inside : Inside bound start) :
    Local bound (Engine.sliceFrom start : Engine σ String) := by
  refine local_observe fun alike parallel => ?_
  rw [parallel.offset]
  exact alike.agree.slice_eq inside.1 parallel.inside.1 parallel.inside.2

private theorem local_peek : Local bound (Engine.peek : Engine σ Char) := by
  intro first second state state' after outcome alike parallel ran _
  simp only [Engine.peek, parallel.lt_length_iff alike, parallel.charAt_eq alike] at ran ⊢
  split at ran
  · rename_i inText
    rw [if_pos inText]
    split at ran <;> cases ran <;> exact ⟨state', rfl, parallel⟩
  · rename_i atEnd
    rw [if_neg atEnd]
    cases ran
    exact ⟨state', rfl, parallel⟩

/-- An advance moves the cursor no further than to the furthest offset that it reports. -/
theorem local_advance : Local bound (Engine.advance : Engine σ Char) := by
  intro first second state state' after outcome alike parallel ran reached
  simp only [Engine.advance, parallel.lt_length_iff alike, parallel.charAt_eq alike] at ran ⊢
  split at ran
  · rename_i inText
    rw [if_pos inText]
    split at ran <;> cases ran
    · refine ⟨_, rfl, ?_⟩
      have start := parallel.inside.1
      have far : state.offset + 1 ≤ bound := by
        simp only [Tracker.observe, parallel.plain] at reached
        omega
      refine ⟨(le_observe parallel.plain _).1, ⟨by dsimp only; omega, far⟩, ?_, parallel.values, ?_,
        parallel.depth⟩
      · exact congrArg (· + 1) parallel.offset
      · rw [parallel.tracker, parallel.offset]
    · exact ⟨state', rfl, parallel⟩
  · rename_i atEnd
    rw [if_neg atEnd]
    cases ran
    exact ⟨state', rfl, parallel⟩

private theorem local_moveTo {target : Int} (inside : Inside bound target) :
    Local bound (Engine.moveTo target : Engine σ Unit) := by
  intro first second state state' after outcome alike parallel ran _
  cases ran
  exact ⟨_, rfl, { parallel with inside := inside, offset := rfl }⟩

private theorem local_reset {target : Mark} (inside : Inside bound target.offset) :
    Local bound (Machine.reset target : Engine σ Unit) := by
  intro first second state state' after outcome alike parallel ran _
  rw [Engine.run_reset] at ran ⊢
  rw [parallel.values]
  split at ran
  · rename_i short
    rw [if_pos short]
    cases ran
    exact ⟨_, rfl, { parallel with inside := inside, offset := rfl, values := rfl }⟩
  · rename_i reaches
    rw [if_neg reaches]
    cases ran
    exact ⟨_, rfl, { parallel with inside := inside, offset := rfl, values := rfl }⟩

private theorem local_mismatch : Local bound (Engine.mismatch : Engine σ Unit) := by
  intro first second state state' after outcome alike parallel ran _
  have plain' : state'.tracker.collecting = none := parallel.tracker ▸ parallel.plain
  rw [run_mismatch_of_plain parallel.plain] at ran
  rw [run_mismatch_of_plain plain']
  cases ran
  refine ⟨_, rfl, { parallel with plain := (le_observe parallel.plain _).1, tracker := ?_ }⟩
  rw [parallel.tracker, parallel.offset]

private theorem local_push (value : Value) : Local bound (Engine.push value : Engine σ Unit) := by
  intro first second state state' after outcome alike parallel ran _
  cases ran
  exact ⟨_, rfl, { parallel with values := congrArg (·.push value) parallel.values }⟩

private theorem local_popMany (count : Int) : Local bound (Engine.popMany count : Engine σ (List Value)) := by
  intro first second state state' after outcome alike parallel ran _
  simp only [Engine.popMany, parallel.values] at ran ⊢
  split at ran <;> cases ran
  · exact ⟨_, rfl, { parallel with values := rfl }⟩
  · exact ⟨state', rfl, parallel⟩

private theorem local_enter : Local bound (Engine.enter : Engine σ Unit) := by
  intro first second state state' after outcome alike parallel ran _
  simp only [Engine.enter, parallel.depth, alike.maxDepth] at ran ⊢
  split at ran
  · rename_i full
    rw [if_pos full]
    cases ran
    exact ⟨state', rfl, parallel⟩
  · rename_i room
    rw [if_neg room]
    cases ran
    exact ⟨_, rfl, { parallel with depth := rfl }⟩

end Operations

/-- What two evaluations on texts that agree up to a bound have in common: if the first one ends and has not
gone beyond the bound, the second one ends in the same way and has reported the same mismatches. -/
def Mirrors {α β : Type} (bound : Nat) (R : α → β → Prop)
    (ended : Option (Except Interrupt α × State σ × List (Moment σ)))
    (ended' : Option (Except Interrupt β × State σ × List (Moment σ))) : Prop :=
  ∀ ⦃outcome after record⦄, ended = some (outcome, after, record) →
    (∀ moment ∈ record, moment.state.tracker.deepest ≤ bound) →
    ∃ outcome' after' record', ended' = some (outcome', after', record') ∧ Outcomes R outcome outcome' ∧
      Parallel bound after after' ∧ mismatches record' = mismatches record

section Mirroring

variable {bound : Nat} {first second : Context} {active : List Frame} {past past' : List (Moment σ)}
  {state state' : State σ}

/-- A step reports a mismatch on either text or on none, and at the same offset. -/
theorem mismatches_step {after after' : State σ} (parallel : Parallel bound after after') (step : Step) :
    mismatches [⟨step, active, after'⟩] = mismatches [⟨step, active, after⟩] := by
  cases step with
  | mismatch => simp only [mismatches, List.filterMap_cons, Moment.mismatch?, parallel.offset]
  | reset | other => rfl

private theorem mirrors_perform {α : Type} {R : α → α → Prop} (step : Step) {operation : Engine σ α}
    (isLocal : Local bound operation) (alike : Alike bound first second)
    (parallel : Parallel bound state state')
    (related : ∀ result after, operation.run first state = some (.ok result, after) → R result result) :
    Mirrors bound R
      ((Evaluation.perform step operation : Evaluation .byDepth σ α).run first active past state)
      ((Evaluation.perform step operation : Evaluation .byDepth σ α).run second active past' state') := by
  intro outcome after record ran reached
  obtain ⟨performed, rfl⟩ := Evaluation.run_perform_eq_some.mp ran
  obtain ⟨after', performed', parallel'⟩ :=
    isLocal alike parallel performed (reached _ (List.mem_singleton.mpr rfl))
  refine ⟨outcome, after', _, Evaluation.run_perform_eq_some.mpr ⟨performed', rfl⟩, ?_, parallel',
    mismatches_step parallel' step⟩
  cases outcome with
  | ok result => exact .ok (related result after performed)
  | error interrupt => exact .error interrupt

private theorem mirrors_bind {α β γ δ : Type} {R : α → β → Prop} {T : γ → δ → Prop} {x : Evaluation .byDepth σ α}
    {y : Evaluation .byDepth σ β} {f : α → Evaluation .byDepth σ γ} {g : β → Evaluation .byDepth σ δ}
    (head : Mirrors bound R (x.run first active past state) (y.run second active past' state'))
    (tail : ∀ a b, R a b → ∀ later later' middle middle', Parallel bound middle middle' →
      Mirrors bound T ((f a).run first active later middle) ((g b).run second active later' middle')) :
    Mirrors bound T ((x >>= f).run first active past state) ((y >>= g).run second active past' state') := by
  intro outcome after record ran reached
  obtain ⟨interrupt, rfl, began⟩ | ⟨result, middle, early, late, began, rest, rfl⟩ :=
    Evaluation.run_bind_eq_some.mp ran
  · obtain ⟨outcome', after', record', began', outcomes, parallel, same⟩ := head began reached
    cases outcomes
    exact ⟨_, after', record', Evaluation.run_bind_eq_some.mpr (.inl ⟨interrupt, rfl, began'⟩),
      .error interrupt, parallel, same⟩
  · obtain ⟨reachedEarly, reachedLate⟩ := List.forall_mem_append.mp reached
    obtain ⟨outcome', middle', early', began', outcomes, parallel, same⟩ := head began reachedEarly
    cases outcomes with
    | @ok _ b related =>
      obtain ⟨ended', after', late', rest', outcomes', parallel', same'⟩ :=
        tail result b related (past ++ early) (past' ++ early') middle middle' parallel rest reachedLate
      refine ⟨ended', after', early' ++ late', ?_, outcomes', parallel', ?_⟩
      · exact Evaluation.run_bind_eq_some.mpr (.inr ⟨_, _, _, _, began', rest', rfl⟩)
      · rw [mismatches_append, mismatches_append, same, same']

end Mirroring

/-- A checkpoint on either text for the same place, which lies in the part in which they agree. -/
def SamePlace (bound : Nat) (place place' : Checkpoint) : Prop :=
  place'.toMark = place.toMark ∧ Inside bound place.offset

/-- Mirroring is a simulation: the second evaluation is the first one on another text. -/
def mirroring (σ : Type) {bound : Nat} {first second : Context} (alike : Alike bound first second) :
    ModularSimulation (Evaluation .byDepth σ) (Evaluation .byDepth σ) where
  Rel live R x y := (∀ p q, live p q → SamePlace bound p q) →
    ∀ active past past' state state', Parallel bound state state' →
      Mirrors bound R (x.run first active past state) (y.run second active past' state')
  Offsets a b := a = b ∧ Inside bound a
  offsets_eq_iff one two := Simulation.eq_offsets one.1 two.1
  pure related := by
    intro _ active past past' state state' parallel outcome after record ran _
    cases ran
    exact ⟨_, state', [], rfl, .ok related, parallel, rfl⟩
  bind head tail := fun places active past past' state state' parallel =>
    mirrors_bind (head places active past past' state state' parallel)
      fun a b related later later' middle middle' =>
        tail a b related places active later later' middle middle'
  mark_bind tail := by
    intro places active past past' state state' parallel
    have marked : Mirrors bound (SamePlace bound)
        ((Evaluation.mark : Evaluation .byDepth σ Checkpoint).run first active past state)
        ((Evaluation.mark : Evaluation .byDepth σ Checkpoint).run second active past' state') := by
      intro outcome after record ran _
      cases ran
      refine ⟨_, state', _, rfl, .ok ⟨?_, parallel.inside⟩, parallel, rfl⟩
      simp only [Checkpoint.toMark, parallel.offset, parallel.values]
    refine mirrors_bind marked ?_
    intro p q here later later' middle middle'
    refine tail p q ?_ active later later' middle middle'
    rintro p' q' (old | ⟨rfl, rfl⟩)
    · exact places p' q' old
    · exact here
  reset known := by
    intro places active past past' state state' parallel outcome after record ran reached
    obtain ⟨mark, inside⟩ := places _ _ known
    obtain ⟨performed, rfl⟩ := Evaluation.run_perform_eq_some.mp ran
    obtain ⟨after', performed', parallel'⟩ :=
      local_reset inside alike parallel performed (reached _ (List.mem_singleton.mpr rfl))
    refine ⟨outcome, after', _, Evaluation.run_perform_eq_some.mpr ⟨?_, rfl⟩, ?_, parallel', rfl⟩
    · rw [Evaluation.resume, mark]
      exact performed'
    · cases outcome with
      | ok result => exact .ok trivial
      | error interrupt => exact .error interrupt
  atEnd := fun _ _ _ _ _ _ parallel => mirrors_perform .other local_atEnd alike parallel fun _ _ _ => rfl
  peek := fun _ _ _ _ _ _ parallel => mirrors_perform .other local_peek alike parallel fun _ _ _ => rfl
  advance := fun _ _ _ _ _ _ parallel =>
    mirrors_perform .other local_advance alike parallel fun _ _ _ => trivial
  offset := by
    intro live places active past past' state state' parallel
    refine mirrors_perform .other (local_observe fun _ parallel => parallel.offset) alike parallel ?_
    rintro _ _ ⟨⟩
    exact ⟨rfl, parallel.inside⟩
  moveTo := by
    rintro _ a _ ⟨rfl, inside⟩ _ active past past' state state' parallel
    exact mirrors_perform .other (local_moveTo inside) alike parallel fun _ _ _ => trivial
  sliceFrom := by
    rintro _ a _ ⟨rfl, inside⟩ _ active past past' state state' parallel
    exact mirrors_perform .other (local_sliceFrom inside) alike parallel fun _ _ _ => rfl
  mismatch := fun _ _ _ _ _ _ parallel =>
    mirrors_perform .mismatch local_mismatch alike parallel fun _ _ _ => trivial
  push value := fun _ _ _ _ _ _ parallel =>
    mirrors_perform .other (local_push value) alike parallel fun _ _ _ => trivial
  popMany count := fun _ _ _ _ _ _ parallel =>
    mirrors_perform .other (local_popMany count) alike parallel fun _ _ _ => rfl
  fail fault _ := by
    intro _ active past past' state state' parallel outcome after record ran _
    obtain ⟨performed, rfl⟩ := Evaluation.run_perform_eq_some.mp ran
    cases performed
    exact ⟨_, state', _, rfl, .error _, parallel, rfl⟩
  anyFrame frame inner := by
    intro places active past past' state state' parallel outcome after record ran reached
    obtain ⟨original, ran', rfl⟩ := Evaluation.run_framed_eq_some.mp ran
    obtain ⟨outcome', after', record', mirrored, outcomes, parallel', same⟩ :=
      inner places (active ++ [frame]) past past' state state' parallel ran' reached
    refine ⟨_, after', record', Evaluation.run_framed_eq_some.mpr ⟨outcome', mirrored, rfl⟩, ?_, parallel',
      same⟩
    cases outcomes with
    | ok related => exact .ok related
    | error interrupt => exact .error _
  nested inner := by
    intro places active past past' state state' parallel
    refine mirrors_bind (R := Eq) (mirrors_perform .other local_enter alike parallel fun _ _ _ => rfl) ?_
    intro _ _ _ later later' middle middle' entered outcome after record ran reached
    obtain ⟨ended, moments, body, rfl, rfl⟩ := Evaluation.run_always_eq_some.mp ran
    obtain ⟨outcome', ended', moments', body', outcomes, parallel', same⟩ :=
      inner places active later later' middle middle' entered body (List.forall_mem_append.mp reached).1
    refine ⟨outcome', _, _, Evaluation.run_always_eq_some.mpr ⟨ended', moments', body', rfl, rfl⟩, outcomes,
      { parallel' with depth := congrArg (· - 1) parallel'.depth }, ?_⟩
    rw [mismatches_append, mismatches_append, same]
    rfl
  exhausted := by
    intro _ _ _ _ _ active past past' state state' _ outcome after record ran
    cases ran

private theorem mirroring_lax {bound : Nat} {first second : Context} (alike : Alike bound first second) :
    (mirroring σ alike).Lax := by
  intro _ _ _ _ _ _ active past past' state state' _ outcome after record ran
  cases ran

open Diagnosis

section Runs

variable {first second : Context} {grammar : Grammar Empty} {rule : Rule Empty} {budget budget' : Nat}
  {memory memory' : σ} {outcome : Except Interrupt Bool} {after : State σ} {record : List (Moment σ)}

/-- A plain pass has a counterpart on every text that agrees with its own up to the furthest offset. -/
theorem mirrored_of_recorded (alike : Alike after.tracker.deepest first second) (le : budget ≤ budget')
    (recorded : (rule.matcher Interpretation.none grammar budget : Evaluation .byDepth σ Bool).run first [] []
      { memory := memory } = some (outcome, after, record)) :
    ∃ after' record',
      (rule.matcher Interpretation.none grammar budget' : Evaluation .byDepth σ Bool).run second [] []
        { memory := memory' } = some (outcome, after', record') ∧
      Parallel after.tracker.deepest after after' ∧ mismatches record' = mismatches record := by
  have rises := rises_matcher rfl recorded
  have start : Parallel after.tracker.deepest ({ memory := memory } : State σ) { memory := memory' } :=
    ⟨rfl, ⟨Int.le_refl 0, Int.natCast_nonneg _⟩, rfl, rfl, rfl, rfl⟩
  have agree := Simulation.matcher Simulation.hosts_none grammar
    (.inr ⟨mirroring_lax alike, le⟩ : (mirroring σ alike).Fits budget budget') rule
  obtain ⟨outcome', after', record', mirrored, outcomes, parallel, same⟩ :=
    agree (fun _ _ => False) (fun _ _ => False.elim) [] [] [] _ _ start recorded rises.moments
  rw [← outcomes.eq] at mirrored
  exact ⟨after', record', mirrored, parallel, same⟩

/-- Counterparts come to the same verdict. -/
theorem verdict_eq {after' : State σ} {record' : List (Moment σ)}
    (alike : Alike after.tracker.deepest first second) (limit : second.maxErrorStacks = first.maxErrorStacks)
    (parallel : Parallel after.tracker.deepest after after') (same : mismatches record' = mismatches record)
    (shape : Shape) :
    verdict second shape outcome after' (stacksAt record' after'.tracker.deepest) =
      verdict first shape outcome after (stacksAt record after.tracker.deepest) := by
  have found : stacksAt record' after.tracker.deepest = stacksAt record after.tracker.deepest := by
    rw [stacksAt, stacksAt, same]
  simp only [verdict, parallel.tracker, parallel.values, found, limit, alike.agree.resolve_eq]

end Runs

end Locality

open Locality Diagnosis

/-- The furthest offset of a run bounds what the run has looked at. On every text that agrees with its own
up to and including the character at that offset, a run with the same limits ends in the same way after as
many passes and with the same furthest offset, if its budget is no smaller or is enough for it to end at
all. -/
theorem run_same_of_agreeTo {first second next : Session σ} (idle : first.running = false)
    (idle' : second.running = false) (depths : second.context.maxDepth = first.context.maxDepth)
    (limits : second.context.maxErrorStacks = first.context.maxErrorStacks) {grammar : Grammar Empty}
    {rule : Rule Empty} {budget : Nat} {shape : Shape} {report : Report}
    (ran : first.run (rule.matcher Interpretation.none grammar budget : Engine σ Bool) shape =
      some (report, next))
    (agree : second.context.source.toList.take (next.state.tracker.deepest + 1) =
      first.context.source.toList.take (next.state.tracker.deepest + 1)) {budget' : Nat}
    (enough : budget ≤ budget' ∨
      second.run (rule.matcher Interpretation.none grammar budget' : Engine σ Bool) shape ≠ none) :
    ∃ report' next',
      second.run (rule.matcher Interpretation.none grammar budget' : Engine σ Bool) shape =
        some (report', next') ∧
      report'.ending = report.ending ∧ report'.passes = report.passes ∧
      next'.state.tracker.deepest = next.state.tracker.deepest := by
  obtain ⟨outcome, after, record, recorded⟩ := recorded_of_run idle ran
  obtain ⟨report₁, next₁, ran₁, decided, deepest⟩ := run_eq_verdict idle recorded shape
  cases ran.symm.trans ran₁
  rw [deepest] at agree ⊢
  have alike : Alike after.tracker.deepest first.context second.context := ⟨depths, agree⟩
  have larger : ∀ more, budget ≤ more → ∃ report' next',
      second.run (rule.matcher Interpretation.none grammar more : Engine σ Bool) shape = some (report', next') ∧
      report'.ending = report.ending ∧ report'.passes = report.passes ∧
      next'.state.tracker.deepest = after.tracker.deepest := by
    intro more le
    obtain ⟨after', record', mirrored, parallel, same⟩ := mirrored_of_recorded alike le recorded
    obtain ⟨report', next', ran', decided', deepest'⟩ := run_eq_verdict idle' mirrored shape
    rw [verdict_eq alike limits parallel same, ← decided] at decided'
    obtain ⟨ending, passes⟩ := Prod.mk.inj decided'
    exact ⟨report', next', ran', ending, passes, by rw [deepest', parallel.tracker]⟩
  obtain le | ended := enough
  · exact larger budget' le
  -- A run that ends with a smaller budget ends in the same way with a larger one.
  · obtain ⟨⟨report', next'⟩, ran'⟩ := Option.ne_none_iff_exists'.mp ended
    obtain ⟨report₂, next₂, ran₂, ending, passes, deepest₂⟩ := larger (max budget budget') (Nat.le_max_left _ _)
    obtain ⟨next₃, ran₃, tracker⟩ := run_of_budget_le idle' (Nat.le_max_right budget budget') ran'
    cases ran₂.symm.trans ran₃
    exact ⟨report', next', ran', ending, passes, by rw [← tracker, deepest₂]⟩

/-- Two letters that no other two follow, and a third one. -/
def lookahead : Rule Empty :=
  .sequence [.literal "ab", .notPredicate (.literal "cd"), .char 'x']

def sessionOn (text : String) : Session Unit :=
  { context := ⟨Source.ofString text, 5, 4⟩, state := { running := false, memory := () } }

/-- The furthest offset is the one at which the lookahead failed, behind the one at which the rule failed,
and what follows it does not matter. -/
theorem run_same_on_longer_text : ∃ report next report' next',
    (sessionOn "abcq").run (lookahead.matcher Interpretation.none {} 3) .all = some (report, next) ∧
    next.state.tracker.deepest = 3 ∧
    (sessionOn "abcqrst").run (lookahead.matcher Interpretation.none {} 3) .all = some (report', next') ∧
    report'.ending = report.ending ∧ report'.passes = 3 ∧ next'.state.tracker.deepest = 3 := by
  have ran : ∃ report next,
      (sessionOn "abcq").run (lookahead.matcher Interpretation.none {} 3) .all = some (report, next) ∧
        report.passes = 3 ∧ next.state.tracker.deepest = 3 := ⟨_, _, rfl, rfl, rfl⟩
  obtain ⟨report, next, ran, passes, deepest⟩ := ran
  have agree : (sessionOn "abcqrst").context.source.toList.take (next.state.tracker.deepest + 1) =
      (sessionOn "abcq").context.source.toList.take (next.state.tracker.deepest + 1) := by
    rw [deepest]
    rfl
  have idle (text : String) : (sessionOn text).running = false := rfl
  obtain ⟨report', next', ran', ending, passes', deepest'⟩ :=
    run_same_of_agreeTo (idle "abcq") (idle "abcqrst") rfl rfl ran agree (.inl (Nat.le_refl 3))
  exact ⟨report, next, report', next', ran, deepest, ran', ending, passes'.trans passes, deepest'.trans deepest⟩

end PegMatcher
