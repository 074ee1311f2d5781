import PegMatcher.Proofs.Budget
import PegMatcher.Proofs.Diagnosis
import PegMatcher.Proofs.Passes
import PegMatcher.Proofs.Tandem

/-! # The plain pass decides a run

For a rule of combinators, the recorded plain pass already tells everything that a run reports: `verdict`
reads it off, and `run_eq_verdict` says that the diagnostic passes come to that verdict and leave the
furthest offset where the plain pass has put it. A report does not depend on the evaluation budget either,
once the budget is large enough for one.
-/

namespace PegMatcher

variable {σ τ : Type}

/-- A rule shadows itself under a larger budget, whatever is in the memory. -/
theorem shadows_of_budget_le (grammar : Grammar Empty) (rule : Rule Empty) {budget budget' : Nat}
    (le : budget ≤ budget') (context : Context) :
    Shadows context (rule.matcher Interpretation.none grammar budget : Engine σ Bool)
      (rule.matcher Interpretation.none grammar budget' : Engine τ Bool) := by
  have uniform : Tandem.Uniform (rule.matcher Interpretation.none grammar budget' : Engine σ Bool)
      (rule.matcher Interpretation.none grammar budget' : Engine τ Bool) :=
    Tandem.agree_iff_uniform.mp (Simulation.matcher Simulation.hosts_none grammar (.inl rfl) rule)
  intro state state' outcome after alike ran
  exact (uniform.shadows context).1 alike (run_budget_le le ran)

/-- A run with a larger budget gives the report of a run with a smaller one. -/
theorem run_of_budget_le {session next : Session σ} (idle : session.running = false) {grammar : Grammar Empty}
    {rule : Rule Empty} {budget budget' : Nat} (le : budget ≤ budget') {shape : Shape} {report : Report}
    (ran : session.run (rule.matcher Interpretation.none grammar budget : Engine σ Bool) shape =
      some (report, next)) :
    ∃ next', session.run (rule.matcher Interpretation.none grammar budget' : Engine σ Bool) shape =
      some (report, next') ∧ next'.state.tracker = next.state.tracker := by
  obtain ⟨next', ran', _, same⟩ :=
    Session.run_of_shadows (shadows_of_budget_le grammar rule le session.context) rfl idle idle ran
  exact ⟨next', ran', congrArg (@State.tracker Unit) same⟩

namespace Diagnosis

/-- If the diagnostic passes find some stacks, the pass behind the plain one with a number is aborted with the
stack at that number or fails, and all of them leave the furthest offset as it is. -/
theorem nthPass_of_finds {session : Session σ} {rule : Matcher σ} {deepest : Nat} {found : List RuleStack}
    (finds : Finds session.context rule deepest found) {outcome : Except Interrupt Bool} {failed : State σ}
    (plain : session.nthPass rule 0 = some (outcome, failed)) (frozen : failed.tracker.deepest = deepest)
    (index : Nat) :
    ∃ after : State σ, after.tracker.deepest = deepest ∧
      session.nthPass rule (index + 1) =
        match found[index]? with
        | some stack => some (.error (.abort stack.frames), after)
        | none => some (.ok false, after) := by
  induction index with
  | zero =>
    obtain ⟨after, frozen', ran⟩ := finds 0 failed frozen
    exact ⟨after, frozen', by rw [Session.nthPass_succ plain]; exact ran⟩
  | succ index ih =>
    obtain ⟨before, frozen', ran⟩ := ih
    have reached : ∃ outcome, session.nthPass rule (index + 1) = some (outcome, before) := by
      rw [ran]
      split <;> exact ⟨_, rfl⟩
    obtain ⟨outcome', reached⟩ := reached
    obtain ⟨after, frozen'', ran'⟩ := finds (index + 1) before frozen'
    exact ⟨after, frozen'', by rw [Session.nthPass_succ reached]; exact ran'⟩

/-- The plain pass of a run can be recorded. -/
theorem nthPass_zero (session : Session σ) (grammar : Grammar Empty) (rule : Rule Empty) (budget : Nat) :
    session.nthPass (rule.matcher Interpretation.none grammar budget : Engine σ Bool) 0 =
      ((rule.matcher Interpretation.none grammar budget : Evaluation .byDepth σ Bool).run session.context [] []
        { memory := session.state.memory }).map fun (outcome, after, _) => (outcome, after) :=
  Evaluation.run_eq_forget Simulation.hosts_none grammar budget rule session.context [] [] _

/-- A run that has ended began with a plain pass that has ended. -/
theorem recorded_of_run {session next : Session σ} (idle : session.running = false) {grammar : Grammar Empty}
    {rule : Rule Empty} {budget : Nat} {shape : Shape} {report : Report}
    (ran : session.run (rule.matcher Interpretation.none grammar budget : Engine σ Bool) shape =
      some (report, next)) :
    ∃ outcome after record,
      (rule.matcher Interpretation.none grammar budget : Evaluation .byDepth σ Bool).run session.context [] []
        { memory := session.state.memory } = some (outcome, after, record) := by
  obtain ⟨last, concludes, _⟩ := Session.concludes_of_run idle ran
  obtain ⟨ending, plain⟩ :
      ∃ ending, session.nthPass (rule.matcher Interpretation.none grammar budget : Engine σ Bool) 0 =
        some ending := by
    cases concludes with
    | matched plain | faulted plain | escaped plain | explained plain _ => exact ⟨_, plain⟩
  rw [nthPass_zero] at plain
  obtain ⟨⟨outcome, after, record⟩, recorded, _⟩ := Option.map_eq_some_iff.mp plain
  exact ⟨outcome, after, record, recorded⟩

/-- What a run reports, and after how many passes, if the plain pass ends in some way and with some rule
stacks at the furthest offset. -/
def verdict (context : Context) (shape : Shape) (outcome : Except Interrupt Bool) (after : State σ)
    (found : List RuleStack) : Except Fault RunResult × Nat :=
  let room := context.maxErrorStacks.toNat
  let deepest := after.tracker.deepest
  match outcome with
  | .ok true => ((after.values.finalize shape).map .success, 1)
  | .ok false =>
    if found.length ≤ room then
      (.ok (.failure ⟨Position.resolve context.source deepest, found⟩), found.length + 2)
    else (.error (.stackLimit context.maxErrorStacks deepest), room + 2)
  | .error (.fault fault) => (.error fault, 1)
  | .error (.abort _) => (.error .abortEscaped, 1)

/-- The recorded plain pass of a rule decides what a run reports, and where its furthest offset is. -/
theorem run_eq_verdict {session : Session σ} (idle : session.running = false) {grammar : Grammar Empty}
    {rule : Rule Empty} {budget : Nat} {outcome : Except Interrupt Bool} {after : State σ}
    {record : List (Moment σ)}
    (recorded : (rule.matcher Interpretation.none grammar budget : Evaluation .byDepth σ Bool).run
      session.context [] [] { memory := session.state.memory } = some (outcome, after, record))
    (shape : Shape) :
    ∃ report next,
      session.run (rule.matcher Interpretation.none grammar budget : Engine σ Bool) shape =
        some (report, next) ∧
      (report.ending, report.passes) =
        verdict session.context shape outcome after (stacksAt record after.tracker.deepest) ∧
      next.state.tracker.deepest = after.tracker.deepest := by
  have passed : (Session.pass (rule.matcher Interpretation.none grammar budget : Engine σ Bool) none).run
      session.context session.state.startRun = some (outcome, after) := by
    have plain := nthPass_zero session grammar rule budget
    rwa [recorded] at plain
  simp only [Session.run, idle, Session.attempt, passed]
  rcases outcome with (fault | path) | (_ | _)
  · exact ⟨_, _, rfl, rfl, rfl⟩
  · exact ⟨_, _, rfl, rfl, rfl⟩
  · have finds := finds_stacksAt recorded after.tracker.deepest
    obtain ⟨explanation, explained, enough, short⟩ := explain_of_finds finds
      session.context.maxErrorStacks.toNat (Nat.zero_le _) (rfl : after.tracker.deepest = after.tracker.deepest)
    rw [List.take_zero] at explained
    have reached : session.nthPass _ ([] : List RuleStack).length = some (.ok false, after) := passed
    obtain ⟨paths, ended, explains⟩ := Session.explains_of_explain reached explained
    have unmoved : explanation.state.tracker.deepest = after.tracker.deepest := by
      have last := explains.last
      obtain ⟨final, frozen, ran⟩ := nthPass_of_finds finds passed rfl paths.length
      rw [List.length_nil, Nat.zero_add, ran] at last
      split at last <;> cases last <;> exact frozen
    simp only [explained, verdict]
    by_cases fits : (stacksAt record after.tracker.deepest).length ≤ session.context.maxErrorStacks.toNat
    · obtain ⟨ending, passes⟩ := enough (by omega)
      rw [if_pos fits]
      refine ⟨_, _, rfl, ?_, unmoved⟩
      rw [ending, passes]
      rfl
    · obtain ⟨ending, passes⟩ := short (by omega)
      rw [if_neg fits]
      refine ⟨_, _, rfl, ?_, unmoved⟩
      rw [ending, passes]
      rfl
  · exact ⟨_, _, rfl, rfl, rfl⟩

/-- A parse error tells the furthest offset of a recorded plain pass that failed, and the rule stacks at it, of
which there are no more than allowed. -/
theorem recorded_of_failure {session next : Session σ} {grammar : Grammar Empty} {rule : Rule Empty}
    {budget : Nat} {shape : Shape} {report : Report} {error : ParseError}
    (ran : session.run (rule.matcher Interpretation.none grammar budget : Engine σ Bool) shape =
      some (report, next)) (failed : report.ending = .ok (.failure error)) :
    session.running = false ∧ ∃ after record,
      (rule.matcher Interpretation.none grammar budget : Evaluation .byDepth σ Bool).run session.context [] []
        { memory := session.state.memory } = some (.ok false, after, record) ∧
      error = ⟨Position.resolve session.context.source after.tracker.deepest,
        stacksAt record after.tracker.deepest⟩ ∧
      (stacksAt record after.tracker.deepest).length ≤ session.context.maxErrorStacks.toNat := by
  have idle := Session.idle_of_failure ran failed
  obtain ⟨outcome, after, record, recorded⟩ := recorded_of_run idle ran
  obtain ⟨report', next', ran', decided, _⟩ := run_eq_verdict idle recorded shape
  cases ran.symm.trans ran'
  have ending : report.ending = _ := congrArg Prod.fst decided
  rw [failed] at ending
  simp only [verdict] at ending
  split at ending
  · cases finalized : after.values.finalize shape <;> rw [finalized] at ending <;> cases ending
  · split at ending <;> cases ending
    exact ⟨idle, after, record, recorded, rfl, ‹_›⟩
  · cases ending
  · cases ending

end Diagnosis

end PegMatcher
