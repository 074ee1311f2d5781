import PegMatcher.Session

/-! # The passes of a run

A run invokes its rule once in the plain pass and, if that fails, once in every diagnostic pass. Nothing is
assumed of the rule here: it may answer differently from pass to pass, raise faults or the abort signal of its
own accord, and leave any state behind.

`Session.nthPass` is the sequence of the passes, each of which starts from what the one before it has left.
`explains_of_explain` says which of them a run makes and what it concludes from the last one. The number of passes in
a report is that of the invocations of the rule: a rule that counts them itself comes to the same number.
-/

namespace PegMatcher

/-- The frames that were saved on a signal, the first one first. -/
def Interrupt.saved : Interrupt → List Frame
  | fault _ => []
  | abort path => path.reverse

/-- A rule that a signal passes through saves its frame behind the others. -/
theorem Interrupt.saved_within (frame : Frame) (path : List Frame) :
    ((abort path).within frame).saved = (abort path).saved ++ [frame] := by
  simp only [within, saved, List.reverse_cons]

namespace Session

variable {σ : Type}

/-- How the pass with a number ends and what it leaves, when one pass is made after another. Number zero is
the plain pass. -/
def nthPass (session : Session σ) (rule : Matcher σ) : Nat → Option (Except Interrupt Bool × State σ)
  | 0 => (pass rule none).run session.context
      session.state.startRun
  | index + 1 =>
    match session.nthPass rule index with
    | none => none
    | some (_, before) => (pass rule (some index)).run session.context before

theorem nthPass_succ {session : Session σ} {rule : Matcher σ} {index : Nat} {outcome : Except Interrupt Bool}
    {before : State σ} (reached : session.nthPass rule index = some (outcome, before)) :
    session.nthPass rule (index + 1) = (pass rule (some index)).run session.context before := by
  simp only [nthPass, reached]

theorem exists_pass_of_nthPass {session : Session σ} {rule : Matcher σ} {index : Nat}
    {ending : Except Interrupt Bool × State σ} (ran : session.nthPass rule (index + 1) = some ending) :
    ∃ before, (pass rule (some index)).run session.context before = some ending := by
  rw [nthPass] at ran
  split at ran
  · cases ran
  · exact ⟨_, ran⟩

/-- What is concluded when the last diagnostic pass ends: the stacks found so far are all of them, a fault is
passed on, and one more signal is one too many. -/
def conclude (context : Context) (deepest : Nat) (found : List RuleStack) :
    Except Interrupt Bool → Except Fault (List RuleStack)
  | .ok _ => .ok found
  | .error (.fault fault) => .error fault
  | .error (.abort _) => .error (.stackLimit context.maxErrorStacks deepest)

/-- An explanation is made of passes that were aborted, behind those that have found some stacks before, and
of a last pass, which is aborted only if there was no room for another stack. -/
structure Explains (session : Session σ) (rule : Matcher σ) (deepest room : Nat) (found : List RuleStack)
    (explanation : Explanation σ) (paths : List (List Frame)) (outcome : Except Interrupt Bool) : Prop where
  aborted : ∀ index path, paths[index]? = some path → ∃ after,
    session.nthPass rule (found.length + index + 1) = some (.error (.abort path), after)
  last : session.nthPass rule (found.length + paths.length + 1) = some (outcome, explanation.state)
  passes : explanation.passes = paths.length + 1
  fits : paths.length ≤ room
  full : ∀ path, outcome = .error (.abort path) → paths.length = room
  ending : explanation.ending = conclude session.context deepest (found ++ paths.map RuleStack.mk) outcome

section Explanations

variable {session : Session σ} {rule : Matcher σ} {deepest room : Nat} {found : List RuleStack}
  {explanation : Explanation σ}

/-- A search ends with its next pass, or it goes on behind a pass that was aborted. -/
theorem explain_cases {context : Context} {state : State σ}
    (ran : explain context rule deepest room found state = some explanation) :
    (∃ outcome, (pass rule (some found.length)).run context state = some (outcome, explanation.state) ∧
      explanation.passes = 1 ∧ explanation.ending = conclude context deepest found outcome ∧
      ∀ path, outcome = .error (.abort path) → room = 0) ∨
    ∃ path after rest less log,
      (pass rule (some found.length)).run context state = some (.error (.abort path), after) ∧
      room = less + 1 ∧ explain context rule deepest less (found ++ [⟨path⟩]) after = some rest ∧
      explanation = { rest with passes := rest.passes + 1, log := log } := by
  rw [explain.eq_def] at ran
  split at ran
  · cases ran
  · cases ran
    exact .inl ⟨_, ‹_›, rfl, rfl, fun _ aborted => by cases aborted⟩
  · cases ran
    exact .inl ⟨_, ‹_›, rfl, rfl, fun _ aborted => by cases aborted⟩
  · split at ran
    · cases ran
      exact .inl ⟨_, ‹_›, rfl, rfl, fun _ _ => rfl⟩
    · dsimp only at ran
      split at ran
      · cases ran
      · cases ran
        exact .inr ⟨_, _, _, _, _, ‹_›, rfl, ‹_›, rfl⟩

/-- A pass that was aborted, in front of the others. -/
theorem Explains.cons {path : List Frame} {paths : List (List Frame)} {outcome : Except Interrupt Bool}
    {after : State σ} {log : List LogEvent}
    (aborted : session.nthPass rule (found.length + 1) = some (.error (.abort path), after))
    (explains : Explains session rule deepest room (found ++ [⟨path⟩]) explanation paths outcome) :
    Explains session rule deepest (room + 1) found
      { explanation with passes := explanation.passes + 1, log := log } (path :: paths) outcome := by
  have longer : (found ++ [(⟨path⟩ : RuleStack)]).length = found.length + 1 := List.length_append
  refine ⟨?_, ?_, ?_, ?_, ?_, ?_⟩
  · intro index other present
    cases index with
    | zero =>
      cases present
      exact ⟨after, aborted⟩
    | succ index =>
      obtain ⟨later, ran⟩ := explains.aborted index other present
      rw [longer, Nat.add_right_comm found.length 1 index] at ran
      exact ⟨later, ran⟩
  · have last := explains.last
    rwa [longer, Nat.add_right_comm found.length 1 paths.length] at last
  · rw [explains.passes, List.length_cons]
  · exact Nat.succ_le_succ explains.fits
  · intro other same
    rw [List.length_cons, explains.full other same]
  · rw [explains.ending, List.append_assoc, List.singleton_append, List.map_cons]

/-- Every explanation is made of the passes that follow the one it starts from. -/
theorem explains_of_explain {before : Except Interrupt Bool} {state : State σ}
    (reached : session.nthPass rule found.length = some (before, state))
    (ran : explain session.context rule deepest room found state = some explanation) :
    ∃ paths outcome, Explains session rule deepest room found explanation paths outcome := by
  induction room using Nat.strongRecOn generalizing found state before explanation with
  | ind room ih =>
    obtain ⟨outcome, last, passes, ending, full⟩ |
      ⟨path, after, rest, less, log, aborted, rfl, explained, rfl⟩ := explain_cases ran
    · rw [← nthPass_succ reached] at last
      refine ⟨[], outcome, nofun, last, passes, Nat.zero_le room, fun path same => (full path same).symm, ?_⟩
      rw [ending, List.map_nil, List.append_nil]
    · rw [← nthPass_succ reached] at aborted
      have reached' : session.nthPass rule (found ++ [(⟨path⟩ : RuleStack)]).length =
          some (.error (.abort path), after) := by
        rw [List.length_append, List.length_singleton, aborted]
      obtain ⟨paths, outcome, explains⟩ := ih less (Nat.lt_succ_self less) reached' explained
      exact ⟨path :: paths, outcome, explains.cons aborted⟩

end Explanations

section Ending

variable {context : Context} {rule : Matcher σ}

private theorem exists_explain (ends : ∀ index state, ∃ ending, (pass rule index).run context state = some ending)
    (deepest room : Nat) (found : List RuleStack) (state : State σ) :
    ∃ explanation, explain context rule deepest room found state = some explanation := by
  induction room generalizing found state with
  | zero =>
    obtain ⟨⟨outcome, after⟩, ran⟩ := ends (some found.length) state
    rw [explain, ran]
    rcases outcome with (_ | _) | _ <;> exact ⟨_, rfl⟩
  | succ room ih =>
    obtain ⟨⟨outcome, after⟩, ran⟩ := ends (some found.length) state
    rw [explain, ran]
    rcases outcome with (_ | path) | _
    · exact ⟨_, rfl⟩
    · obtain ⟨rest, explained⟩ := ih (found ++ [⟨path⟩]) after
      exact ⟨_, by dsimp only; rw [explained]⟩
    · exact ⟨_, rfl⟩

/-- A run ends if each of its passes does. -/
theorem exists_run (session : Session σ)
    (ends : ∀ index state, ∃ ending, (pass rule index).run session.context state = some ending)
    (shape : Shape) :
    ∃ report next, session.run rule shape = some (report, next) := by
  rw [run]
  split
  · exact ⟨_, _, rfl⟩
  · obtain ⟨⟨outcome, after⟩, ran⟩ :=
      ends none session.state.startRun
    simp only [attempt, ran]
    rcases outcome with (_ | _) | (_ | _)
    · exact ⟨_, _, rfl⟩
    · exact ⟨_, _, rfl⟩
    · obtain ⟨explanation, explained⟩ :=
        exists_explain ends after.tracker.deepest session.context.maxErrorStacks.toNat [] after
      simp only [explained]
      exact ⟨_, _, rfl⟩
    · exact ⟨_, _, rfl⟩

end Ending

/-- How a run ends, by its passes: in the plain pass unless that fails, and else with an explanation. -/
inductive Concludes (session : Session σ) (rule : Matcher σ) (shape : Shape) : Report → State σ → Prop
  | matched {after : State σ} {log : List LogEvent} : session.nthPass rule 0 = some (.ok true, after) →
      Concludes session rule shape ⟨(after.values.finalize shape).map .success, 1, log⟩ after
  | faulted {fault : Fault} {after : State σ} {log : List LogEvent} :
      session.nthPass rule 0 = some (.error (.fault fault), after) →
      Concludes session rule shape ⟨.error fault, 1, log⟩ after
  | escaped {path : List Frame} {after : State σ} {log : List LogEvent} :
      session.nthPass rule 0 = some (.error (.abort path), after) →
      Concludes session rule shape ⟨.error .abortEscaped, 1, log⟩ after
  | explained {failed : State σ} {explanation : Explanation σ} {paths : List (List Frame)}
      {outcome : Except Interrupt Bool} {log : List LogEvent} :
      session.nthPass rule 0 = some (.ok false, failed) →
      Explains session rule failed.tracker.deepest session.context.maxErrorStacks.toNat [] explanation paths
        outcome →
      Concludes session rule shape
        ⟨explanation.ending.map fun collected =>
          .failure ⟨Position.resolve session.context.source failed.tracker.deepest, collected⟩,
          explanation.passes + 1, log⟩ explanation.state

/-- A run that reports a parse error was accepted. -/
theorem idle_of_failure {session next : Session σ} {rule : Matcher σ} {shape : Shape} {report : Report}
    {error : ParseError} (ran : session.run rule shape = some (report, next))
    (failed : report.ending = .ok (.failure error)) : session.running = false := by
  cases running : session.running with
  | false => rfl
  | true =>
    rw [run, if_pos running] at ran
    cases ran
    cases failed

/-- A run that was accepted ends by its passes, and then no diagnostic pass is under way. -/
theorem concludes_of_run {session next : Session σ} (idle : session.running = false) {rule : Matcher σ}
    {shape : Shape} {report : Report} (ran : session.run rule shape = some (report, next)) :
    ∃ last, Concludes session rule shape report last ∧
      next = { session with state := last.endRun } := by
  rw [run, if_neg (by rw [idle]; decide)] at ran
  split at ran
  · cases ran
  · rename_i attempted
    cases ran
    refine ⟨_, ?_, rfl⟩
    simp only [attempt] at attempted
    split at attempted
    · cases attempted
    · cases attempted
      exact .matched ‹_›
    · rename_i failed plain
      split at attempted
      · cases attempted
      · rename_i explanation explained
        cases attempted
        have reached : session.nthPass rule ([] : List RuleStack).length = some (.ok false, failed) := plain
        obtain ⟨paths, outcome, explains⟩ := explains_of_explain reached explained
        exact .explained plain explains
    · cases attempted
      exact .faulted ‹_›
    · cases attempted
      exact .escaped ‹_›

namespace Concludes

variable {session : Session σ} {rule : Matcher σ} {shape : Shape} {report : Report} {last : State σ}
  (concludes : Concludes session rule shape report last)

include concludes

/-- The state behind a run is that behind the last of its passes. -/
theorem exists_last :
    ∃ index outcome, report.passes = index + 1 ∧ session.nthPass rule index = some (outcome, last) := by
  cases concludes with
  | matched plain | faulted plain | escaped plain => exact ⟨0, _, rfl, plain⟩
  | @explained _ _ paths outcome _ _ explains =>
    have ended := explains.last
    rw [List.length_nil, Nat.zero_add] at ended
    exact ⟨paths.length + 1, outcome, congrArg (· + 1) explains.passes, ended⟩

theorem passes_le : report.passes ≤ session.context.maxErrorStacks.toNat + 2 := by
  cases concludes with
  | explained _ explains =>
    have fits := explains.fits
    have passes := explains.passes
    dsimp only
    omega
  | matched | faulted | escaped => exact Nat.le_add_left 1 _

theorem of_match {after : State σ} (plain : session.nthPass rule 0 = some (.ok true, after)) :
    report.passes = 1 ∧ report.ending = (after.values.finalize shape).map .success := by
  cases concludes with
  | matched plain' =>
    cases plain.symm.trans plain'
    exact ⟨rfl, rfl⟩
  | faulted plain' | escaped plain' | explained plain' _ => cases plain.symm.trans plain'

theorem of_escape {path : List Frame} {after : State σ}
    (plain : session.nthPass rule 0 = some (.error (.abort path), after)) :
    report.passes = 1 ∧ report.ending = .error .abortEscaped := by
  cases concludes with
  | escaped _ => exact ⟨rfl, rfl⟩
  | matched plain' | faulted plain' | explained plain' _ => cases plain.symm.trans plain'

/-- A signal from the last pass is one for which there was no room. -/
theorem of_last_abort {index : Nat} {path : List Frame} {after : State σ}
    (aborted : session.nthPass rule (index + 1) = some (.error (.abort path), after))
    (final : index + 2 = report.passes) :
    index = session.context.maxErrorStacks.toNat ∧
      ∃ deepest, report.ending = .error (.stackLimit session.context.maxErrorStacks deepest) := by
  cases concludes with
  | matched | faulted | escaped => cases final
  | @explained failed _ paths _ _ _ explains =>
    have passes := explains.passes
    have same : index = paths.length := by dsimp only at final; omega
    have ended := explains.last
    rw [List.length_nil, Nat.zero_add, ← same, aborted] at ended
    cases ended
    refine ⟨same.trans (explains.full path rfl), failed.tracker.deepest, ?_⟩
    rw [explains.ending]
    rfl

/-- A fault from any pass that was made ends the run as it is. -/
theorem of_fault {index : Nat} {fault : Fault} {after : State σ} (made : index < report.passes)
    (raised : session.nthPass rule index = some (.error (.fault fault), after)) :
    report.ending = .error fault := by
  cases concludes with
  | matched plain | escaped plain =>
    obtain rfl : index = 0 := Nat.lt_one_iff.mp made
    cases raised.symm.trans plain
  | faulted plain =>
    obtain rfl : index = 0 := Nat.lt_one_iff.mp made
    cases raised.symm.trans plain
    rfl
  | @explained _ _ paths _ _ plain explains =>
    have passes := explains.passes
    cases index with
    | zero => cases raised.symm.trans plain
    | succ index =>
      by_cases early : index < paths.length
      · obtain ⟨_, aborted⟩ := explains.aborted index paths[index] (List.getElem?_eq_getElem early)
        rw [List.length_nil, Nat.zero_add, raised] at aborted
        cases aborted
      · have same : index = paths.length := by dsimp only at made; omega
        have ended := explains.last
        rw [List.length_nil, Nat.zero_add, ← same, raised] at ended
        cases ended
        rw [explains.ending]
        rfl

/-- A parse error is explained by passes that were aborted and one that was not. -/
theorem of_failure {error : ParseError} (reported : report.ending = .ok (.failure error)) :
    ∃ (failed : State σ) (paths : List (List Frame)) (answer : Bool),
      session.nthPass rule 0 = some (.ok false, failed) ∧
      session.nthPass rule (paths.length + 1) = some (.ok answer, last) ∧ report.passes = paths.length + 2 ∧
      error = ⟨Position.resolve session.context.source failed.tracker.deepest, paths.map RuleStack.mk⟩ ∧
      ∀ index path, paths[index]? = some path → ∃ after,
        session.nthPass rule (index + 1) = some (.error (.abort path), after) := by
  cases concludes with
  | matched plain =>
    dsimp only at reported
    cases finalized : last.values.finalize shape <;> rw [finalized] at reported <;> cases reported
  | faulted | escaped => cases reported
  | @explained failed _ paths outcome _ plain explains =>
    have ended := explains.last
    have aborted := explains.aborted
    simp only [List.length_nil, Nat.zero_add] at ended aborted
    simp only [explains.ending, List.nil_append] at reported
    match outcome, reported with
    | .ok answer, reported =>
      cases reported
      exact ⟨failed, paths, answer, plain, ended, by rw [explains.passes], rfl, aborted⟩

end Concludes

/-- A rule that counts its invocations in its memory, however they end. -/
def Counts (context : Context) (rule : Matcher σ) (count : σ → Nat) : Prop :=
  ∀ ⦃state outcome after⦄, rule.run context state = some (outcome, after) →
    count after.memory = count state.memory + 1

section Counts

variable {session next : Session σ} {rule : Matcher σ} {count : σ → Nat}
  (counts : Counts session.context rule count)
include counts

/-- Every pass invokes its rule once. -/
theorem Counts.pass (index : Option Int) : Counts session.context (Session.pass rule index) count := by
  intro state outcome after ran
  let started : State σ :=
    { state with offset := 0, values := .empty, depth := 0, tracker := state.tracker.beginPass index }
  have invoked : rule.run session.context started = some (outcome, after) := ran
  have counted : count after.memory = count started.memory + 1 := counts invoked
  exact counted

theorem count_of_nthPass {index : Nat} {outcome : Except Interrupt Bool} {after : State σ}
    (ran : session.nthPass rule index = some (outcome, after)) :
    count after.memory = count session.state.memory + (index + 1) := by
  induction index generalizing outcome after with
  | zero =>
    have plain : (pass rule none).run session.context session.state.startRun = some (outcome, after) := ran
    have counted : count after.memory = count session.state.startRun.memory + 1 := counts.pass none plain
    exact counted
  | succ index ih =>
    rw [nthPass] at ran
    split at ran
    · cases ran
    · rename_i reached
      rw [counts.pass _ ran, ih reached, Nat.add_assoc]

/-- A run reports how often its rule was invoked. -/
theorem count_of_run (idle : session.running = false) {shape : Shape} {report : Report}
    (ran : session.run rule shape = some (report, next)) :
    count next.state.memory = count session.state.memory + report.passes := by
  obtain ⟨last, concludes, rfl⟩ := concludes_of_run idle ran
  obtain ⟨index, outcome, passes, ended⟩ := concludes.exists_last
  rw [passes, ← count_of_nthPass counts ended]
  rfl

end Counts

end Session

/-- Faults and parse errors are kept apart, whatever the rule does. A run ends if every invocation of the
rule does. A match is the end of it. A signal is never passed on: from the plain pass it becomes a fault,
and from a diagnostic pass it becomes a rule stack, or a fault if there is no room. Every other fault is
passed on as it is. A parse error is reported only if the plain pass fails and a later pass ends without a
signal, and then its stacks are what was saved on the signals in between. -/
theorem run_keeps_faults_apart {σ : Type} (session : Session σ) (idle : session.running = false)
    (rule : Matcher σ) (shape : Shape) :
    ((∀ state, ∃ ending, rule.run session.context state = some ending) →
      ∃ report next, session.run rule shape = some (report, next)) ∧
    ∀ report next, session.run rule shape = some (report, next) →
      let ends := session.nthPass rule
      let limit := session.context.maxErrorStacks
      report.passes ≤ (max 0 limit).toNat + 2 ∧
      (∀ after, ends 0 = some (.ok true, after) →
        report.passes = 1 ∧ report.ending = (after.values.finalize shape).map .success) ∧
      (∀ path after, ends 0 = some (.error (.abort path), after) →
        report.passes = 1 ∧ report.ending = .error .abortEscaped) ∧
      (∀ index path after, ends (index + 1) = some (.error (.abort path), after) → index + 2 = report.passes →
        index = (max 0 limit).toNat ∧ ∃ deepest, report.ending = .error (.stackLimit limit deepest)) ∧
      (∀ index fault after, index < report.passes → ends index = some (.error (.fault fault), after) →
        report.ending = .error fault) ∧
      ∀ error, report.ending = .ok (.failure error) →
        let count := error.ruleStacks.length
        (∃ failed, ends 0 = some (.ok false, failed) ∧
          error.position = Position.resolve session.context.source failed.tracker.deepest) ∧
        (∃ answer last, ends (count + 1) = some (.ok answer, last)) ∧ report.passes = count + 2 ∧
        ∀ index stack, error.ruleStacks[index]? = some stack → ∃ path after,
          ends (index + 1) = some (.error (.abort path), after) ∧
            stack.frames = (Interrupt.abort path).saved.reverse := by
  refine ⟨fun ends => session.exists_run (fun index state => ends _) shape, ?_⟩
  intro report next ran ends limit
  obtain ⟨last, concludes, _⟩ := Session.concludes_of_run idle ran
  have room : (max 0 limit).toNat = limit.toNat := by omega
  rw [room]
  refine ⟨concludes.passes_le, fun _ => concludes.of_match, fun _ _ => concludes.of_escape,
    fun _ _ _ => concludes.of_last_abort, fun _ _ _ => concludes.of_fault, ?_⟩
  intro error reported count
  obtain ⟨failed, paths, answer, plain, ended, passes, rfl, aborted⟩ := concludes.of_failure reported
  have length : count = paths.length := List.length_map _
  rw [length]
  refine ⟨⟨failed, plain, rfl⟩, ⟨answer, last, ended⟩, passes, ?_⟩
  intro index stack present
  rw [List.getElem?_map] at present
  obtain ⟨path, found, rfl⟩ := Option.map_eq_some_iff.mp present
  obtain ⟨after, ran⟩ := aborted index path found
  exact ⟨path, after, ran, (List.reverse_reverse path).symm⟩

/-- A rule that counts its invocations and behaves differently in each: it fails, then it raises the abort
signal twice, with one frame and with none, and then it matches. -/
def moody : Matcher Nat :=
  ⟨fun _ state =>
    let outcome := match state.memory with
      | 0 => .ok false
      | 1 => .error (.abort [Matcher.charFrame 'a'])
      | 2 => .error (.abort [])
      | _ => .ok true
    some (outcome, { state with offset := -7, depth := 3, memory := state.memory + 1 })⟩

def moodySession : Session Nat :=
  { context := ⟨Source.ofString "", 5, 2⟩, state := { running := false, memory := 0 } }

/-- The two signals become the rule stacks of a parse error, and the match in the last pass is only its end.
-/
theorem run_keeps_moody_apart : ∃ report next error, moodySession.run moody .all = some (report, next) ∧
    report.ending = .ok (.failure error) ∧ report.passes = 4 ∧
    ∀ index stack, error.ruleStacks[index]? = some stack → ∃ path after,
      moodySession.nthPass moody (index + 1) = some (.error (.abort path), after) ∧
        stack.frames = (Interrupt.abort path).saved.reverse := by
  obtain ⟨ends, reports⟩ := run_keeps_faults_apart moodySession rfl moody .all
  obtain ⟨report, next, ran⟩ := ends fun state => ⟨_, rfl⟩
  obtain ⟨_, _, _, _, _, failure⟩ := reports report next ran
  cases ran
  obtain ⟨_, _, passes, saved⟩ := failure _ rfl
  exact ⟨_, _, _, rfl, rfl, passes, saved⟩

end PegMatcher
