import PegMatcher.Proofs.Backtracking
import PegMatcher.Proofs.Furthest
import PegMatcher.Proofs.Keeping
import PegMatcher.Proofs.Outline
import PegMatcher.Proofs.Verdict
import PegMatcher.Proofs.Watching

/-! # Combinators are safe

Rules of combinators cannot drive the engine into a fault of its own. As long as the cursor starts in the text it
stays there, so no character is ever read where there is none, and what is left are the faults that a rule can be
blamed for: an action that pops more values than there are, a return to a depth that the stack no longer has, and
named rules that are nested too deeply. This supposes that the actions of the rule return, and that the rules that
are built late can be built.

`Safe` bounds the offset and the faults of a computation at once, because neither bound holds without the other: a
matcher goes on from where the one in front of it has left the cursor. A run adds two kinds of faults to those of
its rule, each behind one answer of the plain pass. No diagnostic pass adds any, since it follows the plain pass up
to its abort.
-/

namespace PegMatcher

variable {σ χ : Type}

/-- A rule whose action returns on as many values as it asks for, and whose target is there. -/
def Rule.Dependable (grammar : Grammar χ) : Rule χ → Prop
  | .action arity compute =>
    ∀ operands : List Value, (0 ≤ arity → (operands.length : Int) = arity) → ∃ value, compute operands = .ok value
  | .reference name => ∃ target, grammar.find? name = some target
  | .unbuilt _ => False
  | _ => True

/-- The faults that a rule of combinators can be blamed for. -/
inductive Fault.OfRule (context : Context) : Fault → Prop
  | underflow (count : Int) : OfRule context (.stackUnderflow (.popMany count))
  | invalidMark {depth : Int} {current : Nat} : current < depth → OfRule context (.invalidMark depth current)
  | tooDeep : OfRule context (.depthExceeded context.maxDepth)

/-- The faults of reading a stack of some depth as a shape. -/
inductive Fault.OfShape (depth : Nat) : Shape → Fault → Prop
  | mismatch (shape : Shape) : OfShape depth shape (.shapeMismatch shape depth)
  | unknown {request : Value} : request.count? = none → OfShape depth (.exactly request) (.unknownShape request)

/-- The faults that a run can end in, by how its plain pass has ended. -/
inductive Fault.OfRun (context : Context) (shape : Shape) : Except Interrupt Bool → State σ → Fault → Prop
  | rule {fault : Fault} {after : State σ} : fault.OfRule context →
      OfRun context shape (.error (.fault fault)) after fault
  | shape {fault : Fault} {after : State σ} : fault.OfShape after.values.depth shape →
      OfRun context shape (.ok true) after fault
  | tooMany {after : State σ} :
      OfRun context shape (.ok false) after (.stackLimit context.maxErrorStacks after.tracker.deepest)

namespace Safety

open Keeping

variable {α β : Type} {context : Context}

/-- A result of some kind, a fault that a rule can be blamed for, or a signal. -/
inductive Admissible (context : Context) (Q : α → Prop) : Except Interrupt α → Prop
  | ok {result : α} : Q result → Admissible context Q (.ok result)
  | fault {fault : Fault} : fault.OfRule context → Admissible context Q (.error (.fault fault))
  | abort (path : List Frame) : Admissible context Q (.error (.abort path))

/-- A computation that keeps the cursor in the text, and ends in an admissible way. -/
def Safe (context : Context) (Q : α → Prop) (x : Engine σ α) : Prop :=
  ∀ ⦃state outcome after⦄, Within context 0 state.offset → x.run context state = some (outcome, after) →
    Within context 0 after.offset ∧ Admissible context Q outcome

abbrev Sheltered (context : Context) (x : Engine σ α) : Prop :=
  Safe context (fun _ => True) x

private theorem safe_pure {Q : α → Prop} {result : α} (holds : Q result) :
    Safe context Q (pure result : Engine σ α) := by
  intro state outcome after within ran
  cases ran
  exact ⟨within, .ok holds⟩

private theorem safe_bind {Q : α → Prop} {R : β → Prop} {x : Engine σ α} {f : α → Engine σ β} (head : Safe context Q x)
    (tail : ∀ result, Q result → Safe context R (f result)) : Safe context R (x >>= f) := by
  intro state outcome after within ran
  rw [Engine.run_bind] at ran
  rcases began : x.run context state with _ | ⟨_ | result, middle⟩ <;> rw [began] at ran
  · cases ran
  · cases ran
    obtain ⟨within', admissible⟩ := head within began
    constructor
    · exact within'
    · cases admissible with
      | fault blamed => exact .fault blamed
      | abort path => exact .abort path
  · obtain ⟨within', admissible⟩ := head within began
    cases admissible with
    | ok holds => exact tail result holds within' ran

/-- An operation that keeps the cursor in the text is safe if its faults are a rule's. -/
theorem safe_of_keeper {Q : α → Prop} {operation : Engine σ α} (keeper : Keeper context 0 operation)
    (admissible : ∀ ⦃state outcome after⦄, Within context 0 state.offset →
      operation.run context state = some (outcome, after) → Admissible context Q outcome) :
    Safe context Q operation :=
  fun _ _ _ within ran => ⟨(keeper within ran).within, admissible within ran⟩

private theorem safe_offset : Safe context (Within context 0) (Machine.offset : Engine σ Int) := by
  intro state outcome after within ran
  cases ran
  exact ⟨within, .ok within⟩

private theorem safe_mark :
    Safe context (fun mark : Mark => Within context 0 mark.offset) (Engine.mark : Engine σ Mark) := by
  intro state outcome after within ran
  cases ran
  exact ⟨within, .ok within⟩

private theorem sheltered_atEnd : Sheltered context (Machine.atEnd : Engine σ Bool) := by
  apply safe_of_keeper (keeper_observe _)
  intro state outcome after within ran
  cases ran
  exact .ok trivial

private theorem sheltered_sliceFrom (start : Int) : Sheltered context (Machine.sliceFrom start : Engine σ String) := by
  apply safe_of_keeper (keeper_observe _)
  intro state outcome after within ran
  cases ran
  exact .ok trivial

/-- Where the text goes on, there is a character. -/
theorem exists_charAt {source : Source} {offset : Int} (start : 0 ≤ offset) (inside : offset < source.length) :
    ∃ c, source.charAt offset = .ok c := by
  have index : offset.toNat < source.toList.length := by
    rw [Source.length_toList]
    omega
  exact ⟨source.toList[offset.toNat], by
    rw [Source.charAt, Source.char?_of_nonneg _ start, List.getElem?_eq_getElem index]⟩

private theorem sheltered_peek : Sheltered context (Machine.peek : Engine σ Char) := by
  apply safe_of_keeper keeper_peek
  intro state outcome after within ran
  simp only [Engine.peek] at ran
  by_cases inside : state.offset < context.source.length
  · obtain ⟨c, found⟩ := exists_charAt within.1 inside
    simp only [inside, ↓reduceIte, found] at ran
    cases ran
    exact .ok trivial
  · rw [if_neg inside] at ran
    cases ran
    exact .ok trivial

private theorem sheltered_advance : Sheltered context (Machine.advance : Engine σ Char) := by
  apply safe_of_keeper keeper_advance
  intro state outcome after within ran
  simp only [Engine.advance] at ran
  by_cases inside : state.offset < context.source.length
  · obtain ⟨c, found⟩ := exists_charAt within.1 inside
    simp only [inside, ↓reduceIte, found] at ran
    cases ran
    exact .ok trivial
  · rw [if_neg inside] at ran
    cases ran
    exact .ok trivial

private theorem sheltered_moveTo {target : Int} (inside : Within context 0 target) :
    Sheltered context (Machine.moveTo target : Engine σ Unit) := by
  apply safe_of_keeper (keeper_moveTo inside)
  intro state outcome after within ran
  cases ran
  exact .ok trivial

private theorem sheltered_reset {target : Mark} (inside : Within context 0 target.offset) :
    Sheltered context (Machine.reset target : Engine σ Unit) := by
  apply safe_of_keeper (keeper_reset inside)
  intro state outcome after within ran
  rw [Engine.run_reset] at ran
  split at ran <;> cases ran
  · exact .fault (.invalidMark (by omega))
  · exact .ok trivial

private theorem sheltered_mismatch : Sheltered context (Machine.mismatch : Engine σ Unit) := by
  apply safe_of_keeper keeper_mismatch
  intro state outcome after within ran
  change (Engine.registerAt state.offset).run context state = _ at ran
  simp only [Engine.registerAt] at ran
  split at ran <;> cases ran
  · exact .abort []
  · exact .ok trivial

private theorem sheltered_push (value : Value) : Sheltered context (Machine.push value : Engine σ Unit) := by
  apply safe_of_keeper (keeper_push value)
  intro state outcome after within ran
  cases ran
  exact .ok trivial

/-- As many values are popped as were asked for, unless they are counted from the bottom. -/
theorem safe_popMany (count : Int) :
    Safe context (fun operands => 0 ≤ count → (operands.length : Int) = count)
      (Machine.popMany count : Engine σ (List Value)) := by
  apply safe_of_keeper (keeper_popMany count)
  intro state outcome after within ran
  simp only [Engine.popMany, ValueStack.remaining] at ran
  by_cases short : (state.values.depth : Int) < count
  · simp only [short, ↓reduceIte] at ran
    cases ran
    exact .fault (.underflow count)
  · rw [if_neg short] at ran
    by_cases upward : 0 ≤ count
    · simp only [upward, ↓reduceIte] at ran
      cases ran
      apply Admissible.ok
      intro _
      rw [ValueStack.above_eq_drop, List.length_drop, ValueStack.length_toList]
      omega
    · simp only [upward, ↓reduceIte] at ran
      cases ran
      exact .ok fun upward' => absurd upward' upward

private theorem safe_framed {Q : α → Prop} {frame : Frame} {x : Engine σ α} (inner : Safe context Q x) :
    Safe context Q (Machine.framed frame x) := by
  intro state outcome after within ran
  rw [Engine.run_framed] at ran
  obtain ⟨⟨_ | result, last⟩, ended, same⟩ := Option.map_eq_some_iff.mp ran <;> cases same
  · obtain ⟨within', admissible⟩ := inner within ended
    constructor
    · exact within'
    · cases admissible with
      | fault blamed => exact .fault blamed
      | abort path => exact .abort _
  · exact inner within ended

private theorem safe_nested {Q : α → Prop} {x : Engine σ α} (inner : Safe context Q x) :
    Safe context Q (Machine.nested x) := by
  intro state outcome after within ran
  rw [Engine.run_nested] at ran
  split at ran
  · cases ran
    exact ⟨within, .fault .tooDeep⟩
  · obtain ⟨⟨ended, last⟩, body, same⟩ := Option.map_eq_some_iff.mp ran
    cases same
    have deeper : Within context 0 ({ state with depth := state.depth + 1 } : State σ).offset := within
    obtain ⟨within', admissible⟩ := inner deeper body
    exact ⟨within', admissible⟩

private theorem sheltered_nextIs (accepts : Char → Bool) :
    Sheltered context (Matcher.nextIs accepts : Engine σ Bool) := by
  apply safe_bind sheltered_atEnd
  intro ended _
  split
  · exact safe_pure trivial
  · apply safe_bind sheltered_peek
    intro c _
    exact safe_pure trivial

/-- The answer of a leaf that reports a mismatch. -/
theorem sheltered_refusal : Sheltered context (Machine.mismatch >>= fun _ => pure false : Engine σ Bool) := by
  apply safe_bind sheltered_mismatch
  intro _ _
  exact safe_pure trivial

private theorem sheltered_oneChar (frame : Frame) (accepts : Char → Bool) :
    Sheltered context (Matcher.oneChar frame accepts : Engine σ Bool) := by
  apply safe_framed
  apply safe_bind (sheltered_nextIs accepts)
  intro answer _
  split
  · apply safe_bind sheltered_advance
    intro c _
    exact safe_pure trivial
  · exact sheltered_refusal

private theorem sheltered_literalFrom {start : Int} (inside : Within context 0 start) (chars : List Char) :
    Sheltered context (Matcher.literalFrom start chars : Engine σ Bool) := by
  induction chars with
  | nil => exact safe_pure trivial
  | cons c rest ih =>
    apply safe_bind (sheltered_nextIs _)
    intro answer _
    split
    · apply safe_bind sheltered_advance
      intro _ _
      exact ih
    · apply safe_bind sheltered_mismatch
      intro _ _
      apply safe_bind (sheltered_moveTo inside)
      intro _ _
      exact safe_pure trivial

private theorem sheltered_endOfInput : Sheltered context (Matcher.endOfInput : Engine σ Bool) := by
  apply safe_framed
  apply safe_bind sheltered_atEnd
  intro ended _
  split
  · exact safe_pure trivial
  · exact sheltered_refusal

/-- Giving up: a matcher returns to its place and then answers. -/
theorem sheltered_giveUp {start : Mark} (inside : Within context 0 start.offset) (answer : α) :
    Sheltered context (Machine.reset start >>= fun _ => pure answer : Engine σ α) := by
  apply safe_bind (sheltered_reset inside)
  intro _ _
  exact safe_pure trivial

private theorem sheltered_sequenceFrom {start : Mark} (inside : Within context 0 start.offset)
    {parts : List (Engine σ Bool)} (sheltered : ∀ part ∈ parts, Sheltered context part) :
    Sheltered context (Matcher.sequenceFrom start parts) := by
  induction parts with
  | nil => exact safe_pure trivial
  | cons first rest ih =>
    rw [List.forall_mem_cons] at sheltered
    apply safe_bind sheltered.1
    intro answer _
    split
    · exact ih sheltered.2
    · exact sheltered_giveUp inside false

private theorem sheltered_firstOfFrom {start : Mark} (inside : Within context 0 start.offset)
    {alternatives : List (Engine σ Bool)} (sheltered : ∀ part ∈ alternatives, Sheltered context part) :
    Sheltered context (Matcher.firstOfFrom start alternatives) := by
  induction alternatives with
  | nil => exact safe_pure trivial
  | cons first rest ih =>
    rw [List.forall_mem_cons] at sheltered
    apply safe_bind sheltered.1
    intro answer _
    split
    · exact safe_pure trivial
    · apply safe_bind (sheltered_reset inside)
      intro _ _
      exact ih sheltered.2

section Body

variable {body : Engine σ Bool} (sheltered : Sheltered context body)
include sheltered

private theorem sheltered_optional : Sheltered context (Matcher.optional body) := by
  apply safe_framed
  apply safe_bind safe_mark
  intro start inside
  apply safe_bind sheltered
  intro answer _
  split
  · exact safe_pure trivial
  · exact sheltered_giveUp inside true

private theorem sheltered_iterate (bound count : Nat) : Sheltered context (Matcher.iterate body bound count) := by
  induction bound generalizing count with
  | zero =>
    intro state outcome after within ran
    cases ran
  | succ bound ih =>
    apply safe_bind safe_offset
    intro origin _
    apply safe_bind safe_mark
    intro here inside
    apply safe_bind sheltered
    intro answer _
    split
    · apply safe_bind safe_offset
      intro stop _
      split
      · exact safe_pure trivial
      · exact ih (count + 1)
    · exact sheltered_giveUp inside count

private theorem sheltered_repeated (kind : RuleKind) (minimum bound : Nat) :
    Sheltered context (Matcher.repeated kind minimum bound body) := by
  apply safe_framed
  apply safe_bind safe_mark
  intro start inside
  apply safe_bind (sheltered_iterate sheltered bound 0)
  intro count _
  split
  · exact sheltered_giveUp inside false
  · exact safe_pure trivial

/-- Both predicates return to their start, and differ in what they make of the answer. -/
theorem sheltered_ahead (kind : RuleKind) (answer : Bool → Bool) :
    Sheltered context (Machine.framed { kind := kind } (Machine.mark >>= fun start =>
      body >>= fun matched => Machine.reset start >>= fun _ => pure (answer matched)) : Engine σ Bool) := by
  apply safe_framed
  apply safe_bind safe_mark
  intro start inside
  apply safe_bind sheltered
  intro matched _
  exact sheltered_giveUp inside (answer matched)

private theorem sheltered_capture : Sheltered context (Matcher.capture body) := by
  apply safe_framed
  apply safe_bind safe_offset
  intro start _
  apply safe_bind sheltered
  intro answer _
  split
  · apply safe_bind (sheltered_sliceFrom start)
    intro text _
    apply safe_bind (sheltered_push _)
    intro _ _
    exact safe_pure trivial
  · exact safe_pure trivial

private theorem sheltered_named (name : Option String) : Sheltered context (Matcher.named name body) :=
  safe_framed (safe_nested sheltered)

end Body

private theorem sheltered_pushValue (value : Value) : Sheltered context (Matcher.pushValue value : Engine σ Bool) := by
  apply safe_bind (sheltered_push value)
  intro _ _
  exact safe_pure trivial

private theorem sheltered_action {arity : Int} {compute : List Value → Except Fault Value}
    (returns : ∀ operands : List Value, (0 ≤ arity → (operands.length : Int) = arity) →
      ∃ value, compute operands = .ok value) :
    Sheltered context (Matcher.action arity compute : Engine σ Bool) := by
  apply safe_bind (safe_popMany arity)
  intro operands counted
  obtain ⟨value, computed⟩ := returns operands counted
  rw [computed]
  exact sheltered_pushValue value

theorem sheltered_matcher {grammar : Grammar Empty} {rule : Rule Empty}
    (dependable : ∀ part, grammar.Meets rule part → part.Dependable grammar) (budget : Nat) :
    Sheltered context (rule.matcher Interpretation.none grammar budget : Engine σ Bool) := by
  induction budget generalizing rule with
  | zero =>
    intro state outcome after within ran
    cases ran
  | succ budget ih =>
    have self : rule.Dependable grammar := dependable rule .refl
    -- What the rule enters is met from the rule too, so it is dependable as well.
    have inner (next : Rule Empty) (enters : grammar.Enters rule next) :
        Sheltered context (next.matcher Interpretation.none grammar budget : Engine σ Bool) :=
      ih fun part meets => dependable part (.head enters meets)
    have body (next : Rule Empty) (only : rule.parts = [next]) :=
      inner next (.inl (only ▸ List.mem_singleton_self next))
    have parts : ∀ x ∈ rule.parts.map (Rule.matcher Interpretation.none grammar budget),
        Sheltered context (x : Engine σ Bool) :=
      List.forall_mem_map.mpr fun next member => inner next (.inl member)
    change Sheltered context (rule.denote Interpretation.none grammar budget
      (Rule.matcher Interpretation.none grammar budget) : Engine σ Bool)
    cases rule with
    | char c => exact sheltered_oneChar _ _
    | literal text => exact safe_framed (safe_bind safe_offset fun start inside => sheltered_literalFrom inside _)
    | anyOf chars => exact sheltered_oneChar _ _
    | range low high => exact sheltered_oneChar _ _
    | anyChar => exact sheltered_oneChar _ _
    | endOfInput => exact sheltered_endOfInput
    | sequence rules => exact safe_framed (safe_bind safe_mark fun start inside => sheltered_sequenceFrom inside parts)
    | firstOf rules => exact safe_framed (safe_bind safe_mark fun start inside => sheltered_firstOfFrom inside parts)
    | optional next => exact sheltered_optional (body next rfl)
    | zeroOrMore next => exact sheltered_repeated (body next rfl) _ _ _
    | oneOrMore next => exact sheltered_repeated (body next rfl) _ _ _
    | andPredicate next => exact sheltered_ahead (body next rfl) _ id
    | notPredicate next => exact sheltered_ahead (body next rfl) _ not
    | capture next => exact sheltered_capture (body next rfl)
    | push value => exact sheltered_pushValue value
    | action arity compute => exact sheltered_action self
    | named name next => exact sheltered_named (body next rfl) name
    | reference name =>
      obtain ⟨target, found⟩ := self
      simp only [Rule.denote, found]
      exact inner target (.inr ⟨name, rfl, found⟩)
    | unbuilt fault => exact self.elim
    | extension extended => exact extended.elim

section Moments

variable {context : Context}

private theorem upholds_of_keeper {operation : Engine σ α} (keeper : Keeper context 0 operation) :
    Watching.Upholds context (fun _ (state : State σ) => Within context 0 state.offset) operation :=
  fun _ _ _ _ within ran => (keeper within ran).within

/-- That the cursor is in the text is upheld by returns to where it has been. -/
theorem upheld_within (context : Context) :
    Watching.Upheld context (Within context 0) fun _ (state : State σ) => Within context 0 state.offset where
  offset _ _ within := within
  advance := upholds_of_keeper keeper_advance
  moveTo _ inside := upholds_of_keeper (keeper_moveTo inside)
  reset _ inside := upholds_of_keeper (keeper_reset inside)
  mismatch := upholds_of_keeper keeper_mismatch
  push value := upholds_of_keeper (keeper_push value)
  popMany count := upholds_of_keeper (keeper_popMany count)
  enter _ _ within _ := within
  leave _ _ within := within

end Moments

private theorem ofShape_of_finalize {values : ValueStack} {shape : Shape} {fault : Fault}
    (failed : values.finalize shape = .error fault) : fault.OfShape values.depth shape := by
  cases shape with
  | all => cases failed
  | empty =>
    rw [ValueStack.finalize] at failed
    split at failed <;> cases failed
    exact .mismatch _
  | single =>
    rw [ValueStack.finalize] at failed
    split at failed <;> cases failed
    exact .mismatch _
  | exactly request =>
    rw [ValueStack.finalize] at failed
    split at failed
    · split at failed <;> cases failed
      exact .mismatch _
    · cases failed
      exact .unknown ‹_›

/-- What the plain pass leaves to be reported as a fault. -/
theorem ofRun_of_verdict {context : Context} {shape : Shape} {outcome : Except Interrupt Bool} {after : State σ}
    {found : List RuleStack} {fault : Fault} (admissible : Admissible context (fun _ => True) outcome)
    (silent : ∀ path, outcome ≠ .error (.abort path))
    (reported : (Diagnosis.verdict context shape outcome after found).1 = .error fault) :
    fault.OfRun context shape outcome after := by
  rcases outcome with (cause | path) | (_ | _)
  · cases reported
    cases admissible with
    | fault blamed => exact .rule blamed
  · exact absurd rfl (silent path)
  · simp only [Diagnosis.verdict] at reported
    split at reported <;> cases reported
    exact .tooMany
  · simp only [Diagnosis.verdict] at reported
    rcases finalized : after.values.finalize shape with cause | value <;> rw [finalized] at reported <;> cases reported
    exact .shape (ofShape_of_finalize finalized)

end Safety

/-- Rules of combinators keep the engine within its bounds. Whatever the pass, a rule that starts in the text can be
recorded with the cursor in the text at every moment; a match does not end in front of its start, and a failure ends
there, with as many values as there were; and if it ends in a fault, then in one that the rule can be blamed for. The
cursor is in the text at every moment of an evaluation that comes to no end, too. A run ends in no other fault unless
the plain pass has matched, and the values do not have the requested shape, or has failed, and there are more rule
stacks than allowed. -/
theorem combinators_are_safe {grammar : Grammar Empty} {rule : Rule Empty}
    (dependable : ∀ part, grammar.Meets rule part → part.Dependable grammar) :
    (∀ (context : Context) (budget : Nat) (state : State σ) outcome after,
      0 ≤ state.offset → state.offset ≤ context.source.length →
      (rule.matcher Interpretation.none grammar budget : Engine σ Bool).run context state = some (outcome, after) →
      ∃ record,
        (rule.matcher Interpretation.none grammar budget : Evaluation .byDepth σ Bool).run context [] [] state =
          some (outcome, after, record) ∧
        (∀ moment ∈ record, 0 ≤ moment.state.offset ∧ moment.state.offset ≤ context.source.length) ∧
        (outcome = .ok true → state.offset ≤ after.offset ∧ after.offset ≤ context.source.length) ∧
        (outcome = .ok false → after.offset = state.offset ∧ after.values.depth = state.values.depth) ∧
        ∀ fault, outcome = .error (.fault fault) → fault.OfRule context) ∧
    (∀ (context : Context) (budget : Nat) (state : State σ),
      0 ≤ state.offset → state.offset ≤ context.source.length →
      let watched := (rule.matcher Interpretation.none grammar budget : Watched σ Bool).run context 0 state
      watched.2 = (rule.matcher Interpretation.none grammar budget : Engine σ Bool).run context state ∧
      ∀ inside seen, (inside, seen) ∈ watched.1 → 0 ≤ seen.offset ∧ seen.offset ≤ context.source.length) ∧
    ∀ (session : Session σ) (budget : Nat) (shape : Shape) report next fault, session.running = false →
      session.run (rule.matcher Interpretation.none grammar budget : Engine σ Bool) shape = some (report, next) →
      report.ending = .error fault →
      ∃ outcome after,
        session.nthPass (rule.matcher Interpretation.none grammar budget : Engine σ Bool) 0 = some (outcome, after) ∧
        fault.OfRun session.context shape outcome after := by
  refine ⟨?_, ?_, ?_⟩
  · intro context budget state outcome after start inside ran
    have recorded := ran
    rw [Evaluation.run_eq_forget Simulation.hosts_none grammar budget rule context [] [] state] at recorded
    obtain ⟨⟨_, _, record⟩, recorded, same⟩ := Option.map_eq_some_iff.mp recorded
    cases same
    have dwells := dwells_matcher inside recorded
    obtain ⟨_, admissible⟩ := Safety.sheltered_matcher dependable budget ⟨start, inside⟩ ran
    refine ⟨record, recorded, ?_, ?_, ?_, ?_⟩
    · intro moment member
      obtain ⟨behind, inside'⟩ := dwells.moments moment member
      exact ⟨Int.le_trans start behind, inside'⟩
    · intro _
      exact dwells.within
    · rintro rfl
      exact Backtracking.backtracks_matcher grammar budget rule context ran
    · rintro fault rfl
      cases admissible with
      | fault blamed => exact blamed
  · intro context budget state start inside
    constructor
    · exact ending_of_watched Simulation.hosts_none budget 0 context state
    · have upheld := Safety.upheld_within (σ := σ) context
      obtain ⟨moments, _⟩ := holds_of_watched upheld Simulation.hosts_none grammar rule budget ⟨start, inside⟩
      exact fun _ _ member => moments _ member
  · intro session budget shape report next fault idle ran failed
    obtain ⟨outcome, after, record, recorded⟩ := Diagnosis.recorded_of_run idle ran
    obtain ⟨report', next', ran', decided, _⟩ := Diagnosis.run_eq_verdict idle recorded shape
    cases ran.symm.trans ran'
    have plain : session.nthPass (rule.matcher Interpretation.none grammar budget : Engine σ Bool) 0 =
        some (outcome, after) := by
      rw [Diagnosis.nthPass_zero, recorded, Option.map_some]
    refine ⟨outcome, after, plain, ?_⟩
    have start : Within session.context 0 ({ memory := session.state.memory } : State σ).offset :=
      ⟨Int.le_refl 0, Int.natCast_nonneg _⟩
    have passed := Evaluation.run_eq_forget Simulation.hosts_none grammar budget rule session.context [] []
      ({ memory := session.state.memory } : State σ)
    rw [recorded, Option.map_some] at passed
    obtain ⟨_, admissible⟩ := Safety.sheltered_matcher dependable budget start passed
    apply Safety.ofRun_of_verdict admissible (Outline.ne_abort_of_plain rfl recorded)
    rw [← failed]
    exact (congrArg Prod.fst decided).symm

/-- Captures a character and a chain of further ones if there is one, and then joins two values. -/
def chain : Rule Empty :=
  .named (some "chain") (.sequence [.capture .anyChar, .optional (.reference "chain"), .action 2 (.ok ∘ .list)])

def chainSession : Session Unit :=
  { context := ⟨Source.ofString "ab", 10, 10⟩, state := { running := false, memory := () } }

private theorem dependable_of_meets_chain {part : Rule Empty} (meets : Grammar.Meets ⟨[("chain", chain)]⟩ chain part) :
    part.Dependable ⟨[("chain", chain)]⟩ := by
  have known : part ∈ [chain, .sequence [.capture .anyChar, .optional (.reference "chain"), .action 2 (.ok ∘ .list)],
      .capture .anyChar, .optional (.reference "chain"), .action 2 (.ok ∘ .list), .anyChar, .reference "chain"] := by
    refine Grammar.mem_of_meets (fun rule known next enters => ?_) List.mem_cons_self meets
    obtain member | ⟨name, rfl, found⟩ := enters
    · simp only [List.mem_cons, List.not_mem_nil, or_false] at known
      rcases known with rfl | rfl | rfl | rfl | rfl | rfl | rfl <;> grind [Rule.parts, chain]
    · simp_all [Grammar.find?, chain, List.lookup_cons]
  simp only [List.mem_cons, List.not_mem_nil, or_false] at known
  rcases known with rfl | rfl | rfl | rfl | rfl | rfl | rfl <;>
    simp [Rule.Dependable, chain, Grammar.find?]

/-- The inner chain joins two values, and leaves one for the outer one, which is to blame for asking for two. With
less of a budget the evaluation comes to no end, but only after it has consumed a character. -/
theorem chain_is_safe :
    (∃ record after,
      (chain.matcher Interpretation.none ⟨[("chain", chain)]⟩ 12 : Evaluation .byDepth Unit Bool).run
        chainSession.context [] [] { memory := () } =
          some (.error (.fault (.stackUnderflow (.popMany 2))), after, record) ∧
      ∀ moment ∈ record, 0 ≤ moment.state.offset ∧ moment.state.offset ≤ 2) ∧
    (let watched := (chain.matcher Interpretation.none ⟨[("chain", chain)]⟩ 5 : Watched Unit Bool).run
      chainSession.context 0 { memory := () }
    watched.2 = none ∧ (∃ moment ∈ watched.1, moment.2.offset = 1) ∧
      ∀ inside seen, (inside, seen) ∈ watched.1 → 0 ≤ seen.offset ∧ seen.offset ≤ 2) ∧
    ∃ report next outcome after,
      chainSession.run (chain.matcher Interpretation.none ⟨[("chain", chain)]⟩ 12) .single = some (report, next) ∧
      report.ending = .error (.stackUnderflow (.popMany 2)) ∧
      (.stackUnderflow (.popMany 2) : Fault).OfRun chainSession.context .single outcome (after : State Unit) := by
  obtain ⟨bounds, moments, faults⟩ := @combinators_are_safe Unit _ _ fun _ => dependable_of_meets_chain
  refine ⟨?_, ?_, ?_⟩
  · obtain ⟨record, recorded, moments, _⟩ :=
      bounds chainSession.context 12 { memory := () } _ _ (by decide) (by decide) rfl
    exact ⟨record, _, recorded, moments⟩
  · obtain ⟨ends, within⟩ := moments chainSession.context 5 { memory := () } (by decide) (by decide)
    refine ⟨ends.trans rfl, ?_, within⟩
    exact ⟨_, List.mem_of_getElem? (i := 10) rfl, rfl⟩
  · obtain ⟨outcome, after, _, ofRun⟩ := faults chainSession 12 .single _ _ _ rfl rfl rfl
    exact ⟨_, _, outcome, after, rfl, rfl, ofRun⟩

end PegMatcher
