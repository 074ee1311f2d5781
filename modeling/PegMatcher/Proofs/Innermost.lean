import PegMatcher.Proofs.Furthest
import PegMatcher.Proofs.HostCalls
import PegMatcher.Proofs.Passes

/-! # Rule stacks end with leaves

The abort signal of a diagnostic pass is raised by a leaf, and the rules around the leaf add their frames in front. So
the innermost frame of every rule stack is that of a leaf that the top rule can meet, also if functions of the host
program answer differently from pass to pass, as long as they do not raise the signal themselves.

`Signals` bounds the paths of the signals that a computation can raise. Composite matchers raise no signals but those
of their parts, with a frame in front, which `Innermost` does not see.
-/

namespace PegMatcher

variable {σ χ : Type}

/-- A function of the host program that does not raise the abort signal. -/
def HostCall.Quiet {α : Type} (function : HostFunction σ α) : Prop :=
  ∀ memory path, (function memory).1 ≠ .error (.abort path)

/-- A rule that does not call a function by which the abort signal could be raised. -/
def Rule.Quiet : Rule (HostCall σ) → Prop
  | .extension (.action _ compute) _ => ∀ operands, HostCall.Quiet (compute operands)
  | .extension (.factory choose) _ => HostCall.Quiet choose
  | _ => True

/-- A path whose last frame is that of a leaf that a rule can meet. -/
def Innermost (grammar : Grammar χ) (rule : Rule χ) (path : List Frame) : Prop :=
  ∃ leaf frame, grammar.Meets rule leaf ∧ leaf.IsLeaf ∧ leaf.frame? = some frame ∧ path.getLast? = some frame

/-- Choices between leaves meet nothing else. -/
theorem Grammar.mem_of_meets_leaves {grammar : Grammar χ} {leaves : List (Rule χ)}
    (isLeaf : ∀ leaf ∈ leaves, leaf.IsLeaf) {part : Rule χ} (meets : grammar.Meets (.firstOf leaves) part) :
    part ∈ .firstOf leaves :: leaves := by
  refine Grammar.mem_of_meets (fun rule known next enters => ?_) List.mem_cons_self meets
  obtain rfl | member := List.mem_cons.mp known
  · obtain inside | ⟨name, reference, _⟩ := enters
    · exact List.mem_cons_of_mem _ inside
    · cases reference
  · obtain inside | ⟨name, rfl, _⟩ := enters
    · exact absurd (isLeaf _ member) (Rule.not_isLeaf_of_part inside)
    · exact (isLeaf _ member).elim

namespace Innermost

section Paths

variable {grammar : Grammar χ} {rule next : Rule χ} {path : List Frame}

theorem leaf {frame : Frame} (isLeaf : rule.IsLeaf) (framed : rule.frame? = some frame) :
    Innermost grammar rule [frame] :=
  ⟨rule, frame, .refl, isLeaf, framed, List.getLast?_singleton⟩

theorem cons (innermost : Innermost grammar rule path) (frame : Frame) : Innermost grammar rule (frame :: path) := by
  obtain ⟨leaf, last, meets, isLeaf, framed, ends⟩ := innermost
  refine ⟨leaf, last, meets, isLeaf, framed, ?_⟩
  rw [List.getLast?_cons, ends, Option.getD_some]

private theorem of_enters (innermost : Innermost grammar next path) (enters : grammar.Enters rule next) :
    Innermost grammar rule path := by
  obtain ⟨leaf, last, meets, rest⟩ := innermost
  exact ⟨leaf, last, .head enters meets, rest⟩

/-- The innermost frame of a rule stack, if it ends with one of a leaf. -/
theorem exists_leaf {stack : RuleStack} {frame : Frame} (ends : Innermost grammar rule stack.frames)
    (innermost : stack.innermost? = some frame) :
    ∃ leaf, grammar.Meets rule leaf ∧ leaf.IsLeaf ∧ leaf.frame? = some frame := by
  obtain ⟨leaf, last, meets, isLeaf, framed, same⟩ := ends
  obtain rfl : frame = last := Option.some.inj (innermost.symm.trans same)
  exact ⟨leaf, meets, isLeaf, framed⟩

end Paths

/-- Every signal that a computation raises carries a path of some kind. -/
def Signals {α : Type} (P : List Frame → Prop) (x : Engine σ α) : Prop :=
  ∀ ⦃context state path after⦄, x.run context state = some (.error (.abort path), after) → P path

abbrev Silent {α : Type} (x : Engine σ α) : Prop :=
  Signals (fun _ => False) x

section Signals

variable {α β : Type} {P : List Frame → Prop}

private theorem Silent.signals {x : Engine σ α} (silent : Silent x) : Signals P x :=
  fun _ _ _ _ ran => (silent ran).elim

private theorem silent_pure (result : α) : Silent (pure result : Engine σ α) :=
  fun _ _ _ _ => nofun

private theorem silent_observe (view : Context → State σ → α) : Silent (Engine.observe view) :=
  fun _ _ _ _ => nofun

private theorem silent_modify (change : State σ → State σ) : Silent (Engine.modify change) :=
  fun _ _ _ _ => nofun

private theorem silent_fail (fault : Fault) : Silent (Machine.fail fault : Engine σ α) :=
  fun _ _ _ _ => nofun

private theorem silent_exhausted : Silent (Machine.exhausted : Engine σ α) :=
  fun _ _ _ _ => nofun

private theorem silent_peek : Silent (Machine.peek : Engine σ Char) := by
  intro context state path after ran
  simp only [Machine.peek, Engine.peek] at ran
  split_ifs at ran
  · split at ran <;> cases ran
  · cases ran

private theorem silent_advance : Silent (Machine.advance : Engine σ Char) := by
  intro context state path after ran
  simp only [Machine.advance, Engine.advance] at ran
  split_ifs at ran
  · split at ran <;> cases ran
  · cases ran

private theorem silent_reset (target : Mark) : Silent (Machine.reset target : Engine σ Unit) := by
  intro context state path after ran
  rw [Engine.run_reset] at ran
  split_ifs at ran <;> cases ran

private theorem silent_popMany (count : Int) : Silent (Machine.popMany count : Engine σ (List Value)) := by
  intro context state path after ran
  simp only [Machine.popMany, Engine.popMany] at ran
  split at ran <;> cases ran

private theorem silent_call {function : HostFunction σ α} (quiet : HostCall.Quiet function) :
    Silent (Engine.call function) := by
  intro context state path after ran
  exact quiet state.memory path (congrArg Prod.fst (Option.some.inj ran))

private theorem signals_mismatch (here : P []) : Signals P (Machine.mismatch : Engine σ Unit) := by
  intro context state path after ran
  change (Engine.registerAt state.offset).run context state = _ at ran
  simp only [Engine.registerAt] at ran
  split_ifs at ran <;> cases ran
  exact here

private theorem signals_bind {x : Engine σ α} {f : α → Engine σ β} (head : Signals P x) (tail : ∀ a, Signals P (f a)) :
    Signals P (x >>= f) := by
  intro context state path after ran
  rw [Engine.run_bind] at ran
  split at ran
  · cases ran
  · exact tail _ ran
  · rename_i interrupt middle began
    cases ran
    exact head began

private theorem signals_framed {frame : Frame} {x : Engine σ α} (inner : Signals (fun path => P (frame :: path)) x) :
    Signals P (Machine.framed frame x) := by
  intro context state path after ran
  rw [Engine.run_framed] at ran
  obtain ⟨⟨(_ | path) | _, last⟩, ended, same⟩ := Option.map_eq_some_iff.mp ran <;> cases same
  exact inner ended

private theorem signals_nested {x : Engine σ α} (inner : Signals P x) : Signals P (Machine.nested x) := by
  intro context state path after ran
  rw [Engine.run_nested] at ran
  split_ifs at ran with refused
  · cases ran
  · obtain ⟨⟨outcome, last⟩, ended, same⟩ := Option.map_eq_some_iff.mp ran
    cases same
    exact inner ended

end Signals

section Leaves

variable {P : List Frame → Prop}

private theorem silent_nextIs (accepts : Char → Bool) : Silent (Matcher.nextIs accepts : Engine σ Bool) := by
  refine signals_bind (silent_observe _) fun ended => ?_
  cases ended with
  | true => exact silent_pure false
  | false => exact signals_bind silent_peek fun c => silent_pure (accepts c)

private theorem signals_oneChar {frame : Frame} (here : P [frame]) (accepts : Char → Bool) :
    Signals P (Matcher.oneChar frame accepts : Engine σ Bool) := by
  apply signals_framed
  refine signals_bind (silent_nextIs accepts).signals fun accepted => ?_
  cases accepted with
  | true => exact signals_bind silent_advance.signals fun _ => (silent_pure true).signals
  | false => exact signals_bind (signals_mismatch here) fun _ => (silent_pure false).signals

private theorem signals_literalFrom (here : P []) (start : Int) (rest : List Char) :
    Signals P (Matcher.literalFrom start rest : Engine σ Bool) := by
  induction rest with
  | nil => exact (silent_pure true).signals
  | cons c rest ih =>
    refine signals_bind (silent_nextIs _).signals fun accepted => ?_
    cases accepted with
    | true => exact signals_bind silent_advance.signals fun _ => ih
    | false =>
      refine signals_bind (signals_mismatch here) fun _ => ?_
      exact signals_bind (silent_modify _).signals fun _ => (silent_pure false).signals

private theorem signals_endOfInput (here : P [{ kind := .endOfInput }]) :
    Signals P (Matcher.endOfInput : Engine σ Bool) := by
  apply signals_framed
  refine signals_bind (silent_observe _).signals fun ended => ?_
  cases ended with
  | true => exact (silent_pure true).signals
  | false => exact signals_bind (signals_mismatch here) fun _ => (silent_pure false).signals

end Leaves

section Composition

variable {P : List Frame → Prop} {x : Engine σ Bool} {xs : List (Engine σ Bool)}

private theorem signals_giveUp {start : Mark} {α : Type} (result : α) :
    Signals P (Machine.reset start >>= fun _ => pure result : Engine σ α) :=
  signals_bind (silent_reset start).signals fun _ => (silent_pure result).signals

private theorem signals_sequenceFrom (start : Mark) (parts : ∀ x ∈ xs, Signals P x) :
    Signals P (Matcher.sequenceFrom start xs) := by
  induction xs with
  | nil => exact (silent_pure true).signals
  | cons first rest ih =>
    obtain ⟨head, tail⟩ := List.forall_mem_cons.mp parts
    refine signals_bind head fun matched => ?_
    cases matched with
    | true => exact ih tail
    | false => exact signals_giveUp false

private theorem signals_firstOfFrom (start : Mark) (alternatives : ∀ x ∈ xs, Signals P x) :
    Signals P (Matcher.firstOfFrom start xs) := by
  induction xs with
  | nil => exact (silent_pure false).signals
  | cons first rest ih =>
    obtain ⟨head, tail⟩ := List.forall_mem_cons.mp alternatives
    refine signals_bind head fun matched => ?_
    cases matched with
    | true => exact (silent_pure true).signals
    | false => exact signals_bind (silent_reset start).signals fun _ => ih tail

private theorem signals_iterate (body : Signals P x) (bound count : Nat) :
    Signals P (Matcher.iterate x bound count) := by
  induction bound generalizing count with
  | zero => exact silent_exhausted.signals
  | succ bound ih =>
    refine signals_bind (silent_observe _).signals fun origin => ?_
    refine signals_bind (silent_observe _).signals fun here => ?_
    refine signals_bind body fun matched => ?_
    cases matched with
    | true =>
      refine signals_bind (silent_observe _).signals fun stop => ?_
      split_ifs
      · exact (silent_pure _).signals
      · exact ih (count + 1)
    | false => exact signals_giveUp count

private theorem signals_action (arity : Int) (compute : List Value → Except Fault Value) :
    Signals P (Matcher.action arity compute : Engine σ Bool) := by
  refine signals_bind (silent_popMany arity).signals fun operands => ?_
  have computed : Silent (Machine.lift (compute operands) : Engine σ Value) := by
    cases compute operands with
    | ok value => exact silent_pure value
    | error fault => exact silent_fail fault
  refine signals_bind computed.signals fun value => ?_
  exact signals_bind (silent_modify _).signals fun _ => (silent_pure true).signals

private theorem signals_call {extended : HostCall σ} {rules : List (Rule (HostCall σ))}
    (quiet : (Rule.extension extended rules).Quiet) (parts : ∀ x ∈ xs, Signals P x) :
    Signals P (HostCall.interpret Engine.call extended xs) := by
  cases extended with
  | action arity compute =>
    refine signals_bind (silent_popMany arity).signals fun operands => ?_
    refine signals_bind (silent_call (quiet operands)).signals fun value => ?_
    exact signals_bind (silent_modify _).signals fun _ => (silent_pure true).signals
  | factory choose =>
    refine signals_bind (silent_call quiet).signals fun index => ?_
    rw [List.getD_eq_getElem?_getD]
    cases chosen : xs[index]? with
    | none => exact (silent_pure false).signals
    | some part => exact parts part (List.mem_of_getElem? chosen)

-- Composite rules add their frames in front of what is known of the signals of their parts.
variable (closed : ∀ frame path, P path → P (frame :: path))

include closed

private theorem signals_enclosed {frame : Frame} (inner : Signals P x) : Signals P (Machine.framed frame x) :=
  signals_framed fun _ _ path _ ran => closed frame path (inner ran)

private theorem signals_optional (body : Signals P x) : Signals P (Matcher.optional x) := by
  apply signals_enclosed closed
  refine signals_bind (silent_observe _).signals fun start => signals_bind body fun matched => ?_
  cases matched with
  | true => exact (silent_pure true).signals
  | false => exact signals_giveUp true

private theorem signals_repeated (body : Signals P x) (kind : RuleKind) (minimum bound : Nat) :
    Signals P (Matcher.repeated kind minimum bound x) := by
  apply signals_enclosed closed
  refine signals_bind (silent_observe _).signals fun start => ?_
  refine signals_bind (signals_iterate body bound 0) fun count => ?_
  split_ifs
  · exact signals_giveUp false
  · exact (silent_pure true).signals

private theorem signals_ahead (body : Signals P x) (frame : Frame) (conclude : Bool → Bool) :
    Signals P (Machine.framed frame (Machine.mark >>= fun start => x >>= fun matched =>
      Machine.reset start >>= fun _ => pure (conclude matched))) := by
  apply signals_enclosed closed
  refine signals_bind (silent_observe _).signals fun start => signals_bind body fun matched => ?_
  exact signals_giveUp (conclude matched)

private theorem signals_capture (body : Signals P x) : Signals P (Matcher.capture x) := by
  apply signals_enclosed closed
  refine signals_bind (silent_observe _).signals fun start => signals_bind body fun matched => ?_
  cases matched with
  | true =>
    refine signals_bind (silent_observe _).signals fun text => ?_
    exact signals_bind (silent_modify _).signals fun _ => (silent_pure true).signals
  | false => exact (silent_pure false).signals

end Composition

/-- A signal from a rule carries the frame of a leaf at the end of its path. -/
theorem signals_matcher {grammar : Grammar (HostCall σ)} {rule : Rule (HostCall σ)}
    (quiet : ∀ part, grammar.Meets rule part → part.Quiet) (budget : Nat) :
    Signals (Innermost grammar rule) (rule.matcher (HostCall.interpret Engine.call) grammar budget) := by
  induction budget generalizing rule with
  | zero => exact silent_exhausted.signals
  | succ budget ih =>
    have self : rule.Quiet := quiet rule .refl
    -- Nothing is added at the end of a path, so the frame of a rule in front of it does no harm.
    have closed (frame : Frame) (path : List Frame) (innermost : Innermost grammar rule path) :=
      innermost.cons frame
    have inner (next : Rule (HostCall σ)) (enters : grammar.Enters rule next) :
        Signals (Innermost grammar rule) (next.matcher (HostCall.interpret Engine.call) grammar budget) := by
      intro context state path after ran
      have innermost := ih (fun part meets => quiet part (.head enters meets)) ran
      exact innermost.of_enters enters
    have body (next : Rule (HostCall σ)) (only : rule.parts = [next]) :=
      inner next (.inl (only ▸ List.mem_singleton_self next))
    have parts : ∀ x ∈ rule.parts.map (Rule.matcher (HostCall.interpret Engine.call) grammar budget),
        Signals (Innermost grammar rule) x :=
      List.forall_mem_map.mpr fun next member => inner next (.inl member)
    refine signals_bind (silent_pure ()).signals fun _ => ?_
    cases rule with
    | char c => exact signals_oneChar (.leaf trivial rfl) _
    | literal text =>
      apply signals_framed
      exact signals_bind (silent_observe _).signals fun start => signals_literalFrom (.leaf trivial rfl) start _
    | anyOf chars => exact signals_oneChar (.leaf trivial rfl) _
    | range low high => exact signals_oneChar (.leaf trivial rfl) _
    | anyChar => exact signals_oneChar (.leaf trivial rfl) _
    | endOfInput => exact signals_endOfInput (.leaf trivial rfl)
    | sequence rules =>
      apply signals_enclosed closed
      exact signals_bind (silent_observe _).signals fun start => signals_sequenceFrom start parts
    | firstOf rules =>
      apply signals_enclosed closed
      exact signals_bind (silent_observe _).signals fun start => signals_firstOfFrom start parts
    | optional next => exact signals_optional closed (body next rfl)
    | zeroOrMore next => exact signals_repeated closed (body next rfl) _ _ _
    | oneOrMore next => exact signals_repeated closed (body next rfl) _ _ _
    | andPredicate next => exact signals_ahead closed (body next rfl) _ id
    | notPredicate next => exact signals_ahead closed (body next rfl) _ not
    | capture next => exact signals_capture closed (body next rfl)
    | push value => exact signals_bind (silent_modify _).signals fun _ => (silent_pure true).signals
    | action arity compute => exact signals_action arity compute
    | named name next => exact signals_enclosed closed (signals_nested (body next rfl))
    | reference name =>
      simp only [Rule.denote]
      cases found : grammar.find? name with
      | none => exact (silent_fail _).signals
      | some target => exact inner target (.inr ⟨name, rfl, found⟩)
    | unbuilt fault => exact (silent_fail fault).signals
    | extension extended rules => exact signals_call self parts

/-- The rule stacks of a parse error end with the frames of leaves that its rule can meet. -/
theorem of_failure {session next : Session σ} {grammar : Grammar (HostCall σ)} {rule : Rule (HostCall σ)}
    (quiet : ∀ part, grammar.Meets rule part → part.Quiet) {budget : Nat} {shape : Shape} {report : Report}
    {error : ParseError}
    (ran : session.run (rule.matcher (HostCall.interpret Engine.call) grammar budget) shape = some (report, next))
    (failed : report.ending = .ok (.failure error)) :
    ∀ stack ∈ error.ruleStacks, Innermost grammar rule stack.frames := by
  obtain ⟨last, concludes, _⟩ := Session.concludes_of_run (Session.idle_of_failure ran failed) ran
  obtain ⟨_, paths, _, _, _, _, rfl, aborted⟩ := concludes.of_failure failed
  intro stack member
  obtain ⟨path, inside, rfl⟩ := List.mem_map.mp member
  obtain ⟨index, found⟩ := List.getElem?_of_mem inside
  obtain ⟨after, ended⟩ := aborted index path found
  obtain ⟨before, passed⟩ := Session.exists_pass_of_nthPass ended
  exact signals_matcher quiet budget passed

/-- If every rule stack has an innermost frame, the expected labels are those of these frames, each once. -/
theorem exists_leaves {error : ParseError} (innermost : ∀ stack ∈ error.ruleStacks, stack.innermost?.isSome) :
    ∃ leaves : List Frame, error.ruleStacks.map RuleStack.innermost? = leaves.map some ∧
      error.expected = (leaves.map Frame.label).eraseDups := by
  refine ⟨error.ruleStacks.filterMap RuleStack.innermost?, ?_, ?_⟩
  · generalize error.ruleStacks = chains at innermost ⊢
    induction chains with
    | nil => rfl
    | cons stack chains ih =>
      obtain ⟨head, tail⟩ := List.forall_mem_cons.mp innermost
      obtain ⟨frame, found⟩ := Option.isSome_iff_exists.mp head
      rw [List.filterMap_cons_some found, List.map_cons, List.map_cons, found, ih tail]
  · rw [List.map_filterMap]
    rfl

/-- What a parse error expects are the labels of leaves that its rule can meet. -/
theorem exists_leaves_of_failure {session next : Session σ} {grammar : Grammar (HostCall σ)}
    {rule : Rule (HostCall σ)} (quiet : ∀ part, grammar.Meets rule part → part.Quiet) {budget : Nat} {shape : Shape}
    {report : Report} {error : ParseError}
    (ran : session.run (rule.matcher (HostCall.interpret Engine.call) grammar budget) shape = some (report, next))
    (failed : report.ending = .ok (.failure error)) :
    ∃ leaves : List Frame, error.ruleStacks.map RuleStack.innermost? = leaves.map some ∧
      error.expected = (leaves.map Frame.label).eraseDups ∧
      ∀ frame ∈ leaves, ∃ leaf, grammar.Meets rule leaf ∧ leaf.IsLeaf ∧ leaf.frame? = some frame := by
  have ends := of_failure quiet ran failed
  have innermost (stack : RuleStack) (member : stack ∈ error.ruleStacks) : stack.innermost?.isSome := by
    obtain ⟨_, _, _, _, _, last⟩ := ends stack member
    exact Option.isSome_of_eq_some last
  obtain ⟨leaves, frames, expected⟩ := exists_leaves innermost
  refine ⟨leaves, frames, expected, fun frame member => ?_⟩
  have listed : some frame ∈ error.ruleStacks.map RuleStack.innermost? := frames ▸ List.mem_map_of_mem member
  obtain ⟨stack, inside, found⟩ := List.mem_map.mp listed
  exact (ends stack inside).exists_leaf found

end Innermost

end PegMatcher
