import PegMatcher.Proofs.HostCalls
import PegMatcher.Proofs.Nesting
import PegMatcher.Proofs.Watching

/-! # The guard is balanced

A named rule is left as often as it is entered, however its body ends: by an answer, by a fault of the engine, of an
action or of a rule that could not be built, by the refusal of a rule further inside, or by the abort signal. The
refusal itself comes before a rule is entered, and is not made up for.

A watched evaluation counts the named rules that are active by their frames. That the guard counts as many is upheld
at every moment, also of an evaluation that comes to no end. Actions and factories may be any functions of a host
program.
-/

namespace PegMatcher

variable {σ : Type}

def Watched.call {α : Type} (function : HostFunction σ α) : Watched σ α :=
  perform (Engine.call function)

namespace Balance

open Nesting Watching

/-- From a number on, the guard has counted the named rules that are active, and they are no more than allowed. -/
def Counted (context : Context) (entry : Int) (inside : Nat) (state : State σ) : Prop :=
  state.depth = entry + inside ∧ state.depth ≤ context.maxDepth

section Counted

variable {context : Context} {entry : Int}

private theorem upholds_of_depth {α : Type} {operation : Engine σ α}
    (unmoved : ∀ context state outcome after, operation.run context state = some (outcome, after) →
      after.depth = state.depth) : Upholds context (Counted context entry) operation := by
  intro inside state outcome after counted ran
  rw [Counted, unmoved context state outcome after ran]
  exact counted

private theorem depth_of_call {α : Type} (function : HostFunction σ α) (context : Context) (state : State σ)
    (outcome : Except Interrupt α) (after : State σ)
    (ran : (Engine.call function).run context state = some (outcome, after)) : after.depth = state.depth := by
  cases ran
  rfl

/-- Only the guard of a named rule changes the nesting. -/
theorem upheld_counted (context : Context) (entry : Int) :
    Upheld context (fun _ => True) (Counted context entry : Nat → State σ → Prop) where
  offset _ _ _ := trivial
  advance := upholds_of_depth free_advance.depth
  moveTo target _ := upholds_of_depth (free_moveTo target).depth
  reset target _ := upholds_of_depth (free_reset target).depth
  mismatch := upholds_of_depth free_mismatch.depth
  push value := upholds_of_depth (free_push value).depth
  popMany count := upholds_of_depth (free_popMany count).depth
  enter inside state counted room := by
    obtain ⟨depth, _⟩ := counted
    constructor
    · push_cast
      omega
    · exact room
  leave inside state counted := by
    obtain ⟨depth, most⟩ := counted
    push_cast at depth
    constructor
    · dsimp only
      omega
    · dsimp only
      omega

end Counted

end Balance

open Balance Watching

/-- The guard is balanced on every way out of a rule. From a state whose nesting is within the limit, an evaluation
that ends in whatever way leaves the nesting as it found it. At every moment, also of an evaluation that has no end,
the nesting is what it was on entry and the number of named rules that were entered since and not yet left, and lies
between the nesting on entry and the limit. Actions and factories may be any functions of the host program. -/
theorem depth_is_balanced {context : Context} {state : State σ} (within : state.depth ≤ context.maxDepth)
    (grammar : Grammar (HostCall σ)) (rule : Rule (HostCall σ)) (budget : Nat) :
    let watched := (rule.matcher (HostCall.interpret Watched.call) grammar budget).run context 0 state
    let ending := (rule.matcher (HostCall.interpret Engine.call) grammar budget).run context state
    ending = watched.2 ∧
    (∀ outcome after, ending = some (outcome, after) → after.depth = state.depth) ∧
    ∀ inside seen, (inside, seen) ∈ watched.1 →
      seen.depth = state.depth + inside ∧ state.depth ≤ seen.depth ∧ seen.depth ≤ context.maxDepth := by
  intro watched ending
  have upheld := upheld_counted (σ := σ) context state.depth
  have watches {α : Type} (live : Live (Watched σ) (Engine σ)) (function : HostFunction σ α) :
      (watching σ).Rel live Eq (Watched.call function) (Engine.call function) :=
    fun _ => ends_perform (fun _ => rfl) (Engine.call function)
  have attends {α : Type} (live : Live (Watched σ) (Watched σ)) (function : HostFunction σ α) :
      (attending upheld).Rel live Eq (Watched.call function) (Watched.call function) :=
    fun _ => attends_perform (upholds_of_depth (depth_of_call function)) fun a => ⟨a, rfl⟩
  have ends : ending = watched.2 := (ending_of_watched (HostCall.hosts watches) budget 0 context state).symm
  have start : Counted context state.depth 0 state := ⟨(Int.add_zero _).symm, within⟩
  obtain ⟨moments, last⟩ := holds_of_watched upheld (HostCall.hosts attends) grammar rule budget start
  refine ⟨ends, ?_, ?_⟩
  · intro outcome after ended
    obtain ⟨depth, _⟩ := last outcome after (ends.symm.trans ended)
    exact depth.trans (Int.add_zero _)
  · intro inside seen member
    obtain ⟨depth, most⟩ := moments (inside, seen) member
    dsimp only at depth
    exact ⟨depth, by omega, most⟩

/-- The memory of a host program that has built a rule or not, and counts the calls of an action. -/
structure Rounds where
  built : Option Nat := none
  calls : Nat := 0

/-- A rule that goes on with itself, which is built at its first match. Its action counts its calls, and raises the
abort signal in the third one. -/
def runaway : Grammar (HostCall Rounds) :=
  { definitions := [("loop", .named (some "loop") (.sequence [
      .extension (.action 0 fun _ rounds =>
        (if rounds.calls < 2 then .ok .null else .error (.abort []), { rounds with calls := rounds.calls + 1 })) [],
      .extension (.factory (HostFunction.once Rounds.built (fun part rounds => { rounds with built := some part })
        fun rounds => (.ok 0, rounds))) [.reference "loop"]]))] }

/-- With one level in use, three levels are enough for two rounds, of which the second is refused a third one. With
four levels the signal comes first. Either way all levels are left again, and in between as many are in use as were
entered. -/
theorem depth_of_runaway_is_balanced :
    let state : State Rounds := { depth := 1, memory := {} }
    (∃ after, (Rule.matcher (HostCall.interpret Engine.call) runaway 12 (.reference "loop")).run
        ⟨Source.ofString "", 3, 5⟩ state = some (.error (.fault (.depthExceeded 3)), after) ∧ after.depth = 1) ∧
    (∃ path after, (Rule.matcher (HostCall.interpret Engine.call) runaway 12 (.reference "loop")).run
        ⟨Source.ofString "", 4, 5⟩ state = some (.error (.abort path), after) ∧ after.depth = 1 ∧
      after.memory = ⟨some 0, 3⟩ ∧ path.length = 6) ∧
    ∃ seen, (3, seen) ∈ ((Rule.matcher (HostCall.interpret Watched.call) runaway 12
        (.reference "loop")).run ⟨Source.ofString "", 4, 5⟩ 0 state).1 ∧ seen.depth = 4 := by
  intro state
  obtain ⟨_, refused, _⟩ := depth_is_balanced
    (by decide : state.depth ≤ (⟨Source.ofString "", 3, 5⟩ : Context).maxDepth) runaway (.reference "loop") 12
  obtain ⟨_, aborted, moments⟩ := depth_is_balanced
    (by decide : state.depth ≤ (⟨Source.ofString "", 4, 5⟩ : Context).maxDepth) runaway (.reference "loop") 12
  refine ⟨⟨_, rfl, refused _ _ rfl⟩, ⟨_, _, rfl, aborted _ _ rfl, rfl, rfl⟩, ?_⟩
  have member : ∃ seen, (3, seen) ∈ ((Rule.matcher (HostCall.interpret Watched.call) runaway 12
      (.reference "loop")).run ⟨Source.ofString "", 4, 5⟩ 0 state).1 :=
    ⟨_, List.mem_of_getElem? (i := 14) rfl⟩
  obtain ⟨seen, member⟩ := member
  exact ⟨seen, member, (moments 3 seen member).1⟩

end PegMatcher
