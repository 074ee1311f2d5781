import PegMatcher.Engine.Primitive
import PegMatcher.Fault.Family
import PegMatcher.Proofs.Checkpoints
import PegMatcher.Proofs.Termination

/-! # Returning to a mark

A mark keeps the depth of the value stack and not the values. It is good for a return all the same, after any script
of primitives and any number of times, as long as the stack was never shorter than at the mark: every primitive
leaves a stack that continues the one before it or is continued by it, so what lies below the lowest depth since the
mark is what lay there when the mark was taken.

`stepping_perform` says this of a single primitive, `settled_trace` of a script.
-/

namespace PegMatcher

variable {σ : Type}

/-- The state behind the last of some steps that began in a state. -/
def Primitive.stateBehind (state : State σ) (steps : List (Except Interrupt Value × State σ)) : State σ :=
  steps.foldl (fun _ (_, after) => after) state

namespace RoundTrip

open Primitive Termination

/-- An operation that always has an outcome, and leaves a stack adjacent to the one it finds. -/
structure Stepping {α : Type} (operation : Engine σ α) : Prop where
  total : Total operation
  linked : Linked operation

section Operations

variable {α β : Type}

private theorem stepping_observe (view : Context → State σ → α) : Stepping (Engine.observe view) :=
  ⟨fun _ _ => ⟨_, rfl⟩, linked_observe view⟩

private theorem stepping_modify {change : State σ → State σ}
    (keeps : ∀ state, Adjacent state.values (change state).values) : Stepping (Engine.modify change) :=
  ⟨fun _ _ => ⟨_, rfl⟩, linked_modify keeps⟩

private theorem stepping_raise (interrupt : Interrupt) : Stepping (Engine.raise interrupt : Engine σ α) := by
  refine ⟨fun _ _ => ⟨_, rfl⟩, ?_⟩
  intro context state outcome after ran
  cases ran
  exact adjacent_refl _

/-- What an operation returns may be looked at in any way that leaves the state alone. -/
theorem Stepping.andThen {operation : Engine σ α} (stepping : Stepping operation) {next : α → Engine σ β}
    (still : ∀ result context state, ∃ outcome, (next result).run context state = some (outcome, state)) :
    Stepping (operation >>= next) := by
  constructor
  · refine total_bind stepping.total fun result context state => ?_
    obtain ⟨outcome, ran⟩ := still result context state
    exact ⟨_, ran⟩
  · intro context state outcome after ran
    rw [Engine.run_bind] at ran
    split at ran
    · cases ran
    · rename_i result middle began
      obtain ⟨outcome', same⟩ := still result context middle
      cases same.symm.trans ran
      exact stepping.linked context began
    · rename_i interrupt middle began
      cases ran
      exact stepping.linked context began

theorem Stepping.map {operation : Engine σ α} (stepping : Stepping operation) (view : α → β) :
    Stepping (view <$> operation) :=
  stepping.andThen fun _ _ _ => ⟨_, rfl⟩

private theorem stepping_registerAt (position : Int) : Stepping (Engine.registerAt position : Engine σ Unit) := by
  constructor
  · intro context state
    simp only [Terminates, Engine.registerAt]
    split <;> exact ⟨_, rfl⟩
  · intro context state outcome after ran
    simp only [Engine.registerAt] at ran
    split at ran <;> cases ran <;> exact adjacent_refl _

private theorem stepping_truncate (depth : Int) : Stepping (Engine.truncate depth : Engine σ Unit) := by
  constructor
  · intro context state
    simp only [Terminates, Engine.truncate]
    split <;> exact ⟨_, rfl⟩
  · intro context state outcome after ran
    simp only [Engine.truncate] at ran
    split at ran <;> cases ran
    · exact adjacent_take _ _
    · exact adjacent_refl _

private theorem stepping_pop : Stepping (Engine.pop : Engine σ Value) := by
  constructor
  · intro context state
    simp only [Terminates, Engine.pop]
    split <;> exact ⟨_, rfl⟩
  · intro context state outcome after ran
    simp only [Engine.pop] at ran
    split at ran <;> cases ran
    · refine .inr ?_
      rw [ValueStack.toList_below]
      exact List.dropLast_prefix _
    · exact adjacent_refl _

private theorem stepping_top : Stepping (Engine.top : Engine σ Value) := by
  constructor
  · intro context state
    simp only [Terminates, Engine.top]
    split <;> exact ⟨_, rfl⟩
  · intro context state outcome after ran
    simp only [Engine.top] at ran
    split at ran <;> cases ran <;> exact adjacent_refl _

private theorem stepping_finalize (shape : Shape) : Stepping (Engine.finalize shape : Engine σ Value) := by
  constructor
  · intro context state
    simp only [Terminates, Engine.finalize]
    split <;> exact ⟨_, rfl⟩
  · intro context state outcome after ran
    simp only [Engine.finalize] at ran
    split at ran <;> cases ran <;> exact adjacent_refl _

private theorem stepping_enter : Stepping (Engine.enter : Engine σ Unit) := by
  refine ⟨fun context state => ?_, linked_enter⟩
  simp only [Terminates, Engine.enter]
  split <;> exact ⟨_, rfl⟩

/-- Every stack continues the empty one. -/
theorem adjacent_empty (stack : ValueStack) : Adjacent stack .empty :=
  .inr List.nil_prefix

end Operations

/-- Every primitive is a step. -/
theorem stepping_perform (marks : List Mark) (primitive : Primitive) :
    Stepping (primitive.perform marks : Engine σ Value) := by
  have silent {operation : Engine σ Unit} (stepping : Stepping operation) :
      Stepping (operation >>= fun _ => pure Value.null) := stepping.andThen fun _ _ _ => ⟨_, rfl⟩
  cases primitive with
  | advance => exact Stepping.map ⟨total_advance, linked_advance⟩ _
  | peek => exact Stepping.map ⟨total_peek, linked_peek⟩ _
  | atEnd | offset | mark | slice | isCollecting => exact (stepping_observe _).map _
  | length | stackDepth | values => exact stepping_observe _
  | reset index =>
    simp only [perform]
    cases marks[index]? with
    | none => exact silent (stepping_raise _)
    | some target => exact silent ⟨total_reset target, linked_reset target⟩
  | mismatch => exact silent ⟨total_mismatch, linked_mismatch⟩
  | restart | clear => exact silent (stepping_modify fun _ => adjacent_empty _)
  | push value => exact silent (stepping_modify fun _ => adjacent_push _ value)
  | moveTo | moveBack | beginPass | forgetProgress | observe | resetDepth =>
    exact silent (stepping_modify fun _ => adjacent_refl _)
  | pop => exact stepping_pop
  | popMany count => exact Stepping.map ⟨total_popMany count, linked_popMany count⟩ _
  | top => exact stepping_top
  | truncate depth => exact silent (stepping_truncate depth)
  | finalize shape => exact stepping_finalize shape
  | register position => exact silent (stepping_registerAt position)
  | raise interrupt => exact stepping_raise interrupt
  | enter => exact stepping_enter.andThen fun _ _ _ => ⟨_, rfl⟩
  | leave =>
    have stepping : Stepping (Engine.leave : Engine σ Unit) := stepping_modify fun _ => adjacent_refl _
    exact stepping.andThen fun _ _ _ => ⟨_, rfl⟩

section Scripts

variable {context : Context} {marks : List Mark} {state : State σ}

/-- A script goes on behind each of its primitives, however that one has ended. -/
theorem trace_cons (context : Context) (marks : List Mark) (state : State σ) (primitive : Primitive) :
    ∃ outcome after, (primitive.perform marks).run context state = some (outcome, after) ∧
      ∀ rest, trace context (primitive :: rest) marks state =
        (outcome, after) :: trace context rest (marksAfter marks state primitive) after := by
  obtain ⟨⟨outcome, after⟩, ran⟩ := (stepping_perform marks primitive).total context state
  exact ⟨outcome, after, ran, fun rest => by rw [trace, ran]⟩

theorem length_trace (context : Context) (script : List Primitive) (marks : List Mark) (state : State σ) :
    (trace context script marks state).length = script.length := by
  induction script generalizing marks state with
  | nil => rfl
  | cons primitive rest ih =>
    obtain ⟨outcome, after, _, traced⟩ := trace_cons context marks state primitive
    rw [traced, List.length_cons, List.length_cons, ih]

/-- A script in two parts: the second one finds the marks of the first, behind those that there were. -/
theorem trace_append (context : Context) (script : List Primitive) (marks : List Mark) (state : State σ) :
    ∃ newer, ∀ more, trace context (script ++ more) marks state =
      trace context script marks state ++
        trace context more (marks ++ newer) (stateBehind state (trace context script marks state)) := by
  induction script generalizing marks state with
  | nil => exact ⟨[], fun more => by rw [List.append_nil]; rfl⟩
  | cons primitive rest ih =>
    obtain ⟨outcome, after, _, traced⟩ := trace_cons context marks state primitive
    obtain ⟨newer, split⟩ := ih (marksAfter marks state primitive) after
    have added : ∃ taken, marksAfter marks state primitive = marks ++ taken := by
      cases primitive with
      | mark => exact ⟨_, rfl⟩
      | _ => exact ⟨[], (List.append_nil _).symm⟩
    obtain ⟨taken, same⟩ := added
    refine ⟨taken ++ newer, fun more => ?_⟩
    rw [List.cons_append, traced, traced, split, same, List.append_assoc]
    rfl

/-- Behind a script, the stack has every value that no stack since some moment was too short for. -/
theorem settled_trace (context : Context) (marks : List Mark) (script : List Primitive) {passed : List ValueStack}
    (settled : Settled passed state.values) :
    Settled (passed ++ (trace context script marks state).map (·.2.values))
      (stateBehind state (trace context script marks state)).values := by
  induction script generalizing passed marks state with
  | nil =>
    rw [trace, List.map_nil, List.append_nil]
    exact settled
  | cons primitive rest ih =>
    obtain ⟨outcome, after, ran, traced⟩ := trace_cons context marks state primitive
    have next := settled.concat ((stepping_perform marks primitive).linked context ran)
    have further := ih (marksAfter marks state primitive) next
    rw [List.append_assoc] at further
    rw [traced]
    exact further

/-- Where the stack was never shorter than at the beginning, its lowest values are those of the beginning. -/
theorem take_stateBehind {script : List Primitive}
    (reached : ∀ step ∈ trace context script marks state, state.values.depth ≤ step.2.values.depth) :
    (stateBehind state (trace context script marks state)).values.take state.values.depth = state.values := by
  have start : Settled [state.values] state.values := (settled_nil _).concat (adjacent_refl _)
  have settled := settled_trace context marks script start
  rw [List.singleton_append] at settled
  rw [settled state.values _ (List.suffix_refl _) state.values.depth ?_, ValueStack.take_depth]
  rw [List.forall_mem_cons, List.forall_mem_map]
  exact ⟨Nat.le_refl _, reached⟩

end Scripts

section Returns

variable {context : Context} {marks : List Mark} {index : Nat} {origin state : State σ}

/-- A return to a mark, as a primitive. -/
theorem run_perform_reset {target : Mark} (found : marks[index]? = some target) (context : Context)
    (state : State σ) :
    ((Primitive.reset index).perform marks).run context state =
      if state.values.depth < target.depth then
        some (.error (.fault (.invalidMark target.depth state.values.depth)), { state with offset := target.offset })
      else some (.ok .null, { state with offset := target.offset, values := state.values.take target.depth }) := by
  simp only [perform, found]
  change (Machine.reset target >>= fun _ => pure Value.null : Engine σ Value).run context state = _
  rw [Engine.run_bind, Engine.run_reset]
  by_cases short : state.values.depth < target.depth
  · simp only [short, ↓reduceIte]
  · simp only [short, ↓reduceIte, Engine.run_pure]

/-- If the lowest values are those at the mark, a return leaves just them, and so does every further one. -/
theorem trace_replicate_reset (found : marks[index]? = some (Engine.markOf origin))
    (kept : state.values.take origin.values.depth = origin.values) (times : Nat) :
    trace context (List.replicate times (.reset index)) marks state =
      List.replicate times (.ok .null, { state with offset := origin.offset, values := origin.values }) := by
  induction times generalizing state with
  | zero => rfl
  | succ times ih =>
    have deep : ¬state.values.depth < origin.values.depth := by
      have depths := congrArg ValueStack.depth kept
      rw [ValueStack.depth_take] at depths
      omega
    have ran := run_perform_reset found context state
    rw [Engine.markOf, if_neg deep, kept] at ran
    rw [List.replicate_succ, List.replicate_succ, trace, ran]
    refine congrArg _ (ih ?_)
    exact origin.values.take_depth

end Returns

end RoundTrip

open RoundTrip

/-- A mark is good for a return after any script of primitives, whether its steps succeed or not: with the script
behind a mark that was taken in any state, in the company of any older marks, a return to it does one of three things.
If the stack was never shorter than at the mark, it restores the offset and the values at the mark, and does so any
number of times. If the stack is shorter now, it fails on an invalid mark and leaves the values as they are. In every
case it leaves the tracker alone. -/
theorem mark_round_trip (context : Context) (state : State σ) (older : List Mark) (script : List Primitive) :
    let mark := Engine.markOf state
    let marks := older ++ [mark]
    let steps := Primitive.trace context script marks state
    let last := Primitive.stateBehind state steps
    let reset := Primitive.reset older.length
    steps.length = script.length ∧
    ((∀ step ∈ steps, mark.depth ≤ step.2.values.depth) → ∀ times,
      Primitive.trace context (script ++ List.replicate times reset) marks state =
        steps ++ List.replicate times (.ok .null, { last with offset := state.offset, values := state.values })) ∧
    (last.values.depth < mark.depth → ∃ fault after,
      Primitive.trace context (script ++ [reset]) marks state = steps ++ [(.error (.fault fault), after)] ∧
      fault.family? = some .valueStack ∧ fault.diagnostic?.map (·.code) = some .invalidMark ∧
      after.values = last.values) ∧
    ∃ outcome after, Primitive.trace context (script ++ [reset]) marks state = steps ++ [(outcome, after)] ∧
      after.tracker = last.tracker := by
  intro mark marks steps last reset
  obtain ⟨newer, split⟩ := trace_append context script marks state
  have found : (marks ++ newer)[older.length]? = some mark := by simp [marks]
  have ran := run_perform_reset found context last
  have single {outcome : Except Interrupt Value} {after : State σ}
      (ended : (reset.perform (marks ++ newer)).run context last = some (outcome, after)) :
      Primitive.trace context (script ++ [reset]) marks state = steps ++ [(outcome, after)] := by
    rw [split, Primitive.trace, ended]
    rfl
  refine ⟨length_trace context script marks state, ?_, ?_, ?_⟩
  · intro reached times
    rw [split, trace_replicate_reset found (take_stateBehind reached)]
  · intro short
    rw [if_pos short] at ran
    exact ⟨_, _, single ran, rfl, rfl, rfl⟩
  · split at ran
    · exact ⟨_, _, single ran, rfl⟩
    · exact ⟨_, _, single ran, rfl⟩

/-- Leaves the text, fails to cut the stack back, pops all values but the lowest, takes a mark in front of the text
and returns to it. -/
def wandering : List Primitive :=
  [.push .null, .moveTo (-3), .advance, .truncate 7, .push .null, .popMany (-1), .mark, .mismatch, .reset 2]

/-- Two returns restore the one value that there was at the mark. A return to an older mark drops that value, and then
the mark is good for nothing any more. -/
theorem round_trip_of_wandering :
    let context : Context := ⟨Source.ofString "ab", 5, 5⟩
    let state : State Unit := { offset := 1, values := ⟨#[.bool true]⟩, memory := () }
    (∃ steps after, Primitive.trace context (wandering ++ [.reset 1, .reset 1]) [⟨0, 0⟩, ⟨1, 1⟩] state =
        steps ++ [(.ok .null, after), (.ok .null, after)] ∧ steps.length = 9 ∧ after.offset = 1 ∧
      after.values.toList = [.bool true]) ∧
    ∃ step fault after, Primitive.trace context [.reset 0, .reset 1] [⟨0, 0⟩, ⟨1, 1⟩] state =
        [step, (.error (.fault fault), after)] ∧ fault.family? = some .valueStack ∧ after.values.toList = [] := by
  intro context state
  constructor
  · obtain ⟨length, restores, _⟩ := mark_round_trip context state [⟨0, 0⟩] wandering
    exact ⟨_, _, restores (by decide +kernel) 2, length, rfl, rfl⟩
  · obtain ⟨_, _, fails, _⟩ := mark_round_trip context state [⟨0, 0⟩] [.reset 0]
    obtain ⟨fault, after, traced, family, _, values⟩ := fails (by decide +kernel)
    exact ⟨_, fault, after, traced, family, congrArg ValueStack.toList values⟩

end PegMatcher
