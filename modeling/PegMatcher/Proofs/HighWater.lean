import Mathlib.Order.Bounds.Defs
import PegMatcher.Engine.Primitive

/-! # The high-water mark of the cursor

In a plain pass the furthest offset is the greatest one that the cursor has occupied, whatever the script does: go
forward or back, return to its marks, jump to where it has been, and report mismatches, also when a return moves the
cursor and then fails on the values. In a diagnostic pass the furthest offset is frozen, and what changes is the
number of mismatches that were reported at it.

`exists_effect` says once what a primitive of such a script does to the offset and to the tracker. From it follow
the steps of both kinds of passes, and from these, by induction along the script, what holds behind every step.
-/

namespace PegMatcher

variable {σ : Type}

def State.startPlain (state : State σ) : State σ :=
  { state with offset := 0, values := .empty, tracker := state.tracker.forget.beginPass none }

/-- The state in which a diagnostic pass with an index starts, from wherever the cursor is. -/
def State.startDiagnosis (state : State σ) (index : Int) : State σ :=
  { state with tracker := state.tracker.beginPass (some index) }

namespace Primitive

def isMismatch : Primitive → Bool
  | mismatch => true
  | _ => false

/-- The primitives that matchers are made of: they move the cursor, work on the values and report mismatches. -/
def tracked : Primitive → Bool
  | advance => true
  | peek => true
  | offset => true
  | mark => true
  | reset _ => true
  | moveTo _ => true
  | moveBack => true
  | slice _ => true
  | mismatch => true
  | push _ => true
  | pop => true
  | popMany _ => true
  | _ => false

/-- Whether a primitive, if it returns to a mark or jumps to an offset, does so to a mark that was taken or to an
offset that was occupied. -/
def admitted (marks : List Mark) (occupied : List Int) : Primitive → Bool
  | reset index => index < marks.length
  | moveTo target => target ∈ occupied
  | primitive => primitive.tracked

/-- Whether all primitives of a script are admitted where they are performed. -/
def admissible (context : Context) : List Primitive → List Mark → List Int → State σ → Bool
  | [], _, _, _ => true
  | primitive :: rest, marks, occupied, state =>
    primitive.admitted marks occupied &&
      match (primitive.perform marks).run context state with
      | some (_, after) =>
        admissible context rest (marksAfter marks state primitive) (occupied ++ [after.offset]) after
      | none => true

/-- How many of the first steps of a script report a mismatch at an offset. -/
def hits (deepest : Nat) (script : List Primitive) (steps : List (Except Interrupt Value × State σ)) (count : Nat) :
    Nat :=
  ((script.zip steps).take count).countP fun (primitive, _, after) =>
    primitive.isMismatch && after.offset == deepest

end Primitive

namespace HighWater

open Primitive

def Quiet (outcome : Except Interrupt Value) : Prop :=
  ¬∃ path, outcome = .error (.abort path)

private theorem quiet_ok {value : Value} : Quiet (.ok value) := by
  rintro ⟨path, ⟨⟩⟩

private theorem quiet_fault {fault : Fault} : Quiet (.error (.fault fault)) := by
  rintro ⟨path, ⟨⟩⟩

/-- What a primitive does to the offset and to the tracker, and whether it raises a signal. -/
inductive Effect (context : Context) (marks : List Mark) (state after : State σ) (outcome : Except Interrupt Value) :
    Primitive → Prop
  | still {primitive : Primitive} : primitive.isMismatch = false → after.offset = state.offset →
      after.tracker = state.tracker → Quiet outcome →
      Effect context marks state after outcome primitive
  | advanced : state.offset < context.source.length → after.offset = state.offset + 1 →
      after.tracker = state.tracker.observe (state.offset + 1) → Quiet outcome →
      Effect context marks state after outcome .advance
  | returned {index : Nat} {target : Mark} : marks[index]? = some target → after.offset = target.offset →
      after.tracker = state.tracker → Quiet outcome →
      Effect context marks state after outcome (.reset index)
  | moved {target : Int} : after.offset = target → after.tracker = state.tracker →
      Quiet outcome → Effect context marks state after outcome (.moveTo target)
  | back : after.offset = max 0 (state.offset - 1) → after.tracker = state.tracker →
      Quiet outcome → Effect context marks state after outcome .moveBack
  | reported : after.offset = state.offset → after.tracker = (state.tracker.register state.offset).2 →
      ((∃ path, outcome = .error (.abort path)) ↔ (state.tracker.register state.offset).1 = true) →
      Effect context marks state after outcome .mismatch

private theorem exists_effect (context : Context) (marks : List Mark) (state : State σ) {primitive : Primitive}
    (kind : primitive.tracked) :
    ∃ outcome after, (primitive.perform marks).run context state = some (outcome, after) ∧
      Effect context marks state after outcome primitive := by
  cases primitive with
  | advance =>
    simp only [perform, Functor.map, Engine.bind, Engine.advance]
    by_cases inside : state.offset < context.source.length
    · simp only [inside, ↓reduceIte]
      rcases context.source.charAt state.offset with fault | c
      · exact ⟨_, _, rfl, .still rfl rfl rfl quiet_fault⟩
      · exact ⟨_, _, rfl, .advanced inside rfl rfl quiet_ok⟩
    · simp only [inside, ↓reduceIte]
      exact ⟨_, _, rfl, .still rfl rfl rfl quiet_ok⟩
  | peek =>
    simp only [perform, Functor.map, Engine.bind, Engine.peek]
    by_cases inside : state.offset < context.source.length
    · simp only [inside, ↓reduceIte]
      rcases context.source.charAt state.offset with fault | c
      · exact ⟨_, _, rfl, .still rfl rfl rfl quiet_fault⟩
      · exact ⟨_, _, rfl, .still rfl rfl rfl quiet_ok⟩
    · simp only [inside, ↓reduceIte]
      exact ⟨_, _, rfl, .still rfl rfl rfl quiet_ok⟩
  | reset index =>
    simp only [perform]
    rcases found : marks[index]? with _ | target
    · exact ⟨_, _, rfl, .still rfl rfl rfl quiet_fault⟩
    · change ∃ outcome after, (Machine.reset target >>= fun _ => pure Value.null : Engine σ Value).run context state =
        some (outcome, after) ∧ _
      simp only [Engine.run_bind, Engine.run_reset]
      by_cases short : state.values.depth < target.depth
      · simp only [short, ↓reduceIte]
        exact ⟨_, _, rfl, .returned found rfl rfl quiet_fault⟩
      · simp only [short, ↓reduceIte]
        exact ⟨_, _, rfl, .returned found rfl rfl quiet_ok⟩
  | mismatch =>
    change ∃ outcome after, (Engine.registerAt state.offset >>= fun _ => pure Value.null : Engine σ Value).run context
      state = some (outcome, after) ∧ _
    simp only [Engine.run_bind, Engine.registerAt]
    rcases aborts : (state.tracker.register state.offset).1 with _ | _
    · exact ⟨_, _, rfl, .reported rfl rfl (by simp [aborts])⟩
    · exact ⟨_, _, rfl, .reported rfl rfl (by simp [aborts])⟩
  | pop =>
    simp only [perform, Engine.pop]
    rcases state.values.top? with _ | value
    · exact ⟨_, _, rfl, .still rfl rfl rfl quiet_fault⟩
    · exact ⟨_, _, rfl, .still rfl rfl rfl quiet_ok⟩
  | popMany count =>
    simp only [perform, Functor.map, Engine.bind, Engine.popMany]
    rcases state.values.remaining count with fault | kept
    · exact ⟨_, _, rfl, .still rfl rfl rfl quiet_fault⟩
    · exact ⟨_, _, rfl, .still rfl rfl rfl quiet_ok⟩
  | offset => exact ⟨_, _, rfl, .still rfl rfl rfl quiet_ok⟩
  | mark => exact ⟨_, _, rfl, .still rfl rfl rfl quiet_ok⟩
  | slice start => exact ⟨_, _, rfl, .still rfl rfl rfl quiet_ok⟩
  | push value => exact ⟨_, _, rfl, .still rfl rfl rfl quiet_ok⟩
  | moveTo target => exact ⟨_, _, rfl, .moved rfl rfl quiet_ok⟩
  | moveBack => exact ⟨_, _, rfl, .back rfl rfl quiet_ok⟩
  | _ => cases kind

/-- A script goes on behind each of its primitives, however that one has ended. -/
theorem trace_cons (context : Context) (marks : List Mark) (state : State σ) {primitive : Primitive}
    (kind : primitive.tracked) (rest : List Primitive) :
    ∃ outcome after, (primitive.perform marks).run context state = some (outcome, after) ∧
      Effect context marks state after outcome primitive ∧
      trace context (primitive :: rest) marks state =
        (outcome, after) :: trace context rest (marksAfter marks state primitive) after := by
  obtain ⟨outcome, after, ran, effect⟩ := exists_effect context marks state kind
  exact ⟨outcome, after, ran, effect, by rw [trace, ran]⟩

theorem length_trace (context : Context) {script : List Primitive} (kinds : ∀ primitive ∈ script, primitive.tracked)
    (marks : List Mark) (state : State σ) : (trace context script marks state).length = script.length := by
  induction script generalizing marks state with
  | nil => rfl
  | cons primitive rest ih =>
    rw [List.forall_mem_cons] at kinds
    obtain ⟨outcome, after, _, _, traced⟩ := trace_cons context marks state kinds.1 rest
    rw [traced, List.length_cons, List.length_cons, ih kinds.2]

private theorem tracked_of_admitted {marks : List Mark} {occupied : List Int} {primitive : Primitive}
    (admits : primitive.admitted marks occupied) : primitive.tracked := by
  cases primitive <;> first | rfl | exact admits

/-- The first primitive of an admissible script, and the script behind it. -/
theorem admissible_cons {context : Context} {primitive : Primitive} {rest : List Primitive} {marks : List Mark}
    {occupied : List Int} {state : State σ}
    (admits : admissible context (primitive :: rest) marks occupied state) :
    primitive.admitted marks occupied ∧ ∃ outcome after, Effect context marks state after outcome primitive ∧
      trace context (primitive :: rest) marks state =
        (outcome, after) :: trace context rest (marksAfter marks state primitive) after ∧
      admissible context rest (marksAfter marks state primitive) (occupied ++ [after.offset]) after := by
  rw [admissible, Bool.and_eq_true] at admits
  obtain ⟨outcome, after, ran, effect, traced⟩ :=
    trace_cons context marks state (tracked_of_admitted admits.1) rest
  rw [ran] at admits
  exact ⟨admits.1, outcome, after, effect, traced, admits.2⟩

private theorem tracked_of_admissible {context : Context} {script : List Primitive} {marks : List Mark}
    {occupied : List Int} {state : State σ} (admits : admissible context script marks occupied state) :
    ∀ primitive ∈ script, primitive.tracked := by
  induction script generalizing marks occupied state with
  | nil => exact nofun
  | cons primitive rest ih =>
    obtain ⟨first, _, _, _, _, further⟩ := admissible_cons admits
    exact List.forall_mem_cons.mpr ⟨tracked_of_admitted first, ih further⟩

/-- A state of a plain pass in which the cursor has occupied some offsets, all of them in the text, some of which
were marked, and the furthest of which is the tracker's. -/
structure Underway (context : Context) (marks : List Mark) (occupied : List Int) (state : State σ) : Prop where
  plain : state.tracker.collecting = none
  here : state.offset ∈ occupied
  inside : ∀ offset ∈ occupied, 0 ≤ offset ∧ offset ≤ context.source.length
  marked : ∀ mark ∈ marks, mark.offset ∈ occupied
  furthest : IsGreatest {offset | offset ∈ occupied} (state.tracker.deepest : Int)

section Underway

variable {context : Context} {marks : List Mark} {occupied : List Int} {state after : State σ}

theorem Underway.le_deepest (underway : Underway context marks occupied state) {offset : Int}
    (known : offset ∈ occupied) : offset ≤ state.tracker.deepest :=
  underway.furthest.2 known

private theorem observe_of_plain {tracker : Tracker} (plain : tracker.collecting = none) (offset : Int) :
    tracker.observe offset = { tracker with deepest := max tracker.deepest offset.toNat } := by
  rw [Tracker.observe, plain]

private theorem register_of_plain {tracker : Tracker} (plain : tracker.collecting = none) (offset : Int) :
    tracker.register offset = (false, tracker.observe offset) := by
  rw [Tracker.register, plain]

/-- The cursor has come to an offset in the text, and the tracker has taken note of it. -/
theorem Underway.extend (underway : Underway context marks occupied state)
    (plain : after.tracker.collecting = none) (start : 0 ≤ after.offset) (inside : after.offset ≤ context.source.length)
    (deepest : after.tracker.deepest = max state.tracker.deepest after.offset.toNat) (primitive : Primitive) :
    Underway context (marksAfter marks state primitive) (occupied ++ [after.offset]) after where
  plain := plain
  here := List.mem_append_right _ (List.mem_singleton_self _)
  inside := by
    intro offset member
    rcases List.mem_append.mp member with old | new
    · exact underway.inside offset old
    · rw [List.mem_singleton.mp new]
      exact ⟨start, inside⟩
  marked := by
    have known : ∀ mark ∈ marksAfter marks state primitive, mark.offset ∈ occupied := by
      cases primitive with
      | mark =>
        rw [marksAfter, List.forall_mem_append, List.forall_mem_singleton]
        exact ⟨underway.marked, underway.here⟩
      | _ => exact underway.marked
    exact fun mark member => List.mem_append_left _ (known mark member)
  furthest := by
    constructor
    · by_cases further : state.tracker.deepest ≤ after.offset.toNat
      · have top : (after.tracker.deepest : Int) = after.offset := by omega
        exact List.mem_append_right _ (List.mem_singleton.mpr top)
      · have top : after.tracker.deepest = state.tracker.deepest := by omega
        rw [top]
        exact List.mem_append_left _ underway.furthest.1
    · intro offset member
      rcases List.mem_append.mp member with old | new
      · have bound := underway.le_deepest old
        omega
      · rw [List.mem_singleton.mp new]
        omega

/-- A move to an offset that is not beyond the furthest one leaves the tracker alone. -/
theorem Underway.extend_still (underway : Underway context marks occupied state) (start : 0 ≤ after.offset)
    (behind : after.offset ≤ state.tracker.deepest) (same : after.tracker = state.tracker) (primitive : Primitive) :
    Underway context (marksAfter marks state primitive) (occupied ++ [after.offset]) after := by
  have inside := (underway.inside _ underway.furthest.1).2
  apply underway.extend
  · rw [same]
    exact underway.plain
  · exact start
  · omega
  · rw [same]
    omega

theorem Effect.underway {outcome : Except Interrupt Value} {primitive : Primitive}
    (effect : Effect context marks state after outcome primitive) (admits : primitive.admitted marks occupied)
    (underway : Underway context marks occupied state) :
    Underway context (marksAfter marks state primitive) (occupied ++ [after.offset]) after := by
  have start := (underway.inside _ underway.here).1
  have behind := underway.le_deepest underway.here
  cases effect with
  | still _ unmoved same _ => exact underway.extend_still (by omega) (by omega) same _
  | advanced inside forward noted _ =>
    rw [observe_of_plain underway.plain] at noted
    apply underway.extend
    · rw [noted]
      exact underway.plain
    · omega
    · omega
    · rw [noted, forward]
  -- A return that fails on the values has moved the cursor all the same, to an offset that was marked.
  | returned found there same _ =>
    have known := underway.marked _ (List.mem_of_getElem? found)
    have bounds := underway.inside _ known
    have bound := underway.le_deepest known
    exact underway.extend_still (by omega) (by omega) same _
  | moved there same _ =>
    have known : after.offset ∈ occupied := there ▸ of_decide_eq_true admits
    exact underway.extend_still (underway.inside _ known).1 (underway.le_deepest known) same _
  | back there same _ => exact underway.extend_still (by omega) (by omega) same _
  | reported unmoved noted _ =>
    rw [register_of_plain underway.plain, observe_of_plain underway.plain] at noted
    have inside := underway.inside _ underway.here
    apply underway.extend
    · rw [noted]
      exact underway.plain
    · omega
    · omega
    · rw [noted, unmoved]

/-- Behind every step of an admissible script, the furthest offset is the greatest that was occupied. -/
theorem underway_trace {script : List Primitive} (admits : admissible context script marks occupied state)
    (underway : Underway context marks occupied state) {index : Nat} {outcome : Except Interrupt Value}
    (step : (trace context script marks state)[index]? = some (outcome, after)) :
    ∃ marks', Underway context marks'
      (occupied ++ ((trace context script marks state).take (index + 1)).map (·.2.offset)) after := by
  induction script generalizing marks occupied state index with
  | nil => cases step
  | cons primitive rest ih =>
    obtain ⟨first, outcome', next, effect, traced, further⟩ := admissible_cons admits
    have underway' := effect.underway first underway
    rw [traced] at step ⊢
    rcases index with _ | index
    · cases step
      exact ⟨_, underway'⟩
    · obtain ⟨marks', reached⟩ := ih further underway' step
      rw [List.append_assoc] at reached
      exact ⟨marks', reached⟩

end Underway

section Diagnosing

variable {context : Context} {marks : List Mark} {deepest seen : Nat} {limit : Int} {state after : State σ}
  {outcome : Except Interrupt Value}

/-- One step of a diagnostic pass: only a mismatch at the frozen offset is counted, and it raises the signal if as
many as the pass lets go by have been counted before. -/
theorem Effect.diagnosed {primitive : Primitive} (effect : Effect context marks state after outcome primitive)
    (tracker : state.tracker = ⟨deepest, some limit, seen⟩) :
    after.tracker =
        ⟨deepest, some limit, seen + if primitive.isMismatch && after.offset == deepest then 1 else 0⟩ ∧
      ((∃ path, outcome = .error (.abort path)) ↔
        primitive.isMismatch = true ∧ after.offset = deepest ∧ limit ≤ seen) := by
  have unraised (silent : Quiet outcome) : ¬∃ path, outcome = .error (.abort path) := silent
  cases effect with
  | still other _ same silent => simp [unraised silent, other, same, tracker]
  | advanced _ _ same silent => simp [unraised silent, isMismatch, same, tracker, Tracker.observe]
  | returned _ _ same silent => simp [unraised silent, isMismatch, same, tracker]
  | moved _ same silent => simp [unraised silent, isMismatch, same, tracker]
  | back _ same silent => simp [unraised silent, isMismatch, same, tracker]
  | reported unmoved noted raises =>
    rw [raises, noted, tracker, unmoved]
    by_cases here : state.offset = deepest
    · have counted : limit < (seen + 1 : Nat) ↔ limit ≤ seen := by omega
      simp only [Tracker.register, isMismatch, here, counted, beq_self_eq_true, Bool.and_self, ↓reduceIte,
        decide_eq_true_eq, true_and, and_self]
    · simp [Tracker.register, isMismatch, here]

private theorem hits_cons (primitive : Primitive) (rest : List Primitive)
    (steps : List (Except Interrupt Value × State σ)) (count : Nat) :
    hits deepest (primitive :: rest) ((outcome, after) :: steps) (count + 1) =
      (if primitive.isMismatch && after.offset == deepest then 1 else 0) + hits deepest rest steps count := by
  rw [hits, List.zip_cons_cons, List.take_succ_cons, List.countP_cons, Nat.add_comm]
  rfl

/-- Behind every step of a script in a diagnostic pass, the mismatches at the frozen offset have been counted. -/
theorem diagnosed_trace {script : List Primitive} (kinds : ∀ primitive ∈ script, primitive.tracked)
    (tracker : state.tracker = ⟨deepest, some limit, seen⟩) {index : Nat}
    (step : (trace context script marks state)[index]? = some (outcome, after)) :
    after.tracker =
        ⟨deepest, some limit, seen + hits deepest script (trace context script marks state) (index + 1)⟩ ∧
      ((∃ path, outcome = .error (.abort path)) ↔
        script[index]? = some .mismatch ∧ after.offset = deepest ∧
          limit ≤ (seen + hits deepest script (trace context script marks state) index : Nat)) := by
  induction script generalizing marks state seen index with
  | nil => cases step
  | cons primitive rest ih =>
    rw [List.forall_mem_cons] at kinds
    obtain ⟨outcome', next, _, effect, traced⟩ := trace_cons context marks state kinds.1 rest
    obtain ⟨tracker', raises⟩ := effect.diagnosed tracker
    rw [traced] at step ⊢
    rcases index with _ | index
    · cases step
      rw [hits_cons]
      constructor
      · exact tracker'
      · rw [raises]
        cases primitive <;> simp [isMismatch, hits]
    · obtain ⟨reached, raises'⟩ := ih kinds.2 tracker' step
      rw [hits_cons, hits_cons, List.getElem?_cons_succ, ← Nat.add_assoc, ← Nat.add_assoc]
      exact ⟨reached, raises'⟩

end Diagnosing

end HighWater

/-- The furthest offset is the furthest point reached, and it is frozen while diagnosing. A script is performed to
its end, whether its steps succeed or not. In a plain pass from the start of the text, the furthest offset is behind
every step the greatest of the offsets that the cursor has occupied; so it never decreases, and never lies behind the
end of the text. In a diagnostic pass over the same script it stays what it was, the mismatches that were reported
there are counted, and the signal is raised by those in front of which there are as many as the index of the pass. -/
theorem deepest_is_furthest_reached {context : Context} {state : State σ} {script : List Primitive}
    (admits : Primitive.admissible context script [] [0] state.startPlain) :
    let steps := Primitive.trace context script [] state.startPlain
    steps.length = script.length ∧
    (∀ index outcome after, steps[index]? = some (outcome, after) →
      IsGreatest {offset | offset ∈ 0 :: (steps.take (index + 1)).map (·.2.offset)} (after.tracker.deepest : Int) ∧
      after.tracker.deepest ≤ context.source.length ∧
      ∀ earlier outcome' before, earlier ≤ index → steps[earlier]? = some (outcome', before) →
        before.tracker.deepest ≤ after.tracker.deepest) ∧
    ∀ (other : State σ) (limit : Int),
      let deepest := other.tracker.deepest
      let diagnosed := Primitive.trace context script [] (other.startDiagnosis limit)
      diagnosed.length = script.length ∧
      ∀ index outcome after, diagnosed[index]? = some (outcome, after) →
        after.tracker.deepest = deepest ∧
        after.tracker.seen = Primitive.hits deepest script diagnosed (index + 1) ∧
        ((∃ path, outcome = .error (.abort path)) ↔
          script[index]? = some .mismatch ∧ after.offset = (deepest : Int) ∧
            limit ≤ Primitive.hits deepest script diagnosed index) := by
  intro steps
  have kinds := HighWater.tracked_of_admissible admits
  have start : HighWater.Underway context [] [0] state.startPlain :=
    { plain := rfl
      here := List.mem_singleton_self _
      inside := List.forall_mem_singleton.mpr ⟨Int.le_refl 0, Int.natCast_nonneg _⟩
      marked := nofun
      furthest := ⟨List.mem_singleton_self _, fun _ member => Int.le_of_eq (List.mem_singleton.mp member)⟩ }
  constructor
  · exact HighWater.length_trace context kinds [] _
  constructor
  · intro index outcome after step
    obtain ⟨_, underway⟩ := HighWater.underway_trace admits start step
    refine ⟨underway.furthest, ?_, ?_⟩
    · have inside := (underway.inside _ underway.furthest.1).2
      omega
    · intro earlier outcome' before le step'
      obtain ⟨_, underway'⟩ := HighWater.underway_trace admits start step'
      have longer := List.take_prefix_take_left (by omega : earlier + 1 ≤ index + 1) (l := steps)
      rcases List.mem_cons.mp underway'.furthest.1 with none | occupied
      · omega
      · have reached := underway.le_deepest (List.mem_cons_of_mem 0 ((longer.map _).subset occupied))
        omega
  · intro other limit deepest diagnosed
    constructor
    · exact HighWater.length_trace context kinds [] _
    · intro index outcome after step
      obtain ⟨tracker, raises⟩ :=
        HighWater.diagnosed_trace kinds (rfl : (other.startDiagnosis limit).tracker = ⟨deepest, some limit, 0⟩) step
      rw [Nat.zero_add] at tracker raises
      exact ⟨by rw [tracker], by rw [tracker], raises⟩

/-- Takes a mark above a value that is popped before the return to it, which moves the cursor and then fails. -/
def failingReturn : List Primitive :=
  [.push .null, .mark, .pop, .advance, .reset 0, .moveTo 1, .mismatch]

/-- The return that fails has left the furthest offset where it was, and the mismatch there is the first one that a
diagnostic pass does not let go by. -/
theorem deepest_of_failingReturn :
    let context : Context := ⟨Source.ofString "ab", 5, 5⟩
    let state : State Unit := { memory := () }
    (∃ after, (Primitive.trace context failingReturn [] state.startPlain)[4]? =
        some (.error (.fault (.invalidMark 1 0)), after) ∧ after.offset = 0 ∧
      IsGreatest {offset | offset ∈ [0, 0, 0, 0, 1, 0]} (after.tracker.deepest : Int)) ∧
    ∃ path after, (Primitive.trace context failingReturn []
        ({ state with tracker := { deepest := 1 } }.startDiagnosis 0))[6]? = some (.error (.abort path), after) ∧
      after.tracker.seen = 1 := by
  intro context state
  have admits : Primitive.admissible context failingReturn [] [0] state.startPlain := rfl
  obtain ⟨_, reached, frozen⟩ := deepest_is_furthest_reached admits
  constructor
  · exact ⟨_, rfl, rfl, (reached 4 _ _ rfl).1⟩
  · exact ⟨_, _, rfl, ((frozen { state with tracker := { deepest := 1 } } 0).2 6 _ _ rfl).2.1⟩

end PegMatcher
