import PegMatcher.Proofs.Evaluation

/-! # Matching depends on the rest of the text only

A text in front of another one moves every offset and changes nothing else. `State.shift` moves the two offsets of a
state, the one of the cursor and the furthest one, and `Moment.shift` those of a moment. An operation of the engine
on the longer text, from the shifted state, is the shifted operation on the text alone, as long as the cursor is not
in front of that text: a negative offset would count from the end, which the two texts have in common, and not from
the start.

`displacing` is a simulation of the one evaluation by the other, with places and offsets that are shifted too, and
it keeps the records step by step. It holds in every pass, since a diagnostic pass compares offsets only with the
furthest one.
-/

namespace PegMatcher

variable {σ : Type}

def Source.append (front back : Source) : Source :=
  ⟨front.chars ++ back.chars⟩

namespace Source

variable (front back : Source)

@[simp] theorem toList_append : (front.append back).toList = front.toList ++ back.toList :=
  Array.toList_append

@[simp] theorem length_append : (front.append back).length = front.length + back.length :=
  Array.size_append

/-- Behind the first text, the characters are those of the second one. -/
theorem charAt_append {offset : Int} (start : 0 ≤ offset) (inside : offset < back.length) :
    (front.append back).charAt (offset + front.length) = back.charAt offset := by
  have index : offset.toNat < back.toList.length := by
    rw [length_toList]
    omega
  have later : (offset + front.length).toNat = front.toList.length + offset.toNat := by
    rw [length_toList]
    omega
  rw [charAt, charAt, char?_of_nonneg _ start, char?_of_nonneg _ (by omega), later, toList_append,
    List.getElem?_append_right (by omega), Nat.add_sub_cancel_left, List.getElem?_eq_getElem index]

private theorem slice_append {start stop : Int} (first : 0 ≤ start) (second : 0 ≤ stop) :
    (front.append back).slice (start + front.length) (stop + front.length) = back.slice start stop := by
  have later {offset : Int} (inside : 0 ≤ offset) :
      (offset + front.length).toNat = front.toList.length + offset.toNat := by
    rw [length_toList]
    omega
  rw [slice_of_nonneg _ first second, slice_of_nonneg _ (by omega) (by omega), later first, later second,
    toList_append, List.take_length_add_append, List.drop_length_add_append]

end Source

/-- A context with a text in front of its own. -/
def Context.behind (context : Context) (front : Source) : Context :=
  { context with source := front.append context.source }

def Tracker.shift (tracker : Tracker) (distance : Nat) : Tracker :=
  { tracker with deepest := tracker.deepest + distance }

def State.shift (state : State σ) (distance : Nat) : State σ :=
  { state with offset := state.offset + distance, tracker := state.tracker.shift distance }

def Moment.shift (distance : Nat) (moment : Moment σ) : Moment σ :=
  { moment with state := moment.state.shift distance }

/-- The mismatches of a record with its offsets moved have their offsets moved, and the same rules active. -/
theorem mismatches_shift (distance : Nat) (record : List (Moment σ)) :
    mismatches (record.map (Moment.shift distance)) =
      (mismatches record).map fun (offset, frames) => (offset + distance, frames) := by
  rw [mismatches, mismatches, List.filterMap_map, List.map_filterMap]
  congr 1
  funext moment
  rcases moment with ⟨step, active, state⟩
  cases step <;> rfl

namespace Shifting

variable {α β γ δ : Type} {front : Source}

/-- Two operations of which the second one does behind another text what the first one does without it. -/
def Follows (front : Source) (R : α → β → Prop) (first : Engine σ α) (second : Engine σ β) : Prop :=
  ∀ (context : Context) (state : State σ), 0 ≤ state.offset →
    ∃ outcome outcome' after, first.run context state = some (outcome, after) ∧
      second.run (context.behind front) (state.shift front.length) = some (outcome', after.shift front.length) ∧
      0 ≤ after.offset ∧ Outcomes R outcome outcome'

private theorem follows_observe {R : α → β → Prop} {view : Context → State σ → α} {view' : Context → State σ → β}
    (related : ∀ (context : Context) (state : State σ), 0 ≤ state.offset →
      R (view context state) (view' (context.behind front) (state.shift front.length))) :
    Follows front R (Engine.observe view) (Engine.observe view') :=
  fun context state start => ⟨_, _, state, rfl, rfl, start, .ok (related context state start)⟩

/-- The end of the text is as far away. -/
theorem lt_length_iff (context : Context) (state : State σ) :
    (state.shift front.length).offset < (context.behind front).source.length ↔
      state.offset < context.source.length := by
  simp only [State.shift, Context.behind, Source.length_append]
  omega

private theorem follows_atEnd : Follows front Eq (Engine.atEnd : Engine σ Bool) Engine.atEnd := by
  apply follows_observe
  intro context state _
  have inText := @lt_length_iff σ front context state
  exact decide_eq_decide.mpr (by omega)

private theorem follows_sliceFrom {start : Int} (inside : 0 ≤ start) :
    Follows front Eq (Engine.sliceFrom start : Engine σ String) (Engine.sliceFrom (start + front.length)) := by
  apply follows_observe
  intro context state inside'
  exact (Source.slice_append front context.source inside inside').symm

private theorem follows_peek : Follows front Eq (Engine.peek : Engine σ Char) Engine.peek := by
  intro context state start
  simp only [Engine.peek, lt_length_iff]
  by_cases inside : state.offset < context.source.length
  · have same := Source.charAt_append front context.source start inside
    simp only [inside, ↓reduceIte, State.shift, Context.behind, same]
    rcases context.source.charAt state.offset with fault | c
    · exact ⟨_, _, state, rfl, rfl, start, .error _⟩
    · exact ⟨_, _, state, rfl, rfl, start, .ok rfl⟩
  · simp only [inside, ↓reduceIte]
    exact ⟨_, _, state, rfl, rfl, start, .ok rfl⟩

private theorem observe_shift (tracker : Tracker) {offset : Int} (start : 0 ≤ offset) (distance : Nat) :
    (tracker.shift distance).observe (offset + distance) = (tracker.observe offset).shift distance := by
  simp only [Tracker.observe, Tracker.shift]
  split
  · simp only [Tracker.mk.injEq, and_true]
    omega
  · rfl

private theorem register_shift (tracker : Tracker) {offset : Int} (start : 0 ≤ offset) (distance : Nat) :
    (tracker.shift distance).register (offset + distance) =
      ((tracker.register offset).1, (tracker.register offset).2.shift distance) := by
  have observed := observe_shift tracker start distance
  rcases tracker with ⟨deepest, _ | index, seen⟩
  · exact congrArg (Prod.mk false) observed
  · have same : offset + (distance : Int) = (deepest + distance : Nat) ↔ offset = deepest := by omega
    simp only [Tracker.register, Tracker.shift, same]
    split <;> rfl

private theorem follows_advance : Follows front (fun _ _ => True) (Engine.advance : Engine σ Char) Engine.advance := by
  intro context state start
  simp only [Engine.advance, lt_length_iff]
  by_cases inside : state.offset < context.source.length
  · have same := Source.charAt_append front context.source start inside
    have further : state.offset + front.length + 1 = state.offset + 1 + front.length := by omega
    have next : 0 ≤ state.offset + 1 := by omega
    simp only [inside, ↓reduceIte, State.shift, Context.behind, same, further, observe_shift _ next]
    rcases context.source.charAt state.offset with fault | c
    · exact ⟨_, _, state, rfl, rfl, start, .error _⟩
    · exact ⟨_, .ok c, _, rfl, rfl, next, .ok trivial⟩
  · simp only [inside, ↓reduceIte]
    exact ⟨_, _, state, rfl, rfl, start, .ok trivial⟩

private theorem follows_moveTo {target : Int} (inside : 0 ≤ target) :
    Follows front (fun _ _ => True) (Engine.moveTo target : Engine σ Unit) (Engine.moveTo (target + front.length)) :=
  fun _ _ _ => ⟨_, _, _, rfl, rfl, inside, .ok trivial⟩

theorem follows_reset {target : Mark} (inside : 0 ≤ target.offset) :
    Follows front (fun _ _ => True) (Machine.reset target : Engine σ Unit)
      (Machine.reset (⟨target.offset + front.length, target.depth⟩ : Mark)) := by
  intro context state _
  rw [Engine.run_reset, Engine.run_reset]
  simp only [State.shift]
  by_cases short : state.values.depth < target.depth
  · simp only [short, ↓reduceIte]
    exact ⟨_, _, _, rfl, rfl, inside, .error _⟩
  · simp only [short, ↓reduceIte]
    exact ⟨_, _, _, rfl, rfl, inside, .ok trivial⟩

theorem follows_mismatch : Follows front (fun _ _ => True) (Engine.mismatch : Engine σ Unit) Engine.mismatch := by
  intro context state start
  have run (context : Context) (state : State σ) :
      Engine.mismatch.run context state = (Engine.registerAt state.offset).run context state := rfl
  rw [run, run]
  simp only [Engine.registerAt, State.shift, register_shift _ start]
  by_cases aborts : (state.tracker.register state.offset).1
  · simp only [aborts, ↓reduceIte]
    exact ⟨_, _, _, rfl, rfl, start, .error _⟩
  · simp only [aborts]
    exact ⟨_, _, _, rfl, rfl, start, .ok trivial⟩

private theorem follows_push (value : Value) :
    Follows front (fun _ _ => True) (Engine.push value : Engine σ Unit) (Engine.push value) :=
  fun _ _ start => ⟨_, _, _, rfl, rfl, start, .ok trivial⟩

private theorem follows_popMany (count : Int) :
    Follows front Eq (Engine.popMany count : Engine σ (List Value)) (Engine.popMany count) := by
  intro context state start
  simp only [Engine.popMany, State.shift]
  rcases state.values.remaining count with fault | kept
  · exact ⟨_, _, state, rfl, rfl, start, .error _⟩
  · exact ⟨_, _, _, rfl, rfl, start, .ok rfl⟩

private theorem follows_enter : Follows front Eq (Engine.enter : Engine σ Unit) Engine.enter := by
  intro context state start
  simp only [Engine.enter, State.shift, Context.behind]
  by_cases full : context.maxDepth ≤ state.depth
  · simp only [full, ↓reduceIte]
    exact ⟨_, _, state, rfl, rfl, start, .error _⟩
  · simp only [full, ↓reduceIte]
    exact ⟨_, _, _, rfl, rfl, start, .ok rfl⟩

/-- Two evaluations that have no outcome, or end alike with all offsets of the second one moved. -/
inductive Displaced (distance : Nat) (R : α → β → Prop) :
    Option (Except Interrupt α × State σ × List (Moment σ)) →
      Option (Except Interrupt β × State σ × List (Moment σ)) → Prop
  | none : Displaced distance R none none
  | some {outcome : Except Interrupt α} {outcome' : Except Interrupt β} {after after' : State σ}
      {record record' : List (Moment σ)} : Outcomes R outcome outcome' → 0 ≤ after.offset →
      after' = after.shift distance → record' = record.map (Moment.shift distance) →
      Displaced distance R (some (outcome, after, record)) (some (outcome', after', record'))

section Displaced

variable {distance : Nat} {context context' : Context} {active : List Frame} {past past' : List (Moment σ)}
  {state state' : State σ}

private theorem displaced_perform {R : α → β → Prop} (step : Step) {first : Engine σ α} {second : Engine σ β}
    (follows : Follows front R first second) (start : 0 ≤ state.offset) :
    Displaced front.length R
      ((Evaluation.perform step first : Evaluation .byDepth σ α).run context active past state)
      ((Evaluation.perform step second : Evaluation .byDepth σ β).run (context.behind front) active past'
        (state.shift front.length)) := by
  obtain ⟨outcome, outcome', after, ran, ran', inside, outcomes⟩ := follows context state start
  simp only [Evaluation.perform, ran, ran']
  exact .some outcomes inside rfl rfl

private theorem displaced_bind {R : α → β → Prop} {T : γ → δ → Prop} {x : Evaluation .byDepth σ α}
    {y : Evaluation .byDepth σ β} {f : α → Evaluation .byDepth σ γ} {g : β → Evaluation .byDepth σ δ}
    (head : Displaced distance R (x.run context active past state) (y.run context' active past' state'))
    (alike : past'.length = past.length)
    (tail : ∀ a b, R a b → ∀ later later' middle, later'.length = later.length → 0 ≤ middle.offset →
      Displaced distance T ((f a).run context active later middle)
        ((g b).run context' active later' (middle.shift distance))) :
    Displaced distance T ((x >>= f).run context active past state) ((y >>= g).run context' active past' state') := by
  change Displaced distance T ((Evaluation.bind x f).run context active past state)
    ((Evaluation.bind y g).run context' active past' state')
  simp only [Evaluation.bind]
  generalize x.run context active past state = ended at head ⊢
  generalize y.run context' active past' state' = ended' at head ⊢
  cases head with
  | none => exact .none
  | @some _ _ middle _ early _ outcomes inside shifted recorded =>
    cases outcomes with
    | error interrupt => exact .some (.error interrupt) inside shifted recorded
    | @ok a b related =>
      subst shifted recorded
      -- A place tells the number of moments in front of it, so the two pasts have to stay equally long.
      have rest := tail a b related (past ++ early) (past' ++ early.map (Moment.shift distance)) middle
        (by rw [List.length_append, List.length_append, List.length_map, alike]) inside
      dsimp only
      generalize (f a).run context active (past ++ early) middle = ended at rest ⊢
      generalize (g b).run context' active _ (middle.shift distance) = ended' at rest ⊢
      cases rest with
      | none => exact .none
      | some outcomes' inside' shifted' recorded' =>
        subst shifted' recorded'
        exact .some outcomes' inside' rfl List.map_append.symm

end Displaced

def Behind (distance : Nat) (place place' : Checkpoint) : Prop :=
  place' = { place with offset := place.offset + distance } ∧ 0 ≤ place.offset

/-- Matching behind another text is a simulation of matching without it. -/
def displacing (σ : Type) (front : Source) (context : Context) :
    ModularSimulation (Evaluation .byDepth σ) (Evaluation .byDepth σ) where
  Rel live R x y := (∀ p q, live p q → Behind front.length p q) →
    ∀ active (past past' : List (Moment σ)) (state : State σ), past'.length = past.length → 0 ≤ state.offset →
      Displaced front.length R (x.run context active past state)
        (y.run (context.behind front) active past' (state.shift front.length))
  Offsets a b := b = a + front.length ∧ 0 ≤ a
  offsets_eq_iff one two := by
    have first := one.1
    have second := two.1
    omega
  pure related := fun _ _ _ _ _ _ start => .some (.ok related) start rfl rfl
  bind head tail := fun places active past past' state alike start =>
    displaced_bind (head places active past past' state alike start) alike fun a b related =>
      tail a b related places active
  mark_bind tail := by
    intro places active past past' state alike start
    have marked : Displaced front.length (Behind front.length)
        ((Evaluation.mark : Evaluation .byDepth σ Checkpoint).run context active past state)
        ((Evaluation.mark : Evaluation .byDepth σ Checkpoint).run (context.behind front) active past'
          (state.shift front.length)) := by
      simp only [Evaluation.mark, alike]
      exact .some (.ok ⟨rfl, start⟩) start rfl rfl
    apply displaced_bind marked alike
    intro p q here later later' middle
    apply tail p q
    rintro p' q' (old | ⟨rfl, rfl⟩)
    · exact places p' q' old
    · exact here
  reset {_ p _} known := by
    intro places active past past' state _ start
    obtain ⟨rfl, inside⟩ := places _ _ known
    have reached : 0 ≤ p.toMark.offset := inside
    exact displaced_perform _ (follows_reset reached) start
  atEnd := fun _ _ _ _ _ _ start => displaced_perform _ follows_atEnd start
  peek := fun _ _ _ _ _ _ start => displaced_perform _ follows_peek start
  advance := fun _ _ _ _ _ _ start => displaced_perform _ follows_advance start
  offset := fun _ _ _ _ _ _ start =>
    displaced_perform _ (follows_observe fun _ _ start' => ⟨rfl, start'⟩) start
  moveTo := by
    rintro _ a _ ⟨rfl, inside⟩ _ active past past' state _ start
    exact displaced_perform _ (follows_moveTo inside) start
  sliceFrom := by
    rintro _ a _ ⟨rfl, inside⟩ _ active past past' state _ start
    exact displaced_perform _ (follows_sliceFrom inside) start
  mismatch := fun _ _ _ _ _ _ start => displaced_perform _ follows_mismatch start
  push value := fun _ _ _ _ _ _ start => displaced_perform _ (follows_push value) start
  popMany count := fun _ _ _ _ _ _ start => displaced_perform _ (follows_popMany count) start
  fail fault _ := fun _ _ _ _ _ _ start => .some (.error _) start rfl rfl
  anyFrame frame inner := by
    intro places active past past' state alike start
    have ended := inner places (active ++ [frame]) past past' state alike start
    change Displaced front.length _ ((Evaluation.framed frame _).run context active past state)
      ((Evaluation.framed frame _).run (context.behind front) active past' (state.shift front.length))
    simp only [Evaluation.framed]
    generalize Evaluation.run _ context (active ++ [frame]) past state = ended at ended ⊢
    generalize Evaluation.run _ (context.behind front) (active ++ [frame]) past' _ = ended' at ended ⊢
    cases ended with
    | none => exact .none
    | some outcomes inside shifted recorded =>
      cases outcomes with
      | ok related => exact .some (.ok related) inside shifted recorded
      | error interrupt => exact .some (.error _) inside shifted recorded
  nested inner := by
    intro places active past past' state alike start
    apply displaced_bind (displaced_perform .other follows_enter start) alike
    intro _ _ _ later later' middle alike' start'
    have ended := inner places active later later' middle alike' start'
    simp only [Evaluation.always]
    generalize Evaluation.run _ context active later middle = ended at ended ⊢
    generalize Evaluation.run _ (context.behind front) active later' _ = ended' at ended ⊢
    cases ended with
    | none => exact .none
    | some outcomes inside shifted recorded =>
      subst shifted recorded
      exact .some outcomes inside rfl (by rw [List.map_append]; rfl)
  exhausted := fun _ _ _ _ _ _ _ => .none

/-- Behind another text, an evaluation is the one without it with all offsets moved. -/
theorem run_behind (grammar : Grammar Empty) (rule : Rule Empty) (budget : Nat) (front : Source) (context : Context)
    (state : State σ) (start : 0 ≤ state.offset) :
    (rule.matcher Interpretation.none grammar budget : Evaluation .byDepth σ Bool).run (context.behind front) [] []
        (state.shift front.length) =
      ((rule.matcher Interpretation.none grammar budget : Evaluation .byDepth σ Bool).run context [] [] state).map
        fun (outcome, after, record) =>
          (outcome, after.shift front.length, record.map (Moment.shift front.length)) := by
  have agree := Simulation.matcher Simulation.hosts_none grammar
    (.inl rfl : (displacing σ front context).Fits budget budget) rule
  have displaced := agree (fun _ _ => False) (fun _ _ => False.elim) [] [] [] state rfl start
  generalize Evaluation.run _ context [] [] state = ended at displaced ⊢
  generalize Evaluation.run _ (context.behind front) [] [] _ = ended' at displaced ⊢
  cases displaced with
  | none => rfl
  | some outcomes _ shifted recorded =>
    subst shifted recorded
    rw [Option.map_some, outcomes.eq]

end Shifting

/-- Matching depends on the rest of the text only. A rule that is matched in a plain pass behind another text, with
the cursor and the furthest offset at the end of that text, ends as it does without that text, from the same values
and at the same nesting: with the same outcome, values and nesting, with the two offsets moved by the length of the
other text, and with mismatches at offsets that are moved by it, at which the same rules were active. -/
theorem matching_depends_on_rest (grammar : Grammar Empty) (rule : Rule Empty) (budget : Nat) (front : Source)
    (context : Context) (values : ValueStack) (depth : Int) (memory : σ) :
    let distance := front.length
    let alone : State σ := { values := values, depth := depth, memory := memory }
    let behind : State σ :=
      { offset := distance, values := values, tracker := { deepest := distance }, depth := depth, memory := memory }
    (rule.matcher Interpretation.none grammar budget : Engine σ Bool).run (context.behind front) behind =
      ((rule.matcher Interpretation.none grammar budget : Engine σ Bool).run context alone).map
        (fun (outcome, after) => (outcome, after.shift distance)) ∧
    ((rule.matcher Interpretation.none grammar budget : Evaluation .byDepth σ Bool).run (context.behind front) [] []
        behind).map (fun (outcome, after, record) => (outcome, after, mismatches record)) =
      ((rule.matcher Interpretation.none grammar budget : Evaluation .byDepth σ Bool).run context [] [] alone).map
        fun (outcome, after, record) =>
          (outcome, after.shift distance,
            (mismatches record).map fun (offset, frames) => (offset + distance, frames)) := by
  intro distance alone behind
  have started : behind = alone.shift distance := by
    simp only [State.shift, Tracker.shift, behind, alone, Int.zero_add, Nat.zero_add]
  have moved := Shifting.run_behind grammar rule budget front context alone (Int.le_refl 0)
  rw [started]
  constructor
  · rw [Evaluation.run_eq_forget Simulation.hosts_none grammar budget rule _ [] [],
      Evaluation.run_eq_forget Simulation.hosts_none grammar budget rule _ [] [], moved, Option.map_map, Option.map_map]
    rfl
  · rw [moved, Option.map_map]
    simp only [Function.comp_def, mismatches_shift]
    rfl

end PegMatcher
