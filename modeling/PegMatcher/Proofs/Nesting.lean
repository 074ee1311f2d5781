import PegMatcher.Proofs.Verdict
import PegMatcher.Proofs.Watching

/-! # Limits are transparent until they are hit

An unguarded evaluation knows the text but no limits. It enters named rules however deep they nest, and notes
each time how many are active already, which it counts by their frames. The guard of the engine interferes exactly
when the limit is among these numbers: `guarding` is the simulation that says so. Named rules are entered and left
one at a time, so an evaluation that gets deeper than the limit has been at the limit before.

A rule may also raise the fault of the guard itself, through an action or while it is built. `blameless` says that
an unguarded evaluation does not end in it unless some rule raises it.

The two limits of a run are independent of each other. A higher limit on the nesting makes no difference to a
pass that was not stopped by the lower one, and more room for rule stacks makes none to a search that has found
them all.
-/

namespace PegMatcher

variable {σ τ : Type}

/-- A computation that has no limits, with some named rules active already. It returns the numbers of named rules
that were active whenever one more was entered, also if it has no outcome. -/
structure Unguarded (σ α : Type) where
  run : Source → Int → State σ → List Int × Option (Except Interrupt α × State σ)

namespace Unguarded

variable {α β : Type}

protected def pure (result : α) : Unguarded σ α :=
  ⟨fun _ _ state => ([], some (.ok result, state))⟩

protected def bind (first : Unguarded σ α) (next : α → Unguarded σ β) : Unguarded σ β :=
  ⟨fun source active state =>
    match first.run source active state with
    | (early, none) => (early, none)
    | (early, some (.error interrupt, after)) => (early, some (.error interrupt, after))
    | (early, some (.ok result, middle)) =>
      let rest := (next result).run source active middle
      (early ++ rest.1, rest.2)⟩

instance : Monad (Unguarded σ) where
  pure := Unguarded.pure
  bind := Unguarded.bind

/-- Performs an operation of the engine that looks at no limit. -/
def perform (operation : Engine σ α) : Unguarded σ α :=
  ⟨fun source _ state => ([], operation.run ⟨source, 0, 0⟩ state)⟩

/-- Adds a frame to the abort signal of a computation. The frame of a named rule is that of a rule which is entered
here. -/
def framed (frame : Frame) (inner : Unguarded σ α) : Unguarded σ α :=
  ⟨fun source active state =>
    let named := frame.kind = .named
    let body := inner.run source (if named then active + 1 else active) state
    (if named then active :: body.1 else body.1,
      body.2.map fun (outcome, after) => (outcome.mapError (Interrupt.within frame), after))⟩

/-- Runs a computation one level deeper, however deep that is. -/
def nested (inner : Unguarded σ α) : Unguarded σ α :=
  ⟨fun source active state =>
    let body := inner.run source active { state with depth := state.depth + 1 }
    (body.1, body.2.map fun (outcome, after) => (outcome, { after with depth := after.depth - 1 }))⟩

instance : Machine (Unguarded σ) where
  Place := Mark
  atEnd := perform Engine.atEnd
  peek := perform Engine.peek
  advance := perform Engine.advance
  offset := perform Engine.offset
  moveTo target := perform (Engine.moveTo target)
  sliceFrom start := perform (Engine.sliceFrom start)
  mark := perform Engine.mark
  reset target := perform (Engine.reset target)
  mismatch := perform Engine.mismatch
  push value := perform (Engine.push value)
  popMany count := perform (Engine.popMany count)
  fail fault := perform (Engine.fail fault)
  framed := framed
  nested := nested
  exhausted := ⟨fun _ _ _ => ([], none)⟩

end Unguarded

namespace Nesting

/-- An operation that looks at no limit, leaves the nesting as it is, and does not raise that it is too deep. -/
structure Free {α : Type} (operation : Engine σ α) : Prop where
  unlimited : ∀ context state, operation.run context state = operation.run ⟨context.source, 0, 0⟩ state
  depth : ∀ context state outcome after, operation.run context state = some (outcome, after) →
    after.depth = state.depth
  guardless : ∀ context state level after,
    operation.run context state ≠ some (.error (.fault (.depthExceeded level)), after)

private theorem free_observe {α : Type} {view : Context → State σ → α}
    (unlimited : ∀ context state, view context state = view ⟨context.source, 0, 0⟩ state) :
    Free (Engine.observe view) := by
  refine ⟨fun context state => ?_, fun context state outcome after ran => ?_, by rintro _ _ _ _ ⟨⟩⟩
  · simp only [Engine.observe, unlimited context state]
  · cases ran
    rfl

private theorem free_modify {change : State σ → State σ} (depth : ∀ state, (change state).depth = state.depth) :
    Free (Engine.modify change) := by
  refine ⟨fun context state => rfl, fun context state outcome after ran => ?_, by rintro _ _ _ _ ⟨⟩⟩
  cases ran
  exact depth state

theorem free_moveTo (target : Int) : Free (Engine.moveTo target : Engine σ Unit) :=
  free_modify fun _ => rfl

theorem free_push (value : Value) : Free (Engine.push value : Engine σ Unit) :=
  free_modify fun _ => rfl

private theorem charAt_guardless (source : Source) (offset level : Int) :
    source.charAt offset ≠ .error (.depthExceeded level) := by
  intro failed
  rw [Source.charAt] at failed
  split at failed
  · cases failed
  · split at failed <;> cases failed

private theorem free_peek : Free (Engine.peek : Engine σ Char) := by
  refine ⟨fun context state => rfl, fun context state outcome after ran => ?_,
    fun context state level after ran => ?_⟩
  · rw [Engine.state_of_peek ran]
  · simp only [Engine.peek] at ran
    repeat' split at ran
    all_goals cases ran
    exact charAt_guardless _ _ _ ‹_›

theorem free_advance : Free (Engine.advance : Engine σ Char) := by
  refine ⟨fun context state => rfl, fun context state outcome after ran => ?_,
    fun context state level after ran => ?_⟩
  · simp only [Engine.advance] at ran
    repeat' split at ran
    all_goals cases ran
    all_goals rfl
  · simp only [Engine.advance] at ran
    repeat' split at ran
    all_goals cases ran
    exact charAt_guardless _ _ _ ‹_›

theorem free_reset (target : Mark) : Free (Engine.reset target : Engine σ Unit) := by
  refine ⟨fun context state => rfl, fun context state outcome after ran => ?_,
    fun context state level after ran => ?_⟩
  all_goals
    change (Machine.reset target : Engine σ Unit).run context state = _ at ran
    rw [Engine.run_reset] at ran
    split at ran <;> cases ran
  all_goals rfl

theorem free_mismatch : Free (Engine.mismatch : Engine σ Unit) := by
  refine ⟨fun context state => rfl, fun context state outcome after ran => ?_,
    fun context state level after ran => ?_⟩
  · obtain ⟨tracker, rfl⟩ := Engine.state_of_mismatch ran
    rfl
  · change (Engine.registerAt state.offset).run context state = _ at ran
    simp only [Engine.registerAt] at ran
    split at ran <;> cases ran

theorem free_popMany (count : Int) : Free (Engine.popMany count : Engine σ (List Value)) := by
  refine ⟨fun context state => rfl, fun context state outcome after ran => ?_,
    fun context state level after ran => ?_⟩
  · simp only [Engine.popMany] at ran
    split at ran <;> cases ran <;> rfl
  · simp only [Engine.popMany] at ran
    split at ran <;> cases ran
    rename_i failed
    simp only [ValueStack.remaining] at failed
    repeat' split at failed
    all_goals cases failed

/-- A computation with a limit on the nesting beside the same one without, which has entered named rules with some
numbers of them active. The first one is stopped if one of the numbers is not below the limit, and otherwise
both end in the same way. -/
inductive Guards {α β : Type} (R : α → β → Prop) (limit : Int) (entered : List Int)
    (ending : Option (Except Interrupt β × State σ)) : Option (Except Interrupt α × State σ) → Prop
  | stopped {level : Int} {after : State σ} : level ∈ entered → limit ≤ level →
      Guards R limit entered ending (some (.error (.fault (.depthExceeded limit)), after))
  | through {guarded : Option (Except Interrupt α × State σ)} : (∀ level ∈ entered, level < limit) →
      SameEnding R guarded ending → Guards R limit entered ending guarded

/-- What `Guards` says of two computations from one state, where as many named rules are active as the nesting says.
The first one leaves the nesting as it was. -/
structure Guarded {α β : Type} (R : α → β → Prop) (context : Context) (state : State σ) (x : Engine σ α)
    (y : Unguarded σ β) : Prop where
  guards : Guards R context.maxDepth (y.run context.source state.depth state).1
    (y.run context.source state.depth state).2 (x.run context state)
  depth : ∀ outcome after, x.run context state = some (outcome, after) → after.depth = state.depth

section Guards

variable {α β γ δ : Type} {R : α → β → Prop} {T : γ → δ → Prop} {context : Context} {state : State σ}

private theorem guarded_perform {S : α → α → Prop} (refl : ∀ result, S result result) {operation : Engine σ α}
    (free : Free operation) (context : Context) (state : State σ) :
    Guarded S context state operation (Unguarded.perform operation) := by
  refine ⟨.through (List.forall_mem_nil _) ?_, free.depth context state⟩
  change SameEnding S (operation.run context state) (operation.run ⟨context.source, 0, 0⟩ state)
  rw [← free.unlimited context state]
  exact .refl refl _

/-- What was entered before was below the limit. -/
private theorem guards_append {limit : Int} {early late : List Int}
    {ending : Option (Except Interrupt β × State σ)} {guarded : Option (Except Interrupt α × State σ)}
    (below : ∀ level ∈ early, level < limit) (guards : Guards R limit late ending guarded) :
    Guards R limit (early ++ late) ending guarded := by
  cases guards with
  | stopped member le => exact .stopped (List.mem_append_right _ member) le
  | through below' same => exact .through (List.forall_mem_append.mpr ⟨below, below'⟩) same

/-- The same change on both sides, which does not hide that the first one was stopped. -/
private theorem guards_map {limit : Int} {entered : List Int}
    (change : Except Interrupt α × State σ → Except Interrupt α × State σ)
    (change' : Except Interrupt β × State σ → Except Interrupt β × State σ)
    (stops : ∀ after, ∃ after', change (.error (.fault (.depthExceeded limit)), after) =
      (.error (.fault (.depthExceeded limit)), after'))
    (same : ∀ {outcome outcome' after}, Outcomes R outcome outcome' →
      SameEnding R (some (change (outcome, after))) (some (change' (outcome', after))))
    {ending : Option (Except Interrupt β × State σ)} {guarded : Option (Except Interrupt α × State σ)}
    (guards : Guards R limit entered ending guarded) :
    Guards R limit entered (ending.map change') (guarded.map change) := by
  cases guards with
  | @stopped _ after member le =>
    obtain ⟨after', stopped⟩ := stops after
    rw [Option.map_some, stopped]
    exact .stopped member le
  | through below ends =>
    cases ends with
    | none => exact .through below .none
    | some outcomes => exact .through below (same outcomes)

private theorem guarded_bind {x : Engine σ α} {y : Unguarded σ β} {f : α → Engine σ γ} {g : β → Unguarded σ δ}
    (head : Guarded R context state x y)
    (tail : ∀ a b, R a b → ∀ middle : State σ, Guarded T context middle (f a) (g b)) :
    Guarded T context state (x >>= f) (y >>= g) := by
  obtain ⟨guards, depth⟩ := head
  have runs : (y >>= g).run context.source state.depth state =
    (Unguarded.bind y g).run context.source state.depth state := rfl
  have ran := Engine.run_bind x f context state
  simp only [Unguarded.bind] at runs
  generalize y.run context.source state.depth state = unguarded at guards runs
  generalize x.run context state = guarded at guards depth ran
  obtain ⟨early, ending⟩ := unguarded
  cases guards with
  | stopped member le =>
    refine ⟨?_, ?_⟩
    · rw [ran, runs]
      rcases ending with _ | ⟨interrupt | b, middle⟩
      · exact .stopped member le
      · exact .stopped member le
      · exact .stopped (List.mem_append_left _ member) le
    · rw [ran]
      rintro _ _ ⟨⟩
      exact depth _ _ rfl
  | through below same =>
    cases same with
    | none => exact ⟨by rw [ran, runs]; exact .through below .none, by rw [ran]; rintro _ _ ⟨⟩⟩
    | @some _ _ middle outcomes =>
      have unmoved : middle.depth = state.depth := depth _ middle rfl
      cases outcomes with
      | error interrupt =>
        refine ⟨by rw [ran, runs]; exact .through below (.some (.error interrupt)), ?_⟩
        rw [ran]
        rintro _ _ ⟨⟩
        exact unmoved
      | @ok a b related =>
        obtain ⟨rest, depth'⟩ := tail a b related middle
        rw [unmoved] at rest depth'
        refine ⟨?_, by rw [ran]; exact depth'⟩
        rw [ran, runs]
        exact guards_append below rest

private theorem guarded_framed {frame : Frame} (nameless : frame.kind ≠ .named) {x : Engine σ α}
    {y : Unguarded σ β} (inner : Guarded R context state x y) :
    Guarded R context state (Machine.framed frame x) (Machine.framed frame y) := by
  constructor
  · rw [Engine.run_framed]
    change Guards R _ ((Unguarded.framed frame y).run context.source state.depth state).1
      ((Unguarded.framed frame y).run context.source state.depth state).2 _
    simp only [Unguarded.framed, if_neg nameless]
    exact guards_map _ _ (fun after => ⟨after, rfl⟩) (fun outcomes => .some (outcomes.within frame)) inner.guards
  · intro outcome after ran
    rw [Engine.run_framed] at ran
    obtain ⟨⟨original, last⟩, ended, same⟩ := Option.map_eq_some_iff.mp ran
    cases same
    exact inner.depth original after ended

/-- The guard of a named rule looks at the number of rules that its frame counts. -/
private theorem guarded_named (name : Option String) {x : Engine σ Bool} {y : Unguarded σ Bool}
    (inner : Guarded Eq context { state with depth := state.depth + 1 } x y) :
    Guarded Eq context state (Matcher.named name x) (Matcher.named name y) := by
  obtain ⟨guards, depth⟩ := inner
  have ran : (Matcher.named name x : Engine σ Bool).run context state = _ :=
    Engine.run_framed { kind := .named, name := name } (Machine.nested x) context state
  have runs : (Matcher.named name y : Unguarded σ Bool).run context.source state.depth state =
    (Unguarded.framed { kind := .named, name := name } (Unguarded.nested y)).run
      context.source state.depth state := rfl
  simp only [Engine.run_nested, Unguarded.framed, Unguarded.nested, if_pos] at ran runs
  constructor
  · rw [ran, runs]
    by_cases refused : context.maxDepth ≤ state.depth
    · rw [if_pos refused]
      exact .stopped List.mem_cons_self refused
    · rw [if_neg refused]
      let leave (ended : Except Interrupt Bool × State σ) : Except Interrupt Bool × State σ :=
        (ended.1, { ended.2 with depth := ended.2.depth - 1 })
      have left := guards_map leave leave (fun after => ⟨_, rfl⟩) .some guards
      have entered := guards_append (List.forall_mem_singleton.mpr (Int.not_le.mp refused)) left
      exact guards_map _ _ (fun after => ⟨after, rfl⟩) (fun outcomes => .some (outcomes.within _)) entered
  · intro outcome after ended
    rw [ran] at ended
    obtain ⟨⟨original, last⟩, entered, same⟩ := Option.map_eq_some_iff.mp ended
    cases same
    split at entered
    · cases entered
      rfl
    · obtain ⟨⟨_, deeper⟩, body, same⟩ := Option.map_eq_some_iff.mp entered
      cases same
      have unmoved := depth _ deeper body
      dsimp only at unmoved ⊢
      omega

end Guards

/-- The engine beside evaluations without limits. -/
def guarding (σ : Type) : Simulation (Engine σ) (Unguarded σ) where
  Rel live R x y := (∀ p q : Mark, live p q → q = p) → ∀ context state, Guarded R context state x y
  Offsets := Eq
  offsets_eq_iff := Simulation.eq_offsets
  pure related := fun _ _ _ => ⟨.through (List.forall_mem_nil _) (.some (.ok related)), by rintro _ _ ⟨⟩; rfl⟩
  bind head tail := fun places context state =>
    guarded_bind (head places context state) fun a b related middle => tail a b related places context middle
  mark_bind tail := by
    intro places context state
    have free : Free (Engine.mark : Engine σ Mark) := free_observe fun _ _ => rfl
    refine guarded_bind (guarded_perform (S := Eq) (fun _ => rfl) free context state) ?_
    rintro p _ rfl middle
    refine tail p p ?_ context middle
    rintro p' q' (old | ⟨rfl, rfl⟩)
    · exact places p' q' old
    · rfl
  reset known := fun places => by
    cases places _ _ known
    exact guarded_perform (fun _ => trivial) (free_reset _)
  atEnd := fun _ => guarded_perform (fun _ => rfl) (free_observe fun _ _ => rfl)
  peek := fun _ => guarded_perform (fun _ => rfl) free_peek
  advance := fun _ => guarded_perform (fun _ => trivial) free_advance
  offset := fun _ => guarded_perform (fun _ => rfl) (free_observe fun _ _ => rfl)
  moveTo := by
    rintro _ a _ rfl _
    exact guarded_perform (fun _ => trivial) (free_moveTo a)
  sliceFrom := by
    rintro _ a _ rfl _
    exact guarded_perform (fun _ => rfl) (free_observe fun _ _ => rfl)
  mismatch := fun _ => guarded_perform (fun _ => trivial) free_mismatch
  push value := fun _ => guarded_perform (fun _ => trivial) (free_push value)
  popMany count := fun _ => guarded_perform (fun _ => rfl) (free_popMany count)
  fail fault _ := fun _ _ _ => ⟨.through (List.forall_mem_nil _) (.some (.error _)), by rintro _ _ ⟨⟩; rfl⟩
  framed frame nameless inner := fun places context state => guarded_framed nameless (inner places context state)
  named name inner := fun places context _ => guarded_named name (inner places context _)
  exhausted := fun _ _ _ => ⟨.through (List.forall_mem_nil _) .none, by rintro _ _ ⟨⟩⟩

/-- An evaluation without limits that set out with some named rules active: it has reached every number of them
before a higher one, and a fault that it ends in is of some kind. Its result is related to something. -/
structure Climbs {α β : Type} (admits : Fault → Prop) (R : α → β → Prop) (active : Int)
    (ended : List Int × Option (Except Interrupt α × State σ)) : Prop where
  stepwise : ∀ level ∈ ended.1, active ≤ level ∧ ∀ between, active ≤ between → between ≤ level → between ∈ ended.1
  admitted : ∀ fault after, ended.2 = some (.error (.fault fault), after) → admits fault
  related : ∀ result after, ended.2 = some (.ok result, after) → ∃ b, R result b

def Climbing {α β : Type} (admits : Fault → Prop) (R : α → β → Prop) (x : Unguarded σ α) : Prop :=
  ∀ source active state, Climbs admits R active (x.run source active state)

section Climbing

variable {α β γ δ : Type} {admits : Fault → Prop} {R : α → β → Prop} {T : γ → δ → Prop}

private theorem climbing_perform (guardless : ∀ fault, (∀ level, fault ≠ .depthExceeded level) → admits fault)
    {operation : Engine σ α} (free : Free operation) (related : ∀ a, ∃ b, R a b) :
    Climbing admits R (Unguarded.perform operation) :=
  fun _ _ state => ⟨List.forall_mem_nil _, fun fault after ended => guardless fault fun level same =>
    free.guardless _ state level after (same ▸ ended), fun result _ _ => related result⟩

private theorem climbing_bind {x : Unguarded σ α} {f : α → Unguarded σ γ} (head : Climbing admits R x)
    (tail : ∀ a b, R a b → Climbing admits T (f a)) : Climbing admits T (x >>= f) := by
  intro source active state
  change Climbs admits T active ((Unguarded.bind x f).run source active state)
  have began := head source active state
  simp only [Unguarded.bind]
  generalize x.run source active state = first at began ⊢
  obtain ⟨early, _ | ⟨interrupt | a, middle⟩⟩ := first
  · exact ⟨began.stepwise, by rintro _ _ ⟨⟩, by rintro _ _ ⟨⟩⟩
  · refine ⟨began.stepwise, fun fault after ended => ?_, by rintro _ _ ⟨⟩⟩
    cases ended
    exact began.admitted fault middle rfl
  · obtain ⟨b, here⟩ := began.related a middle rfl
    have rest := tail a b here source active middle
    refine ⟨fun level member => ?_, rest.admitted, rest.related⟩
    obtain before | behind := List.mem_append.mp member
    · obtain ⟨above, steps⟩ := began.stepwise level before
      exact ⟨above, fun between le ge => List.mem_append_left _ (steps between le ge)⟩
    · obtain ⟨above, steps⟩ := rest.stepwise level behind
      exact ⟨above, fun between le ge => List.mem_append_right _ (steps between le ge)⟩

/-- A frame leaves faults and results as they are. -/
private theorem climbs_within {frame : Frame} {active : Int} {entered : List Int}
    {ending : Option (Except Interrupt α × State σ)} (climbs : Climbs admits R active (entered, ending)) :
    Climbs admits R active
      (entered, ending.map fun (outcome, after) => (outcome.mapError (Interrupt.within frame), after)) := by
  refine ⟨climbs.stepwise, fun fault after ran => ?_, fun result after ran => ?_⟩
  · obtain ⟨⟨(cause | path) | result, last⟩, original, same⟩ := Option.map_eq_some_iff.mp ran
    · cases same
      exact climbs.admitted fault after original
    · cases same
    · cases same
  · obtain ⟨⟨interrupt | answer, last⟩, original, same⟩ := Option.map_eq_some_iff.mp ran
    · cases same
    · cases same
      exact climbs.related result after original

private theorem climbing_framed {frame : Frame} (nameless : frame.kind ≠ .named) {x : Unguarded σ α}
    (inner : Climbing admits R x) : Climbing admits R (Machine.framed frame x) := by
  intro source active state
  change Climbs admits R active ((Unguarded.framed frame x).run source active state)
  simp only [Unguarded.framed, if_neg nameless]
  exact climbs_within (inner source active state)

/-- One more rule is active in the body of a named rule. -/
private theorem climbing_named (name : Option String) {x : Unguarded σ Bool} {R : Bool → β → Prop}
    (body : Climbing admits R x) : Climbing admits R (Matcher.named name x) := by
  intro source active state
  change Climbs admits R active ((Unguarded.framed _ (Unguarded.nested x)).run source active state)
  simp only [Unguarded.framed, Unguarded.nested, if_pos]
  have deeper := body source (active + 1) { state with depth := state.depth + 1 }
  generalize x.run source (active + 1) _ = ran at deeper ⊢
  apply climbs_within
  refine ⟨List.forall_mem_cons.mpr ⟨?_, fun level member => ?_⟩, fun fault after ended => ?_,
    fun result after ended => ?_⟩
  · refine ⟨Int.le_refl _, fun between le ge => ?_⟩
    exact Int.le_antisymm le ge ▸ List.mem_cons_self
  · obtain ⟨above, steps⟩ := deeper.stepwise level member
    refine ⟨by omega, fun between le ge => ?_⟩
    by_cases first : between = active
    · exact first ▸ List.mem_cons_self
    · exact List.mem_cons_of_mem _ (steps between (by omega) ge)
  · obtain ⟨⟨_, last⟩, original, same⟩ := Option.map_eq_some_iff.mp ended
    cases same
    exact deeper.admitted fault last original
  · obtain ⟨⟨_, last⟩, original, same⟩ := Option.map_eq_some_iff.mp ended
    cases same
    exact deeper.related result last original

end Climbing

/-- Climbing as a simulation, whose second side plays no part. The rules may end in faults of some kind, to which
all belong but those of the guard. -/
def climbing (σ : Type) (admits : Fault → Prop)
    (guardless : ∀ fault, (∀ level, fault ≠ .depthExceeded level) → admits fault) :
    Simulation (Unguarded σ) (Unguarded σ) where
  Rel _ R x _ := Climbing admits R x
  Offsets := Eq
  Admits := admits
  offsets_eq_iff := Simulation.eq_offsets
  pure {_ _ _ _ _ b} related := by
    intro source active state
    refine ⟨List.forall_mem_nil _, by rintro _ _ ⟨⟩, ?_⟩
    rintro _ _ ⟨⟩
    exact ⟨b, related⟩
  bind head tail := climbing_bind head tail
  mark_bind tail := by
    have free : Free (Engine.mark : Engine σ Mark) := free_observe fun _ _ => rfl
    exact climbing_bind (R := Eq) (climbing_perform guardless free fun p => ⟨p, rfl⟩) fun p _ _ => tail p p
  reset _ := climbing_perform guardless (free_reset _) fun _ => ⟨(), trivial⟩
  atEnd := climbing_perform guardless (free_observe fun _ _ => rfl) fun a => ⟨a, rfl⟩
  peek := climbing_perform guardless free_peek fun a => ⟨a, rfl⟩
  advance := climbing_perform guardless free_advance fun a => ⟨a, trivial⟩
  offset := climbing_perform guardless (free_observe fun _ _ => rfl) fun a => ⟨a, rfl⟩
  moveTo _ := climbing_perform guardless (free_moveTo _) fun _ => ⟨(), trivial⟩
  sliceFrom _ := climbing_perform guardless (free_observe fun _ _ => rfl) fun a => ⟨a, rfl⟩
  mismatch := climbing_perform guardless free_mismatch fun _ => ⟨(), trivial⟩
  push value := climbing_perform guardless (free_push value) fun _ => ⟨(), trivial⟩
  popMany count := climbing_perform guardless (free_popMany count) fun a => ⟨a, rfl⟩
  fail fault admitted := by
    intro source active state
    refine ⟨List.forall_mem_nil _, ?_, by rintro _ _ ⟨⟩⟩
    rintro _ _ ⟨⟩
    exact admitted
  framed frame nameless inner := climbing_framed nameless inner
  named name body := climbing_named name body
  exhausted := fun _ _ _ => ⟨List.forall_mem_nil _, by rintro _ _ ⟨⟩, by rintro _ _ ⟨⟩⟩

section Rules

variable {grammar : Grammar Empty} {rule : Rule Empty} {budget : Nat} {context context' : Context}
  {state after : State σ}

theorem guarded_matcher (grammar : Grammar Empty) (budget : Nat) (rule : Rule Empty) (context : Context)
    (state : State σ) :
    Guarded Eq context state (rule.matcher Interpretation.none grammar budget)
      (rule.matcher Interpretation.none grammar budget) := by
  have agree := Simulation.matcher Simulation.hosts_none grammar (.inl rfl : (guarding σ).Fits budget budget) rule
  exact agree (fun _ _ => False) (fun _ _ => False.elim) context state

/-- Named rules are entered and left one at a time. -/
theorem climbs_matcher (admits : Fault → Prop)
    (guardless : ∀ fault, (∀ level, fault ≠ .depthExceeded level) → admits fault)
    (raises : ∀ part, grammar.Meets rule part → part.Raises grammar admits) (budget : Nat) (source : Source)
    (active : Int) (state : State σ) :
    Climbs admits Eq active
      ((rule.matcher Interpretation.none grammar budget : Unguarded σ Bool).run source active state) := by
  have agree := Simulation.matcher Simulation.hosts_none grammar
    (.inl rfl : (climbing σ admits guardless).Fits budget budget) rule raises
  exact agree (fun _ _ => False) source active state

/-- A higher limit makes no difference to an evaluation that was not stopped by the lower one. -/
theorem run_of_maxDepth_le (source : context'.source = context.source)
    (depths : context.maxDepth ≤ context'.maxDepth) {outcome : Except Interrupt Bool}
    (ran : (rule.matcher Interpretation.none grammar budget : Engine σ Bool).run context state =
      some (outcome, after))
    (unstopped : ∀ limit, outcome ≠ .error (.fault (.depthExceeded limit))) :
    (rule.matcher Interpretation.none grammar budget : Engine σ Bool).run context' state =
      some (outcome, after) := by
  have lower := (guarded_matcher grammar budget rule context state).guards
  have higher := (guarded_matcher grammar budget rule context' state).guards
  simp only [source, ran] at lower higher
  cases lower with
  | stopped => exact absurd rfl (unstopped _)
  | through below same =>
    generalize Engine.run _ context' state = ended at higher ⊢
    cases higher with
    | stopped member le =>
      have := below _ member
      omega
    | through _ same' => rw [same'.eq, same.eq]

end Rules

end Nesting

/-- A fault that says that a limit was hit. -/
def Fault.IsLimit : Fault → Prop
  | .depthExceeded _ => True
  | .stackLimit _ _ => True
  | _ => False

namespace Nesting

/-- Whenever a matcher ends within the limits of one context, it ends in the same way within those of another one. -/
def Eases (x : Matcher σ) (context context' : Context) : Prop :=
  ∀ ⦃state outcome after⦄, x.run context state = some (outcome, after) →
    (∀ limit, outcome ≠ .error (.fault (.depthExceeded limit))) → x.run context' state = some (outcome, after)

section Runs

variable {x : Matcher σ} {context context' : Context}

theorem Eases.pass (eases : Eases x context context') (index : Option Int) :
    Eases (Session.pass x index) context context' := by
  intro state outcome after ran unstopped
  rw [Diagnosis.run_pass] at ran ⊢
  exact eases ran unstopped

private theorem unstopped_of_fault {fault : Fault} (unhit : ¬fault.IsLimit) (limit : Int) :
    (.error (.fault fault) : Except Interrupt Bool) ≠ .error (.fault (.depthExceeded limit)) := by
  rintro ⟨⟩
  exact unhit trivial

/-- A search for rule stacks that has hit no limit does the same with more room. -/
theorem explain_of_eases (eases : Eases x context context') {deepest room room' : Nat} (more : room ≤ room')
    {found : List RuleStack} {state : State σ} {explanation : Explanation σ}
    (ran : Session.explain context x deepest room found state = some explanation)
    (unhit : ∀ fault, explanation.ending = .error fault → ¬fault.IsLimit) :
    Session.explain context' x deepest room' found state = some explanation := by
  induction room generalizing room' found state explanation with
  | zero =>
    rw [Session.explain.eq_def] at ran ⊢
    split at ran
    · cases ran
    · cases ran
      rw [eases.pass _ ‹_› (by rintro _ ⟨⟩)]
    · cases ran
      rw [eases.pass _ ‹_› (unstopped_of_fault (unhit _ rfl))]
    · cases ran
      exact (unhit _ rfl trivial).elim
  | succ room ih =>
    obtain ⟨less, rfl⟩ : ∃ less, room' = less + 1 := ⟨room' - 1, by omega⟩
    rw [Session.explain.eq_def] at ran ⊢
    split at ran
    · cases ran
    · cases ran
      rw [eases.pass _ ‹_› (by rintro _ ⟨⟩)]
    · cases ran
      rw [eases.pass _ ‹_› (unstopped_of_fault (unhit _ rfl))]
    · rw [eases.pass _ ‹_› (by rintro _ ⟨⟩)]
      dsimp only at ran ⊢
      split at ran
      · cases ran
      · rename_i rest explained
        cases ran
        rw [ih (Nat.le_of_succ_le_succ more) explained unhit]

private theorem attempt_of_eases (eases : Eases x context context') (source : context'.source = context.source)
    (roomier : context.maxErrorStacks ≤ context'.maxErrorStacks) {shape : Shape} {state after : State σ}
    {report : Report} (ran : Session.attempt context x shape state = some (report, after))
    (unhit : ∀ fault, report.ending = .error fault → ¬fault.IsLimit) :
    Session.attempt context' x shape state = some (report, after) := by
  simp only [Session.attempt, source] at ran ⊢
  split at ran
  · cases ran
  · cases ran
    rw [eases.pass _ ‹_› (by rintro _ ⟨⟩)]
  · rename_i failed plain
    rw [eases.pass _ plain (by rintro _ ⟨⟩)]
    dsimp only
    split at ran
    · cases ran
    · rename_i explanation explained
      cases ran
      have unhit' : ∀ fault, explanation.ending = .error fault → ¬fault.IsLimit := by
        intro fault ended
        exact unhit fault (by simp only [ended, Except.map])
      rw [explain_of_eases eases (Int.toNat_le_toNat roomier) explained unhit']
  · cases ran
    rw [eases.pass _ ‹_› (unstopped_of_fault (unhit _ rfl))]
  · cases ran
    rw [eases.pass _ ‹_› (by rintro _ ⟨⟩)]

/-- A run that has hit no limit does the same with higher ones. -/
theorem run_of_eases {session next : Session σ} (eases : Eases x session.context context')
    (source : context'.source = session.context.source)
    (roomier : session.context.maxErrorStacks ≤ context'.maxErrorStacks) {shape : Shape} {report : Report}
    (ran : session.run x shape = some (report, next))
    (unhit : ∀ fault, report.ending = .error fault → ¬fault.IsLimit) :
    ({ session with context := context' } : Session σ).run x shape =
      some (report, { next with context := context' }) := by
  rw [Session.run] at ran ⊢
  split at ran
  · rename_i running
    cases ran
    exact if_pos running
  · rename_i idle
    refine (if_neg idle).trans ?_
    dsimp only at ran ⊢
    split at ran
    · cases ran
    · rename_i attempted
      cases ran
      rw [attempt_of_eases eases source roomier attempted unhit]

/-- To read the values as a shape hits no limit. -/
theorem finalize_unlimited {stack : ValueStack} {shape : Shape} {fault : Fault}
    (failed : stack.finalize shape = .error fault) : ¬fault.IsLimit := by
  simp only [ValueStack.finalize] at failed
  repeat' split at failed
  all_goals cases failed
  all_goals exact id

end Runs

end Nesting

/-- The plain pass of a run over a rule without any limit: the numbers of active named rules whenever one more was
entered, and how the pass ends. -/
def Session.unguardedPass (session : Session σ) (grammar : Grammar Empty) (rule : Rule Empty) (budget : Nat) :
    List Int × Option (Except Interrupt Bool × State σ) :=
  (rule.matcher Interpretation.none grammar budget : Unguarded σ Bool).run session.context.source
    0 { memory := session.state.memory }

/-- No rule that is met raises itself that the nesting is too deep, as the function of an action could. -/
def Grammar.Blameless (grammar : Grammar Empty) (rule : Rule Empty) : Prop :=
  ∀ part, grammar.Meets rule part → part.Raises grammar fun fault => ∀ level, fault ≠ .depthExceeded level

open Nesting Diagnosis

section Limits

variable {session : Session σ} {grammar : Grammar Empty} {rule : Rule Empty} {budget : Nat}

/-- The plain pass beside the one without limits. -/
theorem guards_plainPass (session : Session σ) (grammar : Grammar Empty) (rule : Rule Empty) (budget : Nat) :
    Guards Eq session.context.maxDepth (session.unguardedPass grammar rule budget).1
      (session.unguardedPass grammar rule budget).2
      (session.nthPass (rule.matcher Interpretation.none grammar budget : Engine σ Bool) 0) :=
  (guarded_matcher grammar budget rule session.context { memory := session.state.memory }).guards

/-- Named rules are entered and left one at a time, from none on. -/
theorem climbs_unguardedPass (session : Session σ) (grammar : Grammar Empty) (rule : Rule Empty) (admits : Fault → Prop)
    (guardless : ∀ fault, (∀ level, fault ≠ .depthExceeded level) → admits fault)
    (raises : ∀ part, grammar.Meets rule part → part.Raises grammar admits) (budget : Nat) :
    Climbs admits Eq 0 (session.unguardedPass grammar rule budget) :=
  climbs_matcher admits guardless raises budget session.context.source 0 _

private theorem stopped_of_mem (entered : session.context.maxDepth ∈ (session.unguardedPass grammar rule budget).1) :
    ∃ after, session.nthPass (rule.matcher Interpretation.none grammar budget : Engine σ Bool) 0 =
      some (.error (.fault (.depthExceeded session.context.maxDepth)), after) := by
  have guards := guards_plainPass session grammar rule budget
  generalize session.nthPass _ 0 = ended at guards ⊢
  cases guards with
  | stopped => exact ⟨_, rfl⟩
  | through below => exact absurd (below _ entered) (Int.lt_irrefl _)

theorem mem_or_eq_unguarded (start : 0 ≤ session.context.maxDepth) :
    session.context.maxDepth ∈ (session.unguardedPass grammar rule budget).1 ∨
      session.nthPass (rule.matcher Interpretation.none grammar budget : Engine σ Bool) 0 =
        (session.unguardedPass grammar rule budget).2 := by
  have guards := guards_plainPass session grammar rule budget
  have climbs := climbs_unguardedPass session grammar rule (fun _ => True) (fun _ _ => trivial)
    (fun part _ => part.raises_of_forall fun _ => trivial) budget
  generalize session.nthPass _ 0 = ended at guards ⊢
  cases guards with
  | stopped member le => exact .inl ((climbs.stepwise _ member).2 _ start le)
  | through _ same => exact .inr same.eq

/-- A run raises that the nesting is too deep if and only if its plain pass does. -/
theorem depthExceeded_iff {next : Session σ} (idle : session.running = false) {shape : Shape} {report : Report}
    (ran : session.run (rule.matcher Interpretation.none grammar budget : Engine σ Bool) shape =
      some (report, next)) (limit : Int) :
    report.ending = .error (.depthExceeded limit) ↔
      ∃ after, session.nthPass (rule.matcher Interpretation.none grammar budget : Engine σ Bool) 0 =
        some (.error (.fault (.depthExceeded limit)), after) := by
  obtain ⟨outcome, after, record, recorded⟩ := recorded_of_run idle ran
  obtain ⟨report', next', ran', decided, _⟩ := run_eq_verdict idle recorded shape
  cases ran.symm.trans ran'
  have ending : report.ending = _ := congrArg Prod.fst decided
  constructor
  · intro raised
    rw [raised] at ending
    rcases outcome with (fault | path) | (_ | _)
    · cases ending
      exact ⟨after, by rw [nthPass_zero, recorded]; rfl⟩
    · cases ending
    · simp only [verdict] at ending
      split at ending <;> cases ending
    · simp only [verdict] at ending
      cases finalized : after.values.finalize shape with
      | ok value =>
        rw [finalized] at ending
        cases ending
      | error fault =>
        rw [finalized] at ending
        cases ending
        exact (finalize_unlimited finalized trivial).elim
  · rintro ⟨last, plain⟩
    rw [nthPass_zero, recorded] at plain
    cases plain
    exact ending

/-- If the evaluation without limits gets to the limit under any budget, then a run that ends has been stopped. -/
theorem ending_of_entered {next : Session σ} (idle : session.running = false) {shape : Shape} {report : Report}
    (ran : session.run (rule.matcher Interpretation.none grammar budget : Engine σ Bool) shape =
      some (report, next)) {budget' : Nat}
    (entered : session.context.maxDepth ∈ (session.unguardedPass grammar rule budget').1) :
    report.ending = .error (.depthExceeded session.context.maxDepth) := by
  obtain ⟨after, stopped⟩ := stopped_of_mem entered
  obtain ⟨outcome, last, record, recorded⟩ := recorded_of_run idle ran
  have plain : session.nthPass (rule.matcher Interpretation.none grammar budget : Engine σ Bool) 0 =
      some (outcome, last) := by
    rw [nthPass_zero, recorded]
    rfl
  have larger {smaller : Nat} {ending : Except Interrupt Bool × State σ}
      (ended : session.nthPass (rule.matcher Interpretation.none grammar smaller : Engine σ Bool) 0 = some ending)
      (le : smaller ≤ max budget budget') :
      session.nthPass (rule.matcher Interpretation.none grammar (max budget budget') : Engine σ Bool) 0 =
        some ending := run_budget_le le ended
  have same := (larger plain (Nat.le_max_left _ _)).symm.trans (larger stopped (Nat.le_max_right _ _))
  cases same
  exact (depthExceeded_iff idle ran _).mpr ⟨_, plain⟩

/-- A run that has hit no limit does the same on every session on the text whose limits are no lower. -/
theorem run_of_limits_le {next : Session σ} {other : Session τ} (idle : session.running = false)
    (idle' : other.running = false) (source : other.context.source = session.context.source)
    (depths : session.context.maxDepth ≤ other.context.maxDepth)
    (roomier : session.context.maxErrorStacks ≤ other.context.maxErrorStacks) {shape : Shape} {report : Report}
    (ran : session.run (rule.matcher Interpretation.none grammar budget : Engine σ Bool) shape =
      some (report, next)) (unhit : ∀ fault, report.ending = .error fault → ¬fault.IsLimit) {budget' : Nat}
    (enough : budget ≤ budget' ∨
      other.run (rule.matcher Interpretation.none grammar budget' : Engine τ Bool) shape ≠ none) :
    ∃ next', other.run (rule.matcher Interpretation.none grammar budget' : Engine τ Bool) shape =
      some (report, next') ∧ next'.state.bare = next.state.bare := by
  have eases : Eases (rule.matcher Interpretation.none grammar budget : Engine σ Bool) session.context
      other.context := fun _ _ _ ended unstopped => run_of_maxDepth_le source depths ended unstopped
  have raised := run_of_eases eases source roomier ran unhit
  have larger : ∀ more, budget ≤ more → ∃ next',
      other.run (rule.matcher Interpretation.none grammar more : Engine τ Bool) shape = some (report, next') ∧
        next'.state.bare = next.state.bare := by
    intro more le
    let lifted : Session σ := { session with context := other.context }
    have shadows : Shadows lifted.context (rule.matcher Interpretation.none grammar budget : Engine σ Bool)
        (rule.matcher Interpretation.none grammar more : Engine τ Bool) :=
      shadows_of_budget_le grammar rule le other.context
    obtain ⟨next', ran', _, same⟩ := Session.run_of_shadows shadows rfl idle idle' raised
    exact ⟨next', ran', same⟩
  obtain le | ended := enough
  · exact larger budget' le
  -- A run that ends with a smaller budget ends in the same way with a larger one.
  · obtain ⟨⟨report', next'⟩, ran'⟩ := Option.ne_none_iff_exists'.mp ended
    obtain ⟨next₂, ran₂, same⟩ := larger (max budget budget') (Nat.le_max_left _ _)
    obtain ⟨next₃, ran₃, _, same'⟩ := Session.run_of_shadows
      (shadows_of_budget_le grammar rule (Nat.le_max_right budget budget') other.context) rfl idle' idle' ran'
    cases ran₂.symm.trans ran₃
    exact ⟨next', ran', same'.symm.trans same⟩

end Limits

/-- Limits are transparent until they are hit. If a run raises neither that the nesting is too deep nor that there
are too many rule stacks, a run on the same text with limits that are no lower ends in the same way, after as many
passes, and leaves the same offset, values and furthest offset; its budget is no smaller, or is enough for it to
end at all.

With a limit that is not negative, a run raises that the nesting is too deep if and only if the same evaluation
without limits enters a named rule while as many as the limit allows are active. This supposes that no rule raises
that fault itself, as the function of an action may do; otherwise, the evaluation without limits may also end in it.
If it does not get that deep, the limit makes no difference. -/
theorem limits_are_transparent {first next : Session σ} {second : Session τ} (idle : first.running = false)
    (idle' : second.running = false) (source : second.context.source = first.context.source)
    (depths : first.context.maxDepth ≤ second.context.maxDepth)
    (roomier : first.context.maxErrorStacks ≤ second.context.maxErrorStacks) {grammar : Grammar Empty}
    {rule : Rule Empty} {budget : Nat} {shape : Shape} {report : Report}
    (ran : first.run (rule.matcher Interpretation.none grammar budget : Engine σ Bool) shape =
      some (report, next)) :
    ((∀ fault, report.ending = .error fault → ¬fault.IsLimit) → ∀ budget',
      budget ≤ budget' ∨
        second.run (rule.matcher Interpretation.none grammar budget' : Engine τ Bool) shape ≠ none →
      ∃ report' next',
        second.run (rule.matcher Interpretation.none grammar budget' : Engine τ Bool) shape =
          some (report', next') ∧
        report'.ending = report.ending ∧ report'.passes = report.passes ∧
        next'.state.offset = next.state.offset ∧ next'.state.values = next.state.values ∧
        next'.state.tracker.deepest = next.state.tracker.deepest) ∧
    (0 ≤ first.context.maxDepth →
      let limit := first.context.maxDepth
      let unguarded := first.unguardedPass grammar rule
      (grammar.Blameless rule →
        ((∃ exceeded, report.ending = .error (.depthExceeded exceeded)) ↔ ∃ budget', limit ∈ (unguarded budget').1)) ∧
      ((∃ exceeded, report.ending = .error (.depthExceeded exceeded)) ↔
        (∃ budget', limit ∈ (unguarded budget').1) ∨
          ∃ own after, (unguarded budget).2 = some (.error (.fault (.depthExceeded own)), after)) ∧
      ((∃ budget', limit ∈ (unguarded budget').1) → report.ending = .error (.depthExceeded limit)) ∧
      ((∀ budget', limit ∉ (unguarded budget').1) →
        first.nthPass (rule.matcher Interpretation.none grammar budget : Engine σ Bool) 0 =
          (unguarded budget).2)) := by
  constructor
  · intro unhit budget' enough
    obtain ⟨next', ran', same⟩ := run_of_limits_le idle idle' source depths roomier ran unhit enough
    exact ⟨report, next', ran', rfl, rfl, congrArg (@State.offset Unit) same, congrArg (@State.values Unit) same,
      congrArg (Tracker.deepest ∘ @State.tracker Unit) same⟩
  · intro start limit unguarded
    have stopped : (∃ budget', limit ∈ (unguarded budget').1) → report.ending = .error (.depthExceeded limit) :=
      fun ⟨_, entered⟩ => ending_of_entered idle ran entered
    have exceeds : (∃ exceeded, report.ending = .error (.depthExceeded exceeded)) ↔
        (∃ budget', limit ∈ (unguarded budget').1) ∨
          ∃ own after, (unguarded budget).2 = some (.error (.fault (.depthExceeded own)), after) := by
      constructor
      · rintro ⟨exceeded, ending⟩
        obtain ⟨after, plain⟩ := (depthExceeded_iff idle ran exceeded).mp ending
        obtain entered | same := mem_or_eq_unguarded start
        · exact .inl ⟨budget, entered⟩
        · exact .inr ⟨exceeded, after, same.symm.trans plain⟩
      · rintro (entered | ⟨own, after, ended⟩)
        · exact ⟨limit, stopped entered⟩
        · obtain entered | same := mem_or_eq_unguarded start
          · exact ⟨limit, stopped ⟨budget, entered⟩⟩
          · exact ⟨own, (depthExceeded_iff idle ran own).mpr ⟨after, same.trans ended⟩⟩
    refine ⟨fun blameless => ?_, exceeds, stopped, ?_⟩
    · have guarded := (climbs_unguardedPass first grammar rule _ (fun _ other => other) blameless budget).admitted
      refine exceeds.trans (or_iff_left ?_)
      rintro ⟨own, after, ended⟩
      exact guarded _ after ended own rfl
    · intro never
      exact (mem_or_eq_unguarded start).resolve_left (never budget)

def pair : Rule Empty :=
  .firstOf [.sequence [.char '(', .reference "pair", .char ')'], .sequence []]

def pairs : Grammar Empty :=
  { definitions := [("pair", .named (some "pair") pair)] }

def pairsWithin (depth room : Int) : Session Unit :=
  { context := ⟨Source.ofString "(())", depth, room⟩, state := { running := false, memory := () } }

private theorem pairs_blameless : pairs.Blameless (.reference "pair") := by
  intro part meets
  have known : part ∈ [.reference "pair", .named (some "pair") pair, pair,
      .sequence [.char '(', .reference "pair", .char ')'], .sequence [], .char '(', .char ')'] := by
    refine Grammar.mem_of_meets (fun rule known next enters => ?_) List.mem_cons_self meets
    obtain member | ⟨name, rfl, found⟩ := enters
    · simp only [List.mem_cons, List.not_mem_nil, or_false] at known
      rcases known with rfl | rfl | rfl | rfl | rfl | rfl | rfl <;> grind [Rule.parts, pair]
    · simp_all [Grammar.find?, pair, pairs, List.lookup_cons]
  simp only [List.mem_cons, List.not_mem_nil, or_false] at known
  rcases known with rfl | rfl | rfl | rfl | rfl | rfl | rfl <;> simp [Rule.Raises, Grammar.find?, pair, pairs]

/-- Two pairs take three nested rules. With room for as many nothing changes any more, since no budget lets the
evaluation without limits get deeper; with room for two the third one is refused. -/
theorem limits_of_pairs_are_transparent :
    (∃ report next report' next',
      (pairsWithin 3 1).run (Rule.matcher Interpretation.none pairs 16 (.reference "pair")) .all =
        some (report, next) ∧
      (pairsWithin 9 7).run (Rule.matcher Interpretation.none pairs 20 (.reference "pair")) .all =
        some (report', next') ∧
      report'.ending = report.ending ∧ next'.state.offset = 4) ∧
    (∀ budget, 3 ∉ ((pairsWithin 3 1).unguardedPass pairs (.reference "pair") budget).1) ∧
    ∃ report next,
      (pairsWithin 2 1).run (Rule.matcher Interpretation.none pairs 16 (.reference "pair")) .all =
        some (report, next) ∧
      report.ending = .error (.depthExceeded 2) := by
  have idle (depth room : Int) : (pairsWithin depth room).running = false := rfl
  have ran : ∃ report next value,
      (pairsWithin 3 1).run (Rule.matcher Interpretation.none pairs 16 (.reference "pair")) .all =
        some (report, next) ∧ report.ending = .ok (.success value) ∧ next.state.offset = 4 :=
    ⟨_, _, _, rfl, rfl, rfl⟩
  obtain ⟨report, next, value, ran, ending, offset⟩ := ran
  refine ⟨?_, ?_, ?_⟩
  · have unhit : ∀ fault, report.ending = .error fault → ¬fault.IsLimit :=
      fun fault raised => nomatch ending.symm.trans raised
    obtain ⟨report', next', ran', ending', _, offset', _⟩ :=
      (limits_are_transparent (idle 3 1) (idle 9 7) rfl (by decide) (by decide) ran).1 unhit 20
        (.inl (by decide))
    exact ⟨report, next, report', next', ran, ran', ending', offset'.trans offset⟩
  · intro budget entered
    obtain ⟨exceeds, _⟩ :=
      (limits_are_transparent (idle 3 1) (idle 3 1) rfl (by decide) (by decide) ran).2 (by decide)
    obtain ⟨_, raised⟩ := (exceeds pairs_blameless).mpr ⟨budget, entered⟩
    cases ending.symm.trans raised
  · have ran : ∃ report next,
        (pairsWithin 2 1).run (Rule.matcher Interpretation.none pairs 16 (.reference "pair")) .all =
          some (report, next) := ⟨_, _, rfl⟩
    obtain ⟨report, next, ran⟩ := ran
    have levels : ((pairsWithin 2 1).unguardedPass pairs (.reference "pair") 16).1 = [0, 1, 2] := rfl
    have entered : 2 ∈ ((pairsWithin 2 1).unguardedPass pairs (.reference "pair") 16).1 := by
      rw [levels]
      decide
    obtain ⟨_, _, stopped, _⟩ :=
      (limits_are_transparent (idle 2 1) (idle 2 1) rfl (by decide) (by decide) ran).2 (by decide)
    exact ⟨report, next, ran, stopped ⟨16, entered⟩⟩

end PegMatcher
