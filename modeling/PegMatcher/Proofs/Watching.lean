import PegMatcher.Engine.Cursor
import PegMatcher.Proofs.Simulation

/-! # Every moment of an evaluation

A watched evaluation notes the state of the engine at every moment, also if it comes to no end. With each state
it notes how many named rules are active: a named rule is active as long as what its frame belongs to is evaluated.
The guard has no part in this, so that whatever is said of the nesting at a moment ties the guard to the frames.

`watching` says that a watched evaluation ends as the engine does. `attending` says that what every operation of
the engine upholds is upheld at every moment of a rule, provided that it grows and shrinks with the nesting as the
number of active named rules does.
-/

namespace PegMatcher

variable {σ : Type}

/-- A computation that is watched, with some named rules active already. It returns its moments also if it has no
outcome. -/
structure Watched (σ α : Type) where
  run : Context → Nat → State σ → List (Nat × State σ) × Option (Except Interrupt α × State σ)

namespace Watched

variable {α β : Type}

protected def pure (result : α) : Watched σ α :=
  ⟨fun _ _ state => ([], some (.ok result, state))⟩

protected def bind (first : Watched σ α) (next : α → Watched σ β) : Watched σ β :=
  ⟨fun context inside state =>
    match first.run context inside state with
    | (early, none) => (early, none)
    | (early, some (.error interrupt, after)) => (early, some (.error interrupt, after))
    | (early, some (.ok result, middle)) =>
      let rest := (next result).run context inside middle
      (early ++ rest.1, rest.2)⟩

instance : Monad (Watched σ) where
  pure := Watched.pure
  bind := Watched.bind

def perform (operation : Engine σ α) : Watched σ α :=
  ⟨fun context inside state =>
    match operation.run context state with
    | none => ([], none)
    | some (outcome, after) => ([(inside, after)], some (outcome, after))⟩

/-- Adds a frame to the abort signal of a computation, during which one more named rule is active if the frame is
that of one. -/
def framed (frame : Frame) (inner : Watched σ α) : Watched σ α :=
  ⟨fun context inside state =>
    match inner.run context (if frame.kind = .named then inside + 1 else inside) state with
    | (record, none) => (record, none)
    | (record, some (outcome, after)) =>
      (record ++ [(inside, after)], some (outcome.mapError (Interrupt.within frame), after))⟩

/-- Runs a computation one level deeper, unless the guard refuses this. -/
def nested (inner : Watched σ α) : Watched σ α :=
  ⟨fun context inside state =>
    match (Engine.enter : Engine σ Unit).run context state with
    | none => ([], none)
    | some (.error interrupt, after) => ([], some (.error interrupt, after))
    | some (.ok (), deeper) =>
      let body := inner.run context inside deeper
      ((inside, deeper) :: body.1,
        body.2.map fun (outcome, ended) => (outcome, { ended with depth := ended.depth - 1 }))⟩

instance : Machine (Watched σ) where
  Place := Mark
  atEnd := perform Engine.atEnd
  peek := perform Engine.peek
  advance := perform Engine.advance
  offset := perform Engine.offset
  moveTo target := perform (Engine.moveTo target)
  sliceFrom start := perform (Engine.sliceFrom start)
  mark := perform Engine.mark
  reset target := perform (Engine.reset target)
  mismatch := perform Engine.mismatch
  push value := perform (Engine.push value)
  popMany count := perform (Engine.popMany count)
  fail fault := perform (Engine.fail fault)
  framed := framed
  nested := nested
  exhausted := ⟨fun _ _ _ => ([], none)⟩

end Watched

/-- Two computations that both have no outcome, or related ones in the same state. -/
inductive SameEnding {α β : Type} (R : α → β → Prop) :
    Option (Except Interrupt α × State σ) → Option (Except Interrupt β × State σ) → Prop
  | none : SameEnding R none none
  | some {outcome : Except Interrupt α} {outcome' : Except Interrupt β} {after : State σ} :
      Outcomes R outcome outcome' → SameEnding R (some (outcome, after)) (some (outcome', after))

theorem SameEnding.eq {α : Type} {first second : Option (Except Interrupt α × State σ)}
    (same : SameEnding Eq first second) : first = second := by
  cases same with
  | none => rfl
  | some outcomes => rw [outcomes.eq]

theorem SameEnding.refl {α : Type} {R : α → α → Prop} (refl : ∀ result, R result result)
    (ending : Option (Except Interrupt α × State σ)) : SameEnding R ending ending := by
  rcases ending with _ | ⟨interrupt | result, after⟩
  · exact .none
  · exact .some (.error interrupt)
  · exact .some (.ok (refl result))

namespace Watching

/-- A watched computation that ends as another one does. -/
def Ends {α β : Type} (R : α → β → Prop) (x : Watched σ α) (y : Engine σ β) : Prop :=
  ∀ context inside state, SameEnding R (x.run context inside state).2 (y.run context state)

section Ends

variable {α β γ δ : Type} {R : α → β → Prop} {T : γ → δ → Prop}

theorem ends_perform {S : α → α → Prop} (refl : ∀ result, S result result) (operation : Engine σ α) :
    Ends S (Watched.perform operation) operation := by
  intro context inside state
  simp only [Watched.perform]
  rcases operation.run context state with _ | ⟨outcome, after⟩ <;> exact .refl refl _

private theorem ends_bind {x : Watched σ α} {y : Engine σ β} {f : α → Watched σ γ} {g : β → Engine σ δ}
    (head : Ends R x y) (tail : ∀ a b, R a b → Ends T (f a) (g b)) : Ends T (x >>= f) (y >>= g) := by
  intro context inside state
  have same := head context inside state
  change SameEnding T ((Watched.bind x f).run context inside state).2 _
  rw [Watched.bind, Engine.run_bind]
  dsimp only
  generalize x.run context inside state = watched at same ⊢
  generalize y.run context state = plain at same ⊢
  obtain ⟨early, ending⟩ := watched
  cases same with
  | none => exact .none
  | some outcomes =>
    cases outcomes with
    | error interrupt => exact .some (.error interrupt)
    | ok related => exact tail _ _ related context inside _

private theorem ends_framed (frame : Frame) {x : Watched σ α} {y : Engine σ β} (inner : Ends R x y) :
    Ends R (Machine.framed frame x) (Machine.framed frame y) := by
  intro context inside state
  have same := inner context (if frame.kind = .named then inside + 1 else inside) state
  change SameEnding R ((Watched.framed frame x).run context inside state).2 _
  rw [Engine.run_framed, Watched.framed]
  dsimp only
  generalize x.run context _ state = watched at same ⊢
  generalize y.run context state = plain at same ⊢
  obtain ⟨early, ending⟩ := watched
  cases same with
  | none => exact .none
  | some outcomes => exact .some (outcomes.within frame)

private theorem ends_nested {x : Watched σ α} {y : Engine σ β} (inner : Ends R x y) :
    Ends R (Machine.nested x) (Machine.nested y) := by
  intro context inside state
  change SameEnding R ((Watched.nested x).run context inside state).2 _
  rw [Engine.run_nested, Watched.nested, Engine.enter]
  dsimp only
  split_ifs with refused
  · exact .some (.error _)
  · have same := inner context inside { state with depth := state.depth + 1 }
    dsimp only
    generalize (x.run context inside _).2 = watched at same ⊢
    generalize y.run context _ = plain at same ⊢
    cases same with
    | none => exact .none
    | some outcomes => exact .some outcomes

end Ends

/-- The engine, watched. -/
def watching (σ : Type) : ModularSimulation (Watched σ) (Engine σ) where
  Rel live R x y := (∀ p q : Mark, live p q → q = p) → Ends R x y
  Offsets := Eq
  offsets_eq_iff := Simulation.eq_offsets
  pure related := fun _ _ _ _ => .some (.ok related)
  bind head tail := fun places => ends_bind (head places) fun a b related => tail a b related places
  mark_bind tail := by
    intro places
    refine ends_bind (ends_perform (S := Eq) (fun _ => rfl) Engine.mark) ?_
    rintro p _ rfl
    refine tail p p ?_
    rintro p' q' (old | ⟨rfl, rfl⟩)
    · exact places p' q' old
    · rfl
  reset known := fun places => by
    cases places _ _ known
    exact ends_perform (fun _ => trivial) _
  atEnd := fun _ => ends_perform (fun _ => rfl) _
  peek := fun _ => ends_perform (fun _ => rfl) _
  advance := fun _ => ends_perform (fun _ => trivial) _
  offset := fun _ => ends_perform (fun _ => rfl) _
  moveTo := by
    rintro _ a _ rfl _
    exact ends_perform (fun _ => trivial) _
  sliceFrom := by
    rintro _ a _ rfl _
    exact ends_perform (fun _ => rfl) _
  mismatch := fun _ => ends_perform (fun _ => trivial) _
  push value := fun _ => ends_perform (fun _ => trivial) _
  popMany count := fun _ => ends_perform (fun _ => rfl) _
  fail fault _ := fun _ _ _ _ => .some (.error _)
  anyFrame frame inner := fun places => ends_framed frame (inner places)
  nested inner := fun places => ends_nested (inner places)
  exhausted := fun _ _ _ _ => .none

/-- An operation that upholds something, whatever the number of active named rules. -/
def Upholds {α : Type} (context : Context) (holds : Nat → State σ → Prop) (operation : Engine σ α) : Prop :=
  ∀ ⦃inside state outcome after⦄, holds inside state → operation.run context state = some (outcome, after) →
    holds inside after

/-- Something that is upheld by every operation of the engine, where a return goes to a spot that was seen before. -/
structure Upheld (context : Context) (spot : Int → Prop) (holds : Nat → State σ → Prop) : Prop where
  offset : ∀ inside state, holds inside state → spot state.offset
  advance : Upholds context holds Engine.advance
  moveTo : ∀ target, spot target → Upholds context holds (Engine.moveTo target)
  reset : ∀ target : Mark, spot target.offset → Upholds context holds (Engine.reset target)
  mismatch : Upholds context holds Engine.mismatch
  push : ∀ value, Upholds context holds (Engine.push value)
  popMany : ∀ count, Upholds context holds (Engine.popMany count)
  enter : ∀ inside (state : State σ), holds inside state → state.depth < context.maxDepth →
    holds (inside + 1) { state with depth := state.depth + 1 }
  leave : ∀ inside (state : State σ), holds (inside + 1) state →
    holds inside { state with depth := state.depth - 1 }

/-- What was watched upholds something at every moment and, with some named rules active, in the end, where the
result is related to something. -/
def Attended {α β : Type} (holds : Nat → State σ → Prop) (R : α → β → Prop) (inside : Nat)
    (watched : List (Nat × State σ) × Option (Except Interrupt α × State σ)) : Prop :=
  (∀ moment ∈ watched.1, holds moment.1 moment.2) ∧
    ∀ outcome after, watched.2 = some (outcome, after) →
      holds inside after ∧ ∀ a, outcome = .ok a → ∃ b, R a b

def Attends {α β : Type} (context : Context) (holds : Nat → State σ → Prop) (R : α → β → Prop)
    (x : Watched σ α) : Prop :=
  ∀ ⦃inside state⦄, holds inside state → Attended holds R inside (x.run context inside state)

section Attends

variable {α β γ δ : Type} {R : α → β → Prop} {T : γ → δ → Prop} {context : Context}
  {holds : Nat → State σ → Prop}

private theorem attended_interrupt {record : List (Nat × State σ)} {inside : Nat} {after : State σ}
    {interrupt : Interrupt} (moments : ∀ moment ∈ record, holds moment.1 moment.2) (held : holds inside after) :
    Attended holds R inside (record, some (.error interrupt, after)) := by
  refine ⟨moments, ?_⟩
  rintro _ _ ⟨⟩
  exact ⟨held, fun _ same => by cases same⟩

theorem attends_perform {operation : Engine σ α} (upholds : Upholds context holds operation)
    (related : ∀ a, ∃ b, R a b) : Attends context holds R (Watched.perform operation) := by
  intro inside state start
  simp only [Watched.perform]
  rcases ran : operation.run context state with _ | ⟨outcome, after⟩
  · exact ⟨List.forall_mem_nil _, by rintro _ _ ⟨⟩⟩
  · have held := upholds start ran
    refine ⟨List.forall_mem_singleton.mpr held, ?_⟩
    rintro _ _ ⟨⟩
    exact ⟨held, fun a _ => related a⟩

private theorem upholds_observe (view : Context → State σ → α) :
    Upholds context holds (Engine.observe view) := by
  intro inside state outcome after start ran
  cases ran
  exact start

private theorem upholds_peek : Upholds context holds (Engine.peek : Engine σ Char) := by
  intro inside state outcome after start ran
  rwa [Engine.state_of_peek ran]

private theorem attends_bind {x : Watched σ α} {f : α → Watched σ γ} (head : Attends context holds R x)
    (tail : ∀ a b, R a b → Attends context holds T (f a)) : Attends context holds T (x >>= f) := by
  intro inside state start
  have began := head start
  change Attended holds T inside ((Watched.bind x f).run context inside state)
  rw [Watched.bind]
  dsimp only
  generalize x.run context inside state = watched at began ⊢
  obtain ⟨early, _ | ⟨interrupt | a, middle⟩⟩ := watched
  · exact ⟨began.1, by rintro _ _ ⟨⟩⟩
  · exact attended_interrupt began.1 (began.2 _ middle rfl).1
  · obtain ⟨held, related⟩ := began.2 _ middle rfl
    obtain ⟨b, here⟩ := related a rfl
    obtain ⟨moments, ends⟩ := tail a b here held
    exact ⟨List.forall_mem_append.mpr ⟨began.1, moments⟩, ends⟩

/-- Behind a frame as many named rules are active as before. -/
private theorem attended_framed {frame : Frame} {x : Watched σ α} {inside : Nat} {state : State σ}
    (body : Attended holds R inside
      (x.run context (if frame.kind = .named then inside + 1 else inside) state)) :
    Attended holds R inside ((Watched.framed frame x).run context inside state) := by
  rw [Watched.framed]
  dsimp only
  generalize x.run context _ state = watched at body ⊢
  obtain ⟨record, _ | ⟨interrupt | a, last⟩⟩ := watched
  · exact ⟨body.1, by rintro _ _ ⟨⟩⟩
  · have held := (body.2 _ last rfl).1
    exact attended_interrupt (List.forall_mem_append.mpr ⟨body.1, List.forall_mem_singleton.mpr held⟩) held
  · obtain ⟨held, related⟩ := body.2 _ last rfl
    refine ⟨List.forall_mem_append.mpr ⟨body.1, List.forall_mem_singleton.mpr held⟩, ?_⟩
    rintro _ _ ⟨⟩
    exact ⟨held, related⟩

/-- The guard and the frame of a named rule count it alike. -/
private theorem attends_named {spot : Int → Prop} (upheld : Upheld context spot holds) (name : Option String)
    {x : Watched σ Bool} {R : Bool → β → Prop} (body : Attends context holds R x) :
    Attends context holds R (Matcher.named name x) := by
  intro inside state start
  change Attended holds R inside ((Watched.framed _ (Watched.nested x)).run context inside state)
  apply attended_framed
  rw [if_pos rfl, Watched.nested, Engine.enter]
  dsimp only
  split_ifs with refused
  · exact attended_interrupt (List.forall_mem_nil _) start
  · have entered := upheld.enter inside state start (Int.not_le.mp refused)
    obtain ⟨moments, ends⟩ := body entered
    refine ⟨List.forall_mem_cons.mpr ⟨entered, moments⟩, fun outcome after ended => ?_⟩
    obtain ⟨⟨_, last⟩, ran, same⟩ := Option.map_eq_some_iff.mp ended
    cases same
    obtain ⟨held, related⟩ := ends _ last ran
    exact ⟨upheld.leave inside last held, related⟩

end Attends

/-- To be upheld at every moment passes from the parts of a rule to the rule. -/
def attending {context : Context} {spot : Int → Prop} {holds : Nat → State σ → Prop}
    (upheld : Upheld context spot holds) : Simulation (Watched σ) (Watched σ) where
  Rel live R x _ := (∀ p q : Mark, live p q → spot p.offset) → Attends context holds R x
  Offsets a b := a = b ∧ spot a
  offsets_eq_iff first second := Simulation.eq_offsets first.1 second.1
  pure {_ _ _ _ _ b} related := by
    intro _ inside state start
    refine ⟨List.forall_mem_nil _, ?_⟩
    rintro _ _ ⟨⟩
    refine ⟨start, ?_⟩
    rintro _ ⟨⟩
    exact ⟨b, related⟩
  bind head tail := fun places => attends_bind (head places) fun a b related => tail a b related places
  mark_bind tail := by
    intro places
    refine attends_bind (R := fun (p q : Mark) => p = q ∧ spot p.offset) ?_ ?_
    · intro inside state start
      refine ⟨List.forall_mem_singleton.mpr start, ?_⟩
      rintro _ _ ⟨⟩
      exact ⟨start, fun p same => by cases same; exact ⟨_, rfl, upheld.offset inside state start⟩⟩
    · rintro p _ ⟨rfl, here⟩
      refine tail p p ?_
      rintro p' q' (old | ⟨rfl, rfl⟩)
      · exact places p' q' old
      · exact here
  reset known := fun places => attends_perform (upheld.reset _ (places _ _ known)) fun _ => ⟨(), trivial⟩
  atEnd := fun _ => attends_perform (upholds_observe _) fun a => ⟨a, rfl⟩
  peek := fun _ => attends_perform upholds_peek fun a => ⟨a, rfl⟩
  advance := fun _ => attends_perform upheld.advance fun a => ⟨a, trivial⟩
  offset := by
    intro live places inside state start
    refine ⟨List.forall_mem_singleton.mpr start, ?_⟩
    rintro _ _ ⟨⟩
    exact ⟨start, fun a same => by cases same; exact ⟨_, rfl, upheld.offset inside state start⟩⟩
  moveTo target := fun _ => attends_perform (upheld.moveTo _ target.2) fun _ => ⟨(), trivial⟩
  sliceFrom _ := fun _ => attends_perform (upholds_observe _) fun a => ⟨a, rfl⟩
  mismatch := fun _ => attends_perform upheld.mismatch fun _ => ⟨(), trivial⟩
  push value := fun _ => attends_perform (upheld.push value) fun _ => ⟨(), trivial⟩
  popMany count := fun _ => attends_perform (upheld.popMany count) fun a => ⟨a, rfl⟩
  fail fault _ := fun _ _ _ start => attended_interrupt (List.forall_mem_singleton.mpr start) start
  framed frame nameless inner := by
    intro places inside state start
    apply attended_framed
    rw [if_neg nameless]
    exact inner places start
  named name body := fun places => attends_named upheld name (body places)
  exhausted := fun _ _ _ _ => ⟨List.forall_mem_nil _, by rintro _ _ ⟨⟩⟩

end Watching

section Rules

open Watching

variable {χ : Type} {host : Interpretation χ (Watched σ)} {grammar : Grammar χ} {rule : Rule χ}

/-- A watched rule ends as the rule does. -/
theorem ending_of_watched {host' : Interpretation χ (Engine σ)} (hosts : (watching σ).Hosts host host')
    (budget inside : Nat) (context : Context) (state : State σ) :
    ((rule.matcher host grammar budget).run context inside state).2 =
      (rule.matcher host' grammar budget).run context state := by
  have agree := Simulation.matcher hosts grammar (.inl rfl : (watching σ).Fits budget budget) rule
  exact (agree (fun _ _ => False) (fun _ _ => False.elim) context inside state).eq

/-- What is upheld at the start of a rule is upheld at every moment, and in the end. -/
theorem holds_of_watched {context : Context} {spot : Int → Prop} {holds : Nat → State σ → Prop}
    (upheld : Upheld context spot holds) (hosts : (attending upheld).Hosts host host) (grammar : Grammar χ)
    (rule : Rule χ) (budget : Nat) {inside : Nat} {state : State σ} (start : holds inside state) :
    let watched := (rule.matcher host grammar budget).run context inside state
    (∀ moment ∈ watched.1, holds moment.1 moment.2) ∧
      ∀ outcome after, watched.2 = some (outcome, after) → holds inside after := by
  have agree := Simulation.matcher hosts grammar (.inl rfl : (attending upheld).Fits budget budget) rule
  obtain ⟨moments, ends⟩ := agree (fun _ _ => False) (fun _ _ => False.elim) start
  exact ⟨moments, fun outcome after ended => (ends outcome after ended).1⟩

end Rules

end PegMatcher
