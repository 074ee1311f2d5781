import PegMatcher.Proofs.Locality
import PegMatcher.Proofs.Trails

/-! # Values never influence matching

The erasure of a rule does nothing with values: what is captured is only matched, and a rule that pushes or
computes a value matches nothing. As long as the rule itself meets no fault, it takes the steps of its erasure
and, between them, some steps on values. So both give the same answer and report the same mismatches, but for
the frames of captures.

`bare` is the simulation between the two. An erased evaluation has no values at all, so its returns to a place
cannot go wrong, and nothing needs to be known of the values of the other one. One level of most rules is
covered by `TextSimulation.denote`; only captures, pushes and actions differ from their erasures.
-/

namespace PegMatcher

variable {σ χ : Type}

namespace Rule

mutual

/-- A rule without what it does with values. -/
def erase : Rule χ → Rule χ
  | sequence parts => sequence (eraseAll parts)
  | firstOf alternatives => firstOf (eraseAll alternatives)
  | optional body => optional body.erase
  | zeroOrMore body => zeroOrMore body.erase
  | oneOrMore body => oneOrMore body.erase
  | andPredicate body => andPredicate body.erase
  | notPredicate body => notPredicate body.erase
  | capture body => body.erase
  | push _ => sequence []
  | action _ _ => sequence []
  | named name body => named name body.erase
  | extension host parts => extension host (eraseAll parts)
  | rule => rule

def eraseAll : List (Rule χ) → List (Rule χ)
  | [] => []
  | rule :: rest => rule.erase :: eraseAll rest

end

theorem eraseAll_eq_map (rules : List (Rule χ)) : eraseAll rules = rules.map erase := by
  induction rules with
  | nil => simp only [eraseAll, List.map_nil]
  | cons rule rest ih => simp only [eraseAll, List.map_cons, ih]

/-- An erased rule works on the text alone. -/
theorem textual_erase : (rule : Rule Empty) → rule.erase.Textual
  | capture body => by
    rw [erase]
    exact textual_erase body
  | extension extended _ => extended.elim
  | char _ | literal _ | anyOf _ | range _ _ | anyChar | endOfInput | sequence _ | firstOf _ | optional _
  | zeroOrMore _ | oneOrMore _ | andPredicate _ | notPredicate _ | push _ | action _ _ | named _ _
  | reference _ | unbuilt _ => by
    simp only [erase, Textual]

end Rule

def Grammar.erase (grammar : Grammar χ) : Grammar χ :=
  ⟨grammar.definitions.map fun (name, rule) => (name, rule.erase)⟩

theorem Grammar.find?_erase (grammar : Grammar χ) (name : String) :
    grammar.erase.find? name = (grammar.find? name).map Rule.erase := by
  simp only [find?, erase]
  induction grammar.definitions with
  | nil => rfl
  | cons definition rest ih =>
    rw [List.map_cons, List.lookup_cons, List.lookup_cons, ih]
    split <;> rfl

def withoutCaptures (path : List Frame) : List Frame :=
  path.filter fun frame => frame.kind ≠ .capture

def RuleStack.withoutCaptures (stack : RuleStack) : RuleStack :=
  ⟨PegMatcher.withoutCaptures stack.frames⟩

namespace Erasure

/-- The same state without values. -/
structure Bare (state bare : State σ) : Prop where
  offset : bare.offset = state.offset
  tracker : bare.tracker = state.tracker
  depth : bare.depth = state.depth
  values : bare.values = .empty

/-- An operation that comes to its result without looking at the values. -/
def Blind {α : Type} (operation : Engine σ α) : Prop :=
  ∀ ⦃context state bare result after⦄, Bare state bare → operation.run context state = some (.ok result, after) →
    ∃ after', operation.run context bare = some (.ok result, after') ∧ Bare after after'

private theorem blind_observe {α : Type} {view : Context → State σ → α}
    (same : ∀ context (state bare : State σ), bare.offset = state.offset → view context bare = view context state) :
    Blind (Engine.observe view) := by
  intro context state bare result after alike ran
  cases ran
  exact ⟨bare, by simp only [Engine.observe, same context state bare alike.offset], alike⟩

private theorem blind_peek : Blind (Engine.peek : Engine σ Char) := by
  intro context state bare result after alike ran
  simp only [Engine.peek, alike.offset] at ran ⊢
  split at ran
  · rw [if_pos ‹_›]
    split at ran <;> cases ran
    exact ⟨bare, rfl, alike⟩
  · rw [if_neg ‹_›]
    cases ran
    exact ⟨bare, rfl, alike⟩

private theorem blind_advance : Blind (Engine.advance : Engine σ Char) := by
  intro context state bare result after alike ran
  simp only [Engine.advance, alike.offset, alike.tracker] at ran ⊢
  split at ran
  · rw [if_pos ‹_›]
    split at ran <;> cases ran
    exact ⟨_, rfl, rfl, rfl, alike.depth, alike.values⟩
  · rw [if_neg ‹_›]
    cases ran
    exact ⟨bare, rfl, alike⟩

private theorem blind_moveTo (target : Int) : Blind (Engine.moveTo target : Engine σ Unit) := by
  intro context state bare result after alike ran
  cases ran
  exact ⟨_, rfl, rfl, alike.tracker, alike.depth, alike.values⟩

private theorem blind_mismatch : Blind (Engine.mismatch : Engine σ Unit) := by
  intro context state bare result after alike ran
  change (Engine.registerAt state.offset).run context state = _ at ran
  change ∃ after', (Engine.registerAt bare.offset).run context bare = _ ∧ _
  rw [alike.offset]
  simp only [Engine.registerAt, alike.tracker] at ran ⊢
  split at ran <;> cases ran
  rw [if_neg ‹_›]
  exact ⟨_, rfl, alike.offset, rfl, alike.depth, alike.values⟩

private theorem blind_enter : Blind (Engine.enter : Engine σ Unit) := by
  intro context state bare result after alike ran
  simp only [Engine.enter, alike.depth] at ran ⊢
  split at ran <;> cases ran
  rw [if_neg ‹_›]
  exact ⟨_, rfl, alike.offset, alike.tracker, rfl, alike.values⟩

/-- The mismatches of a record, with the frames of captures left out. -/
def shown (record : List (Moment σ)) : List (Int × List Frame) :=
  (mismatches record).map fun (offset, frames) => (offset, withoutCaptures frames)

@[simp] theorem shown_append (early late : List (Moment σ)) : shown (early ++ late) = shown early ++ shown late := by
  simp only [shown, mismatches_append, List.map_append]

private theorem shown_other (active : List Frame) (state : State σ) : shown [⟨.other, active, state⟩] = [] := rfl

/-- Whenever the first evaluation returns a result, so does the second one, from a state without values and with
the same active rules but for captures. -/
def Follows {α β : Type} (R : α → β → Prop) (context : Context) (x : Evaluation .byDepth σ α)
    (y : Evaluation .byDepth σ β) : Prop :=
  ∀ ⦃active active' past past' state bare result after record⦄,
    withoutCaptures active' = withoutCaptures active → Bare state bare →
    x.run context active past state = some (.ok result, after, record) →
    ∃ result' after' record', y.run context active' past' bare = some (.ok result', after', record') ∧
      R result result' ∧ Bare after after' ∧ shown record' = shown record

theorem follows_perform {α : Type} {R : α → α → Prop} (refl : ∀ result, R result result) {operation : Engine σ α}
    (blind : Blind operation) (context : Context) :
    Follows R context (Evaluation.perform .other operation) (Evaluation.perform .other operation) := by
  intro active active' past past' state bare result after record _ alike ran
  obtain ⟨performed, rfl⟩ := Evaluation.run_perform_eq_some.mp ran
  obtain ⟨after', performed', alike'⟩ := blind alike performed
  exact ⟨result, after', _, Evaluation.run_perform_eq_some.mpr ⟨performed', rfl⟩, refl result, alike', rfl⟩

theorem follows_mismatch (context : Context) :
    Follows (fun _ _ => True) context (Machine.mismatch : Evaluation .byDepth σ Unit) Machine.mismatch := by
  intro active active' past past' state bare result after record same alike ran
  obtain ⟨performed, rfl⟩ := Evaluation.run_perform_eq_some.mp ran
  obtain ⟨after', performed', alike'⟩ := blind_mismatch alike performed
  refine ⟨result, after', _, Evaluation.run_perform_eq_some.mpr ⟨performed', rfl⟩, trivial, alike', ?_⟩
  change [(after'.offset, withoutCaptures active')] = [(after.offset, withoutCaptures active)]
  rw [alike'.offset, same]

theorem follows_bind {α β γ δ : Type} {R : α → β → Prop} {T : γ → δ → Prop} {context : Context}
    {x : Evaluation .byDepth σ α} {y : Evaluation .byDepth σ β} {f : α → Evaluation .byDepth σ γ}
    {g : β → Evaluation .byDepth σ δ} (head : Follows R context x y)
    (tail : ∀ a b, R a b → Follows T context (f a) (g b)) : Follows T context (x >>= f) (y >>= g) := by
  intro active active' past past' state bare result after record same alike ran
  obtain ⟨a, middle, early, late, began, rest, rfl⟩ := Evaluation.run_bind_eq_ok.mp ran
  obtain ⟨b, middle', early', began', related, alike', earlier⟩ := head same alike began
  obtain ⟨result', after', late', rest', related', alike'', later⟩ := tail a b related same alike' rest
  refine ⟨result', after', early' ++ late', ?_, related', alike'', ?_⟩
  · exact Evaluation.run_bind_eq_ok.mpr ⟨b, middle', early', late', began', rest', rfl⟩
  · rw [shown_append, shown_append, earlier, later]

/-- Both sides have the same rule active. -/
theorem follows_framed {α β : Type} {R : α → β → Prop} {context : Context} {x : Evaluation .byDepth σ α}
    {y : Evaluation .byDepth σ β} (frame : Frame) (inner : Follows R context x y) :
    Follows R context (Machine.framed frame x) (Machine.framed frame y) := by
  intro active active' past past' state bare result after record same alike ran
  have deeper : withoutCaptures (active' ++ [frame]) = withoutCaptures (active ++ [frame]) := by
    rw [withoutCaptures, withoutCaptures, List.filter_append, List.filter_append]
    exact congrArg (· ++ _) same
  obtain ⟨result', after', record', ran', rest⟩ := inner deeper alike (Evaluation.run_framed_eq_ok.mp ran)
  exact ⟨result', after', record', Evaluation.run_framed_eq_ok.mpr ran', rest⟩

private theorem follows_nested {α β : Type} {R : α → β → Prop} {context : Context} {x : Evaluation .byDepth σ α}
    {y : Evaluation .byDepth σ β} (inner : Follows R context x y) :
    Follows R context (Machine.nested x) (Machine.nested y) := by
  refine follows_bind (follows_perform (R := fun _ _ => True) (fun _ => trivial) blind_enter context) fun _ _ _ => ?_
  intro active active' past past' state bare result after record same alike ran
  obtain ⟨ended, moments, matched, rfl, rfl⟩ := Evaluation.run_always_eq_some.mp ran
  obtain ⟨result', ended', moments', ran', related, alike', shows⟩ := inner same alike matched
  refine ⟨result', _, _, Evaluation.run_always_eq_some.mpr ⟨ended', moments', ran', rfl, rfl⟩, related, ?_, ?_⟩
  · exact ⟨alike'.offset, alike'.tracker, congrArg (· - 1) alike'.depth, alike'.values⟩
  · rw [shown_append, shown_append, shows, shown_other, shown_other]

/-- A place on one side and the same place without values on the other one. -/
def SamePlace (p q : Checkpoint) : Prop :=
  q.offset = p.offset ∧ q.values = .empty

private theorem follows_mark (context : Context) :
    Follows SamePlace context (Machine.mark : Evaluation .byDepth σ Checkpoint)
      (Machine.mark : Evaluation .byDepth σ Checkpoint) := by
  intro active active' past past' state bare result after record _ alike ran
  cases ran
  exact ⟨_, bare, _, rfl, ⟨alike.offset, alike.values⟩, alike, rfl⟩

/-- Without values there are as many as at the place to return to. -/
theorem follows_reset {p q : Checkpoint} (place : SamePlace p q) (context : Context) :
    Follows (fun _ _ => True) context (Machine.reset p : Evaluation .byDepth σ Unit)
      (Machine.reset q : Evaluation .byDepth σ Unit) := by
  intro active active' past past' state bare result after record same alike ran
  obtain ⟨performed, rfl⟩ := Evaluation.run_perform_eq_some.mp ran
  obtain ⟨_, rfl⟩ := Engine.run_reset_eq_ok_iff.mp performed
  obtain ⟨offset, values⟩ := place
  have reached : q.toMark.depth = bare.values.depth := congrArg ValueStack.depth (values.trans alike.values.symm)
  have performed' : (Machine.reset q.toMark : Engine σ Unit).run context bare =
      some (.ok (), { bare with offset := q.offset }) := by
    refine Engine.run_reset_eq_ok_iff.mpr ⟨Nat.le_of_eq reached, ?_⟩
    rw [reached, ValueStack.take_depth]
    rfl
  refine ⟨(), _, _, Evaluation.run_perform_eq_some.mpr ⟨performed', rfl⟩, trivial, ?_, rfl⟩
  exact ⟨offset, alike.tracker, alike.depth, alike.values⟩

/-- An evaluation beside one that does nothing with values. -/
def bare (σ : Type) (context : Context) : TextSimulation (Evaluation .byDepth σ) (Evaluation .byDepth σ) where
  Rel live R x y := (∀ p q : Checkpoint, live p q → SamePlace p q) → Follows R context x y
  Offsets := Eq
  offsets_eq_iff := Simulation.eq_offsets
  pure related := by
    intro _ active active' past past' state bare result after record _ alike ran
    cases ran
    exact ⟨_, bare, [], rfl, related, alike, rfl⟩
  bind head tail := fun places => follows_bind (head places) fun a b related => tail a b related places
  mark_bind tail := by
    intro places
    refine follows_bind (follows_mark context) fun p q place => tail p q ?_
    rintro p' q' (old | ⟨rfl, rfl⟩)
    · exact places p' q' old
    · exact place
  reset known := fun places => follows_reset (places _ _ known) context
  atEnd := fun _ => follows_perform (fun _ => rfl) (blind_observe fun _ _ _ offset => by rw [offset]) context
  peek := fun _ => follows_perform (fun _ => rfl) blind_peek context
  advance := fun _ => follows_perform (fun _ => trivial) blind_advance context
  offset := fun _ => follows_perform (fun _ => rfl) (blind_observe fun _ _ _ offset => offset) context
  moveTo := by
    rintro _ a _ rfl _
    exact follows_perform (fun _ => trivial) (blind_moveTo a) context
  mismatch := fun _ => follows_mismatch context
  fail fault _ := by
    intro _ active active' past past' state bare result after record _ alike ran
    cases ran
  framed frame _ inner := fun places => follows_framed frame (inner places)
  named _ inner := fun places => follows_framed _ (follows_nested (inner places))
  exhausted := by
    intro _ _ _ _ _ active active' past past' state bare result after record _ alike ran
    cases ran

private theorem bare_lax (context : Context) : (bare σ context).Lax := by
  intro _ _ _ _ _ _ active active' past past' state bare result after record _ alike ran
  cases ran

/-- One level of an erased rule is one level of the rule itself, on erased parts. -/
theorem denote_erase {m : Type → Type} [Machine m] {rule : Rule χ} (textual : rule.Textual)
    (host : Interpretation χ m) (grammar : Grammar χ) (bound : Nat) (inner : Rule χ → m Bool) :
    rule.erase.denote host grammar.erase bound inner =
      rule.denote host grammar bound fun part => inner part.erase := by
  cases rule with
  | capture | push | action | extension => exact textual.elim
  | sequence | firstOf => simp only [Rule.erase, Rule.denote, Rule.eraseAll_eq_map, List.map_map, Function.comp_def]
  | reference name =>
    simp only [Rule.erase, Rule.denote, Grammar.find?_erase]
    cases grammar.find? name <;> rfl
  | _ => simp only [Rule.erase, Rule.denote]

section Values

variable {context : Context} {record : List (Moment σ)} {state after : State σ}

private theorem bare_of_valuesOnly {bare : State σ} (touched : Evaluation.ValuesOnly state after record)
    (alike : Bare state bare) : Bare after bare :=
  ⟨alike.offset.trans touched.offset.symm, alike.tracker.trans touched.tracker.symm,
    alike.depth.trans touched.depth.symm, alike.values⟩

private theorem shown_of_silent (silent : mismatches record = []) : shown record = [] := by
  rw [shown, silent, List.map_nil]

/-- What touches the values alone stands beside what does nothing. -/
theorem follows_nothing {x y : Evaluation .byDepth σ Bool}
    (touches : ∀ ⦃active past state answer after record⦄,
      x.run context active past state = some (.ok answer, after, record) →
        answer = true ∧ Evaluation.ValuesOnly state after record)
    (nothing : ∀ active past state, ∃ record, y.run context active past state = some (.ok true, state, record) ∧
      shown record = []) : Follows Eq context x y := by
  intro active active' past past' state bare answer after record _ alike ran
  obtain ⟨rfl, touched⟩ := touches ran
  obtain ⟨record', ran', silent⟩ := nothing active' past' bare
  exact ⟨true, bare, record', ran', rfl, bare_of_valuesOnly touched alike,
    silent.trans (shown_of_silent touched.silent).symm⟩

/-- A capture stands beside its body. -/
theorem follows_capture {x y : Evaluation .byDepth σ Bool} (body : Follows Eq context x y) :
    Follows Eq context (Matcher.capture x) y := by
  intro active active' past past' state bare answer after record same alike ran
  have under : withoutCaptures active' = withoutCaptures (active ++ [{ kind := .capture }]) := by
    rw [same, withoutCaptures, withoutCaptures, List.filter_append]
    exact (List.append_nil _).symm
  obtain ⟨early, middle, moments, late, began, silent, touched, rfl⟩ := Evaluation.capture_cases ran
  obtain ⟨_, after', record', ran', rfl, alike', shows⟩ := body under alike began
  refine ⟨answer, after', record', ran', rfl, bare_of_valuesOnly touched alike', ?_⟩
  rw [shows, shown_append, shown_append, shown_of_silent silent, shown_of_silent touched.silent, List.nil_append,
    List.append_nil]

end Values

/-- To build a computation only when it is run makes no difference. -/
theorem follows_suspend {α β : Type} {R : α → β → Prop} {context : Context} {f : Unit → Evaluation .byDepth σ α}
    {y : Evaluation .byDepth σ β} (built : Follows R context (f ()) y) :
    Follows R context (Machine.suspend f) y := by
  intro active active' past past' state bare result after record same alike ran
  obtain ⟨_, _, _, late, started, rest, rfl⟩ := Evaluation.run_bind_eq_ok.mp ran
  cases started
  exact built same alike rest

/-- A rule stands beside its erasure, under every budget that is no smaller. -/
theorem agree_erase (context : Context) (grammar : Grammar Empty) {budget budget' : Nat} (le : budget ≤ budget')
    (rule : Rule Empty) :
    (bare σ context).Agree (rule.matcher Interpretation.none grammar budget)
      (rule.erase.matcher Interpretation.none grammar.erase budget') := by
  induction budget generalizing budget' rule with
  | zero => exact fun live => bare_lax context live Eq _
  | succ budget ih =>
    obtain ⟨rest, rfl⟩ : ∃ rest, budget' = rest + 1 := ⟨budget' - 1, by omega⟩
    intro live
    have sameLevel (textual : rule.Textual) : (bare σ context).Rel live Eq
        (rule.matcher Interpretation.none grammar (budget + 1))
        (rule.erase.matcher Interpretation.none grammar.erase (rest + 1)) := by
      have started : (bare σ context).Rel live (fun (_ _ : Unit) => True) (pure ()) (pure ()) :=
        (bare σ context).pure trivial
      refine TextSimulation.andThen started fun _ _ => ?_
      rw [denote_erase textual]
      exact TextSimulation.denote textual _ _ (rule.raises_of_forall fun _ => trivial)
        (.inr ⟨bare_lax context, Nat.le_of_succ_le_succ le⟩)
        (fun part _ => ih (Nat.le_of_succ_le_succ le) part) live
    -- The empty sequence in place of a value takes a mark and matches.
    have nothing (active : List Frame) (past : List (Moment σ)) (state : State σ) : ∃ record,
        ((Rule.sequence []).matcher Interpretation.none grammar.erase (rest + 1) : Evaluation .byDepth σ Bool).run
          context active past state = some (.ok true, state, record) ∧ shown record = [] := ⟨_, rfl, rfl⟩
    cases rule with
    | capture body =>
      intro places
      rw [Rule.erase]
      exact follows_suspend (follows_capture (ih (Nat.le_of_succ_le le) body live places))
    | push value =>
      intro places
      rw [Rule.erase]
      exact follows_suspend (follows_nothing (fun _ _ _ _ _ _ ran => Evaluation.valuesOnly_pushValue ran) nothing)
    | action arity compute =>
      intro places
      rw [Rule.erase]
      exact follows_suspend (follows_nothing (fun _ _ _ _ _ _ ran => Evaluation.valuesOnly_action ran) nothing)
    | extension extended => exact extended.elim
    | _ => exact sameLevel (by trivial)

/-- The parts of an erased rule are erased. -/
theorem erased_part : (rule : Rule χ) → ∀ part ∈ rule.erase.parts, ∃ original : Rule χ, part = original.erase
  | .capture body => by
    rw [Rule.erase]
    exact erased_part body
  | .sequence parts | .firstOf parts | .extension _ parts => by
    rw [Rule.erase, Rule.parts, Rule.eraseAll_eq_map, List.forall_mem_map]
    exact fun original _ => ⟨original, rfl⟩
  | .optional body | .zeroOrMore body | .oneOrMore body | .andPredicate body | .notPredicate body
  | .named _ body => by
    rw [Rule.erase, Rule.parts, List.forall_mem_singleton]
    exact ⟨body, rfl⟩
  | .push _ | .action _ _ | .char _ | .literal _ | .anyOf _ | .range _ _ | .anyChar | .endOfInput
  | .reference _ | .unbuilt _ => by
    simp only [Rule.erase, Rule.parts, List.not_mem_nil, false_implies, implies_true]

/-- All rules on a trail through an erased grammar are erased. -/
theorem erased_of_trail {grammar : Grammar χ} {rule leaf : Rule χ} {passed : List (Rule χ)}
    (trail : grammar.erase.Trail rule passed leaf) (erased : ∃ original : Rule χ, rule = original.erase) :
    ∀ inner ∈ passed ++ [leaf], ∃ original : Rule χ, inner = original.erase := by
  induction trail with
  | leaf _ => exact List.forall_mem_singleton.mpr erased
  | part member _ ih =>
    obtain ⟨original, rfl⟩ := erased
    exact List.forall_mem_cons.mpr ⟨⟨original, rfl⟩, ih (erased_part original _ member)⟩
  | target found _ ih =>
    rw [Grammar.find?_erase] at found
    obtain ⟨original, _, rfl⟩ := Option.map_eq_some_iff.mp found
    exact ih ⟨original, rfl⟩

private theorem kind_ne_capture {rule : Rule χ} (textual : rule.Textual) {frame : Frame}
    (framed : rule.frame? = some frame) :
    frame.kind ≠ .capture := by
  cases rule <;> cases framed <;> first | exact textual.elim | nofun

open Trails in
/-- There are no frames of captures to leave out. -/
theorem withoutCaptures_of_leads {grammar : Grammar Empty} {text : List Char} {rule : Rule Empty}
    {path : List Frame} {offset : Int} (leads : Leads grammar.erase text rule.erase path offset) :
    withoutCaptures path = path := by
  obtain ⟨passed, leaf, trail, frames, _⟩ := leads
  refine List.filter_eq_self.mpr fun frame member => decide_eq_true ?_
  have present : some frame ∈ (passed ++ [leaf]).map Rule.frame? := frames ▸ List.mem_map_of_mem member
  obtain ⟨inner, onTrail, framed⟩ := List.mem_map.mp present
  obtain ⟨original, rfl⟩ := erased_of_trail trail ⟨rule, rfl⟩ inner onTrail
  exact kind_ne_capture (Rule.textual_erase original) framed

section Passes

variable {grammar : Grammar Empty} {rule : Rule Empty} {budget budget' : Nat} {context : Context} {memory : σ}
  {answer : Bool} {after : State σ} {record : List (Moment σ)}

theorem shown_erase {outcome : Except Interrupt Bool}
    (recorded : (rule.erase.matcher Interpretation.none grammar.erase budget : Evaluation .byDepth σ Bool).run
      context [] [] { memory := memory } = some (outcome, after, record)) : shown record = mismatches record := by
  refine List.map_congr_left (g := id) (fun mismatch member => ?_) |>.trans (List.map_id _)
  obtain ⟨offset, frames⟩ := mismatch
  simp only [withoutCaptures_of_leads (Trails.leads_of_mismatch recorded member), id]

/-- The recorded pass over an erased rule, if its budget is no smaller or is enough for it to end at all. -/
theorem recorded_erase
    (enough : budget ≤ budget' ∨
      (rule.erase.matcher Interpretation.none grammar.erase budget' : Evaluation .byDepth σ Bool).run context [] []
        { memory := memory } ≠ none)
    (recorded : (rule.matcher Interpretation.none grammar budget : Evaluation .byDepth σ Bool).run context [] []
      { memory := memory } = some (.ok answer, after, record)) :
    ∃ after' record',
      (rule.erase.matcher Interpretation.none grammar.erase budget' : Evaluation .byDepth σ Bool).run context [] []
        { memory := memory } = some (.ok answer, after', record') ∧
      after'.offset = after.offset ∧ after'.tracker = after.tracker ∧ mismatches record' = shown record := by
  have larger : ∀ more, budget ≤ more → ∃ after' record',
      (rule.erase.matcher Interpretation.none grammar.erase more : Evaluation .byDepth σ Bool).run context [] []
        { memory := memory } = some (.ok answer, after', record') ∧
      after'.offset = after.offset ∧ after'.tracker = after.tracker ∧ mismatches record' = shown record := by
    intro more le
    have start : Bare ({ memory := memory } : State σ) { memory := memory } := ⟨rfl, rfl, rfl, rfl⟩
    obtain ⟨_, after', record', ran', rfl, alike, shows⟩ :=
      agree_erase context grammar le rule (fun _ _ => False) (fun _ _ => False.elim) rfl start recorded
    exact ⟨after', record', ran', alike.offset, alike.tracker, (shown_erase ran').symm.trans shows⟩
  obtain le | ended := enough
  · exact larger budget' le
  -- What ends with a smaller budget ends in the same way with a larger one.
  · obtain ⟨⟨outcome, after', record'⟩, ran'⟩ := Option.ne_none_iff_exists'.mp ended
    obtain ⟨after₂, record₂, ran₂, offset, tracker, shows⟩ := larger (max budget budget') (Nat.le_max_left _ _)
    obtain ⟨after₃, record₃, ran₃, parallel, same⟩ := Locality.mirrored_of_recorded
      (⟨rfl, rfl⟩ : Locality.Alike after'.tracker.deepest context context) (Nat.le_max_right budget budget') ran'
    cases ran₂.symm.trans ran₃
    exact ⟨after', record', ran', parallel.offset.symm.trans offset, parallel.tracker.symm.trans tracker,
      same.symm.trans shows⟩

theorem stacksAt_of_shown {record' : List (Moment σ)} (shows : mismatches record' = shown record) (offset : Nat) :
    stacksAt record' offset = (stacksAt record offset).map RuleStack.withoutCaptures := by
  rw [stacksAt, stacksAt, shows, shown, List.filter_map, List.map_map, List.map_map]
  rfl

end Passes

end Erasure

open Erasure Diagnosis

/-- Values never influence matching. If the plain pass over a rule gives an answer, the plain pass over its
erasure gives the same one, at the same offset, with the same furthest offset and the same offsets of
mismatches. If a run of the rule ends in a parse error, a run of the erasure ends in one at the same position,
with the same rule stacks but for the frames of captures. The budget of the erasure is no smaller, or is enough
for its plain pass to end at all. -/
theorem erasure_matches_alike {session : Session σ} {grammar : Grammar Empty} {rule : Rule Empty}
    {budget budget' : Nat}
    (enough : budget ≤ budget' ∨
      session.nthPass (rule.erase.matcher Interpretation.none grammar.erase budget' : Engine σ Bool) 0 ≠ none) :
    (∀ answer after,
      session.nthPass (rule.matcher Interpretation.none grammar budget : Engine σ Bool) 0 =
        some (.ok answer, after) →
      ∃ record after' record',
        (rule.matcher Interpretation.none grammar budget : Evaluation .byDepth σ Bool).run session.context [] []
          { memory := session.state.memory } = some (.ok answer, after, record) ∧
        (rule.erase.matcher Interpretation.none grammar.erase budget' : Evaluation .byDepth σ Bool).run
          session.context [] [] { memory := session.state.memory } = some (.ok answer, after', record') ∧
        session.nthPass (rule.erase.matcher Interpretation.none grammar.erase budget' : Engine σ Bool) 0 =
          some (.ok answer, after') ∧
        after'.offset = after.offset ∧ after'.tracker.deepest = after.tracker.deepest ∧
        (mismatches record').map Prod.fst = (mismatches record).map Prod.fst) ∧
    (∀ shape report next error,
      session.run (rule.matcher Interpretation.none grammar budget : Engine σ Bool) shape = some (report, next) →
      report.ending = .ok (.failure error) →
      ∃ report' next',
        session.run (rule.erase.matcher Interpretation.none grammar.erase budget' : Engine σ Bool) shape =
          some (report', next') ∧
        report'.ending =
          .ok (.failure ⟨error.position, error.ruleStacks.map RuleStack.withoutCaptures⟩)) := by
  have enough' : budget ≤ budget' ∨
      (rule.erase.matcher Interpretation.none grammar.erase budget' : Evaluation .byDepth σ Bool).run
        session.context [] [] { memory := session.state.memory } ≠ none := by
    refine enough.imp_right fun ended exhausted => ended ?_
    rw [nthPass_zero, exhausted]
    rfl
  constructor
  · intro answer after plain
    rw [nthPass_zero] at plain
    obtain ⟨⟨_, _, record⟩, recorded, same⟩ := Option.map_eq_some_iff.mp plain
    cases same
    obtain ⟨after', record', recorded', offset, tracker, shows⟩ := recorded_erase enough' recorded
    refine ⟨record, after', record', recorded, recorded', ?_, offset, congrArg Tracker.deepest tracker, ?_⟩
    · rw [nthPass_zero, recorded']
      rfl
    · rw [shows, shown, List.map_map]
      rfl
  · intro shape report next error ran failed
    obtain ⟨idle, after, record, recorded, rfl, fits⟩ := recorded_of_failure ran failed
    obtain ⟨after', record', recorded', _, tracker, shows⟩ := recorded_erase enough' recorded
    obtain ⟨report', next', ran', decided, _⟩ := run_eq_verdict idle recorded' shape
    refine ⟨report', next', ran', ?_⟩
    have ending : report'.ending = _ := congrArg Prod.fst decided
    rw [stacksAt_of_shown shows, tracker, verdict, tracker, if_pos (by rwa [List.length_map])] at ending
    exact ending

def spelling : Rule Empty :=
  .sequence [.push (.list []), .oneOrMore (.reference "letter"), .capture .endOfInput]

def alphabet : Grammar Empty :=
  { definitions := [("letter", .named (some "letter") (.sequence
      [.capture (.firstOf [.char 'a', .char 'b']), .action 2 fun operands => .ok (.list operands)]))] }

def twoLetters : Session Unit :=
  { context := ⟨Source.ofString "abx", 10, 10⟩, state := { running := false, memory := () } }

/-- Without values the same three mismatches are reported, each without the frame of a capture. -/
theorem erasure_of_spelling_fails_alike : ∃ after after' report next error report' next',
    twoLetters.nthPass (spelling.matcher Interpretation.none alphabet 8) 0 = some (.ok false, after) ∧
    twoLetters.nthPass (spelling.erase.matcher Interpretation.none alphabet.erase 8) 0 = some (.ok false, after') ∧
    after'.offset = after.offset ∧ after'.tracker.deepest = 2 ∧
    twoLetters.run (spelling.matcher Interpretation.none alphabet 8) .all = some (report, next) ∧
    report.ending = .ok (.failure error) ∧
    twoLetters.run (spelling.erase.matcher Interpretation.none alphabet.erase 8) .all = some (report', next') ∧
    report'.ending = .ok (.failure ⟨error.position, error.ruleStacks.map RuleStack.withoutCaptures⟩) ∧
    error.ruleStacks.map (fun stack => stack.frames.length) = [7, 7, 3] ∧
    (error.ruleStacks.map RuleStack.withoutCaptures).map (fun stack => stack.frames.length) = [6, 6, 2] := by
  have plain : ∃ after, twoLetters.nthPass (spelling.matcher Interpretation.none alphabet 8) 0 =
      some (.ok false, after) ∧ after.tracker.deepest = 2 := ⟨_, rfl, rfl⟩
  have ran : ∃ report next error,
      twoLetters.run (spelling.matcher Interpretation.none alphabet 8) .all = some (report, next) ∧
      report.ending = .ok (.failure error) ∧
      error.ruleStacks.map (fun stack => stack.frames.length) = [7, 7, 3] ∧
      (error.ruleStacks.map RuleStack.withoutCaptures).map (fun stack => stack.frames.length) = [6, 6, 2] :=
    ⟨_, _, _, rfl, rfl, rfl, rfl⟩
  obtain ⟨after, plain, deepest⟩ := plain
  obtain ⟨report, next, error, ran, failed, frames, fewer⟩ := ran
  obtain ⟨passes, fails⟩ := erasure_matches_alike (.inl (Nat.le_refl 8))
  obtain ⟨_, after', _, _, _, plain', offset, deepest', _⟩ := passes false after plain
  obtain ⟨report', next', ran', ending⟩ := fails .all report next error ran failed
  exact ⟨after, after', report, next, error, report', next', plain, plain', offset, deepest'.trans deepest, ran,
    failed, ran', ending, frames, fewer⟩

end PegMatcher
