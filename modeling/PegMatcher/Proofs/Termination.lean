import Mathlib.Logic.Relation
import Mathlib.Tactic.Ring
import PegMatcher.Proofs.Budget
import PegMatcher.Proofs.Keeping
import PegMatcher.Proofs.Passes

/-! # Guarded recursion ends

A rule exposes the names that it refers to outside of the bodies of named rules. If no name leads back to
itself by exposure, then between two named rules each definition is entered at most once, and named rules are
nested at most as deeply as allowed. A repetition goes on only where it has moved ahead in the text. So there
is a bound on the depth of the evaluation, `demand`, and the budget of a run exceeds it.

The induction is on the budget, with the names that were entered since the last named rule. That a repetition
moves ahead, and not back, is what `keeps_matcher` says of its body.
-/

namespace PegMatcher

variable {σ χ : Type}

namespace Rule

mutual

/-- The names that a rule refers to outside of the bodies of named rules. -/
def exposed : Rule χ → List String
  | reference name => [name]
  | sequence parts => exposedAll parts
  | firstOf alternatives => exposedAll alternatives
  | optional body => body.exposed
  | zeroOrMore body => body.exposed
  | oneOrMore body => body.exposed
  | andPredicate body => body.exposed
  | notPredicate body => body.exposed
  | capture body => body.exposed
  | extension _ parts => exposedAll parts
  | _ => []

def exposedAll : List (Rule χ) → List String
  | [] => []
  | rule :: rest => rule.exposed ++ exposedAll rest

end

private theorem exposed_subset_exposedAll {part : Rule χ} {parts : List (Rule χ)} (member : part ∈ parts) :
    part.exposed ⊆ exposedAll parts := by
  induction parts with
  | nil => cases member
  | cons first rest ih =>
    rw [exposedAll]
    obtain rfl | later := List.mem_cons.mp member
    · exact List.subset_append_left _ _
    · exact List.Subset.trans (ih later) (List.subset_append_right _ _)

theorem size_pos (rule : Rule χ) : 0 < rule.size := by
  cases rule <;> exact Nat.succ_pos _

private theorem size_le_sizes {part : Rule χ} {parts : List (Rule χ)} (member : part ∈ parts) :
    part.size ≤ sizes parts := by
  induction parts with
  | nil => cases member
  | cons first rest ih =>
    rw [sizes]
    obtain rfl | later := List.mem_cons.mp member
    · exact Nat.le_add_right _ _
    · exact Nat.le_trans (ih later) (Nat.le_add_left _ _)

end Rule

namespace Grammar

/-- A name leads to another one if its definition exposes it. -/
def Exposes (grammar : Grammar χ) (name other : String) : Prop :=
  ∃ rule, grammar.find? name = some rule ∧ other ∈ rule.exposed

/-- Every cycle of references passes through a named rule. -/
def Guarded (grammar : Grammar χ) : Prop :=
  ∀ name, ¬Relation.TransGen grammar.Exposes name name

/-- A rule leads to a name if it exposes the name, or another one that leads to it. -/
def LeadsTo (grammar : Grammar χ) (rule : Rule χ) (name : String) : Prop :=
  ∃ other ∈ rule.exposed, Relation.ReflTransGen grammar.Exposes other name

/-- The nodes of some definitions, of which those with a visited name do not count. -/
def nodesOutside (visited : List String) : List (String × Rule χ) → Nat
  | [] => 0
  | (name, rule) :: rest => (if name ∈ visited then 0 else rule.size) + nodesOutside visited rest

private theorem nodesOutside_nil (definitions : List (String × Rule χ)) :
    nodesOutside [] definitions = Rule.sizes (definitions.map (·.2)) := by
  induction definitions with
  | nil => rfl
  | cons first rest ih => simp [nodesOutside, Rule.sizes, ih]

private theorem nodesOutside_cons_le (name : String) (visited : List String) (definitions : List (String × Rule χ)) :
    nodesOutside (name :: visited) definitions ≤ nodesOutside visited definitions := by
  induction definitions with
  | nil => exact Nat.le_refl 0
  | cons first rest ih =>
    have head : (if first.1 ∈ name :: visited then 0 else first.2.size) ≤
        if first.1 ∈ visited then 0 else first.2.size := by
      by_cases before : first.1 ∈ visited
      · rw [if_pos (List.mem_cons_of_mem name before)]
        exact Nat.zero_le _
      · rw [if_neg before]
        split
        · exact Nat.zero_le _
        · exact Nat.le_refl _
    exact Nat.add_le_add head ih

/-- A definition that is visited no longer counts. -/
theorem size_add_nodesOutside_le {name : String} {target : Rule χ} {visited : List String}
    {definitions : List (String × Rule χ)} (found : definitions.lookup name = some target)
    (new : name ∉ visited) :
    target.size + nodesOutside (name :: visited) definitions ≤ nodesOutside visited definitions := by
  induction definitions with
  | nil => cases found
  | cons first rest ih =>
    obtain ⟨key, rule⟩ := first
    rw [nodesOutside, nodesOutside]
    by_cases here : name = key
    · subst here
      rw [List.lookup_cons_self] at found
      cases found
      have fewer := nodesOutside_cons_le name visited rest
      rw [if_pos List.mem_cons_self, if_neg new]
      omega
    · rw [List.lookup_cons, beq_false_of_ne here] at found
      have later := ih found
      have same : key ∈ name :: visited ↔ key ∈ visited := by
        simp [Ne.symm here]
      simp only [same]
      omega

end Grammar

namespace Termination

/-- A computation that ends from a state, in whatever way. -/
def Terminates {α : Type} (context : Context) (x : Engine σ α) (state : State σ) : Prop :=
  ∃ ending, x.run context state = some ending

def Total {α : Type} (x : Engine σ α) : Prop :=
  ∀ context state, Terminates context x state

section Composition

variable {α β : Type} {context : Context} {state : State σ}

private theorem terminates_bind {first : Engine σ α} {next : α → Engine σ β} (head : Terminates context first state)
    (tail : ∀ result middle, first.run context state = some (.ok result, middle) →
      Terminates context (next result) middle) : Terminates context (first >>= next) state := by
  obtain ⟨⟨outcome, middle⟩, ran⟩ := head
  cases outcome with
  | ok result =>
    obtain ⟨ending, rest⟩ := tail result middle ran
    exact ⟨ending, by rw [Engine.run_bind, ran]; exact rest⟩
  | error interrupt => exact ⟨_, by rw [Engine.run_bind, ran]⟩

theorem total_bind {first : Engine σ α} {next : α → Engine σ β} (head : Total first)
    (tail : ∀ result, Total (next result)) : Total (first >>= next) :=
  fun context state => terminates_bind (head context state) fun result middle _ => tail result context middle

private theorem total_pure (result : α) : Total (pure result : Engine σ α) :=
  fun _ _ => ⟨_, rfl⟩

private theorem terminates_framed {frame : Frame} {x : Engine σ α} (inner : Terminates context x state) :
    Terminates context (Machine.framed frame x) state := by
  obtain ⟨ending, ran⟩ := inner
  rw [Terminates, Engine.run_framed, ran]
  exact ⟨_, rfl⟩

private theorem terminates_mark_bind {next : Mark → Engine σ α}
    (tail : Terminates context (next (Engine.markOf state)) state) :
    Terminates context (Machine.mark >>= next) state := by
  rwa [Terminates, Engine.run_mark_bind]

private theorem terminates_offset_bind {next : Int → Engine σ α} (tail : Terminates context (next state.offset) state) :
    Terminates context (Machine.offset >>= next) state := by
  rwa [Terminates, Engine.run_offset_bind]

private theorem terminates_nested {x : Engine σ α}
    (inner : ¬context.maxDepth ≤ state.depth → Terminates context x { state with depth := state.depth + 1 }) :
    Terminates context (Machine.nested x) state := by
  rw [Terminates, Engine.run_nested]
  split
  · exact ⟨_, rfl⟩
  · obtain ⟨ending, ran⟩ := inner ‹_›
    rw [ran]
    exact ⟨_, rfl⟩

end Composition

section Leaves

theorem total_peek : Total (Engine.peek : Engine σ Char) := by
  intro context state
  simp only [Terminates, Engine.peek]
  repeat' split
  all_goals exact ⟨_, rfl⟩

theorem total_advance : Total (Engine.advance : Engine σ Char) := by
  intro context state
  simp only [Terminates, Engine.advance]
  repeat' split
  all_goals exact ⟨_, rfl⟩

theorem total_mismatch : Total (Engine.mismatch : Engine σ Unit) := by
  intro context state
  change ∃ ending, (Engine.registerAt state.offset).run context state = some ending
  simp only [Engine.registerAt]
  split <;> exact ⟨_, rfl⟩

theorem total_reset (target : Mark) : Total (Machine.reset target : Engine σ Unit) := by
  intro context state
  rw [Terminates, Engine.run_reset]
  split <;> exact ⟨_, rfl⟩

theorem total_popMany (count : Int) : Total (Engine.popMany count : Engine σ (List Value)) := by
  intro context state
  simp only [Terminates, Engine.popMany]
  split <;> exact ⟨_, rfl⟩

private theorem total_nextIs (accepts : Char → Bool) : Total (Matcher.nextIs accepts : Engine σ Bool) := by
  refine total_bind (fun _ _ => ⟨_, rfl⟩) fun ended => ?_
  cases ended with
  | true => exact total_pure false
  | false => exact total_bind total_peek fun c => total_pure (accepts c)

private theorem total_oneChar (frame : Frame) (accepts : Char → Bool) :
    Total (Matcher.oneChar frame accepts : Engine σ Bool) := by
  intro context state
  refine terminates_framed (total_bind (total_nextIs accepts) (fun accepted => ?_) context state)
  cases accepted with
  | true => exact total_bind total_advance fun _ => total_pure true
  | false => exact total_bind total_mismatch fun _ => total_pure false

private theorem total_literalFrom (start : Int) (word : List Char) :
    Total (Matcher.literalFrom start word : Engine σ Bool) := by
  induction word with
  | nil => exact total_pure true
  | cons c rest ih =>
    refine total_bind (total_nextIs _) fun accepted => ?_
    cases accepted with
    | true => exact total_bind total_advance fun _ => ih
    | false => exact total_bind total_mismatch fun _ _ _ => ⟨_, rfl⟩

private theorem total_endOfInput : Total (Matcher.endOfInput : Engine σ Bool) := by
  intro context state
  refine terminates_framed (total_bind (fun _ _ => ⟨_, rfl⟩) (fun ended => ?_) context state)
  cases ended with
  | true => exact total_pure true
  | false => exact total_bind total_mismatch fun _ => total_pure false

private theorem total_action (arity : Int) (compute : List Value → Except Fault Value) :
    Total (Matcher.action arity compute : Engine σ Bool) := by
  refine total_bind (total_popMany arity) fun operands => ?_
  refine total_bind (fun context state => ?_) fun value _ _ => ⟨_, rfl⟩
  cases compute operands <;> exact ⟨_, rfl⟩

end Leaves

/-- A state with the cursor in the text and a given nesting of named rules. -/
def Stands (context : Context) (level : Int) (state : State σ) : Prop :=
  Within context 0 state.offset ∧ state.depth = level

/-- A matcher that ends from every state in the text with a given nesting, and keeps what has to be kept. -/
structure Orderly (context : Context) (level : Int) (x : Engine σ Bool) : Prop where
  ends : ∀ ⦃state⦄, Stands context level state → Terminates context x state
  keeps : ∀ ⦃state after : State σ⦄ ⦃outcome⦄, state.offset ≤ context.source.length →
    x.run context state = some (outcome, after) → Keeps context state.offset state after

section Orderly

variable {context : Context} {level : Int} {x : Engine σ Bool} {state : State σ}

theorem Orderly.stands (orderly : Orderly context level x) (stands : Stands context level state)
    {outcome : Except Interrupt Bool} {after : State σ} (ran : x.run context state = some (outcome, after)) :
    Stands context level after ∧ state.offset ≤ after.offset := by
  have kept := orderly.keeps stands.1.2 ran
  have ahead := kept.within.1
  have start := stands.1.1
  exact ⟨⟨⟨by omega, kept.within.2⟩, kept.depth.trans stands.2⟩, ahead⟩

private theorem terminates_sequenceFrom {parts : List (Engine σ Bool)} (orderly : ∀ x ∈ parts, Orderly context level x)
    (stands : Stands context level state) (start : Mark) :
    Terminates context (Matcher.sequenceFrom start parts) state := by
  induction parts generalizing state with
  | nil => exact total_pure true context state
  | cons first rest ih =>
    obtain ⟨head, tail⟩ := List.forall_mem_cons.mp orderly
    refine terminates_bind (head.ends stands) fun matched middle ran => ?_
    cases matched with
    | true => exact ih tail (head.stands stands ran).1
    | false => exact total_bind (total_reset start) (fun _ => total_pure false) context middle

/-- Each alternative starts from where the choice began. -/
theorem terminates_firstOfFrom {home : State σ} (stands : Stands context level home)
    {alternatives : List (Engine σ Bool)} (orderly : ∀ x ∈ alternatives, Orderly context level x)
    (offset : state.offset = home.offset) (depth : state.depth = home.depth) :
    Terminates context (Matcher.firstOfFrom (Engine.markOf home) alternatives) state := by
  induction alternatives generalizing state with
  | nil => exact total_pure false context state
  | cons first rest ih =>
    obtain ⟨head, tail⟩ := List.forall_mem_cons.mp orderly
    have here : Stands context level state := ⟨offset ▸ stands.1, depth.trans stands.2⟩
    refine terminates_bind (head.ends here) fun matched middle ran => ?_
    cases matched with
    | true => exact total_pure true context middle
    | false =>
      refine terminates_bind (total_reset _ context middle) fun _ next back => ?_
      obtain ⟨_, rfl⟩ := Engine.run_reset_eq_ok_iff.mp back
      exact ih tail rfl ((head.stands here ran).1.2.trans stands.2.symm)

/-- A repetition goes on only from further ahead in the text. -/
theorem terminates_iterate (orderly : Orderly context level x) (stands : Stands context level state)
    {bound : Nat} (enough : (context.source.length - state.offset).toNat < bound) (count : Nat) :
    Terminates context (Matcher.iterate x bound count) state := by
  induction bound generalizing state count with
  | zero => exact absurd enough (Nat.not_lt_zero _)
  | succ bound ih =>
    refine terminates_offset_bind (terminates_mark_bind ?_)
    refine terminates_bind (orderly.ends stands) fun matched middle ran => ?_
    obtain ⟨stands', ahead⟩ := orderly.stands stands ran
    cases matched with
    | false => exact total_bind (total_reset _) (fun _ => total_pure count) context middle
    | true =>
      refine terminates_offset_bind ?_
      by_cases moved : middle.offset = state.offset
      · rw [if_pos moved]
        exact total_pure (count + 1) context middle
      · rw [if_neg moved]
        have inside := stands'.1.2
        exact ih stands' (by omega) (count + 1)

private theorem terminates_repeated (kind : RuleKind) (minimum : Nat) (orderly : Orderly context level x)
    (stands : Stands context level state) {bound : Nat} (enough : context.source.length < bound) :
    Terminates context (Matcher.repeated kind minimum bound x) state := by
  refine terminates_framed (terminates_mark_bind ?_)
  have start := stands.1.1
  refine terminates_bind (terminates_iterate orderly stands (by omega) 0) fun count middle _ => ?_
  split
  · exact total_bind (total_reset _) (fun _ => total_pure false) context middle
  · exact total_pure true context middle

private theorem terminates_optional (orderly : Orderly context level x) (stands : Stands context level state) :
    Terminates context (Matcher.optional x) state := by
  refine terminates_framed (terminates_mark_bind ?_)
  refine terminates_bind (orderly.ends stands) fun matched middle _ => ?_
  cases matched with
  | true => exact total_pure true context middle
  | false => exact total_bind (total_reset _) (fun _ => total_pure true) context middle

/-- Looking ahead ends if the body does, whatever is concluded from it. -/
theorem terminates_ahead (conclude : Bool → Bool) (frame : Frame) (orderly : Orderly context level x)
    (stands : Stands context level state) :
    Terminates context (Machine.framed frame (Machine.mark >>= fun here => x >>= fun matched =>
      Machine.reset here >>= fun _ => pure (conclude matched))) state := by
  refine terminates_framed (terminates_mark_bind ?_)
  refine terminates_bind (orderly.ends stands) fun matched middle _ => ?_
  exact total_bind (total_reset _) (fun _ => total_pure (conclude matched)) context middle

private theorem terminates_capture (orderly : Orderly context level x) (stands : Stands context level state) :
    Terminates context (Matcher.capture x) state := by
  refine terminates_framed (terminates_offset_bind ?_)
  refine terminates_bind (orderly.ends stands) fun matched middle _ => ?_
  cases matched <;> exact ⟨_, rfl⟩

end Orderly

/-- A budget that is enough for a rule, given an upper bound on the nodes of every rule that is met: what is
left of the text for repetitions, and on the way down the nodes of this rule and of the definitions that
were not visited, and twice the upper bound for each further named rule. -/
def demand (grammar : Grammar χ) (context : Context) (width : Nat) (rule : Rule χ) (visited : List String)
    (depth : Int) : Nat :=
  rule.size + Grammar.nodesOutside visited grammar.definitions +
    (context.maxDepth - depth).toNat * (2 * width) + context.source.length + 1

/-- A rule that leads to none of some names. -/
def Avoids (grammar : Grammar χ) (visited : List String) (rule : Rule χ) : Prop :=
  ∀ name ∈ visited, ¬grammar.LeadsTo rule name

private theorem avoids_nil (grammar : Grammar χ) (rule : Rule χ) : Avoids grammar [] rule :=
  fun _ member => nomatch member

theorem Avoids.part {grammar : Grammar χ} {visited : List String} {part rule : Rule χ}
    (avoids : Avoids grammar visited rule) (fewer : part.exposed ⊆ rule.exposed) :
    Avoids grammar visited part := by
  rintro name member ⟨other, exposed, leads⟩
  exact avoids name member ⟨other, fewer exposed, leads⟩

/-- In a guarded grammar, a definition does not lead back to its name. -/
theorem Avoids.target {grammar : Grammar χ} (guarded : grammar.Guarded) {visited : List String} {name : String}
    {target : Rule χ} (found : grammar.find? name = some target)
    (avoids : Avoids grammar visited (.reference name)) : Avoids grammar (name :: visited) target := by
  rintro other member ⟨exposed, here, leads⟩
  have step : grammar.Exposes name exposed := ⟨target, found, here⟩
  obtain rfl | earlier := List.mem_cons.mp member
  · exact guarded other (.head' step leads)
  · exact avoids other earlier ⟨name, List.mem_singleton.mpr rfl, .head step leads⟩

section Rules

variable {grammar : Grammar Empty} {context : Context} {width : Nat}

theorem terminates_matcher (guarded : grammar.Guarded) (definitions : grammar.size ≤ width) {budget : Nat}
    {rule : Rule Empty} {visited : List String} {state : State σ} (avoids : Avoids grammar visited rule)
    (narrow : rule.size ≤ width) (within : Within context 0 state.offset)
    (enough : demand grammar context width rule visited state.depth ≤ budget) :
    Terminates context (rule.matcher Interpretation.none grammar budget : Engine σ Bool) state := by
  induction budget generalizing rule visited state with
  | zero =>
    rw [demand] at enough
    omega
  | succ budget ih =>
    have stands : Stands context state.depth state := ⟨within, rfl⟩
    have inner : ∀ part : Rule Empty, part.size < rule.size → part.exposed ⊆ rule.exposed →
        Orderly context state.depth (part.matcher Interpretation.none grammar budget : Engine σ Bool) := by
      intro part smaller fewer
      refine ⟨fun other there => ?_, fun _ _ _ inside ran => keeps_matcher inside ran⟩
      refine ih (avoids.part fewer) (by omega) there.1 ?_
      rw [there.2]
      rw [demand] at enough ⊢
      omega
    have loops : context.source.length < budget := by
      have positive := rule.size_pos
      rw [demand] at enough
      omega
    change Terminates context (rule.denote Interpretation.none grammar budget
      (Rule.matcher Interpretation.none grammar budget) : Engine σ Bool) state
    cases rule with
    | char c => exact total_oneChar _ _ context state
    | literal text => exact terminates_framed (total_literalFrom _ _ context state)
    | anyOf chars => exact total_oneChar _ _ context state
    | range low high => exact total_oneChar _ _ context state
    | anyChar => exact total_oneChar _ _ context state
    | endOfInput => exact total_endOfInput context state
    | sequence parts =>
      refine terminates_framed (terminates_sequenceFrom ?_ stands (Engine.markOf state))
      refine List.forall_mem_map.mpr fun part member => inner part ?_ (Rule.exposed_subset_exposedAll member)
      exact Nat.lt_succ_of_le (Rule.size_le_sizes member)
    | firstOf alternatives =>
      refine terminates_framed (terminates_firstOfFrom stands ?_ rfl rfl)
      refine List.forall_mem_map.mpr fun part member => inner part ?_ (Rule.exposed_subset_exposedAll member)
      exact Nat.lt_succ_of_le (Rule.size_le_sizes member)
    | optional body => exact terminates_optional (inner body (Nat.lt_succ_self _) (List.Subset.refl _)) stands
    | zeroOrMore body =>
      exact terminates_repeated _ _ (inner body (Nat.lt_succ_self _) (List.Subset.refl _)) stands loops
    | oneOrMore body =>
      exact terminates_repeated _ _ (inner body (Nat.lt_succ_self _) (List.Subset.refl _)) stands loops
    | andPredicate body =>
      exact terminates_ahead id _ (inner body (Nat.lt_succ_self _) (List.Subset.refl _)) stands
    | notPredicate body =>
      exact terminates_ahead not _ (inner body (Nat.lt_succ_self _) (List.Subset.refl _)) stands
    | capture body => exact terminates_capture (inner body (Nat.lt_succ_self _) (List.Subset.refl _)) stands
    | push value => exact ⟨_, rfl⟩
    | action arity compute => exact total_action arity compute context state
    | named name body =>
      refine terminates_framed (terminates_nested fun room => ?_)
      have smaller : body.size < (Rule.named name body).size := Nat.lt_succ_self _
      refine ih (avoids_nil grammar body) (by omega) within ?_
      -- One level of nesting pays for visiting the definitions anew.
      have level : (context.maxDepth - state.depth).toNat =
          (context.maxDepth - (state.depth + 1)).toNat + 1 := by omega
      have whole : Grammar.nodesOutside [] grammar.definitions = grammar.size := Grammar.nodesOutside_nil _
      simp only [demand, level, Nat.succ_mul, whole] at enough ⊢
      omega
    | reference name =>
      simp only [Rule.denote]
      cases found : grammar.find? name with
      | none => exact ⟨_, rfl⟩
      | some target =>
        have new : name ∉ visited := fun member => avoids name member ⟨name, List.mem_singleton.mpr rfl, .refl⟩
        have fewer := Grammar.size_add_nodesOutside_le found new
        have whole := Grammar.size_add_nodesOutside_le found List.not_mem_nil
        rw [Grammar.nodesOutside_nil] at whole
        have fits : target.size ≤ grammar.size := Nat.le_of_add_right_le whole
        refine ih (avoids.target guarded found) (Nat.le_trans fits definitions) within ?_
        have one : (Rule.reference name : Rule Empty).size = 1 := rfl
        rw [demand] at enough ⊢
        omega
    | unbuilt fault => exact ⟨_, rfl⟩
    | extension extended => exact extended.elim

end Rules

end Termination

open Termination

/-- The budget of a run is enough for every pass over its rule. -/
theorem demand_le_budget (grammar : Grammar χ) (context : Context) (rule : Rule χ) :
    demand grammar context (grammar.size + rule.size) rule [] 0 ≤ grammar.budget context rule := by
  have whole : Grammar.nodesOutside [] grammar.definitions = grammar.size := Grammar.nodesOutside_nil _
  rw [demand, Grammar.budget, whole, Int.sub_zero]
  generalize Grammar.outOfReach = reserve
  generalize grammar.size = definitions
  generalize rule.size = nodes
  generalize context.maxDepth.toNat = levels
  generalize context.source.length = length
  have product : (definitions + nodes + 2) * (levels + 2) =
      levels * (definitions + nodes) + 2 * (definitions + nodes) + 2 * levels + 4 := by ring
  have repeated : length ≤ (definitions + nodes + 2) * (levels + 2) * length :=
    Nat.le_mul_of_pos_left length (Nat.mul_pos (Nat.succ_pos _) (Nat.succ_pos _))
  have twice : levels * (2 * (definitions + nodes)) = 2 * (levels * (definitions + nodes)) := by ring
  rw [twice, Nat.mul_add _ length 2]
  omega

/-- A pass begins at the start of the text with no named rule entered. -/
theorem terminates_pass {grammar : Grammar Empty} (guarded : grammar.Guarded) {rule : Rule Empty}
    {context : Context} {budget : Nat}
    (enough : demand grammar context (grammar.size + rule.size) rule [] 0 ≤ budget) (index : Option Int)
    (state : State σ) :
    Terminates context (Session.pass (rule.matcher Interpretation.none grammar budget : Engine σ Bool) index)
      state := by
  let fresh : State σ :=
    { state with offset := 0, values := .empty, depth := 0, tracker := state.tracker.beginPass index }
  have within : Within context 0 fresh.offset := ⟨Int.le_refl 0, Int.natCast_nonneg _⟩
  exact terminates_matcher guarded (Nat.le_add_right _ _) (avoids_nil grammar rule) (Nat.le_add_left _ _)
    within enough

/-- If every cycle of references passes through a named rule, every parse ends, left recursion or not: a
rule that is matched from a place in the text has an outcome, which every budget from some size on leads to,
and a run with its own budget has a report. -/
theorem runRule_ends_of_guarded {grammar : Grammar Empty} (guarded : grammar.Guarded) (rule : Rule Empty) :
    (∀ (context : Context) (state : State σ), 0 ≤ state.offset → state.offset ≤ context.source.length →
      ∃ enough outcome after, ∀ budget, enough ≤ budget →
        (rule.matcher Interpretation.none grammar budget : Engine σ Bool).run context state =
          some (outcome, after)) ∧
    ∀ (session : Session σ) (shape : Shape), ∃ report next,
      session.runRule Interpretation.none grammar rule shape = some (report, next) := by
  constructor
  · intro context state start stop
    obtain ⟨⟨outcome, after⟩, ran⟩ := terminates_matcher guarded (Nat.le_add_right grammar.size rule.size)
      (avoids_nil grammar rule) (Nat.le_add_left _ _) ⟨start, stop⟩ (Nat.le_refl _)
    exact ⟨_, outcome, after, fun budget enough => run_budget_le enough ran⟩
  · intro session shape
    have enough := demand_le_budget grammar session.context rule
    exact session.exists_run (terminates_pass guarded enough) shape

/-- Sums that begin with a sum: the rule refers to itself before it has consumed anything, and the body of its
repetition matches the empty text. -/
def sums : Grammar Empty :=
  { definitions := [("sum", .named (some "sum")
      (.firstOf [.sequence [.reference "sum", .char '+'], .zeroOrMore (.optional (.char 'a'))]))] }

/-- The only definition is the body of a named rule, so it exposes nothing. -/
theorem guarded_sums : sums.Guarded := by
  intro name cycle
  obtain ⟨other, ⟨rule, found, exposed⟩, _⟩ := Relation.TransGen.head'_iff.mp cycle
  by_cases same : name = "sum"
  · subst same
    cases found
    cases exposed
  · have none : sums.find? name = none := by
      rw [Grammar.find?, sums, List.lookup_cons, beq_false_of_ne same]
      rfl
    cases none.symm.trans found

def sumSession : Session Unit :=
  { context := ⟨Source.ofString "aa+", 3, 10⟩, state := { running := false, memory := () } }

/-- The left recursion is stopped by the limit on the nesting. -/
theorem runRule_sums_ends : ∃ report next,
    sumSession.runRule Interpretation.none sums (.reference "sum") .all = some (report, next) ∧
      report.ending = .error (.depthExceeded 3) := by
  obtain ⟨_, ends⟩ := @runRule_ends_of_guarded Unit sums guarded_sums (.reference "sum")
  obtain ⟨report, next, ran⟩ := ends sumSession .all
  refine ⟨report, next, ran, ?_⟩
  cases ran
  rfl

end PegMatcher
