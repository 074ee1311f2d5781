import PegMatcher.Proofs.Keeping
import PegMatcher.Proofs.Simulation

/-! # Functions of a host program

Actions and factories may be functions of a host program that keep a memory, answer differently each time, and end in
any interrupt they like. They see nothing of the engine but the values that they are given. A factory chooses among the
parts of its rule; these are finitely many, and so are the rules that factories can return in one evaluation.

`HostCall.hosts` lets every simulation that covers a call of a function cover the rules that call it. `remaining` is one
of them: it says that rules with calls still leave the cursor in the text, and report no progress beyond its end.
-/

namespace PegMatcher

variable {σ : Type}

/-- A function of the host program: it reads and changes a memory, and returns a result or ends in an interrupt. -/
abbrev HostFunction (σ α : Type) := σ → Except Interrupt α × σ

/-- A function whose result is kept in a cell of the memory, and is read there from then on. An interrupt leaves the
cell empty. -/
def HostFunction.once {α : Type} (read : σ → Option α) (keep : α → σ → σ) (function : HostFunction σ α) :
    HostFunction σ α :=
  fun memory =>
    match read memory with
    | some result => (.ok result, memory)
    | none =>
      match function memory with
      | (.ok result, after) => (.ok result, keep result after)
      | (.error interrupt, after) => (.error interrupt, after)

/-- Rules that call functions of the host program. -/
inductive HostCall (σ : Type) where
  /-- Replaces the top values by what a function returns for them. -/
  | action (arity : Int) (compute : List Value → HostFunction σ Value)
  /-- Stands for the one of its parts that a function returns the number of. -/
  | factory (choose : HostFunction σ Nat)

def Engine.call {α : Type} (function : HostFunction σ α) : Engine σ α :=
  ⟨fun _ state =>
    let (outcome, memory) := function state.memory
    some (outcome, { state with memory := memory })⟩

namespace HostCall

/-- The meaning of rules that call functions, on a machine that can. A factory that returns no part does not match. -/
def interpret {m : Type → Type} [Machine m] (call : {α : Type} → HostFunction σ α → m α) :
    Interpretation (HostCall σ) m
  | action arity compute, _ => do
    let operands ← Machine.popMany arity
    let value ← call (compute operands)
    Machine.push value
    pure true
  | factory choose, parts => do
    let index ← call choose
    parts.getD index (pure false)

section Agreement

variable {m n : Type → Type} [Machine m] [Machine n] {S : Simulation m n}

private theorem agree_getD {xs : List (m Bool)} {ys : List (n Bool)} (parts : List.Forall₂ S.Agree xs ys)
    (index : Nat) :
    S.Agree (xs.getD index (pure false)) (ys.getD index (pure false)) := by
  induction parts generalizing index with
  | nil => exact fun _ => S.pure rfl
  | cons first _ ih =>
    cases index with
    | zero => exact first
    | succ index => exact ih index

/-- Rules that call functions agree if the calls do. -/
theorem hosts {call : {α : Type} → HostFunction σ α → m α} {call' : {α : Type} → HostFunction σ α → n α}
    (called : ∀ {α : Type} (live : Live m n) (function : HostFunction σ α),
      S.Rel live Eq (call function) (call' function)) :
    S.Hosts (interpret call) (interpret call') := by
  intro extended xs ys parts live
  cases extended with
  | action arity compute =>
    refine S.bind (S.popMany arity) ?_
    rintro operands _ rfl
    refine S.bind (called live (compute operands)) ?_
    rintro value _ rfl
    exact TextSimulation.andThen (S.push value) fun _ _ => S.pure rfl
  | factory choose =>
    refine S.bind (called live choose) ?_
    rintro index _ rfl
    exact agree_getD parts index live

end Agreement

open Keeping

/-- A state with the cursor in the text, and with no progress beyond its end. -/
structure InText (context : Context) (state : State σ) : Prop where
  within : Within context 0 state.offset
  deepest : state.tracker.deepest ≤ context.source.length

/-- A computation that stays in the text, and whose results are related to something. -/
def Remains {α β : Type} (context : Context) (R : α → β → Prop) (x : Engine σ α) : Prop :=
  ∀ ⦃state outcome after⦄, InText context state → x.run context state = some (outcome, after) →
    InText context after ∧ ∀ a, outcome = .ok a → ∃ b, R a b

section Remains

variable {α β γ δ : Type} {context : Context} {R : α → β → Prop} {T : γ → δ → Prop}

private theorem InText.of_keeps {state after : State σ} (inText : InText context state)
    (kept : Keeps context 0 state after) : InText context after :=
  ⟨kept.within, Nat.le_trans kept.deepest (Nat.max_le.mpr ⟨inText.deepest, Nat.le_refl _⟩)⟩

private theorem remains_of_keeper {operation : Engine σ α} (keeper : Keeper context 0 operation)
    (related : ∀ a, ∃ b, R a b) : Remains context R operation :=
  fun _ _ _ inText ran => ⟨inText.of_keeps (keeper inText.within ran), fun a _ => related a⟩

private theorem remains_bind {x : Engine σ α} {f : α → Engine σ γ} (head : Remains context R x)
    (tail : ∀ a b, R a b → Remains context T (f a)) : Remains context T (x >>= f) := by
  intro state outcome after inText ran
  rw [Engine.run_bind] at ran
  split at ran
  · cases ran
  · rename_i result middle began
    obtain ⟨between, related⟩ := head inText began
    obtain ⟨b, here⟩ := related result rfl
    exact tail result b here between ran
  · rename_i interrupt middle began
    cases ran
    refine ⟨(head inText began).1, ?_⟩
    rintro _ ⟨⟩

private theorem remains_call (function : HostFunction σ α) (related : ∀ a, ∃ b, R a b) :
    Remains context R (Engine.call function) := by
  intro state outcome after inText ran
  cases ran
  exact ⟨⟨inText.within, inText.deepest⟩, fun a _ => related a⟩

end Remains

/-- Staying in the text is a simulation, of which the marks that may be returned to are part. -/
def remaining (σ : Type) (context : Context) : ModularSimulation (Engine σ) (Engine σ) where
  Rel live R x _ := (∀ p q : Mark, live p q → Within context 0 p.offset) → Remains context R x
  Offsets a b := a = b ∧ Within context 0 a
  offsets_eq_iff first second := Simulation.eq_offsets first.1 second.1
  pure {_ _ _ _ _ b} related := by
    intro _ state outcome after inText ran
    cases ran
    refine ⟨inText, ?_⟩
    rintro _ ⟨⟩
    exact ⟨b, related⟩
  bind head tail := fun places => remains_bind (head places) fun a b related => tail a b related places
  mark_bind tail := by
    intro places state outcome after inText ran
    rw [Engine.run_mark_bind] at ran
    refine tail (Engine.markOf state) (Engine.markOf state) ?_ inText ran
    rintro p q (old | ⟨rfl, rfl⟩)
    · exact places p q old
    · exact inText.within
  reset known := fun places => remains_of_keeper (keeper_reset (places _ _ known)) fun _ => ⟨(), trivial⟩
  atEnd := fun _ => remains_of_keeper (keeper_observe _) fun a => ⟨a, rfl⟩
  peek := fun _ => remains_of_keeper keeper_peek fun a => ⟨a, rfl⟩
  advance := fun _ => remains_of_keeper keeper_advance fun a => ⟨a, trivial⟩
  offset := by
    intro live places state outcome after inText ran
    cases ran
    refine ⟨inText, ?_⟩
    rintro _ ⟨⟩
    exact ⟨state.offset, rfl, inText.within⟩
  moveTo target := fun _ => remains_of_keeper (keeper_moveTo target.2) fun a => ⟨a, trivial⟩
  sliceFrom _ := fun _ => remains_of_keeper (keeper_observe _) fun a => ⟨a, rfl⟩
  mismatch := fun _ => remains_of_keeper keeper_mismatch fun a => ⟨a, trivial⟩
  push value := fun _ => remains_of_keeper (keeper_push value) fun a => ⟨a, trivial⟩
  popMany count := fun _ => remains_of_keeper (keeper_popMany count) fun a => ⟨a, rfl⟩
  fail fault _ := by
    intro _ state outcome after inText ran
    cases ran
    exact ⟨inText, nofun⟩
  anyFrame frame inner := by
    intro places state outcome after inText ran
    rw [Engine.run_framed] at ran
    obtain ⟨⟨_ | _, last⟩, ended, same⟩ := Option.map_eq_some_iff.mp ran <;> cases same
    · exact ⟨(inner places inText ended).1, nofun⟩
    · exact inner places inText ended
  nested inner := by
    intro places state outcome after inText ran
    rw [Engine.run_nested] at ran
    split at ran
    · cases ran
      exact ⟨inText, nofun⟩
    · obtain ⟨⟨ended, last⟩, body, same⟩ := Option.map_eq_some_iff.mp ran
      cases same
      have deeper : InText context ({ state with depth := state.depth + 1 } : State σ) :=
        ⟨inText.within, inText.deepest⟩
      obtain ⟨⟨within, deepest⟩, related⟩ := inner places deeper body
      exact ⟨⟨within, deepest⟩, related⟩
  exhausted := by
    intro _ _ _ _ _ state outcome after _ ran
    cases ran

/-- Every rule, matched from a place in the text, leaves the cursor in the text and reports no progress beyond it. -/
theorem inText_matcher {grammar : Grammar (HostCall σ)} {rule : Rule (HostCall σ)} {budget : Nat} {context : Context}
    {state after : State σ} {outcome : Except Interrupt Bool} (inText : InText context state)
    (ran : (rule.matcher (interpret Engine.call) grammar budget).run context state = some (outcome, after)) :
    InText context after := by
  have called {α : Type} (live : Live (Engine σ) (Engine σ)) (function : HostFunction σ α) :
      (remaining σ context).Rel live Eq (Engine.call function) (Engine.call function) :=
    fun _ => remains_call function fun a => ⟨a, rfl⟩
  have agree := Simulation.matcher (hosts called) grammar (.inl rfl : (remaining σ context).Fits budget budget) rule
  exact (agree (fun _ _ => False) (fun _ _ => False.elim) inText ran).1

end HostCall

end PegMatcher
