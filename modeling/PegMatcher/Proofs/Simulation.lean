import Mathlib.Data.List.Forall2
import Mathlib.Logic.Relation
import PegMatcher.Rule

/-! # Simulations between machines

Matchers use a machine through its operations only. A relation between the computations of two machines that
is kept by sequencing and by each operation is therefore kept by every matcher, and so by every rule. The
relation is given the places that may still be returned to, because a place is only good for a return if it
was marked before.

`Simulation.matcher` is the theorem for whole rules. The two sides may have different evaluation budgets if
the simulation says nothing about computations whose left side is exhausted. A relation that only the
operations on the text keep, and not those on values, is enough for the rules that use no others:
`TextSimulation.denote` is about one level of them.
-/

namespace PegMatcher

open Machine

section Rules

variable {χ : Type}

/-- The rules that a rule tries on its own account. -/
def Rule.parts : Rule χ → List (Rule χ)
  | sequence parts => parts
  | firstOf alternatives => alternatives
  | optional body => [body]
  | zeroOrMore body => [body]
  | oneOrMore body => [body]
  | andPredicate body => [body]
  | notPredicate body => [body]
  | capture body => [body]
  | named _ body => [body]
  | extension _ parts => parts
  | _ => []

/-- One step into a grammar: from a rule to a part of it, or from a reference to what it stands for. -/
def Grammar.Enters (grammar : Grammar χ) (rule next : Rule χ) : Prop :=
  next ∈ rule.parts ∨ ∃ name, rule = .reference name ∧ grammar.find? name = some next

/-- The rules that can be met when a rule is matched. -/
def Grammar.Meets (grammar : Grammar χ) : Rule χ → Rule χ → Prop :=
  Relation.ReflTransGen grammar.Enters

/-- A list of rules that no step leads out of has every rule that is met from one of them. -/
theorem Grammar.mem_of_meets {grammar : Grammar χ} {rules : List (Rule χ)}
    (closed : ∀ rule ∈ rules, ∀ next, grammar.Enters rule next → next ∈ rules) {rule part : Rule χ}
    (start : rule ∈ rules) (meets : grammar.Meets rule part) : part ∈ rules := by
  induction meets with
  | refl => exact start
  | tail _ enters ih => exact closed _ ih _ enters

/-- The faults that a rule itself may end in are of some kind. -/
def Rule.Raises (grammar : Grammar χ) (P : Fault → Prop) : Rule χ → Prop
  | .action _ compute => ∀ operands fault, compute operands = .error fault → P fault
  | .reference name => grammar.find? name = none → P (.unknownName name)
  | .unbuilt fault => P fault
  | _ => True

theorem Rule.raises_of_forall {grammar : Grammar χ} {P : Fault → Prop} (all : ∀ fault, P fault) (rule : Rule χ) :
    rule.Raises grammar P := by
  cases rule with
  | action arity compute => exact fun _ fault _ => all fault
  | reference name => exact fun _ => all _
  | unbuilt fault => exact all fault
  | _ => trivial

end Rules

/-- Pairs of places to which the two sides of a simulation may return. -/
abbrev Live (m n : Type → Type) [Machine m] [Machine n] := Place m → Place n → Prop

/-- The live pairs after one more mark was taken on each side. -/
def Live.extend {m n : Type → Type} [Machine m] [Machine n] (live : Live m n) (first : Place m)
    (second : Place n) : Live m n :=
  fun p q => live p q ∨ (p = first ∧ q = second)

/-- A relation between the computations of two machines that sequencing and the operations on the text keep. -/
structure TextSimulation (m n : Type → Type) [Machine m] [Machine n] where
  /-- Related computations; the second relation holds between their results. -/
  Rel : {α β : Type} → Live m n → (α → β → Prop) → m α → n β → Prop
  /-- Related offsets. -/
  Offsets : Int → Int → Prop
  /-- The faults that rules may end in. -/
  Admits : Fault → Prop := fun _ => True
  /-- Related offsets tell apart the same moments. -/
  offsets_eq_iff : ∀ {a b a' b' : Int}, Offsets a a' → Offsets b b' → (a = b ↔ a' = b')
  pure : ∀ {α β : Type} {live : Live m n} {R : α → β → Prop} {a : α} {b : β},
    R a b → Rel live R (pure a) (pure b)
  bind : ∀ {α β γ δ : Type} {live : Live m n} {R : α → β → Prop} {T : γ → δ → Prop} {x : m α} {y : n β}
    {f : α → m γ} {g : β → n δ},
    Rel live R x y → (∀ a b, R a b → Rel live T (f a) (g b)) → Rel live T (x >>= f) (y >>= g)
  mark_bind : ∀ {γ δ : Type} {live : Live m n} {T : γ → δ → Prop} {f : Place m → m γ} {g : Place n → n δ},
    (∀ p q, Rel (live.extend p q) T (f p) (g q)) → Rel live T (mark >>= f) (mark >>= g)
  reset : ∀ {live : Live m n} {p : Place m} {q : Place n},
    live p q → Rel live (fun _ _ => True) (reset p) (reset q)
  atEnd : ∀ {live : Live m n}, Rel live Eq atEnd atEnd
  peek : ∀ {live : Live m n}, Rel live Eq peek peek
  advance : ∀ {live : Live m n}, Rel live (fun _ _ => True) advance advance
  offset : ∀ {live : Live m n}, Rel live Offsets offset offset
  moveTo : ∀ {live : Live m n} {a b : Int}, Offsets a b → Rel live (fun _ _ => True) (moveTo a) (moveTo b)
  mismatch : ∀ {live : Live m n}, Rel live (fun _ _ => True) mismatch mismatch
  fail : ∀ {α β : Type} {live : Live m n} {R : α → β → Prop} (fault : Fault),
    Admits fault → Rel live R (fail fault) (fail fault)
  framed : ∀ {α β : Type} {live : Live m n} {R : α → β → Prop} {x : m α} {y : n β} (frame : Frame),
    frame.kind ≠ .named → Rel live R x y → Rel live R (framed frame x) (framed frame y)
  /-- The frame of a named rule belongs together with its guard. -/
  named : ∀ {live : Live m n} {x : m Bool} {y : n Bool} (name : Option String),
    Rel live Eq x y → Rel live Eq (Matcher.named name x) (Matcher.named name y)
  exhausted : ∀ {α β : Type} {live : Live m n} {R : α → β → Prop}, Rel live R exhausted exhausted

/-- A relation between the computations of two machines that sequencing and all operations keep. -/
structure Simulation (m n : Type → Type) [Machine m] [Machine n] extends TextSimulation m n where
  sliceFrom : ∀ {live : Live m n} {a b : Int}, Offsets a b → Rel live Eq (sliceFrom a) (sliceFrom b)
  push : ∀ {live : Live m n} (value : Value), Rel live (fun _ _ => True) (push value) (push value)
  popMany : ∀ {live : Live m n} (count : Int), Rel live Eq (popMany count) (popMany count)

/-- A simulation that keeps the frames of named rules apart from their guards. -/
structure ModularSimulation (m n : Type → Type) [Machine m] [Machine n] extends Simulation m n where
  anyFrame : ∀ {α β : Type} {live : Live m n} {R : α → β → Prop} {x : m α} {y : n β} (frame : Frame),
    Rel live R x y → Rel live R (Machine.framed frame x) (Machine.framed frame y)
  nested : ∀ {α β : Type} {live : Live m n} {R : α → β → Prop} {x : m α} {y : n β},
    Rel live R x y → Rel live R (Machine.nested x) (Machine.nested y)
  framed frame _ inner := anyFrame frame inner
  named _ inner := anyFrame _ (nested inner)

/-- A rule that works on the text alone, as far as it is not up to the parts of the rule. -/
def Rule.Textual {χ : Type} : Rule χ → Prop
  | .capture _ => False
  | .push _ => False
  | .action _ _ => False
  | .extension _ _ => False
  | _ => True

/-- Offsets that are related by being the same tell apart the same moments. -/
theorem Simulation.eq_offsets {a b a' b' : Int} (first : a = a') (second : b = b') : a = b ↔ a' = b' := by
  rw [first, second]

namespace TextSimulation

variable {m n : Type → Type} [Machine m] [Machine n] (S : TextSimulation m n) {live : Live m n}

/-- Matchers that give the same answers, whatever places are live around them. -/
def Agree (x : m Bool) (y : n Bool) : Prop :=
  ∀ live, S.Rel live Eq x y

/-- A simulation is lax if an exhausted computation is related to every other one. -/
def Lax : Prop :=
  ∀ {α β : Type} (live : Live m n) (R : α → β → Prop) (y : n β), S.Rel live R Machine.exhausted y

/-- Budgets for the two sides: the same one, or a larger one on the right of a lax simulation. -/
def Fits (first second : Nat) : Prop :=
  first = second ∨ S.Lax ∧ first ≤ second

private theorem fits_succ {first second : Nat} (fits : S.Fits (first + 1) second) :
    ∃ rest, second = rest + 1 ∧ S.Fits first rest := by
  obtain rfl | ⟨lax, le⟩ := fits
  · exact ⟨first, rfl, .inl rfl⟩
  · exact ⟨second - 1, by omega, .inr ⟨lax, by omega⟩⟩

variable {S}

/-- A branch on an answer that both sides share. -/
theorem bind_answer {γ δ : Type} {T : γ → δ → Prop} {x : m Bool} {y : n Bool} {f : Bool → m γ}
    {g : Bool → n δ} (answers : S.Rel live Eq x y) (matched : S.Rel live T (f true) (g true))
    (failed : S.Rel live T (f false) (g false)) : S.Rel live T (x >>= f) (y >>= g) := by
  refine S.bind answers ?_
  rintro answer _ rfl
  cases answer with
  | true => exact matched
  | false => exact failed

/-- A step whose result nobody looks at. -/
theorem andThen {α β γ δ : Type} {R : α → β → Prop} {T : γ → δ → Prop} {x : m α} {y : n β} {f : α → m γ}
    {g : β → n δ} (step : S.Rel live R x y) (next : ∀ a b, S.Rel live T (f a) (g b)) :
    S.Rel live T (x >>= f) (y >>= g) :=
  S.bind step fun a b _ => next a b

theorem nextIs (accepts : Char → Bool) :
    S.Rel live Eq (Matcher.nextIs accepts) (Matcher.nextIs accepts) := by
  refine bind_answer S.atEnd (S.pure rfl) (S.bind S.peek ?_)
  rintro c _ rfl
  exact S.pure rfl

theorem oneChar {frame : Frame} (nameless : frame.kind ≠ .named) (accepts : Char → Bool) :
    S.Rel live Eq (Matcher.oneChar frame accepts) (Matcher.oneChar frame accepts) := by
  refine S.framed frame nameless (bind_answer (nextIs accepts) ?_ ?_)
  · exact andThen S.advance fun _ _ => S.pure rfl
  · exact andThen S.mismatch fun _ _ => S.pure rfl

theorem literalFrom {a b : Int} (start : S.Offsets a b) (text : List Char) :
    S.Rel live Eq (Matcher.literalFrom a text) (Matcher.literalFrom b text) := by
  induction text with
  | nil => exact S.pure rfl
  | cons c rest ih =>
    refine bind_answer (nextIs _) ?_ ?_
    · exact andThen S.advance fun _ _ => ih
    · exact andThen S.mismatch fun _ _ => andThen (S.moveTo start) fun _ _ => S.pure rfl

theorem literal (text : String) : S.Rel live Eq (Matcher.literal text) (Matcher.literal text) :=
  S.framed _ (by simp [Matcher.literalFrame]) (S.bind S.offset fun _ _ start => literalFrom start text.toList)

theorem endOfInput : S.Rel live Eq Matcher.endOfInput (Matcher.endOfInput (m := n)) := by
  refine S.framed _ (by decide) (bind_answer S.atEnd (S.pure rfl) ?_)
  exact andThen S.mismatch fun _ _ => S.pure rfl

variable {xs : List (m Bool)} {ys : List (n Bool)} {x : m Bool} {y : n Bool}

/-- The failure of a composite matcher: it returns to a live place and answers. -/
private theorem giveUp {γ δ : Type} {T : γ → δ → Prop} {p : Place m} {q : Place n} {a : γ} {b : δ}
    (start : live p q) (same : T a b) :
    S.Rel live T (Machine.reset p >>= fun _ => Pure.pure a) (Machine.reset q >>= fun _ => Pure.pure b) :=
  andThen (S.reset start) fun _ _ => S.pure same

private theorem live_extend {p : Place m} {q : Place n} : live.extend p q p q :=
  .inr ⟨rfl, rfl⟩

theorem sequenceFrom {p : Place m} {q : Place n} (start : live p q) (parts : List.Forall₂ S.Agree xs ys) :
    S.Rel live Eq (Matcher.sequenceFrom p xs) (Matcher.sequenceFrom q ys) := by
  induction parts with
  | nil => exact S.pure rfl
  | cons first _ ih => exact bind_answer (first live) ih (giveUp start rfl)

theorem sequence (parts : List.Forall₂ S.Agree xs ys) :
    S.Rel live Eq (Matcher.sequence xs) (Matcher.sequence ys) :=
  S.framed _ (by decide) (S.mark_bind fun _ _ => sequenceFrom live_extend parts)

theorem firstOfFrom {p : Place m} {q : Place n} (start : live p q)
    (alternatives : List.Forall₂ S.Agree xs ys) :
    S.Rel live Eq (Matcher.firstOfFrom p xs) (Matcher.firstOfFrom q ys) := by
  induction alternatives with
  | nil => exact S.pure rfl
  | cons first _ ih =>
    exact bind_answer (first live) (S.pure rfl) (andThen (S.reset start) fun _ _ => ih)

theorem firstOf (alternatives : List.Forall₂ S.Agree xs ys) :
    S.Rel live Eq (Matcher.firstOf xs) (Matcher.firstOf ys) :=
  S.framed _ (by decide) (S.mark_bind fun _ _ => firstOfFrom live_extend alternatives)

theorem optional (body : S.Agree x y) : S.Rel live Eq (Matcher.optional x) (Matcher.optional y) :=
  S.framed _ (by decide) (S.mark_bind fun _ _ => bind_answer (body _) (S.pure rfl) (giveUp live_extend rfl))

theorem iterate (body : S.Agree x y) {bound bound' : Nat} (fits : S.Fits bound bound') (count : Nat) :
    S.Rel live Eq (Matcher.iterate x bound count) (Matcher.iterate y bound' count) := by
  induction bound generalizing live bound' count with
  | zero =>
    obtain rfl | ⟨lax, _⟩ := fits
    · exact S.exhausted
    · exact lax _ _ _
  | succ bound ih =>
    obtain ⟨rest, rfl, fitsRest⟩ := S.fits_succ fits
    refine S.bind S.offset fun origin origin' origins => S.mark_bind fun here here' => ?_
    refine bind_answer (body _) (S.bind S.offset fun stop stop' stops => ?_) (giveUp live_extend rfl)
    simp only [S.offsets_eq_iff stops origins]
    split
    · exact S.pure rfl
    -- The rest of the loop forgets the mark of this round, so the claim is used at the larger live set.
    · exact ih fitsRest (count + 1)

theorem repeated {kind : RuleKind} (nameless : kind ≠ .named) (minimum : Nat) (body : S.Agree x y) {bound bound' : Nat}
    (fits : S.Fits bound bound') :
    S.Rel live Eq (Matcher.repeated kind minimum bound x) (Matcher.repeated kind minimum bound' y) := by
  refine S.framed _ nameless (S.mark_bind fun start start' => S.bind (iterate body fits 0) ?_)
  rintro count _ rfl
  split
  · exact giveUp live_extend rfl
  · exact S.pure rfl

theorem andPredicate (body : S.Agree x y) :
    S.Rel live Eq (Matcher.andPredicate x) (Matcher.andPredicate y) := by
  refine S.framed _ (by decide) (S.mark_bind fun start start' => S.bind (body _) ?_)
  rintro matched _ rfl
  exact giveUp live_extend rfl

theorem notPredicate (body : S.Agree x y) :
    S.Rel live Eq (Matcher.notPredicate x) (Matcher.notPredicate y) := by
  refine S.framed _ (by decide) (S.mark_bind fun start start' => S.bind (body _) ?_)
  rintro matched _ rfl
  exact giveUp live_extend rfl

variable {χ : Type} {grammar : Grammar χ} {rule : Rule χ}

private theorem agree_map {inner : Rule χ → m Bool} {inner' : Rule χ → n Bool} {rules : List (Rule χ)}
    (agree : ∀ rule ∈ rules, S.Agree (inner rule) (inner' rule)) :
    List.Forall₂ S.Agree (rules.map inner) (rules.map inner') := by
  induction rules with
  | nil => exact .nil
  | cons rule rest ih =>
    obtain ⟨first, others⟩ := List.forall_mem_cons.mp agree
    exact .cons first (ih others)

/-- One level of a rule that works on the text, given that its parts and the rules it refers to agree. -/
theorem denote (textual : rule.Textual) (host : Interpretation χ m) (host' : Interpretation χ n)
    (raises : rule.Raises grammar S.Admits) {bound bound' : Nat} (fits : S.Fits bound bound')
    {inner : Rule χ → m Bool} {inner' : Rule χ → n Bool}
    (agree : ∀ next, grammar.Enters rule next → S.Agree (inner next) (inner' next)) :
    S.Agree (rule.denote host grammar bound inner) (rule.denote host' grammar bound' inner') := by
  intro live
  have body (next : Rule χ) (only : rule.parts = [next]) : S.Agree (inner next) (inner' next) :=
    agree next (.inl (only ▸ List.mem_singleton_self next))
  have parts : List.Forall₂ S.Agree (rule.parts.map inner) (rule.parts.map inner') :=
    agree_map fun next member => agree next (.inl member)
  cases rule with
  | char c => exact oneChar (by simp [Matcher.charFrame]) _
  | literal text => exact literal text
  | anyOf chars => exact oneChar (by simp [Matcher.anyOfFrame]) _
  | range low high => exact oneChar (by simp [Matcher.rangeFrame]) _
  | anyChar => exact oneChar (by simp) _
  | endOfInput => exact endOfInput
  | sequence rules => exact sequence parts
  | firstOf alternatives => exact firstOf parts
  | optional next => exact optional (body next rfl)
  | zeroOrMore next => exact repeated (by simp) _ (body next rfl) fits
  | oneOrMore next => exact repeated (by simp) _ (body next rfl) fits
  | andPredicate next => exact andPredicate (body next rfl)
  | notPredicate next => exact notPredicate (body next rfl)
  | named name next => exact S.named name (body next rfl live)
  | reference name =>
    simp only [Rule.denote]
    cases found : grammar.find? name with
    | none => exact S.fail _ (raises found)
    | some target => exact agree target (.inr ⟨name, rfl, found⟩) live
  | unbuilt fault => exact S.fail fault raises
  | capture | push | action | extension => exact textual.elim

end TextSimulation

namespace Simulation

open TextSimulation

variable {m n : Type → Type} [Machine m] [Machine n] {S : Simulation m n} {live : Live m n} {x : m Bool}
  {y : n Bool}

theorem capture (body : S.Agree x y) : S.Rel live Eq (Matcher.capture x) (Matcher.capture y) := by
  refine S.framed _ (by decide) (S.bind S.offset fun start start' starts => bind_answer (body _) ?_ (S.pure rfl))
  refine S.bind (S.sliceFrom starts) ?_
  rintro text _ rfl
  exact andThen (S.push _) fun _ _ => S.pure rfl

theorem pushValue (value : Value) :
    S.Rel live Eq (Matcher.pushValue value) (Matcher.pushValue (m := n) value) :=
  andThen (S.push value) fun _ _ => S.pure rfl

theorem action {arity : Int} {compute : List Value → Except Fault Value}
    (raises : ∀ operands fault, compute operands = .error fault → S.Admits fault) :
    S.Rel live Eq (Matcher.action arity compute) (Matcher.action (m := n) arity compute) := by
  refine S.bind (S.popMany arity) ?_
  rintro operands _ rfl
  have computed : S.Rel live Eq (Machine.lift (compute operands)) (Machine.lift (compute operands)) := by
    cases ended : compute operands with
    | ok value => exact S.pure rfl
    | error fault => exact S.fail fault (raises operands fault ended)
  refine S.bind computed ?_
  rintro value _ rfl
  exact andThen (S.push value) fun _ _ => S.pure rfl

variable {χ : Type}

/-- Interpretations of extensions that agree whenever the parts of an extension agree. -/
def Hosts (S : Simulation m n) (first : Interpretation χ m) (second : Interpretation χ n) : Prop :=
  ∀ (extended : χ) {xs : List (m Bool)} {ys : List (n Bool)},
    List.Forall₂ S.Agree xs ys → S.Agree (first extended xs) (second extended ys)

theorem hosts_none : S.Hosts Interpretation.none Interpretation.none :=
  fun extended => nomatch extended

variable {host : Interpretation χ m} {host' : Interpretation χ n}

/-- One level of a rule, given that its parts and the rules it refers to agree. -/
theorem denote (hosts : S.Hosts host host') {grammar : Grammar χ} {rule : Rule χ}
    (raises : rule.Raises grammar S.Admits) {bound bound' : Nat} (fits : S.Fits bound bound')
    {inner : Rule χ → m Bool} {inner' : Rule χ → n Bool}
    (agree : ∀ next, grammar.Enters rule next → S.Agree (inner next) (inner' next)) :
    S.Agree (rule.denote host grammar bound inner) (rule.denote host' grammar bound' inner') := by
  cases rule with
  | capture body => exact fun live => capture (agree body (.inl (List.mem_singleton_self body)))
  | push value => exact fun live => pushValue value
  | action arity compute => exact fun live => action raises
  | extension extended parts => exact hosts extended (agree_map fun part member => agree part (.inl member))
  | _ => exact TextSimulation.denote (by trivial) host host' raises fits agree

/-- Every rule agrees with itself across a simulation that admits the faults of the rules that it meets. -/
theorem matcher (hosts : S.Hosts host host') (grammar : Grammar χ) {budget budget' : Nat}
    (fits : S.Fits budget budget') (rule : Rule χ)
    (raises : ∀ part, grammar.Meets rule part → part.Raises grammar S.Admits := by
      exact fun part _ => part.raises_of_forall fun _ => trivial) :
    S.Agree (rule.matcher host grammar budget) (rule.matcher host' grammar budget') := by
  induction budget generalizing budget' rule with
  | zero =>
    intro live
    obtain rfl | ⟨lax, _⟩ := fits
    · exact S.exhausted
    · exact lax _ _ _
  | succ budget ih =>
    obtain ⟨rest, rfl, fitsRest⟩ := S.fits_succ fits
    intro live
    have started : S.Rel live (fun (_ _ : Unit) => True) (Pure.pure ()) (Pure.pure ()) := S.pure trivial
    refine andThen started fun _ _ => denote hosts (raises rule .refl) fitsRest (fun next enters => ?_) live
    exact ih fitsRest next fun part meets => raises part (.head enters meets)

end Simulation

/-- Outcomes that are the same interrupt, or results in a given relation. -/
inductive Outcomes {α β : Type} (R : α → β → Prop) : Except Interrupt α → Except Interrupt β → Prop
  | ok {a : α} {b : β} : R a b → Outcomes R (.ok a) (.ok b)
  | error (interrupt : Interrupt) : Outcomes R (.error interrupt) (.error interrupt)

/-- Interrupts that take a frame along stay the same. -/
theorem Outcomes.within {α β : Type} {R : α → β → Prop} {first : Except Interrupt α} {second : Except Interrupt β}
    (outcomes : Outcomes R first second) (frame : Frame) :
    Outcomes R (first.mapError (Interrupt.within frame)) (second.mapError (Interrupt.within frame)) := by
  cases outcomes with
  | ok related => exact .ok related
  | error interrupt => exact .error _

theorem Outcomes.eq {α : Type} {first second : Except Interrupt α} (same : Outcomes Eq first second) :
    first = second := by
  cases same with
  | ok same => rw [same]
  | error interrupt => rfl

end PegMatcher
