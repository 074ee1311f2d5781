import PegMatcher.Rule

/-! # Parsing expressions

The meaning of a recogniser, which is a rule that pushes and pops no values, as a relation between the
offset where it is tried and its verdict. There is one clause for every way in which a rule can succeed or
fail, as is usual for parsing expression grammars, with one departure: a repetition whose body succeeds
without consuming anything ends there, and that last round counts.

The first index of `Parses` bounds how deeply named rules are nested in a derivation.
-/

namespace PegMatcher

/-- How a rule ends at an offset: it succeeds up to some offset, or it fails. -/
inductive Verdict where
  | success (stop : Nat)
  | failure
  deriving DecidableEq, Repr

namespace Verdict

def matched : Verdict → Bool
  | success _ => true
  | failure => false

/-- Where the cursor stands after a verdict; a failure leaves it where it was. -/
def cursor (start : Int) : Verdict → Int
  | success stop => stop
  | failure => start

/-- The verdict of looking ahead: a success consumes nothing. -/
def ahead (start : Nat) : Verdict → Verdict
  | success _ => success start
  | failure => failure

/-- The verdict of looking ahead for an absence. -/
def absent (start : Nat) : Verdict → Verdict
  | success _ => failure
  | failure => success start

end Verdict

variable {χ : Type}

def Before : List Char → List Char → Prop :=
  List.Lex fun a b => a.toNat < b.toNat

/-- The characters that a rule for one character admits. -/
def Rule.admits? : Rule χ → Option (Char → Prop)
  | .char c => some (· = c)
  | .anyOf chars => some (· ∈ chars.toList)
  | .range low high => some fun c => ¬Before [c] low.toList ∧ ¬Before high.toList [c]
  | .anyChar => some fun _ => True
  | _ => none

/-- The rules that work on the text alone. -/
inductive Rule.Recogniser : Rule χ → Prop
  | char (c : Char) : Recogniser (.char c)
  | literal (text : String) : Recogniser (.literal text)
  | anyOf (chars : String) : Recogniser (.anyOf chars)
  | range (low high : String) : Recogniser (.range low high)
  | anyChar : Recogniser .anyChar
  | endOfInput : Recogniser .endOfInput
  | sequence {parts : List (Rule χ)} : (∀ part ∈ parts, Recogniser part) → Recogniser (.sequence parts)
  | firstOf {alternatives : List (Rule χ)} : (∀ part ∈ alternatives, Recogniser part) →
      Recogniser (.firstOf alternatives)
  | optional {body : Rule χ} : Recogniser body → Recogniser (.optional body)
  | zeroOrMore {body : Rule χ} : Recogniser body → Recogniser (.zeroOrMore body)
  | oneOrMore {body : Rule χ} : Recogniser body → Recogniser (.oneOrMore body)
  | andPredicate {body : Rule χ} : Recogniser body → Recogniser (.andPredicate body)
  | notPredicate {body : Rule χ} : Recogniser body → Recogniser (.notPredicate body)
  | named (name : Option String) {body : Rule χ} : Recogniser body → Recogniser (.named name body)
  | reference (name : String) : Recogniser (.reference name)

/-- A grammar that defines recognisers only. -/
def Grammar.Recognising (grammar : Grammar χ) : Prop :=
  ∀ name rule, grammar.find? name = some rule → rule.Recogniser

/-- The verdicts of rules on a text: with named rules nested at most so deep, a rule tried at an offset ends
in a verdict. -/
inductive Parses (grammar : Grammar χ) (text : List Char) : Nat → Rule χ → Nat → Verdict → Prop
  | admitted {depth : Nat} {rule : Rule χ} {admits : Char → Prop} {start : Nat} {c : Char} :
      rule.admits? = some admits → text[start]? = some c → admits c →
      Parses grammar text depth rule start (.success (start + 1))
  | refused {depth : Nat} {rule : Rule χ} {admits : Char → Prop} {start : Nat} :
      rule.admits? = some admits → (∀ c, text[start]? = some c → ¬admits c) →
      Parses grammar text depth rule start .failure
  | literal {depth : Nat} {word : String} {start : Nat} : word.toList <+: text.drop start →
      Parses grammar text depth (.literal word) start (.success (start + word.toList.length))
  | differs {depth : Nat} {word : String} {start : Nat} : ¬word.toList <+: text.drop start →
      Parses grammar text depth (.literal word) start .failure
  | ended {depth start : Nat} : text.length ≤ start →
      Parses grammar text depth .endOfInput start (.success start)
  | continued {depth start : Nat} : start < text.length → Parses grammar text depth .endOfInput start .failure
  | sequenceNil {depth start : Nat} : Parses grammar text depth (.sequence []) start (.success start)
  | sequenceCons {depth start middle : Nat} {first : Rule χ} {rest : List (Rule χ)} {verdict : Verdict} :
      Parses grammar text depth first start (.success middle) →
      Parses grammar text depth (.sequence rest) middle verdict →
      Parses grammar text depth (.sequence (first :: rest)) start verdict
  | sequenceFails {depth start : Nat} {first : Rule χ} {rest : List (Rule χ)} :
      Parses grammar text depth first start .failure →
      Parses grammar text depth (.sequence (first :: rest)) start .failure
  | firstOfNil {depth start : Nat} : Parses grammar text depth (.firstOf []) start .failure
  | firstOfHead {depth start stop : Nat} {first : Rule χ} {rest : List (Rule χ)} :
      Parses grammar text depth first start (.success stop) →
      Parses grammar text depth (.firstOf (first :: rest)) start (.success stop)
  | firstOfTail {depth start : Nat} {first : Rule χ} {rest : List (Rule χ)} {verdict : Verdict} :
      Parses grammar text depth first start .failure →
      Parses grammar text depth (.firstOf rest) start verdict →
      Parses grammar text depth (.firstOf (first :: rest)) start verdict
  | present {depth start stop : Nat} {body : Rule χ} : Parses grammar text depth body start (.success stop) →
      Parses grammar text depth (.optional body) start (.success stop)
  | omitted {depth start : Nat} {body : Rule χ} : Parses grammar text depth body start .failure →
      Parses grammar text depth (.optional body) start (.success start)
  | noMore {depth start : Nat} {body : Rule χ} : Parses grammar text depth body start .failure →
      Parses grammar text depth (.zeroOrMore body) start (.success start)
  | idle {depth start : Nat} {body : Rule χ} : Parses grammar text depth body start (.success start) →
      Parses grammar text depth (.zeroOrMore body) start (.success start)
  | oneMore {depth start middle : Nat} {body : Rule χ} {verdict : Verdict} :
      Parses grammar text depth body start (.success middle) → middle ≠ start →
      Parses grammar text depth (.zeroOrMore body) middle verdict →
      Parses grammar text depth (.zeroOrMore body) start verdict
  | notOnce {depth start : Nat} {body : Rule χ} : Parses grammar text depth body start .failure →
      Parses grammar text depth (.oneOrMore body) start .failure
  | onceIdle {depth start : Nat} {body : Rule χ} : Parses grammar text depth body start (.success start) →
      Parses grammar text depth (.oneOrMore body) start (.success start)
  | once {depth start middle : Nat} {body : Rule χ} {verdict : Verdict} :
      Parses grammar text depth body start (.success middle) → middle ≠ start →
      Parses grammar text depth (.zeroOrMore body) middle verdict →
      Parses grammar text depth (.oneOrMore body) start verdict
  | andPredicate {depth start : Nat} {body : Rule χ} {verdict : Verdict} :
      Parses grammar text depth body start verdict →
      Parses grammar text depth (.andPredicate body) start (verdict.ahead start)
  | notPredicate {depth start : Nat} {body : Rule χ} {verdict : Verdict} :
      Parses grammar text depth body start verdict →
      Parses grammar text depth (.notPredicate body) start (verdict.absent start)
  | named {depth start : Nat} {name : Option String} {body : Rule χ} {verdict : Verdict} :
      Parses grammar text depth body start verdict →
      Parses grammar text (depth + 1) (.named name body) start verdict
  | reference {depth start : Nat} {name : String} {target : Rule χ} {verdict : Verdict} :
      grammar.find? name = some target → Parses grammar text depth target start verdict →
      Parses grammar text depth (.reference name) start verdict

namespace Parses

variable {grammar : Grammar χ} {text : List Char} {depth start : Nat} {rule : Rule χ} {verdict : Verdict}

/-- A success ends inside the text. -/
theorem stop_le (parses : Parses grammar text depth rule start verdict) (inside : start ≤ text.length) :
    ∀ stop, verdict = .success stop → stop ≤ text.length := by
  induction parses with
  | admitted _ found _ =>
    rintro stop ⟨⟩
    exact (List.getElem?_eq_some_iff.mp found).1
  | literal present =>
    rintro stop ⟨⟩
    have length := present.length_le
    rw [List.length_drop] at length
    omega
  | ended _ => rintro stop ⟨⟩; exact inside
  | sequenceNil => rintro stop ⟨⟩; exact inside
  | sequenceCons _ _ first rest => exact rest (first inside _ rfl)
  | firstOfHead _ first => exact first inside
  | firstOfTail _ _ _ rest => exact rest inside
  | present _ body => exact body inside
  | omitted _ _ => rintro stop ⟨⟩; exact inside
  | noMore _ _ => rintro stop ⟨⟩; exact inside
  | idle _ _ => rintro stop ⟨⟩; exact inside
  | oneMore _ _ _ body rest => exact rest (body inside _ rfl)
  | onceIdle _ _ => rintro stop ⟨⟩; exact inside
  | once _ _ _ body rest => exact rest (body inside _ rfl)
  | @andPredicate _ _ _ verdict _ _ =>
    cases verdict <;> rintro stop ⟨⟩
    exact inside
  | @notPredicate _ _ _ verdict _ _ =>
    cases verdict <;> rintro stop ⟨⟩
    exact inside
  | named _ body => exact body inside
  | reference _ _ target => exact target inside
  | refused | differs | continued | sequenceFails | firstOfNil | notOnce => rintro stop ⟨⟩

end Parses

end PegMatcher
