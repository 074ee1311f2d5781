import PegMatcher.Proofs.Budget
import PegMatcher.Proofs.Parsing

/-! # Matchers recognise what rules parse

In a plain pass, the matcher of a recogniser answers with the verdict of the rule. Soundness is an induction
on the evaluation budget: an answer comes with a derivation. Completeness is an induction on derivations: if
the named rules of a derivation fit into the nesting that is left, some budget suffices for the answer, and
so does every larger one.

A matcher of this kind changes nothing of a state but the cursor and the tracker. `Leaves` says so, relative
to a home state, because a sequence that fails goes back to where it began.
-/

namespace PegMatcher

namespace Recognition

variable {σ : Type}

/-- A state of a plain pass with the cursor at an offset of the text. -/
structure Entry (context : Context) (state : State σ) (start : Nat) : Prop where
  plain : state.tracker.collecting = none
  offset : state.offset = start
  inside : start ≤ context.source.toList.length

/-- Two states that differ in the cursor and the tracker only. -/
def Beside (home state : State σ) : Prop :=
  ∃ offset tracker, state = { home with offset := offset, tracker := tracker }

/-- How many more named rules may be nested. -/
def available (context : Context) (state : State σ) : Nat :=
  (context.maxDepth - state.depth).toNat

/-- An answer and a state that a verdict leaves behind, with the failures going back home. -/
def Leaves (home : State σ) (verdict : Verdict) (answer : Bool) (after : State σ) : Prop :=
  answer = verdict.matched ∧ ∃ tracker, tracker.collecting = none ∧
    after = { home with offset := verdict.cursor home.offset, tracker := tracker }

/-- A matcher that ends in a verdict. -/
def Ends (context : Context) (x : Engine σ Bool) (home state : State σ) (verdict : Verdict) : Prop :=
  ∃ answer after, x.run context state = some (.ok answer, after) ∧ Leaves home verdict answer after

theorem Ends.leaves {context : Context} {x : Engine σ Bool} {home state after : State σ} {verdict : Verdict}
    {answer : Bool} (ends : Ends context x home state verdict)
    (ran : x.run context state = some (.ok answer, after)) : Leaves home verdict answer after := by
  obtain ⟨answer', after', ran', leaves⟩ := ends
  cases ran.symm.trans ran'
  exact leaves

private theorem beside_refl (state : State σ) : Beside state state :=
  ⟨_, _, rfl⟩

section Entries

variable {context : Context} {home state : State σ} {start : Nat}

/-- After a success the cursor stands at its end, and the rest can go on from there. -/
theorem Leaves.entry {middle : Nat} {answer : Bool} {after : State σ}
    (leaves : Leaves state (.success middle) answer after)
    (inside : middle ≤ context.source.toList.length) :
    answer = true ∧ Entry context after middle ∧ Beside state after := by
  obtain ⟨rfl, tracker, plain, rfl⟩ := leaves
  exact ⟨rfl, ⟨plain, rfl, inside⟩, _, _, rfl⟩

/-- After a failure everything but the tracker is as before. -/
theorem Leaves.failed (entry : Entry context state start) {answer : Bool} {after : State σ}
    (leaves : Leaves state .failure answer after) :
    answer = false ∧ Entry context after start ∧ ∃ tracker, after = { state with tracker := tracker } := by
  obtain ⟨rfl, tracker, plain, rfl⟩ := leaves
  exact ⟨rfl, ⟨plain, entry.offset, entry.inside⟩, _, rfl⟩

/-- What a verdict leaves behind depends on the home state, not on the cursor or the tracker. -/
theorem Leaves.success_home (beside : Beside home state) {stop : Nat} {answer : Bool} {after : State σ}
    (leaves : Leaves state (.success stop) answer after) : Leaves home (.success stop) answer after := by
  obtain ⟨offset, tracker, rfl⟩ := beside
  exact leaves

private theorem leaves_here (entry : Entry context state start) : Leaves state (.success start) true state :=
  ⟨rfl, state.tracker, entry.plain, by rw [Verdict.cursor, ← entry.offset]⟩

private theorem leaves_retracked (entry : Entry context state start) {tracker : Tracker}
    (plain : tracker.collecting = none) :
    Leaves state (.success start) true { state with tracker := tracker } :=
  ⟨rfl, tracker, plain, by rw [Verdict.cursor, ← entry.offset]⟩

private theorem available_beside (beside : Beside home state) : available context state = available context home := by
  obtain ⟨offset, tracker, rfl⟩ := beside
  rfl

theorem Beside.trans {later : State σ} (first : Beside home state) (second : Beside state later) :
    Beside home later := by
  obtain ⟨_, _, rfl⟩ := first
  obtain ⟨offset, tracker, rfl⟩ := second
  exact ⟨offset, tracker, rfl⟩

end Entries

section Leaf

variable {context : Context} {home state : State σ} {start : Nat}

private theorem plain_observe {tracker : Tracker} (plain : tracker.collecting = none) (offset : Int) :
    (tracker.observe offset).collecting = none := by
  simp only [Tracker.observe, plain]

/-- Reporting a mismatch leaves a failure. -/
theorem run_mismatch (entry : Entry context state start) :
    ∃ after, (Engine.mismatch : Engine σ Unit).run context state = some (.ok (), after) ∧
      Leaves state .failure false after := by
  refine ⟨{ state with tracker := state.tracker.observe start }, ?_, rfl, _, plain_observe entry.plain _, rfl⟩
  simp [Engine.mismatch, Engine.run_bind, Engine.offset, Engine.observe, Engine.registerAt, Tracker.register,
    entry.plain, entry.offset]

theorem charAt_eq (source : Source) {start : Nat} {c : Char} (found : source.toList[start]? = some c) :
    source.charAt start = .ok c := by
  have nonnegative : ¬((start : Int) < 0) := by omega
  have atStart : source.chars[start]? = some c := by
    simpa only [Source.toList, Array.getElem?_toList] using found
  simp only [Source.charAt, Source.char?, Source.fromEnd, nonnegative, ↓reduceIte, Int.toNat_natCast, atStart]

theorem run_atEnd (entry : Entry context state start) :
    (Machine.atEnd : Engine σ Bool).run context state =
      some (.ok (decide (context.source.toList.length ≤ start)), state) := by
  simp [Machine.atEnd, Engine.atEnd, Engine.observe, entry.offset]

theorem run_nextIs (entry : Entry context state start) (accepts : Char → Bool) :
    (Matcher.nextIs accepts : Engine σ Bool).run context state =
      some (.ok (context.source.toList[start]?.any accepts), state) := by
  rw [Matcher.nextIs, Engine.run_bind, run_atEnd entry]
  by_cases ended : context.source.toList.length ≤ start
  · simp only [ended, decide_true, ↓reduceIte, List.getElem?_eq_none ended, Option.any_none, Engine.run_pure]
  · have inside : start < context.source.toList.length := by omega
    have found := List.getElem?_eq_getElem inside
    have peeked : (Machine.peek : Engine σ Char).run context state =
        some (.ok context.source.toList[start], state) := by
      have here : (start : Int) < context.source.length := by
        rw [← Source.length_toList]; omega
      simp only [Machine.peek, Engine.peek, entry.offset, here, ↓reduceIte, charAt_eq _ found]
    simp only [ended, decide_false, Bool.false_eq_true, ↓reduceIte, Engine.run_bind, peeked, found,
      Option.any_some]
    rfl

/-- Consuming a character leaves a success of length one. -/
theorem run_advance (entry : Entry context state start) (inside : start < context.source.toList.length) :
    ∃ c after, (Engine.advance : Engine σ Char).run context state = some (.ok c, after) ∧
      Leaves state (.success (start + 1)) true after := by
  have here : (start : Int) < context.source.length := by
    rw [← Source.length_toList]; omega
  have found := List.getElem?_eq_getElem inside
  refine ⟨context.source.toList[start], { state with
    offset := (start + 1 : Nat), tracker := state.tracker.observe (start + 1 : Nat) }, ?_, rfl, _,
    plain_observe entry.plain _, rfl⟩
  simp only [Engine.advance, entry.offset, here, ↓reduceIte, charAt_eq _ found]
  rfl

private theorem ends_framed_iff {frame : Frame} {x : Engine σ Bool} {verdict : Verdict} :
    Ends context (Engine.framed frame x) home state verdict ↔ Ends context x home state verdict := by
  simp only [Ends, Engine.run_framed_eq_ok_iff]

private theorem ends_oneChar (entry : Entry context state start) (frame : Frame) (accepts : Char → Bool) :
    Ends context (Matcher.oneChar frame accepts) state state
      (if context.source.toList[start]?.any accepts then .success (start + 1) else .failure) := by
  refine ends_framed_iff.mpr ?_
  simp only [Ends, Engine.run_bind, run_nextIs entry]
  cases accepted : context.source.toList[start]?.any accepts with
  | true =>
    have inside : start < context.source.toList.length := by
      by_contra outside
      rw [List.getElem?_eq_none (by omega)] at accepted
      cases accepted
    obtain ⟨c, after, advanced, leaves⟩ := run_advance entry inside
    simp only [↓reduceIte, Engine.run_bind, Machine.advance, advanced]
    exact ⟨true, after, rfl, leaves⟩
  | false =>
    obtain ⟨after, reported, leaves⟩ := run_mismatch entry
    simp only [Bool.false_eq_true, ↓reduceIte, Engine.run_bind, Machine.mismatch, reported]
    exact ⟨false, after, rfl, leaves⟩

private theorem ends_literalFrom (entry : Entry context state start) (beside : Beside home state)
    (word : List Char) :
    Ends context (Matcher.literalFrom home.offset word) home state
      (if word <+: context.source.toList.drop start then .success (start + word.length) else .failure) := by
  induction word generalizing state start with
  | nil =>
    obtain ⟨offset, tracker, rfl⟩ := beside
    refine ⟨true, _, rfl, ?_⟩
    simp only [List.nil_prefix, ↓reduceIte, List.length_nil, Nat.add_zero]
    exact ⟨rfl, tracker, entry.plain, by rw [Verdict.cursor, ← entry.offset]⟩
  | cons c rest ih =>
    simp only [Ends, Matcher.literalFrom, Engine.run_bind, run_nextIs entry]
    by_cases same : context.source.toList[start]? = some c
    · have inside := (List.getElem?_eq_some_iff.mp same).1
      have drop : context.source.toList.drop start = c :: context.source.toList.drop (start + 1) := by
        rw [List.drop_eq_getElem_cons inside, (List.getElem?_eq_some_iff.mp same).2]
      obtain ⟨c', after, advanced, leaves⟩ := run_advance entry inside
      obtain ⟨_, entry', beside'⟩ := leaves.entry inside
      have ended := ih entry' (beside.trans beside')
      simp only [same, Option.any_some, beq_self_eq_true, ↓reduceIte, Engine.run_bind, Machine.advance,
        advanced, drop, List.cons_prefix_cons, true_and, List.length_cons]
      rwa [Nat.add_assoc, Nat.add_comm 1] at ended
    · have refused : context.source.toList[start]?.any (· == c) = false := by
        cases found : context.source.toList[start]? with
        | none => rfl
        | some other => simpa [found] using same
      have differs : ¬c :: rest <+: context.source.toList.drop start := by
        rintro ⟨tail, whole⟩
        have first := congrArg List.head? whole
        rw [List.head?_drop] at first
        exact same first.symm
      simp only [refused, Bool.false_eq_true, ↓reduceIte, differs]
      obtain ⟨after, reported, leaves⟩ := run_mismatch entry
      obtain ⟨_, entry', tracker, rfl⟩ := leaves.failed entry
      simp only [Engine.run_bind, Machine.mismatch, reported]
      obtain ⟨_, _, rfl⟩ := beside
      exact ⟨false, _, rfl, rfl, tracker, entry'.plain, rfl⟩

private theorem ends_literal (entry : Entry context state start) (word : String) :
    Ends context (Matcher.literal word) state state
      (if word.toList <+: context.source.toList.drop start then .success (start + word.toList.length)
        else .failure) :=
  ends_framed_iff.mpr (ends_literalFrom entry (beside_refl state) word.toList)

private theorem ends_endOfInput (entry : Entry context state start) :
    Ends context Matcher.endOfInput state state
      (if context.source.toList.length ≤ start then .success start else .failure) := by
  refine ends_framed_iff.mpr ?_
  simp only [Ends, Engine.run_bind, run_atEnd entry]
  by_cases ended : context.source.toList.length ≤ start
  · simp only [ended, decide_true, ↓reduceIte]
    exact ⟨true, state, rfl, leaves_here entry⟩
  · obtain ⟨after, reported, leaves⟩ := run_mismatch entry
    simp only [ended, decide_false, Bool.false_eq_true, ↓reduceIte, Engine.run_bind, Machine.mismatch, reported]
    exact ⟨false, after, rfl, leaves⟩

theorem precedes_iff (first second : List Char) :
    Matcher.precedes first second = true ↔ ¬Before second first := by
  induction first generalizing second with
  | nil => exact iff_of_true rfl List.not_lex_nil
  | cons a first ih =>
    cases second with
    | nil => exact iff_of_false Bool.false_ne_true (not_not_intro .nil)
    | cons b second =>
      have order : a < b ↔ a.toNat < b.toNat := Iff.rfl
      have same : a = b ↔ a.toNat = b.toNat := Char.toNat_inj.symm
      have mirrored : b = a ↔ b.toNat = a.toNat := Char.toNat_inj.symm
      rw [Before, List.cons_lex_cons_iff, ← Before]
      simp only [Matcher.precedes, Bool.or_eq_true, Bool.and_eq_true, decide_eq_true_eq, beq_iff_eq, ih, order,
        same, mirrored]
      by_cases earlier : Before second first
      · simp only [earlier, not_true_eq_false, and_false, and_true, or_false]
        omega
      · simp only [earlier, not_false_eq_true, and_false, and_true, or_false]
        omega

/-- A rule for one character is matched by comparing the character at the cursor. -/
theorem denote_single {rule : Rule Empty} {admits : Char → Prop} (single : rule.admits? = some admits) :
    ∃ frame accepts, (∀ c, accepts c = true ↔ admits c) ∧
      ∀ (grammar : Grammar Empty) bound (inner : Rule Empty → Engine σ Bool),
        rule.denote Interpretation.none grammar bound inner = Matcher.oneChar frame accepts := by
  cases rule with
  | char c =>
    cases single
    exact ⟨_, _, fun _ => beq_iff_eq, fun _ _ _ => rfl⟩
  | anyOf chars =>
    cases single
    exact ⟨_, _, fun _ => List.contains_iff_mem, fun _ _ _ => rfl⟩
  | range low high =>
    cases single
    refine ⟨_, Matcher.inRange low high, fun c => ?_, fun _ _ _ => rfl⟩
    rw [Matcher.inRange, Bool.and_eq_true, precedes_iff, precedes_iff]
  | anyChar =>
    cases single
    exact ⟨_, _, fun _ => iff_of_true rfl trivial, fun _ _ _ => rfl⟩
  | _ => cases single

end Leaf

section Parts

variable {context : Context} {home state : State σ} {start : Nat} {x : Engine σ Bool} {seen : Verdict}

/-- From what a verdict left behind, a return home changes the tracker only. -/
theorem Leaves.back (context : Context) {verdict : Verdict} {answer : Bool} {after : State σ}
    (leaves : Leaves state verdict answer after) (beside : Beside home state) :
    ∃ tracker, tracker.collecting = none ∧
      (Machine.reset (Engine.markOf home) : Engine σ Unit).run context after =
        some (.ok (), { home with tracker := tracker }) := by
  obtain ⟨_, tracker, plain, rfl⟩ := leaves
  obtain ⟨_, _, rfl⟩ := beside
  refine ⟨tracker, plain, ?_⟩
  rw [Engine.run_reset, Engine.markOf, if_neg (Nat.lt_irrefl _), ValueStack.take_depth]

private theorem ends_optional (entry : Entry context state start) (ends : Ends context x state state seen) :
    Ends context (Matcher.optional x) state state (if seen.matched then seen else .success start) := by
  obtain ⟨_, after, ran, leaves⟩ := ends
  obtain ⟨tracker, plain, back⟩ := leaves.back context (beside_refl state)
  refine ends_framed_iff.mpr ?_
  cases seen with
  | success stop =>
    obtain ⟨rfl, ended⟩ := leaves
    exact ⟨true, after, Engine.run_bind_eq_ok_iff.mpr ⟨_, _, rfl,
      Engine.run_bind_eq_ok_iff.mpr ⟨true, after, ran, rfl⟩⟩, rfl, ended⟩
  | failure =>
    obtain ⟨rfl, _⟩ := leaves
    refine ⟨true, _, ?_, leaves_retracked entry plain⟩
    rw [Engine.run_mark_bind]
    refine Engine.run_bind_eq_ok_iff.mpr ⟨false, after, ran, ?_⟩
    exact Engine.run_bind_eq_ok_iff.mpr ⟨(), _, back, rfl⟩

/-- Looking ahead goes back, and the answer is what is concluded from the verdict. -/
theorem ends_ahead (conclude : Bool → Bool) (frame : Frame) (entry : Entry context state start)
    (ends : Ends context x state state seen) :
    Ends context (Engine.framed frame (Machine.mark >>= fun here => x >>= fun matched =>
      Machine.reset here >>= fun _ => pure (conclude matched))) state state
      (if conclude seen.matched then .success start else .failure) := by
  obtain ⟨_, after, ran, leaves⟩ := ends
  obtain ⟨tracker, plain, back⟩ := leaves.back context (beside_refl state)
  obtain ⟨rfl, _⟩ := leaves
  refine ends_framed_iff.mpr ⟨conclude seen.matched, { state with tracker := tracker }, ?_, ?_⟩
  · rw [Engine.run_mark_bind]
    refine Engine.run_bind_eq_ok_iff.mpr ⟨_, after, ran, ?_⟩
    exact Engine.run_bind_eq_ok_iff.mpr ⟨(), _, back, rfl⟩
  · cases conclude seen.matched with
    | true => exact leaves_retracked entry plain
    | false => exact ⟨rfl, tracker, plain, rfl⟩

private theorem ends_named (name : Option String) (room : 0 < available context state)
    (ends : Ends context x { state with depth := state.depth + 1 } { state with depth := state.depth + 1 }
      seen) :
    Ends context (Matcher.named name x) state state seen := by
  obtain ⟨_, after, ran, rfl, tracker, plain, rfl⟩ := ends
  have allowed : ¬context.maxDepth ≤ state.depth := by
    simp only [available] at room
    omega
  refine ends_framed_iff.mpr
    ⟨_, { state with offset := seen.cursor state.offset, tracker := tracker }, ?_, rfl, tracker, plain, rfl⟩
  rw [Engine.run_nested, if_neg allowed, ran]
  simp only [Option.map_some, Int.add_sub_cancel]

end Parts

section Soundness

variable {context : Context} {grammar : Grammar Empty} {home state : State σ} {start : Nat}

/-- Every answer of a matcher is the verdict of a rule. -/
def Reads (context : Context) (grammar : Grammar Empty) (rule : Rule Empty) (x : Engine σ Bool)
    (home state : State σ) (start : Nat) : Prop :=
  ∀ {answer after}, x.run context state = some (.ok answer, after) →
    ∃ verdict, Parses grammar context.source.toList (available context home) rule start verdict ∧
      Leaves home verdict answer after

/-- A matcher whose answers are the verdicts of a rule, wherever it is tried. -/
def Sound (context : Context) (grammar : Grammar Empty) (rule : Rule Empty) (x : Engine σ Bool) : Prop :=
  ∀ {state start}, Entry context state start → Reads context grammar rule x state state start

private theorem reads_of_ends {rule : Rule Empty} {x : Engine σ Bool} {verdict : Verdict}
    (parses : Parses grammar context.source.toList (available context home) rule start verdict)
    (ends : Ends context x home state verdict) : Reads context grammar rule x home state start :=
  fun ran => ⟨verdict, parses, ends.leaves ran⟩

private theorem reads_framed {rule : Rule Empty} {x : Engine σ Bool} {frame : Frame}
    (reads : Reads context grammar rule x home state start) :
    Reads context grammar rule (Engine.framed frame x) home state start :=
  fun ran => reads (Engine.run_framed_eq_ok_iff.mp ran)

private theorem sound_single {rule : Rule Empty} {admits : Char → Prop} (single : rule.admits? = some admits)
    (bound : Nat) (inner : Rule Empty → Engine σ Bool) :
    Sound context grammar rule (rule.denote Interpretation.none grammar bound inner) := by
  obtain ⟨frame, accepts, same, denotes⟩ := denote_single (σ := σ) single
  intro state start entry
  rw [denotes]
  refine reads_of_ends ?_ (ends_oneChar entry frame accepts)
  cases found : context.source.toList[start]? with
  | none => exact .refused single fun c here => by rw [found] at here; cases here
  | some c =>
    rw [Option.any_some]
    split
    · exact .admitted single found ((same c).mp ‹_›)
    · refine .refused single fun c' here admitted => ?_
      cases found.symm.trans here
      exact absurd ((same c).mpr admitted) ‹_›

private theorem sound_literal (word : String) :
    Sound context grammar (.literal word) (Matcher.literal word : Engine σ Bool) := by
  intro state start entry
  refine reads_of_ends ?_ (ends_literal entry word)
  split
  · exact .literal ‹_›
  · exact .differs ‹_›

private theorem sound_endOfInput : Sound context grammar .endOfInput (Matcher.endOfInput : Engine σ Bool) := by
  intro state start entry
  refine reads_of_ends ?_ (ends_endOfInput entry)
  split
  · exact .ended ‹_›
  · exact .continued (by omega)

variable {inner : Rule Empty → Engine σ Bool}

private theorem reads_sequenceFrom {parts : List (Rule Empty)}
    (sound : ∀ part ∈ parts, Sound context grammar part (inner part)) (entry : Entry context state start)
    (beside : Beside home state) :
    Reads context grammar (.sequence parts) (Matcher.sequenceFrom (Engine.markOf home) (parts.map inner)) home
      state start := by
  induction parts generalizing state start with
  | nil =>
    intro answer after ran
    cases ran
    obtain ⟨_, _, rfl⟩ := beside
    exact ⟨.success start, .sequenceNil, rfl, _, entry.plain, by rw [Verdict.cursor, ← entry.offset]⟩
  | cons first rest ih =>
    intro answer after ran
    obtain ⟨matched, middle, head, tail⟩ := Engine.run_bind_eq_ok_iff.mp ran
    obtain ⟨verdict, parses, leaves⟩ := sound first List.mem_cons_self entry head
    rw [available_beside beside] at parses
    cases verdict with
    | success stop =>
      have inside := parses.stop_le entry.inside stop rfl
      obtain ⟨rfl, entry', beside'⟩ := leaves.entry inside
      obtain ⟨verdict, parsesRest, leavesRest⟩ :=
        ih (fun part member => sound part (List.mem_cons_of_mem _ member)) entry' (beside.trans beside') tail
      exact ⟨verdict, .sequenceCons parses parsesRest, leavesRest⟩
    | failure =>
      obtain ⟨tracker, plain, back⟩ := leaves.back context beside
      obtain ⟨rfl, _⟩ := leaves
      simp only [Verdict.matched, Bool.false_eq_true, ↓reduceIte, Engine.run_bind, back] at tail
      cases tail
      exact ⟨.failure, .sequenceFails parses, rfl, tracker, plain, rfl⟩

private theorem reads_firstOfFrom {alternatives : List (Rule Empty)}
    (sound : ∀ part ∈ alternatives, Sound context grammar part (inner part))
    (entry : Entry context state start) :
    Reads context grammar (.firstOf alternatives)
      (Matcher.firstOfFrom (Engine.markOf state) (alternatives.map inner)) state state start := by
  induction alternatives generalizing state with
  | nil =>
    intro answer after ran
    cases ran
    exact ⟨.failure, .firstOfNil, rfl, _, entry.plain, rfl⟩
  | cons first rest ih =>
    intro answer after ran
    obtain ⟨matched, middle, head, tail⟩ := Engine.run_bind_eq_ok_iff.mp ran
    obtain ⟨verdict, parses, leaves⟩ := sound first List.mem_cons_self entry head
    cases verdict with
    | success stop =>
      obtain ⟨rfl, ended⟩ := leaves
      cases tail
      exact ⟨.success stop, .firstOfHead parses, rfl, ended⟩
    | failure =>
      obtain ⟨tracker, plain, back⟩ := leaves.back context (beside_refl state)
      obtain ⟨rfl, _⟩ := leaves
      simp only [Verdict.matched, Bool.false_eq_true, ↓reduceIte, Engine.run_bind, back] at tail
      have entry' : Entry context { state with tracker := tracker } start := ⟨plain, entry.offset, entry.inside⟩
      obtain ⟨verdict, parsesRest, leavesRest⟩ :=
        ih (fun part member => sound part (List.mem_cons_of_mem _ member)) entry' tail
      exact ⟨verdict, .firstOfTail parses parsesRest, leavesRest⟩

variable {body : Rule Empty} {x : Engine σ Bool}

/-- What the part of a matcher has seen when the matcher answers. -/
theorem Sound.sees (sound : Sound context grammar body x) (entry : Entry context state start) {frame : Frame}
    {next : Mark → Bool → Engine σ Bool} {answer : Bool} {after : State σ}
    (ran : (Engine.framed frame (Machine.mark >>= fun here => x >>= next here)).run context state =
      some (.ok answer, after)) :
    ∃ seen, Parses grammar context.source.toList (available context state) body start seen ∧
      Ends context x state state seen := by
  have inner := Engine.run_framed_eq_ok_iff.mp ran
  rw [Engine.run_mark_bind] at inner
  obtain ⟨matched, middle, head, _⟩ := Engine.run_bind_eq_ok_iff.mp inner
  obtain ⟨seen, parses, leaves⟩ := sound entry head
  exact ⟨seen, parses, matched, middle, head, leaves⟩

private theorem sound_optional (sound : Sound context grammar body x) :
    Sound context grammar (.optional body) (Matcher.optional x) := by
  intro state start entry answer after ran
  obtain ⟨seen, parses, ends⟩ := sound.sees entry ran
  refine ⟨_, ?_, (ends_optional entry ends).leaves ran⟩
  cases seen with
  | success stop => exact .present parses
  | failure => exact .omitted parses

/-- What a finished loop has read: some rounds of the body, with the first round told apart. -/
theorem sound_iterate (sound : Sound context grammar body x) (entry : Entry context state start)
    {bound count total : Nat} {after : State σ}
    (ran : (Matcher.iterate x bound count).run context state = some (.ok total, after)) :
    ∃ stop, Leaves state (.success stop) true after ∧
      Parses grammar context.source.toList (available context state) (.zeroOrMore body) start (.success stop) ∧
      (total = count ∧
          Parses grammar context.source.toList (available context state) (.oneOrMore body) start .failure ∨
        count < total ∧ Parses grammar context.source.toList (available context state) (.oneOrMore body) start
          (.success stop)) := by
  induction bound generalizing state start count with
  | zero => cases ran
  | succ bound ih =>
    rw [Matcher.iterate, Engine.run_offset_bind, Engine.run_mark_bind] at ran
    obtain ⟨matched, middle, head, tail⟩ := Engine.run_bind_eq_ok_iff.mp ran
    obtain ⟨verdict, parses, leaves⟩ := sound entry head
    cases verdict with
    | success stop =>
      have inside := parses.stop_le entry.inside stop rfl
      obtain ⟨rfl, entry', beside⟩ := leaves.entry inside
      rw [if_pos rfl, Engine.run_offset_bind, entry'.offset, entry.offset] at tail
      by_cases still : stop = start
      · subst still
        rw [if_pos rfl] at tail
        cases tail
        exact ⟨stop, leaves, .idle parses, .inr ⟨by omega, .onceIdle parses⟩⟩
      · rw [if_neg (by omega)] at tail
        obtain ⟨last, leavesRest, more, rounds⟩ := ih entry' tail
        rw [available_beside beside] at more
        refine ⟨last, leavesRest.success_home beside, .oneMore parses still more,
          .inr ⟨?_, .once parses still more⟩⟩
        obtain ⟨same, _⟩ | ⟨more, _⟩ := rounds <;> omega
    | failure =>
      obtain ⟨tracker, plain, back⟩ := leaves.back context (beside_refl state)
      obtain ⟨rfl, _⟩ := leaves
      simp only [Verdict.matched, Bool.false_eq_true, ↓reduceIte, Engine.run_bind, back] at tail
      cases tail
      refine ⟨start, ⟨rfl, tracker, plain, ?_⟩, .noMore parses, .inl ⟨rfl, .notOnce parses⟩⟩
      rw [Verdict.cursor, ← entry.offset]

private theorem sound_zeroOrMore (sound : Sound context grammar body x) (bound : Nat) :
    Sound context grammar (.zeroOrMore body) (Matcher.repeated .zeroOrMore 0 bound x) := by
  intro state start entry
  refine reads_framed fun ran => ?_
  rw [Engine.run_mark_bind] at ran
  obtain ⟨total, after, looped, tail⟩ := Engine.run_bind_eq_ok_iff.mp ran
  obtain ⟨stop, leaves, parses, _⟩ := sound_iterate sound entry looped
  rw [if_neg (Nat.not_lt_zero total)] at tail
  cases tail
  exact ⟨.success stop, parses, leaves⟩

private theorem sound_oneOrMore (sound : Sound context grammar body x) (bound : Nat) :
    Sound context grammar (.oneOrMore body) (Matcher.repeated .oneOrMore 1 bound x) := by
  intro state start entry
  refine reads_framed fun ran => ?_
  rw [Engine.run_mark_bind] at ran
  obtain ⟨total, after, looped, tail⟩ := Engine.run_bind_eq_ok_iff.mp ran
  obtain ⟨stop, leaves, _, ⟨rfl, parses⟩ | ⟨some, parses⟩⟩ := sound_iterate sound entry looped
  · obtain ⟨tracker, plain, back⟩ := leaves.back context (beside_refl state)
    simp only [Nat.zero_lt_one, ↓reduceIte, Engine.run_bind, back] at tail
    cases tail
    exact ⟨.failure, parses, rfl, tracker, plain, rfl⟩
  · rw [if_neg (by omega)] at tail
    cases tail
    exact ⟨.success stop, parses, leaves⟩

private theorem sound_andPredicate (sound : Sound context grammar body x) :
    Sound context grammar (.andPredicate body) (Matcher.andPredicate x) := by
  intro state start entry answer after ran
  obtain ⟨seen, parses, ends⟩ := sound.sees entry ran
  refine ⟨_, ?_, (ends_ahead id _ entry ends).leaves ran⟩
  cases seen <;> exact .andPredicate parses

private theorem sound_notPredicate (sound : Sound context grammar body x) :
    Sound context grammar (.notPredicate body) (Matcher.notPredicate x) := by
  intro state start entry answer after ran
  obtain ⟨seen, parses, ends⟩ := sound.sees entry ran
  refine ⟨_, ?_, (ends_ahead not _ entry ends).leaves ran⟩
  cases seen <;> exact .notPredicate parses

private theorem sound_named (name : Option String) (sound : Sound context grammar body x) :
    Sound context grammar (.named name body) (Matcher.named name x) := by
  intro state start entry answer after ran
  have inner := Engine.run_framed_eq_ok_iff.mp ran
  rw [Engine.run_nested] at inner
  split at inner
  · cases inner
  · obtain ⟨⟨outcome, ended⟩, within, same⟩ := Option.map_eq_some_iff.mp inner
    cases same
    have entry' : Entry context { state with depth := state.depth + 1 } start :=
      ⟨entry.plain, entry.offset, entry.inside⟩
    obtain ⟨seen, parses, leaves⟩ := sound entry' within
    have level : available context state =
        available context { state with depth := state.depth + 1 } + 1 := by
      simp only [available]
      omega
    refine ⟨seen, level ▸ .named parses, (ends_named name ?_ ⟨_, _, within, leaves⟩).leaves ran⟩
    omega

/-- Answers of the matcher of a recogniser come with derivations. -/
theorem sound_matcher (recognising : grammar.Recognising) {rule : Rule Empty} (recogniser : rule.Recogniser)
    (budget : Nat) :
    Sound context grammar rule (rule.matcher Interpretation.none grammar budget : Engine σ Bool) := by
  induction budget generalizing rule with
  | zero =>
    intro state start entry answer after ran
    cases ran
  | succ budget ih =>
    change Sound context grammar rule (rule.denote Interpretation.none grammar budget
      (Rule.matcher Interpretation.none grammar budget) : Engine σ Bool)
    cases recogniser with
    | char c => exact sound_single rfl budget _
    | literal word => exact sound_literal word
    | anyOf chars => exact sound_single rfl budget _
    | range low high => exact sound_single rfl budget _
    | anyChar => exact sound_single rfl budget _
    | endOfInput => exact sound_endOfInput
    | sequence parts =>
      intro state start entry
      refine reads_framed (reads_sequenceFrom (fun part member => ?_) entry (beside_refl state))
      exact ih (parts part member)
    | firstOf parts =>
      intro state start entry
      refine reads_framed (reads_firstOfFrom (fun part member => ?_) entry)
      exact ih (parts part member)
    | optional body => exact sound_optional (ih body)
    | zeroOrMore body => exact sound_zeroOrMore (ih body) budget
    | oneOrMore body => exact sound_oneOrMore (ih body) budget
    | andPredicate body => exact sound_andPredicate (ih body)
    | notPredicate body => exact sound_notPredicate (ih body)
    | named name body => exact sound_named name (ih body)
    | reference name =>
      intro state start entry answer after ran
      simp only [Rule.denote] at ran
      cases found : grammar.find? name with
      | none =>
        simp only [found] at ran
        cases ran
      | some target =>
        simp only [found] at ran
        obtain ⟨verdict, parses, leaves⟩ := ih (recognising name target found) entry ran
        exact ⟨verdict, .reference found parses, leaves⟩

end Soundness

section Completeness

variable {context : Context} {grammar : Grammar Empty} {home state : State σ} {start : Nat} {verdict : Verdict}

/-- With a sufficient budget, the matcher of a rule ends in a verdict. -/
def Observes (context : Context) (grammar : Grammar Empty) (rule : Rule Empty) (state : State σ)
    (verdict : Verdict) : Prop :=
  ∃ budget, Ends context (rule.matcher Interpretation.none grammar budget) state state verdict

/-- One level of a rule is enough to observe it. -/
theorem observes_of_denote {rule : Rule Empty} (budget : Nat)
    (ends : Ends context (rule.denote Interpretation.none grammar budget
      (Rule.matcher Interpretation.none grammar budget)) state state verdict) :
    Observes context grammar rule state verdict :=
  ⟨budget + 1, ends⟩

private theorem Ends.budget_le {rule : Rule Empty} {budget budget' : Nat} (le : budget ≤ budget')
    (ends : Ends context (rule.matcher Interpretation.none grammar budget) home state verdict) :
    Ends context (rule.matcher Interpretation.none grammar budget') home state verdict := by
  obtain ⟨answer, after, ran, leaves⟩ := ends
  exact ⟨answer, after, run_budget_le le ran, leaves⟩

/-- An observed rule, from one budget on and also one level down. -/
theorem Observes.eventually {rule : Rule Empty} (observes : Observes context grammar rule state verdict)
    (least : Nat) :
    ∃ budget, least ≤ budget ∧
      Ends context (rule.denote Interpretation.none grammar budget
        (Rule.matcher Interpretation.none grammar budget)) state state verdict := by
  obtain ⟨budget, ends⟩ := observes
  exact ⟨max least budget, by omega, ends.budget_le (by omega : budget ≤ max least budget + 1)⟩

/-- Where a sequence began matters for its failure only. -/
theorem ends_sequenceFrom_home {parts : List (Engine σ Bool)} {current : State σ} (beside : Beside home state)
    (ends : Ends context (Matcher.sequenceFrom (Engine.markOf state) parts) state current verdict) :
    Ends context (Matcher.sequenceFrom (Engine.markOf home) parts) home current verdict := by
  obtain ⟨answer, after, ran, leaves⟩ := ends
  induction parts generalizing current with
  | nil =>
    cases ran
    cases verdict with
    | success stop => exact ⟨true, after, rfl, leaves.success_home beside⟩
    | failure => cases leaves.1
  | cons first rest ih =>
    obtain ⟨matched, middle, head, tail⟩ := Engine.run_bind_eq_ok_iff.mp ran
    cases matched with
    | true =>
      obtain ⟨answer', after', ran', leaves'⟩ := ih tail
      exact ⟨answer', after', Engine.run_bind_eq_ok_iff.mpr ⟨true, middle, head, ran'⟩, leaves'⟩
    | false =>
      obtain ⟨_, between, back, last⟩ := Engine.run_bind_eq_ok_iff.mp tail
      cases last
      cases verdict with
      | success stop => cases leaves.1
      | failure =>
        obtain ⟨_, tracker, plain, same⟩ := leaves
        obtain ⟨reached, rfl⟩ := Engine.run_reset_eq_ok_iff.mp back
        obtain ⟨_, _, rfl⟩ := beside
        obtain ⟨_, values, sameTracker, depth, running, memory⟩ := State.mk.inj same
        refine ⟨false, { home with tracker := tracker }, ?_, rfl, tracker, plain, rfl⟩
        refine Engine.run_bind_eq_ok_iff.mpr ⟨false, middle, head, ?_⟩
        refine Engine.run_bind_eq_ok_iff.mpr ⟨(), _, Engine.run_reset_eq_ok_iff.mpr ⟨reached, ?_⟩, rfl⟩
        rw [State.mk.injEq]
        exact ⟨rfl, values.symm, sameTracker.symm, depth.symm, running.symm, memory.symm⟩

private theorem observes_sequence_cons {first : Rule Empty} {rest : List (Rule Empty)} {after : State σ}
    {budget : Nat}
    (head : (first.matcher Interpretation.none grammar budget : Engine σ Bool).run context state =
      some (.ok true, after)) (beside : Beside state after)
    (tail : Observes context grammar (.sequence rest) after verdict) :
    Observes context grammar (.sequence (first :: rest)) state verdict := by
  -- The rest was observed as a sequence of its own, which goes back to where the rest began when it fails.
  obtain ⟨larger, le, ends⟩ := tail.eventually budget
  have loop : Ends context (Matcher.sequenceFrom (Engine.markOf after)
      (rest.map (Rule.matcher Interpretation.none grammar larger))) after after verdict :=
    ends_framed_iff.mp ends
  obtain ⟨answer, ended, ran, leaves⟩ := ends_sequenceFrom_home beside loop
  refine observes_of_denote larger (ends_framed_iff.mpr ⟨answer, ended, ?_, leaves⟩)
  exact Engine.run_bind_eq_ok_iff.mpr ⟨_, _, rfl,
    Engine.run_bind_eq_ok_iff.mpr ⟨true, after, run_budget_le le head, ran⟩⟩

private theorem observes_sequence_fails {first : Rule Empty} {rest : List (Rule Empty)}
    (head : Observes context grammar first state .failure) :
    Observes context grammar (.sequence (first :: rest)) state .failure := by
  obtain ⟨budget, _, after, ran, leaves⟩ := head
  obtain ⟨tracker, plain, back⟩ := leaves.back context (beside_refl state)
  obtain ⟨rfl, _⟩ := leaves
  refine observes_of_denote budget (ends_framed_iff.mpr ⟨false, _, ?_, rfl, tracker, plain, rfl⟩)
  rw [Engine.run_mark_bind]
  refine Engine.run_bind_eq_ok_iff.mpr ⟨false, after, ran, ?_⟩
  exact Engine.run_bind_eq_ok_iff.mpr ⟨(), _, back, rfl⟩

private theorem observes_firstOf_head {first : Rule Empty} {rest : List (Rule Empty)} {stop : Nat}
    (head : Observes context grammar first state (.success stop)) :
    Observes context grammar (.firstOf (first :: rest)) state (.success stop) := by
  obtain ⟨budget, _, after, ran, leaves⟩ := head
  obtain ⟨rfl, ended⟩ := leaves
  refine observes_of_denote budget (ends_framed_iff.mpr ⟨true, after, ?_, rfl, ended⟩)
  rw [Engine.run_mark_bind]
  exact Engine.run_bind_eq_ok_iff.mpr ⟨true, after, ran, rfl⟩

/-- The alternatives after a failed one are tried from the same place, with another tracker. -/
theorem observes_firstOf_tail {first : Rule Empty} {rest : List (Rule Empty)}
    (head : Observes context grammar first state .failure)
    (tail : ∀ tracker, tracker.collecting = none →
      Observes context grammar (.firstOf rest) { state with tracker := tracker } verdict) :
    Observes context grammar (.firstOf (first :: rest)) state verdict := by
  obtain ⟨budget, _, after, ran, leaves⟩ := head
  obtain ⟨tracker, plain, back⟩ := leaves.back context (beside_refl state)
  obtain ⟨rfl, _⟩ := leaves
  obtain ⟨larger, le, ends⟩ := (tail tracker plain).eventually budget
  obtain ⟨answer, ended, rest_ran, restLeaves⟩ := ends_framed_iff.mp ends
  refine observes_of_denote larger (ends_framed_iff.mpr ⟨answer, ended, ?_, restLeaves⟩)
  rw [Engine.run_mark_bind] at rest_ran ⊢
  refine Engine.run_bind_eq_ok_iff.mpr ⟨false, after, run_budget_le le ran, ?_⟩
  exact Engine.run_bind_eq_ok_iff.mpr ⟨(), _, back, rest_ran⟩

variable {body : Rule Empty}

/-- A rule with one part is observed through the part. -/
theorem Observes.through {rule : Rule Empty} {state' : State σ} {seen : Verdict}
    (observes : Observes context grammar body state' seen)
    (ends : ∀ budget, Ends context (body.matcher Interpretation.none grammar budget) state' state' seen →
      Ends context (rule.denote Interpretation.none grammar budget
        (Rule.matcher Interpretation.none grammar budget)) state state verdict) :
    Observes context grammar rule state verdict := by
  obtain ⟨budget, seen⟩ := observes
  exact observes_of_denote budget (ends budget seen)

/-- With a sufficient budget, the loop of a repetition runs some rounds and leaves a state. -/
def Loops (context : Context) (grammar : Grammar Empty) (body : Rule Empty) (state : State σ) (rounds : Nat)
    (after : State σ) : Prop :=
  ∃ budget, (Matcher.iterate (body.matcher Interpretation.none grammar budget : Engine σ Bool) budget 0).run
    context state = some (.ok rounds, after)

/-- The count that a loop starts with is added to the number of its rounds. -/
theorem iterate_count {x : Engine σ Bool} {bound count rounds : Nat} {after : State σ}
    (ran : (Matcher.iterate x bound count).run context state = some (.ok rounds, after)) :
    (Matcher.iterate x bound (count + 1)).run context state = some (.ok (rounds + 1), after) := by
  induction bound generalizing state count with
  | zero => cases ran
  | succ bound ih =>
    rw [Matcher.iterate, Engine.run_offset_bind, Engine.run_mark_bind] at ran ⊢
    obtain ⟨matched, middle, head, tail⟩ := Engine.run_bind_eq_ok_iff.mp ran
    refine Engine.run_bind_eq_ok_iff.mpr ⟨matched, middle, head, ?_⟩
    cases matched with
    | true =>
      rw [if_pos rfl, Engine.run_offset_bind] at tail ⊢
      split at tail
      · cases tail
        rw [if_pos ‹_›]
        rfl
      · rw [if_neg ‹_›]
        exact ih tail
    | false =>
      obtain ⟨_, between, back, last⟩ := Engine.run_bind_eq_ok_iff.mp tail
      cases last
      exact Engine.run_bind_eq_ok_iff.mpr ⟨(), _, back, rfl⟩

private theorem loops_noMore (observes : Observes context grammar body state .failure) :
    ∃ tracker, tracker.collecting = none ∧
      Loops context grammar body state 0 { state with tracker := tracker } := by
  obtain ⟨budget, _, after, ran, leaves⟩ := observes
  obtain ⟨tracker, plain, back⟩ := leaves.back context (beside_refl state)
  obtain ⟨rfl, _⟩ := leaves
  refine ⟨tracker, plain, budget + 1, ?_⟩
  rw [Matcher.iterate, Engine.run_offset_bind, Engine.run_mark_bind]
  refine Engine.run_bind_eq_ok_iff.mpr ⟨false, after, run_budget_le (Nat.le_succ budget) ran, ?_⟩
  exact Engine.run_bind_eq_ok_iff.mpr ⟨(), _, back, rfl⟩

private theorem loops_idle (entry : Entry context state start)
    (observes : Observes context grammar body state (.success start)) :
    ∃ after, Leaves state (.success start) true after ∧ Loops context grammar body state 1 after := by
  obtain ⟨budget, _, after, ran, leaves⟩ := observes
  obtain ⟨rfl, entry', _⟩ := leaves.entry entry.inside
  refine ⟨after, leaves, budget + 1, ?_⟩
  rw [Matcher.iterate, Engine.run_offset_bind, Engine.run_mark_bind]
  refine Engine.run_bind_eq_ok_iff.mpr ⟨true, after, run_budget_le (Nat.le_succ budget) ran, ?_⟩
  rw [if_pos rfl, Engine.run_offset_bind, entry'.offset, entry.offset, if_pos rfl]
  rfl

/-- A round that moved the cursor is followed by the rounds of the rest. -/
theorem loops_more {budget rounds : Nat} {middle after : State σ}
    (ran : (body.matcher Interpretation.none grammar budget : Engine σ Bool).run context state =
      some (.ok true, middle)) (moved : middle.offset ≠ state.offset)
    (rest : Loops context grammar body middle rounds after) :
    Loops context grammar body state (rounds + 1) after := by
  obtain ⟨enough, looped⟩ := rest
  refine ⟨max budget enough + 1, ?_⟩
  rw [Matcher.iterate, Engine.run_offset_bind, Engine.run_mark_bind]
  refine Engine.run_bind_eq_ok_iff.mpr ⟨true, middle, run_budget_le (by omega) ran, ?_⟩
  rw [if_pos rfl, Engine.run_offset_bind, if_neg moved]
  exact iterate_budget_le (by omega) (by omega) (iterate_count looped)

private theorem observes_repeated {kind : RuleKind} {rule : Rule Empty} {minimum rounds : Nat} {after : State σ}
    (denotes : ∀ budget inner, rule.denote Interpretation.none grammar budget inner =
      Matcher.repeated kind minimum budget (inner body : Engine σ Bool))
    (loops : Loops context grammar body state rounds after) (enough : minimum ≤ rounds)
    (leaves : Leaves state verdict true after) : Observes context grammar rule state verdict := by
  obtain ⟨budget, looped⟩ := loops
  refine observes_of_denote budget ?_
  rw [denotes]
  refine ends_framed_iff.mpr ⟨true, after, ?_, leaves⟩
  rw [Engine.run_mark_bind]
  refine Engine.run_bind_eq_ok_iff.mpr ⟨rounds, after, looped, ?_⟩
  rw [if_neg (by omega)]
  rfl

/-- A repetition that was observed is a loop that was run. -/
theorem Observes.loops (observes : Observes context grammar (.zeroOrMore body) state verdict) :
    ∃ rounds after, Loops context grammar body state rounds after ∧ Leaves state verdict true after := by
  obtain ⟨budget, _, ends⟩ := observes.eventually 0
  obtain ⟨answer, after, ran, leaves⟩ := ends_framed_iff.mp ends
  rw [Engine.run_mark_bind] at ran
  obtain ⟨rounds, last, looped, tail⟩ := Engine.run_bind_eq_ok_iff.mp ran
  rw [if_neg (Nat.not_lt_zero rounds)] at tail
  cases tail
  exact ⟨rounds, after, ⟨budget, looped⟩, leaves⟩

/-- The loop of a repetition whose first round moved the cursor. -/
theorem loops_oneMore (entry : Entry context state start) {middle : Nat}
    (inside : middle ≤ context.source.toList.length) (moved : middle ≠ start)
    (head : Observes context grammar body state (.success middle))
    (tail : ∀ after, Entry context after middle → Beside state after →
      Observes context grammar (.zeroOrMore body) after verdict) :
    ∃ rounds after, Loops context grammar body state (rounds + 1) after ∧ Leaves state verdict true after := by
  obtain ⟨budget, _, after, ran, leaves⟩ := head
  obtain ⟨rfl, entry', beside⟩ := leaves.entry inside
  obtain ⟨rounds, last, loops, leavesRest⟩ := (tail after entry' beside).loops
  refine ⟨rounds, last, loops_more ran ?_ loops, ?_⟩
  · rw [entry'.offset, entry.offset]
    omega
  · cases verdict with
    | success stop => exact leavesRest.success_home beside
    | failure => cases leavesRest.1

/-- Every derivation whose named rules fit into the nesting that is left is observed. -/
theorem observes_of_parses {nesting : Nat} {rule : Rule Empty}
    (parses : Parses grammar context.source.toList nesting rule start verdict)
    (entry : Entry context state start) (fits : nesting ≤ available context state) :
    Observes context grammar rule state verdict := by
  induction parses generalizing state with
  | @admitted _ _ _ _ c single found admitted =>
    obtain ⟨frame, accepts, same, denotes⟩ := denote_single (σ := σ) single
    have ends := ends_oneChar entry frame accepts
    rw [found, Option.any_some, if_pos ((same c).mpr admitted)] at ends
    exact observes_of_denote 0 (denotes grammar _ _ ▸ ends)
  | refused single refused =>
    obtain ⟨frame, accepts, same, denotes⟩ := denote_single (σ := σ) single
    have ends := ends_oneChar entry frame accepts
    rw [if_neg ?_] at ends
    · exact observes_of_denote 0 (denotes grammar _ _ ▸ ends)
    · intro accepted
      obtain ⟨c, found, accepted⟩ := Option.any_eq_true _ _ |>.mp accepted
      exact refused c found ((same c).mp accepted)
  | @literal _ word _ present =>
    have ends := ends_literal entry word
    rw [if_pos present] at ends
    exact observes_of_denote 0 ends
  | @differs _ word _ differs =>
    have ends := ends_literal entry word
    rw [if_neg differs] at ends
    exact observes_of_denote 0 ends
  | ended ended =>
    have ends := ends_endOfInput entry
    rw [if_pos ended] at ends
    exact observes_of_denote 0 ends
  | continued continued =>
    have ends := ends_endOfInput entry
    rw [if_neg (by omega)] at ends
    exact observes_of_denote 0 ends
  | sequenceNil =>
    exact observes_of_denote 0 ⟨true, state, rfl, leaves_here entry⟩
  | sequenceCons head _ first rest =>
    obtain ⟨budget, _, after, ran, leaves⟩ := first entry fits
    obtain ⟨rfl, entry', beside⟩ := leaves.entry (head.stop_le entry.inside _ rfl)
    exact observes_sequence_cons ran beside (rest entry' (available_beside beside ▸ fits))
  | sequenceFails _ first => exact observes_sequence_fails (first entry fits)
  | firstOfNil =>
    exact observes_of_denote 0 ⟨false, state, rfl, rfl, _, entry.plain, rfl⟩
  | firstOfHead _ first => exact observes_firstOf_head (first entry fits)
  | firstOfTail _ _ first rest =>
    exact observes_firstOf_tail (first entry fits) fun tracker plain =>
      rest ⟨plain, entry.offset, entry.inside⟩ fits
  | present _ body => exact (body entry fits).through fun _ => ends_optional entry
  | omitted _ body => exact (body entry fits).through fun _ => ends_optional entry
  | noMore _ body =>
    obtain ⟨tracker, plain, loops⟩ := loops_noMore (body entry fits)
    exact observes_repeated (fun _ _ => rfl) loops (Nat.zero_le _) (leaves_retracked entry plain)
  | idle _ body =>
    obtain ⟨after, leaves, loops⟩ := loops_idle entry (body entry fits)
    exact observes_repeated (fun _ _ => rfl) loops (Nat.zero_le _) leaves
  | oneMore head moved _ body rest =>
    obtain ⟨rounds, after, loops, leaves⟩ := loops_oneMore entry (head.stop_le entry.inside _ rfl) moved
      (body entry fits) fun after entry' beside => rest entry' (available_beside beside ▸ fits)
    exact observes_repeated (fun _ _ => rfl) loops (Nat.zero_le _) leaves
  | notOnce _ body =>
    obtain ⟨tracker, plain, budget, looped⟩ := loops_noMore (body entry fits)
    refine observes_of_denote budget (ends_framed_iff.mpr
      ⟨false, { state with tracker := tracker }, ?_, rfl, tracker, plain, rfl⟩)
    rw [Engine.run_mark_bind]
    refine Engine.run_bind_eq_ok_iff.mpr ⟨0, _, looped, ?_⟩
    rw [if_pos Nat.zero_lt_one]
    refine Engine.run_bind_eq_ok_iff.mpr ⟨(), _, Engine.run_reset_eq_ok_iff.mpr ⟨Nat.le_refl _, rfl⟩, ?_⟩
    rw [Engine.run_pure, Engine.markOf, ValueStack.take_depth]
  | onceIdle _ body =>
    obtain ⟨after, leaves, loops⟩ := loops_idle entry (body entry fits)
    exact observes_repeated (fun _ _ => rfl) loops (Nat.le_refl 1) leaves
  | once head moved _ body rest =>
    obtain ⟨rounds, after, loops, leaves⟩ := loops_oneMore entry (head.stop_le entry.inside _ rfl) moved
      (body entry fits) fun after entry' beside => rest entry' (available_beside beside ▸ fits)
    exact observes_repeated (fun _ _ => rfl) loops (Nat.le_add_left 1 rounds) leaves
  | @andPredicate _ _ _ seen _ body =>
    refine (body entry fits).through fun _ ends => ?_
    have ahead := ends_ahead id { kind := .andPredicate } entry ends
    cases seen <;> exact ahead
  | @notPredicate _ _ _ seen _ body =>
    refine (body entry fits).through fun _ ends => ?_
    have ahead := ends_ahead not { kind := .notPredicate } entry ends
    cases seen <;> exact ahead
  | @named _ _ name _ _ _ body =>
    have room : 0 < available context state := by omega
    have entry' : Entry context { state with depth := state.depth + 1 } _ :=
      ⟨entry.plain, entry.offset, entry.inside⟩
    refine (body entry' ?_).through fun _ => ends_named name room
    simp only [available] at fits ⊢
    omega
  | @reference _ _ _ target _ found _ observed =>
    obtain ⟨budget, _, ends⟩ := (observed entry fits).eventually 0
    refine observes_of_denote (budget + 1) ?_
    simp only [Rule.denote, found]
    exact ends

end Completeness

end Recognition

/-- In a plain pass, the answers of the matcher of a recogniser are the verdicts of the rule: each answer has
a derivation that fits into the nesting that is left, and each derivation that fits is answered, as soon as
the budget suffices. -/
theorem matcher_recognises {σ : Type} {grammar : Grammar Empty} (recognising : grammar.Recognising)
    {rule : Rule Empty} (recogniser : rule.Recogniser) {context : Context} {state : State σ} {start : Nat}
    (plain : state.tracker.collecting = none) (placed : state.offset = start)
    (inside : start ≤ context.source.toList.length) :
    (∀ budget answer after,
        (rule.matcher Interpretation.none grammar budget : Engine σ Bool).run context state =
          some (.ok answer, after) →
        ∃ verdict,
          Parses grammar context.source.toList (context.maxDepth - state.depth).toNat rule start verdict ∧
          answer = verdict.matched ∧ after.offset = verdict.cursor start) ∧
      ∀ nesting verdict, Parses grammar context.source.toList nesting rule start verdict →
        nesting ≤ (context.maxDepth - state.depth).toNat →
        ∃ enough, ∀ budget, enough ≤ budget → ∃ after,
          (rule.matcher Interpretation.none grammar budget : Engine σ Bool).run context state =
            some (.ok verdict.matched, after) ∧ after.offset = verdict.cursor start := by
  have entry : Recognition.Entry context state start := ⟨plain, placed, inside⟩
  constructor
  · intro budget answer after ran
    obtain ⟨verdict, parses, rfl, tracker, _, rfl⟩ :=
      Recognition.sound_matcher recognising recogniser budget entry ran
    exact ⟨verdict, parses, rfl, by rw [placed]⟩
  · intro nesting verdict parses fits
    obtain ⟨enough, ends⟩ := Recognition.observes_of_parses parses entry fits
    refine ⟨enough, fun budget le => ?_⟩
    obtain ⟨_, after, ran, rfl, tracker, _, rfl⟩ := ends.budget_le le
    exact ⟨_, ran, by rw [placed]⟩

def brackets : Grammar Empty :=
  ⟨[("pair", .named (some "pair") (.sequence [.char '(', .zeroOrMore (.reference "pair"), .char ')']))]⟩

theorem recognising_brackets : brackets.Recognising := by
  intro name rule found
  simp only [brackets, Grammar.find?, List.lookup_cons, List.lookup_nil] at found
  split at found
  · cases found
    refine .named _ (.sequence ?_)
    simp only [List.forall_mem_cons]
    exact ⟨.char _, .zeroOrMore (.reference _), .char _, List.forall_mem_nil _⟩
  · cases found

/-- Two pairs behind another character, inside one named rule: the inner pair is tried for a third one. -/
theorem matcher_recognises_brackets :
    (∃ verdict, Parses brackets ['a', '(', '(', ')', ')'] 3 (.reference "pair") 1 verdict ∧
      true = verdict.matched ∧ (5 : Int) = verdict.cursor 1) ∧
    ∃ enough, ∀ budget, enough ≤ budget → ∃ after : State Unit,
      (Rule.matcher Interpretation.none brackets budget (.reference "pair") : Engine Unit Bool).run
        ⟨.ofString "a(())", 4, 10⟩ { offset := 1, depth := 1, memory := () } = some (.ok true, after) ∧
        after.offset = 5 := by
  have both := @matcher_recognises Unit brackets recognising_brackets (.reference "pair") (.reference "pair")
    ⟨.ofString "a(())", 4, 10⟩ { offset := 1, depth := 1, memory := () } 1 rfl rfl (by decide)
  obtain ⟨verdict, parses, matched, cursor⟩ := both.1 20 true _ rfl
  obtain ⟨enough, answered⟩ := both.2 3 verdict parses (Nat.le_refl 3)
  refine ⟨⟨verdict, parses, matched, cursor⟩, enough, fun budget le => ?_⟩
  obtain ⟨after, ran, offset⟩ := answered budget le
  exact ⟨after, by rw [ran, ← matched], offset.trans cursor.symm⟩

end PegMatcher
