import PegMatcher.Host.Extension
import PegMatcher.Proofs.Backtracking
import PegMatcher.Proofs.Keeping
import PegMatcher.Proofs.Simulation
import PegMatcher.Proofs.Verdict

/-! # Runs do not leak into each other

A reference can be resolved once and for all: the first time that it is matched, the rule that it stands for
is looked up and put into a cell, and from then on the cell is used. Such cells outlive a run.
`Rule.resolving` is the matcher with cells, and it is the matcher without them as far as everything but the
cells is concerned, whichever cells are filled.

Rules of a host program that keep no state of their own do the same whatever is in the memory, if their
parts do. They may do to the cursor, the values, the tracker and the nesting whatever they like, and stop at
any point. They may also start runs of their parts. Since a run notes that it is under way, and nothing that
it matches can take this back, not even a run that was refused, all of these are refused.
-/

namespace PegMatcher

variable {σ τ χ : Type}

open Tandem

/-- A computation of an engine without memory, performed beside a memory. Whether a run is under way is not up
to it. -/
def Engine.detached {α : Type} (x : Engine Unit α) : Engine σ α :=
  ⟨fun context state =>
    (x.run context state.bare).map fun (outcome, after) =>
      (outcome, { after with running := state.running, memory := state.memory })⟩

namespace Isolation

private theorem uniform_detached {α : Type} (x : Engine Unit α) :
    Uniform (x.detached : Engine σ α) (x.detached : Engine τ α) := by
  intro context state state' alike
  simp only [Engine.detached, alike.bare_eq]
  cases x.run context state.bare with
  | none => exact .none
  | some ending =>
    obtain ⟨_ | _, after⟩ := ending
    · exact .some (.error _) ⟨rfl, rfl, rfl, rfl, alike.running, alike.running'⟩
    · exact .some (.ok rfl) ⟨rfl, rfl, rfl, rfl, alike.running, alike.running'⟩

private theorem uniform_swallow {x : Matcher σ} {y : Matcher τ} (uniform : Uniform x y) :
    Uniform (Extension.swallow x) (Extension.swallow y) := by
  intro context state state' alike
  have ended := uniform context alike
  simp only [Extension.swallow, Engine.recover]
  generalize x.run context state = first at ended ⊢
  generalize y.run context state' = second at ended ⊢
  cases ended with
  | none => exact .none
  | some outcomes alike' =>
    cases outcomes with
    | ok same => exact .some (.ok same) alike'
    | error interrupt => exact .some (.ok rfl) alike'

end Isolation

/-- Host rules that keep no state of their own: whatever is in the memory, they do the same if their parts
do. -/
structure StatelessHost (χ : Type) where
  interpret (σ : Type) : Interpretation χ (Engine σ)
  uniform (σ τ : Type) (rule : χ) {parts : List (Matcher σ)} {parts' : List (Matcher τ)} :
    List.Forall₂ Uniform parts parts' → Uniform (interpret σ rule parts) (interpret τ rule parts')

/-- A run that is started inside a run is refused and changes nothing. -/
theorem Session.run_of_running {session : Session σ} (running : session.running = true) (rule : Matcher σ)
    (shape : Shape) : session.run rule shape = some (⟨.error .reentered, 0, []⟩, session) := by
  rw [Session.run, if_pos running]

/-- A computation that is refused as long as a run is under way. -/
def Engine.Refused {α : Type} (x : Engine σ α) : Prop :=
  ∀ ⦃context state⦄, state.running = true → x.run context state = some (.error (.fault .reentered), state)

theorem Session.refused_runInside (rule : Matcher σ) (shape : Shape) : (runInside rule shape).Refused := by
  intro context state running
  have busy : (⟨context, state⟩ : Session σ).running = true := running
  simp only [runInside, run_of_running busy]
  rfl

/-- A rule of the host, or one that starts a run of its part. -/
inductive Reentrant (χ : Type) where
  | own (rule : χ)
  | run (shape : Shape)

/-- The meaning of rules that start runs, given what it means to start one. -/
def Reentrant.interpret (host : Interpretation χ (Engine σ)) (start : Matcher σ → Shape → Matcher σ) :
    Interpretation (Reentrant χ) (Engine σ)
  | own rule, parts => host rule parts
  | run shape, part :: _ => start part shape
  | run _, [] => Extension.give .null

namespace Isolation

private theorem refused_reenter (rule : Matcher σ) (shape : Shape) : (Extension.reenter rule shape).Refused := by
  intro context state running
  rw [Extension.reenter, Engine.run_bind, Session.refused_runInside rule shape running]

private theorem uniform_of_refused {α : Type} {x : Engine σ α} {y : Engine τ α} (first : x.Refused)
    (second : y.Refused) : Uniform x y := by
  intro context state state' alike
  rw [first alike.running, second alike.running']
  exact .some (.error _) alike

/-- Rules that start runs do the same, however it comes that these are refused. -/
private theorem uniform_interpret (host : StatelessHost χ) {start : Matcher σ → Shape → Matcher σ}
    {start' : Matcher τ → Shape → Matcher τ} (first : ∀ part shape, (start part shape).Refused)
    (second : ∀ part shape, (start' part shape).Refused) (rule : Reentrant χ) {parts : List (Matcher σ)}
    {parts' : List (Matcher τ)} (same : List.Forall₂ Uniform parts parts') :
    Uniform (rule.interpret (host.interpret σ) start parts)
      (rule.interpret (host.interpret τ) start' parts') := by
  cases rule with
  | own rule => exact host.uniform σ τ rule same
  | run shape =>
    cases same with
    | nil => exact fun _ _ _ alike => .some (.ok rfl) alike
    | cons _ _ => exact uniform_of_refused (first _ shape) (second _ shape)

end Isolation

namespace StatelessHost

/-- A host whose rules may start runs of their parts. -/
def reentrant (host : StatelessHost χ) : StatelessHost (Reentrant χ) where
  interpret σ rule := rule.interpret (host.interpret σ) Extension.reenter
  uniform _ _ rule _ _ := Isolation.uniform_interpret host Isolation.refused_reenter Isolation.refused_reenter rule

/-- The same host, where each of these runs is a fault of its own. -/
def refusing (host : StatelessHost χ) : StatelessHost (Reentrant χ) where
  interpret σ rule := rule.interpret (host.interpret σ) fun _ _ => Engine.fail .reentered
  uniform _ _ rule _ _ :=
    Isolation.uniform_interpret host (fun _ _ _ _ _ => rfl) (fun _ _ _ _ _ => rfl) rule

theorem hosts (host : StatelessHost χ) : (heedless σ τ).Hosts (host.interpret σ) (host.interpret τ) :=
  hosts_of_uniform fun rule _ _ => host.uniform σ τ rule

theorem hosts_refusing (host : StatelessHost χ) :
    (heedless σ τ).Hosts (host.reentrant.interpret σ) (host.refusing.interpret τ) :=
  hosts_of_uniform fun rule _ _ =>
    Isolation.uniform_interpret host Isolation.refused_reenter (fun _ _ _ _ _ => rfl) rule

end StatelessHost

/-- The references that were resolved so far, each with the rule that the grammar has under its name. -/
structure Cells (grammar : Grammar χ) where
  rule? : String → Option (Rule χ)
  sound : ∀ name rule, rule? name = some rule → grammar.find? name = some rule

namespace Cells

variable {grammar : Grammar χ}

def empty : Cells grammar :=
  ⟨fun _ => none, nofun⟩

/-- Keeps what the grammar has under a name. -/
def fill (cells : Cells grammar) (name : String) : Cells grammar where
  rule? other := if other = name then grammar.find? name else cells.rule? other
  sound := by
    intro other rule kept
    split at kept
    · rename_i same
      rwa [same]
    · exact cells.sound other rule kept

/-- The rule that a reference stands for: from its cell if it was resolved before, and else from the
grammar, which fills the cell. -/
def resolve (name : String) : Engine (Cells grammar) (Rule χ) :=
  ⟨fun _ state =>
    match state.memory.rule? name with
    | some rule => some (.ok rule, state)
    | none =>
      match grammar.find? name with
      | some rule => some (.ok rule, { state with memory := state.memory.fill name })
      | none => some (.error (.fault (.unknownName name)), state)⟩

end Cells

/-- The matcher of a rule with references that are resolved once, within a budget. -/
def Rule.resolving {grammar : Grammar χ} (host : Interpretation χ (Engine (Cells grammar))) :
    Nat → Rule χ → Engine (Cells grammar) Bool
  | 0, _ => Machine.exhausted
  | budget + 1, .reference name => Cells.resolve name >>= Rule.resolving host budget
  | budget + 1, rule => rule.denote host grammar budget (Rule.resolving host budget)

namespace Isolation

variable {grammar : Grammar χ}

/-- Whether a reference was resolved before makes no difference to what it stands for. -/
theorem run_resolve (name : String) (context : Context) (state : State (Cells grammar)) :
    ∃ cells, (Cells.resolve name).run context state =
      match grammar.find? name with
      | some rule => some (.ok rule, { state with memory := cells })
      | none => some (.error (.fault (.unknownName name)), { state with memory := cells }) := by
  simp only [Cells.resolve]
  cases kept : state.memory.rule? name with
  | some rule =>
    rw [state.memory.sound name rule kept]
    exact ⟨state.memory, rfl⟩
  | none =>
    cases grammar.find? name with
    | some rule => exact ⟨state.memory.fill name, rfl⟩
    | none => exact ⟨state.memory, rfl⟩

/-- The matcher with cells is the matcher of the rule, but for the cells. -/
theorem agree_resolving {host : Interpretation χ (Engine (Cells grammar))} {host' : Interpretation χ (Engine τ)}
    (hosts : (heedless (Cells grammar) τ).Hosts host host') (budget : Nat) (rule : Rule χ) :
    (heedless (Cells grammar) τ).Agree (rule.resolving host budget) (rule.matcher host' grammar budget) := by
  induction budget generalizing rule with
  | zero => exact fun _ => (heedless (Cells grammar) τ).exhausted
  | succ budget ih =>
    have level : (heedless (Cells grammar) τ).Agree
        (rule.denote host grammar budget (Rule.resolving host budget))
        (rule.denote host' grammar budget (Rule.matcher host' grammar budget)) :=
      Simulation.denote hosts (rule.raises_of_forall fun _ => trivial) (.inl rfl) fun next _ => ih next
    cases rule with
    | reference name =>
      intro live places context state state' alike
      obtain ⟨cells, resolved⟩ := run_resolve name context state
      have unmoved : State.Alike { state with memory := cells } state' := { alike with }
      change SameEnd Eq ((Cells.resolve name >>= Rule.resolving _ budget).run context state)
        ((Rule.denote host' grammar budget (Rule.matcher host' grammar budget) (.reference name) :
          Engine τ Bool).run context state')
      rw [Engine.run_bind, resolved]
      simp only [Rule.denote]
      cases grammar.find? name with
      | some target => exact ih target live places context _ state' unmoved
      | none => exact .some (.error _) unmoved
    | _ => exact level

end Isolation

namespace Session

/-- What a run shows to its caller: the report, and the state without the cells. -/
def shown (ended : Report × Session σ) : Report × State Unit :=
  (ended.1, ended.2.state.bare)

/-- One of several runs on the same session. -/
structure Call (χ : Type) where
  rule : Rule χ
  shape : Shape
  budget : Nat

/-- The session that some runs leave behind, if all of them end. -/
def afterCalls {grammar : Grammar χ} (host : StatelessHost χ) (session : Session (Cells grammar)) :
    List (Call χ) → Option (Session (Cells grammar))
  | [] => some session
  | call :: rest =>
    match session.run (call.rule.resolving (host.interpret _) call.budget) call.shape with
    | none => none
    | some (_, next) => next.afterCalls host rest

/-- A session that is ready for a run: no run is under way, and no diagnostic pass. -/
structure Ready (context : Context) (session : Session σ) : Prop where
  context : session.context = context
  idle : session.running = false
  plain : session.state.tracker.collecting = none

private theorem Ready.not_collecting {context : Context} {session : Session σ} (ready : Ready context session) :
    session.state.tracker.isCollecting = false := by
  rw [Tracker.isCollecting, ready.plain]
  rfl

/-- However a run ends, the session is ready afterwards. -/
theorem Ready.run {context : Context} {session next : Session σ} (ready : Ready context session)
    {rule : Matcher σ} {shape : Shape} {report : Report} (ran : session.run rule shape = some (report, next)) :
    Ready context next := by
  obtain ⟨last, _, rfl⟩ := concludes_of_run ready.idle ran
  exact ⟨ready.context, rfl, rfl⟩

private theorem Ready.afterCalls {grammar : Grammar χ} {host : StatelessHost χ} {context : Context}
    {session later : Session (Cells grammar)} (ready : Ready context session) {calls : List (Call χ)}
    (ran : session.afterCalls host calls = some later) : Ready context later := by
  induction calls generalizing session with
  | nil =>
    cases ran
    exact ready
  | cons call rest ih =>
    rw [Session.afterCalls] at ran
    split at ran
    · cases ran
    · exact ih (ready.run ‹_›) ran

/-- A session that is ready invokes the rule of a run. -/
theorem Ready.passes_pos {context : Context} {session next : Session σ} (ready : Ready context session)
    {rule : Matcher σ} {shape : Shape} {report : Report} (ran : session.run rule shape = some (report, next)) :
    0 < report.passes := by
  obtain ⟨last, concludes, _⟩ := concludes_of_run ready.idle ran
  cases concludes with
  | matched | faulted | escaped => exact Nat.one_pos
  | explained => exact Nat.succ_pos _

theorem ready_of_create {source : Source} {options : Options} {memory : σ} {session : Session σ}
    {warnings : List LogEvent} (created : create source options memory = .ok (session, warnings)) :
    Ready session.context session := by
  simp only [create] at created
  split at created
  · cases created
  · cases created
    exact ⟨rfl, rfl, rfl⟩

theorem context_of_create {source : Source} {options : Options} {memory memory' : σ} {first second : Session σ}
    {warnings warnings' : List LogEvent} (created : create source options memory = .ok (first, warnings))
    (created' : create source options memory' = .ok (second, warnings')) : second.context = first.context := by
  simp only [create] at created created'
  split at created
  · cases created
  · cases created
    rw [if_neg ‹_›] at created'
    cases created'
    rfl

/-- A run that ends shows what the run of a matcher shows that shadows it. -/
private theorem shown_of_shadows {context : Context} {x : Matcher σ} {y : Matcher τ}
    (shadows : Shadows context x y) {session : Session σ} {session' : Session τ}
    (ready : Ready context session) (ready' : Ready context session') {shape : Shape}
    {ended : Report × Session σ} (ran : session.run x shape = some ended) :
    (session'.run y shape).map shown = some (shown ended) := by
  obtain ⟨next', ran', _, same⟩ := run_of_shadows (ready.context.symm ▸ shadows)
    (ready'.context.trans ready.context.symm) ready.idle ready'.idle ran
  rw [ran', Option.map_some, shown, shown, same]

/-- Runs of matchers that do the same show the same, whatever earlier runs have left in the sessions. -/
theorem shown_run_of_uniform {context : Context} {x : Matcher σ} {y : Matcher τ} (uniform : Uniform x y)
    {session : Session σ} {session' : Session τ} (ready : Ready context session)
    (ready' : Ready context session') (shape : Shape) :
    (session.run x shape).map shown = (session'.run y shape).map shown := by
  obtain ⟨there, back⟩ := uniform.shadows context
  cases ran : session.run x shape with
  | some ended => exact (shown_of_shadows there ready ready' ran).symm
  | none =>
    cases ran' : session'.run y shape with
    | none => rfl
    | some ended =>
      have shows := shown_of_shadows back ready' ready ran'
      rw [ran] at shows
      cases shows

end Session

/-- A pass over a rule of combinators that ends without an interrupt and without a match leaves the cursor
at the start, no values and no nesting. -/
theorem returned_of_pass {grammar : Grammar Empty} {rule : Rule Empty} {budget : Nat} {context : Context}
    {index : Option Int} {state after : State σ}
    (ran : (Session.pass (rule.matcher Interpretation.none grammar budget : Engine σ Bool) index).run context
      state = some (.ok false, after)) :
    after.offset = 0 ∧ after.values = .empty ∧ after.depth = 0 := by
  rw [Diagnosis.run_pass] at ran
  obtain ⟨offset, values⟩ := Backtracking.backtracks_matcher grammar budget rule context ran
  have kept := keeps_matcher (Int.natCast_nonneg _) ran
  refine ⟨offset, ?_, kept.depth⟩
  ext1
  rw [ValueStack.toList_empty, ← List.length_eq_zero_iff, ValueStack.length_toList, values]
  rfl

/-- A run that reports a parse error leaves the cursor at the start, no values and no nesting, and the
furthest offset is that of the error. -/
theorem bare_of_failure {session next : Session σ} (idle : session.running = false) {grammar : Grammar Empty}
    {rule : Rule Empty} {budget : Nat} {shape : Shape} {report : Report} {error : ParseError}
    (ran : session.run (rule.matcher Interpretation.none grammar budget : Engine σ Bool) shape =
      some (report, next)) (reported : report.ending = .ok (.failure error)) :
    next.state.bare = { tracker := { deepest := error.position.offset }, running := false, memory := () } := by
  obtain ⟨last, concludes, rfl⟩ := Session.concludes_of_run idle ran
  obtain ⟨failed, paths, answer, plain, ended, _, rfl, _⟩ := concludes.of_failure reported
  -- The plain pass has reported no progress beyond the end of the text.
  have inside : failed.tracker.deepest ≤ session.context.source.length := by
    have started : (rule.matcher Interpretation.none grammar budget : Engine σ Bool).run session.context
      { memory := session.state.memory } = some (.ok false, failed) := plain
    have kept := (keeps_matcher (Int.natCast_nonneg _) started).deepest
    rwa [Nat.zero_max] at kept
  -- The last pass fails like the plain one, and the furthest offset has not changed since.
  have recorded := plain
  rw [Diagnosis.nthPass_zero] at recorded
  obtain ⟨⟨_, _, record⟩, recorded, same⟩ := Option.map_eq_some_iff.mp recorded
  cases same
  obtain ⟨after, frozen, found⟩ := Diagnosis.nthPass_of_finds
    (Diagnosis.finds_stacksAt recorded failed.tracker.deepest) plain rfl paths.length
  rw [ended] at found
  split at found
  · cases found
  · cases found
    obtain ⟨state, passed⟩ := Session.exists_pass_of_nthPass ended
    obtain ⟨offset, values, depth⟩ := returned_of_pass passed
    simp only [State.bare, State.endRun, Tracker.beginPass, offset, values, depth, frozen,
      Position.offset_resolve inside]

/-- Runs do not leak into each other. After any history of runs on a session, with cells filled or not, a run
shows what it shows on a new session for the same text and limits. The session is then ready for the next run,
and after any run whatsoever of any rule it is ready again: the rule was invoked, no run and no diagnostic pass
is under way. While a run is under way, every other one is refused without a trace, those included that the
rules of the host start: they are faults like others. A parse error leaves the session as if nothing had been
matched, but for the furthest offset, which is the offset of the error. -/
theorem run_forgets_history {χ : Type} (host : StatelessHost χ) {grammar : Grammar (Reentrant χ)} {source : Source}
    {options : Options} {cells cells' : Cells grammar} {first fresh session : Session (Cells grammar)}
    {warnings warnings' : List LogEvent} (created : Session.create source options cells = .ok (first, warnings))
    (created' : Session.create source options cells' = .ok (fresh, warnings'))
    {calls : List (Session.Call (Reentrant χ))} (history : first.afterCalls host.reentrant calls = some session) :
    (∀ budget (rule : Rule (Reentrant χ)) shape,
      let shows := fun (session : Session (Cells grammar)) (host : StatelessHost (Reentrant χ)) =>
        (session.run (rule.resolving (host.interpret _) budget) shape).map Session.shown
      shows session host.reentrant = shows fresh host.reentrant ∧
        shows session host.reentrant = shows session host.refusing) ∧
    session.running = false ∧ session.state.tracker.isCollecting = false ∧
    (∀ (rule : Matcher (Cells grammar)) shape report next, session.run rule shape = some (report, next) →
      0 < report.passes ∧ next.running = false ∧ next.state.tracker.isCollecting = false) ∧
    (∀ (busy : Session (Cells grammar)) rule shape, busy.running = true →
      busy.run rule shape = some (⟨.error .reentered, 0, []⟩, busy)) ∧
    (∀ (rule : Matcher (Cells grammar)) shape context state, state.running = true →
      (Session.runInside rule shape).run context state = some (.error (.fault .reentered), state)) ∧
    ∀ (combinators : Grammar Empty) budget (rule : Rule Empty) shape report next error,
      session.run (rule.matcher Interpretation.none combinators budget) shape = some (report, next) →
      report.ending = .ok (.failure error) →
      next.state.bare =
        { tracker := { deepest := error.position.offset }, running := false, memory := () } := by
  have ready : Session.Ready first.context session := (Session.ready_of_create created).afterCalls history
  have ready' : Session.Ready first.context fresh :=
    Session.context_of_create created created' ▸ Session.ready_of_create created'
  refine ⟨fun budget rule shape => ?_, ready.idle, ready.not_collecting, fun rule shape report next ran => ?_,
    fun busy rule shape running => Session.run_of_running running rule shape,
    fun rule shape _ _ running => Session.refused_runInside rule shape running,
    fun combinators budget rule shape report next error ran => bare_of_failure ready.idle ran⟩
  · let plain : Session Unit := { context := first.context, state := { running := false, memory := () } }
    have bare : Session.Ready first.context plain := ⟨rfl, rfl, rfl⟩
    have uniform {host host' : StatelessHost (Reentrant χ)}
        (hosts : (heedless (Cells grammar) Unit).Hosts (host.interpret _) (host'.interpret _)) :
        Uniform (rule.resolving (host.interpret (Cells grammar)) budget)
          (rule.matcher (host'.interpret Unit) grammar budget) :=
      agree_iff_uniform.mp (Isolation.agree_resolving hosts budget rule)
    intro shows
    have there := Session.shown_run_of_uniform (uniform host.hosts_refusing) ready bare shape
    have there' := Session.shown_run_of_uniform (uniform host.hosts_refusing) ready' bare shape
    have refused := Session.shown_run_of_uniform (uniform host.refusing.hosts) ready bare shape
    exact ⟨there.trans there'.symm, there.trans refused.symm⟩
  · have again := ready.run ran
    exact ⟨ready.passes_pos ran, again.idle, again.not_collecting⟩

/-- Host rules of two kinds: a computation of an engine without memory, and a rule that takes whatever stops
its part for a failure to match. -/
def foreign : StatelessHost (Option (Matcher Unit)) where
  interpret _
    | some computation, _ => computation.detached
    | none, part :: _ => Extension.swallow part
    | none, [] => Extension.give .null
  uniform _ _ rule _ _ parts := by
    cases rule with
    | some computation => exact Isolation.uniform_detached computation
    | none =>
      cases parts with
      | cons first _ => exact Isolation.uniform_swallow first
      | nil => exact fun _ _ _ alike => .some (.ok rfl) alike

/-- Tampers with the cursor, the values, the nesting and the tracker, and then raises the abort signal. -/
def tamper : Matcher Unit :=
  Extension.perform [.moveTo (-5), .push (.int 7), .enter, .observe 40, .raise (.abort [])] .null

def letters : Grammar (Reentrant (Option (Matcher Unit))) :=
  { definitions := [("letter", .named (some "letter") (.capture (.range "a" "z")))] }

/-- Starts a run twice, and takes a fault of the first one for a failure to match. -/
def twice : Rule (Reentrant (Option (Matcher Unit))) :=
  let again : Rule (Reentrant (Option (Matcher Unit))) := .extension (.run .all) [.reference "letter"]
  .firstOf [.extension (.own none) [again], again]

/-- What the host rules leave behind makes no difference to the next run, nor does the cell that is filled
already. A run that a rule starts is refused, and so is the one behind it, which leaves the session ready. -/
theorem run_forgets_tampering : ∃ fresh session : Session (Cells letters),
    Session.create (.ofString "x1") {} Cells.empty = .ok (fresh, []) ∧
    fresh.afterCalls foreign.reentrant
      [⟨.extension (.own none) [.reference "letter"], .single, 9⟩, ⟨twice, .all, 9⟩,
        ⟨.extension (.own (some tamper)) [], .all, 9⟩] = some session ∧
    session.state.memory.rule? "letter" ≠ none ∧ session.state.offset = -5 ∧ session.state.depth = 1 ∧
    session.state.tracker.deepest = 40 ∧
    (session.run (Rule.resolving (foreign.reentrant.interpret _) 9 (.reference "letter")) .single).map
        Session.shown =
      (fresh.run (Rule.resolving (foreign.reentrant.interpret _) 9 (.reference "letter")) .single).map
        Session.shown ∧
    ∃ report next, session.run (Rule.resolving (foreign.reentrant.interpret _) 9 twice) .all = some (report, next) ∧
      report.ending = .error .reentered ∧ next.running = false := by
  have used : ∃ fresh session : Session (Cells letters),
      Session.create (.ofString "x1") {} Cells.empty = .ok (fresh, []) ∧
      fresh.afterCalls foreign.reentrant
        [⟨.extension (.own none) [.reference "letter"], .single, 9⟩, ⟨twice, .all, 9⟩,
          ⟨.extension (.own (some tamper)) [], .all, 9⟩] = some session ∧
      session.state.memory.rule? "letter" ≠ none ∧ session.state.offset = -5 ∧ session.state.depth = 1 ∧
      session.state.tracker.deepest = 40 ∧
      ∃ report next,
        session.run (Rule.resolving (foreign.reentrant.interpret _) 9 twice) .all = some (report, next) ∧
        report.ending = .error .reentered :=
    ⟨_, _, rfl, rfl, Option.some_ne_none _, rfl, rfl, rfl, _, _, rfl, rfl⟩
  obtain ⟨fresh, session, created, history, filled, offset, depth, deepest, report, next, ran, refused⟩ := used
  obtain ⟨same, _, _, again, _⟩ := run_forgets_history foreign created created history
  obtain ⟨_, idle, _⟩ := again _ _ _ _ ran
  exact ⟨fresh, session, created, history, filled, offset, depth, deepest, (same 9 _ _).1, report, next, ran,
    refused, idle⟩

end PegMatcher
