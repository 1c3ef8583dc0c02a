import Stencil.Proofs.Blocks.Leading
import Stencil.Proofs.Streams.Courses
import Stencil.Proofs.Streams.Woven

/-! # What loops put out

A loop puts out what its rounds put out, with the separator between the rounds that have content.
The separator stands directly ahead of the marker with which the content of a round begins, so that
it counts when the round is told whether its first line begins at the start of a line.
-/

namespace Stencil

open Eager (Surroundings hasContent)
open Program (Block Expression Line)

variable {σ α β : Type}

namespace Flow

/-! ## Rounds in turn -/

/-- Turns with a separator ahead of each that has content, if there has been content before. -/
def separated (separator : Option String) (turns : List (List (Step σ))) :
    List ((Bool → Option String) × List (Step σ)) :=
  turns.map (leadIf separator, ·)

/-- The rounds of a loop are run in turn, and the separator joins them. -/
theorem Runs.of_rounds {separator : Option String}
    {body : Nat → Value → Progress → Flow σ Progress} {position : Nat} {earlier : Bool}
    {elements : List Value} {progress : Progress} {steps : List (Step σ)}
    {outcome : Outcome Progress}
    (runs : (Flow.rounds separator body position earlier elements progress).Runs steps outcome) :
    ∃ turns, RunsInTurn (elements.mapIdx fun index element progress =>
          .round fun _ => body (position + index) element progress) progress turns outcome ∧
      Woven earlier (separated separator turns) steps := by
  induction elements generalizing position earlier progress steps with
  | nil =>
    cases runs
    exact ⟨[], .done progress, .nil earlier⟩
  | cons element elements ih =>
    have shift : ((element :: elements).mapIdx fun index element progress =>
          Flow.round fun _ => body (position + index) element progress) =
        (fun progress => .round fun _ => body position element progress) ::
          elements.mapIdx fun index element progress =>
            .round fun _ => body (position + 1 + index) element progress := by
      simp only [List.mapIdx_cons, Nat.add_zero, Nat.add_assoc, Nat.add_comm 1]
    rw [shift]
    rw [Flow.rounds] at runs
    cases runs with
    | forbidden error =>
      exact ⟨[[]], .last (.forbidden error) (.interrupted error), .only (.empty _)⟩
    | round runs =>
      obtain ⟨before, after, result, rfl, first, second⟩ | ⟨early, first, cut⟩ := runs.of_bind
      · obtain ⟨turn, inner, own, finished, led⟩ := first.of_joined
        obtain ⟨later, rfl, rfl⟩ := Outcome.eq_finished_of_map finished.symm
        obtain ⟨turns, inTurn, joins⟩ := ih second
        refine ⟨(.round :: turn) :: turns, .next (.round own) inTurn, ?_⟩
        have inRound : Led (leadIf separator earlier) (.round :: turn) (.round :: before) :=
          led.cons rfl
        exact .cons inRound joins
      · obtain ⟨turn, inner, own, rfl, led⟩ := first.of_joined
        obtain rfl := cut.of_map.eq
        exact ⟨[.round :: turn], .last (.round own) cut.of_map, .only (led.cons rfl)⟩

/-! ## Markers -/

/-- Ahead of its first content a flow puts out an empty marker, and what it is told then decides
whether one of the lines is indented.  A flow that finishes without content has such a result. -/
def BeginsAtMarker (lines : List (Line σ)) (idle : α → Prop) : Flow σ α → Prop
  | finish result => idle result
  | fail _ | bottomless => True
  | emit chunk resume =>
    if isNewline chunk then ∀ atStart, (resume atStart).BeginsAtMarker lines idle
    else chunk = "" ∧ ∃ line ∈ lines, ∃ content follow, isNewline content = false ∧
      resume = fun atStart => emitIndented line.indentation atStart content follow
  | call _ _ resume => ∀ value, (resume value).BeginsAtMarker lines idle
  | round resume | poll resume => ∀ go, (resume go).BeginsAtMarker lines idle

namespace BeginsAtMarker

variable {lines : List (Line σ)}

theorem bind {idle : α → Prop} {last : β → Prop} {flow : Flow σ α} {next : α → Flow σ β}
    (first : flow.BeginsAtMarker lines idle)
    (second : ∀ result, idle result → (next result).BeginsAtMarker lines last) :
    (flow >>= next).BeginsAtMarker lines last := by
  change (flow.bind next).BeginsAtMarker lines last
  induction flow with
  | finish result => exact second result first
  | fail | bottomless => exact True.intro
  | emit chunk resume ih =>
    rw [BeginsAtMarker] at first
    rw [Flow.bind, BeginsAtMarker]
    split at first
    · rw [if_pos ‹_›]
      exact fun atStart => ih atStart (first atStart)
    · obtain ⟨marker, line, member, content, follow, visible, rfl⟩ := first
      rw [if_neg ‹_›]
      have later := fun atStart =>
        emitIndented_bind line.indentation atStart content follow next
      exact ⟨marker, line, member, content, _, visible, funext later⟩
  | call callable invocation resume ih => exact fun value => ih value (first value)
  | round resume ih | poll resume ih => exact fun go => ih go (first go)

theorem line {line : Line σ} (member : line ∈ lines) (flow : Flow σ α) :
    (flow.line "" line.indentation .fresh).BeginsAtMarker lines fun result => result.2 = false := by
  induction flow with
  | finish => exact rfl
  | fail | bottomless => exact True.intro
  | emit chunk resume ih =>
    rw [Flow.line]
    split
    · rw [BeginsAtMarker, if_pos ‹_›]
      exact ih
    · have visible : isNewline chunk = false := eq_false_of_ne_true ‹_›
      rw [LineStage.begin, BeginsAtMarker, if_neg (by decide)]
      exact ⟨rfl, line, member, chunk, _, visible, rfl⟩
  | call callable invocation resume ih => exact ih
  | round resume ih | poll resume ih => exact ih

/-- The lines of a block up to the first one with content put out nothing but newlines. -/
theorem block (setting : Setting σ) (scope : Scope (SectionFlow σ)) (progress : Progress)
    {rest : List (Line σ)} (inside : ∀ line ∈ rest, line ∈ lines) :
    (Program.blockFlow setting scope false progress rest).BeginsAtMarker lines fun _ => True := by
  induction rest generalizing progress with
  | nil => exact True.intro
  | cons first rest ih =>
    obtain ⟨here, later⟩ := List.forall_mem_cons.1 inside
    obtain ⟨children, terminator, indentation⟩ := first
    rw [Program.blockFlow]
    refine (line here _).bind fun ⟨progress, content⟩ idle => ?_
    cases idle
    exact ih progress later

theorem round (setting : Setting σ) (scope : Scope (SectionFlow σ)) (progress : Progress)
    (body : Block σ) :
    (Flow.round fun _ => Program.blockFlow setting scope false progress body).BeginsAtMarker body
      fun _ => True :=
  fun _ => block setting scope progress fun _ => id

end BeginsAtMarker

/-- The content of some steps begins at a marker, and what is told there decides whether the line
that comes then is indented. -/
def MarkedBy (line : Line σ) (steps : List (Step σ)) : Prop :=
  ∃ before atStart after content rest, steps = before ++ .chunk "" atStart :: after ∧
    hasContent (chunksOf before) = false ∧ isNewline content = false ∧
    chunksOf after =
      (if atStart && !content.isEmpty then line.indentation.toList else []) ++ content :: rest

theorem MarkedBy.cons {line : Line σ} {step : Step σ} {steps : List (Step σ)}
    (idle : step.isContent = false) (marked : MarkedBy line steps) :
    MarkedBy line (step :: steps) := by
  obtain ⟨before, atStart, after, content, rest, rfl, plain, visible, chunks⟩ := marked
  refine ⟨step :: before, atStart, after, content, rest, rfl, ?_, visible, chunks⟩
  rw [hasContent_chunksOf_cons, idle, plain, Bool.or_false]

theorem Runs.of_emitIndented {indentation : Option String} {atStart : Bool} {content : String}
    {follow : Bool → Flow σ α} {steps : List (Step σ)} {outcome : Outcome α}
    (runs : (emitIndented indentation atStart content follow).Runs steps outcome) :
    ∃ rest, chunksOf steps =
      (if atStart && !content.isEmpty then indentation.toList else []) ++ content :: rest := by
  cases indentation with
  | none =>
    cases runs with
    | emit _ runs => exact ⟨_, by rw [Option.toList_none, ite_self]; rfl⟩
  | some text =>
    rw [emitIndented] at runs
    split at runs
    · cases runs with
      | emit _ runs =>
        cases runs with
        | emit _ runs => exact ⟨_, by rw [if_pos ‹_›]; rfl⟩
    · cases runs with
      | emit _ runs => exact ⟨_, by rw [if_neg ‹_›]; rfl⟩

theorem BeginsAtMarker.marked {lines : List (Line σ)} {idle : α → Prop} {flow : Flow σ α}
    (begins : flow.BeginsAtMarker lines idle) {steps : List (Step σ)} {outcome : Outcome α}
    (runs : flow.Runs steps outcome) (content : hasContent (chunksOf steps)) :
    ∃ line ∈ lines, MarkedBy line steps := by
  induction runs with
  | finish | fail | bottomless | refused | forbidden | cancelled => cases content
  | @emit chunk resume steps outcome atStart runs ih =>
    rw [BeginsAtMarker] at begins
    split at begins
    case isTrue newline =>
      have plain : (Step.chunk chunk atStart : Step σ).isContent = false := by
        rw [Step.isContent_chunk, newline, Bool.not_true]
      rw [hasContent_chunksOf_cons, plain, Bool.false_or] at content
      obtain ⟨line, member, marked⟩ := ih (begins atStart) content
      exact ⟨line, member, marked.cons plain⟩
    case isFalse =>
      obtain ⟨rfl, line, member, first, follow, visible, rfl⟩ := begins
      obtain ⟨rest, chunks⟩ := Runs.of_emitIndented runs
      exact ⟨line, member, [], atStart, steps, first, rest, rfl, rfl, visible, chunks⟩
  | call value _ ih =>
    obtain ⟨line, member, marked⟩ := ih (begins value) content
    exact ⟨line, member, marked.cons rfl⟩
  | round _ ih | poll _ ih =>
    obtain ⟨line, member, marked⟩ := ih (begins ()) content
    exact ⟨line, member, marked.cons rfl⟩

end Flow

/-! ## Loops -/

open Stencil.Flow

theorem Flow.RunsInTurn.mem {flows : List (Progress → Flow σ Progress)} {progress : Progress}
    {turns : List (List (Step σ))} {outcome : Outcome Progress}
    (inTurn : RunsInTurn flows progress turns outcome) {turn : List (Step σ)}
    (member : turn ∈ turns) :
    ∃ flow ∈ flows, ∃ before after, (flow before).Runs turn after := by
  induction inTurn with
  | done => cases member
  | next runs _ ih =>
    obtain rfl | later := List.mem_cons.1 member
    · exact ⟨_, List.mem_cons_self .., _, _, runs⟩
    · obtain ⟨flow, inside, runs⟩ := ih later
      exact ⟨flow, List.mem_cons_of_mem _ inside, runs⟩
  | last runs _ =>
    obtain rfl := List.mem_singleton.1 member
    exact ⟨_, List.mem_cons_self .., _, _, runs⟩

/-- What is known of the steps of a loop whose rounds are run in turn. -/
structure JoinsRounds (separator : String) (body : Block σ)
    (rounds : List (Progress → Flow σ Progress)) (progress : Progress) (steps : List (Step σ))
    (outcome : Outcome Progress) (turns : List (List (Step σ))) : Prop where
  /-- Every round is run by itself, in the order of the elements. -/
  inTurn : RunsInTurn rounds progress turns outcome
  /-- The steps are those of the rounds, and separators. -/
  joined : Woven false (separated (some separator) turns) steps
  /-- The separator stands directly ahead of the first content of a round, if and only if the round
  has content and some round before it has. -/
  each : ∀ before turn after, turns = before ++ turn :: after → ∃ front led back,
    steps = front ++ led ++ back ∧ Woven false (separated (some separator) before) front ∧
      Led (leadIf (some separator) (before.any (hasContent <| chunksOf ·))) turn led
  chunks : chunksOf steps =
    woven false (turns.map fun turn => (leadIf (some separator), chunksOf turn))
  count : (chunksOf steps).length = (turns.map (chunksOf · |>.length)).sum +
    (turns.countP (hasContent <| chunksOf ·) - 1)
  /-- The content of a round begins at a marker, which decides about the first indentation. -/
  marked : ∀ turn ∈ turns, hasContent (chunksOf turn) → ∃ line ∈ body, MarkedBy line turn
  /-- A marker behind the separator is told where the output stands behind the separator. -/
  heard : ∀ standing, Heard standing steps → ∀ before told atStart after,
    steps = before ++ .chunk separator told :: .chunk "" atStart :: after →
      atStart = told ∧ (separator ≠ "" → told = isNewline separator)

section Separated

variable {separator : String} {turns : List (List (Step σ))} {steps : List (Step σ)}

theorem Flow.Woven.rounds (joins : Woven false (separated (some separator) turns) steps)
    {before after : List (List (Step σ))} {turn : List (Step σ)}
    (split : turns = before ++ turn :: after) :
    ∃ front led back, steps = front ++ led ++ back ∧
      Woven false (separated (some separator) before) front ∧
      Led (leadIf (some separator) (before.any (hasContent <| chunksOf ·))) turn led := by
  rw [split, separated, List.map_append, List.map_cons] at joins
  obtain ⟨front, led, back, same, joined, own⟩ := joins.split
  rw [Bool.false_or, List.any_map] at own
  exact ⟨front, led, back, same, joined, own⟩

theorem Flow.Woven.separatedChunks
    (joins : Woven false (separated (some separator) turns) steps) :
    chunksOf steps =
      woven false (turns.map fun turn => (leadIf (some separator), chunksOf turn)) := by
  rw [joins.chunks, separated, List.map_map]
  rfl

theorem Flow.Woven.count (joins : Woven false (separated (some separator) turns) steps) :
    (chunksOf steps).length = (turns.map (chunksOf · |>.length)).sum +
      (turns.countP (hasContent <| chunksOf ·) - 1) := by
  have length := length_woven separator false (turns.map chunksOf)
  rw [List.map_map, List.map_map, List.countP_map] at length
  change (woven false (turns.map fun turn => (leadIf (some separator), chunksOf turn))).length + 1 =
    (turns.map (chunksOf · |>.length)).sum + max (turns.countP (hasContent <| chunksOf ·)) 1
    at length
  rw [joins.separatedChunks]
  omega

end Separated

section Loops

variable {setting : Setting σ} {scope : Scope (SectionFlow σ)} {progress : Progress} {item : String}
  {index : Option String} {iterable : Expression σ} {body fallback : Block σ}
  {invocation : Invocation} {value : Value} {elements : List Value} {steps : List (Step σ)}
  {outcome : Outcome Progress}

/-- The rounds of a loop, each in the scope with its own element and position. -/
def Program.roundFlows (setting : Setting σ) (scope : Scope (SectionFlow σ)) (item : String)
    (index : Option String) (body : Block σ) (elements : List Value) :
    List (Progress → Flow σ Progress) :=
  elements.mapIdx fun position element progress => .round fun _ =>
    Program.blockFlow setting (scope.extend (loopFrame item index position element)) false progress
      body

/-- Once its list has been evaluated, a loop over nothing is its fallback, and any other loop runs
its rounds in turn. -/
theorem Flow.Runs.of_loop {separator : Option String}
    (runs : (Program.routineFlow setting scope progress
      (.loop item index iterable separator body fallback)).Runs
        (.call iterable.callable invocation (.ok value) :: steps) outcome)
    (items : value.items? = some elements) :
    (elements = [] →
      (Program.blockFlow setting scope false progress fallback).Runs steps outcome) ∧
    (elements ≠ [] → ∃ turns,
      RunsInTurn (Program.roundFlows setting scope item index body elements) progress turns
        outcome ∧ Woven false (separated separator turns) steps) := by
  rw [Program.routineFlow, Expression.evaluate] at runs
  cases bound : iterable.bindings scope with
  | error error =>
    rw [bound] at runs
    cases runs
  | ok bindings =>
    rw [bound] at runs
    cases runs with
    | call value runs =>
      simp only [Flow.bind, items] at runs
      cases elements with
      | nil => exact ⟨fun _ => runs, fun nonempty => absurd rfl nonempty⟩
      | cons element elements =>
        obtain ⟨turns, inTurn, joins⟩ := runs.of_rounds
        simp only [Nat.zero_add] at inTurn
        exact ⟨fun empty => absurd empty (List.cons_ne_nil _ _), fun _ => ⟨turns, inTurn, joins⟩⟩

end Loops

/-- Whatever a loop runs over and wherever it is run, separators join exactly the rounds that have
content.  A loop over nothing is its fallback. -/
theorem separators_join_rounds (setting : Setting σ) (scope : Scope (SectionFlow σ))
    (progress : Progress) (item : String) (index : Option String) (iterable : Expression σ)
    (separator : String) (body fallback : Block σ) :
    (∀ {around : Surroundings σ}, (∀ host, around.isCancelled host = false) →
      ∀ answered standing host, (Program.routineFlow setting scope progress
        (.loop item index iterable (some separator) body fallback)).Rendered around answered
          standing host) ∧
    ∀ {invocation value elements steps outcome},
      (Program.routineFlow setting scope progress
        (.loop item index iterable (some separator) body fallback)).Runs
          (.call iterable.callable invocation (.ok value) :: steps) outcome →
      value.items? = some elements →
      (elements = [] →
        (Program.blockFlow setting scope false progress fallback).Runs steps outcome) ∧
      (elements ≠ [] → ∃ turns, JoinsRounds separator body
        (Program.roundFlows setting scope item index body elements) progress steps outcome
        turns) := by
  refine ⟨fun uncancelled => Flow.rendered uncancelled _, fun runs items => ?_⟩
  obtain ⟨nothing, something⟩ := runs.of_loop items
  refine ⟨nothing, fun nonempty => ?_⟩
  obtain ⟨turns, inTurn, joins⟩ := something nonempty
  refine ⟨turns, inTurn, joins, fun _ _ _ => joins.rounds, joins.separatedChunks,
    joins.count, fun turn member content => ?_,
    fun _ heard _ _ _ _ split => Heard.marker (split ▸ heard)⟩
  obtain ⟨round, inside, before, after, own⟩ := inTurn.mem member
  obtain ⟨position, within, rfl⟩ := List.mem_mapIdx.1 inside
  exact (BeginsAtMarker.round setting _ before body).marked own content

/-- Three names, the second of which comes to nothing. -/
def threeNames : Expression Unit :=
  ⟨"names", [], [], .untyped "names" fun _ => pure (.list [.text "a", .list [], .text "b"])⟩

/-- A name on an indented line. -/
def nameLines : Block Unit :=
  [⟨[.output (.read "name" ⟨0, 0⟩) true], none, some "  "⟩]

def namesAround : Surroundings Unit :=
  ⟨Render.Options.limits {}, fun _ host => host⟩

def namesFlow : Flow Unit Progress :=
  Program.routineFlow ((⟨[]⟩ : Program Unit).setting {}) (.root .root) .start
    (.loop "name" none threeNames (some "\n") nameLines [])

/-- Behind the separator the output is at the start of a line, so that the second name is indented
as well. -/
theorem separators_join_names :
    let course := namesFlow.course namesAround 0 .start ()
    chunksOf course.steps = ["", "  ", "a", "\n", "", "  ", "b"] ∧
      Heard .start course.steps ∧
      ∃ callable steps rounds turns,
        course.steps =
          .call callable ⟨"names", ⟨[]⟩⟩ (.ok (.list [.text "a", .list [], .text "b"])) :: steps ∧
        JoinsRounds "\n" nameLines rounds .start steps course.outcome turns := by
  have uncancelled : ∀ host, namesAround.isCancelled host = false := fun _ => rfl
  obtain ⟨renders, join⟩ := separators_join_rounds ((⟨[]⟩ : Program Unit).setting {}) (.root .root)
    .start "name" none threeNames "\n" nameLines []
  have rendered := renders uncancelled 0 .start ()
  obtain ⟨turns, joins⟩ := (join rendered.runs rfl).2 (List.cons_ne_nil _ _)
  exact ⟨by decide +kernel, rendered.heard, _, _, _, turns, rfl, joins⟩

end Stencil
