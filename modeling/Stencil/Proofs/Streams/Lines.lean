import Stencil.Program.Compile
import Stencil.Proofs.Lexical.Compiled
import Stencil.Proofs.Streams.Courses
import Stencil.Proofs.Streams.Woven
import Stencil.Render.Routine

/-! # What blocks put out

A block without indentations puts out what the children of its lines put out.  A line that is
nothing but its terminator puts the terminator out as well, directly ahead of its content, if a line
before it has had content.  That is all: the markers of the lines are empty.
-/

namespace Stencil

open Eager (Surroundings hasContent)
open Host (Interpretation)
open Stencil.Flow
open Program (Block)

variable {σ : Type}

/-- What joins a line to the content before it. -/
def Template.Line.joint (line : Template.Line) : Option String :=
  if line.isNewline then some line.source else none

/-- The turns of some lines with their leads: an empty marker, or what joins the line to content
before it. -/
def terminated (lines : List (Template.Line × List (Step σ))) :
    List ((Bool → Option String) × List (Step σ)) :=
  lines.map fun line => (fun earlier => some (Flow.leadOf line.1.joint earlier), line.2)

/-- The chunks of some lines, with what joins the lines. -/
def jointStreams (lines : List (Template.Line × List (Step σ))) :
    List ((Bool → Option String) × List String) :=
  lines.map fun line => (leadIf line.1.joint, chunksOf line.2)

theorem Flow.leadOf_eq (terminator : Option String) (earlier : Bool) :
    Flow.leadOf terminator earlier = (leadIf terminator earlier).getD "" := by
  cases earlier <;> rfl

theorem jointStreams_append (lines others : List (Template.Line × List (Step σ))) :
    jointStreams (lines ++ others) = jointStreams lines ++ jointStreams others :=
  List.map_append

/-! ## Lines in turn -/

theorem Flow.Runs.of_line {flow : Flow σ Progress} {lead : String} {steps : List (Step σ)}
    {outcome : Outcome (Progress × Bool)} (runs : (flow.line lead none .fresh).Runs steps outcome) :
    ∃ turn early, flow.Runs turn early ∧ outcome = early.map (·, hasContent (chunksOf turn)) ∧
      Led (some lead) turn steps := by
  rw [line_eq_joined] at runs
  exact runs.of_joined

/-- The lines of a block are run in turn, and what joins them is put out ahead of content. -/
theorem Flow.Runs.of_block {interpretation : Interpretation σ} {size : Nat}
    {names : Program.Names} {place : Program.Place} {lines : List Template.Line} {block : Block σ}
    (compiled : Program.compileBlock interpretation size names place (lines.map .line) = .ok block)
    (plain : ∀ line ∈ lines, line.indentation = none) {setting : Setting σ}
    {scope : Scope (SectionFlow σ)} {earlier : Bool} {progress : Progress} {steps : List (Step σ)}
    {outcome : Outcome Progress}
    (runs : (Program.blockFlow setting scope earlier progress block).Runs steps outcome) :
    ∃ turns, RunsInTurn (block.map fun line progress =>
          Program.childrenFlow setting scope progress line.children) progress turns outcome ∧
      Woven earlier (terminated (lines.zip turns)) steps := by
  induction lines generalizing block earlier progress steps with
  | nil =>
    cases compiled
    cases runs
    exact ⟨[], .done progress, .nil earlier⟩
  | cons line lines ih =>
    obtain ⟨here, later⟩ := List.forall_mem_cons.1 plain
    obtain ⟨children, isNewline, source, indentation⟩ := line
    cases here
    simp only [List.map_cons, Program.compileBlock, Program.compileLine, except_bind_eq_ok]
      at compiled
    obtain ⟨_, ⟨routines, -, first⟩, rest, others, same⟩ := compiled
    cases first
    cases same
    rw [Program.blockFlow] at runs
    obtain ⟨before, after, ended, rfl, one, two⟩ | ⟨early, one, cut⟩ := runs.of_bind
    · obtain ⟨turn, inner, own, finished, led⟩ := one.of_line
      obtain ⟨made, rfl, rfl⟩ := Outcome.eq_finished_of_map finished.symm
      obtain ⟨turns, inTurn, joined⟩ := ih others later two
      exact ⟨turn :: turns, .next own inTurn, .cons led joined⟩
    · obtain ⟨turn, inner, own, rfl, led⟩ := one.of_line
      obtain rfl := cut.of_map.eq
      refine ⟨[turn], .last own cut.of_map, ?_⟩
      rw [List.zip_cons_cons, List.zip_nil_right]
      exact .only led

/-! ## Blocks -/

/-- What is known of the steps of a block whose lines are run in turn. -/
structure JoinsLines (lines : List Template.Line) (children : List (Progress → Flow σ Progress))
    (progress : Progress) (steps : List (Step σ)) (outcome : Outcome Progress)
    (turns : List (List (Step σ))) : Prop where
  /-- The children of every line are run by themselves, in the order of the lines. -/
  inTurn : RunsInTurn children progress turns outcome
  /-- The steps are those of the children, and one lead for each line with content. -/
  joined : Woven false (terminated (lines.zip turns)) steps
  /-- The lead stands directly ahead of the content.  It is the source of the line, if and only if
  the line is nothing but its terminator and some line before it has content. -/
  each : ∀ before line turn after, lines.zip turns = before ++ (line, turn) :: after →
    ∃ front led back, steps = front ++ led ++ back ∧ Woven false (terminated before) front ∧
      Led (some (Flow.leadOf line.joint (before.any (hasContent <| chunksOf ·.2)))) turn led
  /-- The other leads are not seen. -/
  chunks : shown (chunksOf steps) = shown (woven false (jointStreams (lines.zip turns)))
  /-- A line without content is put out as it is, and all else is as it is without the line. -/
  idle : ∀ before line turn after, lines.zip turns = before ++ (line, turn) :: after →
    hasContent (chunksOf turn) = false → ∃ back,
      shown (chunksOf steps) =
        shown (woven false (jointStreams before)) ++ shown (chunksOf turn) ++ back ∧
      shown (woven false (jointStreams (before ++ after))) =
        shown (woven false (jointStreams before)) ++ back

theorem Flow.Woven.lines {lines before after : List (Template.Line × List (Step σ))}
    {line : Template.Line} {turn steps : List (Step σ)}
    (joins : Woven false (terminated lines) steps)
    (split : lines = before ++ (line, turn) :: after) :
    ∃ front led back, steps = front ++ led ++ back ∧ Woven false (terminated before) front ∧
      Led (some (Flow.leadOf line.joint (before.any (hasContent <| chunksOf ·.2)))) turn led := by
  rw [split, terminated, List.map_append, List.map_cons] at joins
  obtain ⟨front, led, back, same, joined, own⟩ := joins.split
  rw [Bool.false_or, List.any_map] at own
  exact ⟨front, led, back, same, joined, own⟩

theorem Flow.Woven.shownLines {lines : List (Template.Line × List (Step σ))}
    {steps : List (Step σ)} (joins : Woven false (terminated lines) steps) :
    shown (chunksOf steps) = shown (woven false (jointStreams lines)) := by
  have seen := shown_woven false (lines.map fun line => (line.1.joint, chunksOf line.2))
  simp only [List.map_map, Function.comp_def, ← Flow.leadOf_eq] at seen
  rw [joins.chunks, terminated, List.map_map]
  exact seen

/-- Whatever is in the lines of a block and wherever the block is run, terminators join exactly the
lines that have content. -/
theorem terminators_join_lines {interpretation : Interpretation σ} {size : Nat}
    {names : Program.Names} {place : Program.Place} {lines : List Template.Line} {block : Block σ}
    (compiled : Program.compileBlock interpretation size names place (lines.map .line) = .ok block)
    (plain : ∀ line ∈ lines, line.indentation = none) (setting : Setting σ)
    (scope : Scope (SectionFlow σ)) (progress : Progress) :
    (∀ {around : Surroundings σ}, (∀ host, around.isCancelled host = false) →
      ∀ answered standing host, (Program.blockFlow setting scope false progress block).Rendered
        around answered standing host) ∧
    ∀ {steps outcome}, (Program.blockFlow setting scope false progress block).Runs steps outcome →
      ∃ turns, JoinsLines lines (block.map fun line progress =>
        Program.childrenFlow setting scope progress line.children) progress steps outcome
        turns := by
  refine ⟨fun uncancelled => Flow.rendered uncancelled _, fun runs => ?_⟩
  obtain ⟨turns, inTurn, joins⟩ := runs.of_block compiled plain
  refine ⟨turns, inTurn, joins, fun _ _ _ _ => joins.lines, joins.shownLines,
    fun before line turn after split empty => ?_⟩
  obtain ⟨back, without, all⟩ :=
    woven_idle empty false (leadIf line.joint) (jointStreams before) (jointStreams after)
  refine ⟨shown back, ?_, ?_⟩
  · rw [joins.shownLines, split, jointStreams_append, ← shown_append, ← shown_append, ← all]
    rfl
  · rw [jointStreams_append, without, shown_append]

/-- A name, a blank line, a line of nothing but a newline, another blank line and a name. -/
def namesLines : List Template.Line :=
  [⟨[.literal "a"], false, "a", none⟩, .newline "\r\n", ⟨[.literal "\n"], false, "", none⟩,
    .newline "\n", ⟨[.literal "b"], false, "b", none⟩]

def namesBlock : Block Unit :=
  [⟨[.literal "a"], none, none⟩, ⟨[.literal ""], some "\r\n", none⟩, ⟨[.literal "\n"], none, none⟩,
    ⟨[.literal ""], some "\n", none⟩, ⟨[.literal "b"], none, none⟩]

theorem terminators_join_names :
    let interpretation : Interpretation Unit := fun fragment => .ok (.read fragment.source)
    let course := (Program.blockFlow ((⟨[]⟩ : Program Unit).setting {}) (.root .root) false .start
      namesBlock).course ⟨Render.Options.limits {}, fun _ host => host⟩ 0 .start ()
    Program.compileBlock interpretation 0 [] .document (namesLines.map .line) = .ok namesBlock ∧
      (∀ line ∈ namesLines, line.indentation = none) ∧
      shown (chunksOf course.steps) = ["a", "\r\n", "\n", "\n", "b"] ∧
      ∃ children turns,
        JoinsLines namesLines children .start course.steps course.outcome turns := by
  have compiled : Program.compileBlock (fun fragment => .ok (.read fragment.source)) 0 []
      .document (namesLines.map .line) = .ok namesBlock := rfl
  have plain : ∀ line ∈ namesLines, line.indentation = none := by
    simp [namesLines, Template.Line.newline]
  have uncancelled : ∀ host : Unit,
      (⟨Render.Options.limits {}, fun _ host => host⟩ : Surroundings Unit).isCancelled host =
        false := fun _ => rfl
  obtain ⟨rendered, join⟩ := terminators_join_lines compiled plain
    ((⟨[]⟩ : Program Unit).setting {}) (.root .root) .start
  obtain ⟨turns, joins⟩ := join (rendered uncancelled 0 .start ()).runs
  exact ⟨compiled, plain, by decide +kernel, _, turns, joins⟩

end Stencil
