import Stencil.Proofs.Eager.Rendering
import Stencil.Proofs.Lexical.Resolved

/-! # Names mean what is bound around them

Of a compiled program, every rendering is the rendering of the templates by name.  And at every
moment of it, the frames in scope are those that the constructs around an expression bind in its
own document: the addresses of the expression all lead somewhere, and what is handed to its
callable are the values that its names have in the scope of that moment.
-/

namespace Stencil

open Host (Interpretation)
open Program (Expression Block)

variable {σ β : Type}

/-- In a scope an expression reads what its names mean in its document. -/
structure Program.SoundAt (program : Program σ) (expression : Expression σ) (scope : Scope β) :
    Prop where
  /-- The frames are those of the constructs around it, the innermost first. -/
  around : ⟨namesOf scope.frames, expression⟩ ∈ program.occurrences
  /-- Every address leads to the value of the innermost frame that has the name, which is the
  value that the name has in the scope. -/
  addresses : ∀ read ∈ expression.reads, ∃ value,
    scope.resolve? read.2 = some value ∧
      scope.frames.findSome? (·.lookup read.1) = some value ∧
      scope.lookup read.1 = .ok value
  /-- If a callable is called at all, it gets these values for the declared names. -/
  handed : ∀ bindings, expression.bindings scope = .ok bindings →
    bindings.entries.map (·.1) = expression.reads.map (·.1) ∧
      ∀ entry ∈ bindings.entries, scope.lookup entry.1 = .ok entry.2

theorem Scope.lookup_of_findSome? {scope : Scope β} {name : String} {value : Value}
    (found : scope.frames.findSome? (·.lookup name) = some value) :
    scope.lookup name = .ok value := by
  rw [Scope.lookup, Scope.find?, found]
  rfl

/-- What is handed over are the values of the names, in the order in which they are declared. -/
theorem Program.Expression.handed {expression : Expression σ} {scope : Scope β}
    (resolved : expression.Resolved (namesOf scope.frames)) {bindings : Host.Bindings}
    (given : expression.bindings scope = .ok bindings) :
    bindings.entries.map (·.1) = expression.reads.map (·.1) ∧
      ∀ entry ∈ bindings.entries, scope.lookup entry.1 = .ok entry.2 := by
  obtain ⟨frames, context⟩ := scope
  obtain ⟨entries, byAddress, -, same, values⟩ := readNames resolved.addresses [] context
  rw [List.append_nil] at byAddress
  rw [Expression.bindings, byAddress] at given
  obtain ⟨_, -, rfl⟩ := except_map_eq_ok.1 given
  exact ⟨same, fun entry member => Scope.lookup_of_findSome? (values entry member)⟩

/-- An expression that has the right addresses for its place reads what its names mean. -/
theorem Program.soundAt {program : Program σ} {expression : Expression σ} {scope : Scope β}
    (around : ⟨namesOf scope.frames, expression⟩ ∈ program.occurrences)
    (resolved : expression.Resolved (namesOf scope.frames)) :
    program.SoundAt expression scope where
  around := around
  addresses := by
    obtain ⟨frames, context⟩ := scope
    intro read member
    obtain ⟨value, there, first, -⟩ := resolve_found (resolved.addresses read member) [] context
    rw [List.append_nil] at there
    exact ⟨value, there, first, Scope.lookup_of_findSome? first⟩
  handed _ := Expression.handed resolved

/-! ## Moments of a walk -/

namespace Eager

/-- The expression that is evaluated, with the scope in which it is. -/
def Deed.evaluated? : Deed σ → Option (Expression σ × Scope (Block σ))
  | .evaluation expression scope => some (expression, scope)
  | _ => none

/-- All expressions that have been evaluated have read what their names mean. -/
def World.Sound (program : Program σ) (world : World σ) : Prop :=
  ∀ expression scope, Deed.evaluation expression scope ∈ world.ledger.deeds →
    program.SoundAt expression scope

namespace World.Sound

variable {program : Program σ} {world : World σ}

theorem noted (sound : world.Sound program) {deed : Deed σ} (other : deed.evaluated? = none) :
    (world.noted deed).Sound program := by
  intro expression scope member
  obtain earlier | last := List.mem_append.1 member
  · exact sound expression scope earlier
  · cases List.mem_singleton.1 last
    cases other

theorem evaluated (sound : world.Sound program) {expression : Expression σ}
    {scope : Scope (Block σ)} (here : program.SoundAt expression scope) :
    (world.noted (.evaluation expression scope)).Sound program := by
  intro other otherScope member
  obtain earlier | last := List.mem_append.1 member
  · exact sound other otherScope earlier
  · cases List.mem_singleton.1 last
    exact here

end World.Sound

/-- Soundness is kept by everything that a walk does in between. -/
def KeepsSound (program : Program σ) (_ : Activation σ) (before after : World σ) : Prop :=
  before.Sound program → after.Sound program

theorem sound_discipline {program : Program σ}
    (resolved : ∀ occurrence ∈ program.occurrences, occurrence.Resolved) :
    Discipline (fun place expression => ⟨namesOf place.frames, expression⟩ ∈ program.occurrences)
      (KeepsSound program) (KeepsSound program) where
  quiet _ _ _ _ := id
  halt _ _ := id
  andThen one other := other ∘ one
  andStop one other := other ∘ one
  stopQuiet _ _ _ := id
  evaluation _ _ around sound := sound.evaluated (Program.soundAt around (resolved _ around))
  call _ _ _ _ sound := sound.noted rfl
  round _ _ sound := sound.noted rfl
  included inside sound := inside (sound.noted rfl)
  includedStop inside sound := inside (sound.noted rfl)
  executed _ _ body sound := (body ((sound.noted rfl).noted rfl)).noted rfl
  executedStop _ body sound := body ((sound.noted rfl).noted rfl)
  reentered _ sound := (sound.noted rfl).noted rfl
  replayed _ sound := (sound.noted rfl).noted rfl
  replayedStop _ sound := sound.noted rfl

/-- In a walk over a document of a compiled program, every expression reads what its names
mean. -/
theorem Occasion.walk_sound {interpretation : Interpretation σ}
    {documents : List Template.Document} {occasion : Occasion σ}
    (compiled : Program.compile interpretation documents = .ok occasion.program) (fuel : Nat)
    (document : DocId) (host : σ) :
    (occasion.walk fuel document host).2.Sound occasion.program := by
  obtain reached | halted := (sound_discipline (resolved_program compiled)).walked
    (programFits_occurrences occasion.program) fuel document host
  · exact reached nofun
  · exact halted nofun

/-! ## Renderings -/

/-- A compiled program renders its documents as the templates are rendered by name, and at every
moment every expression reads what its names mean.  With enough fuel the moments of the walk are
those of the rendering. -/
theorem compiled_names_sound {interpretation : Interpretation σ}
    {documents : List Template.Document} {occasion : Occasion σ}
    (compiled : Program.compile interpretation documents = .ok occasion.program)
    (document : DocId) :
    (∀ absent, occasion.program.flow occasion.options document =
        Lexical.flow interpretation absent documents occasion.options document) ∧
      ∀ fuel host,
        (occasion.walk fuel document host).2.Sound occasion.program ∧
          (occasion.nesting document ≤ fuel → occasion.Mirrors fuel document host) :=
  ⟨fun absent => compiled_flow compiled absent occasion.options document,
    fun fuel host => ⟨occasion.walk_sound compiled fuel document host,
      occasion.mirrors document host⟩⟩

/-- A fragment with one name reads it, and any other one is a text by itself. -/
def shadowInterpretation : Interpretation Unit
  | ⟨_, [name]⟩ => .ok (.read name)
  | ⟨source, _⟩ => .ok (.untyped source fun _ => pure (.text source))

/-- Two documents that bind the same name, one of which has the section of the other put out
where its own binding is in scope. -/
def shadowTemplates : List Template.Document :=
  let line (node : Template.Node) : Template.Node := .line ⟨[node], false, "", none⟩
  let name : Template.Node := .expression .normal ⟨"x", ["x"]⟩
  [[line (.binding "x" (some ⟨"outer", []⟩)
      [line (.inclusion ⟨1⟩ [] [⟨"body", [line name]⟩])])],
    [line (.binding "x" (some ⟨"inner", []⟩) [line (.slot "body"), line name])]]

def shadowProgram : Program Unit where
  documents :=
    let line (routine : Program.Routine Unit) : Program.Line Unit := ⟨[routine], none, none⟩
    let text (source : String) : Expression Unit :=
      ⟨source, [], [], .untyped source fun _ => pure (.text source)⟩
    let name : Program.Routine Unit := .output (.read "x" ⟨0, 0⟩) false
    [[line (.binding "x" (some (text "outer"))
        [line (.inclusion ⟨1⟩ [] [⟨"body", [line name]⟩])])],
      [line (.binding "x" (some (text "inner")) [line (.slot "body"), line name])]]

def shadowOccasion : Occasion Unit :=
  ⟨shadowProgram, { maxIncludeDepth := some 1 }, fun _ host => host⟩

theorem shadow_compiled : Program.compile shadowInterpretation shadowTemplates =
    .ok shadowOccasion.program := rfl

theorem shadowed_names_sound :
    Program.compile shadowInterpretation shadowTemplates = .ok shadowOccasion.program ∧
      shadowOccasion.nesting ⟨0⟩ ≤ 3 ∧
      (shadowOccasion.walk 3 ⟨0⟩ ()).2.Sound shadowProgram ∧
      (shadowProgram.render ⟨0⟩ { maxIncludeDepth := some 1 }).drain () =
        shadowOccasion.drained 3 ⟨0⟩ () ∧
      (shadowOccasion.drained 3 ⟨0⟩ ()).chunks = ["outer", "inner"] := by
  obtain ⟨sound, mirrors⟩ := (compiled_names_sound shadow_compiled ⟨0⟩).2 3 ()
  -- The two documents and the section are nested in each other.
  have enough : shadowOccasion.nesting ⟨0⟩ ≤ 3 := by decide
  exact ⟨shadow_compiled, enough, sound, (mirrors enough).drain fun _ _ => rfl,
    by decide +kernel⟩

end Eager

end Stencil
