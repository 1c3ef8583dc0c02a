import Stencil.Proofs.Accounts
import Stencil.Proofs.Indentation.Layout

/-! # Nested indentations compose

Whatever a rendering nests, each chunk at the start of a line stands behind the indentations of
all lines around it, the outermost first, and no other chunk stands behind any.  The same holds of
what a transform gathers, with the lines inside the transform.

Remarks tell what happens in a marked rendering, as accounts do of a rendering.
-/

namespace Stencil

open Program (Routine Expression Part)
open Eager (Surroundings Occasion)

variable {σ α : Type}

/-- Something that is told of a marked rendering. -/
inductive Remark (σ : Type) where
  | call (callable : Host.Callable σ) (invocation : Invocation)
      (outcome : Except RenderError Value)
  | chunk (piece : Piece)
  /-- A transform has gathered these chunks so far. -/
  | gathering (stream : List Piece)

namespace Remark

/-- What is told without marks. -/
def entry? : Remark σ → Option (Entry σ)
  | call callable invocation outcome => some (.call callable invocation outcome)
  | chunk piece => some (.chunk piece.text)
  | gathering _ => none

def piece? : Remark σ → Option Piece
  | chunk piece => some piece
  | call .. | gathering _ => none

def pieces : Remark σ → List Piece
  | call .. => []
  | chunk piece => [piece]
  | gathering stream => stream

def IsStraight (remark : Remark σ) : Prop :=
  ∀ piece ∈ remark.pieces, piece.IsStraight

end Remark

def Marked.remarks (around : Surroundings σ) :
    (answered : Nat) → Standing → Marked σ α → σ → List (Remark σ)
  | _, _, .finish _, _ | _, _, .bottomless, _ | _, _, .fail _, _ => []
  | answered, standing, .emit piece resume, host =>
    let standing := standing.afterChunk piece.text
    if piece.text.isEmpty then
      if around.isCancelled host then []
      else (resume standing.atStart).remarks around answered standing host
    else
      let host := around.meanwhile answered host
      .chunk piece ::
        if around.isCancelled host then []
        else (resume standing.atStart).remarks around (answered + 1) standing host
  | answered, standing, .call callable invocation resume, host =>
    match (callable.run invocation.bindings).run host with
    | (.ok value, host) =>
      .call callable invocation (.ok value)
        :: (resume value).remarks around answered standing host
    | (.error error, _) => [.call callable invocation (.error error)]
  | answered, standing, .round resume, host =>
    match standing.afterRound around.toLimits with
    | .ok standing => (resume ()).remarks around answered standing host
    | .error _ => []
  | answered, standing, .poll resume, host =>
    if around.isCancelled host then []
    else (resume ()).remarks around answered standing host
  | answered, standing, .gathering stream rest, host =>
    .gathering stream :: rest.remarks around answered standing host

def Eager.Occasion.remarks (occasion : Occasion σ) (document : DocId) (host : σ) :
    List (Remark σ) :=
  (Marked.poll fun _ => Marked.flow occasion.program occasion.options document).remarks
    occasion.around 0 .start host

/-- Without marks it is the account of the rendering. -/
theorem Marked.remarks_bare (around : Surroundings σ) (marked : Marked σ α) (answered : Nat)
    (standing : Standing) (host : σ) :
    (marked.remarks around answered standing host).filterMap Remark.entry? =
      (marked.bare.account around answered standing host).entries := by
  induction marked generalizing answered standing host with
  | finish | fail | bottomless => rfl
  | gathering stream rest ih => exact ih answered standing host
  | emit piece resume ih =>
    simp only [remarks, bare, Flow.account]
    split
    · split
      · rfl
      · exact ih _ _ _ _
    · rw [List.filterMap_cons_some (rfl : Remark.entry? (.chunk piece) = some (.chunk piece.text))]
      refine congrArg (Entry.chunk piece.text :: ·) ?_
      split
      · rfl
      · exact ih _ _ _ _
  | call callable invocation resume ih =>
    simp only [remarks, bare, Flow.account]
    rcases (callable.run invocation.bindings).run host with ⟨outcome, host⟩
    cases outcome with
    | ok value => exact congrArg (Entry.call callable invocation _ :: ·) (ih value _ _ _)
    | error error => rfl
  | round resume ih =>
    simp only [remarks, bare, Flow.account]
    cases standing.afterRound around.toLimits with
    | ok standing => exact ih () _ _ _
    | error error => rfl
  | poll resume ih =>
    simp only [remarks, bare, Flow.account]
    split
    · rfl
    · exact ih () _ _ _

/-- All is well indented that is put out behind some chunks, and all that is gathered, up to the
first remark on a newline as an indentation, if there may be one. -/
inductive Indented (crooked : Prop) : (before : List Piece) → List (Remark σ) → Prop where
  | nil (before : List Piece) : Indented crooked before []
  | call {before : List Piece} {callable : Host.Callable σ} {invocation : Invocation}
      {outcome : Except RenderError Value} {remarks : List (Remark σ)} :
      Indented crooked before remarks →
      Indented crooked before (.call callable invocation outcome :: remarks)
  | chunk {before : List Piece} {piece : Piece} {remarks : List (Remark σ)} :
      piece.IsStraight → WellIndented (before ++ [piece]) →
      Indented crooked (before ++ [piece]) remarks →
      Indented crooked before (.chunk piece :: remarks)
  | gathering {before stream : List Piece} {remarks : List (Remark σ)} :
      (∀ piece ∈ stream, piece.IsStraight) → WellIndented stream →
      Indented crooked before remarks → Indented crooked before (.gathering stream :: remarks)
  | bent {before : List Piece} {remark : Remark σ} {remarks : List (Remark σ)} :
      crooked → ¬remark.IsStraight → Indented crooked before (remark :: remarks)

namespace Indented

variable {crooked : Prop} {before : List Piece} {remarks : List (Remark σ)}

theorem straight (indented : Indented crooked before remarks) (none : ¬crooked) :
    ∀ remark ∈ remarks, remark.IsStraight := by
  induction indented with
  | nil => exact nofun
  | call _ ih => exact List.forall_mem_cons.2 ⟨nofun, ih⟩
  | chunk plain _ _ ih => exact List.forall_mem_cons.2 ⟨List.forall_mem_singleton.2 plain, ih⟩
  | gathering plain _ _ ih => exact List.forall_mem_cons.2 ⟨plain, ih⟩
  | bent allowed => exact absurd allowed none

theorem output (indented : Indented crooked before remarks)
    (straight : ∀ remark ∈ remarks, remark.IsStraight) (already : WellIndented before) :
    WellIndented (before ++ remarks.filterMap Remark.piece?) := by
  induction indented with
  | nil => rwa [List.filterMap_nil, List.append_nil]
  | call _ ih => exact ih (List.forall_mem_cons.1 straight).2 already
  | chunk _ longer _ ih =>
    have rest := ih (List.forall_mem_cons.1 straight).2 longer
    rwa [List.append_assoc] at rest
  | gathering _ _ _ ih => exact ih (List.forall_mem_cons.1 straight).2 already
  | bent _ other => exact absurd (List.forall_mem_cons.1 straight).1 other

theorem gathered (indented : Indented crooked before remarks)
    (straight : ∀ remark ∈ remarks, remark.IsStraight) :
    ∀ stream, .gathering stream ∈ remarks → WellIndented stream := by
  induction indented with
  | nil => exact nofun
  | call _ ih | chunk _ _ _ ih =>
    intro stream member
    exact ih (List.forall_mem_cons.1 straight).2 stream (by simpa using member)
  | gathering _ inner _ ih =>
    intro stream member
    obtain same | later := List.mem_cons.1 member
    · cases same
      exact inner
    · exact ih (List.forall_mem_cons.1 straight).2 stream later
  | bent _ other => exact absurd (List.forall_mem_cons.1 straight).1 other

end Indented

theorem Composed.remarks {crooked : Prop} {results : α → Stance → Prop} {stance : Stance}
    {marked : Marked σ α} (composed : Composed crooked results stance marked)
    (around : Surroundings σ) {before : List Piece} (same : stance = .of before)
    (indented : WellIndented before) (answered : Nat) {standing : Standing}
    (agrees : standing.atStart = stance.atStart) (host : σ) :
    Indented crooked before (marked.remarks around answered standing host) := by
  -- The stance stays that of the chunks so far, and the answers to chunks agree with it.
  induction composed generalizing before answered standing host with
  | finish | fail | bottomless => exact .nil before
  | emitCrooked allowed bent =>
    simp only [Marked.remarks, not_isEmpty_of_isNewline (Piece.crooked bent).2,
      Bool.false_eq_true, if_false]
    exact .bent allowed fun straight => bent (straight _ (List.mem_singleton_self _))
  | gathering straight inner _ ih =>
    exact .gathering straight inner (ih same indented answered agrees host)
  | gatheringCrooked allowed bent => exact .bent allowed bent
  | @emit stance piece resume admits rest ih =>
    subst same
    obtain ⟨answer, later, admitted⟩ := admits
    simp only [Marked.remarks, Standing.afterChunk]
    cases empty : piece.text.isEmpty with
    | true =>
      obtain ⟨rfl, rfl⟩ := admitted.of_blank empty
      simp only [if_true]
      split
      · exact .nil before
      · rw [agrees]
        exact ih _ _ admitted rfl indented answered agrees host
    | false =>
      obtain ⟨rfl, rfl, told, longer⟩ := admitted.of_concat empty indented
      simp only [Bool.false_eq_true, if_false]
      refine .chunk admitted.isStraight longer ?_
      split
      · exact .nil _
      · exact ih _ _ admitted rfl longer (answered + 1) told _
  | @call stance callable invocation resume _ ih =>
    simp only [Marked.remarks]
    rcases (callable.run invocation.bindings).run host with ⟨outcome, host⟩
    cases outcome with
    | ok value => exact .call (ih value same indented answered agrees host)
    | error error => exact .call (.nil before)
  | @round stance resume _ ih =>
    simp only [Marked.remarks]
    cases begun : standing.afterRound around.toLimits with
    | error error => exact .nil before
    | ok later =>
      rw [← Eager.atStart_of_afterRound begun] at agrees
      exact ih () same indented answered agrees host
  | poll _ ih =>
    simp only [Marked.remarks]
    split
    · exact .nil before
    · exact ih () same indented answered agrees host

theorem Eager.Occasion.remarks_indented {crooked : Prop} (occasion : Occasion σ)
    (straight : ∀ part ∈ occasion.program.parts, crooked ∨ part.IsStraight) (document : DocId)
    (host : σ) : Indented crooked [] (occasion.remarks document host) := by
  have composed := flow_composes straight occasion.options document (.of []) (.known true)
  exact (Composed.poll fun _ => composed).remarks occasion.around rfl .nil 0 rfl host

/-- Where no newline is the indentation of a line, none is put out as an indentation. -/
theorem Eager.Occasion.remarks_straight (occasion : Occasion σ)
    (straight : ∀ part ∈ occasion.program.parts, part.IsStraight) (document : DocId) (host : σ) :
    ∀ remark ∈ occasion.remarks document host, remark.IsStraight :=
  (occasion.remarks_indented (fun part member => .inr (straight part member)) document
    host).straight not_false

/-- The chunks of every rendering, with what each is there for and the lines that are around it,
are well indented, unless a newline is put out as an indentation.  So is at every moment what a
transform has gathered.  Without the marks this is the account of the rendering. -/
theorem indentations_compose (occasion : Occasion σ) (document : DocId) (host : σ) :
    let remarks := occasion.remarks document host
    ((∀ remark ∈ remarks, remark.IsStraight) →
      WellIndented (remarks.filterMap Remark.piece?) ∧
        ∀ stream, .gathering stream ∈ remarks → WellIndented stream) ∧
      remarks.filterMap Remark.entry? = (occasion.account document host).entries ∧
      occasion.Tells document host (occasion.account document host) := by
  intro remarks
  have indented : Indented True [] remarks :=
    occasion.remarks_indented (fun _ _ => .inl True.intro) document host
  refine ⟨fun straight => ⟨indented.output straight .nil, indented.gathered straight⟩, ?_,
    occasion.account_tells document host⟩
  have told := Marked.remarks_bare occasion.around
    (.poll fun _ => Marked.flow occasion.program occasion.options document) 0 .start host
  simp only [Marked.bare, Marked.bare_flow] at told
  exact told

/-- A page that puts a section and a transform into a layout, all on indented lines. -/
def nestingExample : Program Unit where
  documents :=
    let items : Expression Unit :=
      ⟨"items", [], [], .untyped "items" fun _ => pure (.list [.text "a", .text "b"])⟩
    [[⟨[.inclusion ⟨1⟩ [] [⟨"body", [⟨[.literal "x"], none, some "\t"⟩]⟩]], none, some "  "⟩],
      [⟨[.slot "body"], none, some "> "⟩,
        ⟨[.loop "item" none items (some "\n")
            [⟨[.output (.read "item" ⟨0, 0⟩) false], none, some "* "⟩] []], some "\n", none⟩,
        ⟨[.transform (.read Program.blockName ⟨0, 0⟩) [⟨[.literal "y"], none, some "-"⟩]],
          some "\n", some ""⟩]]

theorem nesting_composes :
    let occasion : Occasion Unit := ⟨nestingExample, {}, fun _ host => host⟩
    let remarks := occasion.remarks ⟨0⟩ ()
    (∀ remark ∈ remarks, remark.IsStraight) ∧
      WellIndented (remarks.filterMap Remark.piece?) ∧
      (∀ stream, .gathering stream ∈ remarks → WellIndented stream) ∧
      remarks.filterMap Remark.entry? = (occasion.account ⟨0⟩ ()).entries ∧
      (remarks.filterMap Remark.piece?).map Piece.text =
        ["  ", "> ", "\t", "x", "\n", "  ", "* ", "a", "\n", "  ", "* ", "b", "\n", "  ",
          "-y"] := by
  intro occasion remarks
  have straight : ∀ remark ∈ remarks, remark.IsStraight := by
    refine occasion.remarks_straight ?_ ⟨0⟩ ()
    simp [occasion, Program.parts, nestingExample, Program.blockParts, Program.childParts,
      Program.sectionParts, Routine.innerParts, Part.IsStraight]
  obtain ⟨composed, entries, -⟩ := indentations_compose occasion ⟨0⟩ ()
  obtain ⟨output, gathered⟩ := composed straight
  exact ⟨straight, output, gathered, entries, by decide +kernel⟩

end Stencil
