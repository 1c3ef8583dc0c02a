import Stencil.Proofs.Eager.Walk
import Stencil.Proofs.Occurrences

/-! # Expressions in their places

What fits the places where expressions are evaluated fits them in all documents that are entered
and all sections that are put out.  The frames of a place have the names that the constructs
around the expression bind in its own document, whoever includes it and wherever its sections
are asked for.
-/

namespace Stencil

open Program (Routine Line Section Block Expression)

namespace Eager

variable {σ : Type}

section Fitting

variable (fits : Place σ → Expression σ → Prop)

mutual

/-- All expressions of a routine fit the places where they are evaluated, whatever values are
bound around them. -/
def RoutineFits (place : Place σ) : Routine σ → Prop
  | .literal _ | .slot _ => True
  | .output expression _ | .effect expression => fits place expression
  | .binding name expression body =>
    (∀ value ∈ expression, fits place value) ∧
      ∀ value, BlockFits (place.extend [(name, value)]) body
  | .choice condition body otherwise =>
    fits place condition ∧ BlockFits place body ∧ BlockFits place otherwise
  | .loop item index iterable _ body fallback =>
    fits place iterable ∧
      (∀ position element, BlockFits (place.extend (loopFrame item index position element))
        body) ∧
      BlockFits place fallback
  | .transform expression body =>
    BlockFits place body ∧
      ∀ text, fits (place.extend [(Program.blockName, .text text)]) expression
  | .inclusion _ forwards sections =>
    (∀ forward ∈ forwards, fits place forward.2) ∧ SectionsFit place sections

def ChildrenFit (place : Place σ) : List (Routine σ) → Prop
  | [] => True
  | child :: children => RoutineFits place child ∧ ChildrenFit place children

def BlockFits (place : Place σ) : List (Line σ) → Prop
  | [] => True
  | ⟨children, _, _⟩ :: lines => ChildrenFit place children ∧ BlockFits place lines

def SectionsFit (place : Place σ) : List (Section σ) → Prop
  | [] => True
  | ⟨_, body⟩ :: sections => BlockFits place body ∧ SectionsFit place sections

end

/-- So do the expressions in all sections that are supplied to a document and those around. -/
def ActivationFits : Activation σ → Prop
  | .root => True
  | .within _ _ sections frames outer =>
    SectionsFit fits ⟨frames, outer⟩ sections ∧ ActivationFits outer

/-- So do the expressions of all documents. -/
def ProgramFits (program : Program σ) : Prop :=
  ∀ document block, program.document? document = some block →
    ∀ activation, BlockFits fits ⟨[], activation⟩ block

variable {fits}

theorem SectionsFit.body {place : Place σ} {sections : List (Section σ)}
    (fitting : SectionsFit fits place sections) :
    ∀ part ∈ sections, BlockFits fits place part.body := by
  induction sections with
  | nil => exact nofun
  | cons part sections ih =>
    obtain ⟨name, body⟩ := part
    intro other member
    obtain rfl | later := List.mem_cons.1 member
    · exact fitting.1
    · exact ih fitting.2 other later

end Fitting

section Frames

variable {holds : Program.Occurrence σ → Prop}

mutual

/-- Where the frames in scope have the names that are around a routine, they have the names that
are around its expressions when these are evaluated. -/
theorem routineFits_of_occurrences (place : Place σ) : (routine : Routine σ) →
    (∀ occurrence ∈ routine.occurrences (namesOf place.frames),
      holds occurrence) →
    RoutineFits (fun place expression => holds ⟨namesOf place.frames, expression⟩) place routine
  | .literal _, _ | .slot _, _ => True.intro
  | .output expression _, all | .effect expression, all =>
    all ⟨_, expression⟩ (List.mem_cons_self ..)
  | .binding name value body, all => by
    obtain ⟨bound, inner⟩ := List.forall_mem_append.1 all
    refine ⟨fun expression member => ?_, fun value => ?_⟩
    · exact bound ⟨_, expression⟩ (List.mem_map_of_mem (Option.mem_toList.2 member))
    · exact blockFits_of_occurrences (place.extend [(name, value)]) body inner
  | .choice condition body otherwise, all => by
    obtain ⟨here, blocks⟩ := List.forall_mem_cons.1 all
    obtain ⟨yes, no⟩ := List.forall_mem_append.1 blocks
    exact ⟨here, blockFits_of_occurrences place body yes,
      blockFits_of_occurrences place otherwise no⟩
  | .loop item index iterable _ body fallback, all => by
    obtain ⟨here, blocks⟩ := List.forall_mem_cons.1 all
    obtain ⟨inner, outer⟩ := List.forall_mem_append.1 blocks
    refine ⟨here, fun position element => ?_, blockFits_of_occurrences place fallback outer⟩
    refine blockFits_of_occurrences (place.extend (loopFrame item index position element)) body ?_
    rw [Place.extend, namesOf_loopFrame]
    exact inner
  | .transform expression body, all => by
    obtain ⟨here, inner⟩ := List.forall_mem_cons.1 all
    exact ⟨blockFits_of_occurrences place body inner, fun _ => here⟩
  | .inclusion _ forwards sections, all => by
    obtain ⟨given, supplied⟩ := List.forall_mem_append.1 all
    refine ⟨fun forward member => ?_, sectionsFit_of_occurrences place sections supplied⟩
    exact given ⟨_, forward.2⟩ (List.mem_map_of_mem member)

theorem childrenFit_of_occurrences (place : Place σ) : (children : List (Routine σ)) →
    (∀ occurrence ∈ Program.childOccurrences (namesOf place.frames) children,
      holds occurrence) →
    ChildrenFit (fun place expression => holds ⟨namesOf place.frames, expression⟩) place children
  | [], _ => True.intro
  | child :: children, all => by
    obtain ⟨here, rest⟩ := List.forall_mem_append.1 all
    exact ⟨routineFits_of_occurrences place child here,
      childrenFit_of_occurrences place children rest⟩

theorem blockFits_of_occurrences (place : Place σ) : (block : List (Line σ)) →
    (∀ occurrence ∈ Program.blockOccurrences (namesOf place.frames) block,
      holds occurrence) →
    BlockFits (fun place expression => holds ⟨namesOf place.frames, expression⟩) place block
  | [], _ => True.intro
  | ⟨children, _, _⟩ :: lines, all => by
    obtain ⟨here, rest⟩ := List.forall_mem_append.1 all
    exact ⟨childrenFit_of_occurrences place children here,
      blockFits_of_occurrences place lines rest⟩

theorem sectionsFit_of_occurrences (place : Place σ) : (sections : List (Section σ)) →
    (∀ occurrence ∈ Program.sectionOccurrences (namesOf place.frames) sections,
      holds occurrence) →
    SectionsFit (fun place expression => holds ⟨namesOf place.frames, expression⟩) place sections
  | [], _ => True.intro
  | ⟨_, body⟩ :: sections, all => by
    obtain ⟨here, rest⟩ := List.forall_mem_append.1 all
    exact ⟨blockFits_of_occurrences place body here,
      sectionsFit_of_occurrences place sections rest⟩

end

end Frames

/-- In every program, the expressions are evaluated with frames that have the names around
them. -/
theorem programFits_occurrences (program : Program σ) :
    ProgramFits (fun place expression => ⟨namesOf place.frames, expression⟩ ∈ program.occurrences)
      program :=
  fun _ block found activation =>
    blockFits_of_occurrences ⟨[], activation⟩ block (Program.occurrences_of_document found)

theorem blockFits_trivial (place : Place σ) (block : Block σ) :
    BlockFits (fun _ _ => True) place block :=
  blockFits_of_occurrences place block fun _ _ => True.intro

theorem programFits_trivial (program : Program σ) : ProgramFits (fun _ _ => True) program :=
  fun _ block _ _ => blockFits_trivial _ block

theorem activationFits_trivial (activation : Activation σ) :
    ActivationFits (fun _ _ => True) activation := by
  induction activation with
  | root => exact True.intro
  | within _ _ sections frames outer ih =>
    exact ⟨sectionsFit_of_occurrences ⟨frames, outer⟩ sections fun _ _ => True.intro, ih⟩

end Eager

end Stencil
