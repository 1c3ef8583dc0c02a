import Stencil.Program.Basic

/-! # Parts of programs

The routines and the lines of a program, however deep they stand: those of bodies and branches,
and those of the sections that an include supplies.  What a property of a program asks of its
texts and expressions is asked of its parts.
-/

namespace Stencil.Program

variable {σ : Type}

inductive Part (σ : Type) where
  | routine (routine : Routine σ)
  | line (line : Line σ)

/-- The texts that stand in a part itself. -/
def Part.texts : Part σ → List String
  | .routine (.literal text) => [text]
  | .routine (.loop _ _ _ separator _ _) => separator.toList
  | .routine _ => []
  | .line ⟨_, terminator, indentation⟩ => terminator.toList ++ indentation.toList

mutual

def Routine.innerParts : Routine σ → List (Part σ)
  | .literal _ | .output .. | .effect _ | .slot _ => []
  | .binding _ _ body | .transform _ body => blockParts body
  | .choice _ body otherwise => blockParts body ++ blockParts otherwise
  | .loop _ _ _ _ body fallback => blockParts body ++ blockParts fallback
  | .inclusion _ _ sections => sectionParts sections

def childParts : List (Routine σ) → List (Part σ)
  | [] => []
  | child :: children => .routine child :: (child.innerParts ++ childParts children)

def blockParts : List (Line σ) → List (Part σ)
  | [] => []
  | ⟨children, terminator, indentation⟩ :: lines =>
    .line ⟨children, terminator, indentation⟩ :: (childParts children ++ blockParts lines)

def sectionParts : List (Section σ) → List (Part σ)
  | [] => []
  | ⟨_, body⟩ :: sections => blockParts body ++ sectionParts sections

end

def parts (program : Program σ) : List (Part σ) :=
  program.documents.flatMap blockParts

/-- No text that is put out is handed to an expression. -/
def Transformless (program : Program σ) : Prop :=
  ∀ expression body, .routine (.transform expression body) ∉ program.parts

theorem parts_of_document {program : Program σ} {id : DocId} {block : Block σ}
    (found : program.document? id = some block) :
    ∀ part ∈ blockParts block, part ∈ program.parts := by
  intro part member
  exact List.mem_flatMap.2 ⟨block, List.mem_of_getElem? found, member⟩

end Stencil.Program
