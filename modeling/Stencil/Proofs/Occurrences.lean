import Stencil.Render.Routine

/-! # Where expressions stand

The names around every expression of a program, as its document has them: those that a binding
or a loop has in its body, and the rendered block in the expression of a transform.  What a
section has around it are the names around its include.
-/

namespace Stencil

open Program (Names Expression Routine Line Section Block)

variable {σ : Type}

/-- The names in some frames. -/
def namesOf (frames : List Frame) : Names :=
  frames.map (·.map (·.1))

theorem namesOf_loopFrame (item : String) (index : Option String) (position : Nat)
    (element : Value) (frames : List Frame) :
    namesOf (loopFrame item index position element :: frames) =
      Program.loopNames item index :: namesOf frames := by
  cases index <;> rfl

/-- An expression, with the names that the constructs around it in its document bind. -/
structure Program.Occurrence (σ : Type) where
  names : Names
  expression : Expression σ

namespace Program

mutual

def Routine.occurrences (names : Names) : Routine σ → List (Occurrence σ)
  | .literal _ | .slot _ => []
  | .output expression _ | .effect expression => [⟨names, expression⟩]
  | .binding name value body =>
    value.toList.map (⟨names, ·⟩) ++ blockOccurrences ([name] :: names) body
  | .choice condition body otherwise =>
    ⟨names, condition⟩ :: (blockOccurrences names body ++ blockOccurrences names otherwise)
  | .loop item index iterable _ body fallback =>
    ⟨names, iterable⟩ ::
      (blockOccurrences (loopNames item index :: names) body ++ blockOccurrences names fallback)
  | .transform expression body =>
    ⟨[blockName] :: names, expression⟩ :: blockOccurrences names body
  | .inclusion _ forwards sections =>
    (forwards.map fun forward => ⟨names, forward.2⟩) ++ sectionOccurrences names sections

def childOccurrences (names : Names) : List (Routine σ) → List (Occurrence σ)
  | [] => []
  | routine :: rest => routine.occurrences names ++ childOccurrences names rest

def blockOccurrences (names : Names) : List (Line σ) → List (Occurrence σ)
  | [] => []
  | ⟨children, _, _⟩ :: rest => childOccurrences names children ++ blockOccurrences names rest

def sectionOccurrences (names : Names) : List (Section σ) → List (Occurrence σ)
  | [] => []
  | ⟨_, body⟩ :: rest => blockOccurrences names body ++ sectionOccurrences names rest

end

/-- All expressions of a program.  Nothing is bound around a document. -/
def occurrences (program : Program σ) : List (Occurrence σ) :=
  program.documents.flatMap (blockOccurrences [])

theorem occurrences_of_document {program : Program σ} {id : DocId} {block : Block σ}
    (found : program.document? id = some block) :
    ∀ occurrence ∈ blockOccurrences [] block, occurrence ∈ program.occurrences := by
  intro occurrence member
  exact List.mem_flatMap.2 ⟨block, List.mem_of_getElem? found, member⟩

end Program

end Stencil
