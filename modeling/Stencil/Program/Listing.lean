import Stencil.Program.Basic

/-! # The expressions of a program

All compiled expressions in the order in which they stand in the program: documents in
order, a node before the nodes behind it, and within a node its own expressions before its
bodies.
-/

namespace Stencil.Program

variable {σ : Type}

mutual

def Routine.expressions : Routine σ → List (Expression σ)
  | .literal _ => []
  | .output expression _ => [expression]
  | .effect expression => [expression]
  | .binding _ value body => value.toList ++ blockExpressions body
  | .choice condition body otherwise =>
    condition :: blockExpressions body ++ blockExpressions otherwise
  | .loop _ _ iterable _ body fallback =>
    iterable :: blockExpressions body ++ blockExpressions fallback
  | .transform expression body => expression :: blockExpressions body
  | .inclusion _ forwards sections => forwards.map (·.2) ++ sectionExpressions sections
  | .slot _ => []

def childExpressions : List (Routine σ) → List (Expression σ)
  | [] => []
  | routine :: rest => routine.expressions ++ childExpressions rest

def blockExpressions : List (Line σ) → List (Expression σ)
  | [] => []
  | ⟨children, _, _⟩ :: rest => childExpressions children ++ blockExpressions rest

def sectionExpressions : List (Section σ) → List (Expression σ)
  | [] => []
  | ⟨_, body⟩ :: rest => blockExpressions body ++ sectionExpressions rest

end

def expressions (program : Program σ) : List (Expression σ) :=
  program.documents.flatMap blockExpressions

/-- The addresses of the free names of an expression, in the order in which it declares
them. -/
def Expression.addresses (expression : Expression σ) : List Address :=
  expression.reads.map (·.2)

end Stencil.Program
