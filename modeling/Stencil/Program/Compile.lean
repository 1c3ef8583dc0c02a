import Stencil.Program.Basic
import Stencil.Program.Violation

/-! # Compilation

`Program.compile` checks documents and turns them into a program.  Every block may hold lines
only, every include has to name a document of the program, and every fragment must be taken
by the host, declare what its callable reads, and have its free names in scope.  The first
violation ends the compilation: documents are taken in order, a node before the nodes behind
it, and within a node the parts in the order in which they are compiled here.

A binding puts its name in scope for its body, a loop its element and position for its body
but not for its fallback, and a transform the rendered block for its expression alone.  The
bodies of sections see what is in scope around their include.
-/

namespace Stencil.Program

open Template (Fragment Node Document)
open Host (Interpretation Parameter)

variable {σ : Type}

def resolveName (names : Names) (source name : String) :
    Except Violation (String × Address) :=
  match names.resolve? name with
  | some address => .ok (name, address)
  | none => .error (.unbound name source)

/-- Finds the place at which a fragment first declares the name of a parameter. -/
def placeParameter (fragment : Fragment) (parameter : Parameter) :
    Except Violation (Nat × Parameter) :=
  match fragment.names.idxOf? parameter.name with
  | some place => .ok (place, parameter)
  | none => .error (.undeclared parameter.name fragment.source)

/-- Compiles a fragment: the host must take it, then it must declare every parameter of its
callable, then all its names must be in scope. -/
def compileFragment (interpretation : Interpretation σ) (names : Names) (fragment : Fragment) :
    Except Violation (Expression σ) := do
  let callable ← (interpretation fragment).mapError .refused
  let parameters ← callable.signature.parameters.mapM (placeParameter fragment)
  let reads ← fragment.names.mapM (resolveName names fragment.source)
  return { source := fragment.source, reads, parameters, callable }

def compileFragment? (interpretation : Interpretation σ) (names : Names) :
    Option Fragment → Except Violation (Option (Expression σ))
  | some fragment => some <$> compileFragment interpretation names fragment
  | none => .ok none

def compileForward (interpretation : Interpretation σ) (names : Names)
    (forward : String × Fragment) : Except Violation (String × Expression σ) :=
  (forward.1, ·) <$> compileFragment interpretation names forward.2

def expressionRoutine (kind : Template.ExpressionKind) (expression : Expression σ) : Routine σ :=
  match kind with
  | .normal => .output expression false
  | .inject => .output expression true
  | .effect => .effect expression

mutual

/-- Compiles a node, given the number of documents and the names in scope around it. -/
def compileNode (interpretation : Interpretation σ) (size : Nat) (names : Names) :
    Node → Except Violation (Routine σ)
  | .line _ => .error .nestedLine
  | .stray part => .error (.misplacedSection part.name)
  | .literal text => .ok (.literal text)
  | .expression kind fragment =>
    expressionRoutine kind <$> compileFragment interpretation names fragment
  | .binding name fragment body => do
    let value ← compileFragment? interpretation names fragment
    let body ← compileBlock interpretation size ([name] :: names) .binding body
    return .binding name value body
  | .choice condition body otherwise => do
    let condition ← compileFragment interpretation names condition
    let body ← compileBlock interpretation size names .choice body
    let otherwise ← compileBlock interpretation size names .otherwise otherwise
    return .choice condition body otherwise
  | .loop item index iterable separator body fallback => do
    let iterable ← compileFragment interpretation names iterable
    let body ← compileBlock interpretation size (loopNames item index :: names) .loop body
    let fallback ← compileBlock interpretation size names .fallback fallback
    return .loop item index iterable separator body fallback
  | .transform fragment body => do
    -- The block comes first, for the expression works on what it is rendered to.
    let body ← compileBlock interpretation size names .transform body
    let expression ← compileFragment interpretation ([blockName] :: names) fragment
    return .transform expression body
  | .inclusion target forwards sections =>
    -- Includes may name documents that stand further behind, or their own.
    if size ≤ target.index then .error (.unknownTarget target)
    else do
      let forwards ← forwards.mapM (compileForward interpretation names)
      let sections ← compileSections interpretation size names sections
      return .inclusion target forwards sections
  | .slot name => .ok (.slot name)

/-- Compiles the children of a line.  Stray sections among them are passed over. -/
def compileChildren (interpretation : Interpretation σ) (size : Nat) (names : Names) :
    List Node → Except Violation (List (Routine σ))
  | [] => .ok []
  | .stray _ :: rest => compileChildren interpretation size names rest
  | node :: rest => do
    let routine ← compileNode interpretation size names node
    let routines ← compileChildren interpretation size names rest
    return routine :: routines

def compileLine (interpretation : Interpretation σ) (size : Nat) (names : Names) :
    Template.Line → Except Violation (Line σ)
  | ⟨children, isNewline, source, indentation⟩ => do
    let children ← compileChildren interpretation size names children
    return ⟨children, if isNewline then some source else none, indentation⟩

/-- Compiles a block, all of whose members must be lines. -/
def compileBlock (interpretation : Interpretation σ) (size : Nat) (names : Names)
    (place : Place) : List Node → Except Violation (Block σ)
  | [] => .ok []
  | .line line :: rest => do
    let line ← compileLine interpretation size names line
    let lines ← compileBlock interpretation size names place rest
    return line :: lines
  | node :: _ => .error (.foreign node.tag place)

def compileSections (interpretation : Interpretation σ) (size : Nat) (names : Names) :
    List Template.Section → Except Violation (List (Section σ))
  | [] => .ok []
  | ⟨name, body⟩ :: rest => do
    let body ← compileBlock interpretation size names .part body
    let sections ← compileSections interpretation size names rest
    return ⟨name, body⟩ :: sections

end

/-- Compiles documents of a program of `size` documents, the first of which stands at
`position`. -/
def compileDocuments (interpretation : Interpretation σ) (size : Nat) :
    (position : Nat) → List Document → Except Refusal (List (Block σ))
  | _, [] => .ok []
  | position, document :: rest => do
    let block ← (compileBlock interpretation size [] .document document).mapError
      (⟨⟨position⟩, ·⟩)
    let blocks ← compileDocuments interpretation size (position + 1) rest
    return block :: blocks

/-- Compiles documents into a program, or refuses them for the first violation. -/
def compile (interpretation : Interpretation σ) (documents : List Document) :
    Except Refusal (Program σ) :=
  .mk <$> compileDocuments interpretation documents.length 0 documents

end Stencil.Program
