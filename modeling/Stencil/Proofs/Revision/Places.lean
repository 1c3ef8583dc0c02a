import Stencil.Proofs.Checking.Acceptance

/-! # Places in templates

A place is a template with a hole in it.  A spot is a place for nodes among the children of a line
of a block, and a shell a place for a block in a node.  Spots and shells in turn make up the path to
a block however deep it stands.

What is in scope at a place depends on the shells around it alone, and so does what may stand there.
-/

namespace Stencil

open Host (Interpretation)
open Program (MemberFits ChildFits)

variable {σ : Type}

namespace Template

/-! ## Places -/

/-- A place among the children of a line of a block. -/
structure Spot where
  before : List Node
  first : List Node
  last : List Node
  isNewline : Bool
  source : String
  indentation : Option String
  after : List Node

def Spot.fill (spot : Spot) (nodes : List Node) : List Node :=
  spot.before ++
    .line ⟨spot.first ++ nodes ++ spot.last, spot.isNewline, spot.source, spot.indentation⟩ ::
      spot.after

/-- A node with a place for one of its bodies. -/
inductive Shell where
  | binding (name : String) (fragment : Option Fragment)
  | choice (condition : Fragment) (otherwise : List Node)
  | otherwise (condition : Fragment) (body : List Node)
  | loop (item : String) (index : Option String) (iterable : Fragment) (separator : Option String)
      (fallback : List Node)
  | fallback (item : String) (index : Option String) (iterable : Fragment)
      (separator : Option String) (body : List Node)
  | transform (fragment : Fragment)
  | part (target : DocId) (forwards : List (String × Fragment)) (first : List Section)
      (name : String) (last : List Section)
  | stray (name : String)

def Shell.fill (block : List Node) : Shell → Node
  | .binding name fragment => .binding name fragment block
  | .choice condition others => .choice condition block others
  | .otherwise condition body => .choice condition body block
  | .loop item index iterable separator others => .loop item index iterable separator block others
  | .fallback item index iterable separator body =>
    .loop item index iterable separator body block
  | .transform fragment => .transform fragment block
  | .part target forwards first name last =>
    .inclusion target forwards (first ++ ⟨name, block⟩ :: last)
  | .stray name => .stray ⟨name, block⟩

/-- The names in scope in the body, given those around the node. -/
def Shell.scope (scope : List String) : Shell → List String
  | .binding name _ => name :: scope
  | .loop item index _ _ _ => item :: (index.toList ++ scope)
  | .choice .. | .otherwise .. | .fallback .. | .transform _ | .part .. | .stray _ => scope

/-- The way to a block in a block, from without. -/
abbrev Path := List (Spot × Shell)

def Path.fill : Path → List Node → List Node
  | [], block => block
  | (spot, shell) :: path, block => spot.fill [shell.fill (Path.fill path block)]

/-! ## Includes -/

/-- An include, with the names of the sections that it supplies. -/
structure Include where
  target : DocId
  supplied : List String

mutual

/-- The includes that stand in a node, however deep.  What is passed over is no include. -/
def Node.includes : Node → List Include
  | .literal _ | .expression .. | .slot _ | .stray _ => []
  | .line line => line.includes
  | .binding _ _ body | .transform _ body => includesOf body
  | .choice _ body otherwise => includesOf body ++ includesOf otherwise
  | .loop _ _ _ _ body fallback => includesOf body ++ includesOf fallback
  | .inclusion target _ sections =>
    ⟨target, sections.map Section.name⟩ :: sectionIncludes sections

def Line.includes : Line → List Include
  | ⟨children, _, _, _⟩ => includesOf children

/-- The includes of a block or of the children of a line. -/
def includesOf : List Node → List Include
  | [] => []
  | node :: rest => node.includes ++ includesOf rest

def sectionIncludes : List Section → List Include
  | [] => []
  | ⟨_, body⟩ :: rest => includesOf body ++ sectionIncludes rest

end

theorem includesOf_append (nodes others : List Node) :
    includesOf (nodes ++ others) = includesOf nodes ++ includesOf others := by
  induction nodes with
  | nil => rfl
  | cons node nodes ih => simp only [List.cons_append, includesOf, ih, List.append_assoc]

theorem sectionIncludes_append (sections others : List Section) :
    sectionIncludes (sections ++ others) = sectionIncludes sections ++ sectionIncludes others := by
  induction sections with
  | nil => rfl
  | cons part sections ih =>
    obtain ⟨name, body⟩ := part
    simp only [List.cons_append, sectionIncludes, ih, List.append_assoc]

theorem Spot.includes (spot : Spot) (nodes : List Node) :
    includesOf (spot.fill nodes) = includesOf spot.before ++ (includesOf spot.first ++
      includesOf nodes ++ includesOf spot.last ++ includesOf spot.after) := by
  simp only [Spot.fill, includesOf_append, includesOf, Node.includes, Line.includes]

end Template

open Template (Node Spot Shell Path)

/-! ## What may stand in a place -/

section Fitting

variable {interpretation : Interpretation σ} {size : Nat} {scope : List String}

/-- All members fit into a block with these names in scope. -/
abbrev Program.BlockFits (interpretation : Interpretation σ) (size : Nat) (scope : List String)
    (block : List Node) : Prop :=
  ∀ node ∈ block, MemberFits interpretation size scope node

/-- What is in a spot fits in the scope of the block, and whatever else fits there may stand in its
place. -/
theorem Template.Spot.fits {spot : Spot} {nodes : List Node}
    (fits : Program.BlockFits interpretation size scope (spot.fill nodes)) :
    (∀ node ∈ nodes, ChildFits interpretation size scope node) ∧
      ∀ others, (∀ node ∈ others, ChildFits interpretation size scope node) →
        Program.BlockFits interpretation size scope (spot.fill others) := by
  obtain ⟨before, line⟩ := List.forall_mem_append.1 fits
  obtain ⟨⟨children⟩, after⟩ := List.forall_mem_cons.1 line
  obtain ⟨inner, last⟩ := List.forall_mem_append.1 children
  obtain ⟨first, here⟩ := List.forall_mem_append.1 inner
  refine ⟨here, fun others there => ?_⟩
  refine List.forall_mem_append.2 ⟨before, List.forall_mem_cons.2 ⟨.line ?_, after⟩⟩
  exact List.forall_mem_append.2 ⟨List.forall_mem_append.2 ⟨first, there⟩, last⟩

/-- Unless it is passed over, the body of a node fits in the scope of the body, and any other that
fits there may stand in its place. -/
theorem Template.Shell.fits {shell : Shell} {block : List Node}
    (fits : ChildFits interpretation size scope (shell.fill block)) :
    ((∃ name, shell = .stray name) ∨
        Program.BlockFits interpretation size (shell.scope scope) block) ∧
      ∀ other, Program.BlockFits interpretation size (shell.scope scope) other →
        ChildFits interpretation size scope (shell.fill other) := by
  cases shell with
  | binding name fragment =>
    obtain _ | _ | _ | _ | ⟨given, here⟩ := fits
    exact ⟨.inr here, fun _ => .binding given⟩
  | choice condition otherwise =>
    obtain _ | _ | _ | _ | _ | ⟨given, here, others⟩ := fits
    exact ⟨.inr here, fun _ there => .choice given there others⟩
  | otherwise condition body =>
    obtain _ | _ | _ | _ | _ | ⟨given, first, here⟩ := fits
    exact ⟨.inr here, fun _ => .choice given first⟩
  | loop item index iterable separator fallback =>
    obtain _ | _ | _ | _ | _ | _ | ⟨given, here, others⟩ := fits
    exact ⟨.inr here, fun _ there => .loop given there others⟩
  | fallback item index iterable separator body =>
    obtain _ | _ | _ | _ | _ | _ | ⟨given, first, here⟩ := fits
    exact ⟨.inr here, fun _ => .loop given first⟩
  | transform fragment =>
    obtain _ | _ | _ | _ | _ | _ | _ | ⟨here, given⟩ := fits
    exact ⟨.inr here, fun _ there => .transform there given⟩
  | part target forwards first name last =>
    obtain _ | _ | _ | _ | _ | _ | _ | _ | ⟨known, given, parts⟩ := fits
    obtain ⟨earlier, rest⟩ := List.forall_mem_append.1 parts
    obtain ⟨here, later⟩ := List.forall_mem_cons.1 rest
    refine ⟨.inr here, fun _ there => .inclusion known given ?_⟩
    exact List.forall_mem_append.2 ⟨earlier, List.forall_mem_cons.2 ⟨there, later⟩⟩
  | stray name => exact ⟨.inl ⟨name, rfl⟩, fun _ _ => .stray _⟩

/-- Where a block fits on a path, so does whatever fits wherever the block does. -/
theorem Template.Path.fits {path : Path} {block other : List Node}
    (fits : Program.BlockFits interpretation size scope (path.fill block))
    (exchange : ∀ scope, Program.BlockFits interpretation size scope block →
      Program.BlockFits interpretation size scope other) :
    Program.BlockFits interpretation size scope (path.fill other) := by
  induction path generalizing scope with
  | nil => exact exchange scope fits
  | cons place path ih =>
    obtain ⟨spot, shell⟩ := place
    obtain ⟨here, filled⟩ := Spot.fits fits
    refine filled _ (List.forall_mem_singleton.2 ?_)
    have given := List.forall_mem_singleton.1 here
    obtain ⟨⟨name, rfl⟩ | body, put⟩ := Shell.fits given
    · exact .stray _
    · exact put _ (ih body)

end Fitting

end Stencil
