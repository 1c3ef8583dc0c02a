import Stencil.Program.Compile

/-! # What templates have to satisfy

`MemberFits` and `ChildFits` say which members a block may have and which children a line, by the
names in scope there: a binding adds its name for its body, a loop its element and position for
its body but not for its fallback, a transform the rendered block for its expression but not for
its body.  A section among the children of a line is passed over with all that is in it.

The same is also told as a list of single checks in the order in which they are made, each of them
with its own violation.  Where a node is refused, what stands in it is not looked at.
-/

namespace Stencil.Program

open Template (Fragment Node Tag Document)
open Host (Interpretation Parameter)

variable {σ : Type} (interpretation : Interpretation σ) (size : Nat)

/-! ## Well-formed templates -/

/-- The host takes the fragment, and its names are those that the callable reads, if not more, and
are all in scope. -/
structure Readable (scope : List String) (fragment : Fragment) : Prop where
  taken : ∃ callable, interpretation fragment = .ok callable
  declared : ∀ callable, interpretation fragment = .ok callable →
    ∀ parameter ∈ callable.signature.parameters, parameter.name ∈ fragment.names
  bound : ∀ name ∈ fragment.names, name ∈ scope

mutual

/-- Only a line can be a member of a block. -/
inductive MemberFits : List String → Node → Prop where
  | line {scope : List String} {line : Template.Line} :
      (∀ child ∈ line.children, ChildFits scope child) → MemberFits scope (.line line)

/-- Anything but a line can be the child of a line. -/
inductive ChildFits : List String → Node → Prop where
  | literal {scope : List String} (text : String) : ChildFits scope (.literal text)
  | slot {scope : List String} (name : String) : ChildFits scope (.slot name)
  | stray {scope : List String} (part : Template.Section) : ChildFits scope (.stray part)
  | expression {scope : List String} {kind : Template.ExpressionKind} {fragment : Fragment} :
      Readable interpretation scope fragment → ChildFits scope (.expression kind fragment)
  | binding {scope : List String} {name : String} {fragment : Option Fragment}
      {body : List Node} :
      (∀ given ∈ fragment, Readable interpretation scope given) →
      (∀ node ∈ body, MemberFits (name :: scope) node) →
      ChildFits scope (.binding name fragment body)
  | choice {scope : List String} {condition : Fragment} {body otherwise : List Node} :
      Readable interpretation scope condition → (∀ node ∈ body, MemberFits scope node) →
      (∀ node ∈ otherwise, MemberFits scope node) →
      ChildFits scope (.choice condition body otherwise)
  | loop {scope : List String} {item : String} {index : Option String} {iterable : Fragment}
      {separator : Option String} {body fallback : List Node} :
      Readable interpretation scope iterable →
      (∀ node ∈ body, MemberFits (item :: (index.toList ++ scope)) node) →
      (∀ node ∈ fallback, MemberFits scope node) →
      ChildFits scope (.loop item index iterable separator body fallback)
  | transform {scope : List String} {fragment : Fragment} {body : List Node} :
      (∀ node ∈ body, MemberFits scope node) →
      Readable interpretation (blockName :: scope) fragment →
      ChildFits scope (.transform fragment body)
  | inclusion {scope : List String} {target : DocId} {forwards : List (String × Fragment)}
      {sections : List Template.Section} :
      target.index < size → (∀ forward ∈ forwards, Readable interpretation scope forward.2) →
      (∀ part ∈ sections, ∀ node ∈ part.body, MemberFits scope node) →
      ChildFits scope (.inclusion target forwards sections)

end

/-- Nothing is in scope at the beginning of a document. -/
def WellFormed (documents : List Document) : Prop :=
  ∀ document ∈ documents, ∀ node ∈ document,
    MemberFits interpretation documents.length [] node

/-! ## Single checks -/

/-- One thing that is checked of a template. -/
inductive Check where
  /-- A member of a block is a line. -/
  | member (found : Tag) (place : Place)
  /-- A child of a line is not a line. -/
  | child (found : Tag)
  /-- An include names a document that is there. -/
  | target (target : DocId)
  /-- The host takes the fragment. -/
  | taken (fragment : Fragment)
  /-- The fragment declares a parameter of its callable. -/
  | declared (fragment : Fragment) (parameter : Parameter)
  /-- A name of the fragment is in scope. -/
  | bound (scope : List String) (fragment : Fragment) (name : String)

/-- What a check objects to. -/
inductive Check.FailsWith : Check → Violation → Prop where
  | member {found : Tag} {place : Place} :
      found ≠ .line → FailsWith (.member found place) (.foreign found place)
  | child : FailsWith (.child .line) .nestedLine
  | target {target : DocId} :
      size ≤ target.index → FailsWith (.target target) (.unknownTarget target)
  | taken {fragment : Fragment} {error : CompileError} :
      interpretation fragment = .error error → FailsWith (.taken fragment) (.refused error)
  | declared {fragment : Fragment} {parameter : Parameter} :
      parameter.name ∉ fragment.names →
      FailsWith (.declared fragment parameter) (.undeclared parameter.name fragment.source)
  | bound {scope : List String} {fragment : Fragment} {name : String} :
      name ∉ scope → FailsWith (.bound scope fragment name) (.unbound name fragment.source)

/-- A check that objects to nothing holds. -/
def Check.Holds (check : Check) : Prop :=
  ∀ violation, ¬check.FailsWith interpretation size violation

/-! ## Checks in order -/

/-- What the callable of a fragment reads, if the host takes the fragment. -/
def parametersOf (fragment : Fragment) : List Parameter :=
  match interpretation fragment with
  | .ok callable => callable.signature.parameters
  | .error _ => []

def fragmentChecks (scope : List String) (fragment : Fragment) : List Check :=
  .taken fragment :: ((parametersOf interpretation fragment).map (.declared fragment) ++
    fragment.names.map (.bound scope fragment))

mutual

/-- The checks of what stands in a child of a line, in order. -/
def childChecks (scope : List String) : Node → List Check
  | .line _ | .literal _ | .slot _ | .stray _ => []
  | .expression _ fragment => fragmentChecks interpretation scope fragment
  | .binding name fragment body =>
    fragment.toList.flatMap (fragmentChecks interpretation scope) ++
      blockChecks (name :: scope) .binding body
  | .choice condition body otherwise =>
    fragmentChecks interpretation scope condition ++
      (blockChecks scope .choice body ++ blockChecks scope .otherwise otherwise)
  | .loop item index iterable _ body fallback =>
    fragmentChecks interpretation scope iterable ++
      (blockChecks (item :: (index.toList ++ scope)) .loop body ++
        blockChecks scope .fallback fallback)
  | .transform fragment body =>
    blockChecks scope .transform body ++
      fragmentChecks interpretation (blockName :: scope) fragment
  | .inclusion target forwards sections =>
    .target target :: (forwards.flatMap (fragmentChecks interpretation scope ·.2) ++
      sectionChecks scope sections)

/-- The checks of all children of a line. -/
def childrenChecks (scope : List String) : List Node → List Check
  | [] => []
  | child :: children =>
    .child child.tag :: (childChecks scope child ++ childrenChecks scope children)

def lineChecks (scope : List String) : Template.Line → List Check
  | ⟨children, _, _, _⟩ => childrenChecks scope children

/-- The checks of a block, member by member. -/
def blockChecks (scope : List String) (place : Place) : List Node → List Check
  | [] => []
  | .line line :: rest =>
    .member .line place :: (lineChecks scope line ++ blockChecks scope place rest)
  | node :: rest => .member node.tag place :: blockChecks scope place rest

/-- The checks of the sections that an include supplies. -/
def sectionChecks (scope : List String) : List Template.Section → List Check
  | [] => []
  | ⟨_, body⟩ :: rest => blockChecks scope .part body ++ sectionChecks scope rest

end

/-- The checks of documents, the first of which stands at `position`, each with its document. -/
def documentChecks : (position : Nat) → List Document → List (DocId × Check)
  | _, [] => []
  | position, document :: rest =>
    (blockChecks interpretation [] .document document).map (⟨position⟩, ·) ++
      documentChecks (position + 1) rest

/-- The first check that does not hold, among the checks of all documents in order, is one of the
document `id` and objects with `violation`. -/
def FirstViolation (documents : List Document) (id : DocId) (violation : Violation) : Prop :=
  ∃ before check after,
    documentChecks interpretation 0 documents = before ++ (id, check) :: after ∧
      (∀ earlier ∈ before, earlier.2.Holds interpretation documents.length) ∧
      check.FailsWith interpretation documents.length violation

end Stencil.Program
