/-! # Templates

A template is a set of documents, and a document a list of nodes.  Text stands on lines;
between the texts of a line stand expressions, blocks that depend on values, includes of
other documents, and slots that an including document can fill.

The tree is taken as some parser left it.  Not every tree makes sense: what a document has
to satisfy is checked when it is compiled.
-/

namespace Stencil

/-- The position of a document among the documents of its program. -/
structure DocId where
  index : Nat
  deriving Repr, DecidableEq

def DocId.toText (id : DocId) : String :=
  "#" ++ toString id.index

namespace Template

/-- An embedded piece of expression source and the free names that occur in it.  The source
is opaque: a host gives it meaning. -/
structure Fragment where
  source : String
  names : List String
  deriving Repr, DecidableEq

inductive ExpressionKind where
  /-- Its value is put out and its texts are escaped. -/
  | normal
  | inject
  | effect
  deriving Repr, DecidableEq

mutual

inductive Node where
  | line (line : Line)
  | literal (text : String)
  | expression (kind : ExpressionKind) (fragment : Fragment)
  /-- Binds a name within the body; without a fragment, to the value that the including
  document forwards under that name. -/
  | binding (name : String) (fragment : Option Fragment) (body : List Node)
  | choice (condition : Fragment) (body otherwise : List Node)
  /-- Renders the body for each element of a list and the fallback if there is none, with
  the separator between elements that come to something. -/
  | loop (item : String) (index : Option String) (iterable : Fragment)
      (separator : Option String) (body fallback : List Node)
  /-- Renders the body into one text, which the fragment then works on. -/
  | transform (fragment : Fragment) (body : List Node)
  /-- Renders another document, forwarding values and supplying sections. -/
  | inclusion (target : DocId) (forwards : List (String × Fragment)) (sections : List Section)
  /-- Takes the section of that name which the including document supplies. -/
  | slot (name : String)
  /-- A section outside an include, as a parser may leave it among the children of a line. -/
  | stray (part : Section)

structure Line where
  children : List Node
  /-- Whether the line is nothing but its terminator. -/
  isNewline : Bool
  /-- The terminator of such a line: it is put out where the line joins the lines before
  it. -/
  source : String
  /-- Put in front of the line where it begins a new line of the output. -/
  indentation : Option String

structure Section where
  name : String
  body : List Node

end

abbrev Document := List Node

/-- A line that is nothing but its terminator.  Its only child is an empty text, so that the
terminator comes out as what joins the line to the ones before it. -/
def Line.newline (terminator : String) : Line where
  children := [.literal ""]
  isNewline := true
  source := terminator
  indentation := none

def Line.indented (line : Line) (indentation : String) : Line :=
  { line with indentation := some indentation }

end Template

end Stencil
