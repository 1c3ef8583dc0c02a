/-! # Escaping

Texts that come from outside a template can be made harmless before they enter a document.
`Escape.html` replaces the five characters that mean something in markup by their entities
and leaves every other character alone.
-/

namespace Stencil

/-- What happens to the texts that expressions put out. -/
inductive Escape where
  /-- The five markup characters become entities. -/
  | html
  | plain
  deriving Repr, DecidableEq

namespace Escape

def isMarkup (c : Char) : Bool :=
  c == '&' || c == '<' || c == '>' || c == '"' || c == '\''

/-- The entity of a markup character; any other character stands for itself. -/
def entity (c : Char) : List Char :=
  match c with
  | '&' => ['&', 'a', 'm', 'p', ';']
  | '<' => ['&', 'l', 't', ';']
  | '>' => ['&', 'g', 't', ';']
  | '"' => ['&', 'q', 'u', 'o', 't', ';']
  | '\'' => ['&', '#', '3', '9', ';']
  | c => [c]

def escapeChars (s : List Char) : List Char :=
  s.flatMap entity

/-- The new text, where one has to be made: only a text with a markup character in it needs
one. -/
def escaped? (escape : Escape) (s : String) : Option String :=
  match escape with
  | html => if s.toList.any isMarkup then some (String.ofList (escapeChars s.toList)) else none
  | plain => none

def apply (escape : Escape) (s : String) : String :=
  (escape.escaped? s).getD s

end Escape

end Stencil
