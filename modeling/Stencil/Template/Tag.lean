import Stencil.Template.Basic
import Stencil.CompileError

/-! # Tags

The words by which parsers and messages refer to the kinds of nodes and expressions.
-/

namespace Stencil.Template

inductive Tag where
  | line
  | literal
  | expression
  | binding
  | choice
  | loop
  | transform
  | inclusion
  | slot
  | part
  deriving Repr, DecidableEq

namespace Tag

def all : List Tag :=
  [line, literal, expression, binding, choice, loop, transform, inclusion, slot, part]

def word : Tag → String
  | line => "line"
  | literal => "literal"
  | expression => "expression"
  | binding => "let"
  | choice => "if"
  | loop => "each"
  | transform => "transform"
  | inclusion => "include"
  | slot => "slot"
  | part => "section"

def ofWord (word : String) : Except CompileError Tag :=
  match all.find? (·.word == word) with
  | some tag => .ok tag
  | none => .error
    { kind := .unrecognizedNodeKind, message := "unrecognized node kind: " ++ word }

theorem ofWord_word (tag : Tag) : ofWord tag.word = .ok tag := by
  cases tag <;> rfl

end Tag

def Node.tag : Node → Tag
  | line _ => .line
  | literal _ => .literal
  | expression _ _ => .expression
  | binding _ _ _ => .binding
  | choice _ _ _ => .choice
  | loop _ _ _ _ _ _ => .loop
  | transform _ _ => .transform
  | inclusion _ _ _ => .inclusion
  | slot _ => .slot
  | stray _ => .part

namespace ExpressionKind

def ofWord (word : String) : Except CompileError ExpressionKind :=
  match word with
  | "normal" => .ok normal
  | "inject" => .ok inject
  | "effect" => .ok effect
  | word => .error
    { kind := .unrecognizedExpressionKind
      message := "unrecognized expression kind: " ++ word }

end ExpressionKind

end Stencil.Template
