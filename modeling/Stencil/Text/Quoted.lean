import Stencil.Text.Hidden

/-! # Quoted texts

A text between double quotes on one line.  Quotes and backslashes get a backslash, the
common controls their letters, and every other character without a form of its own is
written as its code point between braces.
-/

namespace Stencil.Text

/-- The code point of a character in braces, in lower-case hexadecimal digits. -/
def codePoint (c : Char) : List Char :=
  ['\\', 'u', '\x7b'] ++ Nat.toDigits 16 c.toNat ++ ['\x7d']

def quoteChar (c : Char) : List Char :=
  match c with
  | '\x00' => ['\\', '0']
  | '\t' => ['\\', 't']
  | '\n' => ['\\', 'n']
  | '\r' => ['\\', 'r']
  | '"' => ['\\', '"']
  | '\\' => ['\\', '\\']
  | c => if isHidden c then codePoint c else [c]

def quote (s : String) : String :=
  String.ofList ('"' :: s.toList.flatMap quoteChar ++ ['"'])

end Stencil.Text
