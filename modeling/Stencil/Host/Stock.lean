import Stencil.Host.Typed
import Stencil.Host.Catalog

/-! # The stock of expressions

A fixed set of small typed expressions that a host can offer without writing any of its own.
-/

namespace Stencil.Host

/-- An expression of the stock with the name it is known by. -/
structure StockEntry where
  name : String
  expression : TypedFunction

namespace StockEntry

def firstItem : StockEntry where
  name := "FirstItemExpr"
  expression :=
    { source := "items[0]"
      telescope := [("items", .array)]
      function := fun
        | [] => .error (.evaluation "empty array")
        | item :: _ => .ok item }

def bracket : StockEntry where
  name := "BracketExpr"
  expression :=
    { source := "`[$\x7btext\x7d]`"
      telescope := [("text", .string)]
      function := fun (text : String) => .ok (.text ("[" ++ text ++ "]")) }

def doubleNumber : StockEntry where
  name := "DoubleNumberExpr"
  expression :=
    { source := "n * 2"
      telescope := [("n", .number)]
      function := fun (n : Float) => .ok (.number (n * 2)) }

def yesNo : StockEntry where
  name := "YesNoExpr"
  expression :=
    { source := "flag ? 'yes' : 'no'"
      telescope := [("flag", .bool)]
      function := fun (flag : Bool) => .ok (.text (if flag then "yes" else "no")) }

/-- The texts of the elements of a list with a separator between them. -/
def joinAll : StockEntry where
  name := "JoinAllExpr"
  expression :=
    { source := "items.join(sep)"
      telescope := [("items", .array), ("sep", .string)]
      function := fun (items : List Value) (separator : String) =>
        .ok (.text (separator.intercalate (items.map Value.toText))) }

def typeOf : StockEntry where
  name := "TypeOfExpr"
  expression :=
    { source := "typeof v"
      telescope := [("v", .any)]
      function := fun (value : Value) => .ok (.text value.typeName) }

def makePair : StockEntry where
  name := "MakePairExpr"
  expression :=
    { source := "pair(a, b)"
      telescope := [("a", .any), ("b", .any)]
      function := fun (first second : Value) => .ok (.list [first, second]) }

def angle : StockEntry where
  name := "AngleExpr"
  expression :=
    { source := "`<$\x7b__block\x7d>`"
      telescope := [("__block", .string)]
      function := fun (block : String) => .ok (.text ("<" ++ block ++ ">")) }

def zeroArg : StockEntry where
  name := "ZeroArgExpr"
  expression :=
    { source := "zero()"
      telescope := []
      function := .ok (.number 0) }

def all : List StockEntry :=
  [firstItem, bracket, doubleNumber, yesNo, joinAll, typeOf, makePair, angle, zeroArg]

end StockEntry

/-- A catalog that holds the stock besides what it held before. -/
def Catalog.registerStock {σ : Type} (catalog : Catalog σ) : Catalog σ :=
  StockEntry.all.foldl (fun catalog entry => catalog.register entry.expression.callable) catalog

end Stencil.Host
