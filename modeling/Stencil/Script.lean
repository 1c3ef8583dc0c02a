import Stencil.Flow
import Stencil.Host.Stock
import Stencil.Script.Body

/-! # Scripts

A script describes a whole host: whether it offers the stock of expressions, which
expressions it adds to them, and which fragments it refuses.
-/

namespace Stencil

open Host (Catalog Interpretation)

structure Script where
  withStock : Bool
  entries : List Script.Entry
  refusals : List (String × CompileError)

namespace Script

/-- The catalog of a script: the stock first, then its own expressions in order. -/
def catalog (script : Script) : Catalog State :=
  let stock := if script.withStock then Catalog.empty.registerStock else Catalog.empty
  script.entries.foldl (fun catalog entry => catalog.register entry.callable) stock

def interpretation (script : Script) : Interpretation State :=
  script.catalog.interpret.refusing script.refusals

/-- Whether a call is one of the script's own expressions.  These are found by the exact
source of their fragments, and ahead of the stock and of plain names. -/
def announces (script : Script) (invocation : Invocation) : Bool :=
  script.entries.any (·.source == invocation.source)

end Script

end Stencil
