import Stencil.Host.Callable
import Stencil.Script.State

/-! # Scripted expressions

A small language for what expressions do, so that a host can be described as data.  The
parts of a body are run from left to right, and the first error ends the run.
-/

namespace Stencil.Script

open Stencil.Host (Action Bindings Callable Parameter)

inductive Body where
  | const (value : Value)
  /-- The value of a name, which has to be bound. -/
  | get (name : String)
  /-- The value of a name, or `nothing` if it is not bound. -/
  | find (name : String)
  | concat (parts : List Body)
  | array (parts : List Body)
  | add (parts : List Body)
  | asciiUpper (part : Body)
  | truthy (part : Body)
  | typeName (part : Body)
  | counter (name : String)
  | cancel (token : String)
  | fail (error : RenderError)

/-- The sum from zero of the numbers among some values, from left to right. -/
def sum (values : List Value) : Float :=
  values.foldl (fun total value => total + value.number?.getD 0) 0

mutual

def Body.run (bindings : Bindings) : Body → Action State Value
  | .const value => return value
  | .get name => liftM (bindings.get name)
  | .find name => return (bindings.find? name).getD .nothing
  | .concat parts => return .text (Value.list (← runAll bindings parts)).toText
  | .array parts => return .list (← runAll bindings parts)
  | .add parts => return .number (sum (← runAll bindings parts))
  | .asciiUpper part => return .text ((← part.run bindings).toText.map Char.toUpper)
  | .truthy part => return .bool (← part.run bindings).isTruthy
  | .typeName part => return .text (← part.run bindings).typeName
  | .counter name => do
    modify (·.increment name)
    return .ofNat ((← getThe State).count name)
  | .cancel token => do
    modify (·.set token true)
    return .nothing
  | .fail error => throw error

def runAll (bindings : Bindings) : List Body → Action State (List Value)
  | [] => return []
  | part :: parts => do
    let value ← part.run bindings
    let values ← runAll bindings parts
    return value :: values

end

/-- A scripted expression: its source, what it does, and what it declares to read, if
anything. -/
structure Entry where
  source : String
  body : Body
  parameters : List Parameter

def Entry.callable (entry : Entry) : Callable State where
  signature := ⟨entry.source, entry.parameters⟩
  run bindings := entry.body.run bindings

end Stencil.Script
