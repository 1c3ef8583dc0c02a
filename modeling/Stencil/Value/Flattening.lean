import Stencil.Value.Text
import Stencil.Escape

/-! # From values to chunks

A value enters a document as a sequence of chunks: none for `nothing`, the chunks of its
elements in order for a list, one for anything else.  Only texts are escaped.

A `Flattening` walks a value without recursion.  It keeps the lists that are still to be
walked, the innermost first, so that chunks can be taken one at a time.
-/

namespace Stencil

/-- A value on its way into chunks. -/
structure Flattening where
  /-- What is left of the lists that have been entered, the innermost first. -/
  pending : List (List Value)
  escape : Escape

namespace Value

/-- Starts to flatten a value.  Nothing is escaped in a raw output. -/
def flattening (v : Value) (raw : Bool) (escape : Escape) : Flattening :=
  ⟨[[v]], if raw then .plain else escape⟩

end Value

namespace Flattening

/-- The next chunk and the lists left after it, or nothing at the end. -/
def nextIn (escape : Escape) : List (List Value) → Option (String × List (List Value))
  | [] => none
  | [] :: outer => nextIn escape outer
  | (.nothing :: rest) :: outer => nextIn escape (rest :: outer)
  | (.list items :: rest) :: outer => nextIn escape (items :: rest :: outer)
  | (.text content :: rest) :: outer => some (escape.apply content, rest :: outer)
  | (.number amount :: rest) :: outer => some ((Value.number amount).toText, rest :: outer)
  | (.bool truth :: rest) :: outer => some ((Value.bool truth).toText, rest :: outer)
termination_by pending => sizeOf pending

def next? (f : Flattening) : Option (String × Flattening) :=
  (nextIn f.escape f.pending).map fun (chunk, pending) => (chunk, { f with pending })

theorem sizeOf_lt_of_nextIn {escape : Escape} {pending rest : List (List Value)}
    {chunk : String} (h : nextIn escape pending = some (chunk, rest)) :
    sizeOf rest < sizeOf pending := by
  fun_induction nextIn escape pending with
  | case1 => simp at h
  | case2 outer ih =>
    have := ih h
    simp only [List.cons.sizeOf_spec]
    omega
  | case3 rest outer ih =>
    have := ih h
    simp only [List.cons.sizeOf_spec] at this ⊢
    omega
  | case4 rest outer items ih =>
    have := ih h
    simp only [List.cons.sizeOf_spec, Value.list.sizeOf_spec] at this ⊢
    omega
  | case5 | case6 | case7 =>
    simp only [Option.some.injEq, Prod.mk.injEq] at h
    obtain ⟨rfl, rfl⟩ := h
    simp only [List.cons.sizeOf_spec]
    omega

theorem sizeOf_lt_of_next? {f g : Flattening} {chunk : String} (h : f.next? = some (chunk, g)) :
    sizeOf g.pending < sizeOf f.pending := by
  simp only [next?, Option.map_eq_some_iff, Prod.mk.injEq] at h
  obtain ⟨⟨c, rest⟩, found, rfl, rfl⟩ := h
  exact sizeOf_lt_of_nextIn found

def toList (f : Flattening) : List String :=
  match h : f.next? with
  | none => []
  | some (chunk, rest) =>
    have := sizeOf_lt_of_next? h
    chunk :: rest.toList
termination_by sizeOf f.pending

def take (f : Flattening) : (count : Nat) → List String
  | 0 => []
  | count + 1 =>
    match f.next? with
    | none => []
    | some (chunk, rest) => chunk :: rest.take count

end Flattening

def Value.chunks (v : Value) (raw : Bool) (escape : Escape) : List String :=
  (v.flattening raw escape).toList

end Stencil
