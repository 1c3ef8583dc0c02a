import Stencil.Value.Flattening

/-! # Leaves of values

The leaves of a value are the texts, numbers and truth values in it from left to right.  Its
chunks are those of its leaves, one of each, although they are found without recursion.
-/

namespace Stencil

inductive Leaf where
  | text (content : String)
  | number (amount : Float)
  | bool (truth : Bool)

namespace Leaf

/-- What a leaf puts out.  Only texts are escaped. -/
def chunk (escape : Escape) : Leaf → String
  | text content => escape.apply content
  | number amount => (Value.number amount).toText
  | bool truth => (Value.bool truth).toText

end Leaf

namespace Value

mutual

def leaves : Value → List Leaf
  | text content => [.text content]
  | number amount => [.number amount]
  | bool truth => [.bool truth]
  | list items => itemLeaves items
  | nothing => []

def itemLeaves : List Value → List Leaf
  | [] => []
  | item :: items => item.leaves ++ itemLeaves items

end

end Value

namespace Flattening

/-- The leaves of lists that are still to be walked. -/
def leavesOf (pending : List (List Value)) : List Leaf :=
  pending.flatMap Value.itemLeaves

theorem leavesOf_cons (items : List Value) (outer : List (List Value)) :
    leavesOf (items :: outer) = Value.itemLeaves items ++ leavesOf outer :=
  List.flatMap_cons

/-- The next chunk is that of the next leaf, and the other leaves are left. -/
theorem nextIn_leaves (escape : Escape) (pending : List (List Value)) :
    match nextIn escape pending with
    | none => leavesOf pending = []
    | some (chunk, rest) =>
      ∃ leaf, leavesOf pending = leaf :: leavesOf rest ∧ chunk = leaf.chunk escape := by
  fun_induction nextIn escape pending with
  | case1 => rfl
  | case2 outer ih => exact ih
  | case3 rest outer ih =>
    simpa only [leavesOf_cons, Value.itemLeaves, Value.leaves, List.nil_append] using ih
  | case4 rest outer items ih =>
    simpa only [leavesOf_cons, Value.itemLeaves, Value.leaves, List.append_assoc] using ih
  | case5 content => exact ⟨.text content, rfl, rfl⟩
  | case6 amount => exact ⟨.number amount, rfl, rfl⟩
  | case7 truth => exact ⟨.bool truth, rfl, rfl⟩

theorem toList_leaves (flattening : Flattening) :
    flattening.toList = (leavesOf flattening.pending).map (Leaf.chunk flattening.escape) := by
  have next := nextIn_leaves flattening.escape flattening.pending
  rw [toList]
  split
  case h_1 ended =>
    rw [next?, Option.map_eq_none_iff] at ended
    simp only [ended] at next
    rw [next]
    rfl
  case h_2 chunk rest continued =>
    have smaller := sizeOf_lt_of_next? continued
    rw [next?, Option.map_eq_some_iff] at continued
    obtain ⟨⟨chunk', pending⟩, found, same⟩ := continued
    cases same
    simp only [found] at next
    obtain ⟨leaf, leaves, rfl⟩ := next
    rw [toList_leaves, leaves, List.map_cons]
termination_by sizeOf flattening.pending

end Flattening

/-- The chunks of a value are those of its leaves. -/
theorem Value.chunks_leaves (v : Value) (raw : Bool) (escape : Escape) :
    v.chunks raw escape = v.leaves.map (Leaf.chunk (if raw then .plain else escape)) := by
  have single : Flattening.leavesOf [[v]] = v.leaves := by
    simp only [Flattening.leavesOf, List.flatMap_cons, List.flatMap_nil, Value.itemLeaves,
      List.append_nil]
  rw [chunks, Flattening.toList_leaves, flattening, single]

end Stencil
