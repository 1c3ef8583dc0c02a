import Stencil.Proofs.Leaves

/-! # Flattening without recursion

A flattening is asked for one chunk after another, and keeps lists that it has walked in part.  What
it answers until it is at its end are the chunks of the leaves that are left, those of the innermost
list first.  So a value is flattened into the chunks of its leaves from left to right, and without
escaping these make up its text.
-/

namespace Stencil

namespace Flattening

/-- Asked for one chunk after another, a flattening gives these and then comes to its end. -/
inductive Gives : Flattening → List String → Prop where
  | ended {flattening : Flattening} : flattening.next? = none → Gives flattening []
  | next {flattening rest : Flattening} {chunk : String} {chunks : List String} :
      flattening.next? = some (chunk, rest) → Gives rest chunks →
      Gives flattening (chunk :: chunks)

theorem gives_toList (flattening : Flattening) : flattening.Gives flattening.toList := by
  rw [toList]
  split
  case h_1 ended => exact .ended ended
  case h_2 chunk rest continued =>
    have smaller := sizeOf_lt_of_next? continued
    exact .next continued rest.gives_toList
termination_by sizeOf flattening.pending

theorem Gives.unique {flattening : Flattening} {chunks others : List String}
    (gives : flattening.Gives chunks) (again : flattening.Gives others) : chunks = others := by
  induction gives generalizing others with
  | ended none =>
    cases again with
    | ended => rfl
    | next found => cases none.symm.trans found
  | next found _ ih =>
    cases again with
    | ended none => cases found.symm.trans none
    | next same more =>
      cases found.symm.trans same
      rw [ih more]

/-- Whoever asks for a few chunks gets the first ones. -/
theorem Gives.take {flattening : Flattening} {chunks : List String}
    (gives : flattening.Gives chunks) (count : Nat) :
    flattening.take count = chunks.take count := by
  induction count generalizing flattening chunks with
  | zero => rfl
  | succ count ih =>
    cases gives with
    | ended none => rw [Flattening.take, none, List.take_nil]
    | next found more =>
      rw [Flattening.take, found, List.take_succ_cons, ← ih more]

end Flattening

/-! ## Texts -/

namespace Value

mutual

theorem join_leaves : (v : Value) → String.join (v.leaves.map (Leaf.chunk .plain)) = v.toText
  | text _ | number _ | bool _ => String.join_cons.trans String.append_empty
  | list items => join_itemLeaves items
  | nothing => rfl

theorem join_itemLeaves : (items : List Value) →
    String.join ((itemLeaves items).map (Leaf.chunk .plain)) = itemsText items
  | [] => rfl
  | item :: items => by
    rw [itemLeaves, List.map_append, String.join_append, join_leaves item, join_itemLeaves items,
      itemsText]

end

theorem itemLeaves_append (items others : List Value) :
    itemLeaves (items ++ others) = itemLeaves items ++ itemLeaves others := by
  induction items with
  | nil => rfl
  | cons item items ih => rw [List.cons_append, itemLeaves, ih, itemLeaves, List.append_assoc]

end Value

/-- In a raw output and without escaping a text is put out as it is, and otherwise it is escaped. -/
theorem Leaf.chunk_text (raw : Bool) (escape : Escape) (content : String) :
    (Leaf.text content).chunk (if raw then .plain else escape) =
      if raw = true ∨ escape = .plain then content else Escape.html.apply content := by
  cases raw <;> cases escape <;> rfl

/-- However a value is nested, its flattening comes to its end after one chunk for each of its
leaves from left to right: a text as it is in a raw output or without escaping, and escaped
otherwise, and the text of a number or a truth value.  Whoever asks for fewer chunks gets the first
ones.  What is not escaped makes up the text of the value, and the chunks of two lists one after the
other are those of the lists put together. -/
theorem flattening_gives_leaves (v : Value) (raw : Bool) (escape : Escape) :
    let chunk (leaf : Leaf) : String :=
      match leaf with
      | .text content =>
        if raw = true ∨ escape = .plain then content else Escape.html.apply content
      | .number amount => (Value.number amount).toText
      | .bool truth => (Value.bool truth).toText
    (∀ chunks, (v.flattening raw escape).Gives chunks ↔ chunks = v.leaves.map chunk) ∧
      v.chunks raw escape = v.leaves.map chunk ∧
      (∀ count, (v.flattening raw escape).take count = (v.leaves.map chunk).take count) ∧
      String.join (v.chunks true escape) = v.toText ∧
      String.join (v.chunks raw .plain) = v.toText ∧
      ∀ items others, (Value.list (items ++ others)).chunks raw escape =
        (Value.list items).chunks raw escape ++ (Value.list others).chunks raw escape := by
  intro chunk
  have leaf : Leaf.chunk (if raw then .plain else escape) = chunk := by
    funext leaf
    cases leaf with
    | text content => exact Leaf.chunk_text raw escape content
    | number amount | bool truth => rfl
  have chunks : v.chunks raw escape = v.leaves.map chunk := by rw [v.chunks_leaves, leaf]
  have gives : (v.flattening raw escape).Gives (v.leaves.map chunk) :=
    chunks ▸ Flattening.gives_toList _
  refine ⟨fun others => ⟨fun again => again.unique gives, fun same => same ▸ gives⟩, chunks,
    gives.take, ?_, ?_, fun items others => ?_⟩
  · rw [v.chunks_leaves, if_pos rfl, v.join_leaves]
  · rw [v.chunks_leaves, ite_self, v.join_leaves]
  · simp only [Value.chunks_leaves, Value.leaves, Value.itemLeaves_append, List.map_append]

end Stencil
