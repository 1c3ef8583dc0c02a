import Stencil.Proofs.Scopes.Operations

/-! # Histories of scopes

What has been done with scopes, with all answers, says how each of them was made, and so what is on
its path: its own frame, the frame of the scope that was extended, and so on up to the empty frame
of a scope without bindings.  `Register.Tells` is the invariant: the history tells which numbers are
in use, which scopes are left, and the frames of each of them, which are the ones on its path.
-/

namespace Stencil.Scope

variable {β : Type}

/-- The frames of a scope, the innermost first and the empty one of the document last. -/
def path (scope : Scope β) : List Frame :=
  scope.frames ++ [[]]

namespace Register

/-! ## What a history tells -/

/-- The path of a scope, by how the scope was made. -/
inductive Path (events : List Event) : Nat → List Frame → Prop where
  | root {operation : Operation} {number : Nat} (made : (operation, .made number) ∈ events)
      (isRoot : operation.IsRoot) : Path events number [[]]
  | extension {operation : Operation} {number parent : Nat} {frame : Frame} {path : List Frame}
      (made : (operation, .made number) ∈ events) (onto : operation.Extends parent frame)
      (above : Path events parent path) : Path events number (frame :: path)

/-- The scope was made and has not been dropped. -/
structure Live (events : List Event) (number : Nat) : Prop where
  made : ∃ operation, (operation, .made number) ∈ events
  kept : (.drop number, .dropped) ∉ events

/-- No number was given to two scopes. -/
def EachOnce (events : List Event) : Prop :=
  ∀ {one other : Operation} {number : Nat},
    (one, .made number) ∈ events → (other, .made number) ∈ events → one = other

variable {events more : List Event} {number : Nat}

theorem Operation.IsRoot.not_extends {operation : Operation} (isRoot : operation.IsRoot)
    (parent : Nat) (frame : Frame) : ¬ operation.Extends parent frame := by
  cases isRoot <;> nofun

theorem Operation.Extends.unique {operation : Operation} {parent other : Nat} {frame more : Frame}
    (here : operation.Extends parent frame) (there : operation.Extends other more) :
    parent = other ∧ frame = more := by
  cases here <;> cases there <;> exact ⟨rfl, rfl⟩

theorem Path.mono {path : List Frame} (here : Path events number path)
    (within : events ⊆ more) : Path more number path := by
  induction here with
  | root made isRoot => exact .root (within made) isRoot
  | extension made onto _ ih => exact .extension (within made) onto ih

theorem Path.unique (once : EachOnce events) {path other : List Frame}
    (here : Path events number path) (there : Path events number other) : path = other := by
  -- Both tell of the one operation that made the scope, so they go on from the same parent.
  induction here generalizing other with
  | root made isRoot =>
    cases there with
    | root => rfl
    | extension again onto => exact absurd (once again made ▸ onto) (isRoot.not_extends _ _)
  | extension made onto _ ih =>
    cases there with
    | root again isRoot => exact absurd (once made again ▸ onto) (isRoot.not_extends _ _)
    | extension again beneath above =>
      obtain ⟨rfl, rfl⟩ := onto.unique (once again made ▸ beneath)
      rw [ih above]

/-! ## What a history tells of a register -/

theorem mem_concat {event last : Event} :
    event ∈ events ++ [last] ↔ event ∈ events ∨ event = last := by
  rw [List.mem_append, List.mem_singleton]

theorem dropped_ne_made (number : Nat) : Answer.dropped ≠ .made number := by
  rintro ⟨⟩

section

variable {operation other : Operation} {answer : Answer}

theorem made_of_concat (old : ∀ number, answer ≠ .made number)
    (member : (other, .made number) ∈ events ++ [(operation, answer)]) :
    (other, .made number) ∈ events :=
  (mem_concat.1 member).resolve_right fun same => old number (Prod.mk.inj same).2.symm

theorem dropped_of_concat (kept : answer ≠ .dropped)
    (member : (other, .dropped) ∈ events ++ [(operation, answer)]) :
    (other, .dropped) ∈ events :=
  (mem_concat.1 member).resolve_right fun same => kept (Prod.mk.inj same).2.symm

/-- A scope that was already made then was left before the last operation. -/
theorem Live.earlier (live : Live (events ++ [(operation, answer)]) number)
    (made : ∃ first, (first, .made number) ∈ events) : Live events number :=
  ⟨made, fun gone => live.kept (mem_concat.2 (.inl gone))⟩

/-- A scope is left as long as it is not dropped. -/
theorem Live.concat (live : Live events number)
    (left : (.drop number, .dropped) ≠ (operation, answer)) :
    Live (events ++ [(operation, answer)]) number :=
  ⟨live.made.imp fun _ made => mem_concat.2 (.inl made),
    fun gone => (mem_concat.1 gone).elim live.kept left⟩

end

/-- A history tells what is in a register: the numbers that are in use, which scopes are left, and
of each of them, how it was made. -/
structure Tells (events : List Event) (register : Register β) : Prop where
  used : ∀ {operation number}, (operation, .made number) ∈ events →
    number < register.entries.length
  gone : ∀ {number}, (.drop number, .dropped) ∈ events → number < register.entries.length
  once : EachOnce events
  alone : ∀ {number scope}, register.get? number = some scope → scope.context = .root
  path : ∀ {number scope}, register.get? number = some scope → Path events number scope.path
  present : ∀ {number}, Live events number → ∃ scope, register.get? number = some scope
  live : ∀ {number scope}, register.get? number = some scope → Live events number

namespace Tells

variable {operation : Operation} {answer : Answer}

theorem nothing (tells : Tells events register) (old : ∀ number, answer ≠ .made number)
    (kept : answer ≠ .dropped) : Tells (events ++ [(operation, answer)]) register where
  used member := tells.used (made_of_concat old member)
  gone member := tells.gone (dropped_of_concat kept member)
  once here there := tells.once (made_of_concat old here) (made_of_concat old there)
  alone := tells.alone
  path there := (tells.path there).mono (List.subset_append_left ..)
  present live := tells.present (live.earlier (live.made.imp fun _ => made_of_concat old))
  live there := (tells.live there).concat fun same => kept (Prod.mk.inj same).2.symm

theorem dropping (tells : Tells events register) (there : register.get? number = some scope) :
    Tells (events ++ [(.drop number, .dropped)]) (register.drop number) where
  used member := by
    rw [drop, List.length_set]
    exact tells.used (made_of_concat dropped_ne_made member)
  gone member := by
    rw [drop, List.length_set]
    obtain before | same := mem_concat.1 member
    · exact tells.gone before
    · cases same
      exact lt_of_get? there
  once here there :=
    tells.once (made_of_concat dropped_ne_made here) (made_of_concat dropped_ne_made there)
  alone left := tells.alone (get?_of_drop left).2
  path left := (tells.path (get?_of_drop left).2).mono (List.subset_append_left ..)
  present := by
    intro other live
    have different : number ≠ other := by
      rintro rfl
      exact live.kept (mem_concat.2 (.inr rfl))
    rw [get?_drop_ne different]
    exact tells.present
      (live.earlier (live.made.imp fun _ => made_of_concat dropped_ne_made))
  live left := by
    obtain ⟨different, before⟩ := get?_of_drop left
    refine (tells.live before).concat fun same => different ?_
    cases same
    rfl

/-- What was made before has a smaller number than what is made now. -/
theorem made_cases (tells : Tells events register) {first : Operation}
    (made : (first, .made number) ∈ events ++ [(operation, .made register.entries.length)]) :
    ((first, .made number) ∈ events ∧ number < register.entries.length) ∨
      (first = operation ∧ number = register.entries.length) := by
  obtain before | same := mem_concat.1 made
  · exact .inl ⟨before, tells.used before⟩
  · cases same
    exact .inr ⟨rfl, rfl⟩

theorem making (tells : Tells events register) (makes : register.Makes operation scope) :
    Tells (events ++ [(operation, .made register.entries.length)]) (register.add scope).2 where
  used made := by
    rw [add, List.length_append, List.length_singleton]
    obtain ⟨-, less⟩ | ⟨-, rfl⟩ := tells.made_cases made <;> omega
  gone dropped := by
    rw [add, List.length_append, List.length_singleton]
    have less := tells.gone (dropped_of_concat (dropped_ne_made _).symm dropped)
    omega
  once here there := by
    obtain ⟨one, less⟩ | ⟨rfl, rfl⟩ := tells.made_cases here <;>
      obtain ⟨other, small⟩ | ⟨rfl, same⟩ := tells.made_cases there
    · exact tells.once one other
    · omega
    · omega
    · rfl
  alone there := by
    obtain before | ⟨rfl, rfl⟩ := get?_of_add there
    · exact tells.alone before
    · cases makes with
      | root => rfl
      | rootBeside above | extension _ above =>
        have root := tells.alone above
        exact root
  path there := by
    have last : (operation, .made register.entries.length) ∈
        events ++ [(operation, .made register.entries.length)] :=
      mem_concat.2 (.inr rfl)
    obtain before | ⟨rfl, rfl⟩ := get?_of_add there
    · exact (tells.path before).mono (List.subset_append_left ..)
    · -- Whatever is extended is on its own path already.
      cases makes with
      | root => exact .root last .root
      | rootBeside => exact .root last .rootBeside
      | extension onto above =>
        exact .extension last onto ((tells.path above).mono (List.subset_append_left ..))
  present := by
    intro number live
    obtain ⟨first, made⟩ := live.made
    obtain ⟨before, -⟩ | ⟨rfl, rfl⟩ := tells.made_cases made
    · obtain ⟨present, there⟩ := tells.present (live.earlier ⟨first, before⟩)
      exact ⟨present, get?_add there scope⟩
    · exact ⟨scope, get?_add_new scope⟩
  live there := by
    obtain before | ⟨rfl, rfl⟩ := get?_of_add there
    · exact (tells.live before).concat fun same => dropped_ne_made _ (Prod.mk.inj same).2
    · -- The number has not been given before, so no scope with it has been dropped.
      refine ⟨⟨operation, mem_concat.2 (.inr rfl)⟩, fun gone => ?_⟩
      have less := tells.gone (dropped_of_concat (dropped_ne_made _).symm gone)
      exact Nat.lt_irrefl _ less

/-- Whatever an operation does, its answer tells it. -/
theorem perform (tells : Tells events register) (operation : Operation) :
    Tells (events ++ [(operation, (register.perform operation).1)])
      (register.perform operation).2 := by
  have does := register.perform_does operation
  generalize register.perform operation = result at does
  cases does with
  | making makes => exact tells.making makes
  | dropping there => exact tells.dropping there
  | nothing old kept => exact tells.nothing old kept

theorem record (tells : Tells events register) (operations : List Operation) :
    Tells (events ++ register.record operations) (register.after operations) := by
  induction operations generalizing events register with
  | nil =>
    rw [Register.record, List.append_nil]
    exact tells
  | cons operation operations ih =>
    rw [Register.record, List.append_cons]
    exact ih (tells.perform operation)

/-- In the beginning a scope without bindings is made. -/
theorem start : Tells [(.root, .made 0)] (start : Register β) :=
  have empty : Tells [] (⟨[]⟩ : Register β) :=
    ⟨nofun, nofun, nofun, nofun, nofun, nofun, nofun⟩
  empty.making .root

end Tells

theorem tells_history (β : Type) (operations : List Operation) :
    Tells (history β operations) ((start : Register β).after operations) :=
  Tells.start.record operations

end Register

end Stencil.Scope
