import Stencil.Scope.Register

/-! # Operations on scopes

Scopes of one context are made, asked and dropped in any order.  Whatever an operation is, it does
one of three things: it adds a scope to the register, it drops one, or it leaves the register as it
is.  So a scope stays what it is until it is dropped itself.
-/

namespace Stencil.Scope.Register

variable {β : Type}

/-! ## Operations -/

/-- What may be done with scopes that share a context.  They are given by their numbers. -/
inductive Operation where
  /-- Makes a scope without bindings from the context itself. -/
  | root
  /-- Makes a scope without bindings from the context of another one. -/
  | rootBeside (scope : Nat)
  | extend (scope : Nat) (name : String) (value : Value)
  | extendTwo (scope : Nat) (first : String) (one : Value) (second : String) (other : Value)
  | lookup (scope : Nat) (name : String)
  | inspect (scope : Nat)
  | drop (scope : Nat)

inductive Answer where
  /-- There is a new scope, with this number. -/
  | made (scope : Nat)
  | found (value : Except RenderError Value)
  | shown (frames : String)
  | dropped
  /-- There is no scope with the number, or not any more. -/
  | missing

/-- What has been done, and how it was answered. -/
abbrev Event := Operation × Answer

inductive Operation.IsRoot : Operation → Prop where
  | root : IsRoot .root
  | rootBeside {scope : Nat} : IsRoot (.rootBeside scope)

/-- The operation extends a scope by a frame. -/
inductive Operation.Extends : Operation → Nat → Frame → Prop where
  | one {scope : Nat} {name : String} {value : Value} :
      Extends (.extend scope name value) scope [(name, value)]
  | two {scope : Nat} {first second : String} {one other : Value} :
      Extends (.extendTwo scope first one second other) scope [(first, one), (second, other)]

/-- A register with a new scope, if there is one, and the scope's number. -/
def announce (register : Register β) : Option (Nat × Register β) → Answer × Register β
  | some (number, after) => (.made number, after)
  | none => (.missing, register)

/-- Carries out an operation.  One on a scope that is not there does nothing. -/
def perform (register : Register β) : Operation → Answer × Register β
  | .root => register.announce (register.add (.root .root))
  | .rootBeside number => register.announce (register.root? number)
  | .extend number name value => register.announce (register.extend? number [(name, value)])
  | .extendTwo number first one second other =>
    register.announce (register.extend? number [(first, one), (second, other)])
  | .lookup number name =>
    match register.get? number with
    | some scope => (.found (scope.lookup name), register)
    | none => (.missing, register)
  | .inspect number =>
    match register.get? number with
    | some scope => (.shown scope.inspect, register)
    | none => (.missing, register)
  | .drop number =>
    match register.get? number with
    | some _ => (.dropped, register.drop number)
    | none => (.missing, register)

def after (register : Register β) (operations : List Operation) : Register β :=
  operations.foldl (fun register operation => (register.perform operation).2) register

def record : Register β → List Operation → List Event
  | _, [] => []
  | register, operation :: operations =>
    (operation, (register.perform operation).1) ::
      (register.perform operation).2.record operations

/-- Everything that has been done, from the first scope on. -/
def history (β : Type) (operations : List Operation) : List Event :=
  (.root, .made 0) :: (start : Register β).record operations

/-- The answer to an operation after all those before it. -/
def answer (β : Type) (operations : List Operation) (operation : Operation) : Answer :=
  (((start : Register β).after operations).perform operation).1

/-! ## What an operation does -/

variable {register : Register β} {scope : Scope β} {number : Nat}

theorem get?_eq_some :
    register.get? number = some scope ↔ register.entries[number]? = some (some scope) :=
  Option.join_eq_some_iff

theorem lt_of_get? (there : register.get? number = some scope) :
    number < register.entries.length :=
  (List.getElem?_eq_some_iff.1 (get?_eq_some.1 there)).1

theorem get?_add (there : register.get? number = some scope) (new : Scope β) :
    (register.add new).2.get? number = some scope := by
  rw [get?_eq_some] at there ⊢
  exact (List.getElem?_append_left (List.getElem?_eq_some_iff.1 there).1).trans there

theorem get?_add_new (new : Scope β) :
    (register.add new).2.get? register.entries.length = some new := by
  rw [get?_eq_some]
  exact List.getElem?_concat_length

theorem get?_drop_ne {other : Nat} (different : other ≠ number) :
    (register.drop other).get? number = register.get? number :=
  congrArg Option.join (List.getElem?_set_ne different)

theorem get?_drop : (register.drop number).get? number = none := by
  rw [get?, drop, List.getElem?_set_self']
  cases register.entries[number]? <;> rfl

theorem get?_of_add {new : Scope β} (there : (register.add new).2.get? number = some scope) :
    register.get? number = some scope ∨ (number = register.entries.length ∧ scope = new) := by
  rw [get?_eq_some] at there ⊢
  obtain less | rfl | more := Nat.lt_trichotomy number register.entries.length
  · exact .inl ((List.getElem?_append_left less).symm.trans there)
  · cases List.getElem?_concat_length.symm.trans there
    exact .inr ⟨rfl, rfl⟩
  · have outside : number < (register.add new).2.entries.length :=
      (List.getElem?_eq_some_iff.1 there).1
    rw [add, List.length_append, List.length_singleton] at outside
    omega

theorem get?_of_drop {other : Nat} (there : (register.drop other).get? number = some scope) :
    other ≠ number ∧ register.get? number = some scope := by
  have different : other ≠ number := by
    rintro rfl
    cases get?_drop.symm.trans there
  exact ⟨different, get?_drop_ne different ▸ there⟩

/-- The scope that an operation makes. -/
inductive Makes (register : Register β) : Operation → Scope β → Prop where
  | root : Makes register .root (.root .root)
  | rootBeside {number : Nat} {above : Scope β} (there : register.get? number = some above) :
      Makes register (.rootBeside number) (.root above.context)
  | extension {operation : Operation} {parent : Nat} {frame : Frame} {above : Scope β}
      (onto : operation.Extends parent frame) (there : register.get? parent = some above) :
      Makes register operation (above.extend frame)

/-- All that an operation can do: it makes a scope, it drops one, or it leaves the register as it
is. -/
inductive Does (register : Register β) : Operation → Answer × Register β → Prop where
  | making {operation : Operation} {scope : Scope β} (makes : register.Makes operation scope) :
      Does register operation (.made register.entries.length, (register.add scope).2)
  | dropping {number : Nat} {scope : Scope β} (there : register.get? number = some scope) :
      Does register (.drop number) (.dropped, register.drop number)
  | nothing {operation : Operation} {answer : Answer} (old : ∀ number, answer ≠ .made number)
      (kept : answer ≠ .dropped) : Does register operation (answer, register)

theorem perform_of_makes {operation : Operation} (makes : register.Makes operation scope) :
    register.perform operation = (.made register.entries.length, (register.add scope).2) := by
  cases makes with
  | root => rfl
  | rootBeside there =>
    rw [perform, root?, there]
    rfl
  | extension onto there =>
    cases onto <;> rw [perform, extend?, there] <;> rfl

/-- Without the scope that it needs, an operation does nothing. -/
theorem Does.missing (operation : Operation) : register.Does operation (.missing, register) :=
  .nothing nofun nofun

theorem extension_does {operation : Operation} {number : Nat} {frame : Frame}
    (onto : operation.Extends number frame) :
    register.Does operation (register.perform operation) := by
  cases there : register.get? number with
  | some above =>
    rw [perform_of_makes (.extension onto there)]
    exact .making (.extension onto there)
  | none =>
    cases onto <;> rw [perform, extend?, there] <;> exact .missing _

theorem perform_does (register : Register β) (operation : Operation) :
    register.Does operation (register.perform operation) := by
  cases operation with
  | root => exact .making .root
  | rootBeside number =>
    cases there : register.get? number with
    | some above =>
      rw [perform_of_makes (.rootBeside there)]
      exact .making (.rootBeside there)
    | none =>
      rw [perform, root?, there]
      exact .missing _
  | extend => exact extension_does .one
  | extendTwo => exact extension_does .two
  | lookup number | inspect number =>
    rw [perform]
    cases register.get? number with
    | some scope => exact .nothing nofun nofun
    | none => exact .missing _
  | drop number =>
    rw [perform]
    cases there : register.get? number with
    | some scope => exact .dropping there
    | none => exact .missing _

/-- Whatever is done but to drop it, a scope stays what it is. -/
theorem get?_perform (there : register.get? number = some scope) {operation : Operation}
    (other : operation ≠ .drop number) :
    (register.perform operation).2.get? number = some scope := by
  have does := register.perform_does operation
  generalize register.perform operation = result at does
  cases does with
  | making => exact get?_add there _
  | @dropping dropped =>
    have different : dropped ≠ number := fun same => other (congrArg Operation.drop same)
    rw [get?_drop_ne different, there]
  | nothing => exact there

theorem get?_after (there : register.get? number = some scope) {operations : List Operation}
    (kept : Operation.drop number ∉ operations) :
    (register.after operations).get? number = some scope := by
  induction operations generalizing register with
  | nil => exact there
  | cons operation operations ih =>
    obtain ⟨here, later⟩ := not_or.1 (mt List.mem_cons.2 kept)
    exact ih (get?_perform there (Ne.symm here)) later

theorem after_append (past later : List Operation) :
    register.after (past ++ later) = (register.after past).after later :=
  List.foldl_append

end Stencil.Scope.Register
