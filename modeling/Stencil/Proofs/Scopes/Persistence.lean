import Stencil.Proofs.Scopes.Histories
import Stencil.Proofs.Scopes.Shown

/-! # Scopes last

The path of a scope alone decides what names mean in it and what is shown of it.  As long as the
scope itself is not dropped, nothing that is done with others, whether it was made from them, they
from it, or both from a third one, changes what it answers.
-/

namespace Stencil

namespace Scope

variable {β : Type}

/-! ## What is found on a path -/

/-- What looking up a name has to give: the first value that the nearest frame with the name has
for it, and an error if there is no such frame. -/
inductive Found (path : List Frame) (name : String) : Except RenderError Value → Prop where
  | bound {inner outer : List Frame} {before after : Frame} {value : Value}
      (split : path = inner ++ (before ++ (name, value) :: after) :: outer)
      (nearest : ∀ frame ∈ inner, ∀ entry ∈ frame, entry.1 ≠ name)
      (first : ∀ entry ∈ before, entry.1 ≠ name) : Found path name (.ok value)
  | unbound (nowhere : ∀ frame ∈ path, ∀ entry ∈ frame, entry.1 ≠ name) :
      Found path name (.error (.unboundName name))

theorem Frame.lookup_eq_none {frame : Frame} {name : String} :
    frame.lookup name = none ↔ ∀ entry ∈ frame, entry.1 ≠ name := by
  rw [List.lookup_eq_none_iff]
  exact forall₂_congr fun entry _ => bne_iff_ne.trans ne_comm

/-- Where nothing is forwarded, a lookup gives what is to be found on the path. -/
theorem found_lookup {scope : Scope β} (alone : scope.context = .root) (name : String) :
    Found scope.path name (scope.lookup name) := by
  have nothing : scope.context.forwarded? name = none := by
    rw [alone]
    rfl
  rw [lookup, find?, nothing, Option.or_none]
  cases found : scope.frames.findSome? (·.lookup name) with
  | some value =>
    obtain ⟨inner, frame, outer, split, there, others⟩ := List.findSome?_eq_some_iff.1 found
    obtain ⟨before, after, rfl, earlier⟩ := List.lookup_eq_some_iff.1 there
    have place : scope.path = inner ++ (before ++ (name, value) :: after) :: (outer ++ [[]]) := by
      rw [path, split, List.append_assoc, List.cons_append]
    exact .bound place (fun frame member => Frame.lookup_eq_none.1 (others frame member))
      fun entry member => (bne_iff_ne.1 (earlier entry member)).symm
  | none =>
    refine .unbound fun frame member => ?_
    obtain inside | last := List.mem_append.1 member
    · exact Frame.lookup_eq_none.1 (List.findSome?_eq_none_iff.1 found frame inside)
    · cases List.mem_singleton.1 last
      nofun

theorem inspect_path (scope : Scope β) :
    scope.inspect = shownNames (scope.path.map (·.map (·.1))) := by
  rw [path, List.map_append]
  rfl

namespace Register

variable {register : Register β} {scope : Scope β} {number : Nat} {operations : List Operation}

/-! ## What a scope answers -/

/-- After some operations a scope is there with a path of its own, by which it answers, and from
which further scopes can be made. -/
structure Stands (β : Type) (operations : List Operation) (number : Nat) (path : List Frame) :
    Prop where
  live : Live (history β operations) number
  path_iff : ∀ other, Path (history β operations) number other ↔ other = path
  found : ∀ name, ∃ value, answer β operations (.lookup number name) = .found value ∧
    Found path name value
  shown : ∃ text, answer β operations (.inspect number) = .shown text ∧
    ∀ names, shownNames names = text ↔ names = path.map (·.map (·.1))
  makes : ∀ operation, operation = .root ∨ operation = .rootBeside number ∨
      (∃ frame, operation.Extends number frame) →
    ∃ new, answer β operations operation = .made new ∧
      Live (history β (operations ++ [operation])) new

theorem answer_lookup (there : ((start : Register β).after operations).get? number = some scope)
    (name : String) : answer β operations (.lookup number name) = .found (scope.lookup name) := by
  rw [answer, perform, there]

theorem answer_inspect (there : ((start : Register β).after operations).get? number = some scope) :
    answer β operations (.inspect number) = .shown scope.inspect := by
  rw [answer, perform, there]

/-- What an operation makes is there afterwards. -/
theorem live_of_makes {operation : Operation}
    (makes : ((start : Register β).after operations).Makes operation scope) :
    ∃ new, answer β operations operation = .made new ∧
      Live (history β (operations ++ [operation])) new := by
  have there : ((start : Register β).after (operations ++ [operation])).get?
      ((start : Register β).after operations).entries.length = some scope := by
    rw [after_append]
    change (((start : Register β).after operations).perform operation).2.get? _ = some scope
    rw [perform_of_makes makes, get?_add_new]
  exact ⟨_, congrArg Prod.fst (perform_of_makes makes),
    (tells_history β (operations ++ [operation])).live there⟩

theorem stands_of_get? (there : ((start : Register β).after operations).get? number = some scope) :
    Stands β operations number scope.path where
  live := (tells_history β operations).live there
  path_iff other := by
    have tells := tells_history β operations
    constructor
    · exact fun here => here.unique tells.once (tells.path there)
    · rintro rfl
      exact tells.path there
  found name :=
    ⟨_, answer_lookup there name, found_lookup ((tells_history β operations).alone there) name⟩
  shown := by
    refine ⟨_, answer_inspect there, fun names => ?_⟩
    rw [inspect_path]
    exact shownNames_inj
  makes := by
    rintro operation (rfl | rfl | ⟨frame, onto⟩)
    · exact live_of_makes .root
    · exact live_of_makes (.rootBeside there)
    · exact live_of_makes (.extension onto there)

end Register

end Scope

open Scope (Found)
open Scope.Register (Operation Live Path Stands history answer)

/-- Scopes last.  Whatever has been done, a scope that was made and has not been dropped has one
path: the frames of the scopes that it was made from, the innermost first.  A name means there what
the nearest frame with the name says in its first place, or it is not bound at all, and the frames
that are shown are those of the path.  All this stays so, and the scope can be extended, until the
scope itself is dropped. -/
theorem scopes_persist (β : Type) (past : List Operation) {number : Nat}
    (live : Live (history β past) number) :
    ∃ path, Stands β past number path ∧
      ∀ later, Operation.drop number ∉ later →
        Stands β (past ++ later) number path ∧
          (∀ name, answer β (past ++ later) (.lookup number name) =
            answer β past (.lookup number name)) ∧
          answer β (past ++ later) (.inspect number) = answer β past (.inspect number) := by
  obtain ⟨scope, there⟩ := (Scope.Register.tells_history β past).present live
  refine ⟨scope.path, Scope.Register.stands_of_get? there, fun later kept => ?_⟩
  have still : ((Scope.Register.start : Scope.Register β).after (past ++ later)).get? number =
      some scope := by
    rw [Scope.Register.after_append]
    exact Scope.Register.get?_after there kept
  refine ⟨Scope.Register.stands_of_get? still, fun name => ?_, ?_⟩
  · rw [Scope.Register.answer_lookup still, Scope.Register.answer_lookup there]
  · rw [Scope.Register.answer_inspect still, Scope.Register.answer_inspect there]

/-- Scope 2 binds one name twice, and shares scope 1 with scope 3.  Scope 1 is dropped. -/
def sharingSteps : List Operation :=
  [.extend 0 "a" (.text "1"), .extendTwo 1 "b" (.text "2") "b" (.text "3"),
    .extend 1 "a" (.text "4"), .drop 1, .root]

/-- Scope 2 is extended, its sibling is asked and then dropped, and so is the first scope. -/
def laterSteps : List Operation :=
  [.extend 2 "a" (.text "5"), .lookup 3 "a", .drop 3, .drop 0, .rootBeside 2]

/-- What is shared outlives the scope that brought it in. -/
theorem shared_frames_persist :
    Live (history Unit sharingSteps) 2 ∧
      Operation.drop 2 ∉ laterSteps ∧
      Stands Unit (sharingSteps ++ laterSteps) 2
        [[("b", .text "2"), ("b", .text "3")], [("a", .text "1")], []] ∧
      answer Unit (sharingSteps ++ laterSteps) (.lookup 2 "b") = .found (.ok (.text "2")) ∧
      answer Unit (sharingSteps ++ laterSteps) (.lookup 2 "a") = .found (.ok (.text "1")) ∧
      answer Unit (sharingSteps ++ laterSteps) (.lookup 2 "c") =
        .found (.error (.unboundName "c")) := by
  have events : history Unit sharingSteps =
      [(.root, .made 0), (.extend 0 "a" (.text "1"), .made 1),
        (.extendTwo 1 "b" (.text "2") "b" (.text "3"), .made 2),
        (.extend 1 "a" (.text "4"), .made 3), (.drop 1, .dropped), (.root, .made 4)] :=
    rfl
  have live : Live (history Unit sharingSteps) 2 := by
    rw [events]
    exact ⟨⟨.extendTwo 1 "b" (.text "2") "b" (.text "3"), by simp⟩, by simp⟩
  have kept : Operation.drop 2 ∉ laterSteps := by simp [laterSteps]
  obtain ⟨path, stands, lasts⟩ := scopes_persist Unit sharingSteps live
  obtain ⟨still, names, -⟩ := lasts laterSteps kept
  have root : Path (history Unit sharingSteps) 0 [[]] := by
    rw [events]
    exact .root (by simp) .root
  have above : Path (history Unit sharingSteps) 1 [[("a", .text "1")], []] := by
    rw [events] at root ⊢
    exact .extension (by simp) .one root
  have own : Path (history Unit sharingSteps) 2
      [[("b", .text "2"), ("b", .text "3")], [("a", .text "1")], []] := by
    rw [events] at above ⊢
    exact .extension (by simp) .two above
  cases (stands.path_iff _).1 own
  exact ⟨live, kept, still, names "b", names "a", names "c"⟩

end Stencil
