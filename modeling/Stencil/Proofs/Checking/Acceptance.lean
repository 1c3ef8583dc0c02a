import Stencil.Proofs.Checking.FirstViolation

/-! # Well-formed templates are those that compile

The checks of a template all hold if and only if the template is well-formed, construct by
construct.  So compilation accepts the well-formed templates and no others, and whatever it
refuses has a first violation, which is what it tells.
-/

namespace Stencil.Program

open Template (Fragment Node Document)
open Host (Interpretation)

variable {σ : Type} {interpretation : Interpretation σ} {size : Nat}

/-! ## Single checks -/

section Checks

@[simp]
theorem Check.member_holds {found : Template.Tag} {place : Place} :
    (Check.member found place).Holds interpretation size ↔ found = .line := by
  simp [Check.holds_iff, Check.violation?]

@[simp]
theorem Check.child_holds {found : Template.Tag} :
    (Check.child found).Holds interpretation size ↔ found ≠ .line := by
  simp [Check.holds_iff, Check.violation?]

@[simp]
theorem Check.target_holds {id : DocId} :
    (Check.target id).Holds interpretation size ↔ id.index < size := by
  simp [Check.holds_iff, Check.violation?]

@[simp]
theorem Check.taken_holds {fragment : Fragment} :
    (Check.taken fragment).Holds interpretation size ↔
      ∃ callable, interpretation fragment = .ok callable := by
  simp [Check.holds_iff, Check.violation?, refusal?_eq_none]

@[simp]
theorem Check.declared_holds {fragment : Fragment} {parameter : Host.Parameter} :
    (Check.declared fragment parameter).Holds interpretation size ↔
      parameter.name ∈ fragment.names := by
  simp [Check.holds_iff, Check.violation?]

@[simp]
theorem Check.bound_holds {scope : List String} {fragment : Fragment} {name : String} :
    (Check.bound scope fragment name).Holds interpretation size ↔ name ∈ scope := by
  simp [Check.holds_iff, Check.violation?]

end Checks

section Lists

variable (interpretation size)

/-- All checks of a list hold. -/
def AllHold (checks : List Check) : Prop :=
  ∀ check ∈ checks, check.Holds interpretation size

@[simp]
theorem allHold_nil : AllHold interpretation size [] := nofun

@[simp]
theorem allHold_cons {check : Check} {checks : List Check} :
    AllHold interpretation size (check :: checks) ↔
      check.Holds interpretation size ∧ AllHold interpretation size checks :=
  List.forall_mem_cons

@[simp]
theorem allHold_append {checks others : List Check} :
    AllHold interpretation size (checks ++ others) ↔
      AllHold interpretation size checks ∧ AllHold interpretation size others :=
  List.forall_mem_append

@[simp]
theorem allHold_flatMap {α : Type} {checks : α → List Check} {entries : List α} :
    AllHold interpretation size (entries.flatMap checks) ↔
      ∀ entry ∈ entries, AllHold interpretation size (checks entry) := by
  simp only [AllHold, List.mem_flatMap]
  exact ⟨fun all entry member check there => all check ⟨entry, member, there⟩,
    fun all check ⟨entry, member, there⟩ => all entry member check there⟩

end Lists

theorem readable_iff {scope : List String} {fragment : Fragment} :
    AllHold interpretation size (fragmentChecks interpretation scope fragment) ↔
      Readable interpretation scope fragment := by
  rw [fragmentChecks, parametersOf, allHold_cons, allHold_append, Check.taken_holds]
  constructor
  · rintro ⟨⟨callable, taken⟩, declared, bound⟩
    rw [taken] at declared
    refine ⟨⟨callable, taken⟩, fun other same parameter member => ?_, fun name member => ?_⟩
    -- The host gives one callable for a fragment.
    · cases taken.symm.trans same
      exact Check.declared_holds.1 (declared _ (List.mem_map_of_mem member))
    · exact Check.bound_holds.1 (bound _ (List.mem_map_of_mem member))
  · rintro ⟨⟨callable, taken⟩, declared, bound⟩
    rw [taken]
    refine ⟨⟨callable, rfl⟩, ?_, ?_⟩
    · refine List.forall_mem_map.2 fun parameter member => ?_
      exact Check.declared_holds.2 (declared callable taken parameter member)
    · refine List.forall_mem_map.2 fun name member => ?_
      exact Check.bound_holds.2 (bound name member)

/-! ## Constructs -/

mutual

theorem childFits_iff (scope : List String) : (node : Node) →
    (AllHold interpretation size (.child node.tag :: childChecks interpretation scope node) ↔
      ChildFits interpretation size scope node)
  | .line line => by
    rw [allHold_cons]
    exact ⟨fun ⟨noLine, _⟩ => absurd rfl (Check.child_holds.1 noLine), nofun⟩
  | .literal text => by
    simp only [childChecks, allHold_cons, Check.child_holds]
    exact ⟨fun _ => .literal text, fun _ => ⟨nofun, allHold_nil _ _⟩⟩
  | .slot name => by
    simp only [childChecks, allHold_cons, Check.child_holds]
    exact ⟨fun _ => .slot name, fun _ => ⟨nofun, allHold_nil _ _⟩⟩
  | .stray part => by
    simp only [childChecks, allHold_cons, Check.child_holds]
    exact ⟨fun _ => .stray part, fun _ => ⟨nofun, allHold_nil _ _⟩⟩
  | .expression kind fragment => by
    simp only [childChecks, allHold_cons, Check.child_holds, readable_iff]
    exact ⟨fun ⟨_, readable⟩ => .expression readable, fun (.expression readable) =>
      ⟨nofun, readable⟩⟩
  | .binding name fragment body => by
    simp only [childChecks, allHold_cons, allHold_append, allHold_flatMap, Check.child_holds,
      readable_iff, blockFits_iff _ _ body, Option.mem_toList]
    exact ⟨fun ⟨_, given, block⟩ => .binding given block, fun (.binding given block) =>
      ⟨nofun, given, block⟩⟩
  | .choice condition body otherwise => by
    simp only [childChecks, allHold_cons, allHold_append, Check.child_holds, readable_iff,
      blockFits_iff _ _ body, blockFits_iff _ _ otherwise]
    exact ⟨fun ⟨_, given, block, other⟩ => .choice given block other,
      fun (.choice given block other) => ⟨nofun, given, block, other⟩⟩
  | .loop item index iterable separator body fallback => by
    simp only [childChecks, allHold_cons, allHold_append, Check.child_holds, readable_iff,
      blockFits_iff _ _ body, blockFits_iff _ _ fallback]
    exact ⟨fun ⟨_, given, block, other⟩ => .loop given block other,
      fun (.loop given block other) => ⟨nofun, given, block, other⟩⟩
  | .transform fragment body => by
    simp only [childChecks, allHold_cons, allHold_append, Check.child_holds, readable_iff,
      blockFits_iff _ _ body]
    exact ⟨fun ⟨_, block, given⟩ => .transform block given, fun (.transform block given) =>
      ⟨nofun, block, given⟩⟩
  | .inclusion target forwards sections => by
    simp only [childChecks, allHold_cons, allHold_append, allHold_flatMap, Check.child_holds,
      Check.target_holds, readable_iff, sectionsFit_iff _ sections]
    exact ⟨fun ⟨_, known, given, parts⟩ => .inclusion known given parts,
      fun (.inclusion known given parts) => ⟨nofun, known, given, parts⟩⟩

theorem childrenFit_iff (scope : List String) : (children : List Node) →
    (AllHold interpretation size (childrenChecks interpretation scope children) ↔
      ∀ child ∈ children, ChildFits interpretation size scope child)
  | [] => by simp [childrenChecks]
  | child :: children => by
    rw [childrenChecks, ← List.cons_append, allHold_append, childFits_iff scope child,
      childrenFit_iff scope children, List.forall_mem_cons]

theorem lineFits_iff (scope : List String) : (line : Template.Line) →
    (AllHold interpretation size (lineChecks interpretation scope line) ↔
      MemberFits interpretation size scope (.line line))
  | ⟨children, isNewline, source, indentation⟩ => by
    rw [lineChecks, childrenFit_iff scope children]
    exact ⟨fun fit => .line fit, fun (.line fit) => fit⟩

theorem blockFits_iff (scope : List String) (place : Place) : (nodes : List Node) →
    (AllHold interpretation size (blockChecks interpretation scope place nodes) ↔
      ∀ node ∈ nodes, MemberFits interpretation size scope node)
  | [] => by simp [blockChecks]
  | .line line :: rest => by
    rw [blockChecks, allHold_cons, allHold_append, lineFits_iff scope line,
      blockFits_iff scope place rest, List.forall_mem_cons, Check.member_holds]
    exact and_iff_right rfl
  | .literal _ :: _ | .expression .. :: _ | .binding .. :: _ | .choice .. :: _ | .loop .. :: _
  | .transform .. :: _ | .inclusion .. :: _ | .slot _ :: _ | .stray _ :: _ => by
    rw [blockChecks, allHold_cons, List.forall_mem_cons, Check.member_holds]
    · exact ⟨nofun, nofun⟩
    · exact nofun

theorem sectionsFit_iff (scope : List String) : (sections : List Template.Section) →
    (AllHold interpretation size (sectionChecks interpretation scope sections) ↔
      ∀ part ∈ sections, ∀ node ∈ part.body, MemberFits interpretation size scope node)
  | [] => by simp [sectionChecks]
  | ⟨name, body⟩ :: rest => by
    rw [sectionChecks, allHold_append, blockFits_iff scope .part body, sectionsFit_iff scope rest,
      List.forall_mem_cons]

end

/-! ## Documents -/

theorem documentChecks_hold {position : Nat} {documents : List Document} :
    (∀ entry ∈ documentChecks interpretation position documents,
        entry.2.Holds interpretation size) ↔
      ∀ document ∈ documents, ∀ node ∈ document, MemberFits interpretation size [] node := by
  induction documents generalizing position with
  | nil => simp [documentChecks]
  | cons document documents ih =>
    rw [documentChecks, List.forall_mem_append, List.forall_mem_map, List.forall_mem_cons, ih,
      ← blockFits_iff [] .document document]
    rfl

/-- Compilation succeeds for the well-formed documents and no others.  Otherwise it fails with
the error for the first violation, whose kind and hint are those of the violation and whose
message says in which document it was found. -/
theorem compile_checks_exactly (interpretation : Interpretation σ) (documents : List Document) :
    ((∃ program, compile interpretation documents = .ok program) ↔
      WellFormed interpretation documents) ∧
    ∀ error, (∃ refusal, compile interpretation documents = .error refusal ∧
        refusal.toError = error) ↔
      ∃ id violation, FirstViolation interpretation documents id violation ∧
        error =
          { kind := violation.toError.kind
            message := "in document #" ++ toString id.index ++ ": " ++ violation.toError.message
            hint := violation.toError.hint } := by
  refine ⟨compile_eq_ok_iff.trans documentChecks_hold, fun error => ?_⟩
  simp only [compile_eq_error_iff]
  constructor
  · rintro ⟨⟨id, violation⟩, first, rfl⟩
    exact ⟨id, violation, first, rfl⟩
  · rintro ⟨id, violation, first, rfl⟩
    exact ⟨⟨id, violation⟩, first, rfl⟩

end Stencil.Program
