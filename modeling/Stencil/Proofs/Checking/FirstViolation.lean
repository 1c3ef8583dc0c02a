import Stencil.Proofs.Checking.Checks
import Stencil.Proofs.Lexical.Compiled

/-! # Compilation refuses exactly what is not well-formed

The checks of a template can be run one after another, and compiling it fails with what the first
failing check objects to.  This goes construct by construct: a construct is refused for the first
violation of its parts, in the order in which it compiles them.  A template without a violation
is one whose parts are all well-formed in their scope.
-/

namespace Stencil.Program

open Template (Fragment Node Document)
open Host (Interpretation Parameter)

variable {σ : Type} {interpretation : Interpretation σ} {size : Nat}

/-! ## Errors of computations in order -/

/-- The error a computation ends with. -/
def refusal? {ε α : Type} : Except ε α → Option ε
  | .ok _ => none
  | .error error => some error

section Refusals

variable {ε ε' α γ : Type} {first : Except ε α}

theorem refusal?_eq_some {error : ε} : refusal? first = some error ↔ first = .error error := by
  cases first <;> simp [refusal?]

theorem refusal?_eq_none : refusal? first = none ↔ ∃ value, first = .ok value := by
  cases first <;> simp [refusal?]

@[simp]
theorem refusal?_pure (value : α) : refusal? (pure value : Except ε α) = none := rfl

@[simp]
theorem refusal?_map (change : α → γ) : refusal? (change <$> first) = refusal? first := by
  cases first <;> rfl

theorem refusal?_mapError (change : ε → ε') :
    refusal? (first.mapError change) = (refusal? first).map change := by
  cases first <;> rfl

/-- Of two computations in order, the second is only asked where the first has not failed. -/
theorem refusal?_bind {next : α → Except ε γ} {second : Option ε}
    (follows : ∀ value, refusal? (next value) = second) :
    refusal? (first >>= next) = (refusal? first).or second := by
  cases first with
  | error error => rfl
  | ok value => exact follows value

/-- What is refused of two computations whose results are put together. -/
theorem refusal?_both {α β γ : Type} {one : Except ε α} {two : Except ε β} {give : α → β → γ} :
    refusal? (do
      let first ← one
      let second ← two
      return give first second) = (refusal? one).or (refusal? two) :=
  refusal?_bind fun _ => refusal?_map _

/-- What is refused of three. -/
theorem refusal?_all {α β δ γ : Type} {one : Except ε α} {two : Except ε β}
    {three : Except ε δ} {give : α → β → δ → γ} :
    refusal? (do
      let first ← one
      let second ← two
      let third ← three
      return give first second third) =
      (refusal? one).or ((refusal? two).or (refusal? three)) :=
  refusal?_bind fun _ => refusal?_both

theorem refusal?_mapM {α γ : Type} (act : α → Except ε γ) (entries : List α) :
    refusal? (entries.mapM act) = entries.findSome? (refusal? <| act ·) := by
  induction entries with
  | nil => rfl
  | cons entry entries ih =>
    rw [List.mapM_cons, List.findSome?_cons, refusal?_both, ih]
    cases refusal? (act entry) <;> rfl

end Refusals

/-! ## Running a check -/

section Running

variable (interpretation size)

/-- What a check objects to, if anything. -/
def Check.violation? : Check → Option Violation
  | .member found place => if found = .line then none else some (.foreign found place)
  | .child found => if found = .line then some .nestedLine else none
  | .target id => if size ≤ id.index then some (.unknownTarget id) else none
  | .taken fragment => (refusal? (interpretation fragment)).map .refused
  | .declared fragment parameter =>
    if parameter.name ∈ fragment.names then none
    else some (.undeclared parameter.name fragment.source)
  | .bound scope fragment name =>
    if name ∈ scope then none else some (.unbound name fragment.source)

end Running

theorem Check.failsWith_iff {check : Check} {violation : Violation} :
    check.FailsWith interpretation size violation ↔
      check.violation? interpretation size = some violation := by
  constructor
  · rintro (⟨foreign⟩ | _ | ⟨unknown⟩ | ⟨refused⟩ | ⟨missing⟩ | ⟨missing⟩)
    · exact if_neg foreign
    · rfl
    · exact if_pos unknown
    · exact congrArg (Option.map _) (refusal?_eq_some.2 refused)
    · exact if_neg missing
    · exact if_neg missing
  · intro objects
    cases check with
    | member found place =>
      obtain ⟨foreign, ⟨⟩⟩ := Option.ite_none_left_eq_some.1 objects
      exact .member foreign
    | child found =>
      obtain ⟨rfl, ⟨⟩⟩ := Option.ite_none_right_eq_some.1 objects
      exact .child
    | target id =>
      obtain ⟨unknown, ⟨⟩⟩ := Option.ite_none_right_eq_some.1 objects
      exact .target unknown
    | taken fragment =>
      obtain ⟨error, refused, rfl⟩ := Option.map_eq_some_iff.1 objects
      exact .taken (refusal?_eq_some.1 refused)
    | declared fragment parameter =>
      obtain ⟨missing, ⟨⟩⟩ := Option.ite_none_left_eq_some.1 objects
      exact .declared missing
    | bound scope fragment name =>
      obtain ⟨missing, ⟨⟩⟩ := Option.ite_none_left_eq_some.1 objects
      exact .bound missing

theorem Check.holds_iff {check : Check} :
    check.Holds interpretation size ↔ check.violation? interpretation size = none := by
  simp only [Check.Holds, Check.failsWith_iff, Option.eq_none_iff_forall_ne_some]

section Objections

variable (interpretation size)

/-- What the first failing one of some checks objects to. -/
def firstObjection (checks : List Check) : Option Violation :=
  checks.findSome? (·.violation? interpretation size)

theorem firstObjection_cons (check : Check) (checks : List Check) :
    firstObjection interpretation size (check :: checks) =
      (check.violation? interpretation size).or (firstObjection interpretation size checks) := by
  rw [firstObjection, List.findSome?_cons]
  cases check.violation? interpretation size <;> rfl

theorem firstObjection_append (checks others : List Check) :
    firstObjection interpretation size (checks ++ others) =
      (firstObjection interpretation size checks).or
        (firstObjection interpretation size others) :=
  List.findSome?_append

theorem firstObjection_flatMap {α : Type} (checks : α → List Check) (entries : List α) :
    firstObjection interpretation size (entries.flatMap checks) =
      entries.findSome? (firstObjection interpretation size <| checks ·) := by
  induction entries with
  | nil => rfl
  | cons entry entries ih =>
    rw [List.flatMap_cons, firstObjection_append, List.findSome?_cons, ih]
    cases firstObjection interpretation size (checks entry) <;> rfl

end Objections

/-! ## Names and fragments -/

/-- A name has an address if it is in one of the frames. -/
theorem Names.resolve?_isSome {names : Names} {name : String} :
    (names.resolve? name).isSome ↔ name ∈ names.flatten := by
  induction names with
  | nil => simp [Names.resolve?]
  | cons frame outer ih =>
    rw [Names.resolve?, List.flatten_cons, List.mem_append, ← ih, ← List.isSome_idxOf?]
    cases frame.idxOf? name <;> simp

section Fragments

variable (interpretation size)

theorem refusal?_resolveName (names : Names) (fragment : Fragment) (name : String) :
    refusal? (resolveName names fragment.source name) =
      (Check.bound names.flatten fragment name).violation? interpretation size := by
  rw [resolveName, Check.violation?]
  by_cases present : name ∈ names.flatten
  · obtain ⟨address, found⟩ := Option.isSome_iff_exists.1 (Names.resolve?_isSome.2 present)
    rw [if_pos present, found]
    rfl
  · have missing : names.resolve? name = none := by
      rwa [← Names.resolve?_isSome, Option.not_isSome_iff_eq_none] at present
    rw [if_neg present, missing]
    rfl

theorem refusal?_placeParameter (fragment : Fragment) (parameter : Parameter) :
    refusal? (placeParameter fragment parameter) =
      (Check.declared fragment parameter).violation? interpretation size := by
  rw [placeParameter, Check.violation?]
  by_cases declared : parameter.name ∈ fragment.names
  · obtain ⟨place, found⟩ := Option.isSome_iff_exists.1 (List.isSome_idxOf?.2 declared)
    rw [if_pos declared, found]
    rfl
  · rw [if_neg declared, List.idxOf?_eq_none_iff.2 declared]
    rfl

theorem refusal?_compileFragment (names : Names) (fragment : Fragment) :
    refusal? (compileFragment interpretation names fragment) =
      firstObjection interpretation size
        (fragmentChecks interpretation names.flatten fragment) := by
  rw [compileFragment, fragmentChecks, firstObjection_cons, firstObjection_append,
    Check.violation?, parametersOf]
  cases taken : interpretation fragment with
  | error error => rfl
  | ok callable =>
    have places : refusal? (callable.signature.parameters.mapM (placeParameter fragment)) =
        firstObjection interpretation size
          (callable.signature.parameters.map (.declared fragment)) := by
      rw [refusal?_mapM, firstObjection, List.findSome?_map]
      refine congrArg (callable.signature.parameters.findSome? ·) (funext fun parameter => ?_)
      exact refusal?_placeParameter interpretation size fragment parameter
    have reads : refusal? (fragment.names.mapM (resolveName names fragment.source)) =
        firstObjection interpretation size
          (fragment.names.map (.bound names.flatten fragment)) := by
      rw [refusal?_mapM, firstObjection, List.findSome?_map]
      refine congrArg (fragment.names.findSome? ·) (funext fun name => ?_)
      exact refusal?_resolveName interpretation size names fragment name
    refine refusal?_both.trans ?_
    rw [places, reads]
    rfl

theorem refusal?_compileFragment? (names : Names) (fragment : Option Fragment) :
    refusal? (compileFragment? interpretation names fragment) =
      firstObjection interpretation size
        (fragment.toList.flatMap (fragmentChecks interpretation names.flatten)) := by
  cases fragment with
  | none => rfl
  | some fragment =>
    rw [compileFragment?, refusal?_map, refusal?_compileFragment interpretation size,
      Option.toList_some, List.flatMap_singleton]

theorem refusal?_compileForwards (names : Names) (forwards : List (String × Fragment)) :
    refusal? (forwards.mapM (compileForward interpretation names)) =
      firstObjection interpretation size
        (forwards.flatMap (fragmentChecks interpretation names.flatten ·.2)) := by
  rw [refusal?_mapM, firstObjection_flatMap]
  refine congrArg (forwards.findSome? ·) (funext fun forward => ?_)
  rw [compileForward, refusal?_map, refusal?_compileFragment interpretation size]

end Fragments

/-! ## Constructs -/

mutual

theorem refusal?_compileNode (names : Names) : (node : Node) → (∀ part, node ≠ .stray part) →
    refusal? (compileNode interpretation size names node) =
      firstObjection interpretation size
        (.child node.tag :: childChecks interpretation names.flatten node)
  | .line _, _ => rfl
  | .stray part, kept => absurd rfl (kept part)
  | .literal _, _ => rfl
  | .expression _ fragment, _ => by
    rw [compileNode, refusal?_map, refusal?_compileFragment interpretation size]
    rfl
  | .binding name fragment body, _ => by
    refine refusal?_both.trans ?_
    rw [refusal?_compileFragment? interpretation size, refusal?_compileBlock _ _ body,
      ← firstObjection_append]
    rfl
  | .choice condition body otherwise, _ => by
    refine refusal?_all.trans ?_
    rw [refusal?_compileFragment interpretation size, refusal?_compileBlock _ _ body,
      refusal?_compileBlock _ _ otherwise, ← firstObjection_append, ← firstObjection_append]
    rfl
  | .loop item index iterable separator body fallback, _ => by
    refine refusal?_all.trans ?_
    rw [refusal?_compileFragment interpretation size, refusal?_compileBlock _ _ body,
      refusal?_compileBlock _ _ fallback, ← firstObjection_append, ← firstObjection_append]
    rfl
  | .transform fragment body, _ => by
    refine refusal?_both.trans ?_
    -- The block comes first here, and the name of the block is in scope for the fragment alone.
    rw [refusal?_compileFragment interpretation size, refusal?_compileBlock _ _ body,
      ← firstObjection_append]
    rfl
  | .inclusion target forwards sections, _ => by
    have noLine : (Check.child (Node.inclusion target forwards sections).tag).violation?
        interpretation size = none := rfl
    rw [compileNode, childChecks, firstObjection_cons, firstObjection_cons, noLine,
      Option.none_or, Check.violation?]
    -- An unknown target is objected to before anything else is looked at.
    by_cases unknown : size ≤ target.index
    · rw [if_pos unknown, if_pos unknown]
      rfl
    · rw [if_neg unknown, if_neg unknown, Option.none_or, firstObjection_append]
      refine refusal?_both.trans ?_
      rw [refusal?_compileForwards interpretation size, refusal?_compileSections _ sections]
  | .slot _, _ => rfl

theorem refusal?_compileChildren (names : Names) : (children : List Node) →
    refusal? (compileChildren interpretation size names children) =
      firstObjection interpretation size (childrenChecks interpretation names.flatten children)
  | [] => rfl
  | child :: children => by
    by_cases stray : ∃ part, child = .stray part
    -- A stray section is no line, and it is not looked into.
    · obtain ⟨part, rfl⟩ := stray
      exact refusal?_compileChildren names children
    · rw [compileChildren_cons stray]
      refine refusal?_both.trans ?_
      rw [refusal?_compileNode _ child (not_exists.1 stray), refusal?_compileChildren _ children,
        ← firstObjection_append]
      rfl

theorem refusal?_compileLine (names : Names) : (line : Template.Line) →
    refusal? (compileLine interpretation size names line) =
      firstObjection interpretation size (lineChecks interpretation names.flatten line)
  | ⟨children, isNewline, source, indentation⟩ => by
    refine (refusal?_bind fun _ => refusal?_pure _).trans ?_
    rw [refusal?_compileChildren _ children, Option.or_none, lineChecks]

theorem refusal?_compileBlock (names : Names) (place : Place) : (nodes : List Node) →
    refusal? (compileBlock interpretation size names place nodes) =
      firstObjection interpretation size (blockChecks interpretation names.flatten place nodes)
  | [] => rfl
  | .line line :: rest => by
    refine refusal?_both.trans ?_
    rw [refusal?_compileLine _ line, refusal?_compileBlock _ _ rest, ← firstObjection_append]
    rfl
  | .literal _ :: _ | .expression .. :: _ | .binding .. :: _ | .choice .. :: _ | .loop .. :: _
  | .transform .. :: _ | .inclusion .. :: _ | .slot _ :: _ | .stray _ :: _ => rfl

theorem refusal?_compileSections (names : Names) : (sections : List Template.Section) →
    refusal? (compileSections interpretation size names sections) =
      firstObjection interpretation size (sectionChecks interpretation names.flatten sections)
  | [] => rfl
  | ⟨name, body⟩ :: rest => by
    refine refusal?_both.trans ?_
    rw [refusal?_compileBlock _ _ body, refusal?_compileSections _ rest, ← firstObjection_append]
    rfl

end

/-! ## Documents -/

theorem refusal?_compileDocuments (position : Nat) (documents : List Document) :
    refusal? (compileDocuments interpretation size position documents) =
      (documentChecks interpretation position documents).findSome?
        fun entry => (entry.2.violation? interpretation size).map (Refusal.mk entry.1) := by
  induction documents generalizing position with
  | nil => rfl
  | cons document documents ih =>
    refine refusal?_both.trans ?_
    rw [refusal?_mapError, refusal?_compileBlock, ih, documentChecks,
      List.findSome?_append, List.findSome?_map]
    exact congrArg (Option.or · _) List.map_findSome?

theorem refusal?_compile (documents : List Document) :
    refusal? (compile interpretation documents) =
      (documentChecks interpretation 0 documents).findSome? fun entry =>
        (entry.2.violation? interpretation documents.length).map (Refusal.mk entry.1) :=
  (refusal?_map _).trans (refusal?_compileDocuments 0 documents)

/-- Compilation fails with the first violation and the document it is in. -/
theorem compile_eq_error_iff {documents : List Document} {refusal : Refusal} :
    compile interpretation documents = .error refusal ↔
      FirstViolation interpretation documents refusal.document refusal.violation := by
  rw [← refusal?_eq_some, refusal?_compile, List.findSome?_eq_some_iff, FirstViolation]
  simp only [Check.holds_iff, Check.failsWith_iff, Option.map_eq_none_iff]
  constructor
  · rintro ⟨before, ⟨id, check⟩, after, all, objects, earlier⟩
    obtain ⟨violation, found, rfl⟩ := Option.map_eq_some_iff.1 objects
    exact ⟨before, check, after, all, earlier, found⟩
  · rintro ⟨before, check, after, all, earlier, found⟩
    exact ⟨before, (refusal.document, check), after, all, by rw [found]; rfl, earlier⟩

/-- Compilation succeeds where every check holds. -/
theorem compile_eq_ok_iff {documents : List Document} :
    (∃ program, compile interpretation documents = .ok program) ↔
      ∀ entry ∈ documentChecks interpretation 0 documents,
        entry.2.Holds interpretation documents.length := by
  rw [← refusal?_eq_none, refusal?_compile, List.findSome?_eq_none_iff]
  simp only [Check.holds_iff, Option.map_eq_none_iff]

end Stencil.Program
