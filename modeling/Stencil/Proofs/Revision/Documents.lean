import Stencil.Proofs.Checking.Acceptance
import Stencil.Proofs.Revision.Accounts
import Stencil.Proofs.Revision.Versions

/-! # Revised documents

Two versions of a block stand at the same place of two documents.  The documents are revised if the
blocks are, in whatever values of the names that are in scope at the place; and a rendering is
revised if the documents are that it reaches.

A document is entered with the sections of the include by which it is reached.  So what a slot comes
to can be told from the includes that are reached from the rendered document.
-/

namespace Stencil

open Eager (Occasion)
open Host (Interpretation)
open Program (BlockFits)
open Template (Document Include Spot Shell Path includesOf)

variable {σ : Type} {interpretation : Interpretation σ} {absent : RenderError}
  {revision : Revision σ}

/-! ## Places -/

namespace Versions

variable {reached : Include → Prop} {versions : Versions interpretation absent revision reached}
  {environment : Lexical.Environment}

/-- Behind the same members, other ones. -/
theorem Block.behind (before : List Template.Node)
    (known : ∀ inclusion ∈ includesOf before, reached inclusion)
    {rest others : List Template.Node} (later : versions.Block environment rest others) :
    versions.Block environment (before ++ rest) (before ++ others) := by
  induction before with
  | nil => exact later
  | cons node before ih =>
    obtain ⟨here, there⟩ := List.forall_mem_append.1 known
    by_cases member : ∃ line, node = .line line
    · obtain ⟨⟨children, isNewline, source, indentation⟩, rfl⟩ := member
      exact .cons (children_same children here environment) (ih there) isNewline source indentation
    · exact .foreign member _ _

theorem Block.spot (spot : Spot) {nodes others : List Template.Node}
    (known : ∀ inclusion ∈ includesOf (spot.fill nodes), reached inclusion)
    (here : (∀ inclusion ∈ includesOf nodes, reached inclusion) →
      versions.Children environment nodes others) :
    versions.Block environment (spot.fill nodes) (spot.fill others) := by
  rw [Spot.includes] at known
  simp only [List.forall_mem_append] at known
  obtain ⟨before, ⟨⟨first, inside⟩, last⟩, after⟩ := known
  refine .behind _ before (.cons ?_ (block_same _ after environment) _ _ _)
  exact ((children_same _ first environment).append (here inside)).append
    (children_same _ last environment)

/-- A node on the way to two blocks.  It is passed over, or it binds names for them. -/
theorem Children.shell (shell : Shell) {block other : List Template.Node}
    (known : ∀ inclusion ∈ (shell.fill block).includes, reached inclusion)
    (inner : (¬∃ name, shell = .stray name) →
      (∀ inclusion ∈ includesOf block, reached inclusion) →
      ∀ within : Lexical.Environment,
        within.map Prod.fst = shell.scope (environment.map Prod.fst) →
        versions.Block within block other) :
    versions.Children environment [shell.fill block] [shell.fill other] := by
  cases shell with
  | stray name => exact fun _ _ alike => .finish alike
  | binding name fragment =>
    exact .single nofun nofun (.binding name fragment fun _ => inner nofun known _ rfl)
  | choice condition otherwise =>
    obtain ⟨here, there⟩ := List.forall_mem_append.1 known
    exact .single nofun nofun
      (.choice condition (inner nofun here _ rfl) (block_same otherwise there _))
  | otherwise condition body =>
    obtain ⟨there, here⟩ := List.forall_mem_append.1 known
    exact .single nofun nofun
      (.choice condition (block_same body there _) (inner nofun here _ rfl))
  | loop item index iterable separator fallback =>
    obtain ⟨here, there⟩ := List.forall_mem_append.1 known
    refine .single nofun nofun (.loop item index iterable separator (fun position element => ?_)
      (block_same fallback there _))
    exact inner nofun here _ (by cases index <;> rfl)
  | fallback item index iterable separator body =>
    obtain ⟨there, here⟩ := List.forall_mem_append.1 known
    exact .single nofun nofun (.loop item index iterable separator
      (fun _ _ => block_same body there _) (inner nofun here _ rfl))
  | transform fragment =>
    exact .single nofun nofun (.transform fragment (inner nofun known _ rfl))
  | part target forwards first name last =>
    obtain ⟨entered, sections⟩ := List.forall_mem_cons.1 known
    rw [Template.sectionIncludes_append] at sections
    obtain ⟨earlier, rest⟩ := List.forall_mem_append.1 sections
    obtain ⟨here, later⟩ := List.forall_mem_append.1 rest
    refine .single nofun nofun (.inclusion forwards entered ?_)
    exact List.rel_append (sections_same first earlier _)
      (.cons ⟨rfl, inner nofun here _ rfl⟩ (sections_same last later _))

/-- On a path it is known of a block which names are bound around it, and that it fits there. -/
theorem Block.path {size : Nat} (path : Path) {block other : List Template.Node}
    (exchange : ∀ environment : Lexical.Environment,
      BlockFits interpretation size (environment.map Prod.fst) block →
      BlockFits interpretation size (environment.map Prod.fst) other →
      (∀ inclusion ∈ includesOf block, reached inclusion) →
      versions.Block environment block other)
    (fits : BlockFits interpretation size (environment.map Prod.fst) (path.fill block))
    (others : BlockFits interpretation size (environment.map Prod.fst) (path.fill other))
    (known : ∀ inclusion ∈ includesOf (path.fill block), reached inclusion) :
    versions.Block environment (path.fill block) (path.fill other) := by
  induction path generalizing environment with
  | nil => exact exchange environment fits others known
  | cons place path ih =>
    obtain ⟨spot, shell⟩ := place
    have here := List.forall_mem_singleton.1 (Spot.fits fits).1
    have there := List.forall_mem_singleton.1 (Spot.fits others).1
    refine .spot spot known fun inside => ?_
    rw [includesOf, includesOf, List.append_nil] at inside
    refine .shell shell inside fun kept inside within names => ih ?_ ?_ inside
    · rw [names]
      exact (Shell.fits here).1.resolve_left kept
    · rw [names]
      exact (Shell.fits there).1.resolve_left kept

end Versions

/-! ## Documents -/

namespace Template

/-- The includes that a rendering of a document reaches, at most. -/
inductive Reaches (documents : List Document) (id : DocId) : Include → Prop where
  | direct {lines : Document} {inclusion : Include} :
      documents[id.index]? = some lines → inclusion ∈ includesOf lines →
      Reaches documents id inclusion
  | further {inclusion next : Include} {lines : Document} :
      Reaches documents id inclusion → documents[inclusion.target.index]? = some lines →
      next ∈ includesOf lines → Reaches documents id next

/-- A section that a document is supplied with, at most, in a rendering of a document. -/
def Supplied (documents : List Document) (id place : DocId) (name : String) : Prop :=
  ∃ inclusion, Reaches documents id inclusion ∧ inclusion.target = place ∧
    name ∈ inclusion.supplied

end Template

open Template (Reaches Supplied)

/-- One document instead of another, if no other sections are supplied than those with these
names. -/
def DocumentRevised (interpretation : Interpretation σ) (absent : RenderError)
    (revision : Revision σ) (reached : Include → Prop) (supplied : List String)
    (lines other : Document) : Prop :=
  ∀ versions : Versions interpretation absent revision reached,
    (∀ part ∈ versions.context.sections, part.1 ∈ supplied) → versions.Block [] lines other

/-- What documents come to where they are included, if those that are reached are revised with all
the sections that they may be supplied with. -/
theorem entrance_revised {reached : Include → Prop} {documents others : List Document}
    (alike : ∀ inclusion, reached inclusion →
      Option.Rel (DocumentRevised interpretation absent revision reached inclusion.supplied)
        documents[inclusion.target.index]? others[inclusion.target.index]?)
    (options : Render.Options σ) (levels : Nat) (inclusion : Include)
    (known : reached inclusion) :
    Entrance.Revised revision inclusion.supplied
      (Lexical.entrance interpretation absent documents options levels inclusion.target)
      (Lexical.entrance interpretation absent others options levels inclusion.target) := by
  induction levels generalizing inclusion with
  | zero =>
    simp only [Lexical.entrance]
    cases options.maxIncludeDepth with
    | none => exact .bottomless
    | some limit => exact .refused _
  | succ levels ih =>
    have entered := alike inclusion known
    revert entered
    simp only [Lexical.entrance]
    generalize documents[inclusion.target.index]? = one
    generalize others[inclusion.target.index]? = other
    intro entered
    cases entered with
    | none => exact .refused _
    | some lines =>
      refine .admitted fun context within contexts supplied => ?_
      let versions : Versions interpretation absent revision reached :=
        ⟨⟨options.escape, Lexical.entrance interpretation absent documents options levels⟩,
          ⟨options.escape, Lexical.entrance interpretation absent others options levels⟩, context,
          within, rfl, ih, contexts⟩
      exact lines versions supplied false

section Replaced

variable {documents : List Document} {id place : DocId}

/-- With one of the documents replaced, any other one is still there. -/
theorem document_kept (other : Document) {target : DocId} (apart : target ≠ place)
    (known : ∀ lines, documents[target.index]? = some lines →
      ∀ inclusion ∈ includesOf lines, Reaches documents id inclusion)
    (names : List String) :
    Option.Rel
      (DocumentRevised interpretation absent revision (Reaches documents id) names)
      documents[target.index]? (documents.set place.index other)[target.index]? := by
  have apart : place.index ≠ target.index := fun equal => apart (congrArg DocId.mk equal).symm
  rw [List.getElem?_set_ne apart]
  cases found : documents[target.index]? with
  | none => exact .none
  | some lines => exact .some fun versions _ => versions.block_same lines (known lines found) []

/-- All that are reached come to what they did if the replaced one does. -/
theorem document_replaced {lines other : Document} (given : documents[place.index]? = some lines)
    (alike : ∀ versions : Versions interpretation absent revision (Reaches documents id),
      (∀ part ∈ versions.context.sections, Supplied documents id place part.1) →
      (∀ inclusion ∈ includesOf lines, Reaches documents id inclusion) →
      versions.Block [] lines other)
    (target : DocId)
    (known : ∀ lines, documents[target.index]? = some lines →
      ∀ inclusion ∈ includesOf lines, Reaches documents id inclusion)
    (names : List String)
    (supplied : target = place → ∀ name ∈ names, Supplied documents id place name) :
    Option.Rel
      (DocumentRevised interpretation absent revision (Reaches documents id) names)
      documents[target.index]? (documents.set place.index other)[target.index]? := by
  by_cases same : target = place
  · subst same
    have inside := (List.getElem?_eq_some_iff.1 given).1
    rw [List.getElem?_set_self inside, given]
    exact .some fun versions within =>
      alike versions (fun part member => supplied rfl _ (within part member)) (known lines given)
  · exact document_kept other same known names

theorem flow_revised {lines other : Document} (given : documents[place.index]? = some lines)
    (alike : ∀ versions : Versions interpretation absent revision (Reaches documents id),
      (∀ part ∈ versions.context.sections, Supplied documents id place part.1) →
      (∀ inclusion ∈ includesOf lines, Reaches documents id inclusion) →
      versions.Block [] lines other)
    (options : Render.Options σ) :
    Flow.Revised revision (Progress.Revised revision)
      (Lexical.flow interpretation absent documents options id)
      (Lexical.flow interpretation absent (documents.set place.index other) options id) := by
  let enters (documents : List Document) : DocId → Entrance σ :=
    Lexical.entrance interpretation absent documents options
      (options.maxIncludeDepth.getD Program.horizon)
  have entered : ∀ inclusion, Reaches documents id inclusion →
      Entrance.Revised revision inclusion.supplied (enters documents inclusion.target)
        (enters (documents.set place.index other) inclusion.target) := by
    refine entrance_revised (fun inclusion reached => ?_) options _
    refine document_replaced given alike inclusion.target ?_ inclusion.supplied ?_
    · exact fun lines found next member => .further reached found member
    · exact fun target name member => ⟨inclusion, reached, target, member⟩
  -- A document that is rendered directly is supplied with nothing.
  have rendered := document_replaced given alike id
    (fun lines found next member => .direct found member) []
    fun _ _ none => absurd none List.not_mem_nil
  revert rendered
  simp only [Lexical.flow]
  generalize documents[id.index]? = one
  generalize (documents.set place.index other)[id.index]? = two
  intro rendered
  cases rendered with
  | none => exact .fail _
  | some here =>
    let versions : Versions interpretation absent revision (Reaches documents id) :=
      ⟨⟨options.escape, enters documents⟩,
        ⟨options.escape, enters (documents.set place.index other)⟩, .root, .root, rfl, entered,
        Context.revised_root⟩
    exact here versions (fun _ none => absurd none List.not_mem_nil) false _ _ .nil

theorem wellFormed_of_compile {program : Program σ}
    (compiled : Program.compile interpretation documents = .ok program) {lines : Document}
    (given : documents[place.index]? = some lines) :
    BlockFits interpretation documents.length [] lines :=
  (Program.compile_eq_ok_iff.trans Program.documentChecks_hold).1 ⟨program, compiled⟩ lines
    (List.mem_of_getElem? given)

/-- A rendering is revised if at some place of a document another block is put that comes to a
revision of what the block there has come to. -/
theorem account_revised {program revised : Program σ}
    (compiled : Program.compile interpretation documents = .ok program) {path : Path}
    {block other : List Template.Node}
    (given : documents[place.index]? = some (path.fill block))
    (again : Program.compile interpretation (documents.set place.index (path.fill other)) =
      .ok revised)
    (id : DocId)
    (exchange : ∀ {absent} (versions : Versions interpretation absent revision
        (Reaches documents id)),
      (∀ part ∈ versions.context.sections, Supplied documents id place part.1) →
      ∀ environment : Lexical.Environment,
      BlockFits interpretation documents.length (environment.map Prod.fst) block →
      BlockFits interpretation documents.length (environment.map Prod.fst) other →
      (∀ inclusion ∈ includesOf block, Reaches documents id inclusion) →
      versions.Block environment block other)
    (options : Render.Options σ) (meanwhile : Nat → σ → σ)
    (unnoticed : revision.Unnoticed (Occasion.mk program options meanwhile).around) (host : σ) :
    Account.Revised revision ((Occasion.mk program options meanwhile).account id host)
      ((Occasion.mk revised options meanwhile).account id host) := by
  have inside := (List.getElem?_eq_some_iff.1 given).1
  have fits := wellFormed_of_compile compiled given
  have others := wellFormed_of_compile again (List.getElem?_set_self inside)
  rw [List.length_set] at others
  -- Everything has a meaning, so it does not matter what ends a rendering where there is none.
  let absent : RenderError := .unboundName ""
  have flows := flow_revised given (fun versions supplied known =>
    .path path (@exchange absent versions supplied) fits others known) options
  rw [← compiled_flow compiled, ← compiled_flow again] at flows
  -- Both can be cancelled at their beginning.
  have begun : Flow.Revised revision (Progress.Revised revision)
      (.poll fun _ => program.flow options id) (.poll fun _ => revised.flow options id) :=
    .poll fun _ => flows
  exact begun.account unnoticed (.inr rfl) (.refl _) host

end Replaced

end Stencil
