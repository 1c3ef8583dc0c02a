import Mathlib.Data.List.Forall2
import Stencil.Proofs.Revision.Places
import Stencil.Render
import Stencil.Script

/-! # Stray sections

A section among the children of a line is passed over with all that stands in it, whatever that is.
So such sections can be deleted wherever they stand, as many as one likes, and the documents are
compiled to the same program or refused with the same error.

A section that is a member of a block is not passed over: where a line is expected, it is as foreign
as any other node.
-/

namespace Stencil

open Host (Interpretation)
open Template (Document)

variable {σ : Type} {interpretation : Interpretation σ} {size : Nat}

/-! ## Deleting stray sections -/

namespace Template

mutual

/-- The second node is the first one without some of the sections that stand among children of lines
in it. -/
inductive Node.Sheds : Node → Node → Prop where
  | literal (text : String) : Node.Sheds (.literal text) (.literal text)
  | expression (kind : ExpressionKind) (fragment : Fragment) :
      Node.Sheds (.expression kind fragment) (.expression kind fragment)
  | slot (name : String) : Node.Sheds (.slot name) (.slot name)
  | line {children others : List Node} (isNewline : Bool) (source : String)
      (indentation : Option String) : ChildrenShed children others →
      Node.Sheds (.line ⟨children, isNewline, source, indentation⟩)
        (.line ⟨others, isNewline, source, indentation⟩)
  | binding (name : String) (fragment : Option Fragment) {body other : List Node} :
      BlockSheds body other →
      Node.Sheds (.binding name fragment body) (.binding name fragment other)
  | choice (condition : Fragment) {body one otherwise other : List Node} :
      BlockSheds body one → BlockSheds otherwise other →
      Node.Sheds (.choice condition body otherwise) (.choice condition one other)
  | loop (item : String) (index : Option String) (iterable : Fragment) (separator : Option String)
      {body one fallback other : List Node} :
      BlockSheds body one → BlockSheds fallback other →
      Node.Sheds (.loop item index iterable separator body fallback)
        (.loop item index iterable separator one other)
  | transform (fragment : Fragment) {body other : List Node} :
      BlockSheds body other → Node.Sheds (.transform fragment body) (.transform fragment other)
  | inclusion (target : DocId) (forwards : List (String × Fragment))
      {sections others : List Section} : SectionsShed sections others →
      Node.Sheds (.inclusion target forwards sections) (.inclusion target forwards others)
  | stray (name : String) {body other : List Node} :
      BlockSheds body other → Node.Sheds (.stray ⟨name, body⟩) (.stray ⟨name, other⟩)

/-- Among the children of a line, sections may be left out altogether. -/
inductive ChildrenShed : List Node → List Node → Prop where
  | nil : ChildrenShed [] []
  | keep {node other : Node} {rest others : List Node} :
      node.Sheds other → ChildrenShed rest others → ChildrenShed (node :: rest) (other :: others)
  | delete (part : Section) {rest others : List Node} :
      ChildrenShed rest others → ChildrenShed (.stray part :: rest) others

/-- A block keeps all of its members. -/
inductive BlockSheds : List Node → List Node → Prop where
  | nil : BlockSheds [] []
  | cons {node other : Node} {rest others : List Node} :
      node.Sheds other → BlockSheds rest others → BlockSheds (node :: rest) (other :: others)

/-- The sections that an include supplies are no stray ones. -/
inductive SectionsShed : List Section → List Section → Prop where
  | nil : SectionsShed [] []
  | cons (name : String) {body other : List Node} {rest others : List Section} :
      BlockSheds body other → SectionsShed rest others →
      SectionsShed (⟨name, body⟩ :: rest) (⟨name, other⟩ :: others)

end

theorem Node.Sheds.isStray_iff {node other : Node} (sheds : node.Sheds other) :
    (∃ part, node = .stray part) ↔ ∃ part, other = .stray part := by
  cases sheds <;> simp

end Template

open Template (BlockSheds ChildrenShed SectionsShed)

section Compiled

variable (interpretation size)

mutual

theorem Template.Node.Sheds.compileNode_eq : {node other : Template.Node} → node.Sheds other →
    ∀ names, Program.compileNode interpretation size names node =
      Program.compileNode interpretation size names other
  | _, _, .literal _, _ | _, _, .expression .., _ | _, _, .slot _, _ => rfl
  | _, _, .line .., _ => rfl
  | _, _, .stray .., _ => rfl
  | _, _, .binding name fragment body, names => by
    simp only [Program.compileNode, body.compileBlock_eq]
  | _, _, .choice condition body otherwise, names => by
    simp only [Program.compileNode, body.compileBlock_eq, otherwise.compileBlock_eq]
  | _, _, .loop item index iterable separator body fallback, names => by
    simp only [Program.compileNode, body.compileBlock_eq, fallback.compileBlock_eq]
  | _, _, .transform fragment body, names => by
    simp only [Program.compileNode, body.compileBlock_eq]
  | _, _, .inclusion target forwards sections, names => by
    simp only [Program.compileNode, sections.compileSections_eq]

theorem Template.ChildrenShed.compileChildren_eq : {nodes others : List Template.Node} →
    ChildrenShed nodes others →
    ∀ names, Program.compileChildren interpretation size names nodes =
      Program.compileChildren interpretation size names others
  | _, _, .nil, _ => rfl
  | _, _, .delete _ rest, names => rest.compileChildren_eq names
  | _, _, @ChildrenShed.keep node other _ _ here rest, names => by
    have later := rest.compileChildren_eq names
    by_cases stray : ∃ part, node = .stray part
    · obtain ⟨part, rfl⟩ := stray
      obtain ⟨remains, rfl⟩ := here.isStray_iff.1 ⟨part, rfl⟩
      exact later
    · rw [compileChildren_cons stray, compileChildren_cons (stray ∘ here.isStray_iff.2), later,
        here.compileNode_eq]

theorem Template.BlockSheds.compileBlock_eq : {nodes others : List Template.Node} →
    BlockSheds nodes others →
    ∀ names place, Program.compileBlock interpretation size names place nodes =
      Program.compileBlock interpretation size names place others
  | _, _, .nil, _, _ => rfl
  | _, _, .cons here rest, names, place => by
    cases here with
    | line isNewline source indentation children =>
      simp only [Program.compileBlock, Program.compileLine, children.compileChildren_eq,
        rest.compileBlock_eq]
    -- No other member is looked into.
    | _ => rfl

theorem Template.SectionsShed.compileSections_eq : {sections others : List Template.Section} →
    SectionsShed sections others →
    ∀ names, Program.compileSections interpretation size names sections =
      Program.compileSections interpretation size names others
  | _, _, .nil, _ => rfl
  | _, _, .cons name body rest, names => by
    simp only [Program.compileSections, body.compileBlock_eq, rest.compileSections_eq]

end

theorem compileDocuments_sheds {documents others : List Document}
    (sheds : List.Forall₂ BlockSheds documents others) (position : Nat) :
    Program.compileDocuments interpretation size position documents =
      Program.compileDocuments interpretation size position others := by
  induction sheds generalizing position with
  | nil => rfl
  | cons here _ ih => simp only [Program.compileDocuments, here.compileBlock_eq, ih]

end Compiled

/-! ## Violations -/

/-- No check objects to a section among the children of a line. -/
theorem Program.Check.FailsWith.ne_misplaced {check : Check} {violation : Violation}
    (fails : check.FailsWith interpretation size violation) (name : String) :
    violation ≠ .misplacedSection name := by
  cases fails <;> nofun

/-- The words of the error are nobody else's, but for the host. -/
theorem Program.Violation.eq_refused {violation : Violation} {name : String}
    (other : ∀ name, violation ≠ .misplacedSection name)
    (same : violation.toError = (Violation.misplacedSection name).toError) :
    ∃ error, violation = .refused error := by
  have kind := congrArg CompileError.kind same
  have first := congrArg (fun error => error.message.toList.head?) same
  cases violation with
  | refused error => exact ⟨error, rfl⟩
  | misplacedSection name => exact absurd rfl (other name)
  | unknownTarget | undeclared | unbound => cases kind
  | foreign found place =>
    simp [toError, CompileError.structural] at first
  | nestedLine => simp [toError] at first

/-! ## Members of blocks -/

/-- What a body of the node is to messages. -/
def Template.Shell.place : Template.Shell → Program.Place
  | .binding .. => .binding
  | .choice .. => .choice
  | .otherwise .. => .otherwise
  | .loop .. => .loop
  | .fallback .. => .fallback
  | .transform _ => .transform
  | .part .. | .stray _ => .part

/-- What the block at the end of a path is to messages. -/
def Template.Path.place (start : Program.Place) : Template.Path → Program.Place
  | [] => start
  | (_, shell) :: path => Path.place shell.place path

section Checks

open Program (blockChecks childrenChecks childChecks fragmentChecks lineChecks sectionChecks)

variable (interpretation) (scope : List String) (place : Program.Place)

theorem childrenChecks_append (nodes others : List Template.Node) :
    childrenChecks interpretation scope (nodes ++ others) =
      childrenChecks interpretation scope nodes ++ childrenChecks interpretation scope others := by
  induction nodes with
  | nil => rfl
  | cons node nodes ih => simp only [List.cons_append, childrenChecks, ih, List.append_assoc]

theorem blockChecks_append (nodes others : List Template.Node) :
    blockChecks interpretation scope place (nodes ++ others) =
      blockChecks interpretation scope place nodes ++
        blockChecks interpretation scope place others := by
  induction nodes with
  | nil => rfl
  | cons node nodes ih =>
    cases node <;> simp only [List.cons_append, blockChecks, ih, List.append_assoc]

theorem sectionChecks_append (sections others : List Template.Section) :
    sectionChecks interpretation scope (sections ++ others) =
      sectionChecks interpretation scope sections ++
        sectionChecks interpretation scope others := by
  induction sections with
  | nil => rfl
  | cons part sections ih =>
    obtain ⟨name, body⟩ := part
    simp only [List.cons_append, sectionChecks, ih, List.append_assoc]

/-- Around a child of a line there are the same checks, whatever the child is. -/
theorem Template.Spot.checks (spot : Template.Spot) : ∃ before after, ∀ node,
    blockChecks interpretation scope place (spot.fill [node]) =
      before ++ (.child node.tag :: childChecks interpretation scope node) ++ after := by
  refine ⟨blockChecks interpretation scope place spot.before ++ .member .line place ::
    childrenChecks interpretation scope spot.first, childrenChecks interpretation scope spot.last ++
    blockChecks interpretation scope place spot.after, fun node => ?_⟩
  simp only [Spot.fill, blockChecks_append, blockChecks, lineChecks, childrenChecks_append,
    childrenChecks, List.append_assoc, List.cons_append, List.nil_append]

/-- Around a body of a node there are the same checks, whatever the body is. -/
theorem Template.Shell.checks (shell : Template.Shell) (kept : ∀ name, shell ≠ .stray name) :
    ∃ before scope' after, ∀ block,
      .child (shell.fill block).tag :: childChecks interpretation scope (shell.fill block) =
        before ++ blockChecks interpretation scope' shell.place block ++ after := by
  cases shell with
  | binding name fragment =>
    exact ⟨.child .binding :: fragment.toList.flatMap (fragmentChecks interpretation scope),
      name :: scope, [], fun block => (List.append_nil _).symm⟩
  | choice condition otherwise =>
    refine ⟨.child .choice :: fragmentChecks interpretation scope condition, scope,
      blockChecks interpretation scope .otherwise otherwise, fun block => ?_⟩
    simp [Shell.fill, childChecks, Node.tag, Shell.place]
  | otherwise condition body =>
    refine ⟨.child .choice :: (fragmentChecks interpretation scope condition ++
      blockChecks interpretation scope .choice body), scope, [], fun block => ?_⟩
    simp [Shell.fill, childChecks, Node.tag, Shell.place]
  | loop item index iterable separator fallback =>
    refine ⟨.child .loop :: fragmentChecks interpretation scope iterable,
      item :: (index.toList ++ scope), blockChecks interpretation scope .fallback fallback,
      fun block => ?_⟩
    simp [Shell.fill, childChecks, Node.tag, Shell.place]
  | fallback item index iterable separator body =>
    refine ⟨.child .loop :: (fragmentChecks interpretation scope iterable ++
      blockChecks interpretation (item :: (index.toList ++ scope)) .loop body), scope, [],
      fun block => ?_⟩
    simp [Shell.fill, childChecks, Node.tag, Shell.place]
  | transform fragment =>
    exact ⟨[.child .transform], scope,
      fragmentChecks interpretation (Program.blockName :: scope) fragment, fun block => rfl⟩
  | part target forwards first name last =>
    refine ⟨.child .inclusion :: .target target ::
      (forwards.flatMap (fragmentChecks interpretation scope ·.2) ++
        sectionChecks interpretation scope first), scope,
      sectionChecks interpretation scope last, fun block => ?_⟩
    simp [Shell.fill, childChecks, Node.tag, Shell.place, sectionChecks_append, sectionChecks]
  | stray name => exact absurd rfl (kept name)

/-- Around a block there are the same checks, whatever the block is. -/
theorem Template.Path.checks {path : Template.Path}
    (kept : ∀ step ∈ path, ∀ name, step.2 ≠ .stray name) :
    ∃ before scope' after, ∀ block, blockChecks interpretation scope place (path.fill block) =
      before ++ blockChecks interpretation scope' (Path.place place path) block ++ after := by
  induction path generalizing scope place with
  | nil => exact ⟨[], scope, [], fun block => (List.append_nil _).symm⟩
  | cons step path ih =>
    obtain ⟨spot, shell⟩ := step
    obtain ⟨here, further⟩ := List.forall_mem_cons.1 kept
    obtain ⟨before, after, child⟩ := spot.checks interpretation scope place
    obtain ⟨first, inner, last, body⟩ := shell.checks interpretation scope here
    obtain ⟨ahead, scope', behind, block⟩ := ih inner shell.place further
    refine ⟨before ++ (first ++ ahead), scope', behind ++ last ++ after, fun other => ?_⟩
    rw [Path.fill, child, body, block, Path.place]
    simp only [List.append_assoc]

/-- Around a document there are the same checks, whatever the document is. -/
theorem documentChecks_set {documents : List Document} {index : Nat}
    (known : index < documents.length) (position : Nat) : ∃ before after, ∀ document,
      Program.documentChecks interpretation position (documents.set index document) =
        before ++ (blockChecks interpretation [] .document document).map (⟨position + index⟩, ·) ++
          after := by
  induction documents generalizing index position with
  | nil => cases known
  | cons first documents ih =>
    cases index with
    | zero => exact ⟨[], _, fun document => rfl⟩
    | succ index =>
      obtain ⟨before, after, others⟩ := ih (Nat.lt_of_succ_lt_succ known) (position + 1)
      refine ⟨(blockChecks interpretation [] .document first).map (⟨position⟩, ·) ++ before, after,
        fun document => ?_⟩
      rw [List.set_cons_succ, Program.documentChecks, others]
      simp only [List.append_assoc, Nat.add_assoc, Nat.add_comm 1]

/-- The same of a block of a document, among the checks of all documents. -/
theorem documentChecks_fill {documents : List Document} {id : DocId}
    (known : id.index < documents.length) {path : Template.Path}
    (kept : ∀ step ∈ path, ∀ name, step.2 ≠ .stray name) :
    ∃ earlier scope later, ∀ block,
      Program.documentChecks interpretation 0 (documents.set id.index (path.fill block)) =
        earlier ++ (blockChecks interpretation scope (path.place .document) block).map (id, ·) ++
          later := by
  obtain ⟨first, last, document⟩ := documentChecks_set interpretation known 0
  obtain ⟨before, scope, after, block⟩ := path.checks interpretation [] .document kept
  refine ⟨first ++ before.map (id, ·), scope, after.map (id, ·) ++ last, fun other => ?_⟩
  rw [document, block, Nat.zero_add]
  simp only [List.map_append, List.append_assoc]

end Checks

section Members

open Program (Check)

variable {documents : List Document} {id : DocId} {path : Template.Path}
  {before after : List Template.Node} {part : Template.Section}

/-- A section that is a member of a block is checked for being a line, and nothing in it is looked
at.  All other checks are those that are made without it. -/
theorem member_checked (interpretation : Interpretation σ)
    (given : documents[id.index]? = some (path.fill (before ++ .stray part :: after)))
    (kept : ∀ step ∈ path, ∀ name, step.2 ≠ .stray name) :
    ∃ earlier later, Program.documentChecks interpretation 0 documents =
        earlier ++ (id, .member .part (path.place .document)) :: later ∧
      Program.documentChecks interpretation 0
          (documents.set id.index (path.fill (before ++ after))) = earlier ++ later := by
  obtain ⟨known, here⟩ := List.getElem?_eq_some_iff.1 given
  obtain ⟨first, scope, last, block⟩ := documentChecks_fill interpretation known kept
  have whole := block (before ++ .stray part :: after)
  rw [← here, List.set_getElem_self] at whole
  let checks (nodes : List Template.Node) : List (DocId × Check) :=
    (Program.blockChecks interpretation scope (path.place .document) nodes).map (id, ·)
  refine ⟨first ++ checks before, checks after ++ last, ?_, ?_⟩
  · simp only [whole, checks, blockChecks_append, Program.blockChecks, Template.Node.tag,
      List.map_append, List.map_cons, List.append_assoc, List.cons_append]
  · simp only [block, checks, blockChecks_append, List.map_append, List.append_assoc]

/-- A section that is a member of a block is refused for it, unless a check before it fails. -/
theorem member_refused (interpretation : Interpretation σ)
    (given : documents[id.index]? = some (path.fill (before ++ .stray part :: after)))
    (kept : ∀ step ∈ path, ∀ name, step.2 ≠ .stray name) :
    ∃ refusal, Program.compile interpretation documents = .error refusal ∧
      (refusal = ⟨id, .foreign .part (path.place .document)⟩ ∨
        Program.compile interpretation
          (documents.set id.index (path.fill (before ++ after))) = .error refusal) := by
  obtain ⟨earlier, later, whole, without⟩ := member_checked interpretation given kept
  let objection (entry : DocId × Check) : Option Program.Refusal :=
    (entry.2.violation? interpretation documents.length).map (.mk entry.1)
  have first : Program.refusal? (Program.compile interpretation documents) =
      (earlier.findSome? objection).or
        (some ⟨id, .foreign .part (path.place .document)⟩) := by
    rw [Program.refusal?_compile, whole, List.findSome?_append]
    rfl
  have others : Program.refusal? (Program.compile interpretation
      (documents.set id.index (path.fill (before ++ after)))) =
      (earlier.findSome? objection).or (later.findSome? objection) := by
    rw [Program.refusal?_compile, without, List.length_set, List.findSome?_append]
  cases found : earlier.findSome? objection with
  | none =>
    rw [found, Option.none_or] at first
    exact ⟨_, Program.refusal?_eq_some.1 first, .inl rfl⟩
  | some refusal =>
    rw [found, Option.some_or] at first others
    exact ⟨refusal, Program.refusal?_eq_some.1 first, .inr (Program.refusal?_eq_some.1 others)⟩

end Members

/-- Sections among the children of lines are invisible, whatever stands in them.  If some of them
are deleted from documents, wherever they stand, what these are compiled to is the same program with
the same addresses, and so with the same renderings, or they are refused with the same error.  No
error says that a section must be declared on an include, unless it is the host that says so.

Where a section is a member of a block, the documents are always refused: for this violation of
their structure, or for the one for which they are refused without it. -/
theorem stray_sections_invisible (interpretation : Interpretation σ)
    {documents others : List Document} (sheds : List.Forall₂ BlockSheds documents others) :
    Program.compile interpretation documents = Program.compile interpretation others ∧
      (∀ refusal, Program.compile interpretation documents = .error refusal → ∀ name,
        refusal.violation ≠ .misplacedSection name ∧
          (refusal.violation.toError = (Program.Violation.misplacedSection name).toError →
            ∃ error, refusal.violation = .refused error)) ∧
      ∀ (id : DocId) (path : Template.Path) (before : List Template.Node)
        (part : Template.Section) (after : List Template.Node),
        documents[id.index]? = some (path.fill (before ++ .stray part :: after)) →
        (∀ step ∈ path, ∀ name, step.2 ≠ .stray name) →
        ∃ refusal, Program.compile interpretation documents = .error refusal ∧
          (refusal = ⟨id, .foreign .part (path.place .document)⟩ ∧
              refusal.toError.kind = .structuralViolation ∨
            Program.compile interpretation
              (documents.set id.index (path.fill (before ++ after))) = .error refusal) := by
  refine ⟨?_, fun refusal refused name => ?_, fun id path before part after given kept => ?_⟩
  · rw [Program.compile, Program.compile, sheds.length_eq, compileDocuments_sheds _ _ sheds]
  · obtain ⟨_, check, _, _, _, fails⟩ := Program.compile_eq_error_iff.1 refused
    exact ⟨fails.ne_misplaced name, Program.Violation.eq_refused fails.ne_misplaced⟩
  · obtain ⟨refusal, refused, reason⟩ := member_refused interpretation given kept
    refine ⟨refusal, refused, reason.imp_left ?_⟩
    rintro rfl
    exact ⟨rfl, rfl⟩

def plainScript : Script := ⟨false, [], []⟩

/-- A section in which nothing is as it has to be. -/
def brokenSection : Template.Section :=
  ⟨"body", [.literal "bare", .line ⟨[.line (.newline "\n"), .inclusion ⟨9⟩ [] [],
    .expression .normal ⟨"unknown", ["nowhere"]⟩], false, "", none⟩]⟩

/-- A page and a layout, with these sections on a line of each and on one in the section of the
page, which has these further members. -/
def strayTemplates (parts : List Template.Section) (members : List Template.Node) :
    List Document :=
  let strays := parts.map Template.Node.stray
  let inner : Template.Node := .line ⟨.literal "text" :: strays, false, "", none⟩
  [[.line ⟨strays ++ [.inclusion ⟨1⟩ [] [⟨"body", inner :: members⟩]], false, "", none⟩],
    [.line ⟨.slot "body" :: strays, false, "", none⟩]]

/-- The members of the section of the page are no children of a line. -/
theorem strays_in_page :
    let broken := [brokenSection, brokenSection]
    let member : Template.Node := .stray ⟨"body", []⟩
    Program.compile plainScript.interpretation (strayTemplates broken []) =
        Program.compile plainScript.interpretation (strayTemplates [] []) ∧
      (Program.compile plainScript.interpretation (strayTemplates [] [])).toOption.map
          (fun program => ((program.render ⟨0⟩ {}).drain .start).chunks) = some ["text"] ∧
      Program.compile plainScript.interpretation (strayTemplates broken [member]) =
        .error ⟨⟨0⟩, .foreign .part .part⟩ := by
  intro broken member
  have sheds {members : List Template.Node} (kept : BlockSheds members members) :
      List.Forall₂ BlockSheds (strayTemplates broken members) (strayTemplates [] members) := by
    have deleted : ChildrenShed (broken.map .stray) [] := .delete _ (.delete _ .nil)
    refine .cons (.cons (.line _ _ _ ?_) .nil) (.cons (.cons (.line _ _ _ ?_) .nil) .nil)
    · refine .delete _ (.delete _ (.keep (.inclusion _ _ (.cons _ ?_ .nil)) .nil))
      exact .cons (.line _ _ _ (.keep (.literal _) deleted)) kept
    · exact .keep (.slot _) deleted
  obtain ⟨same, -, -⟩ := stray_sections_invisible plainScript.interpretation (sheds .nil)
  obtain ⟨-, -, refused⟩ := stray_sections_invisible plainScript.interpretation
    (sheds (.cons (.stray _ .nil) .nil : BlockSheds [member] [member]))
  obtain ⟨refusal, compiled, reason⟩ := refused ⟨0⟩
    [(⟨[], broken.map .stray, [], false, "", none, []⟩, .part ⟨1⟩ [] [] "body" [])]
    [.line ⟨.literal "text" :: broken.map .stray, false, "", none⟩] _ [] rfl
    (List.forall_mem_singleton.2 nofun)
  obtain ⟨rfl, -⟩ | clash := reason
  · exact ⟨same, by decide +kernel, compiled⟩
  -- Without the member there is nothing to refuse.
  · cases clash

end Stencil
