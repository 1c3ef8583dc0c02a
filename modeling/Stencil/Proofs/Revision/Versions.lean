import Stencil.Proofs.Comparison.Routine
import Stencil.Proofs.Lexical.Compiled
import Stencil.Proofs.Revision.Flow
import Stencil.Proofs.Revision.Places

/-! # Two versions of a template

Where one version of a template has nodes, a block or a document, another one may have different
ones, as long as their flows are revised.  Every construct keeps this, whatever is in it, and so
does every include that is reached.  What a slot has recorded may stand in other chunks from then
on, and so progress, sections and contexts are revised along with the flows.

What nodes come to depends on the names that are bound around them.  These are the same for both
versions: what a rendering gathers into a value is never changed.
-/

namespace Stencil

open Host (Interpretation)
open Template (Fragment Node Include includesOf sectionIncludes)

variable {σ : Type} {revision : Revision σ}

/-! ## What flows depend on -/

/-- The same sections have been recorded, in texts that are put out differently. -/
def Recordings.Revised (revision : Revision σ) : Recordings → Recordings → Prop :=
  List.Forall₂ fun one other => one.1 = other.1 ∧ revision.Texts one.2 other.2

def Progress.Revised (revision : Revision σ) (one other : Progress) : Prop :=
  List.Forall₂ (Recordings.Revised revision) one.recordings other.recordings

def SectionFlow.Revised (revision : Revision σ) (one other : SectionFlow σ) : Prop :=
  ∀ progress later, Progress.Revised revision progress later →
    Flow.Revised revision (Progress.Revised revision) (one progress) (other later)

structure Context.Revised (revision : Revision σ) (one other : Context (SectionFlow σ)) :
    Prop where
  forwards : one.forwards = other.forwards
  sections : List.Forall₂ (fun part supplied =>
    part.1 = supplied.1 ∧ SectionFlow.Revised revision part.2 supplied.2) one.sections
    other.sections

/-- What comes of an include that supplies no other sections than those with these names. -/
inductive Entrance.Revised (revision : Revision σ) (supplied : List String) :
    Entrance σ → Entrance σ → Prop where
  | refused (error : RenderError) : Revised revision supplied (.refused error) (.refused error)
  | bottomless : Revised revision supplied .bottomless .bottomless
  | admitted {render : Scope (SectionFlow σ) → Progress → Flow σ Progress}
      {other : Scope (SectionFlow σ) → Progress → Flow σ Progress} :
      (∀ context within, Context.Revised revision context within →
        (∀ part ∈ context.sections, part.1 ∈ supplied) →
        SectionFlow.Revised revision (render (.root context)) (other (.root within))) →
      Revised revision supplied (.admitted render) (.admitted other)

namespace Progress.Revised

variable {one other : Progress}

theorem enter (revised : Progress.Revised revision one other) {kept others : Recordings}
    (same : Recordings.Revised revision kept others) :
    Progress.Revised revision (one.enter kept) (other.enter others) :=
  .cons same revised

theorem leave (revised : Progress.Revised revision one other) :
    Progress.Revised revision one.leave other.leave :=
  leave_forall₂ revised

theorem own (revised : Progress.Revised revision one other) :
    Recordings.Revised revision one.own other.own :=
  own_forall₂ revised .nil

end Progress.Revised

theorem Context.revised_root : Context.Revised revision .root .root :=
  ⟨rfl, .nil⟩

/-- The settings and contexts in which two versions of a document are rendered. -/
structure Versions (interpretation : Interpretation σ) (absent : RenderError)
    (revision : Revision σ) (reached : Include → Prop) where
  one : Setting σ
  other : Setting σ
  context : Context (SectionFlow σ)
  within : Context (SectionFlow σ)
  escape : one.escape = other.escape
  enter : ∀ inclusion, reached inclusion →
    Entrance.Revised revision inclusion.supplied (one.enter inclusion.target)
      (other.enter inclusion.target)
  contexts : Context.Revised revision context within

namespace Versions

variable {interpretation : Interpretation σ} {absent : RenderError} {reached : Include → Prop}
  (versions : Versions interpretation absent revision reached)
  (environment : Lexical.Environment)

/-- One node instead of another. -/
def Node (node other : Node) : Prop :=
  SectionFlow.Revised revision
    (fun progress => Lexical.nodeFlow interpretation absent versions.one versions.context
      environment progress node)
    fun progress => Lexical.nodeFlow interpretation absent versions.other versions.within
      environment progress other

/-- Children of a line instead of others. -/
def Children (nodes others : List Template.Node) : Prop :=
  SectionFlow.Revised revision
    (fun progress => Lexical.childrenFlow interpretation absent versions.one versions.context
      environment progress nodes)
    fun progress => Lexical.childrenFlow interpretation absent versions.other versions.within
      environment progress others

/-- A block instead of another, whether or not there are lines with content ahead of them. -/
def Block (lines others : List Template.Node) : Prop :=
  ∀ hasContent, SectionFlow.Revised revision
    (fun progress => Lexical.blockFlow interpretation absent versions.one versions.context
      environment hasContent progress lines)
    fun progress => Lexical.blockFlow interpretation absent versions.other versions.within
      environment hasContent progress others

variable {versions environment}

/-! ## Constructs -/

theorem chunks_revised {texts others : List String} (same : revision.Texts texts others)
    {progress later : Progress} (alike : Progress.Revised revision progress later) :
    Flow.Revised revision (Progress.Revised revision)
      (Flow.emitAll texts >>= fun _ => .finish progress)
      (Flow.emitAll others >>= fun _ => .finish later) :=
  (Flow.Revised.emitAll same).bind fun _ _ _ => .finish alike

theorem Node.expression (kind : Template.ExpressionKind) (fragment : Fragment) :
    versions.Node environment (.expression kind fragment) (.expression kind fragment) := by
  intro progress later alike
  simp only [Lexical.nodeFlow, ← versions.escape]
  refine .after _ fun value => ?_
  cases kind with
  | normal | inject => exact chunks_revised (.refl _) alike
  | effect => exact .finish alike

theorem Node.binding (name : String) (fragment : Option Fragment)
    {body others : List Template.Node}
    (inner : ∀ value, versions.Block ((name, value) :: environment) body others) :
    versions.Node environment (.binding name fragment body) (.binding name fragment others) := by
  intro progress later alike
  have bound : Lexical.boundValue interpretation absent versions.context environment name
        fragment =
      Lexical.boundValue interpretation absent versions.within environment name fragment := by
    cases fragment with
    | some fragment => rfl
    | none => simp only [Lexical.boundValue, Context.forwarded, Context.forwarded?,
        versions.contexts.forwards]
  simp only [Lexical.nodeFlow, bound]
  exact .after _ fun value => inner value false _ _ alike

theorem Node.choice (condition : Fragment) {body others otherwise alternative : List Template.Node}
    (taken : versions.Block environment body others)
    (rejected : versions.Block environment otherwise alternative) :
    versions.Node environment (.choice condition body otherwise)
      (.choice condition others alternative) := by
  intro progress later alike
  simp only [Lexical.nodeFlow]
  refine .after _ fun value => ?_
  cases value.isTruthy with
  | true => exact taken false _ _ alike
  | false => exact rejected false _ _ alike

/-- The rounds of a loop, with the same elements. -/
theorem rounds_revised (separator : Option String) {body others : Nat → Value → SectionFlow σ}
    (inner : ∀ position element,
      SectionFlow.Revised revision (body position element) (others position element))
    (elements : List Value) (position : Nat) (hasContent : Bool) :
    SectionFlow.Revised revision (Flow.rounds separator body position hasContent elements)
      (Flow.rounds separator others position hasContent elements) := by
  induction elements generalizing position hasContent with
  | nil => exact fun _ _ alike => .finish alike
  | cons element elements ih =>
    intro progress later alike
    refine .round fun _ => .bind ((inner position element _ _ alike).joined _ false) ?_
    rintro ⟨progress, content⟩ ⟨later, _⟩ ⟨alike, rfl⟩
    exact ih (position + 1) (hasContent || content) _ _ alike

theorem Node.loop (item : String) (index : Option String) (iterable : Fragment)
    (separator : Option String) {body others fallback alternative : List Template.Node}
    (inner : ∀ position element,
      versions.Block (loopFrame item index position element ++ environment) body others)
    (empty : versions.Block environment fallback alternative) :
    versions.Node environment (.loop item index iterable separator body fallback)
      (.loop item index iterable separator others alternative) := by
  intro progress later alike
  simp only [Lexical.nodeFlow]
  refine .after _ fun value => ?_
  cases value.items? with
  | none => exact .fail _
  | some elements =>
    cases elements with
    | nil => exact empty false _ _ alike
    | cons element elements =>
      exact rounds_revised separator (fun position element => inner position element false) _ 0
        false _ _ alike

theorem Node.transform (fragment : Fragment) {body others : List Template.Node}
    (inner : versions.Block environment body others) :
    versions.Node environment (.transform fragment body) (.transform fragment others) := by
  intro progress later alike
  simp only [Lexical.nodeFlow, ← versions.escape]
  refine .bind (.poll fun _ => (inner false _ _ alike).gatheredAfter "" true) ?_
  rintro ⟨progress, text⟩ ⟨later, _⟩ ⟨alike, rfl⟩
  exact .after _ fun value => chunks_revised (.refl _) alike

theorem sectionFlows_names (setting : Setting σ) (context : Context (SectionFlow σ))
    (sections : List Template.Section) :
    (Lexical.sectionFlows interpretation absent setting context environment sections).map
      Prod.fst = sections.map Template.Section.name := by
  induction sections with
  | nil => rfl
  | cons part sections ih =>
    obtain ⟨name, body⟩ := part
    exact congrArg (name :: ·) ih

theorem sectionFlows_revised {sections others : List Template.Section}
    (inner : List.Forall₂ (fun part supplied =>
      part.name = supplied.name ∧ versions.Block environment part.body supplied.body) sections
      others) :
    List.Forall₂ (fun part supplied =>
        part.1 = supplied.1 ∧ SectionFlow.Revised revision part.2 supplied.2)
      (Lexical.sectionFlows interpretation absent versions.one versions.context environment
        sections)
      (Lexical.sectionFlows interpretation absent versions.other versions.within environment
        others) := by
  induction inner with
  | nil => exact .nil
  | @cons part supplied _ _ first _ ih =>
    obtain ⟨name, body⟩ := part
    obtain ⟨_, other⟩ := supplied
    obtain ⟨rfl, here⟩ := first
    exact .cons ⟨rfl, here false⟩ ih

theorem Node.inclusion {target : DocId} (forwards : List (String × Fragment))
    {sections others : List Template.Section}
    (known : reached ⟨target, sections.map Template.Section.name⟩)
    (inner : List.Forall₂ (fun part supplied =>
      part.name = supplied.name ∧ versions.Block environment part.body supplied.body) sections
      others) :
    versions.Node environment (.inclusion target forwards sections)
      (.inclusion target forwards others) := by
  intro progress later alike
  simp only [Lexical.nodeFlow]
  have entered := versions.enter _ known
  revert entered
  dsimp only
  generalize versions.one.enter target = first
  generalize versions.other.enter target = second
  intro entered
  cases entered with
  | refused error => exact .fail error
  | bottomless => exact .bottomless
  | admitted documents =>
    refine .after _ fun values => ?_
    have contexts : Context.Revised revision (versions.context.within values _)
        (versions.within.within values _) := ⟨rfl, List.rel_reverse (sectionFlows_revised inner)⟩
    refine (documents _ _ contexts ?_ _ _ (alike.enter .nil)).bind ?_
    · intro part member
      rw [← sectionFlows_names versions.one versions.context sections]
      exact List.mem_map_of_mem (List.mem_reverse.1 member)
    · exact fun _ _ alike => .finish alike.leave

theorem Node.slot (name : String) : versions.Node environment (.slot name) (.slot name) := by
  intro progress later alike
  simp only [Lexical.nodeFlow, Flow.slot, Context.section?]
  have supplied := lookup_forall₂ versions.contexts.sections name
  revert supplied
  cases versions.context.sections.lookup name <;> cases versions.within.sections.lookup name <;>
    rintro ⟨⟩
  case none.none => exact .finish alike
  case some.some body others inner =>
    dsimp only
    have recorded := lookup_forall₂ alike.own name
    revert recorded
    cases progress.own.lookup name <;> cases later.own.lookup name <;> rintro ⟨⟩
    case none.none =>
      refine .bind ((inner _ _ alike.leave).recordedAfter .nil) ?_
      rintro ⟨outer, chunks⟩ ⟨around, others⟩ ⟨outside, kept⟩
      exact .finish (outside.enter (.cons ⟨rfl, kept⟩ alike.own))
    -- Asked for again, both put out what they have recorded.
    case some.some chunks others kept => exact chunks_revised kept alike

/-! ## Lines -/

theorem childrenFlow_append (setting : Setting σ) (context : Context (SectionFlow σ))
    (environment : Lexical.Environment) (progress : Progress)
    (nodes others : List Template.Node) :
    Lexical.childrenFlow interpretation absent setting context environment progress
        (nodes ++ others) =
      Lexical.childrenFlow interpretation absent setting context environment progress nodes >>=
        fun progress => Lexical.childrenFlow interpretation absent setting context environment
          progress others := by
  induction nodes generalizing progress with
  | nil => rfl
  | cons node nodes ih =>
    by_cases stray : ∃ part, node = .stray part
    · obtain ⟨part, rfl⟩ := stray
      exact ih progress
    · rw [List.cons_append, Lexical.childrenFlow_cons stray, Lexical.childrenFlow_cons stray,
        bind_assoc]
      exact bind_congr fun progress => ih progress

theorem Children.append {nodes others more further : List Template.Node}
    (first : versions.Children environment nodes others)
    (second : versions.Children environment more further) :
    versions.Children environment (nodes ++ more) (others ++ further) := by
  intro progress later alike
  simp only [childrenFlow_append]
  exact (first _ _ alike).bind second

theorem Children.single {node other : Template.Node} (kept : ¬∃ part, node = .stray part)
    (others : ¬∃ part, other = .stray part) (revised : versions.Node environment node other) :
    versions.Children environment [node] [other] := by
  intro progress later alike
  simp only [Lexical.childrenFlow_cons kept, Lexical.childrenFlow_cons others]
  exact (revised _ _ alike).bind fun _ _ alike => .finish alike

theorem Block.cons {children others rest further : List Template.Node}
    (here : versions.Children environment children others)
    (later : versions.Block environment rest further) (isNewline : Bool) (source : String)
    (indentation : Option String) :
    versions.Block environment (.line ⟨children, isNewline, source, indentation⟩ :: rest)
      (.line ⟨others, isNewline, source, indentation⟩ :: further) := by
  intro hasContent progress after alike
  simp only [Lexical.blockFlow, Lexical.lineFlow]
  refine ((here _ _ alike).line _ indentation .fresh).bind ?_
  rintro ⟨progress, content⟩ ⟨after, _⟩ ⟨alike, rfl⟩
  exact later _ _ _ alike

/-- What cannot be a member of a block is none in both versions. -/
theorem Block.foreign {node : Template.Node} (foreign : ¬∃ line, node = .line line)
    (rest others : List Template.Node) :
    versions.Block environment (node :: rest) (node :: others) := by
  intro hasContent progress later _
  cases node
  case line line => exact absurd ⟨line, rfl⟩ foreign
  all_goals exact .fail absent

/-! ## What is the same in both versions -/

mutual

theorem node_same {versions : Versions interpretation absent revision reached} :
    (node : Template.Node) → (∀ inclusion ∈ node.includes, reached inclusion) →
    ∀ environment, versions.Node environment node node
  | .literal text, _, _ => fun _ _ alike => .emit fun _ => .finish alike
  | .line _, _, _ | .stray _, _, _ => fun _ _ _ => .fail absent
  | .expression kind fragment, _, _ => .expression kind fragment
  | .binding name fragment body, known, _ =>
    .binding name fragment fun _ => block_same body known _
  | .choice condition body otherwise, known, _ => by
    obtain ⟨here, there⟩ := List.forall_mem_append.1 known
    exact .choice condition (block_same body here _) (block_same otherwise there _)
  | .loop item index iterable separator body fallback, known, _ => by
    obtain ⟨here, there⟩ := List.forall_mem_append.1 known
    exact .loop item index iterable separator (fun _ _ => block_same body here _)
      (block_same fallback there _)
  | .transform fragment body, known, _ => .transform fragment (block_same body known _)
  | .inclusion target forwards sections, known, _ => by
    obtain ⟨here, there⟩ := List.forall_mem_cons.1 known
    exact .inclusion forwards here (sections_same sections there _)
  | .slot name, _, _ => .slot name

theorem children_same {versions : Versions interpretation absent revision reached} :
    (nodes : List Template.Node) → (∀ inclusion ∈ includesOf nodes, reached inclusion) →
    ∀ environment, versions.Children environment nodes nodes
  | [], _, _ => fun _ _ alike => .finish alike
  | node :: rest, known, environment => by
    obtain ⟨here, there⟩ := List.forall_mem_append.1 known
    have others : versions.Children environment rest rest := children_same rest there environment
    by_cases stray : ∃ part, node = .stray part
    · obtain ⟨part, rfl⟩ := stray
      exact others
    · exact (Children.single stray stray (node_same node here environment)).append others

theorem block_same {versions : Versions interpretation absent revision reached} :
    (lines : List Template.Node) → (∀ inclusion ∈ includesOf lines, reached inclusion) →
    ∀ environment, versions.Block environment lines lines
  | [], _, _ => fun _ _ _ alike => .finish alike
  | .line ⟨children, isNewline, source, indentation⟩ :: rest, known, environment => by
    obtain ⟨here, there⟩ := List.forall_mem_append.1 known
    exact .cons (children_same children here environment) (block_same rest there environment)
      isNewline source indentation
  | .literal _ :: _, _, _ | .expression .. :: _, _, _ | .binding .. :: _, _, _
  | .choice .. :: _, _, _ | .loop .. :: _, _, _ | .transform .. :: _, _, _
  | .inclusion .. :: _, _, _ | .slot _ :: _, _, _ | .stray _ :: _, _, _ =>
    fun _ _ _ _ => .fail absent

theorem sections_same {versions : Versions interpretation absent revision reached} :
    (sections : List Template.Section) →
    (∀ inclusion ∈ sectionIncludes sections, reached inclusion) →
    ∀ environment, List.Forall₂ (fun part supplied =>
      part.name = supplied.name ∧ versions.Block environment part.body supplied.body) sections
      sections
  | [], _, _ => .nil
  | ⟨_, body⟩ :: rest, known, environment => by
    obtain ⟨here, there⟩ := List.forall_mem_append.1 known
    exact .cons ⟨rfl, block_same body here environment⟩ (sections_same rest there environment)

end

end Versions

end Stencil
