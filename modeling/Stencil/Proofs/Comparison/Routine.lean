import Stencil.Proofs.Comparison.Flow
import Stencil.Proofs.Leaves
import Stencil.Proofs.Parts
import Stencil.Render.Document

/-! # Two renderings side by side

If two settings enter documents alike, and the texts and outputs of a program are alike in them,
its routines have flows that are alike, whatever they include and whatever sections they are
supplied with.  What a transform gathers must be the same on both sides, for it is bound to a
name.
-/

namespace Stencil

open Program (Routine Line Section Expression Part)

variable {σ α β : Type} (like : Likeness σ)

/-! ## What flows depend on -/

/-- The same sections have been recorded, with chunks that stand for each other. -/
def Recordings.Alike : Recordings → Recordings → Prop :=
  List.Forall₂ fun one other => one.1 = other.1 ∧ like.Chunks one.2 other.2

def Progress.Alike (one other : Progress) : Prop :=
  List.Forall₂ (Recordings.Alike like) one.recordings other.recordings

def SectionFlow.Alike (one other : SectionFlow σ) : Prop :=
  ∀ progress later, Progress.Alike like progress later →
    Flow.Alike like (Progress.Alike like) (one progress) (other later)

structure Context.Alike (one other : Context (SectionFlow σ)) : Prop where
  forwards : one.forwards = other.forwards
  sections : List.Forall₂ (fun part supplied =>
    part.1 = supplied.1 ∧ SectionFlow.Alike like part.2 supplied.2) one.sections other.sections

structure Scope.Alike (one other : Scope (SectionFlow σ)) : Prop where
  frames : one.frames = other.frames
  context : Context.Alike like one.context other.context

inductive Entrance.Alike : Entrance σ → Entrance σ → Prop where
  | failing {error : RenderError} {other : Entrance σ} :
      like.cut (.failed error) → Entrance.Alike (.refused error) other
  | sinking {other : Entrance σ} : like.cut .bottomless → Entrance.Alike .bottomless other
  | refused (error : RenderError) : Entrance.Alike (.refused error) (.refused error)
  | bottomless : like.deep → Entrance.Alike .bottomless .bottomless
  | admitted {render : Scope (SectionFlow σ) → Progress → Flow σ Progress}
      {other : Scope (SectionFlow σ) → Progress → Flow σ Progress} :
      (∀ scope within, Scope.Alike like scope within →
        SectionFlow.Alike like (render scope) (other within)) →
      Entrance.Alike (.admitted render) (.admitted other)

structure Setting.Alike (one other : Setting σ) : Prop where
  enter : ∀ target, Entrance.Alike like (one.enter target) (other.enter target)

/-- A value that the expression may have on both sides. -/
def Program.Expression.Answers (expression : Expression σ) (value : Value) : Prop :=
  ∃ bindings, like.answers expression.callable ⟨expression.source, bindings⟩ value

/-- A leaf of a value that was the answer of an output of the program. -/
def Program.Shows (program : Program σ) (answers : Host.Callable σ → Invocation → Value → Prop)
    (raw : Bool) (leaf : Leaf) : Prop :=
  ∃ expression bindings value, .routine (.output expression raw) ∈ program.parts ∧
    answers expression.callable ⟨expression.source, bindings⟩ value ∧ leaf ∈ value.leaves

/-- Whatever parts of a program put out under two ways of escaping may stand for each other. -/
structure Program.Suits (one other : Escape) (parts : List (Part σ)) : Prop where
  texts : ∀ part ∈ parts, ∀ text ∈ part.texts, like.Keeps text
  outputs : ∀ expression raw, .routine (.output expression raw) ∈ parts →
    ∀ value, expression.Answers like value →
      like.Chunks (value.chunks raw one) (value.chunks raw other)
  transforms : ∀ expression body, .routine (.transform expression body) ∈ parts → like.Exact

variable {like}

namespace Program.Suits

variable {one other : Escape} {parts others : List (Part σ)}

theorem mono (suits : Suits like one other parts) (fewer : ∀ part ∈ others, part ∈ parts) :
    Suits like one other others where
  texts part member := suits.texts part (fewer part member)
  outputs expression raw member := suits.outputs expression raw (fewer _ member)
  transforms expression body member := suits.transforms expression body (fewer _ member)

theorem tail {part : Part σ} (suits : Suits like one other (part :: parts)) :
    Suits like one other parts :=
  suits.mono fun _ => List.mem_cons_of_mem part

theorem left (suits : Suits like one other (parts ++ others)) : Suits like one other parts :=
  suits.mono fun _ => List.mem_append_left others

theorem right (suits : Suits like one other (parts ++ others)) : Suits like one other others :=
  suits.mono fun _ => List.mem_append_right parts

/-- With the same chunks on both sides there is nothing to ask of a program. -/
theorem of_exact (precise : like.Exact) (escape : Escape) (parts : List (Part σ)) :
    Suits like escape escape parts where
  texts _ _ text _ := (precise text text).2 rfl
  outputs _ raw _ value _ := precise.chunks (value.chunks raw escape)
  transforms _ _ _ := precise

end Program.Suits

theorem Context.alike_root : Context.Alike like .root .root :=
  ⟨rfl, .nil⟩

theorem Scope.Alike.extend {scope within : Scope (SectionFlow σ)}
    (scopes : Scope.Alike like scope within) (frame : Frame) :
    Scope.Alike like (scope.extend frame) (within.extend frame) :=
  ⟨congrArg (frame :: ·) scopes.frames, scopes.context⟩

/-! If two progresses have related recordings, document by document, so they have when a document
is left. -/

namespace Progress

variable {one other : Progress} {related : Recordings → Recordings → Prop}

theorem leave_forall₂ (same : List.Forall₂ related one.recordings other.recordings) :
    List.Forall₂ related one.leave.recordings other.leave.recordings := by
  simpa [leave] using List.forall₂_drop 1 same

theorem own_forall₂ (same : List.Forall₂ related one.recordings other.recordings)
    (empty : related [] []) : related one.own other.own := by
  obtain ⟨recordings⟩ := one
  obtain ⟨others⟩ := other
  cases same with
  | nil => exact empty
  | cons first _ => exact first

end Progress

namespace Progress.Alike

variable {one other : Progress}

theorem enter (alike : Progress.Alike like one other) {kept others : Recordings}
    (same : Recordings.Alike like kept others) :
    Progress.Alike like (one.enter kept) (other.enter others) :=
  .cons same alike

theorem leave (alike : Progress.Alike like one other) :
    Progress.Alike like one.leave other.leave :=
  leave_forall₂ alike

theorem own (alike : Progress.Alike like one other) :
    Recordings.Alike like one.own other.own :=
  own_forall₂ alike .nil

end Progress.Alike

/-- What is found under a name in two lists with the same names is related as the entries are. -/
theorem lookup_forall₂ {related : α → β → Prop} {entries : List (String × α)}
    {others : List (String × β)}
    (same : List.Forall₂ (fun one other => one.1 = other.1 ∧ related one.2 other.2) entries others)
    (name : String) :
    Option.Rel related (entries.lookup name) (others.lookup name) := by
  induction same with
  | nil => exact .none
  | @cons one other entries others first _ ih =>
    obtain ⟨key, value⟩ := one
    obtain ⟨_, value'⟩ := other
    obtain ⟨rfl, here⟩ := first
    simp only [List.lookup_cons]
    cases name == key with
    | true => exact .some here
    | false => exact ih

/-! ## Evaluation -/

theorem Program.Expression.evaluate_alike (expression : Expression σ)
    {scope within : Scope (SectionFlow σ)} (frames : scope.frames = within.frames) :
    Flow.Alike like (fun one other => one = other ∧ expression.Answers like one)
      (expression.evaluate scope) (expression.evaluate within) := by
  have reads : Expression.readName scope = Expression.readName within := by
    funext read
    simp only [Expression.readName, Scope.resolve?, frames]
  have same : expression.bindings scope = expression.bindings within := by
    simp only [Expression.bindings, reads]
  rw [Expression.evaluate, Expression.evaluate, same]
  cases expression.bindings within with
  | ok bindings => exact .call fun _ answered => .finish ⟨rfl, bindings, answered⟩
  | error error => exact .fail error

theorem Program.Expression.evaluateAll_alike (expressions : List (String × Expression σ))
    {scope within : Scope (SectionFlow σ)} (frames : scope.frames = within.frames) :
    Flow.Alike like Eq (Expression.evaluateAll scope expressions)
      (Expression.evaluateAll within expressions) := by
  induction expressions with
  | nil => exact .finish rfl
  | cons named rest ih =>
    refine (evaluate_alike named.2 frames).bind ?_
    rintro value _ ⟨rfl, -⟩
    refine ih.bind ?_
    rintro values _ rfl
    exact .finish rfl

theorem Program.boundValue_alike (name : String) (expression : Option (Expression σ))
    {scope within : Scope (SectionFlow σ)} (scopes : Scope.Alike like scope within) :
    Flow.Alike like Eq (boundValue scope name expression)
      (boundValue within name expression) := by
  cases expression with
  | some expression => exact (expression.evaluate_alike scopes.frames).mono fun _ _ same => same.1
  | none =>
    have same : scope.context.forwarded name = within.context.forwarded name := by
      simp only [Context.forwarded, Context.forwarded?, scopes.context.forwards]
    simp only [boundValue, same]
    exact .ofExcept (fun _ => rfl) _

/-! ## Constructs -/

theorem Flow.rounds_alike {separator : Option String}
    (kept : ∀ text ∈ separator, like.Keeps text)
    {body others : Nat → Value → Progress → Flow σ Progress}
    (alike : ∀ position element,
      SectionFlow.Alike like (body position element) (others position element))
    (position : Nat) (hasContent : Bool) (elements : List Value) :
    SectionFlow.Alike like (Flow.rounds separator body position hasContent elements)
      (Flow.rounds separator others position hasContent elements) := by
  induction elements generalizing position hasContent with
  | nil => exact fun _ _ same => .finish same
  | cons element elements ih =>
    intro progress later same
    have between : ∀ text ∈ if hasContent then separator else none, like.Keeps text := by
      cases hasContent with
      | true => exact kept
      | false => exact nofun
    refine .round fun _ => .bind ((alike position element _ _ same).joined between false) ?_
    rintro ⟨progress, content⟩ ⟨later, _⟩ ⟨same, rfl⟩
    exact ih (position + 1) (hasContent || content) _ _ same

theorem Flow.leadOf_kept {terminator : Option String}
    (kept : ∀ text ∈ terminator, like.Keeps text) (hasContent : Bool) :
    like.Keeps (Flow.leadOf terminator hasContent) := by
  cases hasContent with
  | false => exact like.blank
  | true =>
    cases terminator with
    | none => exact like.blank
    | some text => exact kept text rfl

theorem Flow.slot_alike {one other : Context (SectionFlow σ)}
    (contexts : Context.Alike like one other) (name : String) :
    SectionFlow.Alike like (Flow.slot one name) (Flow.slot other name) := by
  intro progress later same
  simp only [Flow.slot, Context.section?]
  have supplied := lookup_forall₂ contexts.sections name
  revert supplied
  cases one.sections.lookup name <;> cases other.sections.lookup name <;> rintro ⟨⟩
  case none.none => exact .finish same
  case some.some body others alike =>
    dsimp only
    have recorded := lookup_forall₂ same.own name
    revert recorded
    cases progress.own.lookup name <;> cases later.own.lookup name <;> rintro ⟨⟩
    case none.none =>
      -- Asked for the first time, both record what the section puts out.
      refine .bind (alike _ _ same.leave).recorded ?_
      rintro ⟨outer, chunks⟩ ⟨around, others⟩ ⟨outside, kept⟩
      exact .finish (outside.enter (.cons ⟨rfl, kept⟩ same.own))
    case some.some chunks others kept =>
      exact (Flow.Alike.emitAll kept).bind fun _ _ _ => .finish same

namespace Program

variable {one other : Setting σ}

theorem chunks_alike {texts others : List String} (chunks : like.Chunks texts others)
    {progress later : Progress} (same : Progress.Alike like progress later) :
    Flow.Alike like (Progress.Alike like)
      (Flow.emitAll texts >>= fun _ => .finish progress)
      (Flow.emitAll others >>= fun _ => .finish later) :=
  (Flow.Alike.emitAll chunks).bind fun _ _ _ => .finish same

mutual

theorem routine_alike (settings : Setting.Alike like one other)
    {scope within : Scope (SectionFlow σ)} (scopes : Scope.Alike like scope within) :
    (routine : Routine σ) →
    Suits like one.escape other.escape (.routine routine :: routine.innerParts) →
    SectionFlow.Alike like (fun progress => routineFlow one scope progress routine)
      fun progress => routineFlow other within progress routine
  | .literal text, suits => fun _ _ same =>
    .emit (suits.texts _ (List.mem_cons_self ..) text (List.mem_cons_self ..)) fun _ =>
      .finish same
  | .output expression raw, suits => by
    intro progress later same
    refine (expression.evaluate_alike scopes.frames).bind ?_
    rintro value _ ⟨rfl, answered⟩
    exact chunks_alike (suits.outputs expression raw (List.mem_cons_self ..) value answered) same
  | .effect expression, _ => by
    intro progress later same
    exact (expression.evaluate_alike scopes.frames).bind fun _ _ _ => .finish same
  | .binding name expression body, suits => by
    intro progress later same
    refine (boundValue_alike name expression scopes).bind ?_
    rintro value _ rfl
    have inner := scopes.extend [(name, value)]
    exact block_alike settings inner false body suits.tail _ _ same
  | .choice condition body otherwise, suits => by
    intro progress later same
    refine (condition.evaluate_alike scopes.frames).bind ?_
    rintro value _ ⟨rfl, -⟩
    cases value.isTruthy with
    | true => exact block_alike settings scopes false body suits.tail.left _ _ same
    | false => exact block_alike settings scopes false otherwise suits.tail.right _ _ same
  | .loop item index iterable separator body fallback, suits => by
    intro progress later same
    refine (iterable.evaluate_alike scopes.frames).bind ?_
    rintro value _ ⟨rfl, -⟩
    cases value.items? with
    | none => exact .fail _
    | some elements =>
      cases elements with
      | nil => exact block_alike settings scopes false fallback suits.tail.right _ _ same
      | cons element elements =>
        have kept : ∀ text ∈ separator, like.Keeps text := fun text member =>
          suits.texts _ (List.mem_cons_self ..) text (Option.mem_toList.2 member)
        refine Flow.rounds_alike kept (fun position element => ?_) 0 false _ _ _ same
        have inner := scopes.extend (loopFrame item index position element)
        exact block_alike settings inner false body suits.tail.left
  | .transform expression body, suits => by
    intro progress later same
    have precise := suits.transforms expression body (List.mem_cons_self ..)
    have inside := block_alike settings scopes false body suits.tail _ _ same
    refine .bind (.gathered precise inside) ?_
    rintro ⟨progress, text⟩ ⟨later, _⟩ ⟨same, rfl⟩
    refine (expression.evaluate_alike (scopes.extend [(blockName, .text text)]).frames).bind ?_
    rintro value _ ⟨rfl, -⟩
    exact chunks_alike (precise.chunks (value.chunks true .plain)) same
  | .inclusion target forwards sections, suits => by
    intro progress later same
    have supplied := sections_alike settings scopes sections suits.tail
    have entered := settings.enter target
    revert entered
    simp only [routineFlow]
    rcases one.enter target with ⟨render⟩ | ⟨error⟩ | _ <;>
      rcases other.enter target with ⟨others⟩ | ⟨refusal⟩ | _ <;>
      intro entered <;> cases entered
    case admitted.admitted documents =>
      refine (Expression.evaluateAll_alike forwards scopes.frames).bind ?_
      rintro values _ rfl
      have contexts : Context.Alike like
          (scope.context.within values (sectionFlows one scope sections))
          (within.context.within values (sectionFlows other within sections)) :=
        ⟨rfl, List.rel_reverse supplied⟩
      have inner : Scope.Alike like (.root (scope.context.within values _))
          (.root (within.context.within values _)) := ⟨rfl, contexts⟩
      refine (documents _ _ inner _ _ (same.enter .nil)).bind ?_
      exact fun _ _ same => .finish same.leave
    case bottomless.bottomless.bottomless deep => exact .bottomless deep
    case refused.refused.refused => exact .fail error
    -- In all other cases the first rendering is cut off.
    all_goals first | exact .failing ‹_› | exact .sinking ‹_›
  | .slot name, _ => Flow.slot_alike scopes.context name

theorem children_alike (settings : Setting.Alike like one other)
    {scope within : Scope (SectionFlow σ)} (scopes : Scope.Alike like scope within) :
    (children : List (Routine σ)) → Suits like one.escape other.escape (childParts children) →
    SectionFlow.Alike like (fun progress => childrenFlow one scope progress children)
      fun progress => childrenFlow other within progress children
  | [], _ => fun _ _ same => .finish same
  | child :: children, suits => by
    intro progress later same
    rw [childParts, ← List.cons_append] at suits
    refine (routine_alike settings scopes child suits.left _ _ same).bind ?_
    exact fun progress later same =>
      children_alike settings scopes children suits.right _ _ same

theorem block_alike (settings : Setting.Alike like one other)
    {scope within : Scope (SectionFlow σ)} (scopes : Scope.Alike like scope within)
    (hasContent : Bool) :
    (lines : List (Line σ)) → Suits like one.escape other.escape (blockParts lines) →
    SectionFlow.Alike like (fun progress => blockFlow one scope hasContent progress lines)
      fun progress => blockFlow other within hasContent progress lines
  | [], _ => fun _ _ same => .finish same
  | ⟨children, terminator, indentation⟩ :: lines, suits => by
    intro progress later same
    have texts := suits.texts _ (List.mem_cons_self ..)
    have led := Flow.leadOf_kept (fun text member =>
      texts text (List.mem_append_left _ (Option.mem_toList.2 member))) hasContent
    have kept : ∀ text ∈ indentation, like.Keeps text := fun text member =>
      texts text (List.mem_append_right _ (Option.mem_toList.2 member))
    have inside := children_alike settings scopes children suits.tail.left _ _ same
    refine (inside.line led kept .fresh).bind ?_
    rintro ⟨progress, content⟩ ⟨later, _⟩ ⟨same, rfl⟩
    exact block_alike settings scopes (hasContent || content) lines suits.tail.right _ _ same

theorem sections_alike (settings : Setting.Alike like one other)
    {scope within : Scope (SectionFlow σ)} (scopes : Scope.Alike like scope within) :
    (sections : List (Section σ)) → Suits like one.escape other.escape (sectionParts sections) →
    List.Forall₂ (fun part supplied =>
        part.1 = supplied.1 ∧ SectionFlow.Alike like part.2 supplied.2)
      (sectionFlows one scope sections) (sectionFlows other within sections)
  | [], _ => .nil
  | ⟨_, body⟩ :: sections, suits =>
    .cons ⟨rfl, block_alike settings scopes false body suits.left⟩
      (sections_alike settings scopes sections suits.right)

end

end Program

/-! ## Documents -/

namespace Program

variable {program : Program σ} {one other : Render.Options σ}

/-- With the same number of further levels on one side, documents are entered alike if they are
where the levels of the first side end. -/
theorem entrance_alike (suits : Suits like one.escape other.escape program.parts) (extra : Nat)
    (bottom : ∀ target, Entrance.Alike like (program.entrance one 0 target)
      (program.entrance other extra target)) (levels : Nat) (target : DocId) :
    Entrance.Alike like (program.entrance one levels target)
      (program.entrance other (extra + levels) target) := by
  induction levels generalizing target with
  | zero => exact bottom target
  | succ levels ih =>
    rw [Nat.add_succ]
    simp only [entrance]
    cases found : program.document? target with
    | none => exact .refused _
    | some block =>
      refine .admitted fun scope within scopes => ?_
      exact block_alike ⟨ih⟩ scopes false block (suits.mono (parts_of_document found))

/-- Two renderings of a document are alike, where the second has as many further levels of
includes. -/
theorem flow_alike (suits : Suits like one.escape other.escape program.parts) (extra : Nat)
    (bottom : ∀ target, Entrance.Alike like (program.entrance one 0 target)
      (program.entrance other extra target))
    (levels : other.maxIncludeDepth.getD horizon = extra + one.maxIncludeDepth.getD horizon)
    (document : DocId) :
    Flow.Alike like (Progress.Alike like) (program.flow one document)
      (program.flow other document) := by
  have enter := entrance_alike suits extra bottom (one.maxIncludeDepth.getD horizon)
  simp only [flow]
  cases found : program.document? document with
  | none => exact .fail _
  | some block =>
    rw [← levels] at enter
    exact block_alike ⟨enter⟩ ⟨rfl, Context.alike_root⟩ false block
      (suits.mono (parts_of_document found)) .start .start .nil

theorem flow_alike_of_depth (suits : Suits like one.escape other.escape program.parts)
    (deep : like.deep) (depth : one.maxIncludeDepth = other.maxIncludeDepth) (document : DocId) :
    Flow.Alike like (Progress.Alike like) (program.flow one document)
      (program.flow other document) := by
  refine flow_alike suits 0 (fun target => ?_) ?_ document
  · simp only [entrance, depth]
    cases other.maxIncludeDepth with
    | none => exact .bottomless deep
    | some limit => exact .refused _
  · rw [depth, Nat.zero_add]

end Program

end Stencil
