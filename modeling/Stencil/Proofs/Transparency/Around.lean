import Stencil.Proofs.Comparison.Routine
import Stencil.Proofs.Lexical.Appended
import Stencil.Proofs.Transparency.Extended

/-! # What does not matter to a document

A document that is supplied with no sections does the same wherever it is rendered.  It does not
look at the recordings of the documents around it, for only the sections of those could; its
own includes and their sections come back to it before it ends.  Of its program it knows no
more than the documents that its includes name, and it is enough if these are entered alike.
-/

namespace Stencil

open Program (Routine Line Section Block Expression Part)

variable {σ : Type}

/-! ## Progress within different documents -/

/-- In both the same documents are being rendered, so many of them, and other ones around
them. -/
def Progress.Beside (outer around : List Recordings) (inside : Nat) (one other : Progress) :
    Prop :=
  ∃ inner : List Recordings, inner.length = inside ∧ one.recordings = inner ++ outer ∧
    other.recordings = inner ++ around

namespace Progress.Beside

variable {outer around : List Recordings} {inside : Nat} {one other : Progress}

theorem enter (beside : Beside outer around inside one other) (recordings : Recordings) :
    Beside outer around (inside + 1) (one.enter recordings) (other.enter recordings) := by
  obtain ⟨inner, rfl, here, there⟩ := beside
  exact ⟨recordings :: inner, rfl, congrArg (recordings :: ·) here,
    congrArg (recordings :: ·) there⟩

theorem leave (beside : Beside outer around (inside + 1) one other) :
    Beside outer around inside one.leave other.leave := by
  obtain ⟨_ | ⟨recordings, inner⟩, count, here, there⟩ := beside
  · cases count
  · exact ⟨inner, Nat.succ.inj count, congrArg List.tail here, congrArg List.tail there⟩

theorem own (beside : Beside outer around (inside + 1) one other) : one.own = other.own := by
  obtain ⟨_ | ⟨recordings, inner⟩, count, here, there⟩ := beside
  · cases count
  · simp only [Progress.own, here, there, List.cons_append, List.headD_cons]

/-- The same documents in the same surroundings. -/
theorem eq (beside : Beside outer outer inside one other) : other = one := by
  obtain ⟨inner, -, here, there⟩ := beside
  exact congrArg Progress.mk (there.trans here.symm)

end Progress.Beside

/-! ## What flows depend on -/

section Relations

variable (exempt : Ending → Prop) (outer around : List Recordings)

def SectionFlow.ExtendedBy (inside : Nat) (one other : SectionFlow σ) : Prop :=
  ∀ progress later, Progress.Beside outer around inside progress later →
    Flow.ExtendedBy exempt (Progress.Beside outer around inside) (one progress) (other later)

/-- A section of a document is a part of the one around it. -/
def SectionFlow.SuppliedBy (inside : Nat) (one other : SectionFlow σ) : Prop :=
  ∃ below, inside = below + 1 ∧ SectionFlow.ExtendedBy exempt outer around below one other

structure Context.ExtendedBy (inside : Nat) (one other : Context (SectionFlow σ)) : Prop where
  forwards : one.forwards = other.forwards
  sections : List.Forall₂ (fun part supplied =>
    part.1 = supplied.1 ∧ SectionFlow.SuppliedBy exempt outer around inside part.2 supplied.2)
    one.sections other.sections

inductive Entrance.ExtendedBy : Entrance σ → Entrance σ → Prop where
  | failing {error : RenderError} {other : Entrance σ} :
      exempt (.failed error) → ExtendedBy (.refused error) other
  | sinking {other : Entrance σ} : exempt .bottomless → ExtendedBy .bottomless other
  | refused (error : RenderError) : ExtendedBy (.refused error) (.refused error)
  | bottomless : ExtendedBy .bottomless .bottomless
  | admitted {render others : Scope (SectionFlow σ) → Progress → Flow σ Progress} :
      (∀ inside context other, Context.ExtendedBy exempt outer around inside context other →
        SectionFlow.ExtendedBy exempt outer around inside (render (.root context))
          (others (.root other))) →
      ExtendedBy (.admitted render) (.admitted others)

/-- Of so many documents each is entered alike. -/
def EntersAlike (size : Nat) (one other : DocId → Entrance σ) : Prop :=
  ∀ target, target.index < size →
    Entrance.ExtendedBy exempt outer around (one target) (other target)

end Relations

variable {exempt : Ending → Prop} {outer around : List Recordings} {inside size : Nat}

theorem Program.Expression.evaluate_context {β γ : Type} (expression : Expression σ)
    (frames : List Frame) (one : Context β) (other : Context γ) :
    expression.evaluate ⟨frames, one⟩ = expression.evaluate ⟨frames, other⟩ :=
  rfl

theorem Program.Expression.evaluateAll_context {β γ : Type} (frames : List Frame)
    (one : Context β) (other : Context γ) (expressions : List (String × Expression σ)) :
    evaluateAll ⟨frames, one⟩ expressions = evaluateAll ⟨frames, other⟩ expressions := by
  induction expressions with
  | nil => rfl
  | cons named rest ih =>
    simp only [evaluateAll, named.2.evaluate_context frames one other, ih]

theorem Program.boundValue_context {β : Type} (frames : List Frame) {one other : Context β}
    (forwards : one.forwards = other.forwards) (name : String)
    (expression : Option (Expression σ)) :
    boundValue ⟨frames, one⟩ name expression = boundValue ⟨frames, other⟩ name expression := by
  cases expression with
  | some expression => rfl
  | none => simp only [boundValue, Context.forwarded, Context.forwarded?, forwards]

/-! ## Constructs -/

theorem Flow.rounds_extended (separator : Option String)
    {body others : Nat → Value → Progress → Flow σ Progress}
    (extended : ∀ position element, SectionFlow.ExtendedBy exempt outer around inside
      (body position element) (others position element))
    (position : Nat) (hasContent : Bool) (elements : List Value) :
    SectionFlow.ExtendedBy exempt outer around inside
      (Flow.rounds separator body position hasContent elements)
      (Flow.rounds separator others position hasContent elements) := by
  induction elements generalizing position hasContent with
  | nil => exact fun _ _ beside => .finish beside
  | cons element elements ih =>
    intro progress later beside
    refine .round fun _ => .bind
      ((extended position element _ _ beside).through (.joined _) false) ?_
    rintro ⟨progress, content⟩ ⟨later, _⟩ ⟨beside, rfl⟩
    exact ih (position + 1) (hasContent || content) _ _ beside

theorem Flow.slot_extended {context other : Context (SectionFlow σ)}
    (contexts : Context.ExtendedBy exempt outer around inside context other) (name : String) :
    SectionFlow.ExtendedBy exempt outer around inside (Flow.slot context name)
      (Flow.slot other name) := by
  intro progress later beside
  simp only [Flow.slot, Context.section?]
  have supplied := lookup_forall₂ contexts.sections name
  revert supplied
  cases context.sections.lookup name <;> cases other.sections.lookup name <;> rintro ⟨⟩
  case none.none => exact .finish beside
  case some.some body others supplied =>
    -- Whoever supplies the section is inside as well, so its progress is known on both sides.
    obtain ⟨below, rfl, extended⟩ := supplied
    dsimp only
    rw [beside.own]
    cases later.own.lookup name with
    | some chunks => exact .after (Flow.emitAll chunks) fun _ => .finish beside
    | none =>
      refine .bind ((extended _ _ beside.leave).through .recordedAfter []) ?_
      rintro ⟨outside, chunks⟩ ⟨within, _⟩ ⟨left, rfl⟩
      exact .finish (left.enter _)

namespace Program

variable {escape : Escape} {enter others : DocId → Entrance σ}
  {context other : Context (SectionFlow σ)}

mutual

theorem routine_extended (alike : EntersAlike exempt outer around size enter others)
    (frames : List Frame) (contexts : Context.ExtendedBy exempt outer around inside context other) :
    (routine : Routine σ) →
    (∀ part ∈ Part.routine routine :: routine.innerParts, part.Aims size) →
    SectionFlow.ExtendedBy exempt outer around inside
      (fun progress => routineFlow ⟨escape, enter⟩ ⟨frames, context⟩ progress routine)
      fun progress => routineFlow ⟨escape, others⟩ ⟨frames, other⟩ progress routine
  | .literal text, _ => fun _ _ beside => .emit rfl fun _ => .finish beside
  | .output expression raw, _ => by
    intro progress later beside
    exact .after (expression.evaluate ⟨frames, context⟩) fun value =>
      .after (Flow.emitAll (value.chunks raw escape)) fun _ => .finish beside
  | .effect expression, _ => by
    intro progress later beside
    exact .after (expression.evaluate ⟨frames, context⟩) fun _ => .finish beside
  | .binding name expression body, aims => by
    intro progress later beside
    simp only [routineFlow, boundValue_context frames contexts.forwards]
    refine .after _ fun value => ?_
    exact block_extended alike ([(name, value)] :: frames) contexts false body
      (List.forall_mem_cons.1 aims).2 _ _ beside
  | .choice condition body otherwise, aims => by
    intro progress later beside
    obtain ⟨first, second⟩ := List.forall_mem_append.1 (List.forall_mem_cons.1 aims).2
    refine .after (condition.evaluate ⟨frames, context⟩) fun value => ?_
    cases value.isTruthy with
    | true => exact block_extended alike frames contexts false body first _ _ beside
    | false => exact block_extended alike frames contexts false otherwise second _ _ beside
  | .loop item index iterable separator body fallback, aims => by
    intro progress later beside
    obtain ⟨first, second⟩ := List.forall_mem_append.1 (List.forall_mem_cons.1 aims).2
    refine .after (iterable.evaluate ⟨frames, context⟩) fun value => ?_
    cases value.items? with
    | none => exact .fail _
    | some elements =>
      cases elements with
      | nil => exact block_extended alike frames contexts false fallback second _ _ beside
      | cons element elements =>
        refine Flow.rounds_extended separator (fun position element => ?_) 0 false _ _ _ beside
        exact block_extended alike (loopFrame item index position element :: frames) contexts
          false body first
  | .transform expression body, aims => by
    intro progress later beside
    have inner := block_extended alike frames contexts false body
      (List.forall_mem_cons.1 aims).2 _ _ beside
    refine .bind (inner.gathered (Likeness.same_exact _ _)) ?_
    rintro ⟨progress, text⟩ ⟨later, _⟩ ⟨beside, rfl⟩
    refine .after (expression.evaluate ⟨[(blockName, .text text)] :: frames, context⟩)
      fun value => ?_
    exact .after (Flow.emitAll (value.chunks true escape)) fun _ => .finish beside
  | .inclusion target forwards sections, aims => by
    intro progress later beside
    obtain ⟨here, below⟩ := List.forall_mem_cons.1 aims
    have supplied := sections_extended alike frames contexts sections below
    have entered := alike target (here target forwards sections rfl)
    revert entered
    simp only [routineFlow]
    rcases enter target with ⟨render⟩ | ⟨error⟩ | _ <;>
      rcases others target with ⟨renders⟩ | ⟨refusal⟩ | _ <;>
      intro entered <;> cases entered
    case admitted.admitted documents =>
      rw [Expression.evaluateAll_context frames context other]
      refine .after _ fun values => ?_
      have inner : Context.ExtendedBy exempt outer around (inside + 1)
          (context.within values (sectionFlows ⟨escape, enter⟩ ⟨frames, context⟩ sections))
          (other.within values (sectionFlows ⟨escape, others⟩ ⟨frames, other⟩ sections)) :=
        ⟨rfl, List.rel_reverse supplied⟩
      refine (documents _ _ _ inner _ _ (beside.enter [])).bind ?_
      exact fun _ _ within => .finish within.leave
    case refused.refused.refused => exact .fail error
    case bottomless.bottomless.bottomless => exact .bottomless True.intro
    -- In all other cases the first rendering comes to an exempt end.
    all_goals first | exact .failing ‹_› | exact .sinking ‹_›
  | .slot name, _ => Flow.slot_extended contexts name

theorem children_extended (alike : EntersAlike exempt outer around size enter others)
    (frames : List Frame) (contexts : Context.ExtendedBy exempt outer around inside context other) :
    (children : List (Routine σ)) → (∀ part ∈ childParts children, part.Aims size) →
    SectionFlow.ExtendedBy exempt outer around inside
      (fun progress => childrenFlow ⟨escape, enter⟩ ⟨frames, context⟩ progress children)
      fun progress => childrenFlow ⟨escape, others⟩ ⟨frames, other⟩ progress children
  | [], _ => fun _ _ beside => .finish beside
  | child :: children, aims => by
    intro progress later beside
    rw [childParts, ← List.cons_append] at aims
    obtain ⟨here, below⟩ := List.forall_mem_append.1 aims
    refine (routine_extended alike frames contexts child here _ _ beside).bind ?_
    exact fun _ _ beside => children_extended alike frames contexts children below _ _ beside

theorem block_extended (alike : EntersAlike exempt outer around size enter others)
    (frames : List Frame) (contexts : Context.ExtendedBy exempt outer around inside context other)
    (hasContent : Bool) :
    (lines : List (Line σ)) → (∀ part ∈ blockParts lines, part.Aims size) →
    SectionFlow.ExtendedBy exempt outer around inside
      (fun progress => blockFlow ⟨escape, enter⟩ ⟨frames, context⟩ hasContent progress lines)
      fun progress => blockFlow ⟨escape, others⟩ ⟨frames, other⟩ hasContent progress lines
  | [], _ => fun _ _ beside => .finish beside
  | ⟨children, terminator, indentation⟩ :: lines, aims => by
    intro progress later beside
    obtain ⟨here, below⟩ := List.forall_mem_append.1 (List.forall_mem_cons.1 aims).2
    have inner := children_extended alike frames contexts children here _ _ beside
    refine (inner.through (.line (Flow.leadOf terminator hasContent) indentation) .fresh).bind ?_
    rintro ⟨progress, content⟩ ⟨later, _⟩ ⟨beside, rfl⟩
    exact block_extended alike frames contexts (hasContent || content) lines below _ _ beside

theorem sections_extended (alike : EntersAlike exempt outer around size enter others)
    (frames : List Frame) (contexts : Context.ExtendedBy exempt outer around inside context other) :
    (sections : List (Section σ)) → (∀ part ∈ sectionParts sections, part.Aims size) →
    List.Forall₂ (fun part supplied => part.1 = supplied.1 ∧
        SectionFlow.SuppliedBy exempt outer around (inside + 1) part.2 supplied.2)
      (sectionFlows ⟨escape, enter⟩ ⟨frames, context⟩ sections)
      (sectionFlows ⟨escape, others⟩ ⟨frames, other⟩ sections)
  | [], _ => .nil
  | ⟨_, body⟩ :: sections, aims =>
    .cons ⟨rfl, inside, rfl,
        block_extended alike frames contexts false body (List.forall_mem_append.1 aims).1⟩
      (sections_extended alike frames contexts sections (List.forall_mem_append.1 aims).2)

end

end Program

/-! ## Documents -/

namespace Program

variable {program larger : Program σ} {options others : Render.Options σ}

/-- Where no include is left in either rendering, both refuse it. -/
theorem entrance_bottom (size : Nat) :
    EntersAlike exempt outer around size (larger.entrance options 0)
      (program.entrance options 0) := by
  intro target _
  simp only [entrance]
  cases options.maxIncludeDepth with
  | none => exact .bottomless
  | some limit => exact .refused _

/-- In the first of two renderings there may be fewer includes left, as long as it then ends in an
exempt way.  Of the options both have to escape texts alike. -/
theorem entrance_extended (partOf : program.PartOf larger) (escape : options.escape = others.escape)
    (extra : Nat)
    (bottom : EntersAlike exempt outer around program.size (larger.entrance options 0)
      (program.entrance others extra)) (levels : Nat) :
    EntersAlike exempt outer around program.size (larger.entrance options levels)
      (program.entrance others (extra + levels)) := by
  induction levels with
  | zero => exact bottom
  | succ levels ih =>
    intro target known
    rw [Nat.add_succ]
    simp only [entrance, partOf.kept target known, escape]
    cases found : program.document? target with
    | none => exact .refused _
    | some block =>
      refine .admitted fun inside context other contexts => ?_
      exact block_extended ih [] contexts false block fun part member =>
        partOf.aims part (parts_of_document found part member)

/-- A document without sections does the same in a larger program as when it is rendered directly,
whatever is rendered around it. -/
theorem flow_extended (partOf : program.PartOf larger) {extra levels : Nat}
    (outer : List Recordings)
    (all : options.maxIncludeDepth.getD horizon = extra + levels)
    (bottom : EntersAlike exempt outer [] program.size (larger.entrance options 0)
      (program.entrance options extra))
    {id : DocId} {block : Block σ} (found : program.document? id = some block)
    (context : Context (SectionFlow σ)) (forwards : context.forwards = [])
    (sections : context.sections = []) :
    Flow.ExtendedBy exempt (Progress.Beside outer [] 0)
      (blockFlow ⟨options.escape, larger.entrance options levels⟩ (.root context) false ⟨outer⟩
        block)
      (program.flow options id) := by
  have entered := entrance_extended partOf rfl extra bottom levels
  have contexts : Context.ExtendedBy exempt outer [] 0 context .root :=
    ⟨forwards, by rw [sections]; exact .nil⟩
  rw [flow, found, setting, all]
  exact block_extended entered [] contexts false block
    (fun part member => partOf.aims part (parts_of_document found part member)) _ _
    ⟨[], rfl, rfl, rfl⟩

/-- A document is rendered in a larger program as it is in its own. -/
theorem flow_larger (partOf : program.PartOf larger) (options : Render.Options σ) {id : DocId}
    (known : id.index < program.size) :
    Flow.ExtendedBy (fun _ => False) (Progress.Beside [] [] 0) (larger.flow options id)
      (program.flow options id) := by
  have found : program.document? id = some _ := List.getElem?_eq_getElem known
  have bottom : EntersAlike (fun _ => False) [] [] program.size (larger.entrance options 0)
      (program.entrance options 0) := entrance_bottom _
  have alike := flow_extended partOf [] (Nat.zero_add _).symm bottom found .root rfl rfl
  rw [flow, partOf.kept id known, found]
  exact alike

end Program

end Stencil
