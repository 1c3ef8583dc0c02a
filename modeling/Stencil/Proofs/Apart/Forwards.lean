import Stencil.Proofs.Transparency.Around

/-! # Forwarded values

A forwarded value is read by a binding without an expression and by nothing else.  Such a binding
belongs to the included document itself: the documents that this one includes have forwarded values
of their own, and a section is rendered with those of the document that supplies it.  Of several
values under one name only the last is ever read.
-/

namespace Stencil

open Program (Routine Line Section Block Expression Part)

variable {σ β : Type}

/-! ## Who reads them -/

def Program.Part.taken? : Part σ → Option String
  | .routine (.binding name none _) => some name
  | .routine _ | .line _ => none

/-- The names whose forwarded values a document reads. -/
def Program.takes (program : Program σ) (document : DocId) : List String :=
  (blockParts ((program.document? document).getD [])).filterMap Part.taken?

/-- The forwarded value that a part reads is the same in both contexts. -/
def Program.Part.TakesAlike (one other : Context β) (part : Part σ) : Prop :=
  ∀ name, part.taken? = some name → one.forwarded? name = other.forwarded? name

/-- Two contexts differ in nothing but their forwarded values. -/
structure Context.UpToForwards (one other : Context β) : Prop where
  depth : one.depth = other.depth
  sections : one.sections = other.sections

theorem Context.UpToForwards.within {one other : Context β} (same : one.UpToForwards other)
    (values : List (String × Value)) (sections : List (String × β)) :
    one.within values sections = other.within values sections := by
  simp only [Context.within, same.depth]

namespace Program

section Constructs

variable {setting : Setting σ} {one other : Context (SectionFlow σ)}

mutual

theorem routine_takes (same : one.UpToForwards other) (frames : List Frame) (progress : Progress) :
    (routine : Routine σ) →
    (∀ part ∈ Part.routine routine :: routine.innerParts, part.TakesAlike one other) →
    routineFlow setting ⟨frames, one⟩ progress routine =
      routineFlow setting ⟨frames, other⟩ progress routine
  | .literal _, _ | .output _ _, _ | .effect _, _ => rfl
  | .binding name expression body, alike => by
    -- At no other construct the forwarded values are looked at.
    obtain ⟨here, below⟩ := List.forall_mem_cons.1 alike
    have value : boundValue ⟨frames, one⟩ name expression =
        boundValue ⟨frames, other⟩ name expression := by
      cases expression with
      | some expression => rfl
      | none => simp only [boundValue, Context.forwarded, here name rfl]
    have inner (value : Value) :=
      block_takes same ([(name, value)] :: frames) false progress body below
    simp only [routineFlow, Scope.extend, value, inner]
  | .choice condition body otherwise, alike => by
    obtain ⟨first, second⟩ := List.forall_mem_append.1 (List.forall_mem_cons.1 alike).2
    simp only [routineFlow, condition.evaluate_context frames one other,
      block_takes same frames false progress body first,
      block_takes same frames false progress otherwise second]
  | .loop item index iterable separator body fallback, alike => by
    obtain ⟨first, second⟩ := List.forall_mem_append.1 (List.forall_mem_cons.1 alike).2
    have round (position : Nat) (element : Value) (progress : Progress) :=
      block_takes same (loopFrame item index position element :: frames) false progress body first
    simp only [routineFlow, Scope.extend, iterable.evaluate_context frames one other, round,
      block_takes same frames false progress fallback second]
  | .transform expression body, alike => by
    have inner := block_takes same frames false progress body (List.forall_mem_cons.1 alike).2
    have outer (text : String) := expression.evaluate_context
      ([(blockName, .text text)] :: frames) one other
    simp only [routineFlow, Scope.extend, inner, outer]
  | .inclusion target forwards sections, alike => by
    -- The document that is included has forwarded values of its own, but the sections do not.
    have supplied := sections_takes same frames sections (List.forall_mem_cons.1 alike).2
    simp only [routineFlow, Expression.evaluateAll_context frames one other, supplied, same.within]
  | .slot name, _ => by
    simp only [routineFlow, Flow.slot, Context.section?, same.sections]

theorem children_takes (same : one.UpToForwards other) (frames : List Frame)
    (progress : Progress) : (children : List (Routine σ)) →
    (∀ part ∈ childParts children, part.TakesAlike one other) →
    childrenFlow setting ⟨frames, one⟩ progress children =
      childrenFlow setting ⟨frames, other⟩ progress children
  | [], _ => rfl
  | child :: children, alike => by
    rw [childParts, ← List.cons_append] at alike
    obtain ⟨here, below⟩ := List.forall_mem_append.1 alike
    have later (progress : Progress) := children_takes same frames progress children below
    simp only [childrenFlow, routine_takes same frames progress child here, later]

theorem block_takes (same : one.UpToForwards other) (frames : List Frame) (hasContent : Bool)
    (progress : Progress) : (lines : List (Line σ)) →
    (∀ part ∈ blockParts lines, part.TakesAlike one other) →
    blockFlow setting ⟨frames, one⟩ hasContent progress lines =
      blockFlow setting ⟨frames, other⟩ hasContent progress lines
  | [], _ => rfl
  | ⟨children, terminator, indentation⟩ :: lines, alike => by
    obtain ⟨here, below⟩ := List.forall_mem_append.1 (List.forall_mem_cons.1 alike).2
    have later (hasContent : Bool) (progress : Progress) :=
      block_takes same frames hasContent progress lines below
    simp only [blockFlow, children_takes same frames progress children here, later]

theorem sections_takes (same : one.UpToForwards other) (frames : List Frame) :
    (sections : List (Section σ)) →
    (∀ part ∈ sectionParts sections, part.TakesAlike one other) →
    sectionFlows setting ⟨frames, one⟩ sections = sectionFlows setting ⟨frames, other⟩ sections
  | [], _ => rfl
  | ⟨_, body⟩ :: sections, alike => by
    obtain ⟨here, below⟩ := List.forall_mem_append.1 alike
    have body (progress : Progress) := block_takes same frames false progress body here
    simp only [sectionFlows, body, sections_takes same frames sections below]

end

end Constructs

end Program

/-! ## Which of them are read -/

/-- Among named values this is the last one under its name. -/
def IsLast (values : List (String × Value)) (name : String) (value : Value) : Prop :=
  ∃ before later, values = before ++ (name, value) :: later ∧ ∀ entry ∈ later, entry.1 ≠ name

/-- Under each of these names the last value is the same. -/
def AgreeOn (names : List String) (one other : List (String × Value)) : Prop :=
  ∀ name ∈ names, ∀ value, IsLast one name value ↔ IsLast other name value

theorem isLast_iff {values : List (String × Value)} {name : String} {value : Value} :
    IsLast values name value ↔ values.reverse.lookup name = some value := by
  -- The forwarded values are looked up from the last one on.
  rw [List.lookup_eq_some_iff, IsLast]
  constructor
  · rintro ⟨before, later, rfl, others⟩
    refine ⟨later.reverse, before.reverse, ?_, fun entry member => ?_⟩
    · rw [List.reverse_append, List.reverse_cons, List.append_assoc]
      rfl
    · exact bne_iff_ne.2 (others entry (List.mem_reverse.1 member)).symm
  · rintro ⟨later, before, split, others⟩
    refine ⟨before.reverse, later.reverse, ?_, fun entry member same => ?_⟩
    · rw [List.reverse_eq_iff.1 split, List.reverse_append, List.reverse_cons, List.append_assoc]
      rfl
    · exact bne_iff_ne.1 (others entry (List.mem_reverse.1 member)) same.symm

theorem agreeOn_iff {names : List String} {one other : List (String × Value)} :
    AgreeOn names one other ↔
      ∀ name ∈ names, one.reverse.lookup name = other.reverse.lookup name := by
  refine forall₂_congr fun name _ => ?_
  simp only [isLast_iff]
  exact Option.ext_iff.symm

/-- A document reads of the forwarded values only what it takes. -/
theorem Program.block_agree {program : Program σ} {document : DocId} {block : Block σ}
    (found : program.document? document = some block) {one other : List (String × Value)}
    (agree : AgreeOn (program.takes document) one other) (setting : Setting σ)
    (outer : Context (SectionFlow σ)) (sections : List (String × SectionFlow σ))
    (progress : Progress) :
    blockFlow setting (.root (outer.within one sections)) false progress block =
      blockFlow setting (.root (outer.within other sections)) false progress block := by
  have same : (outer.within one sections).UpToForwards (outer.within other sections) := ⟨rfl, rfl⟩
  refine block_takes same [] false progress block fun part member name taken => ?_
  refine agreeOn_iff.1 agree name ?_
  rw [takes, found]
  exact List.mem_filterMap.2 ⟨part, member, taken⟩

end Stencil
