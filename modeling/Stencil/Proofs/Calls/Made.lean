import Stencil.Proofs.Adaptors
import Stencil.Proofs.Occurrences
import Stencil.Proofs.Pulls.FailStop

/-! # Calls that a rendering can make

Every call in the flow of a document is that of an expression of the program, in a scope with the
frames that the constructs around the expression bind.  This is kept by every adaptor of chunk
streams, by sections, which are rendered in the scope of their include, and by includes.  So it is
true at every moment of a rendering, whatever has been answered before.
-/

namespace Stencil

open Host (Callable)
open Program (Routine Line Section Expression)

variable {σ α β : Type}

/-! ## Flows -/

/-- All calls of a flow, whatever it is told, are allowed. -/
abbrev Flow.Calls (allowed : Callable σ → Invocation → Prop) (flow : Flow σ α) : Prop :=
  flow.Follows ⟨allowed, fun _ => True, True⟩ fun _ => True

namespace Flow.Calls

variable {allowed : Callable σ → Invocation → Prop} {flow : Flow σ α}

theorem bind (first : flow.Calls allowed) {next : α → Flow σ β}
    (second : ∀ result, (next result).Calls allowed) : (flow >>= next).Calls allowed :=
  Follows.bind first fun result _ => second result

theorem emitAll (chunks : List String) : (Flow.emitAll chunks : Flow σ Unit).Calls allowed :=
  Follows.emitAll True.intro chunks

theorem rounds (separator : Option String) {body : Nat → Value → Progress → Flow σ Progress}
    (calls : ∀ position element progress, (body position element progress).Calls allowed)
    (position : Nat) (hasContent : Bool) (elements : List Value) (progress : Progress) :
    (Flow.rounds separator body position hasContent elements progress).Calls allowed := by
  induction elements generalizing position hasContent progress with
  | nil => exact True.intro
  | cons element elements ih =>
    exact fun _ => Calls.bind ((calls position element progress).through (.joined _) _)
      fun _ => ih _ _ _

end Flow.Calls

/-! ## Contexts and entrances -/

section Constructs

variable (allowed : Callable σ → Invocation → Prop)

def Context.Calls (context : Context (SectionFlow σ)) : Prop :=
  ∀ part ∈ context.sections, ∀ progress, (part.2 progress).Calls allowed

/-- If a document can be entered, all calls of it are allowed with such sections. -/
def Entrance.Calls : Entrance σ → Prop
  | .admitted render => ∀ context : Context (SectionFlow σ), context.Calls allowed →
    ∀ progress, (render (.root context) progress).Calls allowed
  | .refused _ | .bottomless => True

end Constructs

variable {allowed : Callable σ → Invocation → Prop}

theorem Flow.Calls.slot {context : Context (SectionFlow σ)} (calls : context.Calls allowed)
    (name : String) (progress : Progress) : (Flow.slot context name progress).Calls allowed := by
  simp only [Flow.slot]
  cases found : context.section? name with
  | none => exact True.intro
  | some body =>
    obtain ⟨before, after, split, -⟩ := List.lookup_eq_some_iff.1 found
    have supplied : (name, body) ∈ context.sections := by
      rw [split]
      exact List.mem_append_right _ (List.mem_cons_self ..)
    dsimp only
    cases progress.own.lookup name with
    | some chunks => exact (emitAll chunks).bind fun _ => True.intro
    | none =>
      exact Calls.bind ((calls _ supplied progress.leave).through .recordedAfter [])
        fun _ => True.intro

/-! ## Routines -/

/-- The calls of an expression are allowed wherever the frames have the names around it. -/
def Program.Occurrence.Calls (allowed : Callable σ → Invocation → Prop)
    (occurrence : Program.Occurrence σ) : Prop :=
  ∀ scope : Scope (SectionFlow σ), namesOf scope.frames = occurrence.names →
    (occurrence.expression.evaluate scope).Calls allowed

namespace Program

theorem evaluateAll_calls {frames : List Frame} {context : Context (SectionFlow σ)}
    {forwards : List (String × Expression σ)}
    (calls : ∀ forward ∈ forwards, (forward.2.evaluate ⟨frames, context⟩).Calls allowed) :
    (Expression.evaluateAll ⟨frames, context⟩ forwards).Calls allowed := by
  induction forwards with
  | nil => exact True.intro
  | cons forward forwards ih =>
    obtain ⟨here, later⟩ := List.forall_mem_cons.1 calls
    exact here.bind fun _ => (ih later).bind fun _ => True.intro

section Routines

variable {setting : Setting σ} {context : Context (SectionFlow σ)}

mutual

theorem routine_calls (enters : ∀ target, (setting.enter target).Calls allowed)
    (supplied : context.Calls allowed) (frames : List Frame) (progress : Progress) :
    (routine : Routine σ) →
    (∀ occurrence ∈ routine.occurrences (namesOf frames), occurrence.Calls allowed) →
    (routineFlow setting ⟨frames, context⟩ progress routine).Calls allowed
  | .literal text, _ => fun _ => True.intro
  | .output expression raw, calls => by
    have here := List.forall_mem_singleton.1 calls ⟨frames, context⟩ rfl
    exact here.bind fun _ => (Flow.Calls.emitAll _).bind fun _ => True.intro
  | .effect expression, calls =>
    (List.forall_mem_singleton.1 calls ⟨frames, context⟩ rfl).bind fun _ => True.intro
  | .binding name expression body, calls => by
    obtain ⟨here, below⟩ := List.forall_mem_append.1 calls
    have value : (boundValue (Scope.mk frames context) name expression).Calls allowed := by
      cases expression with
      | some expression => exact List.forall_mem_singleton.1 here ⟨frames, context⟩ rfl
      | none =>
        simp only [boundValue]
        cases context.forwarded name <;> exact True.intro
    exact value.bind fun value =>
      block_calls enters supplied ([(name, value)] :: frames) false progress body below
  | .choice condition body otherwise, calls => by
    obtain ⟨here, below⟩ := List.forall_mem_cons.1 calls
    obtain ⟨first, second⟩ := List.forall_mem_append.1 below
    refine (here ⟨frames, context⟩ rfl).bind fun value => ?_
    split
    · exact block_calls enters supplied frames false progress body first
    · exact block_calls enters supplied frames false progress otherwise second
  | .loop item index iterable separator body fallback, calls => by
    obtain ⟨here, below⟩ := List.forall_mem_cons.1 calls
    obtain ⟨first, second⟩ := List.forall_mem_append.1 below
    refine (here ⟨frames, context⟩ rfl).bind fun value => ?_
    split
    · exact True.intro
    · exact block_calls enters supplied frames false progress fallback second
    · -- The frame of a round has the names that the loop binds, whichever round it is.
      refine .rounds separator (fun position element progress => ?_) _ _ _ _
      refine block_calls enters supplied (loopFrame item index position element :: frames) false
        progress body ?_
      rw [namesOf_loopFrame]
      exact first
  | .transform expression body, calls => by
    obtain ⟨here, below⟩ := List.forall_mem_cons.1 calls
    have gathered : (Flow.gathered fun _ =>
        blockFlow setting ⟨frames, context⟩ false progress body).Calls allowed :=
      fun _ => (block_calls enters supplied frames false progress body below).through
        .gatheredAfter ("", true)
    refine gathered.bind fun result => ?_
    refine (here ⟨[(blockName, .text result.2)] :: frames, context⟩ rfl).bind fun value => ?_
    exact (Flow.Calls.emitAll _).bind fun _ => True.intro
  | .inclusion target forwards sections, calls => by
    obtain ⟨here, below⟩ := List.forall_mem_append.1 calls
    have entered := enters target
    rw [routineFlow]
    cases admitted : setting.enter target with
    | refused error | bottomless => exact True.intro
    | admitted render =>
      rw [admitted] at entered
      have values : (Expression.evaluateAll (Scope.mk frames context) forwards).Calls allowed :=
        evaluateAll_calls fun forward member =>
          here _ (List.mem_map_of_mem member) ⟨frames, context⟩ rfl
      -- The sections keep the scope of the include wherever the document puts them out.
      have parts := sections_calls enters supplied frames sections below
      refine values.bind fun values => ?_
      exact (entered _ (fun part member => parts part (List.mem_reverse.1 member)) _).bind
        fun _ => True.intro
  | .slot name, _ => Flow.Calls.slot supplied name progress

theorem children_calls (enters : ∀ target, (setting.enter target).Calls allowed)
    (supplied : context.Calls allowed) (frames : List Frame) (progress : Progress) :
    (children : List (Routine σ)) →
    (∀ occurrence ∈ childOccurrences (namesOf frames) children, occurrence.Calls allowed) →
    (childrenFlow setting ⟨frames, context⟩ progress children).Calls allowed
  | [], _ => True.intro
  | child :: children, calls => by
    obtain ⟨here, below⟩ := List.forall_mem_append.1 calls
    exact (routine_calls enters supplied frames progress child here).bind fun progress =>
      children_calls enters supplied frames progress children below

theorem block_calls (enters : ∀ target, (setting.enter target).Calls allowed)
    (supplied : context.Calls allowed) (frames : List Frame) (hasContent : Bool)
    (progress : Progress) : (lines : List (Line σ)) →
    (∀ occurrence ∈ blockOccurrences (namesOf frames) lines, occurrence.Calls allowed) →
    (blockFlow setting ⟨frames, context⟩ hasContent progress lines).Calls allowed
  | [], _ => True.intro
  | ⟨children, terminator, indentation⟩ :: lines, calls => by
    obtain ⟨here, below⟩ := List.forall_mem_append.1 calls
    have line := (children_calls enters supplied frames progress children here).through
      (.line (Flow.leadOf terminator hasContent) indentation) .fresh
    exact Flow.Calls.bind line fun result =>
      block_calls enters supplied frames _ result.1 lines below

theorem sections_calls (enters : ∀ target, (setting.enter target).Calls allowed)
    (supplied : context.Calls allowed) (frames : List Frame) : (sections : List (Section σ)) →
    (∀ occurrence ∈ sectionOccurrences (namesOf frames) sections, occurrence.Calls allowed) →
    ∀ part ∈ sectionFlows setting ⟨frames, context⟩ sections, ∀ progress,
      (part.2 progress).Calls allowed
  | [], _ => nofun
  | ⟨_, body⟩ :: sections, calls => by
    obtain ⟨here, below⟩ := List.forall_mem_append.1 calls
    exact List.forall_mem_cons.2
      ⟨fun progress => block_calls enters supplied frames false progress body here,
        sections_calls enters supplied frames sections below⟩

end

end Routines

/-! ## Documents -/

variable {program : Program σ}
  (calls : ∀ occurrence ∈ program.occurrences, occurrence.Calls allowed)
include calls

theorem entrance_calls (options : Render.Options σ) (levels : Nat) (target : DocId) :
    (program.entrance options levels target).Calls allowed := by
  induction levels generalizing target with
  | zero =>
    rw [entrance]
    cases options.maxIncludeDepth <;> exact True.intro
  | succ levels ih =>
    rw [entrance]
    cases found : program.document? target with
    | none => exact True.intro
    | some block =>
      intro context supplied progress
      exact block_calls ih supplied [] false progress block fun occurrence member =>
        calls occurrence (occurrences_of_document found occurrence member)

theorem flow_calls (options : Render.Options σ) (document : DocId) :
    (program.flow options document).Calls allowed := by
  rw [flow]
  cases found : program.document? document with
  | none => exact True.intro
  | some block =>
    have alone : (Context.root : Context (SectionFlow σ)).Calls allowed :=
      fun _ member => absurd member List.not_mem_nil
    exact block_calls (entrance_calls calls options _) alone [] false .start block
      fun occurrence member => calls occurrence (occurrences_of_document found occurrence member)

end Program

/-! ## Renderings -/

variable {limits : Limits σ}

theorem Moment.Reaches.calls {moment last : Moment σ α} {made : List Invocation}
    (reaches : moment.Reaches limits made last) (calls : moment.flow.Calls allowed) :
    last.flow.Calls allowed := by
  induction reaches with
  | here => exact calls
  | empty _ _ ih => exact ih fun _ => calls _
  | call _ _ ih => exact ih (calls.2 _)
  | round _ _ ih | poll _ _ ih => exact ih (calls ())

/-- All calls that a rendering can still make are allowed. -/
def Render.Calls (allowed : Callable σ → Invocation → Prop) : Render σ → Prop
  | .finished => True
  | .suspended _ _ rest => (rest ()).Calls allowed

theorem Moment.Arrives.calls {moment : Moment σ Progress} {pulled : Pulled σ}
    (arrives : moment.Arrives limits pulled) (calls : moment.flow.Calls allowed) :
    pulled.render.Calls allowed := by
  obtain ⟨reaches, concludes, rfl⟩ := arrives
  have later := reaches.calls calls
  cases concludes with
  | chunk _ => exact later _
  | error | complete | bottomless => exact True.intro

theorem Render.next_calls {render : Render σ} (calls : render.Calls allowed) (host : σ) :
    (render.next host).render.Calls allowed := by
  cases render with
  | finished => exact True.intro
  | suspended limits standing rest =>
    have later : (Flow.poll rest).Calls allowed := fun _ => calls
    have arrives : (Moment.mk standing (.poll rest) host).Arrives limits _ :=
      Moment.pull_arrives (.poll rest) standing host
    exact arrives.calls later

theorem Render.left_calls {render : Render σ} (calls : render.Calls allowed)
    (changes : List (σ → σ)) (host : σ) : (render.left changes host).Calls allowed := by
  induction changes generalizing render host with
  | nil => exact calls
  | cons change changes ih => exact ih (next_calls calls _) _

theorem Render.Asked.calls {render : Render σ} {host : σ} {start : Moment σ Progress}
    (asked : render.Asked host limits start) (calls : render.Calls allowed) :
    start.flow.Calls allowed := by
  cases asked with
  | suspended => exact fun _ => calls

end Stencil
