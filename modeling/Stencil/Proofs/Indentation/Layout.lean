import Stencil.Proofs.Indentation.Composed
import Stencil.Proofs.Indentation.Routine
import Stencil.Proofs.Parts

/-! # Routines have composed flows

Whatever a routine nests, and whatever sections it is supplied with, its marked flow is composed.
A line puts its terminator out only behind content of its block, and a loop its separator only
behind content of an earlier round, so that it is known then where the output stands.
-/

namespace Stencil

open Program (Routine Line Section Part)

variable {σ : Type}

/-! ## Routines -/

def Context.Composes (crooked : Prop) (context : Context (MarkedSection σ)) : Prop :=
  ∀ part ∈ context.sections, ∀ progress, Stencil.Composes crooked (part.2 progress)

def MarkedEntrance.Composes (crooked : Prop) : MarkedEntrance σ → Prop
  | .admitted render => ∀ scope : Scope (MarkedSection σ), scope.context.Composes crooked →
    ∀ progress, Stencil.Composes crooked (render scope progress)
  | .refused _ | .bottomless => True

/-- No newline is the indentation of a line. -/
def Program.Part.IsStraight : Part σ → Prop
  | .line ⟨_, _, indentation⟩ => indentation ≠ some "\n"
  | .routine _ => True

variable {crooked : Prop}

theorem rounds_composed {separator : Option String} {body : Nat → Value → MarkedSection σ}
    (composes : ∀ position element progress, Composes crooked (body position element progress))
    (position : Nat) (hasContent : Bool) (elements : List Value) (progress : Progress)
    {stance : Stance} (settled : stance.Settled) (known : hasContent → stance.IsKnown) :
    Composed crooked Settles stance
      (Marked.rounds separator body position hasContent elements progress) := by
  induction elements generalizing position hasContent progress stance with
  | nil => exact .finish settled
  | cons element elements ih =>
    have between : (if hasContent then separator else none).isSome → stance.IsKnown := by
      cases hasContent with
      | true => exact fun _ => known rfl
      | false => exact nofun
    have first := (composes position element progress .unknown .unknown).joined settled between
    refine .round fun _ => first.bind_known known ?_
    rintro ⟨progress, content⟩ later ⟨settled, here⟩ before
    refine ih (position + 1) (hasContent || content) progress settled fun either => ?_
    exact (Bool.or_eq_true_iff.1 either).elim before here

theorem slot_composed {context : Context (MarkedSection σ)} (composes : context.Composes crooked)
    (name : String) (progress : Progress) :
    Composes crooked (Marked.slot context name progress) := by
  simp only [Marked.slot]
  cases found : context.section? name with
  | none => exact .finish progress
  | some body =>
    obtain ⟨before, after, split, -⟩ := List.lookup_eq_some_iff.1 found
    have supplied : (name, body) ∈ context.sections := by
      rw [split]
      exact List.mem_append_right _ (List.mem_cons_self ..)
    dsimp only
    cases progress.own.lookup name with
    | some chunks => exact (Composes.emitAll rfl chunks).bind fun _ => .finish progress
    | none =>
      intro stance settled
      have recorded := (composes _ supplied progress.leave stance settled).recorded
      exact recorded.bind fun _ later settled => .finish settled

section Routines

variable {setting : MarkedSetting σ}

mutual

theorem routine_composed (entrances : ∀ target, (setting.enter target).Composes crooked)
    {scope : Scope (MarkedSection σ)} (context : scope.context.Composes crooked)
    (progress : Progress) :
    (routine : Routine σ) → (∀ part ∈ routine.innerParts, crooked ∨ part.IsStraight) →
    Composes crooked (Marked.routineFlow setting scope progress routine)
  | .literal text, _ => .ofFlow (.emit text fun _ => .finish progress)
  | .output expression raw, _ => by
    refine (Composes.ofFlow _).bind fun value => ?_
    exact (Composes.emitAll rfl _).bind fun _ => .finish progress
  | .effect expression, _ => (Composes.ofFlow _).bind fun _ => .finish progress
  | .binding name expression body, straight => by
    refine (Composes.ofFlow _).bind fun value => ?_
    have inner : (scope.extend [(name, value)]).context.Composes crooked := context
    exact fun _ settled => block_composed entrances inner false progress body straight settled nofun
  | .choice condition body otherwise, straight => by
    rw [Routine.innerParts, List.forall_mem_append] at straight
    refine (Composes.ofFlow _).bind fun value stance settled => ?_
    cases value.isTruthy with
    | true => exact block_composed entrances context false progress body straight.1 settled nofun
    | false =>
      exact block_composed entrances context false progress otherwise straight.2 settled nofun
  | .loop item index iterable separator body fallback, straight => by
    rw [Routine.innerParts, List.forall_mem_append] at straight
    refine (Composes.ofFlow _).bind fun value stance settled => ?_
    cases value.items? with
    | none => exact .fail stance _
    | some elements =>
      cases elements with
      | nil =>
        exact block_composed entrances context false progress fallback straight.2 settled nofun
      | cons element elements =>
        refine rounds_composed (fun position element progress => ?_) 0 false _ _ settled nofun
        have inner :
            (scope.extend (loopFrame item index position element)).context.Composes crooked :=
          context
        exact fun _ settled =>
          block_composed entrances inner false progress body straight.1 settled nofun
  | .transform expression body, straight => by
    have inside : Composes crooked (Marked.blockFlow setting scope false progress body) :=
      fun _ settled => block_composed entrances context false progress body straight settled nofun
    refine (Composes.gathered inside).bind fun gathered => ?_
    refine (Composes.ofFlow _).bind fun value => ?_
    exact (Composes.emitAll rfl _).bind fun _ => .finish gathered.1
  | .inclusion target forwards sections, straight => by
    have supplied := sections_composed entrances context sections straight
    have entrance := entrances target
    simp only [Marked.routineFlow]
    cases entered : setting.enter target with
    | refused error => exact fun stance _ => .fail stance error
    | bottomless => exact fun stance _ => .bottomless stance
    | admitted render =>
      rw [entered] at entrance
      refine (Composes.ofFlow _).bind fun values => ?_
      let sections := Marked.sectionFlows setting scope sections
      have inner : (scope.context.within values sections).Composes crooked :=
        fun part member => supplied part (List.mem_reverse.1 member)
      exact (entrance (.root _) inner _).bind fun progress => .finish progress.leave
  | .slot name, _ => slot_composed context name progress

theorem children_composed (entrances : ∀ target, (setting.enter target).Composes crooked)
    {scope : Scope (MarkedSection σ)} (context : scope.context.Composes crooked)
    (progress : Progress) :
    (children : List (Routine σ)) →
    (∀ part ∈ Program.childParts children, crooked ∨ part.IsStraight) →
    Composes crooked (Marked.childrenFlow setting scope progress children)
  | [], _ => .finish progress
  | child :: children, straight => by
    rw [Program.childParts, List.forall_mem_cons, List.forall_mem_append] at straight
    obtain ⟨-, inside, later⟩ := straight
    refine (routine_composed entrances context progress child inside).bind fun progress => ?_
    exact children_composed entrances context progress children later

theorem block_composed (entrances : ∀ target, (setting.enter target).Composes crooked)
    {scope : Scope (MarkedSection σ)} (context : scope.context.Composes crooked) (hasContent : Bool)
    (progress : Progress) :
    (lines : List (Line σ)) → (∀ part ∈ Program.blockParts lines, crooked ∨ part.IsStraight) →
    {stance : Stance} → stance.Settled → (hasContent → stance.IsKnown) →
    Composed crooked Settles stance (Marked.blockFlow setting scope hasContent progress lines)
  | [], _, _, settled, _ => .finish settled
  | ⟨children, terminator, indentation⟩ :: lines, straight, stance, settled, known => by
    rw [Program.blockParts, List.forall_mem_cons, List.forall_mem_append] at straight
    obtain ⟨plain, inside, later⟩ := straight
    have child := children_composed entrances context progress children inside .unknown .unknown
    have led : Flow.leadOf terminator hasContent = "" ∨ stance.IsKnown := by
      cases hasContent with
      | false => exact .inl rfl
      | true => exact .inr (known rfl)
    refine (child.line plain settled led).bind_known known ?_
    rintro ⟨progress, content⟩ after ⟨settled, here⟩ before
    refine block_composed entrances context (hasContent || content) progress lines later settled
      fun either => ?_
    exact (Bool.or_eq_true_iff.1 either).elim before here

theorem sections_composed (entrances : ∀ target, (setting.enter target).Composes crooked)
    {scope : Scope (MarkedSection σ)} (context : scope.context.Composes crooked) :
    (sections : List (Section σ)) →
    (∀ part ∈ Program.sectionParts sections, crooked ∨ part.IsStraight) →
    ∀ supplied ∈ Marked.sectionFlows setting scope sections, ∀ progress,
      Composes crooked (supplied.2 progress)
  | [], _ => nofun
  | ⟨name, body⟩ :: sections, straight => by
    rw [Program.sectionParts, List.forall_mem_append] at straight
    rw [Marked.sectionFlows, List.forall_mem_cons]
    refine ⟨fun progress _ settled => ?_, ?_⟩
    · exact block_composed entrances context false progress body straight.1 settled nofun
    · exact sections_composed entrances context sections straight.2

end

end Routines

/-! ## Documents -/

section Documents

variable {program : Program σ}

theorem entrance_composes (straight : ∀ part ∈ program.parts, crooked ∨ part.IsStraight)
    (options : Render.Options σ) (levels : Nat) (target : DocId) :
    (Marked.entrance program options levels target).Composes crooked := by
  induction levels generalizing target with
  | zero =>
    rw [Marked.entrance]
    split <;> exact True.intro
  | succ levels ih =>
    rw [Marked.entrance]
    cases found : program.document? target with
    | none => exact True.intro
    | some block =>
      have inside part member := straight part (Program.parts_of_document found part member)
      intro scope context progress stance settled
      exact block_composed ih context false progress block inside settled nofun

theorem flow_composes (straight : ∀ part ∈ program.parts, crooked ∨ part.IsStraight)
    (options : Render.Options σ) (document : DocId) :
    Composes crooked (Marked.flow program options document) := by
  intro stance settled
  rw [Marked.flow]
  cases found : program.document? document with
  | none => exact .fail stance _
  | some block =>
    have context : (@Scope.root (MarkedSection σ) .root).context.Composes crooked := by
      intro _ member
      cases member
    have inside part member := straight part (Program.parts_of_document found part member)
    exact block_composed (entrance_composes straight options _) context false .start block inside
      settled nofun

end Documents

end Stencil
