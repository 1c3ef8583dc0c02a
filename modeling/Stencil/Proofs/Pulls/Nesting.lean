import Stencil.Proofs.Adaptors
import Stencil.Proofs.Pulls.Moments

/-! # Errors in nested constructs

The flow of a document is put together from the flows of its constructs: each is followed by
others, and a line, a round of a loop, a section that is recorded, and a block that is gathered
for a transform each change the chunks of what is in them.  None of them holds back an error or
a call of what is in it.
-/

namespace Stencil

variable {σ α β : Type}

namespace Flow

/-- Whatever is no chunk is handed on at once. -/
structure Transparent (adapt : Flow σ α → Flow σ β) : Prop where
  fail : ∀ error, adapt (.fail error) = .fail error
  call : ∀ callable invocation resume, ∃ onward,
    adapt (.call callable invocation resume) = .call callable invocation onward
  round : ∀ resume, ∃ onward, adapt (.round resume) = .round onward
  poll : ∀ resume, ∃ onward, adapt (.poll resume) = .poll onward

theorem transparent_bind (next : α → Flow σ β) : Transparent fun flow => flow >>= next :=
  ⟨fun _ => rfl, fun _ _ _ => ⟨_, rfl⟩, fun _ => ⟨_, rfl⟩, fun _ => ⟨_, rfl⟩⟩

theorem Transparent.of_adaptor {S κ : Type} {take : S → String → Flow σ (S × Bool)} {tell : S → κ}
    {adapt : {α : Type} → S → Flow σ α → Flow σ (α × κ)} (adaptor : Adaptor take tell adapt)
    (state : S) : Transparent fun flow : Flow σ α => adapt state flow :=
  ⟨adaptor.fail state, fun _ _ _ => ⟨_, adaptor.call state ..⟩, fun _ => ⟨_, adaptor.round state _⟩,
    fun _ => ⟨_, adaptor.poll state _⟩⟩

/-- A flow is what is going on at this moment in a flow of constructs around it. -/
inductive Within (part : Flow σ α) : {β : Type} → Flow σ β → Prop where
  | alone : Within part part
  /-- Lines, their children, rounds, evaluations and documents are followed by others. -/
  | followed {β γ : Type} {whole : Flow σ β} (next : β → Flow σ γ) :
      Within part whole → Within part (whole >>= next)
  | line {β : Type} {whole : Flow σ β} (lead : String) (indentation : Option String)
      (stage : LineStage) : Within part whole → Within part (whole.line lead indentation stage)
  | round {β : Type} {whole : Flow σ β} (separator : Option String) (hasContent : Bool) :
      Within part whole → Within part (whole.joined separator hasContent)
  | recorded {β : Type} {whole : Flow σ β} (kept : List String) :
      Within part whole → Within part (whole.recordedAfter kept)
  | gathered {β : Type} {whole : Flow σ β} (text : String) (atStart : Bool) :
      Within part whole → Within part (whole.gatheredAfter text atStart)

end Flow

open Stencil.Flow

variable {limits : Limits σ} {standing : Standing} {host after : σ} {made : List Invocation}
  {error : RenderError}

theorem Moment.Raises.through {adapt : Flow σ α → Flow σ β} (transparent : Transparent adapt)
    {flow : Flow σ α} (raises : (Moment.mk standing flow host).Raises limits made error after) :
    (Moment.mk standing (adapt flow) host).Raises limits made error after := by
  cases raises with
  | fail =>
    rw [transparent.fail]
    exact .fail
  | @call _ callable invocation resume _ _ _ ran =>
    obtain ⟨onward, same⟩ := transparent.call callable invocation resume
    rw [same]
    exact .call ran
  | @round _ resume _ _ refused =>
    obtain ⟨onward, same⟩ := transparent.round resume
    rw [same]
    exact .round refused
  | @cancelled _ resume _ cancelled =>
    obtain ⟨onward, same⟩ := transparent.poll resume
    rw [same]
    exact .cancelled cancelled

/-- An error that is raised within constructs is raised by all of them together. -/
theorem Flow.Within.raises {part : Flow σ α} {whole : Flow σ β} (within : part.Within whole)
    (raises : (Moment.mk standing part host).Raises limits made error after) :
    (Moment.mk standing whole host).Raises limits made error after := by
  induction within with
  | alone => exact raises
  | followed next _ ih => exact ih.through (transparent_bind next)
  | line lead indentation stage _ ih =>
    exact ih.through (.of_adaptor (.line lead indentation) stage)
  | round separator hasContent _ ih =>
    exact ih.through (.of_adaptor (.joined separator) hasContent)
  | recorded kept _ ih => exact ih.through (.of_adaptor .recordedAfter kept)
  | gathered text atStart _ ih => exact ih.through (.of_adaptor .gatheredAfter (text, atStart))

end Stencil
