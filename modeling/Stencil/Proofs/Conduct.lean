import Stencil.Flow

/-! # What flows may do

Some things can be asked of a flow step by step, whatever it is told: which calls it makes, by which
errors it fails of its own accord, whether its includes may be nested more deeply than what is
unfolded, and what it comes to.
-/

namespace Stencil

variable {σ α β : Type}

structure Conduct (σ : Type) where
  calls : Host.Callable σ → Invocation → Prop
  errors : RenderError → Prop
  deep : Prop

/-- A flow does nothing but what it may, and its results are of some kind. -/
def Flow.Follows (conduct : Conduct σ) (kind : α → Prop) : Flow σ α → Prop
  | finish result => kind result
  | fail error => conduct.errors error
  | bottomless => conduct.deep
  | emit _ resume => ∀ atStart, (resume atStart).Follows conduct kind
  | call callable invocation resume =>
    conduct.calls callable invocation ∧ ∀ value, (resume value).Follows conduct kind
  | round resume | poll resume => ∀ go, (resume go).Follows conduct kind

namespace Flow.Follows

variable {conduct : Conduct σ} {kind : α → Prop} {flow : Flow σ α}

/-- Where nothing is forbidden, a flow does what it may. -/
theorem of_all (flow : Flow σ α) :
    flow.Follows ⟨fun _ _ => True, fun _ => True, True⟩ fun _ => True := by
  induction flow with
  | finish | fail | bottomless => exact True.intro
  | emit chunk resume ih => exact ih
  | call callable invocation resume ih => exact ⟨True.intro, ih⟩
  | round resume ih | poll resume ih => exact ih

theorem bind {other : β → Prop} {next : α → Flow σ β} (first : flow.Follows conduct kind)
    (second : ∀ result, kind result → (next result).Follows conduct other) :
    (flow >>= next).Follows conduct other := by
  change (flow.bind next).Follows conduct other
  induction flow with
  | finish result => exact second result first
  | fail | bottomless => exact first
  | emit chunk resume ih => exact fun atStart => ih atStart (first atStart)
  | call callable invocation resume ih => exact ⟨first.1, fun value => ih value (first.2 value)⟩
  | round resume ih | poll resume ih => exact fun go => ih go (first go)

theorem emitAll {kind : Unit → Prop} (holds : kind ()) (chunks : List String) :
    (Flow.emitAll chunks : Flow σ Unit).Follows conduct kind := by
  induction chunks with
  | nil => exact holds
  | cons chunk chunks ih => exact fun _ => ih

end Flow.Follows

end Stencil
