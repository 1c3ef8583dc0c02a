import Stencil.Proofs.Eager.Pulls
import Stencil.Proofs.Eager.Simulation

/-! # Renderings and walks

What is known of walks is known of renderings: asked for one answer after another, a rendering
answers what the walk over its document pushes, with the same calls in between and the same
end, whatever others do to the host meanwhile.  Walks call nobody else and put out nothing
else, they render each section once for every include, and if the depth of includes is limited
they come to an end.
-/

namespace Stencil

namespace Eager

variable {σ : Type}

namespace Occasion

/-- What an observer sees of a walk over a document. -/
def drained (occasion : Occasion σ) (fuel : Nat) (document : DocId) (host : σ) : Drained σ :=
  let (outcome, world) := occasion.walk fuel document host
  ⟨world.output.events, ending outcome, world.output.host⟩

/-- The rendering of the document as a flow that is about to be pushed. -/
theorem walk_pushed (occasion : Occasion σ) (document : DocId) (host : σ) {fuel : Nat}
    (enough : occasion.nesting document ≤ fuel) :
    let flow := Flow.poll fun _ => occasion.program.flow occasion.options document
    let pushed := flow.pushed occasion.around [] (Output.start host)
    ending pushed.1 = (occasion.drained fuel document host).ending ∧
      pushed.2 = (occasion.walk fuel document host).2.output ∧
      ((occasion.walk fuel document host).1 = .error .exhausted →
        occasion.options.maxIncludeDepth = none) := by
  have matched := occasion.walkDocument_matches document enough (.start host)
  revert matched
  simp only [Occasion.drained, Occasion.walk, World.start, Flow.pushed]
  rcases occasion.walkDocument fuel document ⟨.start host, .start⟩ with ⟨outcome, world⟩
  rcases (poll occasion.around >>= fun _ =>
    (occasion.program.flow occasion.options document).pushed occasion.around [])
    (Output.start host) with ⟨reason, output⟩
  cases outcome with
  | ok _ =>
    cases reason with
    | ok _ =>
      intro same
      exact ⟨rfl, same.1.symm, fun exhausted => absurd exhausted (ok_ne_exhausted _)⟩
    | error _ => exact False.elim
  | error stop =>
    cases reason with
    | ok _ => exact False.elim
    | error _ =>
      rintro ⟨same, rfl, deep⟩
      refine ⟨?_, same.symm, fun exhausted => deep (Except.error.inj exhausted)⟩
      cases stop <;> rfl

/-- What is added to the output by the flow of a document is what is drained of the walk. -/
theorem drained_unique {occasion : Occasion σ} {document : DocId} {host : σ} {fuel : Nat}
    (enough : occasion.nesting document ≤ fuel) {drained : Drained σ}
    (adds : Adds (.start host) ((Flow.poll fun _ =>
      occasion.program.flow occasion.options document).pushed occasion.around []
        (Output.start host)) drained) : drained = occasion.drained fuel document host := by
  obtain ⟨ends, output, -⟩ := occasion.walk_pushed document host enough
  obtain ⟨sameEvents, sameHost, sameEnding⟩ := adds
  have events : (occasion.drained fuel document host).events = drained.events := by
    rw [← List.nil_append drained.events]
    exact (congrArg Output.events output).symm.trans sameEvents
  have final : (occasion.drained fuel document host).host = drained.host :=
    (congrArg Output.host output).symm.trans sameHost
  have last : (occasion.drained fuel document host).ending = drained.ending :=
    ends.symm.trans sameEnding
  cases drained
  cases events
  cases final
  cases last
  rfl

/-- A walk over a document mirrors its rendering: they have the same calls and chunks in the
same order, the same end, and leave the same host. -/
structure Mirrors (occasion : Occasion σ) (fuel : Nat) (document : DocId) (host : σ) :
    Prop where
  /-- With nobody else at the host, this is what the rendering comes to when it is drained. -/
  drain : (∀ answered host, occasion.meanwhile answered host = host) →
    (occasion.program.render document occasion.options).drain host =
      occasion.drained fuel document host
  /-- Whatever others do to the host, this is what the rendering answers when it is asked until
  it ends. -/
  answers : (occasion.drained fuel document host).ending ≠ .bottomless →
    ((occasion.program.render document occasion.options).next host).Drains
      occasion.meanwhile 0 (occasion.drained fuel document host)

theorem mirrors (occasion : Occasion σ) (document : DocId) (host : σ) {fuel : Nat}
    (enough : occasion.nesting document ≤ fuel) : occasion.Mirrors fuel document host where
  drain alone := drained_unique enough (Flow.adds_drain alone _ (.start host) rfl)
  answers followed := by
    -- A flow that is followed to its end is never cut off for want of levels.
    have lasting : ((Flow.poll fun _ =>
        occasion.program.flow occasion.options document).pushed occasion.around []
          (Output.start host)).1 ≠ .error .exhausted := by
      intro exhausted
      rw [← (occasion.walk_pushed document host enough).1, exhausted] at followed
      exact followed rfl
    obtain ⟨drained, adds, answers⟩ := Flow.drains_pushed _ _ (.start host) rfl lasting
    rw [← drained_unique enough adds]
    exact answers

end Occasion

/-! ## What renderings do -/

/-- A rendering that is asked for one answer after another refines the walk that pushes every
text at once, given enough fuel for the walk. -/
theorem rendering_refines_walk (occasion : Occasion σ) (document : DocId) (host : σ)
    {fuel : Nat} (enough : occasion.nesting document ≤ fuel) :
    occasion.Mirrors fuel document host :=
  occasion.mirrors document host enough

/-- Two pages that share a layout, which has the section of a page twice. -/
def layoutExample : Program Unit where
  documents := [
    [⟨[.inclusion ⟨1⟩ [] [⟨"body", [⟨[.literal "x"], none, some "  "⟩]⟩]], none, none⟩],
    [⟨[.slot "body"], some "\n", none⟩, ⟨[.slot "body"], some "\n", none⟩]]

def layoutOccasion : Occasion Unit :=
  ⟨layoutExample, { maxIncludeDepth := some 1 }, fun _ host => host⟩

theorem layout_refines_walk :
    layoutOccasion.nesting ⟨0⟩ ≤ 3 ∧
      (layoutExample.render ⟨0⟩ { maxIncludeDepth := some 1 }).drain () =
        layoutOccasion.drained 3 ⟨0⟩ () ∧
      (layoutOccasion.drained 3 ⟨0⟩ ()).chunks = ["  ", "x", "\n", "  ", "x"] :=
  ⟨by decide, (rendering_refines_walk layoutOccasion ⟨0⟩ () (by decide)).drain fun _ _ => rfl,
    by decide +kernel⟩

/-- Sections are rendered once for every include, and then the same chunks are put out again
with no call and no round.  This holds of every walk, however far the fuel reaches: its log has
all calls and rounds, and with enough fuel the walk is the rendering. -/
theorem sections_run_once (occasion : Occasion σ) (fuel : Nat) (document : DocId) (host : σ) :
    RunsOnce (occasion.walk fuel document host).2.ledger.deeds ∧
      (occasion.walk fuel document host).2.Logged ∧
      (occasion.nesting document ≤ fuel → occasion.Mirrors fuel document host) :=
  ⟨(occasion.walk_orderly fuel document host).ordered.runsOnce,
    occasion.walk_logged fuel document host, occasion.mirrors document host⟩

/-- If the depth of includes is limited, a walk comes to its end with a fuel that depends on
nothing but the program and the limit, and so does the rendering after finitely many answers,
whatever others do to the host meanwhile. -/
theorem limited_rendering_ends (occasion : Occasion σ) (document : DocId) (host : σ)
    {limit : Nat} (limited : occasion.options.maxIncludeDepth = some limit) {fuel : Nat}
    (enough : occasion.nesting document ≤ fuel) :
    (occasion.walk fuel document host).1 ≠ .error .exhausted ∧
      ((occasion.program.render document occasion.options).next host).Drains
        occasion.meanwhile 0 (occasion.drained fuel document host) := by
  have ends : (occasion.walk fuel document host).1 ≠ .error .exhausted := by
    intro exhausted
    rw [(occasion.walk_pushed document host enough).2.2 exhausted] at limited
    cases limited
  refine ⟨ends, (occasion.mirrors document host enough).answers ?_⟩
  revert ends
  simp only [Occasion.drained]
  rcases occasion.walk fuel document host with ⟨outcome, world⟩
  cases outcome with
  | ok _ => exact fun _ => nofun
  | error stop =>
    cases stop with
    | failed error => exact fun _ => nofun
    | exhausted => exact fun ends => absurd rfl ends

/-- A document that includes itself in a section that it supplies to itself. -/
def nestedExample : Program Unit where
  documents := [[
    ⟨[.literal "a", .slot "body"], none, none⟩,
    ⟨[.inclusion ⟨0⟩ [] [⟨"body", [⟨[.inclusion ⟨0⟩ [] []], none, none⟩]⟩]], none, none⟩]]

def nestedOccasion : Occasion Unit :=
  ⟨nestedExample, { maxIncludeDepth := some 2 }, fun _ host => host⟩

theorem nested_rendering_ends :
    nestedOccasion.options.maxIncludeDepth = some 2 ∧ nestedOccasion.nesting ⟨0⟩ ≤ 9 ∧
      (nestedOccasion.walk 9 ⟨0⟩ ()).1 ≠ .error .exhausted ∧
      ((nestedExample.render ⟨0⟩ { maxIncludeDepth := some 2 }).next ()).Drains
        (fun _ host => host) 0 (nestedOccasion.drained 9 ⟨0⟩ ()) :=
  ⟨rfl, by decide, limited_rendering_ends nestedOccasion ⟨0⟩ () rfl (by decide)⟩

end Eager

end Stencil
