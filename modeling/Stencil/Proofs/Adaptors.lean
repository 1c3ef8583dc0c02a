import Stencil.Flow.Gather
import Stencil.Flow.Join
import Stencil.Flow.Line
import Stencil.Flow.Record
import Stencil.Proofs.Conduct

/-! # Adaptors of chunk streams

Lines, rounds of loops, recordings and gathered texts all go through a flow in the same way.  An
adaptor is in some state, and takes each chunk for a few chunks of its own.  By these it comes to
its next state and to what the flow is told.  In the end it tells something of its last state, and
whatever is no chunk it hands on.  So what is true of the few chunks that it takes for one is true
of the adaptor, whatever the flow.
-/

namespace Stencil.Flow

variable {σ : Type}

structure Adaptor {S κ : Type} (take : S → String → Flow σ (S × Bool)) (tell : S → κ)
    (adapt : {α : Type} → S → Flow σ α → Flow σ (α × κ)) : Prop where
  finish : ∀ {α : Type} state (result : α),
    adapt state (.finish result) = .finish (result, tell state)
  fail : ∀ {α : Type} state error, adapt state (.fail error : Flow σ α) = .fail error
  bottomless : ∀ {α : Type} state, adapt state (.bottomless : Flow σ α) = .bottomless
  emit : ∀ {α : Type} state chunk (resume : Bool → Flow σ α),
    adapt state (.emit chunk resume) =
      take state chunk >>= fun next => adapt next.1 (resume next.2)
  call : ∀ {α : Type} state callable invocation (resume : Value → Flow σ α),
    adapt state (.call callable invocation resume) =
      .call callable invocation fun value => adapt state (resume value)
  round : ∀ {α : Type} state (resume : Unit → Flow σ α),
    adapt state (.round resume) = .round fun go => adapt state (resume go)
  poll : ∀ {α : Type} state (resume : Unit → Flow σ α),
    adapt state (.poll resume) = .poll fun go => adapt state (resume go)
  /-- Only chunks are put out for a chunk. -/
  takes : ∀ state chunk (conduct : Conduct σ),
    (take state chunk).Follows conduct fun _ => True

/-! ## The adaptors -/

def lineTake (lead : String) (indentation : Option String) (stage : LineStage) (chunk : String) :
    Flow σ (LineStage × Bool) :=
  if isNewline chunk then .emit chunk fun atStart => .finish (stage.afterNewline atStart, atStart)
  else
    stage.begin lead fun atStart =>
      emitIndented indentation atStart chunk fun atStart => .finish (.begun atStart, atStart)

def joinedTake (separator : Option String) (hasContent : Bool) (chunk : String) :
    Flow σ (Bool × Bool) :=
  if isNewline chunk then .emit chunk fun atStart => .finish (hasContent, atStart)
  else
    emitAhead (if hasContent then none else separator)
      (.emit chunk fun atStart => .finish (true, atStart))

def recordedTake (kept : List String) (chunk : String) : Flow σ (List String × Bool) :=
  .emit chunk fun atStart => .finish (chunk :: kept, atStart)

/-- What has been gathered, and whether that is at the start of a line. -/
def gatheredTake (gathered : String × Bool) (chunk : String) : Flow σ ((String × Bool) × Bool) :=
  .poll fun _ =>
    if chunk.isEmpty then .finish (gathered, gathered.2)
    else .finish ((gathered.1 ++ chunk, isNewline chunk), isNewline chunk)

namespace Adaptor

theorem line (lead : String) (indentation : Option String) :
    Adaptor (σ := σ) (lineTake lead indentation) LineStage.hasContent
      fun stage flow => flow.line lead indentation stage where
  finish _ _ := rfl
  fail _ _ := rfl
  bottomless _ := rfl
  emit stage chunk resume := by
    rw [Flow.line, lineTake]
    split
    · rfl
    · simp only [LineStage.begin_bind, emitIndented_bind]
      rfl
  call _ _ _ _ := rfl
  round _ _ := rfl
  poll _ _ := rfl
  takes stage chunk conduct := by
    rw [lineTake]
    split
    · exact fun _ => True.intro
    · have indented : ∀ atStart, (emitIndented indentation atStart chunk fun atStart =>
          (.finish (LineStage.begun atStart, atStart) : Flow σ _)).Follows conduct
            fun _ => True := by
        intro atStart
        cases indentation with
        | none => exact fun _ => True.intro
        | some text =>
          simp only [emitIndented]
          split
          · exact fun _ _ => True.intro
          · exact fun _ => True.intro
      cases stage with
      | fresh => exact indented
      | begun atStart => exact indented atStart

theorem joined (separator : Option String) :
    Adaptor (σ := σ) (joinedTake separator) id
      fun hasContent flow => flow.joined separator hasContent where
  finish _ _ := rfl
  fail _ _ := rfl
  bottomless _ := rfl
  emit hasContent chunk resume := by
    rw [Flow.joined, joinedTake]
    split
    · rfl
    · rw [emitAhead_bind]
      rfl
  call _ _ _ _ := rfl
  round _ _ := rfl
  poll _ _ := rfl
  takes hasContent chunk conduct := by
    rw [joinedTake]
    split
    · exact fun _ => True.intro
    · cases (if hasContent then none else separator) with
      | none => exact fun _ => True.intro
      | some text => exact fun _ _ => True.intro

theorem recordedAfter :
    Adaptor (σ := σ) recordedTake List.reverse fun kept flow => flow.recordedAfter kept where
  finish _ _ := rfl
  fail _ _ := rfl
  bottomless _ := rfl
  emit _ _ _ := rfl
  call _ _ _ _ := rfl
  round _ _ := rfl
  poll _ _ := rfl
  takes _ _ _ _ := True.intro

theorem gatheredAfter :
    Adaptor (σ := σ) gatheredTake Prod.fst
      fun gathered flow => flow.gatheredAfter gathered.1 gathered.2 where
  finish _ _ := rfl
  fail _ _ := rfl
  bottomless _ := rfl
  emit gathered chunk resume := by
    refine congrArg Flow.poll (funext fun _ => ?_)
    by_cases empty : chunk.isEmpty
    · simp only [empty, if_true]
      rfl
    · simp only [empty, Bool.false_eq_true, if_false]
      rfl
  call _ _ _ _ := rfl
  round _ _ := rfl
  poll _ _ := rfl
  takes gathered chunk conduct _ := by
    dsimp only
    split <;> exact True.intro

end Adaptor

variable {S κ : Type} {take : S → String → Flow σ (S × Bool)} {tell : S → κ}
  {adapt : {α : Type} → S → Flow σ α → Flow σ (α × κ)} {α : Type}

/-- An adaptor adds nothing to what a flow does but chunks. -/
theorem Follows.through {conduct : Conduct σ} {kind : α → Prop} {flow : Flow σ α}
    (follows : flow.Follows conduct kind) (adaptor : Adaptor take tell adapt) (state : S) :
    (adapt state flow).Follows conduct fun entry => kind entry.1 := by
  induction flow generalizing state with
  | finish result =>
    rw [adaptor.finish]
    exact follows
  | fail error =>
    rw [adaptor.fail]
    exact follows
  | bottomless =>
    rw [adaptor.bottomless]
    exact follows
  | emit chunk resume ih =>
    rw [adaptor.emit]
    exact (adaptor.takes state chunk conduct).bind fun next _ => ih next.2 (follows next.2) next.1
  | call callable invocation resume ih =>
    rw [adaptor.call]
    exact ⟨follows.1, fun value => ih value (follows.2 value) state⟩
  | round resume ih =>
    rw [adaptor.round]
    exact fun go => ih go (follows go) state
  | poll resume ih =>
    rw [adaptor.poll]
    exact fun go => ih go (follows go) state

end Stencil.Flow
