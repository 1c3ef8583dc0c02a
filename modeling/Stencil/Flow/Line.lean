import Stencil.Flow

/-! # Lines

What a line adds to the chunks of its children.  Newlines pass through.  Before the first
other chunk stands a chunk of its own, the line's lead: what joins the line to the content
before it, or an empty marker.  Then comes the indentation, wherever a chunk would otherwise
stand at the start of a line of the output.

The marker makes the indentation right.  Whatever an enclosing construct puts out ahead of
the line is put out ahead of the marker, so that by the time the line is told where the
output stands after its marker, all of that has been counted.
-/

namespace Stencil.Flow

variable {σ α β : Type}

/-- Where a line stands. -/
inductive LineStage where
  /-- Nothing but newlines so far. -/
  | fresh
  /-- There has been content; the output now is or is not at the start of a line. -/
  | begun (atStart : Bool)
  deriving Repr, DecidableEq

def LineStage.hasContent : LineStage → Bool
  | fresh => false
  | begun _ => true

def LineStage.afterNewline (stage : LineStage) (atStart : Bool) : LineStage :=
  match stage with
  | fresh => fresh
  | begun _ => begun atStart

/-- Puts out the lead of a line, if there has been no content yet, and goes on when it is known
whether the output stands at the start of a line. -/
def LineStage.begin (lead : String) (next : Bool → Flow σ α) : LineStage → Flow σ α
  | fresh => emit lead next
  | begun atStart => next atStart

theorem LineStage.begin_bind (lead : String) (resume : Bool → Flow σ α) (next : α → Flow σ β)
    (stage : LineStage) :
    stage.begin lead resume >>= next =
      stage.begin lead fun atStart => resume atStart >>= next := by
  cases stage <;> rfl

/-- Puts out a chunk, behind the indentation if the output stands at the start of a line and
the chunk is not empty. -/
def emitIndented (indentation : Option String) (atStart : Bool) (chunk : String)
    (resume : Bool → Flow σ α) : Flow σ α :=
  match indentation with
  | some text =>
    if atStart && !chunk.isEmpty then emit text fun _ => emit chunk resume
    else emit chunk resume
  | none => emit chunk resume

theorem emitIndented_bind (indentation : Option String) (atStart : Bool) (chunk : String)
    (resume : Bool → Flow σ α) (next : α → Flow σ β) :
    emitIndented indentation atStart chunk resume >>= next =
      emitIndented indentation atStart chunk fun after => resume after >>= next := by
  cases indentation with
  | none => rfl
  | some text =>
    simp only [emitIndented]
    split <;> rfl

/-- Adds the lead and the indentation of a line, and tells whether the line has content. -/
def line (lead : String) (indentation : Option String) :
    LineStage → Flow σ α → Flow σ (α × Bool)
  | stage, finish result => finish (result, stage.hasContent)
  | _, fail error => fail error
  | _, bottomless => bottomless
  | stage, emit chunk resume =>
    if isNewline chunk then
      emit chunk fun atStart =>
        (resume atStart).line lead indentation (stage.afterNewline atStart)
    else
      -- Behind the lead it is known whether the indentation is due.
      stage.begin lead fun atStart =>
        emitIndented indentation atStart chunk fun atStart =>
          (resume atStart).line lead indentation (.begun atStart)
  | stage, call callable invocation resume =>
    call callable invocation fun value => (resume value).line lead indentation stage
  | stage, round resume => round fun go => (resume go).line lead indentation stage
  | stage, poll resume => poll fun go => (resume go).line lead indentation stage

end Stencil.Flow
