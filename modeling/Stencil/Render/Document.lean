import Stencil.Render.Options
import Stencil.Render.Routine

/-! # What documents put out

The include depth is what holds a rendering together.  With a limit, each include on the way
down uses up one level of it, and an include with no level left is refused.  Without a limit
a program may include itself for ever; then more levels are unfolded than any machine can
reach, and the flow has an end of its own kind below them.
-/

namespace Stencil

variable {σ : Type}

def RenderError.unknownDocument (id : DocId) : RenderError where
  kind := .unknownDocument
  message := "program has no document " ++ id.toText

def RenderError.includeTooDeep (target : DocId) (limit : Nat) : RenderError where
  kind := .recursionLimit
  message :=
    "include of document " ++ target.toText ++ " exceeded maximum depth of " ++ toString limit

namespace Program

/-- How a document is entered by an include when so many levels of includes are left. -/
def entrance (program : Program σ) (options : Render.Options σ) :
    (levels : Nat) → DocId → Entrance σ
  | 0, target =>
    match options.maxIncludeDepth with
    | some limit => .refused (.includeTooDeep target limit)
    | none => .bottomless
  | levels + 1, target =>
    match program.document? target with
    | some block =>
      .admitted fun scope progress =>
        blockFlow ⟨options.escape, program.entrance options levels⟩ scope false progress block
    | none => .refused (.unknownDocument target)

/-- The levels that are unfolded where the options set no limit. -/
def horizon : Nat := Nat.pow 2 64

/-- The setting of a document that is rendered directly. -/
def setting (program : Program σ) (options : Render.Options σ) : Setting σ :=
  ⟨options.escape, program.entrance options (options.maxIncludeDepth.getD horizon)⟩

def flow (program : Program σ) (options : Render.Options σ) (document : DocId) :
    Flow σ Progress :=
  match program.document? document with
  | some block => blockFlow (program.setting options) (.root .root) false .start block
  | none => .fail (.unknownDocument document)

end Program

end Stencil
