import Stencil.Flow

/-! # Joining the rounds of a loop

The separator of a loop stands between the rounds that come to something.  It is put out
directly ahead of the first content of a round, newlines not counting as content, and only
once an earlier round has had content.
-/

namespace Stencil.Flow

variable {σ α β : Type}

def emitAhead (text : Option String) (next : Flow σ α) : Flow σ α :=
  match text with
  | some text => emit text fun _ => next
  | none => next

theorem emitAhead_bind (text : Option String) (flow : Flow σ α) (next : α → Flow σ β) :
    emitAhead text flow >>= next = emitAhead text (flow >>= next) := by
  cases text <;> rfl

/-- Puts out a separator ahead of the first content, unless there has been content already,
and tells whether there is content. -/
def joined (separator : Option String) : (hasContent : Bool) → Flow σ α → Flow σ (α × Bool)
  | hasContent, finish result => finish (result, hasContent)
  | _, fail error => fail error
  | _, bottomless => bottomless
  | hasContent, emit chunk resume =>
    if isNewline chunk then
      emit chunk fun atStart => (resume atStart).joined separator hasContent
    else
      emitAhead (if hasContent then none else separator)
        (emit chunk fun atStart => (resume atStart).joined separator true)
  | hasContent, call callable invocation resume =>
    call callable invocation fun value => (resume value).joined separator hasContent
  | hasContent, round resume => round fun go => (resume go).joined separator hasContent
  | hasContent, poll resume => poll fun go => (resume go).joined separator hasContent

end Stencil.Flow
