import Stencil.Render.Document
import Stencil.Render.Standing

/-! # Renderings

A rendering runs the flow of a document on a host, one answer at a time.  Between two answers
nothing happens: the rendering is suspended, others may use the host, and what comes next is
not unfolded before it is asked for.  Empty chunks are dropped.  Ahead of every chunk the
rendering can be cancelled, and after an error it is finished for good.

`Render.next` asks for one answer, `Render.drain` for all that are left.
-/

namespace Stencil

variable {σ : Type}

/-- A rendering in progress, or one that has come to its end. -/
inductive Render (σ : Type) where
  | finished
  | suspended (limits : Limits σ) (standing : Standing) (rest : Unit → Flow σ Progress)

inductive Answer where
  | chunk (text : String)
  | error (error : RenderError)
  | ended
  deriving Repr, DecidableEq

/-! ## One answer -/

/-- An answer, with the calls that were made for it and what is left. -/
structure Pulled (σ : Type) where
  calls : List Invocation
  answer : Answer
  render : Render σ
  host : σ

namespace Pulled

def last (answer : Answer) (host : σ) : Pulled σ :=
  ⟨[], answer, .finished, host⟩

def afterCall (invocation : Invocation) (pulled : Pulled σ) : Pulled σ :=
  { pulled with calls := invocation :: pulled.calls }

end Pulled

/-- Runs a flow up to its next chunk that is not empty. -/
def Flow.pull (limits : Limits σ) : Standing → Flow σ Progress → σ → Pulled σ
  | _, .finish _, host => .last .ended host
  | _, .bottomless, host => .last .ended host
  | _, .fail error, host => .last (.error error) host
  | standing, .emit chunk resume, host =>
    let standing := standing.afterChunk chunk
    if chunk.isEmpty then
      -- The reader does not see the chunk, but the rendering can be cancelled behind it.
      if limits.isCancelled host then .last (.error .cancelled) host
      else (resume standing.atStart).pull limits standing host
    else
      { calls := []
        answer := .chunk chunk
        render := .suspended limits standing fun _ => resume standing.atStart
        host }
  | standing, .call callable invocation resume, host =>
    match (callable.run invocation.bindings).run host with
    | (.ok value, host) => ((resume value).pull limits standing host).afterCall invocation
    | (.error error, host) => (Pulled.last (.error error) host).afterCall invocation
  | standing, .round resume, host =>
    match standing.afterRound limits with
    | .ok standing => (resume ()).pull limits standing host
    | .error error => .last (.error error) host
  | standing, .poll resume, host =>
    if limits.isCancelled host then .last (.error .cancelled) host
    else (resume ()).pull limits standing host

def Render.next : Render σ → σ → Pulled σ
  | finished, host => .last .ended host
  | suspended limits standing rest, host =>
    if limits.isCancelled host then .last (.error .cancelled) host
    else (rest ()).pull limits standing host

/-! ## All answers -/

inductive Event where
  | call (invocation : Invocation)
  | chunk (text : String)

inductive Ending where
  | complete
  | failed (error : RenderError)
  /-- Its includes are nested more deeply than what is unfolded. -/
  | bottomless
  deriving Repr, DecidableEq

structure Drained (σ : Type) where
  events : List Event
  ending : Ending
  host : σ

namespace Drained

def last (ending : Ending) (host : σ) : Drained σ :=
  ⟨[], ending, host⟩

def afterCall (invocation : Invocation) (drained : Drained σ) : Drained σ :=
  { drained with events := .call invocation :: drained.events }

/-- The same after one more chunk, which is seen unless it is empty. -/
def afterChunk (chunk : String) (drained : Drained σ) : Drained σ :=
  if chunk.isEmpty then drained else { drained with events := .chunk chunk :: drained.events }

def calls (drained : Drained σ) : List Invocation :=
  drained.events.filterMap fun
    | .call invocation => some invocation
    | .chunk _ => none

def chunks (drained : Drained σ) : List String :=
  drained.events.filterMap fun
    | .call _ => none
    | .chunk text => some text

/-- All chunks as one text, if there was no error. -/
def toText (drained : Drained σ) : Except RenderError String :=
  match drained.ending with
  | .failed error => .error error
  | .complete | .bottomless => .ok (String.join drained.chunks)

end Drained

/-- Runs a flow to its end.  After each chunk, empty or not, the rendering can be
cancelled. -/
def Flow.drain (limits : Limits σ) : Standing → Flow σ Progress → σ → Drained σ
  | _, .finish _, host => .last .complete host
  | _, .bottomless, host => .last .bottomless host
  | _, .fail error, host => .last (.failed error) host
  | standing, .emit chunk resume, host =>
    let standing := standing.afterChunk chunk
    Drained.afterChunk chunk <|
      if limits.isCancelled host then .last (.failed .cancelled) host
      else (resume standing.atStart).drain limits standing host
  | standing, .call callable invocation resume, host =>
    Drained.afterCall invocation <|
      match (callable.run invocation.bindings).run host with
      | (.ok value, host) => (resume value).drain limits standing host
      | (.error error, host) => .last (.failed error) host
  | standing, .round resume, host =>
    match standing.afterRound limits with
    | .ok standing => (resume ()).drain limits standing host
    | .error error => .last (.failed error) host
  | standing, .poll resume, host =>
    if limits.isCancelled host then .last (.failed .cancelled) host
    else (resume ()).drain limits standing host

/-- All that is left of a rendering.  Of a finished one nothing is left. -/
def Render.drain : Render σ → σ → Drained σ
  | finished, host => .last .complete host
  | suspended limits standing rest, host =>
    if limits.isCancelled host then .last (.failed .cancelled) host
    else (rest ()).drain limits standing host

/-! ## Beginning -/

namespace Program

def render (program : Program σ) (document : DocId) (options : Render.Options σ) : Render σ :=
  .suspended options.limits .start fun _ => program.flow options document

/-- Renders a document with the usual options, up to its end. -/
def renderToEnd (program : Program σ) (document : DocId) (host : σ) : Drained σ :=
  (program.render document {}).drain host

end Program

end Stencil
