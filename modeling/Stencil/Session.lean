import Stencil.Render

/-! # Sessions

Many renderings of one program can be in progress at the same time, and take turns on one
host.  A session keeps them by name and carries out one step at a time.  Each step reports
what could be observed during it, in order.
-/

namespace Stencil

variable {σ : Type}

/-- Renderings in progress, on one program and one host. -/
structure Session (σ : Type) where
  program : Program σ
  renders : List (String × Render σ)
  host : σ

namespace Session

inductive Step (σ : Type) where
  /-- Begins a rendering, in place of any other of that name. -/
  | start (id : String) (document : DocId) (options : Render.Options σ)
  | pull (id : String) (count : Nat)
  | drain (id : String)
  /-- Renders what is left into one text. -/
  | join (id : String)
  /-- Renders a document with the usual options into one text. -/
  | text (document : DocId)
  | drop (id : String)
  /-- The host changes by itself. -/
  | adjust (change : σ → σ)

inductive Observation where
  | call (invocation : Invocation)
  | answer (answer : Answer)

/-- What is reported of a step: the observations in order, and the text if there is one. -/
structure Report where
  observations : List Observation
  text : Option String

/-- What is observed while a rendering is run to its end: the calls and the chunks, the error
if there is one, and the end. -/
def observeDrained (drained : Drained σ) : List Observation :=
  let events := drained.events.map fun
    | .call invocation => .call invocation
    | .chunk text => .answer (.chunk text)
  match drained.ending with
  | .failed error => events ++ [.answer (.error error), .answer .ended]
  | .complete | .bottomless => events ++ [.answer .ended]

/-- The report on a rendering into one text: the calls, and the text or the error. -/
def reportText (drained : Drained σ) : Report :=
  let calls := drained.calls.map .call
  match drained.toText with
  | .ok text => ⟨calls, some text⟩
  | .error error => ⟨calls ++ [.answer (.error error)], none⟩

/-- Asks a rendering for so many answers. -/
def pullMany : (count : Nat) → Render σ → σ → List Observation × Render σ × σ
  | 0, render, host => ([], render, host)
  | count + 1, render, host =>
    let pulled := render.next host
    let (observations, render, host) := pullMany count pulled.render pulled.host
    (pulled.calls.map .call ++ .answer pulled.answer :: observations, render, host)

def begin (program : Program σ) (host : σ) : Session σ :=
  ⟨program, [], host⟩

def render? (session : Session σ) (id : String) : Option (Render σ) :=
  session.renders.lookup id

def remove (session : Session σ) (id : String) : Session σ :=
  { session with renders := session.renders.filter (·.1 != id) }

def put (session : Session σ) (id : String) (render : Render σ) : Session σ :=
  { session with renders := (id, render) :: (session.remove id).renders }

/-- Carries out a step, unless it speaks of a rendering that is not there. -/
def perform (session : Session σ) : Step σ → Option (Report × Session σ)
  | .start id document options =>
    some (⟨[], none⟩, session.put id (session.program.render document options))
  | .pull id count =>
    (session.render? id).map fun render =>
      let (observations, render, host) := pullMany count render session.host
      (⟨observations, none⟩, { session.put id render with host })
  | .drain id =>
    (session.render? id).map fun render =>
      let drained := render.drain session.host
      (⟨observeDrained drained, none⟩, { session.put id .finished with host := drained.host })
  | .join id =>
    (session.render? id).map fun render =>
      let drained := render.drain session.host
      (reportText drained, { session.remove id with host := drained.host })
  | .text document =>
    let drained := session.program.renderToEnd document session.host
    some (reportText drained, { session with host := drained.host })
  | .drop id => some (⟨[], none⟩, session.remove id)
  | .adjust change => some (⟨[], none⟩, { session with host := change session.host })

end Session

end Stencil
