import Stencil.Render

/-! # Pushing texts outward

An eager rendering does not wait to be asked.  Every text is pushed at once through the
constructs around it, from the innermost to the outermost, and so to a sink: the output, or
the text that a transform gathers.  A construct remembers the texts that were pushed through
it and nothing else, and what it adds to a text depends on these and, for a line, on whether
the sink stands at the start of a line when its turn comes.

The host is shared with others, who may change it whenever the reader of the output has been
given a chunk.
-/

namespace Stencil

variable {σ α β S : Type}

namespace Eager

/-- What ends an eager rendering before its time. -/
inductive Stop where
  | failed (error : RenderError)
  /-- Documents and sections are nested more deeply than they are followed. -/
  | exhausted
  deriving Repr, DecidableEq

theorem ok_ne_exhausted {α : Type} (result : α) :
    (.ok result : Except Stop α) ≠ .error .exhausted := nofun

theorem failed_ne_exhausted {α : Type} (error : RenderError) :
    (.error (.failed error) : Except Stop α) ≠ .error .exhausted := nofun

/-- Something done on a state, which keeps its changes also when it is stopped. -/
abbrev Act (S α : Type) := ExceptT Stop (StateM S) α

theorem Act.bind_apply (act : Act S α) (next : α → Act S β) (state : S) :
    (act >>= next) state = match act state with
      | (.ok result, state) => next result state
      | (.error stop, state) => (.error stop, state) := by
  show ((act >>= ExceptT.bindCont next : StateT S Id _)) state = _
  simp only [Bind.bind, StateT.bind]
  cases act state with
  | mk outcome after => cases outcome <;> rfl

/-- The limits of a rendering, and what else happens to its host. -/
structure Surroundings (σ : Type) extends Limits σ where
  /-- What others do to the host after so many chunks have been given to the reader. -/
  meanwhile : Nat → σ → σ

/-- What stands between the routine that is being rendered and the sink. -/
structure Front where
  atStart : Bool
  /-- The text that the innermost transform has gathered, if the sink is not the output. -/
  gathered : Option String
  /-- The texts that were pushed through each construct around, the innermost construct and
  the latest text first. -/
  passed : List (List String)

/-- What an eager rendering has come to. -/
structure Output (σ : Type) where
  host : σ
  /-- The rounds that all loops together have begun. -/
  iterations : Nat
  /-- The number of chunks given to the reader. -/
  answered : Nat
  events : List Event
  front : Front

namespace Output

def start (host : σ) : Output σ :=
  ⟨host, 0, 0, [], ⟨true, none, []⟩⟩

/-- The texts that were pushed through the innermost construct. -/
def own (output : Output σ) : List String :=
  output.front.passed.headD []

def enter (texts : List String) (output : Output σ) : Output σ :=
  { output with front := { output.front with passed := texts :: output.front.passed } }

def leave (output : Output σ) : Output σ :=
  { output with front := { output.front with passed := output.front.passed.tail } }

/-- In front of a sink that has gathered a text so far. -/
def gathering (text : String) (atStart : Bool) (output : Output σ) : Output σ :=
  { output with front := { output.front with gathered := some text, atStart } }

def restore (earlier output : Output σ) : Output σ :=
  { output with front :=
    { output.front with gathered := earlier.front.gathered, atStart := earlier.front.atStart } }

def called (invocation : Invocation) (host : σ) (output : Output σ) : Output σ :=
  { output with host, events := output.events ++ [.call invocation] }

@[simp] theorem own_enter (texts : List String) (output : Output σ) :
    (output.enter texts).own = texts := rfl

@[simp] theorem leave_enter (texts : List String) (output : Output σ) :
    (output.enter texts).leave = output := rfl

end Output

/-! ## Single acts -/

def atStart : Act (Output σ) Bool := fun output =>
  (.ok output.front.atStart, output)

def own : Act (Output σ) (List String) := fun output => (.ok output.own, output)

def poll (around : Surroundings σ) : Act (Output σ) Unit := fun output =>
  if around.isCancelled output.host then (.error (.failed .cancelled), output)
  else (.ok (), output)

def countRound (around : Surroundings σ) : Act (Output σ) Unit := fun output =>
  match (Standing.mk output.front.atStart output.iterations).afterRound around.toLimits with
  | .ok standing => (.ok (), { output with iterations := standing.iterations })
  | .error error => (.error (.failed error), output)

def callHost (callable : Host.Callable σ) (invocation : Invocation) :
    Act (Output σ) Value := fun output =>
  match (callable.run invocation.bindings).run output.host with
  | (.ok value, host) => (.ok value, output.called invocation host)
  | (.error error, host) => (.error (.failed error), output.called invocation host)

/-- Keeps a text in the sink, which drops an empty one. -/
def Output.keep (around : Surroundings σ) (text : String) (output : Output σ) : Output σ :=
  if text.isEmpty then output
  else match output.front.gathered with
    | some before => output.gathering (before ++ text) (isNewline text)
    | none =>
      { host := around.meanwhile output.answered output.host
        iterations := output.iterations
        answered := output.answered + 1
        events := output.events ++ [.chunk text]
        front := { output.front with atStart := isNewline text } }

/-- Hands a text to the sink.  Behind each text the rendering can be cancelled. -/
def sink (around : Surroundings σ) (text : String) : Act (Output σ) Unit := fun output =>
  poll around (output.keep around text)

/-! ## Constructs -/

/-- A construct around what is being rendered, as far as it has to do with texts. -/
inductive Layer where
  /-- A line, with what it puts ahead of its first content, and its indentation. -/
  | line (lead : String) (indentation : Option String)
  /-- A round of a loop, with what it puts ahead of its first content. -/
  | round (separator : Option String)
  /-- A section, whose texts are kept for later. -/
  | record
  deriving Repr, DecidableEq

/-- Whether there is content among some texts: newlines do not count, empty texts do. -/
def hasContent (texts : List String) : Bool :=
  texts.any (!isNewline ·)

/-- Puts an indentation ahead of a text that would begin a line. -/
def indent (out : String → Act (Output σ) Unit) (indentation : Option String) (text : String) :
    Act (Output σ) Unit := do
  let atStart ← atStart
  match indentation with
  | some indentation => if atStart && !text.isEmpty then out indentation else pure ()
  | none => pure ()

/-- What a construct hands on for a text, given the texts before. -/
def Layer.relay (out : String → Act (Output σ) Unit) (texts : List String) (text : String) :
    Layer → Act (Output σ) Unit
  | line lead indentation =>
    if isNewline text then out text
    else do
      if hasContent texts then pure () else out lead
      indent out indentation text
      out text
  | round separator =>
    if isNewline text || hasContent texts then out text
    else do
      match separator with
      | some separator => out separator
      | none => pure ()
      out text
  | record => out text

/-- Does something outside the innermost construct. -/
def outward (act : Act (Output σ) Unit) : Act (Output σ) Unit := fun output =>
  let (outcome, after) := act output.leave
  (outcome, after.enter output.own)

/-- Remembers that a text was pushed through the innermost construct. -/
def remember (text : String) : Act (Output σ) Unit := fun output =>
  (.ok (), output.leave.enter (text :: output.own))

/-- Pushes a text through the constructs around it, the innermost first, to the sink. -/
def push (around : Surroundings σ) : List Layer → String → Act (Output σ) Unit
  | [], text => sink around text
  | layer :: layers, text => do
    let texts ← own
    outward (layer.relay (push around layers) texts text)
    remember text

def pushAll (around : Surroundings σ) (layers : List Layer) : List String → Act (Output σ) Unit
  | [] => pure ()
  | text :: texts => do
    push around layers text
    pushAll around layers texts

/-- Does something inside one more construct, through which some texts have been pushed
before, and gives back all texts that then have been. -/
def enclosedFrom (texts : List String) (act : Act (Output σ) α) :
    Act (Output σ) (α × List String) := fun output =>
  let (outcome, after) := act (output.enter texts)
  (outcome.map fun result => (result, after.own), after.leave)

/-- Does something in front of a sink of its own, which has gathered a text before, and gives
back all that is gathered. -/
def gatheredFrom (text : String) (atStart : Bool) (act : Act (Output σ) α) :
    Act (Output σ) (α × String) := fun output =>
  let (outcome, after) := act (output.gathering text atStart)
  (outcome.map fun result => (result, after.front.gathered.getD ""), output.restore after)

end Eager

end Stencil
