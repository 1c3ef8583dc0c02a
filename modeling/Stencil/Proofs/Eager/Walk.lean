import Stencil.Proofs.Eager.Push

/-! # The eager rendering

A document is rendered by one walk over its routines, in the order in which they stand.  The
walk keeps a memo for every section of every document that is entered, as it was when the
section was last asked for, and a log of what it does.

Unlike a flow the walk follows includes and sections without regard to what is to come of
them: a document that includes itself is entered again and again.  Some fuel bounds how deeply
the bodies of documents and sections are walked within each other.
-/

namespace Stencil

open Program (Routine Line Section Block Expression)

variable {σ α : Type}

/-- A section is asked for within its own rendering. -/
def RenderError.reentrantSection (name : String) : RenderError where
  kind := .reentrantSection
  message := "section `" ++ name ++ "` was invoked again before its first rendering finished"

namespace Eager

/-! ## Places -/

/-- What a document was entered by. -/
inductive Activation (σ : Type) where
  /-- It is rendered directly. -/
  | root
  /-- It is included, with a number of its own, from a document with some frames in scope. -/
  | within (number : Nat) (forwards : List (String × Value)) (sections : List (Section σ))
      (frames : List Frame) (outer : Activation σ)

namespace Activation

/-- What the include hands to the document. -/
def context : Activation σ → Context (Block σ)
  | root => .root
  | within _ forwards sections _ outer =>
    outer.context.within forwards (sections.map fun part => (part.name, part.body))

/-- The numbers of all includes around. -/
def numbers : Activation σ → List Nat
  | root => []
  | within number _ _ _ outer => number :: outer.numbers

def depth (activation : Activation σ) : Nat :=
  activation.context.depth

end Activation

/-- Where in a rendering a routine is walked. -/
structure Place (σ : Type) where
  frames : List Frame
  activation : Activation σ

namespace Place

def scope (place : Place σ) : Scope (Block σ) :=
  ⟨place.frames, place.activation.context⟩

def extend (place : Place σ) (frame : Frame) : Place σ :=
  { place with frames := frame :: place.frames }

end Place

/-! ## What is kept and noted -/

/-- What is known of a section that has been asked for. -/
inductive Memo where
  | pending
  | complete (chunks : List String)
  deriving Repr, DecidableEq

/-- Something that a walk does.  Sections are told by the number of the include that supplies
them, and their name. -/
inductive Deed (σ : Type) where
  /-- An expression is evaluated in some scope. -/
  | evaluation (expression : Expression σ) (scope : Scope (Block σ))
  | call (invocation : Invocation)
  /-- A round of a loop has begun. -/
  | round
  /-- A document is entered by an include. -/
  | entrance (number : Nat)
  /-- A slot asks for a section. -/
  | dispatch (number : Nat) (name : String)
  /-- The body of a section is walked. -/
  | execution (number : Nat) (name : String)
  /-- A section is asked for while its body is walked. -/
  | reentry (number : Nat) (name : String)
  /-- A slot has put out these chunks for a section. -/
  | delivery (number : Nat) (name : String) (chunks : List String)

/-- What a walk keeps for itself. -/
structure Ledger (σ : Type) where
  /-- The number of the next include. -/
  next : Nat
  memo : Nat → String → Option Memo
  /-- What has been done, from the beginning on. -/
  deeds : List (Deed σ)

namespace Ledger

def start : Ledger σ := ⟨0, fun _ _ => none, []⟩

def noted (deed : Deed σ) (ledger : Ledger σ) : Ledger σ :=
  { ledger with deeds := ledger.deeds ++ [deed] }

def marked (number : Nat) (name : String) (memo : Memo) (ledger : Ledger σ) : Ledger σ :=
  { ledger with memo := fun other otherName =>
    if other = number ∧ otherName = name then some memo else ledger.memo other otherName }

/-- A document is entered, and nothing is known of the sections it can ask for. -/
def entered (ledger : Ledger σ) : Ledger σ where
  next := ledger.next + 1
  memo := fun number name => if number = ledger.next then none else ledger.memo number name
  deeds := ledger.deeds ++ [.entrance ledger.next]

/-- A section is asked for, and its body is about to be walked. -/
def started (ledger : Ledger σ) (number : Nat) (name : String) : Ledger σ :=
  ((ledger.noted (.dispatch number name)).marked number name .pending).noted
    (.execution number name)

/-- The body of a section has been walked, and has pushed some chunks. -/
def completed (ledger : Ledger σ) (number : Nat) (name : String) (chunks : List String) :
    Ledger σ :=
  (ledger.marked number name (.complete chunks)).noted (.delivery number name chunks)

end Ledger

structure World (σ : Type) where
  output : Output σ
  ledger : Ledger σ

namespace World

def start (host : σ) : World σ := ⟨.start host, .start⟩

def noted (deed : Deed σ) (world : World σ) : World σ :=
  { world with ledger := world.ledger.noted deed }

def called (invocation : Invocation) (host : σ) (world : World σ) : World σ :=
  ⟨world.output.called invocation host, world.ledger.noted (.call invocation)⟩

def begun (world : World σ) : World σ :=
  ⟨{ world.output with iterations := world.output.iterations + 1 }, world.ledger.noted .round⟩

end World

abbrev Walk (σ α : Type) := Act (World σ) α

namespace Walk

def outputs (act : Act (Output σ) α) : Walk σ α := fun world =>
  let (outcome, output) := act world.output
  (outcome, { world with output })

def keeps (change : Ledger σ → Ledger σ) : Walk σ Unit := fun world =>
  (.ok (), { world with ledger := change world.ledger })

def note (deed : Deed σ) : Walk σ Unit :=
  keeps (.noted deed)

def known (number : Nat) (name : String) : Walk σ (Option Memo) := fun world =>
  (.ok (world.ledger.memo number name), world)

/-- Enters a document by an include, which gets the next number. -/
def enter : Walk σ Nat := fun world =>
  (.ok world.ledger.next, { world with ledger := world.ledger.entered })

/-- A part of a walk inside one more construct, and all texts that it pushes through it. -/
def enclosed (walk : Walk σ α) : Walk σ (α × List String) := fun world =>
  let (outcome, after) := walk { world with output := world.output.enter [] }
  (outcome.map fun result => (result, after.output.own),
    { after with output := after.output.leave })

/-- A part of a walk in front of a sink of its own, and all that it gathers. -/
def gathered (walk : Walk σ α) : Walk σ (α × String) := fun world =>
  let (outcome, after) := walk { world with output := world.output.gathering "" true }
  (outcome.map fun result => (result, after.output.front.gathered.getD ""),
    { after with output := world.output.restore after.output })

/-! ## Single steps -/

/-- The value of an expression, by a call into the host. -/
def evaluate (place : Place σ) (expression : Expression σ) : Walk σ Value := do
  note (.evaluation expression place.scope)
  match expression.bindings place.scope with
  | .ok bindings => do
    note (.call ⟨expression.source, bindings⟩)
    outputs (callHost expression.callable ⟨expression.source, bindings⟩)
  | .error error => throw (.failed error)

def evaluateAll (place : Place σ) :
    List (String × Expression σ) → Walk σ (List (String × Value))
  | [] => pure []
  | (name, expression) :: rest => do
    let value ← evaluate place expression
    let values ← evaluateAll place rest
    return (name, value) :: values

def boundValue (place : Place σ) (name : String) : Option (Expression σ) → Walk σ Value
  | some expression => evaluate place expression
  | none =>
    match place.scope.context.forwarded name with
    | .ok value => pure value
    | .error error => throw (.failed error)

def beginRound (around : Surroundings σ) : Walk σ Unit := do
  outputs (countRound around)
  note .round

/-- Walks the body of a section, and completes its memo with all that the body pushes. -/
def execute (number : Nat) (name : String) (body : Walk σ Unit) : Walk σ Unit := do
  keeps (.marked number name .pending)
  note (.execution number name)
  let (_, texts) ← enclosed body
  -- Behind a body that is stopped the section stays pending, but then nothing follows.
  keeps (.marked number name (.complete texts.reverse))
  note (.delivery number name texts.reverse)

/-- Pushes the chunks of a section once more. -/
def replay (around : Surroundings σ) (layers : List Layer) (number : Nat) (name : String)
    (chunks : List String) : Walk σ Unit := do
  let (_, texts) ← enclosed (outputs (pushAll around (.record :: layers) chunks))
  note (.delivery number name texts.reverse)

/-- Puts out a section of which so much is known, given how its body is walked. -/
def respond (around : Surroundings σ) (layers : List Layer) (number : Nat) (name : String)
    (body : Walk σ Unit) : Option Memo → Walk σ Unit
  | none => execute number name body
  | some .pending => do
    note (.reentry number name)
    throw (.failed (.reentrantSection name))
  | some (.complete chunks) => replay around layers number name chunks

/-- Puts out a section that is supplied for a slot. -/
def dispatch (around : Surroundings σ) (layers : List Layer) (number : Nat) (name : String)
    (body : Walk σ Unit) : Walk σ Unit := do
  note (.dispatch number name)
  let memo ← known number name
  respond around layers number name body memo

/-- The rounds of a loop from a position on, given whether an earlier round had content. -/
def rounds (around : Surroundings σ) (layers : List Layer) (separator : Option String)
    (body : List Layer → (position : Nat) → Value → Walk σ Unit) :
    (position : Nat) → (hasContent : Bool) → List Value → Walk σ Unit
  | _, _, [] => pure ()
  | position, hasContent, element :: elements => do
    beginRound around
    let round := Layer.round (if hasContent then separator else none)
    let (_, texts) ← enclosed (body (round :: layers) position element)
    rounds around layers separator body (position + 1) (hasContent || Eager.hasContent texts)
      elements

end Walk

/-! ## Walking -/

/-- A program on one occasion: what is chosen for its rendering, and what others do to the host
after so many chunks. -/
structure Occasion (σ : Type) where
  program : Program σ
  options : Render.Options σ
  meanwhile : Nat → σ → σ

namespace Occasion

open Walk

def around (occasion : Occasion σ) : Surroundings σ :=
  { occasion.options.limits with meanwhile := occasion.meanwhile }

/-- The greatest depth at which an included document can be. -/
def greatestDepth (occasion : Occasion σ) : Nat :=
  occasion.options.maxIncludeDepth.getD Program.horizon

variable (occasion : Occasion σ)

/-- The document that an include enters, from a document at some depth. -/
def access (depth : Nat) (target : DocId) : Except Stop (Block σ) :=
  if occasion.greatestDepth < depth + 1 then
    match occasion.options.maxIncludeDepth with
    | some limit => .error (.failed (.includeTooDeep target limit))
    | none => .error .exhausted
  else
    match occasion.program.document? target with
    | some block => .ok block
    | none => .error (.failed (.unknownDocument target))

variable (run : List Layer → Place σ → Block σ → Walk σ Unit)

def walkInclusion (layers : List Layer) (place : Place σ) (target : DocId)
    (forwards : List (String × Expression σ)) (sections : List (Section σ)) : Walk σ Unit :=
  match occasion.access place.activation.depth target with
  | .error stop => throw stop
  | .ok block => do
    let values ← evaluateAll place forwards
    let number ← enter
    -- The included document sees none of the frames; they are kept for the sections.
    run layers ⟨[], .within number values sections place.frames place.activation⟩ block

def walkSlot (layers : List Layer) (activation : Activation σ) (name : String) : Walk σ Unit :=
  match activation with
  | .root => pure ()
  | .within number _ _ frames outer =>
    match activation.context.section? name with
    | none => pure ()
    | some body =>
      -- The body stands where the include does, but its texts go where the slot is.
      dispatch occasion.around layers number name (run (.record :: layers) ⟨frames, outer⟩ body)

mutual

/-- Walks a routine, given how the bodies of documents and sections are walked. -/
def walkRoutine (layers : List Layer) (place : Place σ) : Routine σ → Walk σ Unit
  | .literal text => outputs (push occasion.around layers text)
  | .output expression raw => do
    let value ← evaluate place expression
    outputs (pushAll occasion.around layers (value.chunks raw occasion.options.escape))
  | .effect expression => do
    let _ ← evaluate place expression
  | .binding name expression body => do
    let value ← boundValue place name expression
    walkBlock layers (place.extend [(name, value)]) false body
  | .choice condition body otherwise => do
    let value ← evaluate place condition
    if value.isTruthy then walkBlock layers place false body
    else walkBlock layers place false otherwise
  | .loop item index iterable separator body fallback => do
    let value ← evaluate place iterable
    match value.items? with
    | none => throw (.failed (.notIterable value.typeName))
    | some [] => walkBlock layers place false fallback
    | some elements =>
      rounds occasion.around layers separator
        (fun layers position element =>
          walkBlock layers (place.extend (loopFrame item index position element)) false body)
        0 false elements
  | .transform expression body => do
    -- The sink is a new one, and no construct around the transform sees what the body pushes.
    outputs (poll occasion.around)
    let (_, text) ← gathered (walkBlock [] place false body)
    let value ← evaluate (place.extend [(Program.blockName, .text text)]) expression
    outputs (pushAll occasion.around layers (value.chunks true occasion.options.escape))
  | .inclusion target forwards sections =>
    occasion.walkInclusion run layers place target forwards sections
  | .slot name => occasion.walkSlot run layers place.activation name

def walkChildren (layers : List Layer) (place : Place σ) : List (Routine σ) → Walk σ Unit
  | [] => pure ()
  | child :: children => do
    walkRoutine layers place child
    walkChildren layers place children

/-- Walks the lines of a block, given whether an earlier line had content. -/
def walkBlock (layers : List Layer) (place : Place σ) (hasContent : Bool) :
    List (Line σ) → Walk σ Unit
  | [] => pure ()
  | ⟨children, terminator, indentation⟩ :: lines => do
    let line := Layer.line (Flow.leadOf terminator hasContent) indentation
    let (_, texts) ← enclosed (walkChildren (line :: layers) place children)
    walkBlock layers place (hasContent || Eager.hasContent texts) lines

end

/-- Walks the body of a document or a section. -/
def walkBody : (fuel : Nat) → List Layer → Place σ → Block σ → Walk σ Unit
  -- Only bodies of documents and sections use up fuel; all else is smaller than they are.
  | 0, _, _, _ => throw .exhausted
  | fuel + 1, layers, place, block =>
    occasion.walkBlock (walkBody fuel) layers place false block

/-- Walks a document that is rendered directly. -/
def walkDocument (fuel : Nat) (document : DocId) : Walk σ Unit := do
  outputs (poll occasion.around)
  match occasion.program.document? document with
  | some block => occasion.walkBody fuel [] ⟨[], .root⟩ block
  | none => throw (.failed (.unknownDocument document))

/-- What a document comes to on a host when it is walked. -/
def walk (fuel : Nat) (document : DocId) (host : σ) : Except Stop Unit × World σ :=
  occasion.walkDocument fuel document (.start host)

end Occasion

/-! ## What is found -/

/-- What is admitted is a document of the program, and not too deep. -/
theorem Occasion.access_ok {occasion : Occasion σ} {depth : Nat} {target : DocId} {block : Block σ}
    (admitted : occasion.access depth target = .ok block) :
    depth + 1 ≤ occasion.greatestDepth ∧ occasion.program.document? target = some block := by
  rw [Occasion.access] at admitted
  by_cases deep : occasion.greatestDepth < depth + 1
  · rw [if_pos deep] at admitted
    cases limit : occasion.options.maxIncludeDepth <;> rw [limit] at admitted <;> cases admitted
  · rw [if_neg deep] at admitted
    cases found : occasion.program.document? target with
    | none => rw [found] at admitted; cases admitted
    | some document =>
      rw [found] at admitted
      cases admitted
      exact ⟨by omega, rfl⟩

/-- A section that a slot finds is among those that are supplied. -/
theorem section?_mem {number : Nat} {forwards : List (String × Value)}
    {sections : List (Section σ)} {frames : List Frame} {outer : Activation σ} {name : String}
    {body : Block σ}
    (found : (Activation.within number forwards sections frames outer).context.section? name =
      some body) : ∃ part ∈ sections, part.body = body := by
  rw [Context.section?, List.lookup_eq_some_iff] at found
  obtain ⟨before, after, split, -⟩ := found
  have member : (name, body) ∈ (sections.map fun part => (part.name, part.body)).reverse := by
    show _ ∈ (Activation.within number forwards sections frames outer).context.sections
    rw [split]
    exact List.mem_append_right _ (List.mem_cons_self ..)
  obtain ⟨part, supplied, same⟩ := List.mem_map.1 (List.mem_reverse.1 member)
  exact ⟨part, supplied, congrArg Prod.snd same⟩

end Eager

end Stencil
