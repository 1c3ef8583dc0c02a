import Stencil.Proofs.Adaptors

/-! # Marked flows

A marked flow tells of each chunk what it is there for, and which lines it has passed on its way
out.  When a transform gathers chunks, the flow also tells what has been gathered so far.  Without
its marks it is the flow that is rendered: what any construct does with chunks depends on nothing
but their texts.
-/

namespace Stencil

variable {σ α β : Type}

/-- What a chunk is there for. -/
inductive Role where
  /-- It comes from a literal, an output or a transform. -/
  | content
  /-- It joins a line or a round of a loop to the content before. -/
  | joint
  | indentation
  /-- It was put out before in the same section. -/
  | replay
  deriving Repr, DecidableEq

structure Piece where
  text : String
  role : Role
  /-- The indentations of the lines that the chunk has passed, the outermost first. -/
  around : List String
  deriving Repr, DecidableEq

/-- A chunk where it comes into being. -/
def Piece.bare (role : Role) (text : String) : Piece :=
  ⟨text, role, []⟩

/-- A chunk behind one more line. -/
def Piece.within (indentation : Option String) (piece : Piece) : Piece :=
  { piece with around := indentation.toList ++ piece.around }

inductive Marked (σ : Type) (α : Type) : Type where
  | finish (result : α)
  | fail (error : RenderError)
  | bottomless
  | emit (piece : Piece) (resume : Bool → Marked σ α)
  | call (callable : Host.Callable σ) (invocation : Invocation) (resume : Value → Marked σ α)
  | round (resume : Unit → Marked σ α)
  | poll (resume : Unit → Marked σ α)
  /-- A transform has gathered these chunks so far. -/
  | gathering (stream : List Piece) (rest : Marked σ α)

namespace Marked

def bind : Marked σ α → (α → Marked σ β) → Marked σ β
  | finish result, next => next result
  | fail error, _ => fail error
  | bottomless, _ => bottomless
  | emit piece resume, next => emit piece fun atStart => (resume atStart).bind next
  | call callable invocation resume, next =>
    call callable invocation fun value => (resume value).bind next
  | round resume, next => round fun go => (resume go).bind next
  | poll resume, next => poll fun go => (resume go).bind next
  | gathering stream rest, next => gathering stream (rest.bind next)

instance : Monad (Marked σ) where
  pure := finish
  bind := bind

theorem bind_finish (marked : Marked σ α) : marked >>= finish = marked := by
  show marked.bind finish = marked
  induction marked with
  | finish | fail | bottomless => rfl
  | emit piece resume ih => exact congrArg (emit piece) (funext ih)
  | call callable invocation resume ih => exact congrArg (call callable invocation) (funext ih)
  | round resume ih => exact congrArg round (funext ih)
  | poll resume ih => exact congrArg poll (funext ih)
  | gathering stream rest ih => exact congrArg (gathering stream) ih

/-- The flow without its marks. -/
def bare : Marked σ α → Flow σ α
  | finish result => .finish result
  | fail error => .fail error
  | bottomless => .bottomless
  | emit piece resume => .emit piece.text fun atStart => (resume atStart).bare
  | call callable invocation resume => .call callable invocation fun value => (resume value).bare
  | round resume => .round fun go => (resume go).bare
  | poll resume => .poll fun go => (resume go).bare
  | gathering _ rest => rest.bare

@[simp] theorem bare_pure (result : α) : (pure result : Marked σ α).bare = pure result := rfl

@[simp] theorem bare_bind (marked : Marked σ α) (next : α → Marked σ β) :
    (marked >>= next).bare = marked.bare >>= fun result => (next result).bare := by
  show (marked.bind next).bare = marked.bare.bind _
  induction marked with
  | finish | fail | bottomless => rfl
  | emit piece resume ih => exact congrArg (Flow.emit piece.text) (funext ih)
  | call callable invocation resume ih =>
    exact congrArg (Flow.call callable invocation) (funext ih)
  | round resume ih => exact congrArg Flow.round (funext ih)
  | poll resume ih => exact congrArg Flow.poll (funext ih)
  | gathering stream rest ih => exact ih

/-! ## Constructs -/

/-- Everything that a flow puts out is marked as content. -/
def ofFlow : Flow σ α → Marked σ α
  | .finish result => finish result
  | .fail error => fail error
  | .bottomless => bottomless
  | .emit chunk resume => emit (.bare .content chunk) fun atStart => ofFlow (resume atStart)
  | .call callable invocation resume => call callable invocation fun value => ofFlow (resume value)
  | .round resume => round fun go => ofFlow (resume go)
  | .poll resume => poll fun go => ofFlow (resume go)

def emitAll (role : Role) : List String → Marked σ Unit
  | [] => finish ()
  | text :: texts => emit (.bare role text) fun _ => emitAll role texts

def begin (lead : String) (next : Bool → Marked σ α) : Flow.LineStage → Marked σ α
  | .fresh => emit (.bare .joint lead) next
  | .begun atStart => next atStart

def emitIndented (indentation : Option String) (atStart : Bool) (piece : Piece)
    (resume : Bool → Marked σ α) : Marked σ α :=
  match indentation with
  | some text =>
    if atStart && !piece.text.isEmpty then emit (.bare .indentation text) fun _ => emit piece resume
    else emit piece resume
  | none => emit piece resume

theorem begin_bind (lead : String) (resume : Bool → Marked σ α) (next : α → Marked σ β)
    (stage : Flow.LineStage) :
    begin lead resume stage >>= next =
      begin lead (fun atStart => resume atStart >>= next) stage := by
  cases stage <;> rfl

theorem emitIndented_bind (indentation : Option String) (atStart : Bool) (piece : Piece)
    (resume : Bool → Marked σ α) (next : α → Marked σ β) :
    emitIndented indentation atStart piece resume >>= next =
      emitIndented indentation atStart piece fun after => resume after >>= next := by
  cases indentation with
  | none => rfl
  | some text =>
    simp only [emitIndented]
    split <;> rfl

/-- Adds the lead and the indentation of a line, and marks what passes the line. -/
def line (lead : String) (indentation : Option String) :
    Flow.LineStage → Marked σ α → Marked σ (α × Bool)
  | stage, finish result => finish (result, stage.hasContent)
  | _, fail error => fail error
  | _, bottomless => bottomless
  | stage, emit piece resume =>
    if isNewline piece.text then
      emit (piece.within indentation) fun atStart =>
        (resume atStart).line lead indentation (stage.afterNewline atStart)
    else
      begin lead (fun atStart =>
        emitIndented indentation atStart (piece.within indentation) fun atStart =>
          (resume atStart).line lead indentation (.begun atStart)) stage
  | stage, call callable invocation resume =>
    call callable invocation fun value => (resume value).line lead indentation stage
  | stage, round resume => round fun go => (resume go).line lead indentation stage
  | stage, poll resume => poll fun go => (resume go).line lead indentation stage
  | stage, gathering stream rest => gathering stream (rest.line lead indentation stage)

def emitAhead (text : Option String) (next : Marked σ α) : Marked σ α :=
  match text with
  | some text => emit (.bare .joint text) fun _ => next
  | none => next

theorem emitAhead_bind (text : Option String) (marked : Marked σ α) (next : α → Marked σ β) :
    emitAhead text marked >>= next = emitAhead text (marked >>= next) := by
  cases text <;> rfl

def joined (separator : Option String) : (hasContent : Bool) → Marked σ α → Marked σ (α × Bool)
  | hasContent, finish result => finish (result, hasContent)
  | _, fail error => fail error
  | _, bottomless => bottomless
  | hasContent, emit piece resume =>
    if isNewline piece.text then
      emit piece fun atStart => (resume atStart).joined separator hasContent
    else
      emitAhead (if hasContent then none else separator)
        (emit piece fun atStart => (resume atStart).joined separator true)
  | hasContent, call callable invocation resume =>
    call callable invocation fun value => (resume value).joined separator hasContent
  | hasContent, round resume => round fun go => (resume go).joined separator hasContent
  | hasContent, poll resume => poll fun go => (resume go).joined separator hasContent
  | hasContent, gathering stream rest => gathering stream (rest.joined separator hasContent)

def recordedAfter : (kept : List String) → Marked σ α → Marked σ (α × List String)
  | kept, finish result => finish (result, kept.reverse)
  | _, fail error => fail error
  | _, bottomless => bottomless
  | kept, emit piece resume =>
    emit piece fun atStart => (resume atStart).recordedAfter (piece.text :: kept)
  | kept, call callable invocation resume =>
    call callable invocation fun value => (resume value).recordedAfter kept
  | kept, round resume => round fun go => (resume go).recordedAfter kept
  | kept, poll resume => poll fun go => (resume go).recordedAfter kept
  | kept, gathering stream rest => gathering stream (rest.recordedAfter kept)

def recorded (marked : Marked σ α) : Marked σ (α × List String) :=
  marked.recordedAfter []

/-- Gathers the chunks behind others, and tells of every chunk that is gathered. -/
def gatheredAfter : (stream : List Piece) → (atStart : Bool) → Marked σ α → Marked σ (α × String)
  | stream, _, finish result => finish (result, String.join (stream.map Piece.text))
  | _, _, fail error => fail error
  | _, _, bottomless => bottomless
  | stream, atStart, emit piece resume =>
    poll fun _ =>
      if piece.text.isEmpty then (resume atStart).gatheredAfter stream atStart
      else
        gathering (stream ++ [piece])
          ((resume (isNewline piece.text)).gatheredAfter (stream ++ [piece])
            (isNewline piece.text))
  | stream, atStart, call callable invocation resume =>
    call callable invocation fun value => (resume value).gatheredAfter stream atStart
  | stream, atStart, round resume => round fun go => (resume go).gatheredAfter stream atStart
  | stream, atStart, poll resume => poll fun go => (resume go).gatheredAfter stream atStart
  | outer, atStart, gathering stream rest => gathering stream (rest.gatheredAfter outer atStart)

def gathered (marked : Unit → Marked σ α) : Marked σ (α × String) :=
  poll fun go => (marked go).gatheredAfter [] true

/-! ## Adaptors

An adaptor of marked flows takes each piece for a few pieces of its own, and hands on whatever is
none.
-/

structure Adaptor {S κ : Type} (take : S → Piece → Marked σ (S × Bool)) (tell : S → κ)
    (adapt : {α : Type} → S → Marked σ α → Marked σ (α × κ)) : Prop where
  finish : ∀ {α : Type} state (result : α),
    adapt state (.finish result) = .finish (result, tell state)
  fail : ∀ {α : Type} state error, adapt state (.fail error : Marked σ α) = .fail error
  bottomless : ∀ {α : Type} state, adapt state (.bottomless : Marked σ α) = .bottomless
  emit : ∀ {α : Type} state piece (resume : Bool → Marked σ α),
    adapt state (.emit piece resume) =
      take state piece >>= fun next => adapt next.1 (resume next.2)
  call : ∀ {α : Type} state callable invocation (resume : Value → Marked σ α),
    adapt state (.call callable invocation resume) =
      .call callable invocation fun value => adapt state (resume value)
  round : ∀ {α : Type} state (resume : Unit → Marked σ α),
    adapt state (.round resume) = .round fun go => adapt state (resume go)
  poll : ∀ {α : Type} state (resume : Unit → Marked σ α),
    adapt state (.poll resume) = .poll fun go => adapt state (resume go)
  gathering : ∀ {α : Type} state stream (rest : Marked σ α),
    adapt state (.gathering stream rest) = .gathering stream (adapt state rest)

def lineTake (lead : String) (indentation : Option String) (stage : Flow.LineStage)
    (piece : Piece) : Marked σ (Flow.LineStage × Bool) :=
  if isNewline piece.text then
    emit (piece.within indentation) fun atStart => finish (stage.afterNewline atStart, atStart)
  else
    begin lead (fun atStart =>
      emitIndented indentation atStart (piece.within indentation) fun atStart =>
        finish (.begun atStart, atStart)) stage

def joinedTake (separator : Option String) (hasContent : Bool) (piece : Piece) :
    Marked σ (Bool × Bool) :=
  if isNewline piece.text then emit piece fun atStart => finish (hasContent, atStart)
  else
    emitAhead (if hasContent then none else separator)
      (emit piece fun atStart => finish (true, atStart))

def recordedTake (kept : List String) (piece : Piece) : Marked σ (List String × Bool) :=
  emit piece fun atStart => finish (piece.text :: kept, atStart)

def gatheredTake (gathered : List Piece × Bool) (piece : Piece) :
    Marked σ ((List Piece × Bool) × Bool) :=
  poll fun _ =>
    if piece.text.isEmpty then finish (gathered, gathered.2)
    else
      gathering (gathered.1 ++ [piece])
        (finish ((gathered.1 ++ [piece], isNewline piece.text), isNewline piece.text))

namespace Adaptor

theorem line (lead : String) (indentation : Option String) :
    Adaptor (σ := σ) (lineTake lead indentation) Flow.LineStage.hasContent
      fun stage marked => marked.line lead indentation stage where
  finish _ _ := rfl
  fail _ _ := rfl
  bottomless _ := rfl
  emit stage piece resume := by
    rw [Marked.line, lineTake]
    split
    · rfl
    · simp only [begin_bind, emitIndented_bind]
      rfl
  call _ _ _ _ := rfl
  round _ _ := rfl
  poll _ _ := rfl
  gathering _ _ _ := rfl

theorem joined (separator : Option String) :
    Adaptor (σ := σ) (joinedTake separator) id
      fun hasContent marked => marked.joined separator hasContent where
  finish _ _ := rfl
  fail _ _ := rfl
  bottomless _ := rfl
  emit hasContent piece resume := by
    rw [Marked.joined, joinedTake]
    split
    · rfl
    · rw [emitAhead_bind]
      rfl
  call _ _ _ _ := rfl
  round _ _ := rfl
  poll _ _ := rfl
  gathering _ _ _ := rfl

theorem recordedAfter :
    Adaptor (σ := σ) recordedTake List.reverse fun kept marked => marked.recordedAfter kept where
  finish _ _ := rfl
  fail _ _ := rfl
  bottomless _ := rfl
  emit _ _ _ := rfl
  call _ _ _ _ := rfl
  round _ _ := rfl
  poll _ _ := rfl
  gathering _ _ _ := rfl

theorem gatheredAfter :
    Adaptor (σ := σ) gatheredTake (fun gathered => String.join (gathered.1.map Piece.text))
      fun gathered marked => marked.gatheredAfter gathered.1 gathered.2 where
  finish _ _ := rfl
  fail _ _ := rfl
  bottomless _ := rfl
  emit gathered piece resume := by
    refine congrArg Marked.poll (funext fun _ => ?_)
    by_cases empty : piece.text.isEmpty
    · simp only [empty, if_true]
      rfl
    · simp only [empty, Bool.false_eq_true, if_false]
      rfl
  call _ _ _ _ := rfl
  round _ _ := rfl
  poll _ _ := rfl
  gathering _ _ _ := rfl

end Adaptor

/-! ## Marks change nothing -/

@[simp] theorem bare_ofFlow (flow : Flow σ α) : (ofFlow flow).bare = flow := by
  induction flow with
  | finish | fail | bottomless => rfl
  | emit chunk resume ih => exact congrArg (Flow.emit chunk) (funext ih)
  | call callable invocation resume ih =>
    exact congrArg (Flow.call callable invocation) (funext ih)
  | round resume ih => exact congrArg Flow.round (funext ih)
  | poll resume ih => exact congrArg Flow.poll (funext ih)

@[simp] theorem bare_emitAll (role : Role) (texts : List String) :
    (emitAll role texts : Marked σ Unit).bare = Flow.emitAll texts := by
  induction texts with
  | nil => rfl
  | cons text texts ih => exact congrArg (Flow.emit text) (funext fun _ => ih)

theorem bare_begin (lead : String) (next : Bool → Marked σ α) (stage : Flow.LineStage) :
    (begin lead next stage).bare = stage.begin lead fun atStart => (next atStart).bare := by
  cases stage <;> rfl

theorem bare_emitIndented (indentation : Option String) (atStart : Bool) (piece : Piece)
    (resume : Bool → Marked σ α) :
    (emitIndented indentation atStart piece resume).bare =
      Flow.emitIndented indentation atStart piece.text fun atStart => (resume atStart).bare := by
  cases indentation with
  | none => rfl
  | some text =>
    simp only [emitIndented, Flow.emitIndented]
    split <;> rfl

/-- If an adaptor takes pieces as another one takes their texts, it does the same without marks. -/
theorem bare_through {S T κ : Type} {take : S → Piece → Marked σ (S × Bool)} {tell : S → κ}
    {adapt : {α : Type} → S → Marked σ α → Marked σ (α × κ)}
    {bareTake : T → String → Flow σ (T × Bool)} {bareTell : T → κ}
    {bareAdapt : {α : Type} → T → Flow σ α → Flow σ (α × κ)}
    (adaptor : Adaptor take tell adapt) (other : Flow.Adaptor bareTake bareTell bareAdapt)
    (unmark : S → T) (told : ∀ state, bareTell (unmark state) = tell state)
    (takes : ∀ state piece, bareTake (unmark state) piece.text =
      (fun next => (unmark next.1, next.2)) <$> (take state piece).bare)
    (state : S) (marked : Marked σ α) :
    (adapt state marked).bare = bareAdapt (unmark state) marked.bare := by
  induction marked generalizing state with
  | finish result => rw [adaptor.finish, bare, bare, other.finish, told]
  | fail error => rw [adaptor.fail, bare, bare, other.fail]
  | bottomless => rw [adaptor.bottomless, bare, bare, other.bottomless]
  | emit piece resume ih =>
    rw [adaptor.emit, bare_bind, bare, other.emit, takes, bind_map_left]
    simp only [ih]
  | call callable invocation resume ih =>
    rw [adaptor.call, bare, bare, other.call]
    exact congrArg (Flow.call callable invocation) (funext fun value => ih value state)
  | round resume ih =>
    rw [adaptor.round, bare, bare, other.round]
    exact congrArg Flow.round (funext fun go => ih go state)
  | poll resume ih =>
    rw [adaptor.poll, bare, bare, other.poll]
    exact congrArg Flow.poll (funext fun go => ih go state)
  | gathering stream rest ih =>
    rw [adaptor.gathering, bare, bare]
    exact ih state

@[simp] theorem bare_line (lead : String) (indentation : Option String) (stage : Flow.LineStage)
    (marked : Marked σ α) :
    (marked.line lead indentation stage).bare = marked.bare.line lead indentation stage := by
  refine bare_through (.line lead indentation) (.line lead indentation) id (fun _ => rfl) ?_ stage
    marked
  intro stage piece
  show Flow.lineTake lead indentation stage piece.text = id <$> _
  rw [id_map, lineTake, Flow.lineTake]
  split
  · rfl
  · simp only [bare_begin, bare_emitIndented]
    rfl

@[simp] theorem bare_joined (separator : Option String) (hasContent : Bool)
    (marked : Marked σ α) :
    (marked.joined separator hasContent).bare = marked.bare.joined separator hasContent := by
  refine bare_through (.joined separator) (.joined separator) id (fun _ => rfl) ?_ hasContent marked
  intro hasContent piece
  show Flow.joinedTake separator hasContent piece.text = id <$> _
  rw [id_map, joinedTake, Flow.joinedTake]
  split
  · rfl
  · cases (if hasContent then none else separator) <;> rfl

@[simp] theorem bare_recorded (marked : Marked σ α) :
    marked.recorded.bare = marked.bare.recorded :=
  bare_through .recordedAfter .recordedAfter id (fun _ => rfl) (fun _ _ => rfl) [] marked

/-- What is told of a stream is what a transform gathers. -/
@[simp] theorem bare_gathered (marked : Unit → Marked σ α) :
    (gathered marked).bare = Flow.gathered fun go => (marked go).bare := by
  let unmark (gathered : List Piece × Bool) : String × Bool :=
    (String.join (gathered.1.map Piece.text), gathered.2)
  refine congrArg Flow.poll (funext fun go =>
    bare_through .gatheredAfter .gatheredAfter unmark (fun _ => rfl) ?_ ([], true) (marked go))
  intro gathered piece
  have longer : String.join ((gathered.1 ++ [piece]).map Piece.text) =
      String.join (gathered.1.map Piece.text) ++ piece.text := by
    simp
  refine congrArg Flow.poll (funext fun _ => ?_)
  dsimp only [unmark]
  rw [← longer]
  split <;> rfl

end Marked

end Stencil
