import Stencil.Proofs.Eager.Matching
import Stencil.Proofs.Eager.Sections

/-! # Flows and walks

The flow of a routine, pushed outward, does what the walk over the routine does.  Where the walk
has memos by the numbers of includes, the flow has the recordings of the document and of those
around it; where the walk walks the body of a section at its place, the flow has a function in
the context.  And where the walk is stopped for want of fuel the flow goes on, for every
compiled document is finite and the depth of includes has a bound: so much fuel is enough as
documents and sections can be nested in one another.
-/

namespace Stencil

open Program (Section Expression)

namespace Eager

variable {σ α β γ : Type}

/-! ## Evaluation -/

/-- What is handed to a callable depends on nothing but the frames in scope. -/
theorem bindings_congr (expression : Expression σ) {scope : Scope β} {other : Scope γ}
    (frames : scope.frames = other.frames) :
    expression.bindings scope = expression.bindings other := by
  have same : Expression.readName scope = Expression.readName other := by
    funext read
    simp only [Expression.readName, Scope.resolve?, frames]
  rw [Expression.bindings, Expression.bindings, same]

/-- Nothing has been learned about sections. -/
def Remembers (before after : Ledger σ) : Prop :=
  after.next = before.next ∧ after.memo = before.memo

theorem Remembers.trans {before middle after : Ledger σ} (one : Remembers before middle)
    (other : Remembers middle after) : Remembers before after :=
  ⟨other.1.trans one.1, other.2.trans one.2⟩

variable {deep : Prop} {ledger : Ledger σ}

theorem matches_evaluate (around : Surroundings σ) (layers : List Layer) (place : Place σ)
    {scope : Scope β} (frames : place.frames = scope.frames) (expression : Expression σ) :
    Walk.Matches deep ledger (Walk.evaluate place expression)
      ((expression.evaluate scope).pushed around layers)
      fun after value other => value = other ∧ Remembers ledger after := by
  have same : expression.bindings place.scope = expression.bindings scope :=
    bindings_congr expression frames
  rw [Walk.evaluate, Expression.evaluate, same]
  refine .note_bind ?_
  cases expression.bindings scope with
  | error error => exact .fail error
  | ok bindings =>
    refine .note_bind ?_
    rw [Flow.pushed]
    simp only [Flow.pushed_finish, bind_pure]
    exact .outputs (.callHost _ _) fun _ => ⟨rfl, rfl, rfl⟩

theorem matches_evaluateAll (around : Surroundings σ) (layers : List Layer) (place : Place σ)
    {scope : Scope β} (frames : place.frames = scope.frames)
    (expressions : List (String × Expression σ)) :
    Walk.Matches deep ledger (Walk.evaluateAll place expressions)
      ((Expression.evaluateAll scope expressions).pushed around layers)
      fun after values others => values = others ∧ Remembers ledger after := by
  induction expressions generalizing ledger with
  | nil => exact .pure ⟨rfl, rfl, rfl⟩
  | cons named rest ih =>
    rw [Walk.evaluateAll, Expression.evaluateAll, Flow.pushed_bind]
    refine (matches_evaluate around layers place frames named.2).bind ?_
    rintro middle value _ ⟨rfl, one⟩
    rw [Flow.pushed_bind]
    refine ih.bind ?_
    rintro after values _ ⟨rfl, other⟩
    exact .pure ⟨rfl, one.trans other⟩

theorem matches_boundValue (around : Surroundings σ) (layers : List Layer) (place : Place σ)
    {scope : Scope β} (frames : place.frames = scope.frames)
    (forwards : place.activation.context.forwards = scope.context.forwards) (name : String)
    (expression : Option (Expression σ)) :
    Walk.Matches deep ledger (Walk.boundValue place name expression)
      ((Program.boundValue scope name expression).pushed around layers)
      fun after value other => value = other ∧ Remembers ledger after := by
  cases expression with
  | some expression => exact matches_evaluate around layers place frames expression
  | none =>
    -- Contexts differ in what sections are, but forward the same values.
    have same : place.scope.context.forwarded name = scope.context.forwarded name := by
      simp only [Context.forwarded, Context.forwarded?, Place.scope, forwards]
    rw [Walk.boundValue, Program.boundValue, same]
    cases scope.context.forwarded name with
    | ok value => exact .pure ⟨rfl, rfl, rfl⟩
    | error error => exact .fail error

/-! ## Activations and progress -/

/-- The setting of a document at some depth. -/
def Occasion.settingAt (occasion : Occasion σ) (depth : Nat) : Setting σ :=
  ⟨occasion.options.escape,
    occasion.program.entrance occasion.options (occasion.greatestDepth - depth)⟩

/-- The context that the flow of a document has. -/
def Activation.flows (occasion : Occasion σ) : Activation σ → Context (SectionFlow σ)
  | root => .root
  | within _ forwards sections frames outer =>
    (outer.flows occasion).within forwards
      (Program.sectionFlows (occasion.settingAt outer.depth) ⟨frames, outer.flows occasion⟩
        sections)

/-- The scope that the flow of a routine has. -/
def Place.flows (occasion : Occasion σ) (place : Place σ) : Scope (SectionFlow σ) :=
  ⟨place.frames, place.activation.flows occasion⟩

theorem Activation.flows_forwards (occasion : Occasion σ) (activation : Activation σ) :
    activation.context.forwards = (activation.flows occasion).forwards := by
  cases activation <;> rfl

/-- The recordings of the documents around a place hold what the memos of their sections do. -/
def Agrees (ledger : Ledger σ) : Activation σ → Progress → Prop
  | .root, _ => True
  | .within number _ _ _ outer, progress =>
    number < ledger.next ∧ number ∉ outer.numbers ∧
      (∀ name, ledger.memo number name = (progress.own.lookup name).map .complete) ∧
      Agrees ledger outer progress.leave

theorem Agrees.of_untouched {before after : Ledger σ} {activation other : Activation σ}
    {progress : Progress} (agrees : Agrees before activation progress)
    (untouched : Untouched other before after)
    (apart : ∀ number ∈ activation.numbers, number ∉ other.numbers) :
    Agrees after activation progress := by
  induction activation generalizing progress with
  | root => exact True.intro
  | within number forwards sections frames outer ih =>
    obtain ⟨earlier, distinct, memos, outside⟩ := agrees
    -- The memos of this include and of those around it are all among the untouched ones.
    refine ⟨Nat.lt_of_lt_of_le earlier untouched.1, distinct, fun name => ?_, ?_⟩
    · rw [untouched.2 number earlier (apart number (List.mem_cons_self ..)), memos]
    · exact ih outside fun number member => apart number (List.mem_cons_of_mem _ member)

theorem Agrees.remembered {before after : Ledger σ} {activation : Activation σ}
    {progress : Progress} (agrees : Agrees before activation progress)
    (remembers : Remembers before after) : Agrees after activation progress := by
  have untouched : Untouched .root before after :=
    untouched_of_memo_eq remembers.1 remembers.2
  exact agrees.of_untouched untouched fun _ _ => nofun

theorem Agrees.earlier {activation : Activation σ} {progress : Progress}
    (agrees : Agrees ledger activation progress) :
    ∀ number ∈ activation.numbers, number < ledger.next := by
  induction activation generalizing progress with
  | root => exact nofun
  | within number forwards sections frames outer ih =>
    obtain ⟨earlier, -, -, outside⟩ := agrees
    intro other member
    obtain rfl | around := List.mem_cons.1 member
    · exact earlier
    · exact ih outside other around

/-- A document that is entered has recorded nothing. -/
theorem Agrees.entered {activation : Activation σ} {progress : Progress}
    (agrees : Agrees ledger activation progress) (forwards : List (String × Value))
    (sections : List (Section σ)) (frames : List Frame) :
    Agrees ledger.entered (.within ledger.next forwards sections frames activation)
      (progress.enter []) := by
  -- Entering forgets only what is known under the new number, and nothing is.
  have untouched : Untouched .root ledger ledger.entered :=
    ⟨Nat.le_succ _, fun number earlier _ name => Ledger.memo_entered earlier name⟩
  refine ⟨Nat.lt_succ_self _, fun around => Nat.lt_irrefl _ (agrees.earlier _ around),
    fun name => ?_, agrees.of_untouched untouched fun _ _ => nofun⟩
  simp [Ledger.entered, Progress.enter, Progress.own]

/-! ## Performing -/

/-- A part of a walk within an activation does to the output what a flow does, from any progress
on that agrees with the ledger, and so does the progress that the flow comes to. -/
def Performs (occasion : Occasion σ) (layers : List Layer) (activation : Activation σ)
    (walk : Walk σ Unit) (flow : Progress → Flow σ Progress) : Prop :=
  ∀ ledger progress, Agrees ledger activation progress →
    Walk.Matches (occasion.options.maxIncludeDepth = none) ledger walk
      ((flow progress).pushed occasion.around layers)
      fun after _ later => Agrees after activation later

namespace Performs

variable {occasion : Occasion σ} {layers : List Layer} {activation : Activation σ}

theorem idle : Performs occasion layers activation (pure ()) .finish :=
  fun _ _ agrees => .pure agrees

theorem fail (error : RenderError) :
    Performs occasion layers activation (throw (.failed error)) fun _ => .fail error :=
  fun _ _ _ => .fail error

theorem literal (text : String) :
    Performs occasion layers activation (Walk.outputs (push occasion.around layers text))
      fun progress => .emit text fun _ => .finish progress := by
  intro ledger progress agrees
  have same : (Flow.emit text fun _ => .finish progress).pushed occasion.around layers =
      (fun _ => progress) <$> push occasion.around layers text := by
    rw [Flow.pushed, map_eq_pure_bind]
    rfl
  rw [same]
  exact .map (.outputs (Act.Quiet.push _ _ _).followed fun _ => agrees)

theorem chunks (texts : List String) :
    Performs occasion layers activation (Walk.outputs (pushAll occasion.around layers texts))
      fun progress => do
        Flow.emitAll texts
        return progress := by
  intro ledger progress agrees
  rw [Flow.pushed_bind, Flow.pushed_emitAll]
  exact .map (.outputs (Act.Quiet.pushAll _ _ _).followed fun _ => agrees)

theorem seq {one other : Walk σ Unit} {flow next : Progress → Flow σ Progress}
    (first : Performs occasion layers activation one flow)
    (second : Performs occasion layers activation other next) :
    Performs occasion layers activation (one >>= fun _ => other)
      fun progress => flow progress >>= next := by
  intro ledger progress agrees
  rw [Flow.pushed_bind]
  exact (first ledger progress agrees).bind fun after _ later => second after later

/-- Something is found out from which nothing is learned about sections, and then more is
done. -/
theorem after {walk : Walk σ α} {flow : Flow σ α} {next : α → Walk σ Unit}
    {follow : α → Progress → Flow σ Progress}
    (first : ∀ ledger, Walk.Matches (occasion.options.maxIncludeDepth = none) ledger walk
      (flow.pushed occasion.around layers)
      fun after value other => value = other ∧ Remembers ledger after)
    (second : ∀ value, Performs occasion layers activation (next value) (follow value)) :
    Performs occasion layers activation (walk >>= next)
      fun progress => flow >>= fun value => follow value progress := by
  intro ledger progress agrees
  rw [Flow.pushed_bind]
  refine (first ledger).bind ?_
  rintro middle value _ ⟨rfl, remembers⟩
  exact second value middle progress (agrees.remembered remembers)

/-- Something is done inside a construct, and what follows is told whether it had content. -/
theorem inside {layer : Layer} {walk : Walk σ Unit} {flow : Progress → Flow σ Progress}
    {adapted : Progress → Flow σ (Progress × Bool)} {next : Bool → Walk σ Unit}
    {follow : Bool → Progress → Flow σ Progress}
    (relayed : ∀ progress, (adapted progress).pushed occasion.around layers =
      (fun (result, texts) => (result, hasContent texts)) <$>
        enclosedFrom [] ((flow progress).pushed occasion.around (layer :: layers)))
    (first : Performs occasion (layer :: layers) activation walk flow)
    (second : ∀ hasContent,
      Performs occasion layers activation (next hasContent) (follow hasContent)) :
    Performs occasion layers activation
      (Walk.enclosed walk >>= fun result => next (hasContent result.2))
      fun progress => adapted progress >>= fun result => follow result.2 result.1 := by
  intro ledger progress agrees
  have done : Walk.Matches (occasion.options.maxIncludeDepth = none) ledger
      (Walk.enclosed walk) ((adapted progress).pushed occasion.around layers)
      fun after result other =>
        hasContent result.2 = other.2 ∧ Agrees after activation other.1 := by
    rw [relayed]
    refine .map ((first ledger progress agrees).enclosed.mono ?_)
    exact fun _ _ _ holds => ⟨congrArg hasContent holds.1, holds.2⟩
  rw [Flow.pushed_bind]
  refine done.bind ?_
  rintro after result ⟨later, _⟩ ⟨rfl, agrees⟩
  exact second _ after later agrees

end Performs

end Eager

end Stencil
