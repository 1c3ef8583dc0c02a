import Stencil.Proofs.Faults.Rendering
import Stencil.Proofs.Lexical.Resolved
import Stencil.Proofs.Lexical.Targets

/-! # All blame is justified

A compiled program can be blamed for few things.  Its names have been resolved and its includes
lead to documents, so that what is left depends on values: what is forwarded to a document, what
is handed to a callable, what a loop runs over, and how deeply documents include each other.
-/

namespace Stencil

open Program (Routine Line Section Block Expression)

variable {σ α β κ : Type}

/-! ## What can be to blame -/

/-- The expressions of a routine itself. -/
def Program.Routine.own : Routine σ → List (Expression σ)
  | .literal _ | .slot _ => []
  | .output expression _ | .effect expression | .transform expression _ => [expression]
  | .binding _ value _ => value.toList
  | .choice condition _ _ => [condition]
  | .loop _ _ iterable _ _ _ => [iterable]
  | .inclusion _ forwards _ => forwards.map (·.2)

/-- A document can be rendered with these names forwarded to it: directly with none, and
otherwise under an include that forwards them. -/
inductive Program.Rendered (program : Program σ) (document : DocId) : List String → DocId → Prop
  where
  | direct : Rendered program document [] document
  | included {names : List String} {outer target : DocId} {block : Block σ}
      {forwards : List (String × Expression σ)} {sections : List (Section σ)} :
      Rendered program document names outer → program.document? outer = some block →
      .routine (.inclusion target forwards sections) ∈ Program.blockParts block →
      Rendered program document (forwards.reverse.map (·.1)) target

/-- A fault of a routine, given the names that are forwarded to its document.  Names that have no
address and includes that lead nowhere are not among the faults. -/
inductive Fault.Of (options : Render.Options σ) (forwarded : List String) :
    Routine σ → Fault σ → Prop where
  | refused {routine : Routine σ} {expression : Expression σ} {bindings : Host.Bindings}
      {parameter : Host.Parameter} {value : Value} {error : RenderError} :
      expression ∈ routine.own → parameter ∈ expression.callable.signature.parameters →
      bindings.find? parameter.name = some value → parameter.check value = .error error →
      Of options forwarded routine (.refused expression bindings error)
  | unforwarded {name : String} {body : Block σ} :
      name ∉ forwarded → Of options forwarded (.binding name none body) (.unforwarded name)
  | notList {item : String} {index : Option String} {iterable : Expression σ}
      {separator : Option String} {body fallback : Block σ} {value : Value} :
      value.items? = none →
      Of options forwarded (.loop item index iterable separator body fallback) (.notList value)
  | tooDeep {target : DocId} {forwards : List (String × Expression σ)}
      {sections : List (Section σ)} {limit : Nat} :
      options.maxIncludeDepth = some limit →
      Of options forwarded (.inclusion target forwards sections) (.tooDeep target limit)

/-- There is such a routine in such a document, and the fault is one of it. -/
structure Blame.Justified (program : Program σ) (options : Render.Options σ) (document : DocId)
    (blame : Blame σ) : Prop where
  rendered : program.Rendered document blame.forwarded blame.document
  stands : ∃ block, program.document? blame.document = some block ∧
    .routine blame.routine ∈ Program.blockParts block
  fault : blame.fault.Of options blame.forwarded blame.routine

/-! ## How flows end -/

/-- Where a flow finishes, its result is of some kind, and it never fails by itself. -/
abbrev Flow.Ends (kind : α → Prop) (flow : Flow σ α) : Prop :=
  flow.Follows ⟨fun _ _ => True, fun _ => False, True⟩ kind

namespace Blaming

variable {just : Blame σ → Prop}

/-- All blame that a rendering lays is just, and its results are of some kind. -/
def Yields (just : Blame σ → Prop) (kind : α → Prop) (blaming : Blaming σ α) : Prop :=
  blaming.run.Ends fun
    | .ok result => kind result
    | .error blame => just blame

/-- All blame that a rendering lays is just. -/
def Fair (just : Blame σ → Prop) (blaming : Blaming σ α) : Prop :=
  Yields just (fun _ => True) blaming

theorem fair_pure (result : α) : Fair just (pure result : Blaming σ α) := True.intro

theorem fair_throw {blame : Blame σ} (justified : just blame) :
    Fair just (throw blame : Blaming σ α) := justified

theorem Yields.bind {kind : α → Prop} {other : β → Prop} {blaming : Blaming σ α}
    {next : α → Blaming σ β} (first : Yields just kind blaming)
    (second : ∀ result, kind result → Yields just other (next result)) :
    Yields just other (blaming >>= next) := by
  refine Flow.Follows.bind first fun outcome just => ?_
  cases outcome with
  | ok result => exact second result just
  | error blame => exact just

theorem fair_bind {blaming : Blaming σ α} {next : α → Blaming σ β} (first : Fair just blaming)
    (second : ∀ result, Fair just (next result)) : Fair just (blaming >>= next) :=
  Yields.bind first fun result _ => second result

theorem fair_through {S : Type} {take : S → String → Flow σ (S × Bool)} {tell : S → κ}
    {adapt : {α : Type} → S → Flow σ α → Flow σ (α × κ)} (adaptor : Flow.Adaptor take tell adapt)
    (state : S) {blaming : Blaming σ α} (fair : Fair just blaming) :
    Fair just (through (adapt state) blaming) := by
  have adapted := Flow.Follows.through fair adaptor state
  show ((adapt state blaming.run).bind (Flow.finish ∘ paired)).Ends _
  refine Flow.Follows.bind adapted fun entry just => ?_
  -- What the adaptor has to tell is lost with a blame, and the blame is not touched.
  obtain ⟨outcome, extra⟩ := entry
  cases outcome with
  | ok result => exact True.intro
  | error blame => exact just

theorem fair_emitAll (texts : List String) : Fair just (emitAll texts : Blaming σ Unit) := by
  have ends : (Flow.emitAll texts : Flow σ Unit).Ends fun _ => True :=
    Flow.Follows.emitAll True.intro texts
  exact ends.bind fun _ _ => True.intro

theorem fair_rounds (separator : Option String) {body : Nat → Value → BlamingSection σ}
    (fair : ∀ position element progress, Fair just (body position element progress))
    (position : Nat) (hasContent : Bool) (elements : List Value) (progress : Progress) :
    Fair just (rounds separator body position hasContent elements progress) := by
  induction elements generalizing position hasContent progress with
  | nil => exact fair_pure progress
  | cons element elements ih =>
    intro _
    refine fair_bind (fair_through (.joined _) _ (fair _ _ _)) fun result => ?_
    exact ih _ _ _

/-! ## Steps -/

theorem forM_eq_error {γ ε : Type} {check : γ → Except ε Unit} {entries : List γ} {error : ε}
    (failed : entries.forM check = .error error) :
    ∃ entry ∈ entries, check entry = .error error := by
  induction entries with
  | nil => cases failed
  | cons entry entries ih =>
    change (check entry >>= fun _ => entries.forM check) = _ at failed
    cases checked : check entry with
    | error other =>
      rw [checked] at failed
      cases failed
      exact ⟨entry, List.mem_cons_self .., checked⟩
    | ok _ =>
      rw [checked] at failed
      obtain ⟨later, member, same⟩ := ih failed
      exact ⟨later, List.mem_cons_of_mem _ member, same⟩

/-- A parameter that is found wrong has a value, which it does not accept. -/
theorem refused_value {expression : Expression σ} {bindings : Host.Bindings} {error : RenderError}
    (placed : expression.Placed) (filled : bindings.Placed expression.parameters)
    (failed : expression.parameters.forM
      (Expression.checkParameter (bindings.entries.map (·.2))) = .error error) :
    ∃ parameter ∈ expression.callable.signature.parameters, ∃ value,
      bindings.find? parameter.name = some value ∧ parameter.check value = .error error := by
  obtain ⟨first, member, refused⟩ := forM_eq_error failed
  obtain ⟨value, there, found⟩ := filled.found first member
  rw [Expression.checkParameter, there] at refused
  rw [← placed.parameters]
  exact ⟨first.2, List.mem_map_of_mem member, value, found, refused⟩

/-! ## Documents -/

section Documents

variable {program : Program σ} {options : Render.Options σ} {root : DocId}

/-- The part stands in the document. -/
def StandsIn (program : Program σ) (document : DocId) (part : Program.Part σ) : Prop :=
  ∃ block, program.document? document = some block ∧ part ∈ Program.blockParts block

/-- A document is being rendered in a context in which it can be, and the sections that are
supplied to it lay just blame. -/
structure Inside (program : Program σ) (options : Render.Options σ) (root : DocId)
    (context : Context (BlamingSection σ)) (document : DocId) : Prop where
  rendered : program.Rendered root (context.forwards.map (·.1)) document
  supplied : ∀ part ∈ context.sections, ∀ progress,
    Fair (Blame.Justified program options root) (part.2 progress)

/-- An include of a document that is there lays just blame. -/
def EntersFairly (program : Program σ) (options : Render.Options σ) (root target : DocId) :
    BlamingEntrance σ → Prop
  | .admitted render => ∀ context progress, Inside program options root context target →
    Fair (Blame.Justified program options root) (render (.root context) progress)
  | .refused fault => ∃ limit, options.maxIncludeDepth = some limit ∧ fault = .tooDeep target limit
  | .bottomless => True

/-- All includes lead to documents, which lay just blame. -/
structure FairSetting (program : Program σ) (options : Render.Options σ) (root : DocId)
    (setting : BlamingSetting σ) : Prop where
  known : ∀ target forwards sections document,
    StandsIn program document (.routine (.inclusion target forwards sections)) →
    ∃ block, program.document? target = some block
  enter : ∀ target block, program.document? target = some block →
    EntersFairly program options root target (setting.enter target)

variable {setting : BlamingSetting σ} {document : DocId} {context : Context (BlamingSection σ)}

section Steps

variable {routine : Routine σ} (inside : Inside program options root context document)
  (stands : StandsIn program document (.routine routine)) (frames : List Frame)
include inside stands

theorem fair_blame {fault : Fault σ}
    (fault_of : fault.Of options (context.forwards.map (·.1)) routine) :
    Fair (Blame.Justified program options root)
      (blame document routine ⟨frames, context⟩ fault : Blaming σ α) :=
  fair_throw ⟨inside.rendered, stands, fault_of⟩

theorem fair_evaluate {expression : Expression σ} (own : expression ∈ routine.own)
    (resolved : expression.Resolved (namesOf frames)) :
    Fair (Blame.Justified program options root)
      (evaluate document routine ⟨frames, context⟩ expression) := by
  obtain ⟨addresses, placed⟩ := resolved
  obtain ⟨entries, read, -, names, -⟩ := readNames addresses [] context
  rw [List.append_nil] at read
  rw [evaluate, read]
  dsimp only
  cases checked : expression.parameters.forM
      (Expression.checkParameter (entries.map (·.2))) with
  | ok _ => exact ⟨True.intro, fun _ => True.intro⟩
  | error error =>
    have places := placed.places
    rw [← names] at places
    obtain ⟨parameter, member, value, found, refused⟩ :=
      refused_value placed (@Host.Bindings.placed ⟨entries⟩ _ places) checked
    exact fair_blame inside stands frames (.refused own member found refused)

/-- The values have the names of their expressions. -/
theorem yields_evaluateAll {forwards : List (String × Expression σ)}
    (own : ∀ forward ∈ forwards, forward.2 ∈ routine.own)
    (resolved : ∀ forward ∈ forwards, forward.2.Resolved (namesOf frames)) :
    Yields (Blame.Justified program options root)
      (fun values => values.map (·.1) = forwards.map (·.1))
      (evaluateAll document routine ⟨frames, context⟩ forwards) := by
  induction forwards with
  | nil => exact rfl
  | cons forward forwards ih =>
    obtain ⟨ownHere, ownLater⟩ := List.forall_mem_cons.1 own
    obtain ⟨here, later⟩ := List.forall_mem_cons.1 resolved
    refine Yields.bind (fair_evaluate inside stands frames ownHere here) fun value _ => ?_
    refine Yields.bind (ih ownLater later) fun values same => ?_
    exact congrArg (forward.1 :: ·) same

end Steps

mutual

theorem fair_routine (fair : FairSetting program options root setting)
    (inside : Inside program options root context document) (frames : List Frame)
    (progress : Progress) : (routine : Routine σ) →
    (∀ part ∈ Program.Part.routine routine :: routine.innerParts, StandsIn program document part) →
    (∀ occurrence ∈ routine.occurrences (namesOf frames), occurrence.Resolved) →
    Fair (Blame.Justified program options root)
      (routineFlow setting document ⟨frames, context⟩ progress routine)
  | .literal text, _, _ => fair_bind (fair_emitAll [text]) fun _ => fair_pure _
  | .output expression raw, stands, resolved => by
    have here := resolved _ (List.mem_cons_self ..)
    refine fair_bind (fair_evaluate inside (stands _ (List.mem_cons_self ..)) frames
      (List.mem_cons_self ..) here) fun value => ?_
    exact fair_bind (fair_emitAll _) fun _ => fair_pure _
  | .effect expression, stands, resolved => by
    have here := resolved _ (List.mem_cons_self ..)
    exact fair_bind (fair_evaluate inside (stands _ (List.mem_cons_self ..)) frames
      (List.mem_cons_self ..) here) fun _ => fair_pure _
  | .binding name expression body, stands, resolved => by
    obtain ⟨own, block⟩ := List.forall_mem_append.1 resolved
    obtain ⟨here, inner⟩ := List.forall_mem_cons.1 stands
    refine fair_bind ?_ fun value => ?_
    · cases expression with
      | some expression =>
        exact fair_evaluate inside here frames (List.mem_cons_self ..)
          (own _ (List.mem_cons_self ..))
      | none =>
        rw [boundValue]
        cases forwarded : context.forwarded? name with
        | some value => exact fair_pure value
        | none =>
          -- Among the forwarded names it would have been found.
          refine fair_blame inside here frames (.unforwarded fun member => ?_)
          obtain ⟨entry, present, rfl⟩ := List.mem_map.1 member
          simpa using List.lookup_eq_none_iff.1 forwarded entry present
    · exact fair_block fair inside ([(name, value)] :: frames) false progress body inner block
  | .choice condition body otherwise, stands, resolved => by
    obtain ⟨own, blocks⟩ := List.forall_mem_cons.1 resolved
    obtain ⟨block, otherBlock⟩ := List.forall_mem_append.1 blocks
    obtain ⟨here, inner⟩ := List.forall_mem_cons.1 stands
    obtain ⟨parts, otherParts⟩ := List.forall_mem_append.1 inner
    refine fair_bind (fair_evaluate inside here frames (List.mem_cons_self ..) own)
      fun value => ?_
    cases value.isTruthy with
    | true => exact fair_block fair inside frames false progress body parts block
    | false => exact fair_block fair inside frames false progress otherwise otherParts otherBlock
  | .loop item index iterable separator body fallback, stands, resolved => by
    obtain ⟨own, blocks⟩ := List.forall_mem_cons.1 resolved
    obtain ⟨block, otherBlock⟩ := List.forall_mem_append.1 blocks
    obtain ⟨here, inner⟩ := List.forall_mem_cons.1 stands
    obtain ⟨parts, otherParts⟩ := List.forall_mem_append.1 inner
    refine fair_bind (fair_evaluate inside here frames (List.mem_cons_self ..) own)
      fun value => ?_
    cases list : value.items? with
    | none => exact fair_blame inside here frames (.notList list)
    | some elements =>
      cases elements with
      | nil => exact fair_block fair inside frames false progress fallback otherParts otherBlock
      | cons element elements =>
        refine fair_rounds separator (fun position element progress => ?_) 0 false _ progress
        refine fair_block fair inside (loopFrame item index position element :: frames) false
          progress body parts ?_
        rw [namesOf_loopFrame]
        exact block
  | .transform expression body, stands, resolved => by
    obtain ⟨own, block⟩ := List.forall_mem_cons.1 resolved
    obtain ⟨here, inner⟩ := List.forall_mem_cons.1 stands
    refine fair_bind (fun _ => ?_) fun result => ?_
    · refine fair_through .gatheredAfter ("", true) ?_
      exact fair_block fair inside frames false progress body inner block
    · refine fair_bind (fair_evaluate inside here
        ([(Program.blockName, .text result.2)] :: frames) (List.mem_cons_self ..) own)
        fun value => ?_
      exact fair_bind (fair_emitAll _) fun _ => fair_pure _
  | .inclusion target forwards sections, stands, resolved => by
    obtain ⟨own, supplied⟩ := List.forall_mem_append.1 resolved
    obtain ⟨here, inner⟩ := List.forall_mem_cons.1 stands
    obtain ⟨block, found⟩ := fair.known target forwards sections document here
    have entered := fair.enter target block found
    rw [routineFlow]
    revert entered
    cases setting.enter target with
    | bottomless => exact fun _ => True.intro
    | refused fault =>
      rintro ⟨limit, limited, rfl⟩
      exact fair_blame inside here frames (.tooDeep limited)
    | admitted render =>
      intro entered
      refine Yields.bind (yields_evaluateAll inside here frames
        (fun forward member => List.mem_map_of_mem member)
        fun forward member => own _ (List.mem_map_of_mem member)) fun values same => ?_
      refine fair_bind (entered _ _ ⟨?_, ?_⟩) fun _ => fair_pure _
      -- The names that are forwarded are those of the include, the last one first.
      · obtain ⟨lines, there, stood⟩ := here
        have names : values.reverse.map (·.1) = forwards.reverse.map (·.1) := by
          rw [List.map_reverse, List.map_reverse, same]
        exact names ▸ .included inside.rendered there stood
      · intro part member
        exact fair_sections fair inside frames sections inner supplied part
          (List.mem_reverse.1 member)
  | .slot name, _, _ => by
    rw [routineFlow, slot]
    cases supplied : context.section? name with
    | none => exact fair_pure progress
    | some body =>
      dsimp only
      cases progress.own.lookup name with
      | some chunks => exact fair_bind (fair_emitAll chunks) fun _ => fair_pure _
      | none =>
        -- The section is the business of the document that supplies it.
        have member : (name, body) ∈ context.sections := by
          obtain ⟨before, after, split, -⟩ := List.lookup_eq_some_iff.1 supplied
          rw [split]
          exact List.mem_append_right _ (List.mem_cons_self ..)
        refine fair_bind (fair_through .recordedAfter []
          (inside.supplied _ member _)) fun _ => fair_pure _

theorem fair_children (fair : FairSetting program options root setting)
    (inside : Inside program options root context document) (frames : List Frame)
    (progress : Progress) : (children : List (Routine σ)) →
    (∀ part ∈ Program.childParts children, StandsIn program document part) →
    (∀ occurrence ∈ Program.childOccurrences (namesOf frames) children, occurrence.Resolved) →
    Fair (Blame.Justified program options root)
      (childrenFlow setting document ⟨frames, context⟩ progress children)
  | [], _, _ => fair_pure _
  | child :: children, stands, resolved => by
    obtain ⟨here, later⟩ := List.forall_mem_append.1 resolved
    change ∀ part ∈ (Program.Part.routine child :: child.innerParts) ++
      Program.childParts children, _ at stands
    obtain ⟨parts, laterParts⟩ := List.forall_mem_append.1 stands
    refine fair_bind (fair_routine fair inside frames progress child parts here)
      fun progress => ?_
    exact fair_children fair inside frames progress children laterParts later

theorem fair_block (fair : FairSetting program options root setting)
    (inside : Inside program options root context document) (frames : List Frame)
    (hasContent : Bool) (progress : Progress) : (lines : List (Line σ)) →
    (∀ part ∈ Program.blockParts lines, StandsIn program document part) →
    (∀ occurrence ∈ Program.blockOccurrences (namesOf frames) lines, occurrence.Resolved) →
    Fair (Blame.Justified program options root)
      (blockFlow setting document ⟨frames, context⟩ hasContent progress lines)
  | [], _, _ => fair_pure _
  | ⟨children, terminator, indentation⟩ :: lines, stands, resolved => by
    obtain ⟨here, later⟩ := List.forall_mem_append.1 resolved
    obtain ⟨parts, laterParts⟩ := List.forall_mem_append.1 (List.forall_mem_cons.1 stands).2
    refine fair_bind (fair_through (.line _ _) .fresh
      (fair_children fair inside frames progress children parts here)) fun result => ?_
    exact fair_block fair inside frames _ result.1 lines laterParts later

theorem fair_sections (fair : FairSetting program options root setting)
    (inside : Inside program options root context document) (frames : List Frame) :
    (sections : List (Section σ)) →
    (∀ part ∈ Program.sectionParts sections, StandsIn program document part) →
    (∀ occurrence ∈ Program.sectionOccurrences (namesOf frames) sections, occurrence.Resolved) →
    ∀ part ∈ sectionFlows setting document ⟨frames, context⟩ sections, ∀ progress,
      Fair (Blame.Justified program options root) (part.2 progress)
  | [], _, _ => nofun
  | ⟨name, body⟩ :: sections, stands, resolved => by
    obtain ⟨here, later⟩ := List.forall_mem_append.1 resolved
    obtain ⟨parts, laterParts⟩ := List.forall_mem_append.1 stands
    refine List.forall_mem_cons.2 ⟨fun progress => ?_, ?_⟩
    · exact fair_block fair inside frames false progress body parts here
    · exact fair_sections fair inside frames sections laterParts later

end

section Compiled

variable {interpretation : Host.Interpretation σ} {documents : List Template.Document}
  (compiled : Program.compile interpretation documents = .ok program)
include compiled

theorem known_of_compile (target : DocId) (forwards : List (String × Expression σ))
    (sections : List (Section σ)) (document : DocId)
    (stands : StandsIn program document (.routine (.inclusion target forwards sections))) :
    ∃ block, program.document? target = some block := by
  obtain ⟨block, found, inside⟩ := stands
  exact targets_known compiled (Program.parts_of_document found _ inside)

theorem fair_document {block : Block σ} (found : program.document? document = some block)
    (fair : FairSetting program options root setting)
    (inside : Inside program options root context document) (progress : Progress) :
    Fair (Blame.Justified program options root)
      (blockFlow setting document (.root context) false progress block) := by
  refine fair_block fair inside [] false progress block (fun part member => ?_)
    fun occurrence member => ?_
  · exact ⟨block, found, member⟩
  · exact resolved_program compiled _ (Program.occurrences_of_document found _ member)

theorem enters_fairly (levels : Nat) (target : DocId) {block : Block σ}
    (found : program.document? target = some block) :
    EntersFairly program options root target (entrance program options levels target) := by
  induction levels generalizing target block with
  | zero =>
    rw [entrance]
    cases limited : options.maxIncludeDepth with
    | none => exact True.intro
    | some limit => exact ⟨limit, limited, rfl⟩
  | succ levels ih =>
    rw [entrance, found]
    intro context progress inside
    exact fair_document compiled found
      ⟨known_of_compile compiled, fun target _ found => ih target found⟩ inside progress

/-- A document of a compiled program lays just blame. -/
theorem fair_documentFlow {block : Block σ} (found : program.document? document = some block) :
    Fair (Blame.Justified program options document)
      (documentFlow program options document block) :=
  fair_document compiled found
    ⟨known_of_compile compiled, fun target _ found => enters_fairly compiled _ target found⟩
    ⟨.direct, List.forall_mem_nil _⟩ .start

end Compiled

end Documents

end Blaming

end Stencil
