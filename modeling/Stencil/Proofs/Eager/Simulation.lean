import Stencil.Proofs.Eager.Refinement

/-! # Walks perform flows

Construct by construct, walks perform the flows of routines.  For a body of a section or of an
included document this rests on the same for these bodies, which is shown from the innermost
include outward: as many levels of includes are left there as the limit allows for beyond the
depth at which the document stands.
-/

namespace Stencil

open Program (Routine Line Section Block Expression)

namespace Eager

variable {σ : Type} {occasion : Occasion σ} {layers : List Layer} {activation : Activation σ}

/-! ## Loops -/

theorem Performs.rounds (separator : Option String)
    {body : List Layer → Nat → Value → Walk σ Unit}
    {flow : Nat → Value → Progress → Flow σ Progress}
    (performs : ∀ layers position element,
      Performs occasion layers activation (body layers position element)
        (flow position element))
    (position : Nat) (hasContent : Bool) (elements : List Value) :
    Performs occasion layers activation
      (Walk.rounds occasion.around layers separator body position hasContent elements)
      (Flow.rounds separator flow position hasContent elements) := by
  induction elements generalizing position hasContent with
  | nil => exact .idle
  | cons element elements ih =>
    intro ledger progress agrees
    rw [Walk.rounds, Flow.rounds, Flow.pushed, Walk.beginRound, LawfulMonad.bind_assoc]
    have counted : Walk.Matches (occasion.options.maxIncludeDepth = none) ledger
        (Walk.outputs (countRound occasion.around)) (countRound occasion.around)
        fun after _ _ => Agrees after activation progress :=
      .outputs (.countRound _) fun _ => agrees
    -- Counting a round touches neither memos nor recordings.
    refine counted.bind fun middle _ _ agrees => .note_bind ?_
    refine (Performs.inside (fun progress => Flow.pushed_joined occasion.around layers
      (if hasContent then separator else none) (flow position element progress))
      (performs _ position element)
      fun content => ih (position + 1) (hasContent || content)) _ progress ?_
    exact agrees.remembered ⟨rfl, rfl⟩

/-! ## Sections -/

theorem Progress.own_enter (progress : Progress) (recordings : Recordings) :
    (progress.enter recordings).own = recordings := rfl

theorem Progress.leave_enter (progress : Progress) (recordings : Recordings) :
    (progress.enter recordings).leave = progress := rfl

theorem sectionFlows_eq_map (setting : Setting σ) (scope : Scope (SectionFlow σ))
    (sections : List (Section σ)) :
    Program.sectionFlows setting scope sections = sections.map fun part =>
      (part.name, fun progress => Program.blockFlow setting scope false progress part.body) := by
  induction sections with
  | nil => rfl
  | cons part sections ih =>
    obtain ⟨name, body⟩ := part
    rw [Program.sectionFlows, ih]
    rfl

/-- The section that a flow finds under a name is the flow of the body that is found there. -/
theorem section?_flows (number : Nat) (forwards : List (String × Value))
    (sections : List (Section σ)) (frames : List Frame) (outer : Activation σ) (name : String) :
    ((Activation.within number forwards sections frames outer).flows occasion).section? name =
      ((Activation.within number forwards sections frames outer).context.section? name).map
        fun body progress => Program.blockFlow (occasion.settingAt outer.depth)
          ⟨frames, outer.flows occasion⟩ false progress body := by
  simp only [Activation.flows, Activation.context, Context.within, Context.section?,
    sectionFlows_eq_map, List.lookup_eq_findSome?, ← List.map_reverse, List.findSome?_map,
    List.map_findSome?]
  congr 1
  funext part
  simp only [Function.comp]
  split <;> rfl

section Slots

variable {number : Nat} {forwards : List (String × Value)} {sections : List (Section σ)}
  {frames : List Frame} {outer : Activation σ} {ledger : Ledger σ} {progress : Progress}

/-- The memo of a section does not matter where the section is not supplied. -/
theorem Agrees.marked (agrees : Agrees ledger outer progress) (apart : number ∉ outer.numbers)
    (name : String) (memo : Memo) : Agrees (ledger.marked number name memo) outer progress := by
  have untouched : Untouched (.within number [] [] [] .root) ledger
      (ledger.marked number name memo) := by
    refine ⟨Nat.le_refl _, fun other _ different otherName => ?_⟩
    have different : other ≠ number := fun same => different (List.mem_singleton.2 same)
    exact Ledger.memo_marked_other name memo different otherName
  refine agrees.of_untouched untouched fun other member own => apart ?_
  rwa [List.mem_singleton.1 own] at member

theorem Agrees.started
    (agrees : Agrees ledger (.within number forwards sections frames outer) progress)
    (name : String) : Agrees (ledger.started number name) outer progress.leave := by
  obtain ⟨-, distinct, -, outside⟩ := agrees
  have asked : Agrees (ledger.noted (.dispatch number name)) outer progress.leave :=
    outside.remembered ⟨rfl, rfl⟩
  exact (asked.marked distinct name .pending).remembered ⟨rfl, rfl⟩

/-- When the body of a section has been walked, its record is what its memo holds. -/
theorem Agrees.completed {name : String} {after : Ledger σ} {later : Progress}
    (agrees : Agrees ledger (.within number forwards sections frames outer) progress)
    (untouched : Untouched outer (ledger.started number name) after)
    (reached : Agrees after outer later) (chunks : List String) :
    Agrees (after.completed number name chunks) (.within number forwards sections frames outer)
      (later.enter ((name, chunks) :: progress.own)) := by
  obtain ⟨earlier, distinct, memos, -⟩ := agrees
  refine ⟨Nat.lt_of_lt_of_le earlier untouched.1, distinct, fun otherName => ?_, ?_⟩
  · rw [Progress.own_enter]
    show (after.marked number name (.complete chunks)).memo number otherName = _
    by_cases own : otherName = name
    · subst own
      rw [Ledger.memo_marked, List.lookup_cons_self]
      rfl
    · have different : ¬(number = number ∧ otherName = name) := fun same => own same.2
      have unequal : (otherName == name) = false := beq_eq_false_iff_ne.2 own
      rw [Ledger.memo_marked_of_ne different, List.lookup_cons, unequal,
        untouched.2 number earlier distinct, ← memos]
      exact Ledger.memo_marked_of_ne different
  · exact (reached.marked distinct name (.complete chunks)).remembered ⟨rfl, rfl⟩

/-- A section that is complete is put out once more as the record of it is. -/
theorem Agrees.matches_replay (occasion : Occasion σ) (layers : List Layer) (name : String)
    (agrees : Agrees ledger (.within number forwards sections frames outer) progress)
    (chunks : List String) :
    Walk.Matches (occasion.options.maxIncludeDepth = none) (ledger.noted (.dispatch number name))
      (Walk.replay occasion.around layers number name chunks)
      ((Flow.emitAll chunks >>= fun _ => pure progress).pushed occasion.around layers)
      fun after _ later => Agrees after (.within number forwards sections frames outer) later := by
  rw [Walk.replay_eq, Flow.pushed_bind, Flow.pushed_emitAll]
  have put : Walk.Matches (occasion.options.maxIncludeDepth = none)
      (ledger.noted (.dispatch number name)) (Walk.outputs (pushAll occasion.around layers
        chunks)) (pushAll occasion.around layers chunks)
      fun after _ _ => after = ledger.noted (.dispatch number name) :=
    .outputs (Act.Quiet.pushAll _ _ _).followed fun _ => rfl
  refine put.bind ?_
  rintro _ _ _ rfl
  exact .note (agrees.remembered ⟨rfl, rfl⟩)

/-- A section that nobody has asked for yet is walked as its flow is recorded. -/
theorem Agrees.matches_execute {body : Walk σ Unit} {flow : Progress → Flow σ Progress}
    (agrees : Agrees ledger (.within number forwards sections frames outer) progress)
    (untouched : Steady LeavesUntouched LeavesUntouched outer body) (name : String)
    (performs : Performs occasion (.record :: layers) outer body flow) :
    Walk.Matches (occasion.options.maxIncludeDepth = none) (ledger.noted (.dispatch number name))
      (Walk.execute number name body)
      (((flow progress.leave).recorded >>= fun result =>
        pure (result.1.enter ((name, result.2) :: progress.own))).pushed occasion.around layers)
      fun after _ later => Agrees after (.within number forwards sections frames outer) later := by
  refine .keeps_bind (.note_bind ?_)
  show Walk.Matches _ (ledger.started number name) _ _ _
  have alone : ∀ output, Walk.Leads ⟨output, ledger.started number name⟩ body
      (fun _ after => Untouched outer (ledger.started number name) after.ledger)
      fun after => Untouched outer (ledger.started number name) after.ledger :=
    fun output => untouched ⟨output, _⟩
  have walked := ((performs _ _ (agrees.started name)).leads alone).enclosed
  -- The memo and the record are made of the same texts, for what is pushed is the same.
  have recorded : Walk.Matches (occasion.options.maxIncludeDepth = none)
      (ledger.started number name) (Walk.enclosed body)
      ((flow progress.leave).recorded.pushed occasion.around layers)
      fun after result other => result.2.reverse = other.2 ∧
        Untouched outer (ledger.started number name) after ∧ Agrees after outer other.1 := by
    rw [Flow.pushed_recorded]
    refine .map (walked.mono ?_)
    exact fun _ _ _ holds => ⟨congrArg List.reverse holds.1, holds.2⟩
  rw [Flow.pushed_bind]
  refine recorded.bind ?_
  rintro after result ⟨later, _⟩ ⟨rfl, untouched, reached⟩
  exact .keeps_bind (.note (agrees.completed untouched reached _))

theorem Performs.slot {run : List Layer → Place σ → Block σ → Walk σ Unit} {name : String}
    (untouched : ∀ layers place block,
      Steady LeavesUntouched LeavesUntouched place.activation (run layers place block))
    (performs : ∀ part ∈ sections, ∀ layers,
      Performs occasion layers outer (run layers ⟨frames, outer⟩ part.body)
        fun progress => Program.blockFlow (occasion.settingAt outer.depth)
          ⟨frames, outer.flows occasion⟩ false progress part.body) :
    Performs occasion layers (.within number forwards sections frames outer)
      (occasion.walkSlot run layers (.within number forwards sections frames outer) name)
      (Flow.slot ((Activation.within number forwards sections frames outer).flows occasion)
        name) := by
  intro ledger progress agrees
  rw [Occasion.walkSlot, Flow.slot, section?_flows]
  cases found : (Activation.within number forwards sections frames outer).context.section?
      name with
  | none => exact .pure agrees
  | some body =>
    obtain ⟨part, supplied, rfl⟩ := section?_mem found
    refine .note_bind (.known_bind ?_)
    show Walk.Matches _ _ (Walk.respond _ _ _ _ _ (ledger.memo number name)) _ _
    rw [agrees.2.2.1 name]
    -- A memo is never pending here: the recordings know of complete sections only.
    cases progress.own.lookup name with
    | some chunks => exact agrees.matches_replay occasion layers name chunks
    | none =>
      exact agrees.matches_execute (untouched _ ⟨frames, outer⟩ part.body) name
        (performs part supplied (.record :: layers))

end Slots

/-! ## Includes -/

/-- A document can be entered where the walk admits it. -/
theorem Occasion.enter_settingAt (occasion : Occasion σ) (depth : Nat) (target : DocId) :
    (occasion.settingAt depth).enter target =
      match occasion.access depth target with
      | .ok block => .admitted fun scope progress =>
          Program.blockFlow (occasion.settingAt (depth + 1)) scope false progress block
      | .error (.failed error) => .refused error
      | .error .exhausted => .bottomless := by
  simp only [Occasion.settingAt, Occasion.access]
  by_cases deep : occasion.greatestDepth < depth + 1
  · have none : occasion.greatestDepth - depth = 0 := by omega
    rw [none, Program.entrance, if_pos deep]
    cases occasion.options.maxIncludeDepth <;> rfl
  · have some : occasion.greatestDepth - depth = occasion.greatestDepth - (depth + 1) + 1 := by
      omega
    rw [some, Program.entrance, if_neg deep]
    cases occasion.program.document? target <;> rfl

theorem Occasion.access_exhausted {depth : Nat} {target : DocId}
    (exhausted : occasion.access depth target = .error .exhausted) :
    occasion.options.maxIncludeDepth = none := by
  rw [Occasion.access] at exhausted
  by_cases deep : occasion.greatestDepth < depth + 1
  · rw [if_pos deep] at exhausted
    cases limit : occasion.options.maxIncludeDepth with
    | none => rfl
    | some limit' => rw [limit] at exhausted; cases exhausted
  · rw [if_neg deep] at exhausted
    cases found : occasion.program.document? target <;> rw [found] at exhausted <;>
      cases exhausted

theorem Performs.inclusion {run : List Layer → Place σ → Block σ → Walk σ Unit}
    (place : Place σ) {target : DocId} {forwards : List (String × Expression σ)}
    {sections : List (Section σ)}
    (performs : ∀ block, occasion.access place.activation.depth target = .ok block →
      ∀ number values, Performs occasion layers
        (.within number values sections place.frames place.activation)
        (run layers ⟨[], .within number values sections place.frames place.activation⟩ block)
        fun progress => Program.blockFlow (occasion.settingAt (place.activation.depth + 1))
          (Place.flows occasion
            ⟨[], .within number values sections place.frames place.activation⟩)
          false progress block) :
    Performs occasion layers place.activation
      (occasion.walkInclusion run layers place target forwards sections)
      fun progress => Program.routineFlow (occasion.settingAt place.activation.depth)
        (place.flows occasion) progress (.inclusion target forwards sections) := by
  intro ledger progress agrees
  dsimp only
  rw [Occasion.walkInclusion, Program.routineFlow, occasion.enter_settingAt]
  cases admitted : occasion.access place.activation.depth target with
  | error stop =>
    cases stop with
    | failed error => exact .fail error
    | exhausted => exact .exhaust (Occasion.access_exhausted admitted)
  | ok block =>
    dsimp only
    rw [Flow.pushed_bind]
    refine (matches_evaluateAll occasion.around layers place rfl forwards).bind ?_
    rintro middle values _ ⟨rfl, remembers⟩
    refine .enter_bind ?_
    have entered := (agrees.remembered remembers).entered values sections place.frames
    rw [Flow.pushed_bind]
    exact .map ((performs block admitted middle.next values _ _ entered).mono
      fun _ _ _ reached => reached.2.2.2)

/-! ## How deeply bodies are nested -/

section Nesting

variable (deeper : (least : Nat) → DocId → Nat) (least : Nat)

mutual

/-- How deeply the bodies of documents and sections are nested that a routine may walk, given
the same for included documents and for the sections that the document is supplied with. -/
def routineNesting : Routine σ → Nat
  | .literal _ | .output .. | .effect _ => 0
  | .binding _ _ body | .transform _ body => blockNesting body
  | .choice _ body otherwise => max (blockNesting body) (blockNesting otherwise)
  | .loop _ _ _ _ body fallback => max (blockNesting body) (blockNesting fallback)
  | .inclusion target _ sections => deeper (sectionsNesting sections) target
  | .slot _ => least

def childrenNesting : List (Routine σ) → Nat
  | [] => 0
  | child :: children => max (routineNesting child) (childrenNesting children)

def blockNesting : List (Line σ) → Nat
  | [] => 0
  | ⟨children, _, _⟩ :: lines => max (childrenNesting children) (blockNesting lines)

/-- The same for sections, each body of which is one more level. -/
def sectionsNesting : List (Section σ) → Nat
  | [] => 0
  | ⟨_, body⟩ :: sections => max (blockNesting body + 1) (sectionsNesting sections)

end

end Nesting

/-- How deeply bodies are nested in a document when so many levels of documents are left, given
how deeply they are in the sections that it is supplied with. -/
def documentNesting (program : Program σ) : (levels least : Nat) → DocId → Nat
  | 0, _, _ => 0
  | levels + 1, least, document =>
    match program.document? document with
    | some block => blockNesting (documentNesting program levels) least block + 1
    | none => 0

/-- Enough fuel for the walk over a document. -/
def Occasion.nesting (occasion : Occasion σ) (document : DocId) : Nat :=
  documentNesting occasion.program (occasion.greatestDepth + 1) 0 document

/-! ## Bodies -/

theorem Performs.transform {place : Place σ} {walk : Walk σ Unit}
    {flow : Progress → Flow σ Progress} (expression : Expression σ)
    (performs : Performs occasion [] place.activation walk flow) :
    Performs occasion layers place.activation
      (Walk.outputs (poll occasion.around) >>= fun _ => Walk.gathered walk >>= fun result =>
        Walk.evaluate (place.extend [(Program.blockName, .text result.2)]) expression >>=
          fun value => Walk.outputs (pushAll occasion.around layers
            (value.chunks true occasion.options.escape)))
      fun progress => Flow.gathered (fun _ => flow progress) >>= fun result =>
        expression.evaluate
            ((place.flows occasion).extend [(Program.blockName, .text result.2)]) >>=
          fun value => Flow.emitAll (value.chunks true occasion.options.escape) >>= fun _ =>
            pure result.1 := by
  intro ledger progress agrees
  have polled : Walk.Matches (occasion.options.maxIncludeDepth = none) ledger
      (Walk.outputs (poll occasion.around)) (poll occasion.around)
      fun after _ _ => after = ledger :=
    .outputs (Act.Quiet.poll _).followed fun _ => rfl
  rw [Flow.pushed_bind, Flow.pushed_gathered, LawfulMonad.bind_assoc]
  refine polled.bind ?_
  rintro _ _ _ rfl
  refine (performs _ progress agrees).gathered.bind ?_
  rintro after ⟨_, text⟩ ⟨later, _⟩ ⟨rfl, reached⟩
  refine Performs.after (fun ledger => ?_) (fun value => .chunks _) after later reached
  exact matches_evaluate occasion.around layers (place.extend _) rfl expression

/-- The sections that a document is supplied with are performed with so much fuel. -/
def Supplied (occasion : Occasion σ) (least : Nat) : Activation σ → Prop
  | .root => True
  | .within _ _ sections frames outer => ∀ part ∈ sections, ∀ fuel, least ≤ fuel → ∀ layers,
    Performs occasion layers outer (occasion.walkBody fuel layers ⟨frames, outer⟩ part.body)
      fun progress => Program.blockFlow (occasion.settingAt outer.depth)
        ⟨frames, outer.flows occasion⟩ false progress part.body

/-- Documents that are entered with so many levels left are performed with enough fuel. -/
def Enterable (occasion : Occasion σ) (levels : Nat) : Prop :=
  ∀ activation least target block, activation.depth ≤ occasion.greatestDepth →
    activation.depth + levels = occasion.greatestDepth + 1 → Supplied occasion least activation →
    occasion.program.document? target = some block →
    ∀ fuel, documentNesting occasion.program levels least target ≤ fuel → ∀ layers,
      Performs occasion layers activation (occasion.walkBody fuel layers ⟨[], activation⟩ block)
        fun progress => Program.blockFlow (occasion.settingAt activation.depth)
          (Place.flows occasion ⟨[], activation⟩) false progress block

theorem Performs.suppliedSlot {fuel : Nat} (enough : least ≤ fuel) (layers : List Layer)
    (name : String) (supplied : Supplied occasion least activation) :
    Performs occasion layers activation
      (occasion.walkSlot (occasion.walkBody fuel) layers activation name)
      (Flow.slot (activation.flows occasion) name) := by
  cases activation with
  | root => exact .idle
  | within number forwards sections frames outer =>
    refine .slot (fun layers place block => ?_) fun part member layers =>
      supplied part member fuel enough layers
    exact walkBody_untouched occasion fuel layers place block

section Bodies

variable {levels least : Nat}

mutual

theorem performs_routine (enterable : Enterable occasion levels) (place : Place σ)
    (left : place.activation.depth + levels = occasion.greatestDepth)
    (supplied : Supplied occasion least place.activation) (layers : List Layer) (fuel : Nat) :
    (routine : Routine σ) →
    routineNesting (documentNesting occasion.program levels) least routine ≤ fuel →
    Performs occasion layers place.activation
      (occasion.walkRoutine (occasion.walkBody fuel) layers place routine)
      fun progress => Program.routineFlow (occasion.settingAt place.activation.depth)
        (place.flows occasion) progress routine
  | .literal text, _ => .literal text
  | .output expression raw, _ => by
    simp only [Occasion.walkRoutine, Program.routineFlow]
    exact .after (fun _ => matches_evaluate _ layers place rfl expression) fun _ => .chunks _
  | .effect expression, _ => by
    simp only [Occasion.walkRoutine, Program.routineFlow]
    exact .after (fun _ => matches_evaluate _ layers place rfl expression) fun _ => .idle
  | .binding name expression body, enough => by
    simp only [Occasion.walkRoutine, Program.routineFlow]
    refine .after (fun _ => matches_boundValue _ layers place rfl ?_ name expression)
      fun value => ?_
    · exact place.activation.flows_forwards occasion
    · exact performs_block enterable (place.extend [(name, value)]) left supplied layers fuel
        false body enough
  | .choice condition body otherwise, enough => by
    simp only [Occasion.walkRoutine, Program.routineFlow]
    rw [routineNesting, Nat.max_le] at enough
    refine .after (fun _ => matches_evaluate _ layers place rfl condition) fun value => ?_
    cases value.isTruthy with
    | true => exact performs_block enterable place left supplied layers fuel false body enough.1
    | false =>
      exact performs_block enterable place left supplied layers fuel false otherwise enough.2
  | .loop item index iterable separator body fallback, enough => by
    simp only [Occasion.walkRoutine, Program.routineFlow]
    rw [routineNesting, Nat.max_le] at enough
    refine .after (fun _ => matches_evaluate _ layers place rfl iterable) fun value => ?_
    cases value.items? with
    | none => exact .fail _
    | some elements =>
      cases elements with
      | nil =>
        exact performs_block enterable place left supplied layers fuel false fallback enough.2
      | cons element elements =>
        refine .rounds separator (fun layers position element => ?_) 0 false _
        exact performs_block enterable (place.extend (loopFrame item index position element))
          left supplied layers fuel false body enough.1
  | .transform expression body, enough => by
    simp only [Occasion.walkRoutine, Program.routineFlow]
    exact .transform expression
      (performs_block enterable place left supplied [] fuel false body enough)
  | .inclusion target forwards sections, enough => by
    refine Performs.inclusion place fun block admitted number values => ?_
    obtain ⟨shallow, document⟩ := Occasion.access_ok admitted
    -- One level down, one level less is left.
    have inner : place.activation.depth + 1 + levels = occasion.greatestDepth + 1 := by omega
    refine enterable (.within number values sections place.frames place.activation) _ target
      block shallow inner ?_ document fuel enough layers
    exact performs_sections enterable place left supplied sections
  | .slot name, enough => .suppliedSlot enough layers name supplied

theorem performs_children (enterable : Enterable occasion levels) (place : Place σ)
    (left : place.activation.depth + levels = occasion.greatestDepth)
    (supplied : Supplied occasion least place.activation) (layers : List Layer) (fuel : Nat) :
    (children : List (Routine σ)) →
    childrenNesting (documentNesting occasion.program levels) least children ≤ fuel →
    Performs occasion layers place.activation
      (occasion.walkChildren (occasion.walkBody fuel) layers place children)
      fun progress => Program.childrenFlow (occasion.settingAt place.activation.depth)
        (place.flows occasion) progress children
  | [], _ => .idle
  | child :: children, enough => by
    simp only [Occasion.walkChildren, Program.childrenFlow]
    rw [childrenNesting, Nat.max_le] at enough
    exact .seq (performs_routine enterable place left supplied layers fuel child enough.1)
      (performs_children enterable place left supplied layers fuel children enough.2)

theorem performs_block (enterable : Enterable occasion levels) (place : Place σ)
    (left : place.activation.depth + levels = occasion.greatestDepth)
    (supplied : Supplied occasion least place.activation) (layers : List Layer) (fuel : Nat)
    (hasContent : Bool) : (lines : List (Line σ)) →
    blockNesting (documentNesting occasion.program levels) least lines ≤ fuel →
    Performs occasion layers place.activation
      (occasion.walkBlock (occasion.walkBody fuel) layers place hasContent lines)
      fun progress => Program.blockFlow (occasion.settingAt place.activation.depth)
        (place.flows occasion) hasContent progress lines
  | [], _ => .idle
  | ⟨children, terminator, indentation⟩ :: lines, enough => by
    simp only [Occasion.walkBlock, Program.blockFlow]
    rw [blockNesting, Nat.max_le] at enough
    exact .inside (fun progress => Flow.pushed_line _ layers _ indentation _)
      (performs_children enterable place left supplied _ fuel children enough.1)
      fun content => performs_block enterable place left supplied layers fuel
        (hasContent || content) lines enough.2

/-- The sections of an include are performed at the place of the include. -/
theorem performs_sections (enterable : Enterable occasion levels) (place : Place σ)
    (left : place.activation.depth + levels = occasion.greatestDepth)
    (supplied : Supplied occasion least place.activation) : (sections : List (Section σ)) →
    ∀ part ∈ sections, ∀ fuel,
      sectionsNesting (documentNesting occasion.program levels) least sections ≤ fuel →
      ∀ layers, Performs occasion layers place.activation
        (occasion.walkBody fuel layers place part.body)
        fun progress => Program.blockFlow (occasion.settingAt place.activation.depth)
          (place.flows occasion) false progress part.body
  | [], _, member => nomatch member
  | ⟨name, body⟩ :: sections, part, member => by
    intro fuel enough layers
    rw [sectionsNesting, Nat.max_le] at enough
    obtain rfl | later := List.mem_cons.1 member
    -- Walking the body of a section takes one unit of fuel.
    · obtain ⟨fuel, rfl⟩ : ∃ less, fuel = less + 1 := ⟨fuel - 1, by omega⟩
      exact performs_block enterable place left supplied layers fuel false body
        (Nat.le_of_succ_le_succ enough.1)
    · exact performs_sections enterable place left supplied sections part later fuel enough.2
        layers

end

end Bodies

/-- Whatever number of levels is left, documents are performed.  The induction is from the
deepest documents outward. -/
theorem enterable (occasion : Occasion σ) (levels : Nat) : Enterable occasion levels := by
  induction levels with
  | zero =>
    -- With no level left, no document is shallow enough.
    intro activation _ _ _ shallow left
    omega
  | succ levels ih =>
    intro activation least target block _ left supplied document fuel enough layers
    simp only [documentNesting, document] at enough
    obtain ⟨fuel, rfl⟩ : ∃ less, fuel = less + 1 := ⟨fuel - 1, by omega⟩
    have here : activation.depth + levels = occasion.greatestDepth := by omega
    exact performs_block ih ⟨[], activation⟩ here supplied layers fuel false block
      (Nat.le_of_succ_le_succ enough)

/-! ## Documents -/

/-- With enough fuel the walk over a document does to the output what the flow of the document
does. -/
theorem Occasion.walkDocument_matches (occasion : Occasion σ) (document : DocId) {fuel : Nat}
    (enough : occasion.nesting document ≤ fuel) :
    Walk.Matches (occasion.options.maxIncludeDepth = none) .start
      (occasion.walkDocument fuel document)
      (poll occasion.around >>= fun _ =>
        (occasion.program.flow occasion.options document).pushed occasion.around [])
      fun _ _ _ => True := by
  have polled : Walk.Matches (occasion.options.maxIncludeDepth = none) .start
      (Walk.outputs (poll occasion.around)) (poll occasion.around)
      fun after _ _ => after = .start :=
    .outputs (Act.Quiet.poll _).followed fun _ => rfl
  refine polled.bind ?_
  rintro _ _ _ rfl
  rw [Program.flow]
  cases found : occasion.program.document? document with
  | none => exact .fail _
  | some block =>
    refine .mono (enterable occasion (occasion.greatestDepth + 1) .root 0 document block
      (Nat.zero_le _) ?_ True.intro found fuel enough [] .start .start True.intro) ?_
    · exact Nat.zero_add _
    · exact fun _ _ _ _ => True.intro

end Eager

end Stencil
