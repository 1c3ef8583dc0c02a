import Stencil.Proofs.Indentation.Stream

/-! # Flows whose indentations compose

A marked flow is composed if from some stance on it puts out nothing but chunks that may come
next, as long as it is told the truth about where the output stands.  A line makes a composed flow
of a composed one: it puts its indentation ahead of the first of those that are already there, and
ahead of a chunk that has none.

If newlines may be indentations, a composed flow is free to do anything behind the first of them.
-/

namespace Stencil

variable {σ α β : Type}

inductive Composed (crooked : Prop) (results : α → Stance → Prop) :
    Stance → Marked σ α → Prop where
  | finish {stance : Stance} {result : α} :
      results result stance → Composed crooked results stance (.finish result)
  | fail (stance : Stance) (error : RenderError) : Composed crooked results stance (.fail error)
  | bottomless (stance : Stance) : Composed crooked results stance .bottomless
  | emit {stance : Stance} {piece : Piece} {resume : Bool → Marked σ α} :
      (∃ atStart later, stance.Takes piece atStart later) →
      (∀ atStart later, stance.Takes piece atStart later →
        Composed crooked results later (resume atStart)) →
      Composed crooked results stance (.emit piece resume)
  | emitCrooked {stance : Stance} {piece : Piece} {resume : Bool → Marked σ α} :
      crooked → ¬piece.IsStraight → Composed crooked results stance (.emit piece resume)
  | call {stance : Stance} {callable : Host.Callable σ} {invocation : Invocation}
      {resume : Value → Marked σ α} :
      (∀ value, Composed crooked results stance (resume value)) →
      Composed crooked results stance (.call callable invocation resume)
  | round {stance : Stance} {resume : Unit → Marked σ α} :
      (∀ go, Composed crooked results stance (resume go)) →
      Composed crooked results stance (.round resume)
  | poll {stance : Stance} {resume : Unit → Marked σ α} :
      (∀ go, Composed crooked results stance (resume go)) →
      Composed crooked results stance (.poll resume)
  | gathering {stance : Stance} {stream : List Piece} {rest : Marked σ α} :
      (∀ piece ∈ stream, piece.IsStraight) → WellIndented stream →
      Composed crooked results stance rest →
      Composed crooked results stance (.gathering stream rest)
  | gatheringCrooked {stance : Stance} {stream : List Piece} {rest : Marked σ α} :
      crooked → ¬(∀ piece ∈ stream, piece.IsStraight) →
      Composed crooked results stance (.gathering stream rest)

/-- In the end no indentation is waiting for its chunk. -/
abbrev Settles (_ : α) (stance : Stance) : Prop :=
  stance.Settled

/-- Where there has been content, it is known where the output stands. -/
abbrev SettlesContent (result : α × Bool) (stance : Stance) : Prop :=
  stance.Settled ∧ (result.2 → stance.IsKnown)

/-- Wherever the output stands, the flow is composed. -/
def Composes (crooked : Prop) (marked : Marked σ α) : Prop :=
  ∀ stance : Stance, stance.Settled → Composed crooked Settles stance marked

variable {crooked : Prop}

namespace Composed

variable {results : α → Stance → Prop} {stance : Stance} {marked : Marked σ α}

/-- What comes next may rely on it that where the output stands does not get unknown. -/
theorem bind_known {condition : Prop} {last : β → Stance → Prop} {next : α → Marked σ β}
    (first : Composed crooked results stance marked) (known : condition → stance.IsKnown)
    (second : ∀ result later, results result later → (condition → later.IsKnown) →
      Composed crooked last later (next result)) :
    Composed crooked last stance (marked >>= next) := by
  induction first with
  | finish holds => exact second _ _ holds known
  | fail stance error => exact .fail stance error
  | bottomless stance => exact .bottomless stance
  | emitCrooked allowed bent => exact .emitCrooked allowed bent
  | emit admits _ ih =>
    exact .emit admits fun atStart later takes =>
      ih atStart later takes fun holds => takes.isKnown (known holds)
  | call _ ih => exact .call fun value => ih value known
  | round _ ih => exact .round fun go => ih go known
  | poll _ ih => exact .poll fun go => ih go known
  | gathering straight indented _ ih => exact .gathering straight indented (ih known)
  | gatheringCrooked allowed bent => exact .gatheringCrooked allowed bent

theorem bind {last : β → Stance → Prop} {next : α → Marked σ β}
    (first : Composed crooked results stance marked)
    (second : ∀ result later, results result later → Composed crooked last later (next result)) :
    Composed crooked last stance (marked >>= next) :=
  first.bind_known False.elim fun result later holds _ => second result later holds

theorem mono {weaker : α → Stance → Prop} (composed : Composed crooked results stance marked)
    (weaken : ∀ result later, results result later → weaker result later) :
    Composed crooked weaker stance marked := by
  rw [← marked.bind_finish]
  exact composed.bind fun result later holds => .finish (weaken result later holds)

end Composed

/-! ## Adaptors -/

section Adaptors

variable {S κ : Type} {take : S → Piece → Marked σ (S × Bool)} {tell : S → κ}
  {adapt : {α : Type} → S → Marked σ α → Marked σ (α × κ)} {stands : Stance → S → Stance → Prop}

/-- Whatever may come next inside of an adaptor is taken for what may come next outside, in states
that stand between a stance inside and one outside. -/
structure Composing (crooked : Prop) (take : S → Piece → Marked σ (S × Bool))
    (stands : Stance → S → Stance → Prop) : Prop where
  straight : ∀ {stance : Stance} {state : S} {outer : Stance} {piece : Piece},
    stands stance state outer → (∃ answer later, stance.Takes piece answer later) →
      Composed crooked
        (fun next after => ∃ later, stance.Takes piece next.2 later ∧ stands later next.1 after)
        outer (take state piece)
  bent : crooked → ∀ (state : S) (outer : Stance) {piece : Piece}, ¬piece.IsStraight →
    Composed crooked (fun _ _ => False) outer (take state piece)

theorem Composed.through (adaptor : Marked.Adaptor take tell adapt)
    (composing : Composing crooked take stands) {results : α → Stance → Prop}
    {last : α × κ → Stance → Prop}
    (told : ∀ {result stance state outer}, results result stance → stands stance state outer →
      last (result, tell state) outer)
    {stance : Stance} {marked : Marked σ α} (composed : Composed crooked results stance marked)
    {state : S} {outer : Stance} (between : stands stance state outer) :
    Composed crooked last outer (adapt state marked) := by
  induction composed generalizing state outer with
  | finish holds =>
    rw [adaptor.finish]
    exact .finish (told holds between)
  | fail stance error =>
    rw [adaptor.fail]
    exact .fail outer error
  | bottomless stance =>
    rw [adaptor.bottomless]
    exact .bottomless outer
  | emit admits _ ih =>
    -- When the chunk has been taken, the stances inside and outside go on together.
    rw [adaptor.emit]
    refine (composing.straight between admits).bind ?_
    rintro next after ⟨later, takes, between⟩
    exact ih next.2 later takes between
  | emitCrooked allowed bent =>
    rw [adaptor.emit]
    exact (composing.bent allowed state outer bent).bind fun _ _ impossible => impossible.elim
  | call _ ih =>
    rw [adaptor.call]
    exact .call fun value => ih value between
  | round _ ih =>
    rw [adaptor.round]
    exact .round fun go => ih go between
  | poll _ ih =>
    rw [adaptor.poll]
    exact .poll fun go => ih go between
  | gathering straight indented _ ih =>
    rw [adaptor.gathering]
    exact .gathering straight indented (ih between)
  | gatheringCrooked allowed bent =>
    rw [adaptor.gathering]
    exact .gatheringCrooked allowed bent

end Adaptors

/-! ## Chunks that have passed no line -/

theorem Stance.Settled.takes {stance : Stance} (settled : stance.Settled) {piece : Piece}
    (text : piece.isIndentation = false) (none : shown piece.around = []) :
    (∃ answer later, stance.Takes piece answer later) ∧
      ∀ answer later, stance.Takes piece answer later → later.Settled := by
  constructor
  · have admits : ∃ answer later, Takes .unknown piece answer later := by
      cases empty : piece.text.isEmpty with
      | true => exact ⟨true, _, .learn true empty⟩
      | false =>
        cases newline : isNewline piece.text with
        | true => exact ⟨_, _, .skip text newline⟩
        | false => exact ⟨_, _, .first text empty newline none⟩
    cases settled with
    | unknown => exact admits
    | known atStart => exact (Takes.told admits atStart).1
  · intro answer later takes
    cases takes with
    | learn | first | text => exact .known _
    | skip => exact .unknown
    | blank => exact settled
    | indentation indents => rw [text] at indents; cases indents

/-- A newline may be put out wherever no indentation is waiting, whatever lines it has passed. -/
theorem Stance.Settled.takes_newline {stance : Stance} (settled : stance.Settled) {piece : Piece}
    (text : piece.isIndentation = false) (newline : isNewline piece.text) :
    (∃ answer later, stance.Takes piece answer later) ∧
      ∀ answer later, stance.Takes piece answer later →
        answer = true ∧ later.Settled ∧ (stance.IsKnown → later.IsKnown) := by
  have visible := not_isEmpty_of_isNewline newline
  cases settled with
  | unknown =>
    refine ⟨⟨_, _, .skip text newline⟩, fun answer later takes => ?_⟩
    cases takes with
    | learn _ empty => rw [visible] at empty; cases empty
    | skip => exact ⟨rfl, .unknown, id⟩
    | first _ _ other => rw [newline] at other; cases other
  | known atStart =>
    refine ⟨⟨_, _, Stance.takes_newline text newline atStart⟩, fun answer later takes => ?_⟩
    obtain ⟨-, -, rfl, rfl⟩ := takes.of_newline newline
    exact ⟨rfl, .known true, fun _ => .known ..⟩

/-- Any chunk but a newline that may be put out where nothing is known may be put out wherever no
indentation is waiting, with the same effect. -/
theorem Stance.Settled.told {outer : Stance} (settled : outer.Settled) {piece : Piece}
    (admits : ∃ answer later, Takes .unknown piece answer later)
    (other : isNewline piece.text = false) :
    (∃ answer later, outer.Takes piece answer later) ∧
      ∀ answer later, outer.Takes piece answer later → Takes .unknown piece answer later := by
  cases settled with
  | unknown => exact ⟨admits, fun _ _ => id⟩
  | known atStart =>
    obtain ⟨possible, same⟩ := Takes.told admits atStart
    refine ⟨possible, fun answer later takes => (same answer later takes).resolve_right ?_⟩
    rintro ⟨skipped, -⟩
    cases skipped.isKnown_of_not_newline other

namespace Composes

theorem bind {marked : Marked σ α} {next : α → Marked σ β} (first : Composes crooked marked)
    (second : ∀ result, Composes crooked (next result)) : Composes crooked (marked >>= next) :=
  fun stance settled => (first stance settled).bind fun result later settled =>
    second result later settled

theorem finish (result : α) : Composes crooked (.finish result : Marked σ α) :=
  fun _ settled => .finish settled

theorem ofFlow (flow : Flow σ α) : Composes crooked (Marked.ofFlow flow) := by
  intro stance settled
  induction flow generalizing stance with
  | finish => exact .finish settled
  | fail error => exact .fail stance error
  | bottomless => exact .bottomless stance
  | emit chunk resume ih =>
    obtain ⟨admits, settles⟩ := @Stance.Settled.takes _ settled (.bare .content chunk) rfl rfl
    exact .emit admits fun answer later takes => ih answer later (settles answer later takes)
  | call callable invocation resume ih => exact .call fun value => ih value stance settled
  | round resume ih => exact .round fun go => ih go stance settled
  | poll resume ih => exact .poll fun go => ih go stance settled

theorem emitAll {role : Role} (text : (role == .indentation) = false) (texts : List String) :
    Composes crooked (Marked.emitAll role texts : Marked σ Unit) := by
  intro stance settled
  induction texts generalizing stance with
  | nil => exact .finish settled
  | cons chunk texts ih =>
    obtain ⟨admits, settles⟩ := @Stance.Settled.takes _ settled (.bare role chunk) text rfl
    exact .emit admits fun answer later takes => ih later (settles answer later takes)

end Composes

/-! ## Lines -/

/-- The indentations that have been put out outside of a line, given those inside. -/
def runOutside (indentation : Option String) (run : List String) : List String :=
  if run.isEmpty then [] else shown indentation.toList ++ run

theorem runOutside_isEmpty (indentation : Option String) (run : List String) :
    (runOutside indentation run).isEmpty = run.isEmpty := by
  cases run with
  | nil => rfl
  | cons text run =>
    simp [runOutside]

theorem Piece.due_within (piece : Piece) (indentation : Option String) (atStart : Bool)
    (other : isNewline piece.text = false) :
    (piece.within indentation).due atStart =
      if atStart then shown indentation.toList ++ piece.due atStart else piece.due atStart := by
  simp only [due, within, other, Bool.not_false, Bool.and_true, shown_append]
  cases atStart <;> rfl

theorem Composed.emit_indentation {results : α → Stance → Prop} {text : String}
    (plain : crooked ∨ text ≠ "\n") {marked : Marked σ α}
    (rest : Composed crooked results (.known true (shown [text])) marked) :
    Composed crooked results (.known true [])
      (.emit (.bare .indentation text) fun _ => marked) := by
  cases newline : isNewline text with
  | true =>
    refine .emitCrooked (plain.resolve_right fun other => other (eq_of_beq newline)) ?_
    exact fun straight => Bool.eq_false_iff.1 (straight rfl) newline
  | false =>
    cases empty : text.isEmpty with
    | true =>
      have nothing : shown [text] = [] := by simp [shown, empty]
      rw [nothing] at rest
      refine .emit ⟨_, _, .blank empty⟩ fun answer later takes => ?_
      obtain ⟨-, rfl⟩ := takes.of_blank empty
      exact rest
    | false =>
      have itself : shown [text] = [text] := by simp [shown, empty]
      rw [itself] at rest
      refine .emit ⟨_, _, .indentation rfl empty newline⟩ fun answer later takes => ?_
      obtain ⟨-, -, -, rfl⟩ := takes.of_indents rfl empty
      exact rest

theorem Composed.emitIndented {results : α → Stance → Prop} {indentation : Option String}
    (plain : crooked ∨ indentation ≠ some "\n") {piece : Piece}
    (visible : piece.text.isEmpty = false) {atStart : Bool} {run : List String}
    (possible : atStart = false → run = []) {resume : Bool → Marked σ α}
    (rest : Composed crooked results
      (.known atStart (if atStart then shown indentation.toList ++ run else run))
      (.emit piece resume)) :
    Composed crooked results (.known atStart (runOutside indentation run))
      (Marked.emitIndented indentation (atStart && run.isEmpty) piece resume) := by
  cases atStart with
  | false =>
    cases possible rfl
    cases indentation <;> exact rest
  | true =>
    cases run with
    | cons text run => cases indentation <;> exact rest
    | nil =>
      cases indentation with
      | none => exact rest
      | some text =>
        simp only [Marked.emitIndented, visible, List.isEmpty_nil, Bool.not_false, Bool.and_true,
          if_true]
        rw [if_pos rfl, List.append_nil, Option.toList_some] at rest
        exact .emit_indentation (plain.imp_right (mt (congrArg some))) rest

theorem Marked.emitIndented_blank {indentation : Option String} {atStart : Bool} {piece : Piece}
    (empty : piece.text.isEmpty) (resume : Bool → Marked σ α) :
    Marked.emitIndented indentation atStart piece resume = .emit piece resume := by
  cases indentation with
  | none => rfl
  | some text => simp only [emitIndented, empty, Bool.not_true, Bool.and_false, Bool.false_eq_true,
      if_false]

/-- Where a line stands between what it is given and what it puts out. -/
inductive LineStands (lead : String) (indentation : Option String) :
    Stance → Flow.LineStage → Stance → Prop where
  | fresh {outer : Stance} :
      outer.Settled → lead = "" ∨ outer.IsKnown →
      LineStands lead indentation .unknown .fresh outer
  | begun (atStart : Bool) (run : List String) :
      LineStands lead indentation (.known atStart run) (.begun (atStart && run.isEmpty))
        (.known atStart (runOutside indentation run))

/-- Behind its lead a line takes chunks wherever the output stands. -/
theorem lineTake_begun (lead : String) {indentation : Option String}
    (plain : crooked ∨ indentation ≠ some "\n") {atStart : Bool} {run : List String}
    {piece : Piece} (admits : ∃ answer later, (Stance.known atStart run).Takes piece answer later) :
    Composed crooked
      (fun next after => ∃ later, (Stance.known atStart run).Takes piece next.2 later ∧
        LineStands lead indentation later next.1 after)
      (.known atStart (runOutside indentation run))
      (Marked.lineTake lead indentation (.begun (atStart && run.isEmpty)) piece :
        Marked σ (Flow.LineStage × Bool)) := by
  obtain ⟨_, _, admitted⟩ := admits
  -- Passing the line changes nothing of a chunk but what is around it.
  have kind : (piece.within indentation).isIndentation = piece.isIndentation := rfl
  have chunk : (piece.within indentation).text = piece.text := rfl
  simp only [Marked.lineTake]
  cases newline : isNewline piece.text with
  | true =>
    obtain ⟨text, rfl, -, -⟩ := admitted.of_newline newline
    have taken := Stance.takes_newline text newline atStart
    rw [← kind] at text
    refine .emit ⟨_, _, Stance.takes_newline text newline atStart⟩ fun answer later takes => ?_
    obtain ⟨-, -, rfl, rfl⟩ := takes.of_newline newline
    exact .finish ⟨_, taken, .begun true []⟩
  | false =>
    simp only [Bool.false_eq_true, if_false, Marked.begin]
    cases admitted with
    | blank empty =>
      have taken := @Stance.Takes.blank piece atStart run empty
      rw [← chunk] at empty
      rw [Marked.emitIndented_blank empty]
      refine .emit ⟨_, _, .blank empty⟩ fun answer later takes => ?_
      obtain ⟨rfl, rfl⟩ := takes.of_blank empty
      rw [runOutside_isEmpty]
      exact .finish ⟨_, taken, .begun atStart run⟩
    | indentation indents visible =>
      have taken := @Stance.Takes.indentation piece run indents visible newline
      rw [← kind] at indents
      rw [← chunk] at visible newline
      have possible : true = false → run = [] := fun impossible => by cases impossible
      refine .emitIndented plain visible possible ?_
      refine .emit ⟨_, _, .indentation indents visible newline⟩ fun answer later takes => ?_
      obtain ⟨-, -, rfl, rfl⟩ := takes.of_indents indents visible
      have inside := @LineStands.begun lead indentation true (run ++ [piece.text])
      refine .finish ⟨_, taken, ?_⟩
      simpa only [runOutside, isEmpty_concat, Bool.and_false, Bool.false_eq_true, if_false,
        if_true, List.append_assoc, chunk] using inside
    | text text visible fits =>
      subst fits
      have taken := @Stance.Takes.text piece atStart _ text visible rfl
      rw [newline] at taken
      have possible : atStart = false → piece.due atStart = [] := by
        rintro rfl
        rfl
      rw [← kind] at text
      rw [← chunk] at visible
      refine .emitIndented plain visible possible ?_
      rw [← piece.due_within indentation atStart newline]
      refine .emit ⟨_, _, .text text visible rfl⟩ fun answer later takes => ?_
      obtain ⟨-, rfl, rfl⟩ := takes.of_visible text visible
      rw [chunk, newline]
      exact .finish ⟨_, taken, .begun false []⟩

/-- The lead of a line tells where the output stands behind it. -/
theorem Stance.Settled.takes_lead {outer : Stance} (settled : outer.Settled) {lead : String}
    (led : lead = "" ∨ outer.IsKnown) :
    (∃ answer later, outer.Takes (.bare .joint lead) answer later) ∧
      ∀ answer later, outer.Takes (.bare .joint lead) answer later → later = .known answer [] := by
  refine ⟨(settled.takes rfl rfl).1, fun answer later takes => ?_⟩
  cases settled with
  | unknown =>
    obtain rfl | impossible := led
    · cases takes with
      | learn => rfl
      | skip _ newline => cases newline
      | first _ visible => cases visible
    · cases impossible
  | known atStart =>
    cases empty : lead.isEmpty with
    | true =>
      obtain ⟨rfl, rfl⟩ := takes.of_blank empty
      rw [List.isEmpty_nil, Bool.and_true]
    | false =>
      obtain ⟨-, rfl, rfl⟩ := takes.of_visible rfl empty
      rfl

theorem lineTake_composing (lead : String) {indentation : Option String}
    (plain : crooked ∨ indentation ≠ some "\n") :
    Composing (σ := σ) crooked (Marked.lineTake lead indentation)
      (LineStands lead indentation) where
  straight between admits := by
    cases between with
    | begun atStart run => exact lineTake_begun lead plain admits
    | @fresh outer settled led =>
      rename_i piece
      cases newline : isNewline piece.text with
      | true =>
        -- Newlines pass, and the line is as fresh as before.
        obtain ⟨taken, text⟩ := Stance.takes_skip admits newline
        have outside : (piece.within indentation).isIndentation = false := text
        obtain ⟨possible, next⟩ := settled.takes_newline outside newline
        simp only [Marked.lineTake, newline, if_true]
        refine .emit possible fun answer later takes => ?_
        obtain ⟨rfl, settled, lasts⟩ := next answer later takes
        exact .finish ⟨_, taken, .fresh settled (led.imp_right lasts)⟩
      | false =>
        obtain ⟨possible, known⟩ := settled.takes_lead led
        simp only [Marked.lineTake, newline, Bool.false_eq_true, if_false, Marked.begin]
        refine .emit possible fun answer later takes => ?_
        cases known answer later takes
        -- Told where the output stands behind its lead, the line goes on from there.
        obtain ⟨admits, same⟩ := (Stance.Settled.known answer).told admits newline
        have begun := @lineTake_begun σ crooked lead indentation plain answer [] piece admits
        simp only [Marked.lineTake, newline, Bool.false_eq_true, if_false, Marked.begin,
          List.isEmpty_nil, Bool.and_true] at begun
        refine begun.mono ?_
        rintro next after ⟨later, takes, between⟩
        exact ⟨later, same _ _ takes, between⟩
  bent allowed stage outer piece bent := by
    simp only [Marked.lineTake, (Piece.crooked bent).2, if_true]
    exact .emitCrooked allowed bent

/-- A line is composed, unless it puts its terminator out where nothing is known of the output. -/
theorem Composed.line {lead : String} {indentation : Option String}
    (plain : crooked ∨ indentation ≠ some "\n") {marked : Marked σ α}
    (composed : Composed crooked Settles .unknown marked) {outer : Stance}
    (settled : outer.Settled) (led : lead = "" ∨ outer.IsKnown) :
    Composed crooked SettlesContent outer (marked.line lead indentation .fresh) := by
  refine composed.through (.line lead indentation) (lineTake_composing lead plain) ?_
    (.fresh settled led)
  intro result stance stage outer settled between
  cases between with
  | fresh outside => exact ⟨outside, nofun⟩
  | begun atStart run =>
    cases settled with
    | known => exact ⟨.known atStart, fun _ => .known ..⟩

/-! ## Rounds of a loop -/

/-- Where a round stands.  Behind its first content it passes everything on as it is. -/
inductive RoundStands (separator : Option String) : Stance → Bool → Stance → Prop where
  | fresh {outer : Stance} :
      outer.Settled → (separator.isSome → outer.IsKnown) →
      RoundStands separator .unknown false outer
  | begun {stance : Stance} : stance.IsKnown → RoundStands separator stance true stance

theorem joinedTake_composing (separator : Option String) :
    Composing (σ := σ) crooked (Marked.joinedTake separator) (RoundStands separator) where
  straight between admits := by
    rename_i piece
    cases between with
    | begun known =>
      simp only [Marked.joinedTake]
      split
      all_goals
        refine .emit admits fun answer later takes => .finish ⟨later, takes, ?_⟩
        exact .begun (takes.isKnown known)
    | @fresh outer settled between =>
      cases newline : isNewline piece.text with
      | true =>
        obtain ⟨taken, text⟩ := Stance.takes_skip admits newline
        obtain ⟨possible, next⟩ := settled.takes_newline text newline
        simp only [Marked.joinedTake, newline, if_true]
        refine .emit possible fun answer later takes => ?_
        obtain ⟨rfl, settled, lasts⟩ := next answer later takes
        exact .finish ⟨_, taken, .fresh settled fun some => lasts (between some)⟩
      | false =>
        -- The first content follows the separator, if there is one, and tells where it stands.
        have content {outer : Stance} (settled : outer.Settled) :
            Composed crooked
              (fun next after => ∃ later, Stance.unknown.Takes piece next.2 later ∧
                RoundStands separator later next.1 after) outer
              (.emit piece fun atStart => .finish (true, atStart) : Marked σ (Bool × Bool)) := by
          obtain ⟨possible, same⟩ := settled.told admits newline
          refine .emit possible fun answer later takes => .finish ⟨later, same _ _ takes, ?_⟩
          exact .begun (takes.isKnown_of_not_newline newline)
        simp only [Marked.joinedTake, newline, Bool.false_eq_true, if_false]
        cases separator with
        | none => exact content settled
        | some text =>
          obtain ⟨possible, settles⟩ :=
            @Stance.Settled.takes _ settled (.bare .joint text) rfl rfl
          exact .emit possible fun answer later takes => content (settles answer later takes)
  bent allowed hasContent outer piece bent := by
    simp only [Marked.joinedTake, (Piece.crooked bent).2, if_true]
    exact .emitCrooked allowed bent

theorem Composed.joined {marked : Marked σ α}
    (composed : Composed crooked Settles .unknown marked) {separator : Option String}
    {outer : Stance} (settled : outer.Settled) (between : separator.isSome → outer.IsKnown) :
    Composed crooked SettlesContent outer (marked.joined separator false) := by
  refine composed.through (.joined separator) (joinedTake_composing separator) ?_
    (.fresh settled between)
  intro result stance hasContent outer settled between
  cases between with
  | fresh outside => exact ⟨outside, nofun⟩
  | begun known => exact ⟨settled, fun _ => known⟩

/-! ## Records and texts -/

theorem recordedTake_composing :
    Composing (σ := σ) crooked Marked.recordedTake fun stance _ outer => stance = outer where
  straight := by
    rintro stance _ _ piece rfl admits
    exact .emit admits fun answer later takes => .finish ⟨later, takes, rfl⟩
  bent allowed _ _ _ bent := .emitCrooked allowed bent

theorem Composed.recorded {results : α → Stance → Prop} {stance : Stance} {marked : Marked σ α}
    (composed : Composed crooked results stance marked) :
    Composed crooked (fun result later => results result.1 later) stance marked.recorded := by
  refine composed.through .recordedAfter recordedTake_composing ?_ rfl
  rintro result stance _ _ holds rfl
  exact holds

/-- What has been gathered is well indented, and nothing of it is put out. -/
structure GatheredStands (stance : Stance) (gathered : List Piece × Bool) (outer : Stance) :
    Prop where
  same : stance = .of gathered.1
  told : gathered.2 = stance.atStart
  straight : ∀ piece ∈ gathered.1, piece.IsStraight
  indented : WellIndented gathered.1
  settled : outer.Settled

theorem gatheredTake_composing :
    Composing (σ := σ) crooked Marked.gatheredTake GatheredStands where
  straight := by
    rintro _ ⟨stream, atStart⟩ outer piece ⟨same, told, straight, indented, settled⟩ admits
    dsimp only at same told straight indented
    subst same told
    obtain ⟨_, _, admitted⟩ := admits
    refine .poll fun _ => ?_
    cases empty : piece.text.isEmpty with
    | true =>
      obtain ⟨rfl, rfl⟩ := admitted.of_blank empty
      exact .finish ⟨_, admitted, rfl, rfl, straight, indented, settled⟩
    | false =>
      have plain : ∀ other ∈ stream ++ [piece], other.IsStraight :=
        List.forall_mem_append.2 ⟨straight, List.forall_mem_singleton.2 admitted.isStraight⟩
      obtain ⟨rfl, rfl, told, longer⟩ := admitted.of_concat empty indented
      exact .gathering plain longer (.finish ⟨_, admitted, rfl, told, plain, longer, settled⟩)
  bent allowed gathered _ piece bent := by
    simp only [Marked.gatheredTake, not_isEmpty_of_isNewline (Piece.crooked bent).2,
      Bool.false_eq_true, if_false]
    refine .poll fun _ => .gatheringCrooked allowed fun straight => bent (straight _ ?_)
    exact List.mem_concat_self ..

theorem Composes.gathered {body : Unit → Marked σ α} (composes : Composes crooked (body ())) :
    Composes crooked (Marked.gathered body) := by
  intro outer settled
  have empty : GatheredStands (.of []) ([], true) outer := ⟨rfl, rfl, nofun, .nil, settled⟩
  refine .poll fun _ => (composes (.of []) (.known true)).through .gatheredAfter
    gatheredTake_composing ?_ empty
  exact fun _ between => between.settled

end Stencil
