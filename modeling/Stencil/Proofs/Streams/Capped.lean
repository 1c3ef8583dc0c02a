import Stencil.Proofs.Eager.Rendering
import Stencil.Proofs.Faults.Justified
import Stencil.Proofs.Faults.Settled
import Stencil.Proofs.Streams.Rounds

/-! # The limit of rounds

A rendering with a limit of rounds does what it does without one, until one more round is due than
the limit allows.  At that moment it fails, ahead of everything that the round would do.  All rounds
of all loops count, wherever they stand, and nothing else does.
-/

namespace Stencil

open Eager (Surroundings Occasion RunsOnce roundsAmong)
open Stencil.Flow
open Program (Block Expression)

variable {σ α : Type}

/-! ## Counting -/

def Flow.Step.isRound : Step σ → Bool
  | .round => true
  | .chunk .. | .call .. | .poll => false

def Flow.roundsIn (steps : List (Step σ)) : Nat :=
  steps.countP Step.isRound

theorem Flow.roundsIn_round (steps : List (Step σ)) :
    roundsIn (.round :: steps) = roundsIn steps + 1 :=
  List.countP_cons_of_pos rfl

theorem Flow.roundsIn_cons {step : Step σ} (still : step.isRound = false)
    (steps : List (Step σ)) : roundsIn (step :: steps) = roundsIn steps :=
  List.countP_cons_of_neg (by rw [still]; exact Bool.false_ne_true)

theorem Flow.roundsIn_append (steps others : List (Step σ)) :
    roundsIn (steps ++ others) = roundsIn steps + roundsIn others :=
  List.countP_append ..

/-- Rounds may begin without limit. -/
def Eager.Surroundings.uncapped (around : Surroundings σ) : Surroundings σ :=
  { around with maxIterations := none }

/-- The first course is the second one if no more rounds begin in it than a limit allows.
Otherwise it ends directly ahead of the first round that is one too many. -/
inductive Course.CappedAt (limit begun : Nat) : Course σ α → Course σ α → Prop where
  | whole {course : Course σ α} :
      begun + roundsIn course.steps ≤ limit → CappedAt limit begun course course
  | cut {steps rest : List (Step σ)} {outcome : Outcome α} {here there : σ} :
      begun + roundsIn steps = limit →
      CappedAt limit begun ⟨steps, .interrupted (.tooManyIterations limit), here⟩
        ⟨steps ++ .round :: rest, outcome, there⟩

namespace Course.CappedAt

variable {limit begun : Nat} {one other : Course σ α}

theorem last (within : begun ≤ limit) (outcome : Outcome α) (host : σ) :
    CappedAt limit begun (Course.last outcome host) (.last outcome host) :=
  .whole within

theorem after {step : Step σ} (still : step.isRound = false)
    (rest : CappedAt limit begun one other) :
    CappedAt limit begun (one.after step) (other.after step) := by
  cases rest with
  | whole within => exact .whole (by rwa [Course.after, roundsIn_cons still])
  | @cut steps rest _ _ _ reached =>
    refine @cut _ _ _ _ (step :: steps) rest _ _ _ ?_
    rwa [roundsIn_cons still]

theorem afterRound (rest : CappedAt limit (begun + 1) one other) :
    CappedAt limit begun (one.after .round) (other.after .round) := by
  cases rest with
  | whole within =>
    refine .whole ?_
    rw [Course.after, roundsIn_round]
    omega
  | @cut steps rest _ _ _ reached =>
    refine @cut _ _ _ _ (.round :: steps) rest _ _ _ ?_
    rw [roundsIn_round]
    omega

theorem polled {cancelled : Prop} [Decidable cancelled] (within : begun ≤ limit) {host : σ}
    (rest : CappedAt limit begun one other) :
    CappedAt limit begun
      (if cancelled then .last (.interrupted .cancelled) host else one)
      (if cancelled then .last (.interrupted .cancelled) host else other) := by
  split
  · exact .last within _ host
  · exact rest

theorem bounded (capped : CappedAt limit begun one other) :
    begun + roundsIn one.steps ≤ limit := by
  cases capped with
  | whole within => exact within
  | cut reached => exact reached.le

theorem unreached (capped : CappedAt limit begun one other)
    (within : begun + roundsIn other.steps ≤ limit) : one = other := by
  cases capped with
  | whole => rfl
  | cut reached =>
    dsimp only at within
    rw [roundsIn_append, roundsIn_round] at within
    omega

theorem reached (capped : CappedAt limit begun one other)
    (exceeded : limit < begun + roundsIn other.steps) :
    begun + roundsIn one.steps = limit ∧
      one.outcome = .interrupted (.tooManyIterations limit) ∧
      ∃ rest, other.steps = one.steps ++ .round :: rest := by
  cases capped with
  | whole within => omega
  | cut reached => exact ⟨reached, rfl, _, rfl⟩

end Course.CappedAt

/-- A flow under a limit is followed as far as the limit allows. -/
theorem Flow.course_capped {around : Surroundings σ} {limit : Nat}
    (limited : around.maxIterations = some limit) (flow : Flow σ α) (answered : Nat)
    (standing : Standing) (within : standing.iterations ≤ limit) (host : σ) :
    Course.CappedAt limit standing.iterations (flow.course around answered standing host)
      (flow.course around.uncapped answered standing host) := by
  induction flow generalizing answered standing host with
  | finish | fail | bottomless => exact .last within _ host
  | emit chunk resume ih =>
    have same := standing.iterations_afterChunk chunk
    have later answered host :=
      ih (standing.afterChunk chunk).atStart answered (standing.afterChunk chunk)
        (by rwa [same]) host
    rw [same] at later
    refine .after rfl ?_
    split
    · exact .polled within (later _ _)
    · exact .polled within (later _ _)
  | call callable invocation resume ih =>
    simp only [course]
    rcases (callable.run invocation.bindings).run host with ⟨outcome, host⟩
    cases outcome with
    | ok value => exact .after rfl (ih value _ _ within _)
    | error error => exact .after rfl (.last within _ _)
  | round resume ih =>
    simp only [course, Standing.afterRound, limited]
    by_cases exceeded : limit < standing.iterations + 1
    · simp only [exceeded, if_true]
      refine @Course.CappedAt.cut _ _ _ _ [] _ _ _ _ ?_
      show standing.iterations + 0 = limit
      omega
    · simp only [exceeded, if_false]
      exact .afterRound (ih () _ { standing with iterations := standing.iterations + 1 }
        (by show standing.iterations + 1 ≤ limit; omega) _)
  | poll resume ih =>
    simp only [course]
    exact .polled within (.after rfl (ih () _ _ within _))

/-! ## Rounds that are walked -/

theorem Standing.iterations_afterRound {limits : Limits σ} {standing later : Standing}
    (begun : standing.afterRound limits = .ok later) :
    later.iterations = standing.iterations + 1 := by
  rw [Standing.afterRound] at begun
  split at begun
  · split at begun
    · cases begun
    · cases begun
      rfl
  · cases begun
    rfl

/-- When a flow is pushed to the output, as many rounds are counted as begin in its course. -/
theorem Flow.pushed_rounds (around : Surroundings σ) (flow : Flow σ α) (output : Eager.Output σ)
    (outside : output.front.gathered = none) :
    (flow.pushed around [] output).2.iterations =
      output.iterations +
        roundsIn (flow.course around output.answered output.standing output.host).steps := by
  induction flow generalizing output with
  | finish | fail | bottomless => rfl
  | emit chunk resume ih =>
    by_cases empty : chunk.isEmpty
    · have same : output.standing.afterChunk chunk = output.standing := by
        simp [Standing.afterChunk, empty]
      rw [pushed_emit_empty _ empty, course, same, if_pos empty]
      split
      · rfl
      · exact ih _ output outside
    -- With nothing being gathered, any other chunk is an answer, behind which the host is asked.
    · have stands : output.standing.afterChunk chunk =
          (output.answer around chunk).standing := by
        simp [Standing.afterChunk, empty, Eager.Output.standing, Eager.Output.answer]
      have rest := ih (output.answer around chunk).standing.atStart (output.answer around chunk)
        outside
      rw [pushed_emit_answer _ empty _ outside, course, stands, if_neg empty]
      change _ = output.iterations + roundsIn (Course.after _ (if around.isCancelled
        (output.answer around chunk).host then _ else _)).steps
      by_cases cancelled : around.isCancelled (output.answer around chunk).host
      · rw [if_pos cancelled, if_pos cancelled]
        rfl
      · rw [if_neg cancelled, if_neg cancelled]
        exact rest
  | call callable invocation resume ih =>
    rw [pushed, Eager.callHost_bind, course]
    rcases (callable.run invocation.bindings).run output.host with ⟨outcome, host⟩
    cases outcome with
    | ok value => exact ih value (output.called invocation host) outside
    | error error => rfl
  | round resume ih =>
    rw [pushed, Eager.countRound_bind, course]
    cases begun : output.standing.afterRound around.toLimits with
    | error error => rfl
    | ok standing =>
      have rest := ih () { output with iterations := standing.iterations } outside
      rw [Eager.Output.standing_afterRound begun] at rest
      refine rest.trans ?_
      simp only [Course.after, roundsIn_round, Standing.iterations_afterRound begun]
      exact Nat.add_right_comm ..
  | poll resume ih =>
    rw [pushed, Eager.poll_bind, course]
    split
    · rfl
    · exact ih () output outside

/-! ## Errors -/

/-- If the course ends with an error then it has been cancelled, or a call has returned the error,
or the flow has such errors of its own. -/
def Course.FailsBy (own : RenderError → Prop) (course : Course σ α) : Prop :=
  ∀ error, course.outcome.ending = .failed error → error = .cancelled ∨ own error ∨
    ∃ callable invocation, .call callable invocation (.error error) ∈ course.steps

namespace Course.FailsBy

variable {own : RenderError → Prop} {course : Course σ α}

theorem after (fails : course.FailsBy own) (step : Step σ) : (course.after step).FailsBy own := by
  intro error ended
  obtain cancelled | here | ⟨callable, invocation, member⟩ := fails error ended
  · exact .inl cancelled
  · exact .inr (.inl here)
  · exact .inr (.inr ⟨callable, invocation, List.mem_cons_of_mem _ member⟩)

theorem polled {cancelled : Prop} [Decidable cancelled] (fails : course.FailsBy own) (host : σ) :
    (if cancelled then .last (.interrupted .cancelled) host else course).FailsBy own := by
  split
  · rintro error ⟨⟩
    exact .inl rfl
  · exact fails

end Course.FailsBy

/-- Without a limit of rounds, a rendering that lays blame fails by that, by a call or because it is
cancelled. -/
theorem Blaming.course_fails {around : Surroundings σ} {just : Blame σ → Prop}
    {flow : Flow σ (Except (Blame σ) α)} (fair : Fair just (ExceptT.mk flow)) (answered : Nat)
    (standing : Standing) (host : σ) :
    ((settled (ExceptT.mk flow)).course around.uncapped answered standing host).FailsBy
      fun error => ∃ blame, just blame ∧ blame.fault.error = error := by
  induction flow generalizing answered standing host with
  | finish result =>
    cases result with
    | ok result => exact nofun
    | error blame =>
      rintro error ⟨⟩
      exact .inr (.inl ⟨blame, fair, rfl⟩)
  | fail error => exact fair.elim
  | bottomless => exact nofun
  | emit chunk resume ih =>
    have later atStart answered standing host := ih atStart (fair atStart) answered standing host
    refine .after ?_ _
    split
    · exact .polled (later _ _ _ _) _
    · exact .polled (later _ _ _ _) _
  | call callable invocation resume ih =>
    change (Flow.course around.uncapped answered standing
      (.call callable invocation fun value => settled (ExceptT.mk (resume value))) host).FailsBy _
    simp only [course]
    rcases (callable.run invocation.bindings).run host with ⟨outcome, host⟩
    cases outcome with
    | ok value => exact (ih value (fair.2 value) _ _ _).after _
    | error error =>
      rintro _ ⟨⟩
      exact .inr (.inr ⟨callable, invocation, List.mem_cons_self ..⟩)
  | round resume ih => exact (ih () (fair ()) _ _ _).after _
  | poll resume ih => exact .polled ((ih () (fair ()) _ _ _).after _) _

theorem Fault.Of.kind {options : Render.Options σ} {forwarded : List String}
    {routine : Program.Routine σ} {fault : Fault σ} (of : fault.Of options forwarded routine) :
    fault.error.kind ≠ .resourceLimit := by
  cases of with
  | @refused _ _ _ parameter value error _ _ _ refused =>
    rw [Host.Parameter.check] at refused
    split at refused
    · split at refused
      · cases refused
      · cases refused
        exact nofun
    · cases refused
  | unforwarded | notList | tooDeep => exact nofun

/-! ## Loops -/

theorem Flow.Led.roundsIn {lead : Option String} {steps led : List (Step σ)}
    (woven : Led lead steps led) : Flow.roundsIn led = Flow.roundsIn steps := by
  induction woven with
  | bare | nil => rfl
  | @skip lead step steps led _ _ ih =>
    show List.countP _ (step :: led) = List.countP _ (step :: steps)
    rw [List.countP_cons, List.countP_cons]
    exact congrArg (· + _) ih
  | ahead atStart _ => exact roundsIn_cons rfl _

theorem Flow.Woven.roundsIn {earlier : Bool}
    {turns : List ((Bool → Option String) × List (Step σ))} {steps : List (Step σ)}
    (joins : Woven earlier turns steps) :
    Flow.roundsIn steps = (turns.map fun turn => Flow.roundsIn turn.2).sum := by
  induction joins with
  | nil => rfl
  | cons led _ ih => rw [roundsIn_append, led.roundsIn, ih, List.map_cons, List.sum_cons]

/-- A loop has one round for each element that it comes to, and the rounds within these.  A loop
over nothing has the rounds of its fallback alone. -/
structure CountsRounds (setting : Setting σ) (scope : Scope (SectionFlow σ)) (progress : Progress)
    (item : String) (index : Option String) (body fallback : Block σ) (elements : List Value)
    (steps : List (Step σ)) (outcome : Outcome Progress) : Prop where
  nothing : elements = [] →
    (Program.blockFlow setting scope false progress fallback).Runs steps outcome
  something : elements ≠ [] → ∃ turns,
    RunsInTurn (Program.roundFlows setting scope item index body elements) progress turns outcome ∧
      roundsIn steps = (turns.map roundsIn).sum

/-! ## Renderings -/

theorem Program.entrance_uncapped (program : Program σ) (options : Render.Options σ)
    (levels : Nat) :
    program.entrance { options with maxIterations := none } levels =
      program.entrance options levels := by
  induction levels with
  | zero => rfl
  | succ levels ih =>
    funext target
    rw [entrance, entrance, ih]

theorem Program.flow_uncapped (program : Program σ) (options : Render.Options σ)
    (document : DocId) :
    program.flow { options with maxIterations := none } document =
      program.flow options document := by
  rw [flow, flow, setting, setting, entrance_uncapped]

namespace Eager.Occasion

/-- Rounds may begin without limit. -/
def uncapped (occasion : Occasion σ) : Occasion σ :=
  { occasion with options := { occasion.options with maxIterations := none } }

def course (occasion : Occasion σ) (document : DocId) (host : σ) : Course σ Progress :=
  (Flow.poll fun _ => occasion.program.flow occasion.options document).course occasion.around 0
    .start host

variable (occasion : Occasion σ) (document : DocId) (host : σ)

theorem course_account :
    (occasion.course document host).account = occasion.account document host :=
  Flow.course_account ..

theorem uncapped_course :
    occasion.uncapped.course document host =
      (Flow.poll fun _ => occasion.program.flow occasion.options document).course
        occasion.around.uncapped 0 .start host := by
  rw [course, uncapped, Program.flow_uncapped]
  rfl

theorem course_capped {limit : Nat} (limited : occasion.options.maxIterations = some limit) :
    Course.CappedAt limit 0 (occasion.course document host)
      (occasion.uncapped.course document host) := by
  rw [uncapped_course]
  exact Flow.course_capped limited _ 0 .start (Nat.zero_le limit) host

/-- The walk over a document begins the rounds that begin in the course. -/
theorem walk_rounds {fuel : Nat} (enough : occasion.nesting document ≤ fuel) :
    roundsAmong (occasion.walk fuel document host).2.ledger.deeds =
      roundsIn (occasion.course document host).steps := by
  rw [← (occasion.walk_logged fuel document host).2,
    ← (occasion.walk_pushed document host enough).2.1, Flow.pushed_rounds _ _ _ rfl]
  exact Nat.zero_add _

/-- No error in a rendering of a compiled program has to do with resources, unless a call has
returned it. -/
theorem uncapped_fails {interpretation : Host.Interpretation σ}
    {documents : List Template.Document}
    (compiled : Program.compile interpretation documents = .ok occasion.program) :
    (occasion.uncapped.course document host).FailsBy fun error => error.kind ≠ .resourceLimit := by
  rw [uncapped_course]
  refine .polled (.after ?_ _) _
  cases found : occasion.program.document? document with
  | none =>
    rw [Program.flow, found]
    rintro _ ⟨⟩
    exact .inr (.inl fun same => by cases same)
  | some block =>
    rw [← Blaming.settled_documentFlow occasion.program occasion.options found]
    intro error ended
    obtain cancelled | ⟨blame, justified, rfl⟩ | called := Blaming.course_fails
      (Blaming.fair_documentFlow compiled found) 0 .start host error ended
    · exact .inl cancelled
    · exact .inr (.inl justified.fault.kind)
    · exact .inr (.inr called)

/-- What a limit does to a rendering. -/
structure Capped (limit : Nat) : Prop where
  /-- Never do more rounds begin. -/
  bounded : roundsIn (occasion.course document host).steps ≤ limit
  /-- If no more rounds are due then the limit does nothing. -/
  unreached : roundsIn (occasion.uncapped.course document host).steps ≤ limit →
    occasion.course document host = occasion.uncapped.course document host
  /-- Otherwise all rounds begin that may, and the rendering ends with an error directly ahead of
  the next one. -/
  reached : limit < roundsIn (occasion.uncapped.course document host).steps →
    roundsIn (occasion.course document host).steps = limit ∧
      (occasion.course document host).outcome = .interrupted (.tooManyIterations limit) ∧
      ∃ rest, (occasion.uncapped.course document host).steps =
        (occasion.course document host).steps ++ .round :: rest
  /-- There is no such error for another reason, unless a callable makes it up. -/
  raised : ∀ error, (occasion.course document host).outcome.ending = .failed error →
    error.kind = .resourceLimit →
      (limit < roundsIn (occasion.uncapped.course document host).steps ∧
        error = .tooManyIterations limit) ∨
      ∃ callable invocation,
        .call callable invocation (.error error) ∈ (occasion.course document host).steps
  /-- The rounds are those of the walk over the document, wherever it leads: each section is walked
  for the first slot only, and nothing is walked when its chunks are put out again. -/
  walked : ∀ fuel, occasion.nesting document ≤ fuel →
    roundsAmong (occasion.walk fuel document host).2.ledger.deeds =
        roundsIn (occasion.course document host).steps ∧
      RunsOnce (occasion.walk fuel document host).2.ledger.deeds ∧
      occasion.Mirrors fuel document host
  /-- The course is what is rendered. -/
  rendered : occasion.Tells document host (occasion.course document host).account

end Eager.Occasion

/-- A limit of rounds is exact over a whole rendering, whatever the rounds belong to. -/
theorem rounds_capped {interpretation : Host.Interpretation σ}
    {documents : List Template.Document} {occasion : Occasion σ}
    (compiled : Program.compile interpretation documents = .ok occasion.program) {limit : Nat}
    (limited : occasion.options.maxIterations = some limit) (document : DocId) (host : σ) :
    occasion.Capped document host limit ∧
      ∀ {setting : Setting σ} {scope progress item index iterable separator body fallback
          invocation value elements steps outcome},
        (Program.routineFlow setting scope progress
          (.loop item index iterable separator body fallback)).Runs
            (.call iterable.callable invocation (.ok value) :: steps) outcome →
        value.items? = some elements →
        CountsRounds setting scope progress item index body fallback elements steps outcome := by
  have capped := occasion.course_capped document host limited
  refine ⟨⟨?_, fun within => capped.unreached ?_, fun exceeded => ?_,
    fun error ended resource => ?_,
    fun fuel enough => ⟨occasion.walk_rounds document host enough, ?_, ?_⟩, ?_⟩,
    fun runs items => ⟨fun nothing => (runs.of_loop items).1 nothing, fun something => ?_⟩⟩
  · simpa only [Nat.zero_add] using capped.bounded
  · rwa [Nat.zero_add]
  · simpa only [Nat.zero_add] using capped.reached (by rwa [Nat.zero_add])
  · by_cases exceeded : limit < roundsIn (occasion.uncapped.course document host).steps
    · obtain ⟨-, interrupted, -⟩ := capped.reached (by rwa [Nat.zero_add])
      rw [interrupted] at ended
      cases ended
      exact .inl ⟨exceeded, rfl⟩
    · have same := capped.unreached (by rw [Nat.zero_add]; exact Nat.le_of_not_lt exceeded)
      rw [same] at ended ⊢
      obtain rfl | other | called := occasion.uncapped_fails document host compiled error ended
      · cases resource
      · exact absurd resource other
      · exact .inr called
  · exact (occasion.walk_orderly fuel document host).ordered.runsOnce
  · exact occasion.mirrors document host enough
  · rw [occasion.course_account]
    exact occasion.account_tells document host
  · obtain ⟨turns, inTurn, joins⟩ := (runs.of_loop items).2 something
    refine ⟨turns, inTurn, joins.roundsIn.trans ?_⟩
    rw [separated, List.map_map]
    rfl

/-- Every fragment is a list of two texts. -/
def pairInterpretation : Host.Interpretation Unit :=
  fun fragment => .ok (.untyped fragment.source fun _ => pure (.list [.text "a", .text "b"]))

/-- A section of two loops within each other, and a layout that has the section twice and a loop of
its own. -/
def pairTemplates : List Template.Document :=
  let line (node : Template.Node) : Template.Node := .line ⟨[node], false, "", none⟩
  let loop (body : Template.Node) : Template.Node :=
    line (.loop "x" none ⟨"pair", []⟩ none [body] [])
  [[line (.inclusion ⟨1⟩ [] [⟨"body", [loop (loop (line (.literal "in")))]⟩])],
    [line (.slot "body"), line (.slot "body"), loop (line (.literal "out"))]]

def pairProgram : Program Unit where
  documents :=
    let line (routine : Program.Routine Unit) : Program.Line Unit := ⟨[routine], none, none⟩
    let pair : Expression Unit :=
      ⟨"pair", [], [], .untyped "pair" fun _ => pure (.list [.text "a", .text "b"])⟩
    let loop (body : Program.Line Unit) : Program.Line Unit :=
      line (.loop "x" none pair none [body] [])
    [[line (.inclusion ⟨1⟩ [] [⟨"body", [loop (loop (line (.literal "in")))]⟩])],
      [line (.slot "body"), line (.slot "body"), loop (line (.literal "out"))]]

def pairOccasion : Occasion Unit :=
  ⟨pairProgram, { maxIterations := some 7 }, fun _ host => host⟩

/-- The section begins six rounds, however often it is put out. -/
theorem rounds_of_pairs_capped :
    Program.compile pairInterpretation pairTemplates = .ok pairOccasion.program ∧
      pairOccasion.options.maxIterations = some 7 ∧
      roundsIn (pairOccasion.uncapped.course ⟨0⟩ ()).steps = 8 ∧
      shown (chunksOf (pairOccasion.course ⟨0⟩ ()).steps) =
        List.replicate 8 "in" ++ ["out"] ∧
      pairOccasion.Capped ⟨0⟩ () 7 :=
  have compiled : Program.compile pairInterpretation pairTemplates = .ok pairOccasion.program := rfl
  ⟨compiled, rfl, by decide +kernel, by decide +kernel, (rounds_capped compiled rfl ⟨0⟩ ()).1⟩

end Stencil
