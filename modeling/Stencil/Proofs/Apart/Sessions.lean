import Stencil.Proofs.Apart.Scripts
import Stencil.Session

/-! # Renderings that take turns

In a session many renderings of one program take turns on one host.  As long as the callables
answer alike on all hosts that they can leave behind, and no token is set, each of them is reported
to do what it does alone: what the others have done in between is nothing to it, whether they render
the same document or another one.
-/

namespace Stencil

variable {σ : Type}

namespace Session

/-! ## Steps and reports -/

def Step.id? : Step σ → Option String
  | .start id _ _ | .pull id _ | .drain id | .join id | .drop id => some id
  | .text _ | .adjust _ => none

/-- Carries out a step.  One that speaks of a rendering that is not there has no report and changes
nothing. -/
def advance (session : Session σ) (step : Step σ) : Option Report × Session σ :=
  match session.perform step with
  | some (report, after) => (some report, after)
  | none => (none, session)

def after (session : Session σ) (steps : List (Step σ)) : Session σ :=
  steps.foldl (fun session step => (session.advance step).2) session

/-- All steps are carried out, and those that are about one rendering are reported. -/
def reportsOn (id : String) : Session σ → List (Step σ) → List (Option Report)
  | _, [] => []
  | session, step :: steps =>
    let later := (session.advance step).2.reportsOn id steps
    if step.id? = some id then (session.advance step).1 :: later else later

theorem reportsOn_about {id : String} {step : Step σ} (about : step.id? = some id)
    (session : Session σ) (steps : List (Step σ)) :
    session.reportsOn id (step :: steps) =
      (session.advance step).1 :: (session.advance step).2.reportsOn id steps :=
  if_pos about

theorem reportsOn_ne {id : String} {step : Step σ} (other : step.id? ≠ some id)
    (session : Session σ) (steps : List (Step σ)) :
    session.reportsOn id (step :: steps) = (session.advance step).2.reportsOn id steps :=
  if_neg other

/-! ## Renderings by name -/

theorem lookup_filter_ne {α : Type} {id other : String} (different : id ≠ other)
    (entries : List (String × α)) :
    (entries.filter (·.1 != other)).lookup id = entries.lookup id := by
  induction entries with
  | nil => rfl
  | cons entry entries ih =>
    obtain ⟨name, content⟩ := entry
    by_cases same : name = other
    · subst same
      have absent : (id == name) = false := beq_eq_false_iff_ne.2 different
      rw [List.filter_cons_of_neg (by simp), ih, List.lookup_cons, absent]
    · rw [List.filter_cons_of_pos (by simpa using same), List.lookup_cons, List.lookup_cons, ih]

theorem lookup_filter_self {α : Type} (id : String) (entries : List (String × α)) :
    (entries.filter (·.1 != id)).lookup id = none := by
  rw [List.lookup_eq_none_iff]
  intro entry member
  have different : entry.1 ≠ id := bne_iff_ne.1 (List.mem_filter.1 member).2
  simpa using different.symm

variable {session : Session σ} {id : String} {render : Render σ}

@[simp] theorem render?_put : (session.put id render).render? id = some render :=
  List.lookup_cons_self

@[simp] theorem render?_remove : (session.remove id).render? id = none :=
  lookup_filter_self id session.renders

theorem render?_put_ne {other : String} (different : id ≠ other) :
    (session.put other render).render? id = session.render? id := by
  have absent : (id == other) = false := beq_eq_false_iff_ne.2 different
  rw [render?, put, List.lookup_cons, absent]
  exact lookup_filter_ne different session.renders

theorem render?_remove_ne {other : String} (different : id ≠ other) :
    (session.remove other).render? id = session.render? id :=
  lookup_filter_ne different session.renders

/-! ## Calm sessions -/

variable {calm : σ → Prop}

/-- A step leaves a calm host calm by itself, and begins only renderings that no token ends. -/
def Step.Steady (calm : σ → Prop) : Step σ → Prop
  | .start _ _ options => options.limits.Blind (Host.BothCalm calm)
  | .adjust change => ∀ host, calm host → calm (change host)
  | .pull .. | .drain _ | .join _ | .text _ | .drop _ => True

/-- All renderings in progress answer alike on all calm hosts, of which the host is one. -/
structure Calm (calm : σ → Prop) (session : Session σ) : Prop where
  callables : ∀ occurrence ∈ session.program.occurrences,
    occurrence.expression.callable.Blind (Host.BothCalm calm)
  renders : ∀ entry ∈ session.renders, entry.2.Blind (Host.BothCalm calm)
  host : calm session.host

namespace Calm

theorem found (quiet : session.Calm calm) (there : session.render? id = some render) :
    render.Blind (Host.BothCalm calm) := by
  obtain ⟨before, after, split, -⟩ := List.lookup_eq_some_iff.1 there
  refine quiet.renders (id, render) ?_
  rw [split]
  exact List.mem_append_right _ (List.mem_cons_self ..)

theorem remove (quiet : session.Calm calm) (id : String) : (session.remove id).Calm calm :=
  { quiet with renders := fun entry member => quiet.renders entry (List.mem_filter.1 member).1 }

theorem put (quiet : session.Calm calm) (blind : render.Blind (Host.BothCalm calm)) :
    (session.put id render).Calm calm :=
  { quiet with renders := List.forall_mem_cons.2 ⟨blind, (quiet.remove id).renders⟩ }

theorem withHost (quiet : session.Calm calm) {host : σ} (still : calm host) :
    Calm calm { session with host } :=
  { quiet with host := still }

end Calm

/-- Asked for some answers on two calm hosts, a rendering gives the same ones. -/
theorem pullMany_equal (count : Nat) {one other : σ} (blind : render.Blind (Host.BothCalm calm))
    (same : Host.BothCalm calm one other) :
    (pullMany count render one).1 = (pullMany count render other).1 ∧
      (pullMany count render one).2.1 = (pullMany count render other).2.1 ∧
      (pullMany count render one).2.1.Blind (Host.BothCalm calm) ∧
      Host.BothCalm calm (pullMany count render one).2.2 (pullMany count render other).2.2 := by
  induction count generalizing render one other with
  | zero => exact ⟨rfl, rfl, blind, same⟩
  | succ count ih =>
    have next := Render.next_equal blind same
    obtain ⟨answers, left, remains, hosts⟩ := ih (Render.next_blind blind one) next.host
    -- What is left after an answer is one rendering, on hosts that are both calm.
    simp only [pullMany, ← next.calls, ← next.answer, ← next.render]
    exact ⟨congrArg (_ ++ _ :: ·) answers, left, remains, hosts⟩

/-- Every step leaves a session calm. -/
theorem Calm.advance (quiet : session.Calm calm) {step : Step σ} (steady : step.Steady calm) :
    (session.advance step).2.Calm calm := by
  -- That the host stays calm is known by comparing the rendering with itself.
  have alone : Host.BothCalm calm session.host session.host := ⟨quiet.host, quiet.host⟩
  cases step with
  | start id document options =>
    exact quiet.put (Program.render_blind quiet.callables steady document)
  | pull id count =>
    simp only [Session.advance, perform]
    cases found : session.render? id with
    | none => exact quiet
    | some render =>
      obtain ⟨-, -, remains, hosts⟩ := pullMany_equal count (quiet.found found) alone
      exact (quiet.put remains).withHost hosts.1
  | drain id =>
    simp only [Session.advance, perform]
    cases found : session.render? id with
    | none => exact quiet
    | some render =>
      have drained := Render.drain_equal (quiet.found found) alone
      have finished : (Render.finished : Render σ).Blind (Host.BothCalm calm) := True.intro
      exact (quiet.put finished).withHost drained.host.1
  | join id =>
    simp only [Session.advance, perform]
    cases found : session.render? id with
    | none => exact quiet
    | some render =>
      have drained := Render.drain_equal (quiet.found found) alone
      exact (quiet.remove id).withHost drained.host.1
  | text document =>
    have blind : (session.program.render document {}).Blind (Host.BothCalm calm) :=
      Program.render_blind quiet.callables (fun _ _ _ => rfl) document
    exact quiet.withHost (Render.drain_equal blind alone).host.1
  | drop id => exact quiet.remove id
  | adjust change => exact quiet.withHost (steady session.host quiet.host)

theorem Calm.after (quiet : session.Calm calm) {steps : List (Step σ)}
    (steady : ∀ step ∈ steps, step.Steady calm) : (session.after steps).Calm calm := by
  induction steps generalizing session with
  | nil => exact quiet
  | cons step steps ih =>
    obtain ⟨here, later⟩ := List.forall_mem_cons.1 steady
    exact ih (quiet.advance here) later

/-! ## What steps do to a rendering -/

theorem advance_program (session : Session σ) (step : Step σ) :
    (session.advance step).2.program = session.program := by
  cases step with
  | start | text | drop | adjust => rfl
  | pull id | drain id | join id =>
    simp only [advance, perform]
    cases session.render? id <;> rfl

theorem after_program (session : Session σ) (steps : List (Step σ)) :
    (session.after steps).program = session.program := by
  induction steps generalizing session with
  | nil => rfl
  | cons step steps ih => exact (ih _).trans (session.advance_program step)

/-- A step about something else leaves a rendering as it is. -/
theorem advance_ne {step : Step σ} (other : step.id? ≠ some id) :
    (session.advance step).2.render? id = session.render? id := by
  cases step with
  | text | adjust => rfl
  | start name document options => exact render?_put_ne fun same => other (congrArg some same.symm)
  | drop name => exact render?_remove_ne fun same => other (congrArg some same.symm)
  | pull name _ | drain name =>
    simp only [advance, perform]
    cases session.render? name with
    | none => rfl
    | some render => exact render?_put_ne fun same => other (congrArg some same.symm)
  | join name =>
    simp only [advance, perform]
    cases session.render? name with
    | none => rfl
    | some render => exact render?_remove_ne fun same => other (congrArg some same.symm)

/-- In both sessions the same program is rendered, and a rendering is where it is in the other. -/
structure Agree (id : String) (one other : Session σ) : Prop where
  program : one.program = other.program
  render : one.render? id = other.render? id

variable {one other : Session σ} {step : Step σ}

theorem Agree.advance_ne (agree : Agree id one other) (different : step.id? ≠ some id) :
    Agree id (one.advance step).2 other :=
  ⟨(one.advance_program step).trans agree.program,
    (Session.advance_ne different).trans agree.render⟩

theorem observeDrained_equal {here there : Drained σ}
    (same : here.EqualUpTo (Host.BothCalm calm) there) :
    observeDrained here = observeDrained there := by
  simp only [observeDrained, same.events, same.ending]

theorem reportText_equal {here there : Drained σ}
    (same : here.EqualUpTo (Host.BothCalm calm) there) : reportText here = reportText there := by
  simp only [reportText, Drained.calls, Drained.toText, Drained.chunks, same.events, same.ending]

/-- A rendering that begins does so alike, whatever there was before. -/
theorem start_alike (same : one.program = other.program) (document : DocId)
    (options : Render.Options σ) :
    (one.advance (.start id document options)).1 =
        (other.advance (.start id document options)).1 ∧
      (one.advance (.start id document options)).2.render? id =
        (other.advance (.start id document options)).2.render? id := by
  refine ⟨rfl, ?_⟩
  change (one.put id _).render? id = (other.put id _).render? id
  rw [render?_put, render?_put, same]

/-- A step about a rendering that is the same in both sessions is reported alike, and the rendering
is the same afterwards. -/
theorem Agree.alike (agree : Agree id one other) (here : one.Calm calm) (there : other.Calm calm)
    (about : step.id? = some id) :
    (one.advance step).1 = (other.advance step).1 ∧
      (one.advance step).2.render? id = (other.advance step).2.render? id := by
  obtain ⟨program, same⟩ := agree
  have hosts : Host.BothCalm calm one.host other.host := ⟨here.host, there.host⟩
  -- A step about this rendering finds the same left of it, on hosts that answer it alike.
  cases step with
  | text | adjust => cases about
  | start name document options =>
    cases about
    exact start_alike program document options
  | drop name =>
    cases about
    exact ⟨rfl, render?_remove.trans render?_remove.symm⟩
  | pull name count =>
    cases about
    simp only [Session.advance, perform, ← same]
    cases found : one.render? id with
    | none => exact ⟨rfl, same⟩
    | some render =>
      obtain ⟨answers, left, -⟩ := pullMany_equal count (here.found found) hosts
      refine ⟨congrArg (fun answers => some (Report.mk answers none)) answers, ?_⟩
      exact render?_put.trans ((congrArg some left).trans render?_put.symm)
  | drain name =>
    cases about
    simp only [Session.advance, perform, ← same]
    cases found : one.render? id with
    | none => exact ⟨rfl, same⟩
    | some render =>
      have drained := Render.drain_equal (here.found found) hosts
      refine ⟨congrArg (fun answers => some (Report.mk answers none)) ?_, ?_⟩
      · exact observeDrained_equal drained
      · exact render?_put.trans render?_put.symm
  | join name =>
    cases about
    simp only [Session.advance, perform, ← same]
    cases found : one.render? id with
    | none => exact ⟨rfl, same⟩
    | some render =>
      have drained := Render.drain_equal (here.found found) hosts
      exact ⟨congrArg some (reportText_equal drained), render?_remove.trans render?_remove.symm⟩

theorem Agree.advance (agree : Agree id one other) (here : one.Calm calm) (there : other.Calm calm)
    (about : step.id? = some id) : Agree id (one.advance step).2 (other.advance step).2 where
  program := by rw [advance_program, advance_program, agree.program]
  render := (agree.alike here there about).2

/-! ## Runs -/

/-- In a session that carries out only the steps about one rendering, they are reported as among
all the others, and the rendering comes to be the same. -/
theorem Agree.run (agree : Agree id one other) (here : one.Calm calm) (there : other.Calm calm)
    {steps : List (Step σ)} (steady : ∀ step ∈ steps, step.Steady calm) :
    one.reportsOn id steps = other.reportsOn id (steps.filter (·.id? = some id)) ∧
      Agree id (one.after steps) (other.after (steps.filter (·.id? = some id))) := by
  induction steps generalizing one other with
  | nil => exact ⟨rfl, agree⟩
  | cons step steps ih =>
    obtain ⟨now, later⟩ := List.forall_mem_cons.1 steady
    -- A step about anything else is carried out in the first of the sessions only.
    by_cases about : step.id? = some id
    · obtain ⟨reports, agrees⟩ :=
        ih (agree.advance here there about) (here.advance now) (there.advance now) later
      rw [List.filter_cons_of_pos (by simpa using about)]
      refine ⟨?_, agrees⟩
      rw [reportsOn_about about, reportsOn_about about, (agree.alike here there about).1, reports]
    · obtain ⟨reports, agrees⟩ := ih (agree.advance_ne about) (here.advance now) there later
      rw [List.filter_cons_of_neg (by simpa using about)]
      refine ⟨?_, agrees⟩
      rw [reportsOn_ne about, reports]

end Session

/-- Renderings that take turns do not influence each other.  Whatever has been done before a
rendering begins and whatever is done in between, with other renderings of the program or of the
same document, all steps about it are reported as in a session that begins with it and carries out
nothing else, and the rendering is left where it is left there.  A document that is rendered in one
step comes to what it comes to by itself. -/
theorem renderings_apart {calm : σ → Prop} {program : Program σ}
    (callables : ∀ occurrence ∈ program.occurrences,
      occurrence.expression.callable.Blind (Host.BothCalm calm))
    {before after : List (Session.Step σ)}
    (steady : ∀ step ∈ before ++ after, step.Steady calm) {options : Render.Options σ}
    (token : options.limits.Blind (Host.BothCalm calm)) {host other : σ} (here : calm host)
    (there : calm other) (id : String) (document : DocId) :
    let session := (Session.begin program host).after before
    let alone := Session.begin program other
    let own := after.filter (·.id? = some id)
    session.reportsOn id (.start id document options :: after) =
        alone.reportsOn id (.start id document options :: own) ∧
      (session.after (.start id document options :: after)).render? id =
        (alone.after (.start id document options :: own)).render? id ∧
      ∀ document, (session.advance (.text document)).1 =
        some (Session.reportText (program.renderToEnd document other)) := by
  have begun : ∀ host, calm host → (Session.begin program host).Calm calm :=
    fun host still => ⟨callables, nofun, still⟩
  obtain ⟨earlier, later⟩ := List.forall_mem_append.1 steady
  have quiet := (begun host here).after earlier
  have alone := begun other there
  have programs : ((Session.begin program host).after before).program = program :=
    Session.after_program _ before
  obtain ⟨report, same⟩ := @Session.start_alike σ id _ (Session.begin program other) programs
    document options
  have agree : Session.Agree id _ _ := ⟨programs, same⟩
  have starts : (Session.Step.start id document options).Steady calm := token
  obtain ⟨reports, agrees⟩ := agree.run (quiet.advance starts) (alone.advance starts) later
  refine ⟨?_, agrees.render, fun document => ?_⟩
  · rw [Session.reportsOn_about rfl, Session.reportsOn_about rfl, report, reports]
  · have blind : (program.render document {}).Blind (Host.BothCalm calm) :=
      Program.render_blind callables (fun _ _ _ => rfl) document
    have drained := Render.drain_equal blind ⟨quiet.host, there⟩
    refine congrArg some ?_
    rw [programs]
    exact Session.reportText_equal drained

/-- A script with one list, which neither counts nor cancels. -/
def turnsScript : Script :=
  ⟨false, [⟨"items", .array [.const (.text "x"), .const (.text "y")], []⟩], []⟩

/-- A document that supplies a loop as a section, and one that puts the section out twice. -/
def turnsTemplates : List Template.Document :=
  let line (node : Template.Node) : Template.Node := .line ⟨[node], false, "", none⟩
  [[line (.inclusion ⟨1⟩ []
      [⟨"part", [line (.loop "item" none ⟨"items", []⟩ none
        [line (.expression .normal ⟨"item", ["item"]⟩)] [])]⟩])],
    [line (.slot "part"), line (.slot "part")]]

def turnsProgram : Program Script.State where
  documents :=
    let line (routine : Program.Routine Script.State) : Program.Line Script.State :=
      ⟨[routine], none, none⟩
    let items : Program.Expression Script.State :=
      ⟨"items", [], [], (turnsScript.entries.headD ⟨"", .const .nothing, []⟩).callable⟩
    [[line (.inclusion ⟨1⟩ []
        [⟨"part", [line (.loop "item" none items none
          [line (.output (.read "item" ⟨0, 0⟩) false)] [])]⟩])],
      [line (.slot "part"), line (.slot "part")]]

def turnsOptions : Render.Options Script.State :=
  { maxIterations := some 2, isCancelled := some (·.isSet "stop") }

theorem turns_compiled :
    Program.compile turnsScript.interpretation turnsTemplates = .ok turnsProgram := by
  rfl

/-- Two renderings of one document, of which the second begins when the first one is in the middle
of the section, and which may both begin two rounds. -/
theorem turns_apart :
    Program.compile turnsScript.interpretation turnsTemplates = .ok turnsProgram ∧
      Script.State.NoneSet .start ∧ Script.State.NoneSet ⟨[("n", 3)], []⟩ ∧
      ((Session.begin turnsProgram .start).after
          [.start "a" ⟨0⟩ turnsOptions, .pull "a" 1]).reportsOn "b"
          [.start "b" ⟨0⟩ turnsOptions, .pull "b" 1, .pull "a" 2, .drain "a", .join "b"] =
        (Session.begin turnsProgram ⟨[("n", 3)], []⟩).reportsOn "b"
          [.start "b" ⟨0⟩ turnsOptions, .pull "b" 1, .join "b"] ∧
      ((Session.begin turnsProgram ⟨[("n", 3)], []⟩).reportsOn "b"
          [.start "b" ⟨0⟩ turnsOptions, .pull "b" 1, .join "b"]).map (·.bind (·.text)) =
        [none, none, some "yxy"] := by
  have plain : ∀ entry ∈ turnsScript.entries, entry.body.isPlain :=
    List.forall_mem_singleton.2 rfl
  have token : turnsOptions.limits.Blind (Host.BothCalm Script.State.NoneSet) :=
    @Script.token_blind turnsOptions (some "stop") rfl
  have steady : ∀ step ∈ [Session.Step.start "a" ⟨0⟩ turnsOptions, .pull "a" 1] ++
      [.pull "b" 1, .pull "a" 2, .drain "a", .join "b"],
      step.Steady Script.State.NoneSet := by
    simp [Session.Step.Steady, token]
  have calm : Script.State.NoneSet .start := fun _ => rfl
  have other : Script.State.NoneSet ⟨[("n", 3)], []⟩ := fun _ => rfl
  obtain ⟨reports, -⟩ := renderings_apart (Script.callables_blind plain turns_compiled _) steady
    token calm other "b" ⟨0⟩
  exact ⟨turns_compiled, calm, other, reports, by decide +kernel⟩

end Stencil
