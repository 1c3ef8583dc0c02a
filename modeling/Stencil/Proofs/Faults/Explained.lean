import Stencil.Proofs.Faults.Pauses

/-! # A compiled program goes wrong only by design

Whenever a rendering of a compiled program answers an error, the error has been returned by a
call, or a limit has been set that is exceeded, or there is just blame for it.  The blame is what
the rendering that lays blame comes to in the same run, so that it tells what was forwarded to
the document that was being rendered.
-/

namespace Stencil

open Program (Block)

variable {σ : Type}

/-- Why an error is raised at a moment, with the calls that are made for it. -/
inductive Explains (program : Program σ) (options : Render.Options σ) (document : DocId) :
    Moment σ (Except (Blame σ) Progress) → List Invocation → RenderError → Prop where
  /-- A callable has returned it. -/
  | returned {standing : Standing} {callable : Host.Callable σ} {invocation : Invocation}
      {resume : Value → Flow σ (Except (Blame σ) Progress)} {host after : σ}
      {error : RenderError} :
      (callable.run invocation.bindings).run host = (.error error, after) →
      Explains program options document ⟨standing, .call callable invocation resume, host⟩
        [invocation] error
  | cancelled {standing : Standing} {resume : Unit → Flow σ (Except (Blame σ) Progress)}
      {host : σ} {isCancelled : σ → Bool} :
      options.isCancelled = some isCancelled → isCancelled host →
      Explains program options document ⟨standing, .poll resume, host⟩ [] .cancelled
  | exceeded {standing : Standing} {resume : Unit → Flow σ (Except (Blame σ) Progress)}
      {host : σ} {limit : Nat} :
      options.maxIterations = some limit → limit < standing.iterations + 1 →
      Explains program options document ⟨standing, .round resume, host⟩ []
        (.tooManyIterations limit)
  | blamed {standing : Standing} {host : σ} {blame : Blame σ} :
      blame.Justified program options document →
      Explains program options document ⟨standing, .finish (.error blame), host⟩ []
        blame.fault.error

/-- What is known of the errors of all renderings of a document, on whatever hosts. -/
structure GoesWrongByDesign (program : Program σ) (options : Render.Options σ)
    (document : DocId) : Prop where
  /-- A document that the program does not have is reported by the first answer. -/
  unknown : program.size ≤ document.index → ∀ changes host present,
    ((program.render document options).left changes host).next present =
      .last (if changes.isEmpty then
          .error (if options.isCancelledAt present then .cancelled else .unknownDocument document)
        else .ended) present
  /-- Any other error has been raised in the course of the pull that answers it. -/
  explained : document.index < program.size → ∀ changes host present error,
    let pulled := ((program.render document options).left changes host).next present
    pulled.answer = .error error →
    ∃ block pause calls moment made after,
      program.document? document = some block ∧
        Pause.Passes options.limits
          ⟨.start, fun _ => (Blaming.documentFlow program options document block).run, host⟩
          changes pause ∧
        (pause.asked present).Reaches options.limits calls moment ∧
        Explains program options document moment made error ∧
        pulled = ⟨calls ++ made, .error error, .finished, after⟩
  /-- A binding without an expression fails whenever its name is not forwarded. -/
  unforwarded : ∀ setting (scope : Scope (SectionFlow σ)) progress name body,
    name ∉ scope.context.forwards.map (·.1) →
    Program.routineFlow setting scope progress (.binding name none body) =
      .fail (.unboundName name)
  /-- No section is asked for while it is being rendered. -/
  apart : ∀ meanwhile fuel host,
    let occasion : Eager.Occasion σ := ⟨program, options, meanwhile⟩
    (∀ number name, .reentry number name ∉ (occasion.walk fuel document host).2.ledger.deeds) ∧
      (occasion.nesting document ≤ fuel → occasion.Mirrors fuel document host)

/-! ## Errors -/

theorem limit_of_afterRound {limits : Limits σ} {standing : Standing} {error : RenderError}
    (refused : standing.afterRound limits = .error error) :
    ∃ limit, limits.maxIterations = some limit ∧ limit < standing.iterations + 1 ∧
      error = .tooManyIterations limit := by
  rw [Standing.afterRound] at refused
  cases limited : limits.maxIterations with
  | none => rw [limited] at refused; cases refused
  | some limit =>
    rw [limited] at refused
    by_cases exceeded : limit < standing.iterations + 1
    · simp only [exceeded, if_true, Except.error.injEq] at refused
      exact ⟨limit, rfl, exceeded, refused.symm⟩
    · simp only [exceeded, if_false, reduceCtorEq] at refused

theorem token_of_cancelled {options : Render.Options σ} {host : σ}
    (cancelled : options.isCancelledAt host) :
    ∃ isCancelled, options.isCancelled = some isCancelled ∧ isCancelled host := by
  rw [Render.Options.isCancelledAt] at cancelled
  cases token : options.isCancelled with
  | none => rw [token] at cancelled; cases cancelled
  | some isCancelled =>
    rw [token] at cancelled
    exact ⟨isCancelled, rfl, cancelled⟩

theorem explains_of_raises {program : Program σ} {options : Render.Options σ} {document : DocId}
    {standing : Standing} {flow : Flow σ (Except (Blame σ) Progress)} {host after : σ}
    {made : List Invocation} {error : RenderError}
    (raises : (Moment.mk standing (Blaming.settled flow) host).Raises options.limits made error
      after)
    (fair : Blaming.Fair (Blame.Justified program options document) (ExceptT.mk flow)) :
    Explains program options document ⟨standing, flow, host⟩ made error := by
  cases flow with
  | finish outcome =>
    cases outcome with
    | ok progress => cases raises
    | error blame =>
      cases raises
      exact .blamed fair
  | fail other => exact fair.elim
  | bottomless | emit => cases raises
  | call callable invocation resume =>
    cases raises with
    | call ran => exact .returned ran
  | round resume =>
    cases raises with
    | round refused =>
      obtain ⟨limit, limited, exceeded, rfl⟩ := limit_of_afterRound refused
      exact .exceeded limited exceeded
  | poll resume =>
    cases raises with
    | cancelled cancelled =>
      obtain ⟨isCancelled, token, now⟩ := token_of_cancelled cancelled
      exact .cancelled token now

theorem unknown_render {program : Program σ} {document : DocId}
    (unknown : program.size ≤ document.index) (options : Render.Options σ)
    (changes : List (σ → σ)) (host present : σ) :
    ((program.render document options).left changes host).next present =
      .last (if changes.isEmpty then
          .error (if options.isCancelledAt present then .cancelled else .unknownDocument document)
        else .ended) present := by
  have missing : program.document? document = none := List.getElem?_eq_none unknown
  have flow : program.flow options document = .fail (.unknownDocument document) := by
    rw [Program.flow, missing]
  have first : ∀ host, (program.render document options).next host =
      .last (.error (if options.isCancelledAt host then .cancelled else .unknownDocument document))
        host := by
    intro host
    rw [Program.render, Render.next, flow, Flow.pull]
    show (if options.isCancelledAt host then _ else _) = _
    split <;> rfl
  cases changes with
  | nil => exact first present
  | cons change changes =>
    rw [Render.left, first]
    exact congrArg (Render.next · present) (Pause.finished_left changes (change host))

theorem unforwarded_fails (setting : Setting σ) (scope : Scope (SectionFlow σ))
    (progress : Progress) (name : String) (body : Block σ)
    (missing : name ∉ scope.context.forwards.map (·.1)) :
    Program.routineFlow setting scope progress (.binding name none body) =
      .fail (.unboundName name) := by
  have absent : scope.context.forwarded? name = none := by
    refine List.lookup_eq_none_iff.2 fun entry member => ?_
    have different : name ≠ entry.1 := fun same => missing (same ▸ List.mem_map_of_mem member)
    simpa using different
  rw [Program.routineFlow, Program.boundValue, Context.forwarded, absent]
  rfl

/-- Every error of a document that is there is explained by the run that lays blame. -/
theorem Blaming.explained {program : Program σ} {options : Render.Options σ} {document : DocId}
    {block : Block σ} (found : program.document? document = some block)
    (fair : Fair (Blame.Justified program options document)
      (documentFlow program options document block))
    {changes : List (σ → σ)} {host present : σ} {error : RenderError}
    (answered : (((program.render document options).left changes host).next present).answer =
      .error error) :
    ∃ pause calls moment made after,
      Pause.Passes options.limits
          ⟨.start, fun _ => (documentFlow program options document block).run, host⟩
          changes pause ∧
        (pause.asked present).Reaches options.limits calls moment ∧
        Explains program options document moment made error ∧
        ((program.render document options).left changes host).next present =
          ⟨calls ++ made, .error error, .finished, after⟩ := by
  rw [Program.render, ← settled_documentFlow program options found] at answered ⊢
  cases left : (Render.suspended options.limits .start
      fun _ => settled (documentFlow program options document block)).left changes host with
  | finished =>
    rw [left] at answered
    cases answered
  | suspended limits standing rest =>
    rw [left] at answered
    obtain ⟨rfl, last, passes⟩ := Pause.passes_of_left left
    -- Up to this answer and also within the pull there is a run beside this one.
    obtain ⟨pause, same, ends, passed⟩ := passes_settled ⟨.start, _, host⟩ passes rfl fair
    cases same
    have arrives : (Moment.mk pause.standing (.poll fun go => settled (pause.rest go))
        present).Arrives options.limits ((Render.suspended options.limits pause.standing
          fun go => settled (pause.rest go)).next present) := Moment.pull_arrives _ _ _
    obtain ⟨calls, ⟨standing, flow, host⟩, made, after, reaches, raises, same⟩ :=
      arrives.raises answered
    have asked : Flow.Ends _ (.poll pause.rest) := fun _ => ends
    obtain ⟨beside, rfl, holds, reached⟩ := reaches_settled reaches asked
    exact ⟨pause, calls, _, made, after, passed, reached, explains_of_raises raises holds, same⟩

/-- A compiled program goes wrong only in the ways that are meant. -/
theorem compiled_errors_explained {interpretation : Host.Interpretation σ}
    {documents : List Template.Document} {program : Program σ}
    (compiled : Program.compile interpretation documents = .ok program)
    (options : Render.Options σ) (document : DocId) :
    program.size = documents.length ∧ GoesWrongByDesign program options document := by
  refine ⟨size_of_compile compiled, ⟨fun unknown => unknown_render unknown options, ?_,
    unforwarded_fails, ?_⟩⟩
  · intro inside changes host present error pulled answered
    obtain ⟨block, found⟩ : ∃ block, program.document? document = some block :=
      ⟨_, List.getElem?_eq_getElem inside⟩
    obtain ⟨pause, calls, moment, made, after, explained⟩ :=
      Blaming.explained found (Blaming.fair_documentFlow compiled found) answered
    exact ⟨block, pause, calls, moment, made, after, found, explained⟩
  · intro meanwhile fuel host occasion
    refine ⟨?_, fun enough => occasion.mirrors document host enough⟩
    exact (occasion.walk_orderly fuel document host).ordered.runsOnce.apart

/-- A fragment with one name reads it, and any other one is a text by itself. -/
def plainInterpretation : Host.Interpretation Unit
  | ⟨_, [name]⟩ => .ok (.read name)
  | ⟨source, _⟩ => .ok (.untyped source fun _ => pure (.text source))

/-- A document that forwards one name to another document, which takes two. -/
def forwardingTemplates : List Template.Document :=
  let line (node : Template.Node) : Template.Node := .line ⟨[node], false, "", none⟩
  let taken (name : String) : Template.Node :=
    .binding name none [line (.expression .normal ⟨name, [name]⟩)]
  [[line (.inclusion ⟨1⟩ [("title", ⟨"News", []⟩)] [])],
    [line (taken "title"), line (taken "body")]]

def forwardingProgram : Program Unit where
  documents :=
    let line (routine : Program.Routine Unit) : Program.Line Unit := ⟨[routine], none, none⟩
    let taken (name : String) : Program.Routine Unit :=
      .binding name none [line (.output (.read name ⟨0, 0⟩) false)]
    let title : Program.Expression Unit :=
      ⟨"News", [], [], .untyped "News" fun _ => pure (.text "News")⟩
    [[line (.inclusion ⟨1⟩ [("title", title)] [])], [line (taken "title"), line (taken "body")]]

theorem forwarding_errors_explained :
    let options : Render.Options Unit := { maxIncludeDepth := some 1 }
    Program.compile plainInterpretation forwardingTemplates = .ok forwardingProgram ∧
      ((forwardingProgram.render ⟨0⟩ options).pulls [id, id, id] ()).map Pulled.answer =
        [.chunk "News", .error (.unboundName "body"), .ended] ∧
      forwardingProgram.size = 2 ∧ GoesWrongByDesign forwardingProgram options ⟨0⟩ :=
  have compiled : Program.compile plainInterpretation forwardingTemplates =
    .ok forwardingProgram := rfl
  ⟨compiled, by decide +kernel, compiled_errors_explained compiled _ ⟨0⟩⟩

end Stencil
