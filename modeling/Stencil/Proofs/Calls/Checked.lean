import Stencil.Host.Stock
import Stencil.Proofs.Calls.Made
import Stencil.Proofs.Lexical.Soundness

/-! # Callables are entered with what their signatures ask for

Before a callable is entered, its bindings are held against its signature.  A compiled expression
has each parameter at the place at which the fragment first declares its name, and there it finds
the value that the callable finds by name, also if the fragment declares the name more than once.
So every parameter has a value, and either all of them fit or the first that does not is what is
answered.  A callable that takes typed contents from its bindings never misses one.
-/

namespace Stencil

open Host (Bindings Callable Interpretation Parameter Telescope TypedFunction ValueType)
open Program (Expression)

variable {σ β : Type}

/-! ## Parameters -/

/-- The value may be handed over: it has the type of the parameter, no type is asked for, or it is
`nothing` and the parameter is not required. -/
inductive Host.Parameter.Fits : Parameter → Value → Prop where
  | typed {parameter : Parameter} {type : ValueType} {value : Value} :
      parameter.type = some type → type.admits value → Fits parameter value
  | untyped {parameter : Parameter} {value : Value} : parameter.type = none → Fits parameter value
  | optional {parameter : Parameter} : parameter.required = false → Fits parameter .nothing

theorem Host.Parameter.fits_iff_accepts {parameter : Parameter} {value : Value} :
    parameter.Fits value ↔ parameter.accepts value := by
  obtain ⟨name, type, required⟩ := parameter
  constructor
  · rintro (⟨typed, admitted⟩ | typed | optional)
    · cases typed
      cases required <;> cases value <;> first | rfl | exact admitted
    · cases typed
      cases required <;> cases value <;> rfl
    · cases optional
      rfl
  · intro accepted
    cases type with
    | none => exact .untyped rfl
    | some type =>
      cases required with
      | true => exact .typed rfl (by cases value <;> exact accepted)
      | false =>
        cases value with
        | nothing => exact .optional rfl
        | text | number | bool | list => exact .typed rfl accepted

/-- A check passes a value that fits, and names the type of any other. -/
theorem Host.Parameter.check_cases (parameter : Parameter) (value : Value) :
    (parameter.Fits value ∧ parameter.check value = .ok ()) ∨
      ∃ type, parameter.type = some type ∧ ¬parameter.Fits value ∧
        parameter.check value =
          .error (.parameterType parameter.name type.name value.typeName) := by
  rw [Parameter.check, fits_iff_accepts]
  cases typed : parameter.type with
  | none => exact .inl ⟨fits_iff_accepts.1 (.untyped typed), rfl⟩
  | some type =>
    by_cases accepted : parameter.accepts value
    · exact .inl ⟨accepted, if_pos accepted⟩
    · exact .inr ⟨type, rfl, accepted, if_neg accepted⟩

namespace Host.Bindings

variable {bindings : Bindings} {parameters : List Parameter}

def Fit (bindings : Bindings) (parameters : List Parameter) : Prop :=
  ∀ parameter ∈ parameters, ∃ value,
    bindings.get parameter.name = .ok value ∧ parameter.Fits value

/-- The first parameter that is bound to a value that does not fit, with its type. -/
structure FirstUnfit (bindings : Bindings) (parameters : List Parameter) (parameter : Parameter)
    (type : ValueType) (value : Value) : Prop where
  first : ∃ before after, parameters = before ++ parameter :: after ∧ bindings.Fit before
  typed : parameter.type = some type
  bound : bindings.get parameter.name = .ok value
  unfit : ¬parameter.Fits value

theorem get_eq_ok {name : String} {value : Value} :
    bindings.get name = .ok value ↔ bindings.find? name = some value := by
  rw [get]
  cases bindings.find? name with
  | none => exact ⟨nofun, nofun⟩
  | some other =>
    constructor
    · exact fun same => congrArg some (Except.ok.inj same)
    · exact fun same => congrArg Except.ok (Option.some.inj same)

/-- All parameters are checked in order: either they fit, or the first that does not is named. -/
theorem forM_checkNamed
    (bound : ∀ parameter ∈ parameters, ∃ value, bindings.get parameter.name = .ok value) :
    (bindings.Fit parameters ∧
        parameters.forM (Lexical.checkNamed bindings) = .ok ()) ∨
      ∃ parameter type value, bindings.FirstUnfit parameters parameter type value ∧
        parameters.forM (Lexical.checkNamed bindings) =
          .error (.parameterType parameter.name type.name value.typeName) := by
  induction parameters with
  | nil => exact .inl ⟨nofun, rfl⟩
  | cons parameter parameters ih =>
    obtain ⟨⟨value, found⟩, others⟩ := List.forall_mem_cons.1 bound
    have here : Lexical.checkNamed bindings parameter = parameter.check value := by
      rw [Lexical.checkNamed, get_eq_ok.1 found]
    rw [except_forM_cons, here]
    -- Only if this one fits, those behind it are looked at.
    obtain ⟨fits, passed⟩ | ⟨type, typed, unfit, refused⟩ := parameter.check_cases value
    · rw [passed]
      obtain ⟨fit, checked⟩ | ⟨later, type, other, unfit, refused⟩ := ih others
      · exact .inl ⟨List.forall_mem_cons.2 ⟨⟨value, found, fits⟩, fit⟩, checked⟩
      · obtain ⟨before, after, rfl, fit⟩ := unfit.first
        have fit : bindings.Fit (parameter :: before) :=
          List.forall_mem_cons.2 ⟨⟨value, found, fits⟩, fit⟩
        exact .inr ⟨later, type, other, { unfit with first := ⟨_, after, rfl, fit⟩ }, refused⟩
    · rw [refused]
      exact .inr ⟨parameter, type, value, ⟨⟨[], parameters, rfl, nofun⟩, typed, found, unfit⟩, rfl⟩

end Host.Bindings

/-! ## Typed contents -/

/-- A function of typed contents comes to a result on the contents that some bindings have for its
parameters, none of which is missing. -/
inductive Host.Telescope.Taken (bindings : Bindings) :
    (telescope : Telescope) → telescope.Function → Except RenderError Value → Prop where
  | done {result : Except RenderError Value} : Taken bindings [] result result
  | taken {name : String} {type : ValueType} {rest : Telescope}
      {function : Telescope.Function ((name, type) :: rest)} {result : Except RenderError Value}
      {value : Value} {content : type.Content} :
      bindings.get name = .ok value → type.extract? value = some content →
      Taken bindings rest (function content) result →
      Taken bindings ((name, type) :: rest) function result

def Host.Telescope.parameters (telescope : Telescope) : List Parameter :=
  telescope.map fun (name, type) => ⟨name, some type, true⟩

theorem Host.Telescope.taken_of_fit {bindings : Bindings} (telescope : Telescope)
    (function : telescope.Function) (fit : bindings.Fit telescope.parameters) :
    telescope.Taken bindings function (telescope.apply function bindings) := by
  induction telescope with
  | nil => exact .done
  | cons named rest ih =>
    obtain ⟨name, type⟩ := named
    obtain ⟨⟨value, found, fits⟩, others⟩ := List.forall_mem_cons.1 fit
    -- All parameters of a typed function are required, so that the value has the type.
    have admitted : type.admits value := by
      obtain ⟨typed, admitted⟩ | ⟨typed⟩ | optional := fits
      · cases typed
        exact admitted
      · cases typed
      · contradiction
    rw [← type.isSome_extract? value, Option.isSome_iff_exists] at admitted
    obtain ⟨content, extracted⟩ := admitted
    have applied : Telescope.apply ((name, type) :: rest) function bindings =
        Telescope.apply rest (function content) bindings := by
      rw [Telescope.apply, found]
      simp only [extracted]
    rw [applied]
    exact .taken found extracted (ih (function content) others)

/-! ## Expressions -/

/-- What an expression has for its callable in some scope, and what comes of it. -/
structure Program.Expression.CheckedAt (expression : Expression σ) (scope : Scope β)
    (bindings : Bindings) : Prop where
  read : expression.reads.mapM (Expression.readName scope) = .ok bindings.entries
  placed : expression.Placed
  filled : bindings.Placed expression.parameters
  /-- Either all parameters fit and the callable is entered with them, or the first that does not
  is the error. -/
  decided : (bindings.Fit expression.callable.signature.parameters ∧
      expression.evaluate scope =
        .call expression.callable ⟨expression.source, bindings⟩ .finish) ∨
    ∃ parameter type value,
      bindings.FirstUnfit expression.callable.signature.parameters parameter type value ∧
      expression.evaluate scope =
        .fail (.parameterType parameter.name type.name value.typeName)

theorem Program.Expression.checkedAt {interpretation : Interpretation σ}
    {expression : Expression σ} {scope : Scope β}
    (stems : (Program.Occurrence.mk (namesOf scope.frames) expression).Stems interpretation) :
    ∃ bindings, expression.CheckedAt scope bindings := by
  obtain ⟨fragment, compiled⟩ := stems
  obtain ⟨addresses, placed⟩ := (represents_of_compile compiled).resolved
  obtain ⟨frames, context⟩ := scope
  obtain ⟨entries, read, -, names, -⟩ := readNames addresses [] context
  rw [List.append_nil] at read
  have places := placed.places
  rw [← names] at places
  have filled := @Bindings.placed ⟨entries⟩ _ places
  have bound : ∀ parameter ∈ expression.callable.signature.parameters, ∃ value,
      (Bindings.mk entries).get parameter.name = .ok value := by
    rw [← placed.parameters]
    intro parameter member
    obtain ⟨first, there, rfl⟩ := List.mem_map.1 member
    obtain ⟨value, -, found⟩ := filled.found first there
    exact ⟨value, Bindings.get_eq_ok.2 found⟩
  have checked := filled.checked
  rw [placed.parameters] at checked
  -- All names can be read, so that nothing but a check can fail.
  have given : expression.bindings (Scope.mk frames context) =
      (expression.callable.signature.parameters.forM (Lexical.checkNamed ⟨entries⟩) >>=
        fun _ => pure ⟨entries⟩) := by
    rw [Expression.bindings, read, ← checked]
    rfl
  refine ⟨⟨entries⟩, read, placed, filled, ?_⟩
  obtain ⟨fit, passed⟩ | ⟨parameter, type, value, unfit, refused⟩ := Bindings.forM_checkNamed bound
  · refine .inl ⟨fit, ?_⟩
    rw [Expression.evaluate, given, passed]
    rfl
  · refine .inr ⟨parameter, type, value, unfit, ?_⟩
    rw [Expression.evaluate, given, refused]
    rfl

/-! ## Renderings -/

/-- The call is that of an expression of the program: it is made in a scope with the frames of the
constructs around the expression, and hands over nothing that does not fit. -/
structure Program.Enters (program : Program σ) (callable : Callable σ) (invocation : Invocation) :
    Prop where
  expression : ∃ (expression : Expression σ) (scope : Scope (SectionFlow σ)),
    ⟨namesOf scope.frames, expression⟩ ∈ program.occurrences ∧
      expression.CheckedAt scope invocation.bindings ∧
      expression.callable = callable ∧ expression.source = invocation.source
  fit : invocation.bindings.Fit callable.signature.parameters

theorem Program.occurrence_enters {interpretation : Interpretation σ} {program : Program σ}
    {occurrence : Program.Occurrence σ} (stands : occurrence ∈ program.occurrences)
    (stems : occurrence.Stems interpretation) : occurrence.Calls program.Enters := by
  obtain ⟨names, expression⟩ := occurrence
  rintro scope rfl
  obtain ⟨bindings, checked⟩ := Expression.checkedAt stems
  obtain ⟨fit, entered⟩ | ⟨parameter, type, value, -, refused⟩ := checked.decided
  · rw [entered]
    exact ⟨⟨⟨expression, scope, stands, checked, rfl, rfl⟩, fit⟩, fun _ => True.intro⟩
  · rw [refused]
    exact True.intro

/-- A rendering that is asked on some host enters callables only with what their signatures ask
for. -/
structure Render.Guarded (program : Program σ) (render : Render σ) (host : σ) : Prop where
  entered : ∀ limits start calls standing callable invocation resume present,
    render.Asked host limits start →
    start.Reaches limits calls ⟨standing, .call callable invocation resume, present⟩ →
    program.Enters callable invocation
  /-- Where an expression is evaluated and its callable cannot be entered, the first parameter that
  does not fit is the answer, and no call is made but those before. -/
  refused : ∀ limits start calls (moment : Moment σ Progress) expression
    (scope : Scope (SectionFlow σ)),
    render.Asked host limits start → start.Reaches limits calls moment →
    ⟨namesOf scope.frames, expression⟩ ∈ program.occurrences →
    (expression.evaluate scope).Within moment.flow →
    ∃ bindings, expression.CheckedAt scope bindings ∧
      (bindings.Fit expression.callable.signature.parameters ∨
        ∃ parameter type value,
          bindings.FirstUnfit expression.callable.signature.parameters parameter type value ∧
          render.next host =
            ⟨calls, .error (.parameterType parameter.name type.name value.typeName), .finished,
              moment.host⟩)
  extracted : ∀ limits start calls standing (f : TypedFunction) invocation resume present,
    render.Asked host limits start →
    start.Reaches limits calls ⟨standing, .call f.callable invocation resume, present⟩ →
    ∃ result, f.telescope.Taken invocation.bindings f.function result ∧
      ∀ other : σ, ((f.callable : Callable σ).run invocation.bindings).run other = (result, other)

theorem Render.guarded {interpretation : Interpretation σ} {program : Program σ}
    (stems : ∀ occurrence ∈ program.occurrences, occurrence.Stems interpretation)
    {render : Render σ} (calls : render.Calls program.Enters) (host : σ) :
    render.Guarded program host := by
  have entered : ∀ limits start calls standing callable invocation resume present,
      render.Asked host limits start →
      start.Reaches limits calls ⟨standing, .call callable invocation resume, present⟩ →
      program.Enters callable invocation :=
    fun _ _ _ _ _ _ _ _ asked reaches => (reaches.calls (asked.calls calls)).1
  refine ⟨entered, ?_, ?_⟩
  · intro limits start calls moment expression scope asked reaches stands within
    obtain ⟨bindings, checked⟩ := Expression.checkedAt (stems _ stands)
    refine ⟨bindings, checked, ?_⟩
    obtain ⟨fit, -⟩ | ⟨parameter, type, value, unfit, refused⟩ := checked.decided
    · exact .inl fit
    · -- The error is raised at this moment of the pull, and so it is the answer.
      rw [refused] at within
      have next := (render.failStop host).raised limits start calls moment Value _ [] _ _ asked
        reaches within .fail
      rw [List.append_nil] at next
      exact .inr ⟨parameter, type, value, unfit, next⟩
  · intro limits start calls standing f invocation resume present asked reaches
    have fit := (entered _ _ _ _ _ _ _ _ asked reaches).fit
    exact ⟨_, f.telescope.taken_of_fit f.function fit, fun _ => rfl⟩

/-- No callable of a compiled program is entered with an argument that its signature forbids.
Whatever has been answered before and whatever others have done to the host, the callables that a
rendering enters get what they ask for, and the first parameter that does not fit is answered
instead of a call.  So it is for every evaluation of the walk over the document, which comes to what
the rendering comes to. -/
theorem callables_guarded {interpretation : Interpretation σ}
    {documents : List Template.Document} {occasion : Eager.Occasion σ}
    (compiled : Program.compile interpretation documents = .ok occasion.program)
    (document : DocId) (changes : List (σ → σ)) (host present : σ) :
    ((occasion.program.render document occasion.options).left changes host).Guarded
        occasion.program present ∧
      ∀ fuel,
        (∀ expression scope,
          .evaluation expression scope ∈ (occasion.walk fuel document host).2.ledger.deeds →
          ∃ bindings, expression.CheckedAt scope bindings) ∧
        (occasion.nesting document ≤ fuel → occasion.Mirrors fuel document host) := by
  have stems := stems_program compiled
  have calls : (occasion.program.render document occasion.options).Calls occasion.program.Enters :=
    Program.flow_calls (fun occurrence stands =>
      Program.occurrence_enters stands (stems occurrence stands)) occasion.options document
  refine ⟨Render.guarded stems (Render.left_calls calls changes host) present, fun fuel => ?_⟩
  refine ⟨fun expression scope evaluated => ?_, occasion.mirrors document host⟩
  have sound := occasion.walk_sound compiled fuel document host expression scope evaluated
  exact Expression.checkedAt (stems _ sound.around)

/-- A host that puts texts in brackets, has one list, and takes any other fragment as a text. -/
def bracketInterpretation : Interpretation Unit
  | ⟨source, _⟩ =>
    if source = Host.StockEntry.bracket.expression.source then
      .ok Host.StockEntry.bracket.expression.callable
    else if source = "items" then .ok (.untyped source fun _ => pure (.list []))
    else .ok (.untyped source fun _ => pure (.text source))

/-- Two documents that declare the name of a text twice, one of which binds it to a list. -/
def bracketTemplates : List Template.Document :=
  let line (node : Template.Node) : Template.Node := .line ⟨[node], false, "", none⟩
  let bracket : Template.Node :=
    .expression .normal ⟨Host.StockEntry.bracket.expression.source, ["text", "text"]⟩
  [[line (.binding "text" (some ⟨"a", []⟩) [line bracket])],
    [line (.binding "text" (some ⟨"items", []⟩) [line bracket])]]

def bracketProgram : Program Unit where
  documents :=
    let line (routine : Program.Routine Unit) : Program.Line Unit := ⟨[routine], none, none⟩
    let bracket : Program.Routine Unit :=
      .output ⟨Host.StockEntry.bracket.expression.source, [("text", ⟨0, 0⟩), ("text", ⟨0, 0⟩)],
        [(0, ⟨"text", some .string, true⟩)], Host.StockEntry.bracket.expression.callable⟩ false
    let value (source : String) (value : Value) : Expression Unit :=
      ⟨source, [], [], .untyped source fun _ => pure value⟩
    [[line (.binding "text" (some (value "a" (.text "a"))) [line bracket])],
      [line (.binding "text" (some (value "items" (.list []))) [line bracket])]]

def bracketOccasion : Eager.Occasion Unit :=
  ⟨bracketProgram, {}, fun _ host => host⟩

theorem bracket_compiled :
    Program.compile bracketInterpretation bracketTemplates = .ok bracketOccasion.program := rfl

theorem brackets_guarded :
    Program.compile bracketInterpretation bracketTemplates = .ok bracketOccasion.program ∧
      bracketOccasion.nesting ⟨1⟩ ≤ 1 ∧
      (bracketProgram.render ⟨1⟩ {}).Guarded bracketProgram () ∧
      bracketOccasion.Mirrors 1 ⟨1⟩ () ∧
      (bracketProgram.render ⟨1⟩ {}).next () =
        ⟨[⟨"items", ⟨[]⟩⟩], .error (.parameterType "text" "string" "array"), .finished, ()⟩ ∧
      ((bracketProgram.render ⟨0⟩ {}).drain ()).chunks = ["[a]"] := by
  obtain ⟨guarded, walks⟩ := callables_guarded bracket_compiled ⟨1⟩ [] () ()
  have enough : bracketOccasion.nesting ⟨1⟩ ≤ 1 := by decide
  exact ⟨bracket_compiled, enough, guarded, (walks 1).2 enough, rfl, by decide +kernel⟩

end Stencil
