import Stencil.Proofs.Lexical.Appended
import Stencil.Proofs.Transparency.Around
import Stencil.Proofs.Transparency.Distilled

/-! # Selecting a block

A binding, a choice, a loop over a single element and an include have nothing of their own to put
out.  A line that consists of one of them is rendered as the lines that it selects, once its own
expression has been evaluated.
-/

namespace Stencil

open Eager (Surroundings Occasion)
open Host (Interpretation)
open Template (Fragment Node Document)
open Program (Routine Block)

variable {σ : Type}

/-! ## Wrappers -/

/-- A line that is nothing but a node. -/
def Template.Line.plain (node : Node) (source : String) : Template.Line :=
  ⟨[node], false, source, none⟩

/-- On a host a fragment without free names comes to a value, as the entry tells. -/
inductive Gives (interpretation : Interpretation σ) (host : σ) :
    Fragment → Value → Entry σ → σ → Prop where
  | intro {source : String} {callable : Host.Callable σ} {value : Value} {after : σ} :
      interpretation ⟨source, []⟩ = .ok callable → callable.signature.parameters = [] →
      (callable.run ⟨[]⟩).run host = (.ok value, after) →
      Gives interpretation host ⟨source, []⟩ value (.call callable ⟨source, ⟨[]⟩⟩ (.ok value)) after

/-- On a host a node selects the lines of a document, after what the entries tell.  What is not
selected only has to be accepted. -/
inductive Selects (interpretation : Interpretation σ) (documents : List Document)
    (document : DocId) (lines : Document) (host : σ) : Node → List (Entry σ) → σ → Prop where
  | binding {name : String} {fragment : Fragment} {value : Value} {entry : Entry σ} {after : σ} :
      Gives interpretation host fragment value entry after →
      Selects interpretation documents document lines host
        (.binding name (some fragment) lines) [entry] after
  | choice {fragment : Fragment} {value : Value} {entry : Entry σ} {after : σ}
      {otherwise : Document} :
      Gives interpretation host fragment value entry after → value.isTruthy = true →
      Accepted interpretation documents.length .otherwise otherwise →
      Selects interpretation documents document lines host
        (.choice fragment lines otherwise) [entry] after
  | loop {item : String} {index : Option String} {fragment : Fragment} {value element : Value}
      {entry : Entry σ} {after : σ} {separator : Option String} {fallback : Document} :
      Gives interpretation host fragment value entry after → value.items? = some [element] →
      Accepted interpretation documents.length .fallback fallback →
      Selects interpretation documents document lines host
        (.loop item index fragment separator lines fallback) [entry] after
  | inclusion :
      Selects interpretation documents document lines host (.inclusion document [] []) [] host
  /-- The lines are supplied to a document that is nothing but a slot for them. -/
  | slot {target : DocId} {name source : String} :
      documents[target.index]? = some [.line (.plain (.slot name) source)] →
      Selects interpretation documents document lines host
        (.inclusion target [] [⟨name, lines⟩]) [] host

/-! ## Their flows -/

theorem Program.distilled_plain (atStart : Bool) (setting : Setting σ)
    (scope : Scope (SectionFlow σ)) (progress : Progress) (routine : Routine σ) :
    (blockFlow setting scope false progress [⟨[routine], none, none⟩]).distilled atStart =
      (routineFlow setting scope progress routine).distilled atStart := by
  have single : childrenFlow setting scope progress [routine] =
      routineFlow setting scope progress routine := Flow.bind_finish _
  have line := Flow.distilled_line atStart (childrenFlow setting scope progress [routine]) .fresh
  rw [single] at line
  rw [← line, ← single]
  rfl

theorem Flow.distilled_single (atStart : Bool) (separator : Option String)
    (body : Nat → Value → Progress → Flow σ Progress) (element : Value) (progress : Progress) :
    (Flow.rounds separator body 0 false [element] progress).distilled atStart =
      (body 0 element progress).distilled atStart := by
  have round : Prod.fst <$> (body 0 element progress).joined none false =
      body 0 element progress := Flow.fst_joined _ _
  conv => rhs; rw [← round]
  rfl

/-- A slot in a document that is included from a progress puts out what is supplied for it, and
leaves behind the progress of the supplier. -/
theorem Flow.slot_leave {context : Context (SectionFlow σ)} {name : String}
    {body : SectionFlow σ} (supplied : context.section? name = some body) (progress : Progress) :
    (Flow.slot context name (progress.enter []) >>= fun progress => .finish progress.leave) =
      body progress := by
  simp only [Flow.slot, supplied]
  -- Nothing has been recorded at the beginning.
  show ((body progress).recorded.bind _).bind _ = _
  rw [Flow.bind_assoc]
  exact Flow.fst_recordedAfter (body progress) []

/-! ## Accounts -/

/-- What happened, and some entries before it. -/
def Account.afterAll (entries : List (Entry σ)) (account : Account σ) : Account σ :=
  { account with entries := entries ++ account.entries }

/-- A rendering that ends because its includes are nested too deeply. -/
def Ending.TooDeep : Ending → Prop
  | .failed error => error.kind = .recursionLimit
  | .bottomless => True
  | .complete => False

instance : DecidablePred Ending.TooDeep
  | .failed error => inferInstanceAs (Decidable (error.kind = .recursionLimit))
  | .bottomless => isTrue True.intro
  | .complete => isFalse id

theorem uncancelled_around {options : Render.Options σ} (uncancelled : options.isCancelled = none)
    (program : Program σ) (meanwhile : Nat → σ → σ) (host : σ) :
    (Occasion.mk program options meanwhile).around.isCancelled host = false := by
  simp only [Occasion.around, Render.Options.limits, Render.Options.isCancelledAt, uncancelled]

theorem unlimited_around {options : Render.Options σ} (unlimited : options.maxIterations = none)
    (uncancelled : options.isCancelled = none) (program : Program σ) (meanwhile : Nat → σ → σ) :
    (Occasion.mk program options meanwhile).around.Unlimited where
  polls := uncancelled_around uncancelled program meanwhile
  rounds := unlimited

theorem account_uncancelled {occasion : Occasion σ}
    (uncancelled : ∀ host, occasion.around.isCancelled host = false) (document : DocId) (host : σ) :
    occasion.account document host =
      (occasion.program.flow occasion.options document).account occasion.around 0 .start host := by
  simp only [Occasion.account, Flow.account, uncancelled, Bool.false_eq_true, if_false]

theorem account_flow {occasion : Occasion σ} (unlimited : occasion.around.Unlimited)
    (document : DocId) (host : σ) :
    occasion.account document host =
      (occasion.program.flow occasion.options document).account occasion.around 0 .start host :=
  account_uncancelled unlimited.polls document host

/-! ## What is selected -/

theorem Gives.expression {interpretation : Interpretation σ} {host : σ} {fragment : Fragment}
    {value : Value} {entry : Entry σ} {after : σ}
    (gives : Gives interpretation host fragment value entry after) (names : Program.Names) :
    ∃ expression, Program.compileFragment interpretation names fragment = .ok expression ∧
      ∀ (scope : Scope (SectionFlow σ)) (next : Value → Flow σ Progress)
        (around : Surroundings σ) answered standing,
        (expression.evaluate scope >>= next).account around answered standing host =
          ((next value).account around answered standing after).after entry := by
  obtain @⟨source, callable, value, after, taken, parameters, run⟩ := gives
  refine ⟨⟨source, [], [], callable⟩, ?_, fun scope next around answered standing => ?_⟩
  · have places : callable.signature.parameters.mapM (Program.placeParameter ⟨source, []⟩) =
        .ok [] := by
      rw [parameters]
      rfl
    exact except_bind_eq_ok.2 ⟨callable, by rw [taken]; rfl,
      except_bind_eq_ok.2 ⟨[], places, rfl⟩⟩
  · have bindings : Program.Expression.bindings ⟨source, [], [], callable⟩ scope = .ok ⟨[]⟩ := rfl
    rw [Program.Expression.evaluate, bindings]
    show (Flow.call callable ⟨source, ⟨[]⟩⟩ next).account around answered standing host = _
    simp only [Flow.account, run]

section Selected

variable {interpretation : Interpretation σ} {documents more : List Document}
  {program larger : Program σ} {options : Render.Options σ} {id : DocId} {lines : Document}

/-- Where no include is left, it does not matter what another rendering does. -/
theorem entersAlike_bottom (outer around : List Recordings) (size : Nat)
    (others : DocId → Entrance σ) :
    EntersAlike Ending.TooDeep outer around size (larger.entrance options 0) others := by
  intro target _
  simp only [Program.entrance]
  cases options.maxIncludeDepth with
  | none => exact .sinking True.intro
  | some limit => exact .failing rfl

/-- A flow does what a rendering of the document does, unless its includes are nested too deeply. -/
def Renders (program : Program σ) (options : Render.Options σ) (id : DocId)
    (flow : Flow σ Progress) : Prop :=
  Flow.ExtendedBy Ending.TooDeep (fun _ _ => True) flow (program.flow options id)

/-- The lines of a document, in whatever frames they stand. -/
theorem renders_lines (options : Render.Options σ) (partOf : program.PartOf larger)
    {block : Block σ} (found : program.document? id = some block) {size : Nat}
    (compiled : Program.compileBlock interpretation size [] .document lines = .ok block)
    (frames : List Frame) :
    Renders program options id
      (Program.blockFlow (larger.setting options) ⟨frames, .root⟩ false .start block) := by
  -- All names of a document are bound within it, so that it reads none of the frames around it.
  have flow (frames : List Frame) := compiled_block (.unboundName "") (larger.setting options) []
    frames .root false .start .document lines compiled
  have same : Program.blockFlow (larger.setting options) ⟨frames, .root⟩ false .start block =
      Program.blockFlow (larger.setting options) (.root .root) false .start block :=
    (flow frames).trans (flow []).symm
  rw [same]
  exact (Program.flow_extended partOf [] (Nat.zero_add _).symm
    (entersAlike_bottom _ _ _ _) found .root rfl rfl).mono fun _ _ _ => True.intro

theorem renders_bottom (none_left : options.maxIncludeDepth.getD Program.horizon = 0)
    (target : DocId) (forwards : List (String × Program.Expression σ))
    (sections : List (Program.Section σ)) :
    Renders program options id (Program.routineFlow (larger.setting options) (.root .root) .start
      (.inclusion target forwards sections)) := by
  simp only [Program.routineFlow, Program.setting, none_left, Program.entrance]
  cases options.maxIncludeDepth with
  | none => exact .sinking True.intro
  | some limit => exact .failing rfl

/-- An include of the document, which takes up one level of includes. -/
theorem renders_inclusion (partOf : program.PartOf larger) {block : Block σ}
    (found : program.document? id = some block) :
    Renders program options id (Program.routineFlow (larger.setting options) (.root .root) .start
      (.inclusion id [] [])) := by
  cases depth : options.maxIncludeDepth.getD Program.horizon with
  | zero => exact renders_bottom depth id [] []
  | succ levels =>
    have known : id.index < program.size := (List.getElem?_eq_some_iff.1 found).1
    -- Only the recordings of the line are around the document, and these are empty.
    have inner := Program.flow_extended partOf [[]] (depth.trans (Nat.add_comm levels 1))
      (entersAlike_bottom _ _ _ _) found (Context.root.within [] []) rfl rfl
    simp only [Program.routineFlow, Program.setting, depth, Program.entrance,
      partOf.kept id known, found]
    rw [Renders, ← Flow.bind_finish (program.flow options id)]
    exact inner.bind fun _ _ _ => .finish True.intro

/-- An include that supplies lines to a document which is nothing but a slot. -/
theorem account_slot {target : DocId} {name : String} {levels : Nat}
    (left : options.maxIncludeDepth.getD Program.horizon = levels + 1)
    (slot : larger.document? target = some [⟨[.slot name], none, none⟩]) (block : Block σ)
    {around : Surroundings σ} (unlimited : around.Unlimited) (host : σ) :
    (Program.routineFlow (larger.setting options) (.root .root) .start
        (.inclusion target [] [⟨name, block⟩])).account around 0 .start host =
      (Program.blockFlow (larger.setting options) (.root .root) false .start block).account
        around 0 .start host := by
  have enters : (larger.setting options).enter target =
      .admitted fun scope progress =>
        Program.blockFlow ⟨options.escape, larger.entrance options levels⟩ scope false progress
          [⟨[.slot name], none, none⟩] := by
    simp only [Program.setting, left, Program.entrance, slot]
  have supplied : (Context.root.within []
        (Program.sectionFlows (larger.setting options) (.root .root)
          [⟨name, block⟩])).section? name = some fun progress =>
        Program.blockFlow (larger.setting options) (.root .root) false progress block := by
    simp only [Program.sectionFlows, Context.within, Context.section?, List.reverse_singleton,
      List.lookup_cons, beq_self_eq_true]
  -- The line of the slot adds nothing, and neither does the recording of the section.
  refine Flow.account_congr unlimited 0 .start ?_ host
  rw [← Flow.slot_leave supplied .start, Flow.distilled_bind]
  simp only [Program.routineFlow, enters]
  show ((Program.blockFlow _ _ false (Progress.start.enter []) _ >>= _).distilled _) = _
  rw [Flow.distilled_bind, Program.distilled_plain]
  rfl

theorem compile_plain {size : Nat} {names : Program.Names} {node : Node} {routine : Routine σ}
    (source : String) (place : Program.Place)
    (taken : Program.compileNode interpretation size names node = .ok routine) :
    Program.compileBlock interpretation size names place [.line (.plain node source)] =
      .ok [⟨[routine], none, none⟩] := by
  have kept : ¬∃ part, node = .stray part := by
    rintro ⟨part, rfl⟩
    cases taken
  simp only [Program.compileBlock, Template.Line.plain, Program.compileLine,
    compileChildren_cons kept, taken]
  rfl

theorem Selects.renders (compiled : Program.compile interpretation documents = .ok program)
    (given : documents[id.index]? = some lines) {node : Node} {own : List (Entry σ)}
    {host after : σ}
    (selects : Selects interpretation (documents ++ more) id lines host node own after)
    (options : Render.Options σ) :
    ∃ routine, Program.compileNode interpretation (documents ++ more).length [] node =
        .ok routine ∧
      ∀ larger, Program.compile interpretation (documents ++ more) = .ok larger →
        ∃ flow, Renders program options id flow ∧
          ∀ around : Surroundings σ, around.Unlimited →
            (Program.routineFlow (larger.setting options) (.root .root) .start routine).account
                around 0 .start host =
              (flow.account around 0 .start after).afterAll own := by
  obtain ⟨block, found, appended⟩ := document_appended compiled given more
  have selected {larger : Program σ}
      (whole : Program.compile interpretation (documents ++ more) = .ok larger) :=
    renders_lines options (partOf_of_compile compiled whole) found
      (appended [] .document)
  cases selects with
  | @binding name fragment value entry _ gives =>
    obtain ⟨expression, taken, evaluated⟩ := gives.expression []
    refine ⟨.binding name (some expression) block, ?_, fun larger whole => ?_⟩
    · simp only [Program.compileNode, Program.compileFragment?, taken, appended]
      rfl
    · exact ⟨_, selected whole [[(name, value)]], fun around _ => evaluated ..⟩
  | @choice fragment value entry _ otherwise gives truthy accepted =>
    obtain ⟨expression, taken, evaluated⟩ := gives.expression []
    obtain ⟨others, other⟩ := accepted
    refine ⟨.choice expression block others, ?_, fun larger whole => ?_⟩
    · simp only [Program.compileNode, taken, appended, other]
      rfl
    · refine ⟨_, selected whole [], fun around _ => ?_⟩
      refine (evaluated ..).trans ?_
      rw [if_pos truthy]
      rfl
  | @loop item index fragment value element entry _ separator fallback gives single accepted =>
    obtain ⟨expression, taken, evaluated⟩ := gives.expression []
    obtain ⟨others, other⟩ := accepted
    refine ⟨.loop item index expression separator block others, ?_, fun larger whole => ?_⟩
    · simp only [Program.compileNode, taken, appended, other]
      rfl
    · refine ⟨_, selected whole [loopFrame item index 0 element], fun around unlimited => ?_⟩
      refine (evaluated ..).trans (congrArg (Account.after entry) ?_)
      simp only [single]
      -- No second round ever asks for the separator.
      exact Flow.account_congr unlimited 0 .start (Flow.distilled_single ..) _
  | inclusion =>
    have known : ¬(documents ++ more).length ≤ id.index := by
      obtain ⟨known, -⟩ := List.getElem?_eq_some_iff.1 given
      rw [List.length_append]
      omega
    refine ⟨.inclusion id [] [], ?_, fun larger whole => ?_⟩
    · rw [Program.compileNode, if_neg known]
      rfl
    · exact ⟨_, renders_inclusion (partOf_of_compile compiled whole) found, fun around _ => rfl⟩
  | @slot target name source supplies =>
    have known : ¬(documents ++ more).length ≤ target.index :=
      Nat.not_le.2 (List.getElem?_eq_some_iff.1 supplies).1
    refine ⟨.inclusion target [] [⟨name, block⟩], ?_, fun larger whole => ?_⟩
    · simp only [Program.compileNode, if_neg known, Program.compileSections, appended]
      rfl
    · cases depth : options.maxIncludeDepth.getD Program.horizon with
      | zero => exact ⟨_, renders_bottom depth target [] _, fun around _ => rfl⟩
      | succ levels =>
        have slot : larger.document? target = some [⟨[.slot name], none, none⟩] := by
          obtain ⟨missing, -⟩ | ⟨_, _, there, present, here⟩ := compiled_document whole target
          · rw [missing] at supplies
            cases supplies
          · rw [there] at supplies
            cases supplies
            cases here
            exact present
        exact ⟨_, selected whole [], fun around unlimited =>
          account_slot depth slot block unlimited host⟩

end Selected

/-- On every host and occasion without limits, a line that does nothing but select the lines of a
document can be appended to the program of that document, and is rendered as the document is:
after the call of its own expression, if it has one, there are the same chunks and calls in the same
order, and the same ending.  Only if its rendering ends because includes are nested too deeply,
nothing is said. -/
theorem selecting_is_transparent {interpretation : Interpretation σ} {documents : List Document}
    {program : Program σ} (compiled : Program.compile interpretation documents = .ok program)
    {id : DocId} {lines : Document} (given : documents[id.index]? = some lines)
    (options : Render.Options σ) (unlimited : options.maxIterations = none)
    (uncancelled : options.isCancelled = none) {node : Node} {source : String}
    {rest : List Document} {host after : σ} {own : List (Entry σ)}
    (selects : Selects interpretation (documents ++ [.line (.plain node source)] :: rest) id lines
      host node own after)
    (accepted : ∀ document ∈ rest, Accepted interpretation
      (documents ++ [.line (.plain node source)] :: rest).length .document document) :
    ∃ larger, Program.compile interpretation (documents ++ [.line (.plain node source)] :: rest) =
        .ok larger ∧
      ∀ meanwhile,
        let wrapped := (Occasion.mk larger options meanwhile).account ⟨documents.length⟩ host
        let direct := (Occasion.mk program options meanwhile).account id after
        (¬wrapped.ending.TooDeep → wrapped = direct.afterAll own) ∧
          (Occasion.mk larger options meanwhile).account id after = direct ∧
          (Occasion.mk larger options meanwhile).Tells ⟨documents.length⟩ host wrapped ∧
          (Occasion.mk program options meanwhile).Tells id after direct := by
  obtain ⟨routine, taken, renders⟩ := selects.renders compiled given options
  obtain ⟨larger, whole⟩ := compile_append compiled
    (List.forall_mem_cons.2 ⟨⟨_, compile_plain source .document taken⟩, accepted⟩)
  have free := unlimited_around unlimited uncancelled
  refine ⟨larger, whole, fun meanwhile => ⟨fun followed => ?_, ?_, ?_, ?_⟩⟩
  -- The line around the node adds nothing, so its account is that of the node.
  · obtain ⟨flow, does, account⟩ := renders larger whole
    have line : larger.flow options ⟨documents.length⟩ =
        Program.blockFlow (larger.setting options) (.root .root) false .start
          [⟨[routine], none, none⟩] := by
      rw [Program.flow, document_next whole (compile_plain source .document taken)]
    have selected : (Occasion.mk larger options meanwhile).account ⟨documents.length⟩ host =
        (flow.account (Occasion.mk larger options meanwhile).around 0 .start after).afterAll
          own := by
      rw [account_flow (free larger meanwhile), line, ← account _ (free larger meanwhile)]
      exact Flow.account_congr (free larger meanwhile) 0 .start (Program.distilled_plain ..) host
    rw [selected] at followed ⊢
    rw [account_flow (free program meanwhile)]
    exact congrArg _ ((does.account _ 0 .start after).resolve_left followed)
  · have known : id.index < program.size := by
      rw [size_of_compile compiled]
      exact (List.getElem?_eq_some_iff.1 given).1
    have alike := Program.flow_larger (partOf_of_compile compiled whole) options known
    rw [account_flow (free larger meanwhile), account_flow (free program meanwhile)]
    exact (alike.account _ 0 .start after).resolve_left not_false
  · exact Occasion.account_tells _ _ _
  · exact Occasion.account_tells _ _ _

/-- A fragment with one name reads it, and any other one is a list of one text.  The host counts the
calls. -/
def countingInterpretation : Interpretation Nat
  | ⟨_, [name]⟩ => .ok (.read name)
  | ⟨source, _⟩ => .ok (.untyped source fun _ => do
    modify (· + 1)
    return .list [.text source])

def selectedLines : Document :=
  [.line ⟨[.binding "x" (some ⟨"one", []⟩)
      [.line (.plain (.expression .normal ⟨"x", ["x"]⟩) "")]], false, "", some "  "⟩,
    .line (.newline "\n"), .line (.plain (.literal "two") "")]

/-- The lines with a line that selects them, and a document that has a slot. -/
def selectedTemplates (node : Node) : List Document :=
  [selectedLines, [.line (.plain node "")], [.line (.plain (.slot "body") "")]]

/-- What happens when the documents are compiled and one of them is rendered. -/
def accountOf (documents : List Document) (document : DocId) (host : Nat) :
    Option (Account Nat) :=
  (Program.compile countingInterpretation documents).toOption.map fun program =>
    (Occasion.mk program {} fun _ host => host).account document host

theorem selecting_from_loop_and_slot :
    let direct := accountOf [selectedLines] ⟨0⟩
    let wrapped (node : Node) := accountOf (selectedTemplates node) ⟨1⟩ 0
    let loop := wrapped (.loop "x" (some "i") ⟨"item", []⟩ (some ", ") selectedLines [])
    let supplied := wrapped (.inclusion ⟨2⟩ [] [⟨"body", selectedLines⟩])
    loop.map (fun account => account.drained.chunks) = some ["  ", "one", "\n", "two"] ∧
      loop.map (fun account => account.drained.calls.map Invocation.source) =
        some ["item", "one", "x"] ∧
      (∃ entry, loop = (direct 1).map (Account.afterAll [entry])) ∧
      supplied = (direct 0).map (Account.afterAll []) := by
  obtain ⟨program, compiled⟩ : ∃ program,
    Program.compile countingInterpretation [selectedLines] = .ok program := ⟨_, rfl⟩
  have transparent {node : Node} {own : List (Entry Nat)} {after : Nat}
      (selects : Selects countingInterpretation (selectedTemplates node) ⟨0⟩ selectedLines 0 node
        own after)
      (followed : ∀ account ∈ accountOf (selectedTemplates node) ⟨1⟩ 0,
        ¬account.ending.TooDeep) :
      accountOf (selectedTemplates node) ⟨1⟩ 0 =
        (accountOf [selectedLines] ⟨0⟩ after).map (Account.afterAll own) := by
    have slot : ∀ document ∈ [[.line (.plain (.slot "body") "")]],
        Accepted countingInterpretation 3 .document document := by
      rintro document (_ | ⟨_, ⟨⟩⟩)
      exact ⟨_, rfl⟩
    obtain ⟨larger, whole, tells⟩ :=
      selecting_is_transparent compiled rfl {} rfl rfl selects slot
    have same : Program.compile countingInterpretation (selectedTemplates node) = .ok larger :=
      whole
    simp only [accountOf, same, compiled] at followed ⊢
    exact congrArg some ((tells fun _ host => host).1 (followed _ rfl))
  refine ⟨by decide +kernel, by decide +kernel,
    ⟨_, transparent (.loop (.intro rfl rfl rfl) rfl ⟨[], rfl⟩) ?_⟩, transparent (.slot rfl) ?_⟩
  · decide +kernel
  · decide +kernel

end Stencil
