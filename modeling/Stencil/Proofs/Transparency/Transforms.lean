import Stencil.Proofs.Apart.Scripts
import Stencil.Proofs.Faults.Explained
import Stencil.Proofs.Leaves
import Stencil.Proofs.Transparency.Gathered

/-! # Transforms

The text that a transform works on is that of its block as a document of its own.  It does not
depend on what is around the transform, and what is around it does not notice that the block is
rendered.  This holds in documents that are rendered directly, as long as no limit is reached.
-/

namespace Stencil

open Eager (Surroundings Occasion)
open Host (Interpretation)
open Template (Fragment Document)
open Program (Block Routine Expression)

variable {σ α β γ : Type}

/-! ## Limits that are not reached -/

/-- A rendering has ended because it has reached a limit of its own, and not by an error of a
call. -/
def Account.AtLimit (account : Account σ) : Prop :=
  match account.ending with
  | .failed error =>
    (error.kind = .recursionLimit ∨ error.kind = .resourceLimit) ∧
      account.entries.any Entry.isFailure = false
  | .bottomless => True
  | .complete => False

instance : DecidablePred (@Account.AtLimit σ)
  | ⟨entries, .failed error, _⟩ => inferInstanceAs (Decidable
    ((error.kind = .recursionLimit ∨ error.kind = .resourceLimit) ∧
      entries.any Entry.isFailure = false))
  | ⟨_, .bottomless, _⟩ => isTrue True.intro
  | ⟨_, .complete, _⟩ => isFalse id

theorem Account.AtLimit.after {entry : Entry σ} {account : Account σ} (hit : account.AtLimit)
    (success : entry.isFailure = false) : (account.after entry).AtLimit := by
  obtain ⟨entries, ending, host⟩ := account
  cases ending with
  | failed error => exact ⟨hit.1, by rw [Account.after, List.any_cons, success, hit.2]; rfl⟩
  | bottomless => exact True.intro
  | complete => exact hit

theorem Ending.TooDeep.atLimit {account : Account σ} (deep : account.ending.TooDeep)
    (successes : account.entries.any Entry.isFailure = false) : account.AtLimit := by
  obtain ⟨entries, ending, host⟩ := account
  cases ending with
  | failed error => exact ⟨.inl deep, successes⟩
  | bottomless => exact True.intro
  | complete => exact deep

/-- Of two flows, one of which goes on further, the first reaches a limit or both have one
account. -/
theorem Flow.ExtendedBy.limited {results : α → β → Prop} {flow : Flow σ α} {further : Flow σ β}
    (extended : ExtendedBy Ending.TooDeep results flow further) (around : Surroundings σ)
    (answered : Nat) (standing : Standing) (host : σ) :
    (flow.account around answered standing host).AtLimit ∨
      flow.account around answered standing host =
        further.account around answered standing host :=
  (extended.account_or around answered standing host).imp_left fun deep => deep.1.atLimit deep.2

section Uncancelled

variable {around : Surroundings σ} (uncancelled : ∀ host, around.isCancelled host = false)
include uncancelled

theorem Eager.Surroundings.uncapped_unlimited : around.uncapped.Unlimited :=
  ⟨uncancelled, rfl⟩

/-- If no limit is reached then there might be none. -/
theorem Flow.account_uncapped (flow : Flow σ α) (answered : Nat) (standing : Standing) (host : σ) :
    (flow.account around answered standing host).AtLimit ∨
      flow.account around answered standing host =
        flow.account around.uncapped answered standing host := by
  have unlimited := Eager.Surroundings.uncapped_unlimited uncancelled
  induction flow generalizing answered standing host with
  | finish | fail | bottomless => exact .inr rfl
  | emit chunk resume ih =>
    simp only [account, uncancelled, unlimited.polls, Bool.false_eq_true, if_false]
    split
    · exact ih _ _ _ _
    · exact (ih _ _ _ _).imp (·.after rfl) (congrArg (Account.after _))
  | call callable invocation resume ih =>
    simp only [account]
    rcases (callable.run invocation.bindings).run host with ⟨outcome, host⟩
    cases outcome with
    | ok value => exact (ih value _ _ _).imp (·.after rfl) (congrArg (Account.after _))
    | error error => exact .inr rfl
  | round resume ih =>
    simp only [account, Standing.afterRound_unlimited unlimited]
    cases begun : standing.afterRound around.toLimits with
    | ok later =>
      obtain rfl := Standing.eq_of_afterRound begun
      exact ih () _ _ _
    | error error =>
      obtain ⟨limit, -, -, rfl⟩ := limit_of_afterRound begun
      exact .inl ⟨.inr rfl, rfl⟩
  | poll resume ih =>
    simp only [account, uncancelled, unlimited.polls, Bool.false_eq_true, if_false]
    exact ih () _ _ _

end Uncancelled

/-- Without limits the account of a flow whose callables look at nothing but their bindings is the
same on all occasions. -/
theorem Flow.account_anywhere {around other : Surroundings σ} (unlimited : around.Unlimited)
    (free : other.Unlimited) (flow : Flow σ α) (blind : flow.Blind fun _ _ => True)
    (answered inside : Nat) {standing later : Standing} (same : standing.atStart = later.atStart)
    (here there : σ) :
    (flow.account around answered standing here).EqualUpTo (fun _ _ => True)
      (flow.account other inside later there) := by
  induction flow generalizing answered inside standing later here there with
  | finish | fail | bottomless => exact .last True.intro _
  | emit chunk resume ih =>
    have told := Standing.atStart_afterChunk same chunk
    simp only [account, unlimited.polls, free.polls, Bool.false_eq_true, if_false]
    rw [told]
    split
    · exact ih _ (blind _) _ _ told _ _
    · exact (ih _ (blind _) _ _ told _ _).after _
  | call callable invocation resume ih =>
    obtain ⟨answers, -⟩ := blind.1 invocation.bindings here there True.intro
    simp only [account]
    rcases ran : (callable.run invocation.bindings).run here with ⟨outcome, host⟩
    rcases runs : (callable.run invocation.bindings).run there with ⟨answer, other⟩
    rw [ran, runs] at answers
    cases answers
    cases outcome with
    | ok value => exact (ih value (blind.2 value) _ _ same _ _).after _
    | error error => exact (Account.EqualUpTo.last True.intro _).after _
  | round resume ih =>
    simp only [account, Standing.afterRound_unlimited unlimited, Standing.afterRound_unlimited free]
    refine ih () (blind ()) _ _ ?_ _ _
    exact same
  | poll resume ih =>
    simp only [account, unlimited.polls, free.polls, Bool.false_eq_true, if_false]
    exact ih () (blind ()) _ _ same _ _

theorem Account.EqualUpTo.atLimit {alike : σ → σ → Prop} {one other : Account σ}
    (same : one.EqualUpTo alike other) : one.AtLimit ↔ other.AtLimit := by
  simp only [Account.AtLimit, same.entries, same.ending]

/-- Two flows that are extended by the same one have the same account, unless a limit is reached. -/
theorem Flow.account_common {around other : Surroundings σ}
    (uncancelled : ∀ host, around.isCancelled host = false)
    (free : ∀ host, other.isCancelled host = false) {results : α → γ → Prop}
    {others : β → γ → Prop} {flow : Flow σ α} {single : Flow σ β} {further : Flow σ γ}
    (extended : ExtendedBy Ending.TooDeep results flow further)
    (alike : ExtendedBy Ending.TooDeep others single further)
    (blind : single.Blind fun _ _ => True) {answered inside : Nat} {standing later : Standing}
    (same : standing.atStart = later.atStart) {here there : σ}
    (within : ¬(flow.account around answered standing here).AtLimit)
    (unhit : ¬(single.account other inside later there).AtLimit) :
    (flow.account around answered standing here).EqualUpTo (fun _ _ => True)
      (single.account other inside later there) := by
  have unlimited := Eager.Surroundings.uncapped_unlimited uncancelled
  have anywhere := single.account_anywhere unlimited
    (Eager.Surroundings.uncapped_unlimited free) blind answered inside same here there
  have first := (account_uncapped uncancelled flow answered standing here).resolve_left within
  have second := (account_uncapped free single inside later there).resolve_left unhit
  rw [first] at within ⊢
  rw [second, ← anywhere.atLimit] at unhit
  rw [second]
  have one := (extended.limited around.uncapped answered standing here).resolve_left within
  have two := (alike.limited around.uncapped answered standing here).resolve_left unhit
  rw [one, ← two]
  exact anywhere

/-! ## Gathered blocks -/

namespace Account

theorem EqualUpTo.texts {alike : σ → σ → Prop} {one other : Account σ}
    (same : one.EqualUpTo alike other) : one.text = other.text ∧ one.calls = other.calls := by
  simp only [text, calls, drained, Drained.chunks, same.entries, and_self]

theorem toText_eq_ok {account : Account σ} {text : String}
    (rendered : account.drained.toText = .ok text) (unhit : ¬account.AtLimit) :
    account.ending = .complete ∧ account.text = text := by
  obtain ⟨entries, ending, host⟩ := account
  cases ending with
  | complete => exact ⟨rfl, Except.ok.inj rendered⟩
  | failed error => cases rendered
  | bottomless => exact absurd True.intro unhit

theorem toText_eq_error {account : Account σ} {error : RenderError}
    (failed : account.drained.toText = .error error) : account.ending = .failed error := by
  obtain ⟨entries, ending, host⟩ := account
  cases ending with
  | complete | bottomless => cases failed
  | failed other =>
    cases failed
    rfl

theorem chunks_calls (account : Account σ) :
    Drained.chunks ⟨account.calls.map Entry.event, account.ending, account.host⟩ = [] := by
  obtain ⟨entries, ending, host⟩ := account
  induction entries with
  | nil => rfl
  | cons entry entries ih =>
    cases entry with
    | call => exact ih
    | chunk => exact ih

theorem toText_afterAll (account other : Account σ) :
    (other.afterAll account.calls).drained.toText = other.drained.toText := by
  have chunks : (other.afterAll account.calls).drained.chunks = other.drained.chunks := by
    rw [drained, afterAll, Drained.chunks, List.map_append, List.filterMap_append]
    exact congrArg (· ++ other.drained.chunks) account.chunks_calls
  rw [Drained.toText, Drained.toText, chunks]
  rfl

end Account

/-- What comes of a flow that gathers a text, whatever comes then, given the account of a rendering
that has this text. -/
structure Gathers (gathered : Flow σ (α × String)) (around : Surroundings σ) (answered : Nat)
    (standing : Standing) (host : σ) (direct : Account σ) : Prop where
  /-- If the rendering has a text then this is what is gathered, after the same calls.  The output
  stands where it has stood before. -/
  completes : ∀ text, direct.drained.toText = .ok text → ∃ made begun after,
    ∀ {β : Type} (next : α × String → Flow σ β),
      (gathered >>= next).account around answered standing host =
        ((next (made, text)).account around answered ⟨standing.atStart, begun⟩ after).afterAll
          direct.calls
  /-- If the rendering fails then so does the flow, after the same calls, and nothing comes then. -/
  fails : ∀ error, direct.drained.toText = .error error → ∃ after,
    ∀ {β : Type} (next : α × String → Flow σ β),
      (gathered >>= next).account around answered standing host =
        ⟨direct.calls, .failed error, after⟩

theorem Flow.gathered_bind_account {around : Surroundings σ}
    (uncancelled : ∀ host, around.isCancelled host = false) (flow : Flow σ α)
    (next : α × String → Flow σ β) (answered : Nat) (standing : Standing) (host : σ) :
    (Flow.gathered (fun _ => flow) >>= next).account around answered standing host =
      (flow.course around.alone 0 ⟨true, standing.iterations⟩ host).gathered ""
        fun result rounds host => (next result).account around answered
          { standing with iterations := standing.iterations + rounds } host := by
  change (Flow.poll fun _ => flow.gatheredAfter "" true >>= next).account around answered standing
    host = _
  rw [account, uncancelled, if_neg Bool.false_ne_true]
  exact flow.gathered_account uncancelled "" true next answered 0 standing host

theorem Flow.gathers {around : Surroundings σ}
    (uncancelled : ∀ host, around.isCancelled host = false) {flow : Flow σ α} (answered : Nat)
    {standing : Standing} {host : σ} {direct : Account σ}
    (same : (flow.account around.alone 0 ⟨true, standing.iterations⟩ host).EqualUpTo
      (fun _ _ => True) direct)
    (unhit : ¬direct.AtLimit) :
    Gathers (Flow.gathered fun _ => flow) around answered standing host direct := by
  rw [← course_account] at same
  have account {β : Type} (next : α × String → Flow σ β) :=
    gathered_bind_account uncancelled flow next answered standing host
  -- Only what is told of the course matters, and what it comes to.
  generalize flow.course around.alone 0 ⟨true, standing.iterations⟩ host = own at same account
  obtain ⟨steps, outcome, after⟩ := own
  obtain ⟨texts, calls⟩ := same.texts
  have ending : outcome.ending = direct.ending := same.ending
  constructor
  · intro text rendered
    obtain ⟨complete, rfl⟩ := Account.toText_eq_ok rendered unhit
    cases outcome with
    | finished made =>
      refine ⟨made, standing.iterations + roundsIn steps, after,
        fun next => (account next).trans ?_⟩
      simp only [Course.gathered, calls, texts, String.empty_append]
    | failed error | interrupted error | bottomless => cases ending.trans complete
  · intro error failed
    rw [Account.toText_eq_error failed] at ending
    refine ⟨after, fun next => (account next).trans ?_⟩
    cases outcome with
    | failed error | interrupted error =>
      cases ending
      simp only [Course.gathered, calls, Account.afterAll, Account.last, List.append_nil]
    | finished made | bottomless => cases ending

/-- A limit that is reached while a text is gathered ends whatever would come then. -/
theorem Flow.gathered_atLimit {around : Surroundings σ}
    (uncancelled : ∀ host, around.isCancelled host = false) (flow : Flow σ α)
    (next : α × String → Flow σ β) {answered : Nat} {standing : Standing} {host : σ}
    (hit : (flow.account around.alone 0 ⟨true, standing.iterations⟩ host).AtLimit) :
    ((Flow.gathered (fun _ => flow) >>= next).account around answered standing host).AtLimit := by
  rw [gathered_bind_account uncancelled]
  rw [← course_account] at hit
  generalize flow.course around.alone 0 ⟨true, standing.iterations⟩ host = own at hit ⊢
  obtain ⟨steps, outcome, after⟩ := own
  cases outcome with
  | finished made => exact hit.elim
  | failed error | interrupted error =>
    refine ⟨hit.1, List.any_eq_false.2 fun entry member => List.any_eq_false.1 hit.2 entry ?_⟩
    change entry ∈ Account.calls _ ++ [] at member
    rw [List.append_nil] at member
    exact List.mem_of_mem_filter member
  | bottomless => exact hit

/-! ## Transforms -/

namespace Program

/-- The block of a transform, whose chunks make up a text. -/
def gatheredBlock (setting : Setting σ) (scope : Scope (SectionFlow σ)) (progress : Progress)
    (block : Block σ) : Flow σ (Progress × String) :=
  Flow.gathered fun _ => blockFlow setting scope false progress block

/-- What a transform does with the text of its block. -/
def worked (setting : Setting σ) (scope : Scope (SectionFlow σ)) (expression : Expression σ)
    (gathered : Progress × String) : Flow σ Progress := do
  let value ← expression.evaluate (scope.extend [(blockName, .text gathered.2)])
  Flow.emitAll (value.chunks true setting.escape)
  return gathered.1

theorem transform_flow (setting : Setting σ) (scope : Scope (SectionFlow σ)) (progress : Progress)
    (expression : Expression σ) (block : Block σ) :
    routineFlow setting scope progress (.transform expression block) =
      gatheredBlock setting scope progress block >>= worked setting scope expression :=
  rfl

theorem gatheredBlock_unnoticed (setting : Setting σ) (scope : Scope (SectionFlow σ))
    (progress : Progress) (block : Block σ) :
    (gatheredBlock setting scope progress block).Unnoticed :=
  Flow.Silent.unnoticed fun _ => Flow.silent_gatheredAfter ..

end Program

/-- A block of a program is compiled from lines that are also a document of a larger program. -/
structure DocumentOf (interpretation : Interpretation σ) (program whole : Program σ) (id : DocId)
    (block : Block σ) : Prop where
  partOf : program.PartOf whole
  kept : program.PartOf program
  found : whole.document? id = some block
  aims : ∀ part ∈ Program.blockParts block, part.Aims program.size
  closed : ∃ size lines,
    Program.compileBlock interpretation size [] .document lines = .ok block

section Transforms

variable {interpretation : Interpretation σ} {program whole : Program σ} {id : DocId}
  {block : Block σ} {options own : Render.Options σ}

/-- With more includes left, lines of a document go on further. -/
theorem lines_extended (partOf : program.PartOf whole) (escape : own.escape = options.escape)
    (aims : ∀ part ∈ Program.blockParts block, part.Aims program.size) {levels further : Nat}
    (more : levels ≤ further) (outer : List Recordings) :
    Flow.ExtendedBy Ending.TooDeep (fun _ _ => True)
      (Program.blockFlow ⟨own.escape, whole.entrance own levels⟩ (.root .root) false ⟨outer⟩ block)
      (Program.blockFlow ⟨options.escape, program.entrance options further⟩ (.root .root) false
        .start block) := by
  have entered := Program.entrance_extended partOf escape (further - levels)
    (entersAlike_bottom outer [] program.size _) levels
  rw [Nat.sub_add_cancel more] at entered
  have contexts : Context.ExtendedBy Ending.TooDeep outer [] 0
      (.root : Context (SectionFlow σ)) .root := ⟨rfl, .nil⟩
  rw [escape]
  exact (Program.block_extended entered [] contexts false block aims ⟨outer⟩ .start
    ⟨[], rfl, rfl, rfl⟩).mono fun _ _ _ => True.intro

variable (documentOf : DocumentOf interpretation program whole id block)
  (escape : own.escape = options.escape)
include documentOf escape

/-- Whatever is around a block that is closed, it does what the document does, as far as both have
includes left. -/
theorem DocumentOf.common (frames : List Frame) (progress : Progress) :
    ∃ further : Flow σ Progress,
      Flow.ExtendedBy Ending.TooDeep (fun _ _ => True)
        (Program.blockFlow (program.setting options) ⟨frames, .root⟩ false progress block) further ∧
      Flow.ExtendedBy Ending.TooDeep (fun _ _ => True) (whole.flow own id) further := by
  obtain ⟨size, lines, closed⟩ := documentOf.closed
  have flow (frames : List Frame) := compiled_block (.unboundName "") (program.setting options) []
    frames .root false progress .document lines closed
  have same : Program.blockFlow (program.setting options) ⟨frames, .root⟩ false progress block =
      Program.blockFlow (program.setting options) (.root .root) false progress block :=
    (flow frames).trans (flow []).symm
  rw [same, Program.flow, documentOf.found]
  exact ⟨_, lines_extended documentOf.kept rfl documentOf.aims (Nat.le_max_left _ _)
      progress.recordings,
    lines_extended documentOf.partOf escape documentOf.aims (Nat.le_max_right _ _) []⟩

variable (callables : ∀ occurrence ∈ whole.occurrences,
    occurrence.expression.callable.Blind fun _ _ => True)
  (uncancelled : options.isCancelled = none) (free : own.isCancelled = none)
  (meanwhile others : Nat → σ → σ) (there : σ)
  (unhit : ¬((Occasion.mk whole own others).account id there).AtLimit)
include callables uncancelled free unhit

/-- What a block is gathered to is what the document is rendered to. -/
theorem DocumentOf.gathers {β : Type} (next : Progress × String → Flow σ β) (frames : List Frame)
    (progress : Progress) {answered : Nat} {standing : Standing} {host : σ}
    (within : ¬((Program.gatheredBlock (program.setting options) ⟨frames, .root⟩ progress block >>=
      next).account (Occasion.mk program options meanwhile).around answered standing
        host).AtLimit) :
    Gathers (Program.gatheredBlock (program.setting options) ⟨frames, .root⟩ progress block)
      (Occasion.mk program options meanwhile).around answered standing host
      ((Occasion.mk whole own others).account id there) := by
  have polls := uncancelled_around uncancelled program meanwhile
  have freed := uncancelled_around free whole others
  rw [account_uncancelled freed] at unhit ⊢
  obtain ⟨further, here, direct⟩ := documentOf.common escape frames progress
  have blind : (whole.flow own id).Blind fun _ _ => True :=
    Program.flow_calls (fun occurrence stands =>
      Program.occurrence_blind (callables occurrence stands)) own id
  -- Nobody else uses the host while a text is gathered.
  have alone : ∀ host, (Occasion.mk program options meanwhile).around.alone.isCancelled host =
      false := polls
  have inside := mt (Flow.gathered_atLimit polls _ next) within
  have start : (Standing.mk true standing.iterations).atStart = Standing.start.atStart := rfl
  exact Flow.gathers polls answered
    (Flow.account_common alone freed here direct blind start inside unhit) unhit

end Transforms

/-! ## The identity -/

/-- The expression of a transform gives back the text that it works on. -/
def Program.Expression.GivesBack (expression : Expression σ) : Prop :=
  ∀ (scope : Scope (SectionFlow σ)) text host, ∃ bindings after,
    expression.bindings (scope.extend [(blockName, .text text)]) = .ok bindings ∧
      (expression.callable.run bindings).run host = (.ok (.text text), after)

theorem chunks_raw_text (text : String) (escape : Escape) :
    (Value.text text).chunks true escape = [text] := by
  rw [Value.chunks_leaves]
  rfl

/-- A line of a single text shows nothing but the text. -/
theorem Flow.single_account {around : Surroundings σ}
    (uncancelled : ∀ host, around.isCancelled host = false) (text : String) (made : Progress)
    (answered : Nat) (standing : Standing) (host : σ) :
    (((Flow.emitAll [text] >>= fun _ => .finish made).line "" none .fresh >>= fun result =>
      Flow.finish result.1).account around answered standing host).drained.toText = .ok text := by
  have marker : ("" : String).isEmpty = true := rfl
  have single : String.join [text] = text := by
    rw [String.join_cons, String.join_nil, String.append_empty]
  change ((((Flow.emit text fun _ => .finish made).line "" none .fresh).bind fun result =>
      Flow.finish result.1).account around answered standing host).drained.toText = .ok text
  by_cases newline : isNewline text
  · have visible : ¬text.isEmpty := by
      rw [beq_iff_eq.1 newline]
      decide
    simp only [line, newline, if_true, Flow.bind, account, visible, Bool.false_eq_true, if_false,
      uncancelled]
    exact congrArg Except.ok single
  · simp only [line, newline, Bool.false_eq_true, if_false, LineStage.begin, emitIndented,
      Flow.bind, account, marker, if_true, uncancelled]
    split
    next empty => exact congrArg Except.ok (String.isEmpty_iff.1 empty).symm
    next => exact congrArg Except.ok single

theorem Program.Expression.GivesBack.worked {around : Surroundings σ}
    (uncancelled : ∀ host, around.isCancelled host = false) {expression : Expression σ}
    (givesBack : expression.GivesBack) (setting : Setting σ) (scope : Scope (SectionFlow σ))
    (made : Progress) (text : String) (answered : Nat) (standing : Standing) (host : σ) :
    (((Program.worked setting scope expression (made, text)).line "" none .fresh >>= fun result =>
      Flow.finish result.1).account around answered standing host).drained.toText = .ok text := by
  obtain ⟨bindings, after, read, run⟩ := givesBack scope text host
  have shows := Flow.single_account uncancelled text made answered standing after
  rw [← chunks_raw_text text setting.escape] at shows
  rw [Program.worked, Expression.evaluate, read]
  change ((Flow.call expression.callable ⟨expression.source, bindings⟩ fun value =>
    (Flow.emitAll (value.chunks true setting.escape) >>= fun _ => Flow.finish made).line "" none
      .fresh >>= fun result => Flow.finish result.1).account around answered standing
        host).drained.toText = .ok text
  rw [Flow.account, run]
  exact shows

/-- In a document whose only line is a transform, the block is gathered at first. -/
theorem account_plain {occasion : Occasion σ}
    (uncancelled : ∀ host, occasion.around.isCancelled host = false) {main : DocId}
    {expression : Expression σ} {block : Block σ}
    (found : occasion.program.document? main =
      some [⟨[.transform expression block], none, none⟩]) (host : σ) :
    let setting := occasion.program.setting occasion.options
    let scope : Scope (SectionFlow σ) := .root .root
    occasion.account main host =
      (Program.gatheredBlock setting scope .start block >>= fun result =>
        (Program.worked setting scope expression result).line "" none .fresh >>= fun result =>
          Flow.finish result.1).account occasion.around 0 .start host := by
  intro setting scope
  have single : Program.childrenFlow setting scope .start [.transform expression block] =
      Program.gatheredBlock setting scope .start block >>=
        Program.worked setting scope expression := Flow.bind_finish _
  have line := (Program.gatheredBlock_unnoticed setting scope .start block).line
    (Program.worked setting scope expression) "" none .fresh
  rw [← single] at line
  rw [account_uncancelled uncancelled, Program.flow, found]
  change ((Program.childrenFlow setting scope .start [.transform expression block]).line ""
    none .fresh >>= fun result => Flow.finish result.1).account _ _ _ _ = _
  rw [line, bind_assoc]

/-! ## Transforms stand apart -/

/-- What is known of a transform anywhere in a document that is rendered directly, given the account
of a rendering. -/
structure Eager.Occasion.Transforms (occasion : Occasion σ) (expression : Expression σ)
    (block : Block σ) (direct : Account σ) : Prop where
  /-- First the block is gathered into a text, and then the expression works on the text. -/
  flow : ∀ setting scope progress,
    Program.routineFlow setting scope progress (.transform expression block) =
      Program.gatheredBlock setting scope progress block >>=
        Program.worked setting scope expression
  /-- The constructs around the transform do not notice that the block is gathered. -/
  unnoticed : ∀ frames progress,
    (Program.gatheredBlock (occasion.program.setting occasion.options) ⟨frames, .root⟩ progress
      block).Unnoticed
  /-- What is gathered is the text of the rendering, unless a limit is reached. -/
  gathers : ∀ frames progress answered standing host,
    let gathered := Program.gatheredBlock (occasion.program.setting occasion.options)
      ⟨frames, .root⟩ progress block
    ¬(gathered.account occasion.around answered standing host).AtLimit →
      Gathers gathered occasion.around answered standing host direct

/-- A document whose only line is a node has the routine of the node. -/
theorem document_plain {interpretation : Interpretation σ} {documents : List Document}
    {program : Program σ} (compiled : Program.compile interpretation documents = .ok program)
    {main : DocId} {node : Template.Node} (kept : ¬∃ part, node = .stray part) {source : String}
    (only : documents[main.index]? = some [.line (.plain node source)]) :
    ∃ routine, Program.compileNode interpretation documents.length [] node = .ok routine ∧
      program.document? main = some [⟨[routine], none, none⟩] := by
  obtain ⟨missing, -⟩ | ⟨lines, block, same, found, here⟩ := compiled_document compiled main
  · rw [missing] at only
    cases only
  · rw [same] at only
    cases only
    cases placed : Program.compileNode interpretation documents.length [] node with
    | error violation =>
      rw [Program.compileBlock, Template.Line.plain, Program.compileLine,
        compileChildren_cons kept, placed] at here
      cases here
    | ok routine =>
      rw [compile_plain source .document placed] at here
      cases here
      exact ⟨routine, rfl, found⟩

section Compiled

variable {interpretation : Interpretation σ} {documents more : List Document}
  {program whole : Program σ}
  (compiled : Program.compile interpretation documents = .ok program)
  (extended : Program.compile interpretation (documents ++ more) = .ok whole) {id : DocId}
  {body : Document} (given : (documents ++ more)[id.index]? = some body) {fragment : Fragment}
include compiled extended given

/-- The block of a transform is the document that has its lines. -/
theorem documentOf_compile {names : Program.Names} {routine : Routine σ}
    (placed : Program.compileNode interpretation documents.length names (.transform fragment body) =
      .ok routine) :
    ∃ expression block, routine = .transform expression block ∧
      Program.compileFragment interpretation ([Program.blockName] :: names) fragment =
        .ok expression ∧
      DocumentOf interpretation program whole id block := by
  simp only [Program.compileNode, except_bind_eq_ok] at placed
  obtain ⟨block, here, expression, taken, same⟩ := placed
  cases same
  obtain ⟨missing, -⟩ | ⟨lines, document, there, found, closed⟩ := compiled_document extended id
  · rw [missing] at given
    cases given
  · rw [there] at given
    cases given
    have grown : documents.length ≤ (documents ++ more).length := by
      rw [List.length_append]
      exact Nat.le_add_right _ _
    -- Among all documents and names both come to the same lines.
    have inside : Program.compileBlock interpretation (documents ++ more).length names .transform
        body = .ok document := appended_block names (Nat.le_refl _) body closed
    have outside : Program.compileBlock interpretation (documents ++ more).length (names ++ [])
        .transform body = .ok block := appended_block [] grown body here
    rw [List.append_nil, inside] at outside
    cases outside
    have aims := aims_block body here
    rw [← size_of_compile compiled] at aims
    exact ⟨expression, block, rfl, taken, partOf_of_compile compiled extended,
      ⟨fun _ _ => rfl, aims_program compiled⟩, found, aims, _, body, closed⟩

variable (callables : ∀ occurrence ∈ whole.occurrences,
    occurrence.expression.callable.Blind fun _ _ => True) (options own : Render.Options σ)
  (escape : own.escape = options.escape) (uncancelled : options.isCancelled = none)
  (free : own.isCancelled = none) (meanwhile others : Nat → σ → σ) (there : σ)
  (unhit : ¬((Occasion.mk whole own others).account id there).AtLimit)
include callables escape uncancelled free unhit

/-- A document whose only line is a transform that gives back its text shows the text. -/
theorem account_identity {main : DocId} {source : String}
    (only : documents[main.index]? = some [.line (.plain (.transform fragment body) source)])
    (identity : ∀ expression, Program.compileFragment interpretation [[Program.blockName]]
      fragment = .ok expression → expression.GivesBack) (host : σ)
    (within : ¬((Occasion.mk program options meanwhile).account main host).AtLimit) :
    ((Occasion.mk program options meanwhile).account main host).drained.toText =
      ((Occasion.mk whole own others).account id there).drained.toText := by
  have polls := uncancelled_around uncancelled program meanwhile
  obtain ⟨routine, placed, found⟩ := document_plain compiled (by rintro ⟨_, ⟨⟩⟩) only
  obtain ⟨expression, block, rfl, taken, documentOf⟩ :=
    documentOf_compile compiled extended given placed
  have account := account_plain polls found host
  rw [account] at within ⊢
  have gathers := documentOf.gathers escape callables uncancelled free meanwhile others there
    unhit _ [] .start within
  cases rendered : ((Occasion.mk whole own others).account id there).drained.toText with
  | ok text =>
    obtain ⟨made, begun, after, goesOn⟩ := gathers.completes text rendered
    refine (congrArg (fun account => Drained.toText account.drained) (goesOn _)).trans ?_
    rw [Account.toText_afterAll]
    exact (identity expression taken).worked polls _ _ made text 0 _ after
  | error error =>
    obtain ⟨after, ends⟩ := gathers.fails error rendered
    exact congrArg (fun account => Drained.toText account.drained) (ends _)

end Compiled

/-- In a document that is rendered directly, the text of a transform is what its block is rendered
to as a document of its own, and what is around the transform depends on nothing but what comes of
this text.  A document of a single transform that gives back the text is rendered to the text. -/
theorem transforms_stand_apart {interpretation : Interpretation σ} {documents more : List Document}
    {program whole : Program σ}
    (compiled : Program.compile interpretation documents = .ok program)
    (extended : Program.compile interpretation (documents ++ more) = .ok whole) {id : DocId}
    {body : Document} (given : (documents ++ more)[id.index]? = some body)
    (callables : ∀ occurrence ∈ whole.occurrences,
      occurrence.expression.callable.Blind fun _ _ => True)
    (options own : Render.Options σ) (escape : own.escape = options.escape)
    (uncancelled : options.isCancelled = none) (free : own.isCancelled = none)
    (meanwhile others : Nat → σ → σ) (there : σ)
    (unhit : ¬((Occasion.mk whole own others).account id there).AtLimit) :
    let occasion := Occasion.mk program options meanwhile
    let direct := (Occasion.mk whole own others).account id there
    (Occasion.mk whole own others).Tells id there direct ∧
      (∀ fragment names routine, Program.compileNode interpretation documents.length names
          (.transform fragment body) = .ok routine →
        ∃ expression block, routine = .transform expression block ∧
          Program.compileFragment interpretation ([Program.blockName] :: names) fragment =
            .ok expression ∧
          occasion.Transforms expression block direct) ∧
      ∀ fragment main source,
        documents[main.index]? = some [.line (.plain (.transform fragment body) source)] →
        (∀ expression, Program.compileFragment interpretation [[Program.blockName]] fragment =
          .ok expression → expression.GivesBack) →
        ∀ host, ¬(occasion.account main host).AtLimit →
          (occasion.account main host).drained.toText = direct.drained.toText ∧
            occasion.Tells main host (occasion.account main host) := by
  intro occasion direct
  refine ⟨Occasion.account_tells _ _ _, fun fragment names routine placed => ?_,
    fun fragment main source only identity host within => ⟨?_, Occasion.account_tells _ _ _⟩⟩
  · obtain ⟨expression, block, rfl, taken, documentOf⟩ :=
      documentOf_compile compiled extended given placed
    refine ⟨expression, block, rfl, taken, ?_, ?_, ?_⟩
    · intro setting scope progress
      exact Program.transform_flow setting scope progress expression block
    · intro frames progress
      exact Program.gatheredBlock_unnoticed _ _ progress block
    intro frames progress answered standing host gathered within
    rw [← bind_pure gathered] at within
    exact documentOf.gathers escape callables uncancelled free meanwhile others there unhit _
      frames progress within
  · exact account_identity compiled extended given callables options own escape uncancelled free
      meanwhile others there unhit only identity host within

/-- A text over several lines, with a loop in it. -/
def framedLines : Document :=
  let line (node : Template.Node) (indentation : String) : Template.Node :=
    .line ⟨[node], false, "", some indentation⟩
  [line (.literal "b") "  ", .line (.newline "\n"),
    line (.loop "n" none ⟨"names", []⟩ (some ",")
      [.line (.plain (.expression .normal ⟨"n", ["n"]⟩) "")] []) "- "]

/-- A transform behind other output on an indented line, and another one that is alone. -/
def framedTemplates : List Document :=
  let transform : Template.Node := .transform ⟨"__block", ["__block"]⟩ framedLines
  [[.line ⟨[.literal "x", transform], false, "", some "> "⟩], [.line (.plain transform "")]]

def framedScript : Script :=
  ⟨false, [⟨"names", .const (.list [.text "a", .text "c"]), []⟩], []⟩

theorem framed_stands_apart : ∃ program whole : Program Script.State,
    Program.compile framedScript.interpretation framedTemplates = .ok program ∧
    Program.compile framedScript.interpretation (framedTemplates ++ [framedLines]) = .ok whole ∧
    let occasion : Occasion Script.State :=
      ⟨program, { maxIterations := some 2 }, fun _ host => host⟩
    let direct := (Occasion.mk whole {} fun _ host => host).account ⟨2⟩ .start
    direct.drained.chunks = ["  ", "b", "\n", "- ", "a", ",", "c"] ∧
      (occasion.account ⟨0⟩ .start).drained.chunks = ["> ", "x", "  b\n- a,c"] ∧
      (∃ expression block, occasion.Transforms expression block direct) ∧
      (occasion.account ⟨1⟩ .start).drained.toText = direct.drained.toText := by
  refine ⟨_, _, rfl, rfl, ?_⟩
  intro occasion direct
  have compiled : Program.compile framedScript.interpretation framedTemplates =
    .ok occasion.program := rfl
  have extended : Program.compile framedScript.interpretation (framedTemplates ++ [framedLines]) =
    .ok _ := rfl
  have plain : ∀ entry ∈ framedScript.entries, entry.body.isPlain := by decide
  have callables := Script.callables_blind plain extended fun _ _ => True
  have unhit : ¬direct.AtLimit := by decide +kernel
  have within : ¬(occasion.account ⟨1⟩ .start).AtLimit := by decide +kernel
  obtain ⟨-, apart, identity⟩ := transforms_stand_apart compiled extended rfl callables
    { maxIterations := some 2 } {} rfl rfl rfl (fun _ host => host) (fun _ host => host) .start
    unhit
  refine ⟨by decide +kernel, by decide +kernel, ?_, ?_⟩
  · obtain ⟨expression, block, -, -, transforms⟩ := apart ⟨"__block", ["__block"]⟩ [] _ rfl
    exact ⟨expression, block, transforms⟩
  · refine (identity ⟨"__block", ["__block"]⟩ ⟨1⟩ "" rfl ?_ .start within).1
    intro expression taken
    have read : Program.compileFragment framedScript.interpretation [[Program.blockName]]
        ⟨"__block", ["__block"]⟩ = .ok (.read "__block" ⟨0, 0⟩) := rfl
    rw [read] at taken
    cases taken
    exact fun scope text host => ⟨⟨[("__block", .text text)]⟩, host, rfl, rfl⟩

end Stencil
