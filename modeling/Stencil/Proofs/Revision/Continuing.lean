import Stencil.Proofs.Revision.Documents

/-! # Later lines

What a document has put out and called at the end of some of its lines does not depend on the lines
behind them.  No chunk is held back for them and none is taken back.
-/

namespace Stencil

open Eager (Occasion Surroundings)
open Host (Interpretation)
open Template (Document Reaches includesOf)

variable {σ α β γ : Type}

/-- The second flow does what the first one does, and then anything. -/
inductive Flow.ContinuedBy : Flow σ α → Flow σ β → Prop where
  | finish (result : α) (other : Flow σ β) : ContinuedBy (.finish result) other
  | fail (error : RenderError) : ContinuedBy (.fail error) (.fail error)
  | bottomless : ContinuedBy .bottomless .bottomless
  | emit {chunk : String} {resume : Bool → Flow σ α} {follow : Bool → Flow σ β} :
      (∀ atStart, ContinuedBy (resume atStart) (follow atStart)) →
      ContinuedBy (.emit chunk resume) (.emit chunk follow)
  | call {callable : Host.Callable σ} {invocation : Invocation} {resume : Value → Flow σ α}
      {follow : Value → Flow σ β} :
      (∀ value, ContinuedBy (resume value) (follow value)) →
      ContinuedBy (.call callable invocation resume) (.call callable invocation follow)
  | round {resume : Unit → Flow σ α} {follow : Unit → Flow σ β} :
      (∀ go, ContinuedBy (resume go) (follow go)) → ContinuedBy (.round resume) (.round follow)
  | poll {resume : Unit → Flow σ α} {follow : Unit → Flow σ β} :
      (∀ go, ContinuedBy (resume go) (follow go)) → ContinuedBy (.poll resume) (.poll follow)

theorem Flow.ContinuedBy.after (flow : Flow σ γ) {next : γ → Flow σ α} {follow : γ → Flow σ β}
    (continued : ∀ result, ContinuedBy (next result) (follow result)) :
    ContinuedBy (flow >>= next) (flow >>= follow) := by
  induction flow with
  | finish result => exact continued result
  | fail error => exact .fail error
  | bottomless => exact .bottomless
  | emit _ _ ih => exact .emit ih
  | call _ _ _ ih => exact .call ih
  | round _ ih => exact .round ih
  | poll _ ih => exact .poll ih

/-- What happened up to the end of a rendering is the beginning of what happened in another one,
which is the same if there was no such end. -/
structure Account.ContinuedBy (one other : Account σ) : Prop where
  complete : one.ending = .complete → one.entries <+: other.entries
  stopped : one.ending ≠ .complete → other = one

namespace Account.ContinuedBy

variable {one other : Account σ}

theorem refl (account : Account σ) : Account.ContinuedBy account account :=
  ⟨fun _ => List.prefix_rfl, fun _ => rfl⟩

theorem after (entry : Entry σ) (continued : Account.ContinuedBy one other) :
    Account.ContinuedBy (one.after entry) (other.after entry) where
  complete ended := (List.prefix_cons_inj entry).2 (continued.complete ended)
  stopped ended := congrArg (Account.after entry) (continued.stopped ended)

end Account.ContinuedBy

theorem Flow.ContinuedBy.account {flow : Flow σ α} {other : Flow σ β}
    (continued : Flow.ContinuedBy flow other) (around : Surroundings σ) (answered : Nat)
    (standing : Standing) (host : σ) :
    Account.ContinuedBy (flow.account around answered standing host)
      (other.account around answered standing host) := by
  induction continued generalizing answered standing host with
  | finish => exact ⟨fun _ => List.nil_prefix, fun ended => absurd rfl ended⟩
  | fail | bottomless => exact .refl _
  | emit _ ih =>
    simp only [Flow.account]
    split
    · split
      · exact .refl _
      · exact ih _ _ _ _
    · refine .after _ ?_
      split
      · exact .refl _
      · exact ih _ _ _ _
  | @call callable invocation _ _ _ ih =>
    simp only [Flow.account]
    rcases (callable.run invocation.bindings).run host with ⟨outcome, host⟩
    cases outcome with
    | ok value => exact .after _ (ih value _ _ _)
    | error error => exact .refl _
  | round _ ih =>
    simp only [Flow.account]
    cases standing.afterRound around.toLimits with
    | ok standing => exact ih () _ _ _
    | error error => exact .refl _
  | poll _ ih =>
    simp only [Flow.account]
    split
    · exact .refl _
    · exact ih () _ _ _

theorem Lexical.blockFlow_continued {interpretation : Interpretation σ} {absent : RenderError}
    (setting : Setting σ) (context : Context (SectionFlow σ)) (environment : Environment)
    (hasContent : Bool) (progress : Progress) (lines more : List Template.Node) :
    Flow.ContinuedBy
      (blockFlow interpretation absent setting context environment hasContent progress lines)
      (blockFlow interpretation absent setting context environment hasContent progress
        (lines ++ more)) := by
  induction lines generalizing hasContent progress with
  | nil => exact .finish _ _
  | cons node lines ih =>
    cases node with
    | line line => exact .after _ fun result => ih _ _
    | _ => exact .fail absent

theorem Account.Revised.eq_of_unchanged {one other : Account σ}
    (revised : Account.Revised .unchanged one other) : one = other := by
  obtain ⟨entries, ending, host⟩ := one
  obtain ⟨others, _, _⟩ := other
  obtain ⟨revised, rfl, rfl⟩ := revised
  exact congrArg (Account.mk · ending host) (revised.eq nofun nofun not_false)

section Documents

variable {interpretation : Interpretation σ} {documents : List Document} {id : DocId}
  {lines more : Document}

/-- The earlier lines do the same in both programs, whatever the later ones include. -/
theorem flow_continued (absent : RenderError) (given : documents[id.index]? = some lines)
    (untargeted : ∀ document ∈ documents, ∀ inclusion ∈ includesOf document,
      inclusion.target ≠ id)
    (options : Render.Options σ) :
    ∃ earlier : Flow σ Progress,
      Flow.Revised .unchanged (Progress.Revised (@Revision.unchanged σ))
        (Lexical.flow interpretation absent documents options id) earlier ∧
      Flow.ContinuedBy earlier (Lexical.flow interpretation absent
        (documents.set id.index (lines ++ more)) options id) := by
  let setting (documents : List Document) : Setting σ :=
    ⟨options.escape, Lexical.entrance interpretation absent documents options
      (options.maxIncludeDepth.getD Program.horizon)⟩
  let others := documents.set id.index (lines ++ more)
  have apart : ∀ inclusion, Reaches documents id inclusion → inclusion.target ≠ id := by
    intro inclusion reached
    cases reached with
    | direct found member | further _ found member =>
      exact untargeted _ (List.mem_of_getElem? found) inclusion member
  have entered : ∀ inclusion, Reaches documents id inclusion →
      Entrance.Revised .unchanged inclusion.supplied
        ((setting documents).enter inclusion.target) ((setting others).enter inclusion.target) :=
    entrance_revised (fun inclusion reached => document_kept _ (apart inclusion reached)
      (fun _ found _ member => .further reached found member) _) options _
  let versions : Versions interpretation absent .unchanged (Reaches documents id) :=
    ⟨setting documents, setting others, .root, .root, rfl, entered, Context.revised_root⟩
  have same := versions.block_same lines (fun _ member => .direct given member) [] false .start
    .start .nil
  have inside := (List.getElem?_eq_some_iff.1 given).1
  simp only [Lexical.flow, List.getElem?_set_self inside, given]
  exact ⟨_, same, Lexical.blockFlow_continued ..⟩

end Documents

/-- Lines can be put behind those of a document that no include targets.  On every host and
occasion and with all options, what happens up to the end of the earlier lines, chunks and calls in
their order, is the beginning of what happens then; and if a rendering does not come to that end,
the other one is the same. -/
theorem later_lines_continue {interpretation : Interpretation σ} {documents : List Document}
    {program longer : Program σ}
    (compiled : Program.compile interpretation documents = .ok program) {id : DocId}
    {lines more : Document} (given : documents[id.index]? = some lines)
    (again : Program.compile interpretation (documents.set id.index (lines ++ more)) =
      .ok longer)
    (untargeted : ∀ document ∈ documents, ∀ inclusion ∈ includesOf document,
      inclusion.target ≠ id)
    (options : Render.Options σ) (meanwhile : Nat → σ → σ) (host : σ) :
    let before := (Occasion.mk program options meanwhile).account id host
    let whole := (Occasion.mk longer options meanwhile).account id host
    (before.ending = .complete → before.entries <+: whole.entries) ∧
      (before.ending ≠ .complete → whole = before) ∧
      (Occasion.mk program options meanwhile).Tells id host before ∧
      (Occasion.mk longer options meanwhile).Tells id host whole := by
  obtain ⟨earlier, revised, continued⟩ :=
    flow_continued (.unboundName "") given untargeted options
  rw [← compiled_flow compiled] at revised
  rw [← compiled_flow again] at continued
  let around := (Occasion.mk program options meanwhile).around
  -- Both can be cancelled at their beginning.
  have same : (Occasion.mk program options meanwhile).account id host =
      (Flow.poll fun _ => earlier).account around 0 .start host :=
    ((Flow.Revised.poll fun _ => revised).account ⟨nofun, nofun, nofun⟩ (.inr rfl) (.refl _)
      host).eq_of_unchanged
  obtain ⟨complete, stopped⟩ := (Flow.ContinuedBy.poll fun _ => continued).account around 0 .start
    host
  rw [← same] at complete stopped
  exact ⟨complete, stopped, Occasion.account_tells _ _ _, Occasion.account_tells _ _ _⟩

/-- A line that supplies a section to a layout, a newline without content and one with it. -/
def earlierLines : Document :=
  let one : Template.Node := .line ⟨[.literal "one"], false, "", some "  "⟩
  [.line ⟨[.inclusion ⟨1⟩ [] [⟨"body", [one]⟩]], false, "", none⟩,
    .line ⟨[.expression .effect ⟨"pair", []⟩], true, "\n", none⟩, .line (.newline "\n")]

def laterLines : Document :=
  [.line ⟨[.loop "x" none ⟨"pair", []⟩ (some ", ")
    [.line ⟨[.literal "two"], false, "", none⟩] []], false, "", some "  "⟩]

/-- The account of the earlier lines with others behind them. -/
def linesAccount (more : Document) : Option (Account Unit) :=
  (Program.compile pairInterpretation
    [earlierLines ++ more, [.line ⟨[.slot "body"], false, "", none⟩]]).toOption.map fun program =>
      (Occasion.mk program {} fun _ host => host).account ⟨0⟩ ()

theorem two_behind_one :
    let before := linesAccount []
    let whole := linesAccount laterLines
    before.map (fun account => account.drained.chunks) = some ["  ", "one", "\n"] ∧
      whole.map (fun account => account.drained.chunks) =
        some ["  ", "one", "\n", "  ", "two", ", ", "two"] ∧
      Option.Rel (fun one all => one.entries <+: all.entries) before whole := by
  let layout : Document := [.line ⟨[.slot "body"], false, "", none⟩]
  obtain ⟨program, compiled⟩ : ∃ program,
    Program.compile pairInterpretation [earlierLines, layout] = .ok program := ⟨_, rfl⟩
  obtain ⟨longer, again⟩ : ∃ longer, Program.compile pairInterpretation
    [earlierLines ++ laterLines, layout] = .ok longer := ⟨_, rfl⟩
  have given : [earlierLines, layout][(DocId.mk 0).index]? = some earlierLines := rfl
  obtain ⟨complete, -⟩ := later_lines_continue compiled given again (by decide) {}
    (fun _ host => host) ()
  have ended : (linesAccount []).map Account.ending = some .complete := by decide +kernel
  have before : linesAccount [] =
      some ((Occasion.mk program {} fun _ host => host).account ⟨0⟩ ()) := by
    rw [linesAccount, List.append_nil, compiled]
    rfl
  have whole : linesAccount laterLines =
      some ((Occasion.mk longer {} fun _ host => host).account ⟨0⟩ ()) := by
    rw [linesAccount, again]
    rfl
  refine ⟨by decide +kernel, by decide +kernel, ?_⟩
  rw [before] at ended
  rw [before, whole]
  exact .some (complete (Option.some.inj ended))

end Stencil
