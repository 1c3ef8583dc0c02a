import Stencil.Proofs.Apart.Forwards
import Stencil.Proofs.Apart.Scripts
import Stencil.Proofs.Eager.Simulation
import Stencil.Proofs.Transparency.Selection

/-! # Included documents

A document that is included without sections is rendered as it would be from any other place at the
same depth.  Of the document around it, it has nothing but the forwarded values.  And when it ends,
the rendering of that document is where it was before.
-/

namespace Stencil

open Eager (Occasion Surroundings)
open Program (Expression Section)

variable {σ α β : Type}

/-! ## The same flow with another result -/

/-- An account does not tell what a flow comes to. -/
theorem Flow.account_map (give : α → β) (flow : Flow σ α) (around : Surroundings σ)
    (answered : Nat) (standing : Standing) (host : σ) :
    (give <$> flow).account around answered standing host =
      flow.account around answered standing host := by
  have same : ExtendedBy (fun _ => False) (fun _ _ => True) (flow >>= fun result => pure result)
      (flow >>= fun result => pure (give result)) := .after flow fun _ => .finish True.intro
  rw [bind_pure, ← map_eq_pure_bind] at same
  exact ((same.account around answered standing host).resolve_left id).symm

/-! ## The expressions of an include -/

/-- On a host all named expressions have values, one after another as the entries tell. -/
inductive Evaluates (scope : Scope β) : List (String × Expression σ) → σ → List (Entry σ) →
    List (String × Value) → σ → Prop where
  | none {host : σ} : Evaluates scope [] host [] [] host
  | next {name : String} {expression : Expression σ} {rest : List (String × Expression σ)}
      {bindings : Host.Bindings} {value : Value} {host middle after : σ} {entries : List (Entry σ)}
      {values : List (String × Value)} :
      expression.bindings scope = .ok bindings →
      (expression.callable.run bindings).run host = (.ok value, middle) →
      Evaluates scope rest middle entries values after →
      Evaluates scope ((name, expression) :: rest) host
        (.call expression.callable ⟨expression.source, bindings⟩ (.ok value) :: entries)
        ((name, value) :: values) after

theorem Evaluates.account {scope : Scope β} {forwards : List (String × Expression σ)}
    {host after : σ} {entries : List (Entry σ)} {values : List (String × Value)}
    (evaluates : Evaluates scope forwards host entries values after)
    (next : List (String × Value) → Flow σ α) (around : Surroundings σ) (answered : Nat)
    (standing : Standing) :
    (Expression.evaluateAll scope forwards >>= next).account around answered standing host =
      ((next values).account around answered standing after).afterAll entries := by
  -- What comes after the first expression is the rest of them, and then what comes after all.
  induction evaluates generalizing next with
  | none => rfl
  | @next name expression rest bindings value _ _ _ _ _ bound ran _ ih =>
    have later := ih fun values => next ((name, value) :: values)
    rw [Expression.evaluateAll, Expression.evaluate, bound, LawfulMonad.bind_assoc]
    change (Flow.call expression.callable ⟨expression.source, bindings⟩ fun value =>
      (Expression.evaluateAll scope rest >>= fun values => pure ((name, value) :: values)) >>=
        next).account around answered standing _ = _
    simp only [Flow.account, ran, LawfulMonad.bind_assoc, LawfulMonad.pure_bind, later]
    rfl

/-! ## How an include goes on -/

namespace Eager.Occasion

def includes (occasion : Occasion σ) (scope : Scope (SectionFlow σ)) (target : DocId)
    (forwards : List (String × Expression σ)) (sections : List (Section σ)) (progress : Progress) :
    Flow σ Progress :=
  Program.routineFlow (occasion.settingAt scope.context.depth) scope progress
    (.inclusion target forwards sections)

/-- What an include comes to once its expressions have these values, if its document can be
entered. -/
def included (occasion : Occasion σ) (scope : Scope (SectionFlow σ)) (target : DocId)
    (sections : List (Section σ)) (values : List (String × Value)) (progress : Progress) :
    Flow σ Progress :=
  let setting := occasion.settingAt scope.context.depth
  match setting.enter target with
  | .admitted render => do
    let context := scope.context.within values (Program.sectionFlows setting scope sections)
    let progress ← render (.root context) (progress.enter [])
    return progress.leave
  | .refused error => .fail error
  | .bottomless => .bottomless

variable {occasion : Occasion σ} {scope one other : Scope (SectionFlow σ)} {target : DocId}
  {sections : List (Section σ)} {forwards : List (String × Expression σ)}
  {values : List (String × Value)} {progress later : Progress}

/-- If the document cannot be entered, no expression is evaluated. -/
theorem includes_eq (occasion : Occasion σ) (scope : Scope (SectionFlow σ)) (target : DocId)
    (forwards : List (String × Expression σ)) (sections : List (Section σ)) (progress : Progress) :
    occasion.includes scope target forwards sections progress =
      match occasion.access scope.context.depth target with
      | .ok _ => Expression.evaluateAll scope forwards >>= fun values =>
          occasion.included scope target sections values progress
      | .error _ => occasion.included scope target sections [] progress := by
  simp only [includes, included, Program.routineFlow, occasion.enter_settingAt]
  cases occasion.access scope.context.depth target with
  | ok block => rfl
  | error stop => cases stop <;> rfl

/-- Forwarded values that the document does not read make no difference. -/
theorem included_agree {others : List (String × Value)}
    (agree : AgreeOn (occasion.program.takes target) values others)
    (scope : Scope (SectionFlow σ)) (sections : List (Section σ)) (progress : Progress) :
    occasion.included scope target sections values progress =
      occasion.included scope target sections others progress := by
  simp only [included, occasion.enter_settingAt]
  cases admitted : occasion.access scope.context.depth target with
  | error stop => cases stop <;> rfl
  | ok block =>
    obtain ⟨-, found⟩ := Occasion.access_ok admitted
    simp only [Program.block_agree found agree]

section Apart

variable {interpretation : Host.Interpretation σ} {documents : List Template.Document}
  (compiled : Program.compile interpretation documents = .ok occasion.program)
include compiled

theorem entersAlike (outer around : List Recordings) (levels : Nat) :
    EntersAlike (fun _ => False) outer around occasion.program.size
      (occasion.program.entrance occasion.options levels)
      (occasion.program.entrance occasion.options levels) := by
  have partOf : occasion.program.PartOf occasion.program := ⟨fun _ _ => rfl, aims_program compiled⟩
  have bottom : EntersAlike (fun _ => False) outer around occasion.program.size
      (occasion.program.entrance occasion.options 0)
      (occasion.program.entrance occasion.options 0) := Program.entrance_bottom _
  have entered := Program.entrance_extended partOf rfl 0 bottom levels
  rwa [Nat.zero_add] at entered

/-- Without sections an include comes to the same from every place at some depth, and leaves the
progress of the document there as it is. -/
theorem included_apart (depths : one.context.depth = other.context.depth) :
    occasion.included other target [] values later =
      (fun _ => later) <$> occasion.included one target [] values progress := by
  have extended : Flow.ExtendedBy (fun _ => False) (fun _ last => last = later)
      (occasion.included one target [] values progress)
      (occasion.included other target [] values later) := by
    simp only [included, occasion.enter_settingAt, ← depths]
    cases admitted : occasion.access one.context.depth target with
    | error stop =>
      cases stop with
      | failed error => exact .fail error
      | exhausted => exact .bottomless True.intro
    | ok block =>
      obtain ⟨-, found⟩ := Occasion.access_ok admitted
      have entered := entersAlike compiled progress.recordings later.recordings
        (occasion.greatestDepth - (one.context.depth + 1))
      have contexts : Context.ExtendedBy (fun _ => False) progress.recordings later.recordings 1
          (one.context.within values []) (other.context.within values []) := ⟨rfl, .nil⟩
      have aims : ∀ part ∈ Program.blockParts block, part.Aims occasion.program.size :=
        fun part member => aims_program compiled part
          (Program.parts_of_document found part member)
      -- On both sides nothing but the document itself is inside, and it has recorded nothing.
      refine .bind (Program.block_extended entered [] contexts false block aims _ _
        ⟨[[]], rfl, rfl, rfl⟩) fun inside outside beside => ?_
      obtain ⟨inner, none, -, same⟩ := beside.leave
      rw [List.eq_nil_of_length_eq_zero none] at same
      exact .finish (congrArg Progress.mk same)
  exact extended.eq_map fun _ _ same => same

end Apart

/-- If all callables of the program are blind, so is a document that is included without
sections. -/
theorem included_blind {alike : σ → σ → Prop}
    (callables : ∀ occurrence ∈ occasion.program.occurrences,
      occurrence.expression.callable.Blind alike) :
    (occasion.included scope target [] values progress).Blind alike := by
  have entered := Program.entrance_calls
    (fun occurrence stands => Program.occurrence_blind (callables occurrence stands))
    occasion.options (occasion.greatestDepth - scope.context.depth) target
  simp only [included, settingAt]
  revert entered
  cases occasion.program.entrance occasion.options
    (occasion.greatestDepth - scope.context.depth) target with
  | refused | bottomless => exact fun _ => True.intro
  | admitted render =>
    intro entered
    have supplied : (scope.context.within values ([] : List (String × SectionFlow σ))).Calls
        fun callable _ => callable.Blind alike := fun _ member => nomatch List.mem_reverse.1 member
    exact (entered _ supplied _).bind fun _ => True.intro

/-- Between two hosts an include evaluates its expressions as the entries tell, and then goes on
with a flow.  If its document cannot be entered, the flow is all that there is of it. -/
structure GoesOn (occasion : Occasion σ) (scope : Scope (SectionFlow σ)) (target : DocId)
    (forwards : List (String × Expression σ)) (progress : Progress) (host after : σ)
    (entries : List (Entry σ)) (flow : Flow σ Progress) : Prop where
  entered : ∀ block, occasion.access scope.context.depth target = .ok block →
    ∀ answered standing, (occasion.includes scope target forwards [] progress).account
        occasion.around answered standing host =
      (flow.account occasion.around answered standing after).afterAll entries
  refused : ∀ stop, occasion.access scope.context.depth target = .error stop →
    occasion.includes scope target forwards [] progress = flow

theorem GoesOn.of_evaluates {host after : σ} {entries : List (Entry σ)}
    (evaluates : Evaluates scope forwards host entries values after) (progress : Progress) :
    occasion.GoesOn scope target forwards progress host after entries
      (occasion.included scope target [] values progress) where
  entered block admitted answered standing := by
    rw [includes_eq, admitted]
    exact evaluates.account _ _ answered standing
  refused stop refused := by
    rw [includes_eq, refused, included, included, occasion.enter_settingAt, refused]
    cases stop <;> rfl

end Eager.Occasion

/-- A document that is included without sections is isolated from the document around it.  Let its
include stand in two scopes at the same depth, in which all of its expressions have values, of which
those that the document reads are the same on both sides.  Then it goes on with one and the same
flow, whatever else there is in the scopes and whatever has been rendered before, and leaves the
progress around it as it is.  If callables answer both hosts alike, the same chunks are put out, the
same calls are made with the same outcomes, and the ending is the same.

Of the forwarded values the last one under a name counts, though all expressions are evaluated.  It
is read by the bindings without an expression of the document itself: even with sections the
document comes to the same if all other values are changed. -/
theorem inclusions_isolated {interpretation : Host.Interpretation σ}
    {documents : List Template.Document} {occasion : Occasion σ}
    (compiled : Program.compile interpretation documents = .ok occasion.program)
    {alike : σ → σ → Prop} (callables : ∀ occurrence ∈ occasion.program.occurrences,
      occurrence.expression.callable.Blind alike)
    (blind : occasion.around.Blind alike) {target : DocId}
    {forwards : List (String × Expression σ)} {one other : Scope (SectionFlow σ)}
    (depths : one.context.depth = other.context.depth) {host first there second : σ}
    {entries others : List (Entry σ)} {values again : List (String × Value)}
    (evaluates : Evaluates one forwards host entries values first)
    (evaluatesAgain : Evaluates other forwards there others again second)
    (agree : AgreeOn (occasion.program.takes target) values again) (same : alike first second)
    (progress later : Progress) :
    let here := occasion.included one target [] values progress
    let elsewhere := occasion.included other target [] again later
    occasion.GoesOn one target forwards progress host first entries here ∧
      occasion.GoesOn other target forwards later there second others elsewhere ∧
      here = (fun _ => progress) <$> elsewhere ∧ elsewhere = (fun _ => later) <$> here ∧
      (∀ answered standing, (here.account occasion.around answered standing first).EqualUpTo alike
        (elsewhere.account occasion.around answered standing second)) ∧
      (∀ name value, IsLast values name value → ∀ frames sections,
        Program.boundValue ⟨frames, one.context.within values sections⟩ name none =
          (.finish value : Flow σ Value)) ∧
      ∀ sections, occasion.included one target sections values progress =
        occasion.included one target sections again progress := by
  intro here elsewhere
  -- First the other values are exchanged for these, and then the scope and the progress.
  have there : elsewhere = occasion.included other target [] values later :=
    (Occasion.included_agree agree other [] later).symm
  have moved : elsewhere = (fun _ => later) <$> here :=
    there.trans (Occasion.included_apart compiled depths)
  refine ⟨.of_evaluates evaluates progress, .of_evaluates evaluatesAgain later, ?_, moved, ?_, ?_,
    ?_⟩
  · rw [there]
    exact Occasion.included_apart compiled depths.symm
  · intro answered standing
    rw [moved, Flow.account_map]
    exact here.account_equal blind (Occasion.included_blind callables) answered standing same
  · intro name value last frames sections
    have found : (one.context.within values sections).forwarded? name = some value :=
      isLast_iff.1 last
    simp only [Program.boundValue, Context.forwarded, found]
    rfl
  · exact fun sections => Occasion.included_agree agree one sections progress

def overridingScript : Script :=
  ⟨false, [⟨"one", .const (.text "a"), []⟩, ⟨"two", .const (.text "last"), []⟩], []⟩

/-- A document that forwards two values under one name, and one that reads the name. -/
def overridingTemplates : List Template.Document :=
  let line (node : Template.Node) : Template.Node := .line (.plain node "")
  [[line (.binding "y" (some ⟨"one", []⟩) [line (.binding "z" (some ⟨"two", []⟩)
      [line (.inclusion ⟨1⟩ [("x", ⟨"y", ["y"]⟩), ("x", ⟨"z", ["z"]⟩)] [])])])],
    [line (.binding "x" none [line (.expression .normal ⟨"x", ["x"]⟩)])]]

def overridingExpressions : List (String × Expression Script.State) :=
  [("x", .read "y" ⟨1, 0⟩), ("x", .read "z" ⟨0, 0⟩)]

/-- The scope of the include, among other names and values around it. -/
def overridingScope (first : Value) (others : List Frame) (outer : List (String × Value)) :
    Scope (SectionFlow Script.State) :=
  ⟨[("z", .text "last")] :: [("y", first)] :: others, ⟨0, outer, []⟩⟩

/-- Only values that are not read are different: the one that is forwarded first, and those that are
not forwarded at all. -/
theorem overridden_isolated : ∃ program : Program Script.State,
    Program.compile overridingScript.interpretation overridingTemplates = .ok program ∧
    .routine (.inclusion ⟨1⟩ overridingExpressions []) ∈ program.parts ∧
    let occasion : Occasion Script.State := ⟨program, {}, fun _ host => host⟩
    let one := overridingScope (.text "a") [] [("x", .text "b")]
    let other := overridingScope (.text "c") [[("x", .text "d")]] []
    let here := occasion.included one ⟨1⟩ [] [("x", .text "a"), ("x", .text "last")] .start
    let elsewhere := occasion.included other ⟨1⟩ [] [("x", .text "c"), ("x", .text "last")] ⟨[[]]⟩
    let entries (first : Value) : List (Entry Script.State) :=
      [.call (.read "y") ⟨"y", ⟨[("y", first)]⟩⟩ (.ok first),
        .call (.read "z") ⟨"z", ⟨[("z", .text "last")]⟩⟩ (.ok (.text "last"))]
    occasion.GoesOn one ⟨1⟩ overridingExpressions .start .start .start (entries (.text "a")) here ∧
      occasion.GoesOn other ⟨1⟩ overridingExpressions ⟨[[]]⟩ .start .start (entries (.text "c"))
        elsewhere ∧
      here = (fun _ => .start) <$> elsewhere ∧
      (here.account occasion.around 0 .start .start).drained.chunks = ["last"] := by
  refine ⟨_, rfl, @List.mem_of_getElem? _ _ 5 _ rfl, ?_⟩
  intro occasion one other here elsewhere entries
  have compiled : Program.compile overridingScript.interpretation overridingTemplates =
      .ok occasion.program := rfl
  have plain : ∀ entry ∈ overridingScript.entries, entry.body.isPlain := by decide
  have callables := Script.callables_blind plain compiled fun _ _ => True
  have blind : occasion.around.Blind fun _ _ => True :=
    ⟨fun _ _ _ => rfl, fun _ _ _ _ => True.intro⟩
  have evaluates (first : Value) (others : List Frame) (outer : List (String × Value)) :
      Evaluates (overridingScope first others outer) overridingExpressions .start (entries first)
        [("x", first), ("x", .text "last")] .start :=
    .next rfl rfl (.next rfl rfl .none)
  have agree : AgreeOn (occasion.program.takes ⟨1⟩) [("x", .text "a"), ("x", .text "last")]
      [("x", .text "c"), ("x", .text "last")] :=
    agreeOn_iff.2 (List.forall_mem_singleton.2 rfl)
  have depths : one.context.depth = other.context.depth := rfl
  obtain ⟨here, there, same, -⟩ := inclusions_isolated compiled callables blind depths
    (evaluates _ _ _) (evaluates _ _ _) agree True.intro .start ⟨[[]]⟩
  exact ⟨here, there, same, by decide +kernel⟩

end Stencil
