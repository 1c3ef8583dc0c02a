import Stencil.Proofs.Revision.Constants
import Stencil.Proofs.Revision.Pieces
import Stencil.Proofs.Transparency.Distilled

/-! # Unrolled loops

A loop over a constant list does what its body does with the name bound to each element in turn.
A round has a frame of its own, is counted, and is asked whether it has had content; without a
position, a separator and a limit nothing of this is noticed.
-/

namespace Stencil

open Eager (Occasion)
open Host (Interpretation)
open Template (Document Fragment Include Spot Path)

variable {σ : Type} {interpretation : Interpretation σ}

/-- What may take the place of a loop over a constant: bindings to its elements, or the choice of
the fallback.  The fragment of the loop is evaluated no longer, and those of the others instead. -/
inductive Unrolled (interpretation : Interpretation σ) :
    Template.Node → List Template.Node → List Fragment → List Fragment → Prop where
  | rounds (item : String) {iterable : Fragment} (body fallback : List Template.Node)
      {elements : List Value} {fragments : List Fragment} :
      Constant interpretation iterable (.list elements) → elements ≠ [] →
      List.Forall₂ (Constant interpretation) fragments elements →
      Unrolled interpretation (.loop item none iterable none body fallback)
        (fragments.map fun fragment => .binding item (some fragment) body) [iterable] fragments
  | fallback (item : String) (index : Option String) {iterable condition : Fragment}
      (separator : Option String) (body : List Template.Node) {value : Value}
      {selected otherwise : List Template.Node} :
      Constant interpretation iterable (.list []) → Constant interpretation condition value →
      Unrolled interpretation
        (.loop item index iterable separator body
          (if value.isTruthy then selected else otherwise))
        [.choice condition selected otherwise] [iterable] [condition]

/-- Without a separator a round may be asked whether it has content. -/
theorem Flow.Revised.asked {α β : Type} {revision : Revision σ} {results : α → β → Prop}
    {flow : Flow σ α} {other : Flow σ β} (revised : Flow.Revised revision results flow other)
    (hasContent : Bool) :
    Flow.Revised revision (fun one two => results one.1 two) (flow.joined none hasContent)
      other := by
  rw [← bind_pure (flow.joined none hasContent), ← Flow.fst_joined other hasContent,
    map_eq_pure_bind]
  exact (revised.joined none hasContent).bind fun _ _ same => .finish same.1

section Flows

variable {absent : RenderError} {reached : Include → Prop} {dropped added : List Fragment}
  {versions : Versions interpretation absent (.constants interpretation dropped added True) reached}
  {environment : Lexical.Environment} {size : Nat}

/-- The rounds, one binding after another. -/
theorem rounds_unrolled (item : String) {body : List Template.Node}
    (inner : ∀ value, versions.Block ((item, value) :: environment) body body)
    {fragments : List Fragment} {elements : List Value}
    (constants : List.Forall₂ (Constant interpretation) fragments elements)
    (fits : ∀ fragment ∈ fragments, Program.ChildFits interpretation size
      (environment.map Prod.fst) (.binding item (some fragment) body))
    (own : ∀ fragment ∈ fragments, fragment ∈ added) (position : Nat) (hasContent : Bool) :
    SectionFlow.Revised (.constants interpretation dropped added True)
      (Flow.rounds none (fun position element progress => Lexical.blockFlow interpretation absent
        versions.one versions.context (loopFrame item none position element ++ environment) false
        progress body) position hasContent elements)
      fun progress => Lexical.childrenFlow interpretation absent versions.other versions.within
        environment progress
        (fragments.map fun fragment => .binding item (some fragment) body) := by
  induction constants generalizing position hasContent with
  | nil => exact fun _ _ alike => .finish alike
  | @cons fragment element _ _ constant _ ih =>
    obtain ⟨here, fits⟩ := List.forall_mem_cons.1 fits
    obtain ⟨member, own⟩ := List.forall_mem_cons.1 own
    obtain _ | _ | _ | _ | ⟨readable, -⟩ := here
    intro progress later alike
    have kept : ¬∃ part, Template.Node.binding item (some fragment) body = .stray part := by
      rintro ⟨_, ⟨⟩⟩
    simp only [List.map_cons, Lexical.childrenFlow_cons kept, Lexical.nodeFlow,
      Lexical.boundValue, bind_assoc]
    refine .unroll True.intro (.addConstant constant (readable _ rfl).bound member ?_)
    rw [ite_self]
    refine ((inner element false _ _ alike).asked false).bind ?_
    rintro ⟨progress, content⟩ later alike
    exact ih fits own (position + 1) (hasContent || content) _ _ alike

theorem Unrolled.children {node : Template.Node} {nodes : List Template.Node}
    (unrolled : Unrolled interpretation node nodes dropped added)
    (fits : Program.ChildFits interpretation size (environment.map Prod.fst) node)
    (others : ∀ node ∈ nodes,
      Program.ChildFits interpretation size (environment.map Prod.fst) node)
    (known : ∀ inclusion ∈ Template.includesOf [node], reached inclusion) :
    versions.Children environment [node] nodes := by
  simp only [Template.includesOf, List.append_nil] at known
  cases unrolled with
  | @rounds item iterable body fallback elements fragments constant nonempty constants =>
    obtain _ | _ | _ | _ | _ | _ | ⟨readable, -, -⟩ := fits
    obtain ⟨here, -⟩ := List.forall_mem_append.1 known
    intro progress later alike
    have kept : ¬∃ part, Template.Node.loop item none iterable none body fallback =
        .stray part := by
      rintro ⟨_, ⟨⟩⟩
    simp only [Lexical.childrenFlow_cons kept, Lexical.nodeFlow, bind_assoc]
    refine .dropConstant constant readable.bound (List.mem_singleton_self _) ?_
    obtain ⟨element, rest, rfl⟩ := List.exists_cons_of_ne_nil nonempty
    have rounds := rounds_unrolled item (fun value => versions.block_same body here _) constants
      (List.forall_mem_map.1 others) (fun _ member => member) 0 false _ _ alike
    -- Behind the rounds there are no further children.
    exact (congrArg (Flow.Revised _ _ · _) (Flow.bind_finish _)).mpr rounds
  | @fallback item index iterable condition separator body value selected otherwise empty
      constant =>
    obtain _ | _ | _ | _ | _ | _ | ⟨readable, -, -⟩ := fits
    obtain _ | _ | _ | _ | _ | ⟨chosen, -, -⟩ := List.forall_mem_singleton.1 others
    obtain ⟨-, here⟩ := List.forall_mem_append.1 known
    refine .single (by rintro ⟨_, ⟨⟩⟩) (by rintro ⟨_, ⟨⟩⟩) fun progress later alike => ?_
    simp only [Lexical.nodeFlow]
    refine .dropConstant empty readable.bound (List.mem_singleton_self _) ?_
    refine .addConstant constant chosen.bound (List.mem_singleton_self _) ?_
    have same := versions.block_same _ here environment false _ _ alike
    cases truthy : value.isTruthy <;> rw [truthy] at same <;> exact same

end Flows

/-- Wherever a loop over a constant stands that has neither a position nor a separator, bindings of
its name to constants with the values of its elements, one after another around its body, may take
its place, if no limit is set to the rounds.  On every host and occasion there are the same chunks
and the same ending; and the calls are the same in the same order, but for those of the list and of
its elements.  A choice that selects the fallback may take the place of any loop over the empty
list. -/
theorem loop_unrolled {documents : List Document} {program other : Program σ}
    (compiled : Program.compile interpretation documents = .ok program) {place : DocId}
    {path : Path} {spot : Spot} {loop : Template.Node} {nodes : List Template.Node}
    (given : documents[place.index]? = some (path.fill (spot.fill [loop])))
    (again : Program.compile interpretation
      (documents.set place.index (path.fill (spot.fill nodes))) = .ok other)
    {dropped added : List Fragment}
    (unrolled : Unrolled interpretation loop nodes dropped added) (id : DocId)
    (options : Render.Options σ) (unlimited : options.maxIterations = none)
    (meanwhile : Nat → σ → σ) (host : σ) :
    let before := (Occasion.mk program options meanwhile).account id host
    let after := (Occasion.mk other options meanwhile).account id host
    Account.Revised (.constants interpretation dropped added True) before after ∧
      after.drained.chunks = before.drained.chunks ∧
      (Occasion.mk program options meanwhile).Tells id host before ∧
      (Occasion.mk other options meanwhile).Tells id host after := by
  have revised := account_revised compiled given again id
    (fun versions _ _ fits others known => .spot spot known fun inside => unrolled.children
      (List.forall_mem_singleton.1 (Spot.fits fits).1) (Spot.fits others).1 inside)
    options meanwhile ⟨fun _ => unlimited, nofun, nofun⟩ host
  exact ⟨revised, revised.entries.chunks .complete host not_false, Occasion.account_tells _ _ _,
    Occasion.account_tells _ _ _⟩

/-- A fragment with a name reads it; any other one is its own text, a pair of texts or an empty
list. -/
def letterInterpretation : Interpretation Unit
  | ⟨_, [name]⟩ => .ok (.read name)
  | ⟨"pair", _⟩ => .ok (.untyped "pair" fun _ => pure (.list [.text "a", .text "b"]))
  | ⟨"none", _⟩ => .ok (.untyped "none" fun _ => pure (.list []))
  | ⟨source, _⟩ => .ok (.untyped source fun _ => pure (.text source))

/-- The account of a document with nodes in a loop in a section, which a layout has twice. -/
def letterAccount (nodes : List Template.Node) : Option (Account Unit) :=
  (Program.compile letterInterpretation (piecesTemplates nodes)).toOption.map fun program =>
    (Occasion.mk program {} fun _ host => host).account ⟨0⟩ ()

/-- Lines that put out the element of the inner loop and the one of the loop around it. -/
def letterLines : List Template.Node :=
  [.line ⟨[.expression .normal ⟨"y", ["y"]⟩], false, "", none⟩, .line (.newline "\n"),
    .line ⟨[.expression .normal ⟨"x", ["x"]⟩], false, "", none⟩]

def otherLines : List Template.Node :=
  [.line ⟨[.literal "no ", .expression .normal ⟨"x", ["x"]⟩], false, "", none⟩]

theorem letters_unrolled :
    let chunks (nodes : List Template.Node) :=
      (letterAccount nodes).map fun account => account.drained.chunks
    let sources (nodes : List Template.Node) :=
      (letterAccount nodes).map fun account => account.drained.calls.map Invocation.source
    let loop := [.loop "y" none ⟨"pair", []⟩ none letterLines []]
    let bindings := [⟨"a", []⟩, ⟨"b", []⟩].map fun fragment =>
      .binding "y" (some fragment) letterLines
    let empty := [.loop "y" none ⟨"none", []⟩ (some "; ") letterLines otherLines]
    let choice := [.choice ⟨"yes", []⟩ otherLines []]
    chunks bindings = chunks loop ∧
      sources loop = some ["pair", "pair", "y", "x", "y", "x", "pair", "y", "x", "y", "x"] ∧
      sources bindings =
        some ["pair", "a", "y", "x", "b", "y", "x", "a", "y", "x", "b", "y", "x"] ∧
      chunks choice = chunks empty ∧ sources choice = some ["pair", "yes", "x", "yes", "x"] := by
  have constant (source : String) {value : Value}
      (means : letterInterpretation ⟨source, []⟩ = .ok (.untyped source fun _ => pure value)) :
      Constant letterInterpretation ⟨source, []⟩ value := ⟨_, means, nofun, fun _ _ => rfl⟩
  have same {loop : Template.Node} {nodes : List Template.Node} {dropped added : List Fragment}
      {program other : Program Unit}
      (compiled : Program.compile letterInterpretation (piecesTemplates [loop]) = .ok program)
      (again : Program.compile letterInterpretation (piecesTemplates nodes) = .ok other)
      (unrolled : Unrolled letterInterpretation loop nodes dropped added) :
      (letterAccount nodes).map (fun account => account.drained.chunks) =
        (letterAccount [loop]).map (fun account => account.drained.chunks) := by
    have given : (piecesTemplates [loop])[(DocId.mk 0).index]? =
        some (pairPath.fill (indentedSpot.fill [loop])) := rfl
    obtain ⟨-, chunks, -⟩ :=
      loop_unrolled compiled given again unrolled ⟨0⟩ {} rfl (fun _ host => host) ()
    simp only [letterAccount, compiled, again]
    exact congrArg some chunks
  have rounds : Unrolled letterInterpretation (.loop "y" none ⟨"pair", []⟩ none letterLines [])
      ([⟨"a", []⟩, ⟨"b", []⟩].map fun fragment => .binding "y" (some fragment) letterLines)
      [⟨"pair", []⟩] [⟨"a", []⟩, ⟨"b", []⟩] :=
    .rounds "y" letterLines [] (constant "pair" rfl) (List.cons_ne_nil _ _)
      (.cons (constant "a" rfl) (.cons (constant "b" rfl) .nil))
  have fallback : Unrolled letterInterpretation
      (.loop "y" none ⟨"none", []⟩ (some "; ") letterLines otherLines)
      [.choice ⟨"yes", []⟩ otherLines []] [⟨"none", []⟩] [⟨"yes", []⟩] :=
    .fallback "y" none (some "; ") letterLines (constant "none" rfl) (constant "yes" rfl)
  exact ⟨same rfl rfl rounds, by decide +kernel, by decide +kernel, same rfl rfl fallback,
    by decide +kernel⟩

end Stencil
