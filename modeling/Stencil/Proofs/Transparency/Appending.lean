import Stencil.Proofs.Checking.Acceptance
import Stencil.Proofs.Transparency.Around
import Stencil.Script

/-! # Appended documents

When documents are appended to those of a program, the ones that were there before are compiled to
what they were.  Their includes name each other only, so nothing that is reached from one of them is
new, and it is rendered as before, answer by answer.
-/

namespace Stencil

open Host (Interpretation)
open Template (Document)
open Program (MemberFits)

variable {σ : Type} {interpretation : Interpretation σ} {documents more : List Document}
  {program larger : Program σ}

/-- A block is compiled among so many documents if and only if its members fit there. -/
theorem accepted_iff {size : Nat} {place : Program.Place} {nodes : List Template.Node} :
    Accepted interpretation size place nodes ↔
      ∀ node ∈ nodes, MemberFits interpretation size [] node := by
  rw [Accepted, ← Program.refusal?_eq_none, Program.refusal?_compileBlock, Program.firstObjection,
    List.findSome?_eq_none_iff, ← Program.blockFits_iff [] place nodes]
  simp only [Program.AllHold, Program.Check.holds_iff, List.flatten_nil]

namespace Program

theorem PartOf.documents_kept (partOf : program.PartOf larger) :
    program.documents <+: larger.documents := by
  refine List.prefix_iff_getElem?.2 fun index known => ?_
  have kept := partOf.kept ⟨index⟩ known
  simp only [document?] at kept
  rw [kept, List.getElem?_eq_getElem known]

/-- A document comes to the same flow in a larger program. -/
theorem PartOf.flow (partOf : program.PartOf larger) (options : Render.Options σ) {id : DocId}
    (known : id.index < program.size) : larger.flow options id = program.flow options id := by
  have same : program.flow options id = (fun progress => progress) <$> larger.flow options id :=
    (flow_larger partOf options known).eq_map fun _ _ beside => beside.eq
  rw [same, id_map']

theorem PartOf.render (partOf : program.PartOf larger) (options : Render.Options σ) {id : DocId}
    (known : id.index < program.size) : larger.render id options = program.render id options := by
  rw [Program.render, Program.render, partOf.flow options known]

end Program

/-- Documents can be appended to those of a program exactly if they are well-formed among so many,
and this changes nothing for the documents that are there already.  They are compiled to what they
were, and each of them is rendered by one and the same rendering in both programs: on every host,
and whatever others do to it meanwhile, it answers with the same chunks and the same error or end
after the same calls. -/
theorem appending_is_conservative
    (compiled : Program.compile interpretation documents = .ok program)
    (more : List Document) :
    ((∃ larger, Program.compile interpretation (documents ++ more) = .ok larger) ↔
        ∀ document ∈ more, ∀ node ∈ document,
          MemberFits interpretation (documents ++ more).length [] node) ∧
      ∀ larger, Program.compile interpretation (documents ++ more) = .ok larger →
        program.documents <+: larger.documents ∧
          ∀ id : DocId, id.index < documents.length → ∀ options : Render.Options σ,
            larger.render id options = program.render id options := by
  refine ⟨⟨fun whole document member => ?_, fun fits => ?_⟩, fun larger whole => ?_⟩
  · exact accepted_iff.1 (compile_iff_accepted.1 whole document (List.mem_append_right _ member))
  · exact compile_append compiled fun document member => accepted_iff.2 (fits document member)
  · have partOf := partOf_of_compile compiled whole
    refine ⟨partOf.documents_kept, fun id known options => partOf.render options ?_⟩
    rwa [size_of_compile compiled]

def pageScript : Script :=
  ⟨false, [⟨"news", .const (.text "News"), []⟩], []⟩

/-- A page that hands a title and a body to a layout. -/
def pageTemplates : List Document :=
  let line (node : Template.Node) : Template.Node := .line ⟨[node], false, "", none⟩
  [[line (.inclusion ⟨1⟩ [("title", ⟨"news", []⟩)] [⟨"body", [line (.literal "text")]⟩])],
    [line (.binding "title" none [line (.expression .normal ⟨"title", ["title"]⟩)]),
      line (.slot "body")]]

/-- A document that includes the page and the next one, which includes them both. -/
def furtherTemplates : List Document :=
  let line (target : DocId) : Template.Node :=
    .line ⟨[.inclusion target [] []], false, "", none⟩
  [[line ⟨0⟩, line ⟨3⟩], [line ⟨2⟩, line ⟨0⟩]]

theorem page_rendered_as_before : ∃ program larger : Program Script.State,
    Program.compile pageScript.interpretation pageTemplates = .ok program ∧
      Program.compile pageScript.interpretation (pageTemplates ++ furtherTemplates) =
        .ok larger ∧
      larger.render ⟨0⟩ {} = program.render ⟨0⟩ {} ∧
      ((larger.render ⟨0⟩ {}).drain .start).chunks = ["News", "text"] := by
  obtain ⟨program, compiled⟩ : ∃ program,
    Program.compile pageScript.interpretation pageTemplates = .ok program := ⟨_, rfl⟩
  obtain ⟨accepted, conservative⟩ := appending_is_conservative compiled furtherTemplates
  have includes (target : DocId) (known : target.index < 4) :
      MemberFits pageScript.interpretation (pageTemplates ++ furtherTemplates).length []
        (.line ⟨[.inclusion target [] []], false, "", none⟩) :=
    .line (List.forall_mem_singleton.2 (.inclusion known nofun nofun))
  have fits : ∀ document ∈ furtherTemplates, ∀ node ∈ document,
      MemberFits pageScript.interpretation (pageTemplates ++ furtherTemplates).length [] node := by
    simp only [furtherTemplates, List.forall_mem_cons, List.not_mem_nil, false_implies,
      implies_true, and_true]
    exact ⟨⟨includes ⟨0⟩ (by decide), includes ⟨3⟩ (by decide)⟩, includes ⟨2⟩ (by decide),
      includes ⟨0⟩ (by decide)⟩
  obtain ⟨larger, whole⟩ := accepted.2 fits
  have same := (conservative larger whole).2 ⟨0⟩ (by decide) {}
  refine ⟨program, larger, compiled, whole, same, ?_⟩
  rw [same]
  cases compiled
  decide +kernel

end Stencil
