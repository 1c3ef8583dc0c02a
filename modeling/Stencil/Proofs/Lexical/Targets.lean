import Stencil.Proofs.Lexical.Compiled
import Stencil.Proofs.Parts

/-! # Includes of compiled programs

Every include of a program that has been compiled names a document of it.
-/

namespace Stencil

open Host (Interpretation)
open Template (Node)
open Program (Routine Line Section Block)

variable {σ : Type} {interpretation : Interpretation σ} {size : Nat}

/-- An include names one of so many documents. -/
def Program.Part.Aims (size : Nat) (part : Program.Part σ) : Prop :=
  ∀ target forwards sections, part = .routine (.inclusion target forwards sections) →
    target.index < size

mutual

theorem aims_node {names : Program.Names} : (node : Node) → {routine : Routine σ} →
    Program.compileNode interpretation size names node = .ok routine →
    ∀ part ∈ Program.Part.routine routine :: routine.innerParts, part.Aims size
  | .line _, _, compiled => nomatch compiled
  | .stray _, _, compiled => nomatch compiled
  | .literal _, _, compiled | .slot _, _, compiled => by
    cases compiled
    exact List.forall_mem_singleton.2 nofun
  | .expression kind fragment, _, compiled => by
    simp only [Program.compileNode, except_map_eq_ok] at compiled
    obtain ⟨expression, -, rfl⟩ := compiled
    cases kind <;> exact List.forall_mem_singleton.2 nofun
  | .binding name fragment body, _, compiled => by
    simp only [Program.compileNode, except_bind_eq_ok] at compiled
    obtain ⟨value, -, lines, block, same⟩ := compiled
    cases same
    exact List.forall_mem_cons.2 ⟨nofun, aims_block body block⟩
  | .choice condition body otherwise, _, compiled => by
    simp only [Program.compileNode, except_bind_eq_ok] at compiled
    obtain ⟨expression, -, lines, block, others, otherBlock, same⟩ := compiled
    cases same
    exact List.forall_mem_cons.2 ⟨nofun, List.forall_mem_append.2
      ⟨aims_block body block, aims_block otherwise otherBlock⟩⟩
  | .loop item index iterable separator body fallback, _, compiled => by
    simp only [Program.compileNode, except_bind_eq_ok] at compiled
    obtain ⟨expression, -, lines, block, others, otherBlock, same⟩ := compiled
    cases same
    exact List.forall_mem_cons.2 ⟨nofun, List.forall_mem_append.2
      ⟨aims_block body block, aims_block fallback otherBlock⟩⟩
  | .transform fragment body, _, compiled => by
    simp only [Program.compileNode, except_bind_eq_ok] at compiled
    obtain ⟨lines, block, expression, -, same⟩ := compiled
    cases same
    exact List.forall_mem_cons.2 ⟨nofun, aims_block body block⟩
  | .inclusion target forwards sections, _, compiled => by
    rw [Program.compileNode] at compiled
    by_cases unknown : size ≤ target.index
    · rw [if_pos unknown] at compiled
      cases compiled
    · rw [if_neg unknown] at compiled
      simp only [except_bind_eq_ok] at compiled
      obtain ⟨expressions, -, parts, others, same⟩ := compiled
      cases same
      refine List.forall_mem_cons.2 ⟨?_, aims_sections sections others⟩
      rintro _ _ _ ⟨⟩
      exact Nat.lt_of_not_le unknown

theorem aims_children {names : Program.Names} : (nodes : List Node) →
    {routines : List (Routine σ)} →
    Program.compileChildren interpretation size names nodes = .ok routines →
    ∀ part ∈ Program.childParts routines, part.Aims size
  | [], _, compiled => by
    cases compiled
    exact nofun
  | node :: rest, _, compiled => by
    by_cases stray : ∃ part, node = .stray part
    · obtain ⟨part, rfl⟩ := stray
      rw [Program.compileChildren] at compiled
      exact aims_children rest compiled
    · rw [compileChildren_cons stray] at compiled
      simp only [except_bind_eq_ok] at compiled
      obtain ⟨routine, here, routines, later, same⟩ := compiled
      cases same
      show ∀ part ∈ (Program.Part.routine routine :: routine.innerParts) ++
        Program.childParts routines, _
      exact List.forall_mem_append.2 ⟨aims_node node here, aims_children rest later⟩

theorem aims_line {names : Program.Names} : (line : Template.Line) → {routine : Line σ} →
    Program.compileLine interpretation size names line = .ok routine →
    ∀ part ∈ Program.childParts routine.children, part.Aims size
  | ⟨children, isNewline, source, indentation⟩, _, compiled => by
    simp only [Program.compileLine, except_bind_eq_ok] at compiled
    obtain ⟨routines, here, same⟩ := compiled
    cases same
    exact aims_children children here

theorem aims_block {names : Program.Names} {place : Program.Place} : (nodes : List Node) →
    {block : Block σ} → Program.compileBlock interpretation size names place nodes = .ok block →
    ∀ part ∈ Program.blockParts block, part.Aims size
  | [], _, compiled => by
    cases compiled
    exact nofun
  | .line line :: rest, _, compiled => by
    simp only [Program.compileBlock, except_bind_eq_ok] at compiled
    obtain ⟨⟨children, terminator, indentation⟩, here, lines, later, same⟩ := compiled
    cases same
    exact List.forall_mem_cons.2 ⟨nofun, List.forall_mem_append.2
      ⟨aims_line line here, aims_block rest later⟩⟩
  | .literal _ :: _, _, compiled | .expression .. :: _, _, compiled
  | .binding .. :: _, _, compiled | .choice .. :: _, _, compiled
  | .loop .. :: _, _, compiled | .transform .. :: _, _, compiled
  | .inclusion .. :: _, _, compiled | .slot _ :: _, _, compiled
  | .stray _ :: _, _, compiled => nomatch compiled

theorem aims_sections {names : Program.Names} : (sections : List Template.Section) →
    {parts : List (Section σ)} →
    Program.compileSections interpretation size names sections = .ok parts →
    ∀ part ∈ Program.sectionParts parts, part.Aims size
  | [], _, compiled => by
    cases compiled
    exact nofun
  | ⟨name, body⟩ :: rest, _, compiled => by
    simp only [Program.compileSections, except_bind_eq_ok] at compiled
    obtain ⟨lines, block, parts, others, same⟩ := compiled
    cases same
    exact List.forall_mem_append.2 ⟨aims_block body block, aims_sections rest others⟩

end

/-- A compiled program has a document for each of its templates. -/
theorem size_of_compile {documents : List Template.Document} {program : Program σ}
    (compiled : Program.compile interpretation documents = .ok program) :
    program.size = documents.length := by
  -- There is a document at the same places.
  have same : ∀ index : Nat, documents[index]? = none ↔ program.documents[index]? = none := by
    intro index
    obtain ⟨missing, none⟩ | ⟨_, _, given, found, -⟩ := compiled_document compiled ⟨index⟩
    · exact iff_of_true missing none
    · rw [Program.document?] at found
      simp [given, found]
  simp only [List.getElem?_eq_none_iff] at same
  exact Nat.le_antisymm ((same _).1 (Nat.le_refl _)) ((same _).2 (Nat.le_refl _))

/-- The includes of a compiled program name documents of it. -/
theorem aims_program {documents : List Template.Document} {program : Program σ}
    (compiled : Program.compile interpretation documents = .ok program) :
    ∀ part ∈ program.parts, part.Aims program.size := by
  intro part stands
  obtain ⟨block, document, inside⟩ := List.mem_flatMap.1 stands
  obtain ⟨index, there⟩ := List.getElem?_of_mem document
  rw [size_of_compile compiled]
  obtain ⟨-, missing⟩ | ⟨nodes, other, -, found, here⟩ := compiled_document compiled ⟨index⟩
  · rw [Program.document?, there] at missing
    cases missing
  · rw [Program.document?, there] at found
    cases found
    exact aims_block nodes here part inside

/-- Every include of a compiled program names a document that is there. -/
theorem targets_known {documents : List Template.Document} {program : Program σ}
    (compiled : Program.compile interpretation documents = .ok program) {target : DocId}
    {forwards : List (String × Program.Expression σ)} {sections : List (Section σ)}
    (stands : .routine (.inclusion target forwards sections) ∈ program.parts) :
    ∃ block, program.document? target = some block := by
  have known := aims_program compiled _ stands target forwards sections rfl
  exact ⟨_, List.getElem?_eq_getElem known⟩

end Stencil
