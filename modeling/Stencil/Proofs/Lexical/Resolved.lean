import Stencil.Proofs.Lexical.Compiled

/-! # Compiled expressions stem from fragments

Every expression of a program that has been compiled stems from a fragment, with the names around
the expression in scope.  So for every name that it reads it has the address that the name has
among these names, and it reads every name that its callable asks for.
-/

namespace Stencil

open Host (Interpretation)
open Template (Fragment Node)
open Program (Names Expression Routine Line Section Block)

variable {σ : Type}

section Compiled

variable {interpretation : Interpretation σ} {size : Nat}

/-- The expression is what some fragment has been compiled to. -/
def Program.Occurrence.Stems (interpretation : Interpretation σ)
    (occurrence : Program.Occurrence σ) : Prop :=
  ∃ fragment,
    Program.compileFragment interpretation occurrence.names fragment = .ok occurrence.expression

theorem stems_forwards {names : Names} {fragments : List (String × Fragment)}
    {forwards : List (String × Expression σ)}
    (compiled : fragments.mapM (Program.compileForward interpretation names) = .ok forwards) :
    ∀ occurrence ∈ forwards.map fun forward => Program.Occurrence.mk names forward.2,
      occurrence.Stems interpretation := by
  induction fragments generalizing forwards with
  | nil =>
    cases compiled
    exact nofun
  | cons named rest ih =>
    simp only [List.mapM_cons, except_bind_eq_ok, Program.compileForward,
      except_map_eq_ok] at compiled
    obtain ⟨_, ⟨expression, here, rfl⟩, others, later, same⟩ := compiled
    cases same
    exact List.forall_mem_cons.2 ⟨⟨_, here⟩, ih later⟩

mutual

theorem stems_node (names : Names) : (node : Node) → {routine : Routine σ} →
    Program.compileNode interpretation size names node = .ok routine →
    ∀ occurrence ∈ routine.occurrences names, occurrence.Stems interpretation
  | .line _, _, compiled => nomatch compiled
  | .stray _, _, compiled => nomatch compiled
  | .literal _, _, compiled | .slot _, _, compiled => by
    cases compiled
    exact nofun
  | .expression kind fragment, _, compiled => by
    simp only [Program.compileNode, except_map_eq_ok] at compiled
    obtain ⟨expression, here, rfl⟩ := compiled
    -- Whatever comes of its value, the expression stands alone.
    have only : (Program.expressionRoutine kind expression).occurrences names =
        [⟨names, expression⟩] := by
      cases kind <;> rfl
    rw [only]
    exact List.forall_mem_singleton.2 ⟨_, here⟩
  | .binding name fragment body, _, compiled => by
    simp only [Program.compileNode, except_bind_eq_ok] at compiled
    obtain ⟨value, here, lines, block, same⟩ := compiled
    cases same
    refine List.forall_mem_append.2 ⟨?_, stems_block ([name] :: names) _ body block⟩
    cases fragment with
    | none =>
      cases here
      exact nofun
    | some fragment =>
      simp only [Program.compileFragment?, except_map_eq_ok] at here
      obtain ⟨expression, there, rfl⟩ := here
      exact List.forall_mem_singleton.2 ⟨_, there⟩
  | .choice condition body otherwise, _, compiled => by
    simp only [Program.compileNode, except_bind_eq_ok] at compiled
    obtain ⟨expression, here, lines, block, others, otherBlock, same⟩ := compiled
    cases same
    exact List.forall_mem_cons.2 ⟨⟨_, here⟩, List.forall_mem_append.2
      ⟨stems_block names _ body block, stems_block names _ otherwise otherBlock⟩⟩
  | .loop item index iterable separator body fallback, _, compiled => by
    simp only [Program.compileNode, except_bind_eq_ok] at compiled
    obtain ⟨expression, here, lines, block, others, otherBlock, same⟩ := compiled
    cases same
    exact List.forall_mem_cons.2 ⟨⟨_, here⟩, List.forall_mem_append.2
      ⟨stems_block _ _ body block, stems_block names _ fallback otherBlock⟩⟩
  | .transform fragment body, _, compiled => by
    simp only [Program.compileNode, except_bind_eq_ok] at compiled
    obtain ⟨lines, block, expression, here, same⟩ := compiled
    cases same
    exact List.forall_mem_cons.2 ⟨⟨_, here⟩, stems_block names _ body block⟩
  | .inclusion target forwards sections, _, compiled => by
    rw [Program.compileNode] at compiled
    by_cases unknown : size ≤ target.index
    · rw [if_pos unknown] at compiled
      cases compiled
    · rw [if_neg unknown] at compiled
      simp only [except_bind_eq_ok] at compiled
      obtain ⟨expressions, here, parts, others, same⟩ := compiled
      cases same
      exact List.forall_mem_append.2
        ⟨stems_forwards here, stems_sections names sections others⟩

theorem stems_children (names : Names) : (nodes : List Node) → {routines : List (Routine σ)} →
    Program.compileChildren interpretation size names nodes = .ok routines →
    ∀ occurrence ∈ Program.childOccurrences names routines, occurrence.Stems interpretation
  | [], _, compiled => by
    cases compiled
    exact nofun
  | node :: rest, _, compiled => by
    by_cases stray : ∃ part, node = .stray part
    · obtain ⟨part, rfl⟩ := stray
      rw [Program.compileChildren] at compiled
      exact stems_children names rest compiled
    · rw [compileChildren_cons stray] at compiled
      simp only [except_bind_eq_ok] at compiled
      obtain ⟨routine, here, routines, later, same⟩ := compiled
      cases same
      exact List.forall_mem_append.2
        ⟨stems_node names node here, stems_children names rest later⟩

theorem stems_line (names : Names) : (line : Template.Line) → {routine : Line σ} →
    Program.compileLine interpretation size names line = .ok routine →
    ∀ occurrence ∈ Program.childOccurrences names routine.children, occurrence.Stems interpretation
  | ⟨children, isNewline, source, indentation⟩, _, compiled => by
    simp only [Program.compileLine, except_bind_eq_ok] at compiled
    obtain ⟨routines, here, same⟩ := compiled
    cases same
    exact stems_children names children here

theorem stems_block (names : Names) (place : Program.Place) : (nodes : List Node) →
    {block : Block σ} → Program.compileBlock interpretation size names place nodes = .ok block →
    ∀ occurrence ∈ Program.blockOccurrences names block, occurrence.Stems interpretation
  | [], _, compiled => by
    cases compiled
    exact nofun
  | .line line :: rest, _, compiled => by
    simp only [Program.compileBlock, except_bind_eq_ok] at compiled
    obtain ⟨⟨children, terminator, indentation⟩, here, lines, later, same⟩ := compiled
    cases same
    exact List.forall_mem_append.2
      ⟨stems_line names line here, stems_block names place rest later⟩
  | .literal _ :: _, _, compiled | .expression .. :: _, _, compiled
  | .binding .. :: _, _, compiled | .choice .. :: _, _, compiled
  | .loop .. :: _, _, compiled | .transform .. :: _, _, compiled
  | .inclusion .. :: _, _, compiled | .slot _ :: _, _, compiled
  | .stray _ :: _, _, compiled => nomatch compiled

theorem stems_sections (names : Names) : (sections : List Template.Section) →
    {parts : List (Section σ)} →
    Program.compileSections interpretation size names sections = .ok parts →
    ∀ occurrence ∈ Program.sectionOccurrences names parts, occurrence.Stems interpretation
  | [], _, compiled => by
    cases compiled
    exact nofun
  | ⟨name, body⟩ :: rest, _, compiled => by
    simp only [Program.compileSections, except_bind_eq_ok] at compiled
    obtain ⟨lines, block, parts, others, same⟩ := compiled
    cases same
    exact List.forall_mem_append.2
      ⟨stems_block names .part body block, stems_sections names rest others⟩

end

theorem stems_program {documents : List Template.Document} {program : Program σ}
    (compiled : Program.compile interpretation documents = .ok program) :
    ∀ occurrence ∈ program.occurrences, occurrence.Stems interpretation := by
  intro occurrence member
  obtain ⟨block, document, inside⟩ := List.mem_flatMap.1 member
  obtain ⟨index, there⟩ := List.getElem?_of_mem document
  obtain ⟨-, missing⟩ | ⟨nodes, other, -, found, here⟩ := compiled_document compiled ⟨index⟩
  · rw [Program.document?, there] at missing
    cases missing
  · rw [Program.document?, there] at found
    cases found
    exact stems_block [] .document nodes here occurrence inside

end Compiled

/-- All names that the expression reads are around it, each with the address that it is read
at. -/
def Program.Occurrence.Resolved (occurrence : Program.Occurrence σ) : Prop :=
  occurrence.expression.Resolved occurrence.names

/-- Every expression of a compiled program has the addresses of its names. -/
theorem resolved_program {interpretation : Interpretation σ} {documents : List Template.Document}
    {program : Program σ} (compiled : Program.compile interpretation documents = .ok program) :
    ∀ occurrence ∈ program.occurrences, occurrence.Resolved := by
  intro occurrence member
  obtain ⟨fragment, here⟩ := stems_program compiled occurrence member
  exact (represents_of_compile here).resolved

end Stencil
