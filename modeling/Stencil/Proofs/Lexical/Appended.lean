import Stencil.Proofs.Lexical.Targets

/-! # Templates among more names and documents

What is compiled stays the same when further frames are put around it and when further documents
are appended to its program.  No address changes, for the frames of a template are nearer than
those around it, and every include still finds the document that it names.
-/

namespace Stencil

open Host (Interpretation)
open Template (Fragment Node Document)
open Program (Names Address Expression Routine Line Section Block Place)

variable {σ : Type} {interpretation : Interpretation σ} {size larger : Nat} {names : Names}

/-! ## Expressions -/

theorem resolve_append {name : String} {address : Address}
    (found : names.resolve? name = some address) (outer : Names) :
    (names ++ outer).resolve? name = some address := by
  induction names generalizing address with
  | nil => cases found
  | cons frame names ih =>
    rw [Names.resolve?] at found
    rw [List.cons_append, Names.resolve?]
    cases here : frame.idxOf? name with
    | some slot => rwa [here] at found
    | none =>
      rw [here] at found
      obtain ⟨further, there, rfl⟩ := Option.map_eq_some_iff.1 found
      rw [ih there, Option.map_some]

theorem resolveName_append {source name : String} {read : String × Address}
    (found : Program.resolveName names source name = .ok read) (outer : Names) :
    Program.resolveName (names ++ outer) source name = .ok read := by
  rw [Program.resolveName] at found ⊢
  cases there : names.resolve? name with
  | none =>
    rw [there] at found
    cases found
  | some address =>
    rw [there] at found
    rw [resolve_append there]
    exact found

/-- Entries that are all taken one by one are also taken by what takes more. -/
theorem mapM_ok_mono {α β ε : Type} {take more : α → Except ε β}
    (grown : ∀ entry result, take entry = .ok result → more entry = .ok result)
    {entries : List α} {results : List β} (taken : entries.mapM take = .ok results) :
    entries.mapM more = .ok results := by
  induction entries generalizing results with
  | nil => exact taken
  | cons entry entries ih =>
    simp only [List.mapM_cons, except_bind_eq_ok] at taken ⊢
    obtain ⟨result, here, results, later, same⟩ := taken
    exact ⟨result, grown entry result here, results, ih later, same⟩

theorem appended_fragment {fragment : Fragment} {expression : Expression σ}
    (compiled : Program.compileFragment interpretation names fragment = .ok expression)
    (outer : Names) :
    Program.compileFragment interpretation (names ++ outer) fragment = .ok expression := by
  simp only [Program.compileFragment, except_bind_eq_ok] at compiled ⊢
  obtain ⟨callable, taken, checked, declared, reads, resolved, same⟩ := compiled
  exact ⟨callable, taken, checked, declared, reads,
    mapM_ok_mono (fun _ _ found => resolveName_append found outer) resolved, same⟩

theorem appended_fragment? {fragment : Option Fragment} {expression : Option (Expression σ)}
    (compiled : Program.compileFragment? interpretation names fragment = .ok expression)
    (outer : Names) :
    Program.compileFragment? interpretation (names ++ outer) fragment = .ok expression := by
  cases fragment with
  | none => exact compiled
  | some fragment =>
    simp only [Program.compileFragment?, except_map_eq_ok] at compiled ⊢
    obtain ⟨expression, here, same⟩ := compiled
    exact ⟨expression, appended_fragment here outer, same⟩

theorem appended_forward {forward : String × Fragment} {expression : String × Expression σ}
    (compiled : Program.compileForward interpretation names forward = .ok expression)
    (outer : Names) :
    Program.compileForward interpretation (names ++ outer) forward = .ok expression := by
  simp only [Program.compileForward, except_map_eq_ok] at compiled ⊢
  obtain ⟨expression, here, same⟩ := compiled
  exact ⟨expression, appended_fragment here outer, same⟩

/-! ## Nodes and blocks -/

section Constructs

variable (outer : Names)

mutual

theorem appended_node (grown : size ≤ larger) {names : Names} : (node : Node) →
    {routine : Routine σ} →
    Program.compileNode interpretation size names node = .ok routine →
    Program.compileNode interpretation larger (names ++ outer) node = .ok routine
  | .line _, _, compiled => nomatch compiled
  | .stray _, _, compiled => nomatch compiled
  | .literal _, _, compiled | .slot _, _, compiled => compiled
  | .expression kind fragment, _, compiled => by
    simp only [Program.compileNode, except_map_eq_ok] at compiled ⊢
    obtain ⟨expression, here, same⟩ := compiled
    exact ⟨expression, appended_fragment here outer, same⟩
  | .binding name fragment body, _, compiled => by
    simp only [Program.compileNode, except_bind_eq_ok] at compiled ⊢
    obtain ⟨value, here, lines, block, same⟩ := compiled
    exact ⟨value, appended_fragment? here outer, lines, appended_block grown body block, same⟩
  | .choice condition body otherwise, _, compiled => by
    simp only [Program.compileNode, except_bind_eq_ok] at compiled ⊢
    obtain ⟨expression, here, lines, block, others, otherBlock, same⟩ := compiled
    exact ⟨expression, appended_fragment here outer, lines, appended_block grown body block,
      others, appended_block grown otherwise otherBlock, same⟩
  | .loop item index iterable separator body fallback, _, compiled => by
    simp only [Program.compileNode, except_bind_eq_ok] at compiled ⊢
    obtain ⟨expression, here, lines, block, others, otherBlock, same⟩ := compiled
    exact ⟨expression, appended_fragment here outer, lines, appended_block grown body block,
      others, appended_block grown fallback otherBlock, same⟩
  | .transform fragment body, _, compiled => by
    simp only [Program.compileNode, except_bind_eq_ok] at compiled ⊢
    obtain ⟨lines, block, expression, here, same⟩ := compiled
    exact ⟨lines, appended_block grown body block, expression, appended_fragment here outer,
      same⟩
  | .inclusion target forwards sections, _, compiled => by
    rw [Program.compileNode] at compiled ⊢
    by_cases unknown : size ≤ target.index
    · rw [if_pos unknown] at compiled
      cases compiled
    · have known : ¬larger ≤ target.index := by omega
      rw [if_neg unknown] at compiled
      rw [if_neg known]
      simp only [except_bind_eq_ok] at compiled ⊢
      obtain ⟨expressions, here, parts, others, same⟩ := compiled
      exact ⟨expressions, mapM_ok_mono (fun _ _ found => appended_forward found outer) here,
        parts, appended_sections grown sections others, same⟩

theorem appended_children (grown : size ≤ larger) {names : Names} : (nodes : List Node) →
    {routines : List (Routine σ)} →
    Program.compileChildren interpretation size names nodes = .ok routines →
    Program.compileChildren interpretation larger (names ++ outer) nodes = .ok routines
  | [], _, compiled => compiled
  | node :: rest, _, compiled => by
    by_cases stray : ∃ part, node = .stray part
    · obtain ⟨part, rfl⟩ := stray
      rw [Program.compileChildren] at compiled ⊢
      exact appended_children grown rest compiled
    · rw [compileChildren_cons stray] at compiled ⊢
      simp only [except_bind_eq_ok] at compiled ⊢
      obtain ⟨routine, here, routines, later, same⟩ := compiled
      exact ⟨routine, appended_node grown node here, routines,
        appended_children grown rest later, same⟩

theorem appended_line (grown : size ≤ larger) {names : Names} : (line : Template.Line) →
    {routine : Line σ} →
    Program.compileLine interpretation size names line = .ok routine →
    Program.compileLine interpretation larger (names ++ outer) line = .ok routine
  | ⟨children, isNewline, source, indentation⟩, _, compiled => by
    simp only [Program.compileLine, except_bind_eq_ok] at compiled ⊢
    obtain ⟨routines, here, same⟩ := compiled
    exact ⟨routines, appended_children grown children here, same⟩

theorem appended_block (grown : size ≤ larger) {names : Names} {place other : Place} :
    (nodes : List Node) → {block : Block σ} →
    Program.compileBlock interpretation size names place nodes = .ok block →
    Program.compileBlock interpretation larger (names ++ outer) other nodes = .ok block
  | [], _, compiled => compiled
  | .line line :: rest, _, compiled => by
    simp only [Program.compileBlock, except_bind_eq_ok] at compiled ⊢
    obtain ⟨routine, here, lines, later, same⟩ := compiled
    exact ⟨routine, appended_line grown line here, lines, appended_block grown rest later, same⟩
  | .literal _ :: _, _, compiled | .expression .. :: _, _, compiled
  | .binding .. :: _, _, compiled | .choice .. :: _, _, compiled
  | .loop .. :: _, _, compiled | .transform .. :: _, _, compiled
  | .inclusion .. :: _, _, compiled | .slot _ :: _, _, compiled
  | .stray _ :: _, _, compiled => nomatch compiled

theorem appended_sections (grown : size ≤ larger) {names : Names} :
    (sections : List Template.Section) → {parts : List (Section σ)} →
    Program.compileSections interpretation size names sections = .ok parts →
    Program.compileSections interpretation larger (names ++ outer) sections = .ok parts
  | [], _, compiled => compiled
  | ⟨name, body⟩ :: rest, _, compiled => by
    simp only [Program.compileSections, except_bind_eq_ok] at compiled ⊢
    obtain ⟨lines, block, parts, others, same⟩ := compiled
    exact ⟨lines, appended_block grown body block, parts, appended_sections grown rest others,
      same⟩

end

end Constructs

/-! ## Documents -/

/-- A block on its own is compiled among so many documents. -/
def Accepted (interpretation : Interpretation σ) (size : Nat) (place : Place)
    (nodes : List Node) : Prop :=
  ∃ block, Program.compileBlock interpretation size [] place nodes = .ok block

theorem Accepted.appended {place : Place} {nodes : List Node}
    (accepted : Accepted interpretation size place nodes) (grown : size ≤ larger) :
    Accepted interpretation larger place nodes := by
  obtain ⟨block, compiled⟩ := accepted
  exact ⟨block, appended_block [] grown nodes compiled⟩

theorem compileDocuments_of_accepted {documents : List Document}
    (accepted : ∀ document ∈ documents, Accepted interpretation size .document document)
    (position : Nat) :
    ∃ blocks, Program.compileDocuments interpretation size position documents = .ok blocks := by
  induction documents generalizing position with
  | nil => exact ⟨[], rfl⟩
  | cons document documents ih =>
    obtain ⟨⟨block, here⟩, others⟩ := List.forall_mem_cons.1 accepted
    obtain ⟨blocks, later⟩ := ih others (position + 1)
    refine ⟨block :: blocks, ?_⟩
    rw [Program.compileDocuments, here, later]
    rfl

/-- A program is compiled if and only if each of its documents is. -/
theorem compile_iff_accepted {documents : List Document} :
    (∃ program, Program.compile interpretation documents = .ok program) ↔
      ∀ document ∈ documents, Accepted interpretation documents.length .document document := by
  constructor
  · rintro ⟨program, compiled⟩ document member
    obtain ⟨index, given⟩ := List.getElem?_of_mem member
    obtain ⟨missing, -⟩ | ⟨_, block, there, -, here⟩ := compiled_document compiled ⟨index⟩
    · rw [missing] at given
      cases given
    · rw [there] at given
      cases given
      exact ⟨block, here⟩
  · intro accepted
    obtain ⟨blocks, compiled⟩ := compileDocuments_of_accepted accepted 0
    exact ⟨⟨blocks⟩, except_map_eq_ok.2 ⟨blocks, compiled, rfl⟩⟩

/-- Documents can be appended to those of a program if they are accepted among so many. -/
theorem compile_append {documents more : List Document} {program : Program σ}
    (compiled : Program.compile interpretation documents = .ok program)
    (accepted : ∀ document ∈ more,
      Accepted interpretation (documents ++ more).length .document document) :
    ∃ larger, Program.compile interpretation (documents ++ more) = .ok larger := by
  have grown : documents.length ≤ (documents ++ more).length := by
    rw [List.length_append]
    exact Nat.le_add_right _ _
  have kept := compile_iff_accepted.1 ⟨program, compiled⟩
  refine compile_iff_accepted.2 (List.forall_mem_append.2 ⟨fun document member => ?_, accepted⟩)
  exact (kept document member).appended grown

/-! ## Larger programs -/

/-- The documents of a program stand at the same places in a larger one, and include each other
only. -/
structure Program.PartOf (program larger : Program σ) : Prop where
  kept : ∀ target : DocId, target.index < program.size →
    larger.document? target = program.document? target
  aims : ∀ part ∈ program.parts, part.Aims program.size

section Larger

variable {documents more : List Document} {program larger : Program σ}

/-- Among more documents and names, a document of a program is what it is in the program. -/
theorem document_appended
    (compiled : Program.compile interpretation documents = .ok program) {id : DocId}
    {lines : Document} (given : documents[id.index]? = some lines) (more : List Document) :
    ∃ block, program.document? id = some block ∧ ∀ names place,
      Program.compileBlock interpretation (documents ++ more).length names place lines =
        .ok block := by
  obtain ⟨missing, -⟩ | ⟨nodes, block, same, found, here⟩ := compiled_document compiled id
  · rw [missing] at given
    cases given
  · rw [same] at given
    cases given
    have grown : documents.length ≤ (documents ++ more).length := by
      rw [List.length_append]
      exact Nat.le_add_right _ _
    exact ⟨block, found, fun names place => appended_block names grown lines here⟩

theorem partOf_of_compile (compiled : Program.compile interpretation documents = .ok program)
    (whole : Program.compile interpretation (documents ++ more) = .ok larger) :
    program.PartOf larger where
  kept target known := by
    rw [size_of_compile compiled] at known
    have given := List.getElem?_eq_getElem known
    obtain ⟨block, found, appended⟩ := document_appended compiled given more
    obtain ⟨missing, -⟩ | ⟨nodes, other, there, present, here⟩ := compiled_document whole target
    · rw [List.getElem?_append_left known, given] at missing
      cases missing
    · rw [List.getElem?_append_left known, given] at there
      cases there
      rw [appended] at here
      cases here
      rw [present, found]
  aims := aims_program compiled

/-- The first of the documents that are appended. -/
theorem document_next {document : Document} {block : Block σ}
    (whole : Program.compile interpretation (documents ++ document :: more) = .ok larger)
    (here : Program.compileBlock interpretation (documents ++ document :: more).length []
      .document document = .ok block) :
    larger.document? ⟨documents.length⟩ = some block := by
  have given : (documents ++ document :: more)[documents.length]? = some document := by
    rw [List.getElem?_append_right (Nat.le_refl _), Nat.sub_self, List.getElem?_cons_zero]
  obtain ⟨missing, -⟩ | ⟨_, _, there, found, same⟩ := compiled_document whole ⟨documents.length⟩
  · rw [missing] at given
    cases given
  · rw [there] at given
    cases given
    rw [here] at same
    cases same
    exact found

end Larger

end Stencil
