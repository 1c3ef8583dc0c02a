import Stencil.Proofs.Lexical.Addresses

/-! # Compiled templates mean what they mean by name

Compilation and rendering push their frames in different places, one construct at a time.  Here
they are shown to agree construct by construct: the names that are in scope while a node is
compiled are those of the innermost frames that its routine is rendered with.  Whatever frames
may stand further out belong to no construct of the document and are not read.
-/

namespace Stencil

open Host (Interpretation)
open Template (Fragment Node Document)
open Program (Expression Routine Line Section Block Place)

variable {σ : Type} {interpretation : Interpretation σ} {size : Nat}

/-! ## Nodes that are passed over and nodes that are refused -/

theorem compileChildren_cons {names : Program.Names} {node : Node} {rest : List Node}
    (kept : ¬∃ part, node = .stray part) :
    Program.compileChildren interpretation size names (node :: rest) = do
      let routine ← Program.compileNode interpretation size names node
      let routines ← Program.compileChildren interpretation size names rest
      return routine :: routines := by
  cases node <;> first | rfl | exact absurd ⟨_, rfl⟩ kept

theorem Lexical.childrenFlow_cons {absent : RenderError} {setting : Setting σ}
    {context : Context (SectionFlow σ)} {environment : Lexical.Environment}
    {progress : Progress} {node : Node} {rest : List Node} (kept : ¬∃ part, node = .stray part) :
    Lexical.childrenFlow interpretation absent setting context environment progress
        (node :: rest) =
      Lexical.nodeFlow interpretation absent setting context environment progress node >>=
        fun progress => Lexical.childrenFlow interpretation absent setting context environment
          progress rest := by
  cases node <;> first | rfl | exact absurd ⟨_, rfl⟩ kept

/-! ## Expressions -/

section Expressions

variable {inner : List Frame} (absent : RenderError) (extra : List Frame)
  (context : Context (SectionFlow σ))

theorem compiled_evaluate {fragment : Fragment} {expression : Expression σ}
    (compiled : Program.compileFragment interpretation (namesOf inner) fragment =
      .ok expression) :
    expression.evaluate (Scope.mk (inner ++ extra) context) =
      Lexical.evaluate interpretation absent inner.flatten fragment :=
  evaluate_eq absent (represents_of_compile compiled) extra context

theorem compiled_evaluateAll {fragments : List (String × Fragment)}
    {expressions : List (String × Expression σ)}
    (compiled : fragments.mapM (Program.compileForward interpretation (namesOf inner)) =
      .ok expressions) :
    Expression.evaluateAll (Scope.mk (inner ++ extra) context) expressions =
      Lexical.evaluateAll interpretation absent inner.flatten fragments := by
  induction fragments generalizing expressions with
  | nil =>
    cases compiled
    rfl
  | cons named rest ih =>
    obtain ⟨name, fragment⟩ := named
    simp only [List.mapM_cons, except_bind_eq_ok, Program.compileForward,
      except_map_eq_ok] at compiled
    obtain ⟨_, ⟨expression, here, rfl⟩, others, later, same⟩ := compiled
    cases same
    rw [Expression.evaluateAll, Lexical.evaluateAll,
      compiled_evaluate absent extra context here, ih later]

theorem compiled_boundValue {name : String} {fragment : Option Fragment}
    {expression : Option (Expression σ)}
    (compiled : Program.compileFragment? interpretation (namesOf inner) fragment =
      .ok expression) :
    Program.boundValue (Scope.mk (inner ++ extra) context) name expression =
      Lexical.boundValue interpretation absent context inner.flatten name fragment := by
  cases fragment with
  | none =>
    cases compiled
    rfl
  | some fragment =>
    simp only [Program.compileFragment?, except_map_eq_ok] at compiled
    obtain ⟨expression, here, rfl⟩ := compiled
    exact compiled_evaluate absent extra context here

end Expressions

/-! ## Constructs -/

section Constructs

variable (absent : RenderError) (setting : Setting σ)

mutual

theorem compiled_node (inner extra : List Frame) (context : Context (SectionFlow σ))
    (progress : Progress) : (node : Node) → {routine : Routine σ} →
    Program.compileNode interpretation size (namesOf inner) node = .ok routine →
    Program.routineFlow setting ⟨inner ++ extra, context⟩ progress routine =
      Lexical.nodeFlow interpretation absent setting context inner.flatten progress node
  | .line _, _, compiled => nomatch compiled
  | .stray _, _, compiled => nomatch compiled
  | .literal text, _, compiled => by
    cases compiled
    rfl
  | .expression kind fragment, _, compiled => by
    simp only [Program.compileNode, except_map_eq_ok] at compiled
    obtain ⟨expression, here, rfl⟩ := compiled
    have value := compiled_evaluate absent extra context here
    cases kind <;> simp only [Program.expressionRoutine, Program.routineFlow, Lexical.nodeFlow,
      value]
  | .binding name fragment body, _, compiled => by
    simp only [Program.compileNode, except_bind_eq_ok] at compiled
    obtain ⟨expression, here, lines, block, same⟩ := compiled
    cases same
    simp only [Program.routineFlow, Lexical.nodeFlow,
      compiled_boundValue absent extra context here]
    refine bind_congr fun value => ?_
    exact compiled_block ([(name, value)] :: inner) extra context false progress _ body block
  | .choice condition body otherwise, _, compiled => by
    simp only [Program.compileNode, except_bind_eq_ok] at compiled
    obtain ⟨expression, here, lines, block, others, otherBlock, same⟩ := compiled
    cases same
    simp only [Program.routineFlow, Lexical.nodeFlow, compiled_evaluate absent extra context here,
      compiled_block inner extra context false progress _ body block,
      compiled_block inner extra context false progress _ otherwise otherBlock]
  | .loop item index iterable separator body fallback, _, compiled => by
    simp only [Program.compileNode, except_bind_eq_ok] at compiled
    obtain ⟨expression, here, lines, block, others, otherBlock, same⟩ := compiled
    cases same
    -- Each round has a frame with the same names, and the fallback has no frame.
    have round : ∀ position element progress,
        Program.blockFlow setting
            ⟨(loopFrame item index position element :: inner) ++ extra, context⟩ false progress
            lines =
          Lexical.blockFlow interpretation absent setting context
            (loopFrame item index position element ++ inner.flatten) false progress body := by
      intro position element progress
      refine compiled_block (loopFrame item index position element :: inner) extra context false
        progress .loop body ?_
      rw [namesOf_loopFrame]
      exact block
    rw [Program.routineFlow, Lexical.nodeFlow, compiled_evaluate absent extra context here]
    refine bind_congr fun value => ?_
    cases value.items? with
    | none => rfl
    | some elements =>
      cases elements with
      | nil => exact compiled_block inner extra context false progress _ fallback otherBlock
      | cons element elements =>
        have rounds := funext fun position => funext fun element => funext fun progress =>
          round position element progress
        exact congrArg (Flow.rounds separator · 0 false (element :: elements) progress) rounds
  | .transform fragment body, _, compiled => by
    simp only [Program.compileNode, except_bind_eq_ok] at compiled
    obtain ⟨lines, block, expression, here, same⟩ := compiled
    cases same
    simp only [Program.routineFlow, Lexical.nodeFlow,
      compiled_block inner extra context false progress _ body block]
    refine bind_congr fun result => ?_
    -- The rendered block is in scope for the expression alone.
    have value : expression.evaluate (Scope.mk ([(Program.blockName, .text result.2)] :: inner ++
        extra) context) = _ := compiled_evaluate absent extra context here
    exact congrArg (· >>= _) value
  | .inclusion target forwards sections, _, compiled => by
    rw [Program.compileNode] at compiled
    by_cases unknown : size ≤ target.index
    · rw [if_pos unknown] at compiled
      cases compiled
    · rw [if_neg unknown] at compiled
      simp only [except_bind_eq_ok] at compiled
      obtain ⟨expressions, here, parts, others, same⟩ := compiled
      cases same
      rw [Program.routineFlow, Lexical.nodeFlow]
      cases setting.enter target with
      | refused error => rfl
      | bottomless => rfl
      | admitted render =>
        dsimp only
        rw [compiled_evaluateAll absent extra context here,
          compiled_sections inner extra context sections others]
  | .slot name, _, compiled => by
    cases compiled
    rfl

theorem compiled_children (inner extra : List Frame) (context : Context (SectionFlow σ))
    (progress : Progress) : (nodes : List Node) → {routines : List (Routine σ)} →
    Program.compileChildren interpretation size (namesOf inner) nodes = .ok routines →
    Program.childrenFlow setting ⟨inner ++ extra, context⟩ progress routines =
      Lexical.childrenFlow interpretation absent setting context inner.flatten progress nodes
  | [], _, compiled => by
    cases compiled
    rfl
  | node :: rest, _, compiled => by
    by_cases stray : ∃ part, node = .stray part
    -- A stray section is passed over on both sides.
    · obtain ⟨part, rfl⟩ := stray
      rw [Program.compileChildren] at compiled
      exact compiled_children inner extra context progress rest compiled
    · rw [compileChildren_cons stray] at compiled
      simp only [except_bind_eq_ok] at compiled
      obtain ⟨routine, here, routines, later, same⟩ := compiled
      cases same
      rw [Program.childrenFlow, Lexical.childrenFlow_cons stray,
        compiled_node inner extra context progress node here]
      refine bind_congr fun progress => ?_
      exact compiled_children inner extra context progress rest later

theorem compiled_line (inner extra : List Frame) (context : Context (SectionFlow σ))
    (hasContent : Bool) (progress : Progress) : (line : Template.Line) → {routine : Line σ} →
    Program.compileLine interpretation size (namesOf inner) line = .ok routine →
    (Program.childrenFlow setting ⟨inner ++ extra, context⟩ progress routine.children).line
        (Flow.leadOf routine.terminator hasContent) routine.indentation .fresh =
      Lexical.lineFlow interpretation absent setting context inner.flatten hasContent progress line
  | ⟨children, isNewline, source, indentation⟩, _, compiled => by
    simp only [Program.compileLine, except_bind_eq_ok] at compiled
    obtain ⟨routines, here, same⟩ := compiled
    cases same
    rw [Lexical.lineFlow, compiled_children inner extra context progress children here]

theorem compiled_block (inner extra : List Frame) (context : Context (SectionFlow σ))
    (hasContent : Bool) (progress : Progress) (place : Place) : (nodes : List Node) →
    {block : Block σ} →
    Program.compileBlock interpretation size (namesOf inner) place nodes = .ok block →
    Program.blockFlow setting ⟨inner ++ extra, context⟩ hasContent progress block =
      Lexical.blockFlow interpretation absent setting context inner.flatten hasContent progress
        nodes
  | [], _, compiled => by
    cases compiled
    rfl
  | .line line :: rest, _, compiled => by
    simp only [Program.compileBlock, except_bind_eq_ok] at compiled
    obtain ⟨⟨children, terminator, indentation⟩, here, lines, later, same⟩ := compiled
    cases same
    have walked := compiled_line inner extra context hasContent progress line here
    rw [Program.blockFlow, Lexical.blockFlow, ← walked]
    refine bind_congr fun result => ?_
    exact compiled_block inner extra context _ result.1 place rest later
  | .literal _ :: _, _, compiled | .expression .. :: _, _, compiled
  | .binding .. :: _, _, compiled | .choice .. :: _, _, compiled
  | .loop .. :: _, _, compiled | .transform .. :: _, _, compiled
  | .inclusion .. :: _, _, compiled | .slot _ :: _, _, compiled
  | .stray _ :: _, _, compiled => nomatch compiled

theorem compiled_sections (inner extra : List Frame) (context : Context (SectionFlow σ)) :
    (sections : List Template.Section) → {parts : List (Section σ)} →
    Program.compileSections interpretation size (namesOf inner) sections = .ok parts →
    Program.sectionFlows setting ⟨inner ++ extra, context⟩ parts =
      Lexical.sectionFlows interpretation absent setting context inner.flatten sections
  | [], _, compiled => by
    cases compiled
    rfl
  | ⟨name, body⟩ :: rest, _, compiled => by
    simp only [Program.compileSections, except_bind_eq_ok] at compiled
    obtain ⟨lines, block, parts, others, same⟩ := compiled
    cases same
    simp only [Program.sectionFlows, Lexical.sectionFlows,
      compiled_sections inner extra context rest others,
      fun progress => compiled_block inner extra context false progress .part body block]

end

end Constructs

/-! ## Documents -/

section Documents

open Program (Block)

variable {documents : List Document} {blocks : List (Block σ)}

theorem mapError_eq_ok {ε ε' α : Type} {change : ε → ε'} {first : Except ε α} {result : α}
    (done : first.mapError change = .ok result) : first = .ok result := by
  cases first with
  | error error => cases done
  | ok value => exact congrArg Except.ok (Except.ok.inj done)

/-- Every document is compiled to the block at its place, on its own. -/
theorem compiled_documents {position : Nat}
    (compiled : Program.compileDocuments interpretation size position documents = .ok blocks)
    (index : Nat) :
    (documents[index]? = none ∧ blocks[index]? = none) ∨
      ∃ document block, documents[index]? = some document ∧ blocks[index]? = some block ∧
        Program.compileBlock interpretation size [] .document document = .ok block := by
  induction documents generalizing position blocks index with
  | nil =>
    cases compiled
    exact .inl ⟨rfl, rfl⟩
  | cons document documents ih =>
    simp only [Program.compileDocuments, except_bind_eq_ok] at compiled
    obtain ⟨block, here, others, later, same⟩ := compiled
    cases same
    cases index with
    | zero => exact .inr ⟨document, block, rfl, rfl, mapError_eq_ok here⟩
    | succ index => exact ih later index

end Documents

section Renderings

variable {documents : List Document} {program : Program σ}

theorem compiled_document
    (compiled : Program.compile interpretation documents = .ok program) (id : DocId) :
    (documents[id.index]? = none ∧ program.document? id = none) ∨
      ∃ document block, documents[id.index]? = some document ∧
        program.document? id = some block ∧
        Program.compileBlock interpretation documents.length [] .document document =
          .ok block := by
  obtain ⟨blocks, all, rfl⟩ := except_map_eq_ok.1 compiled
  exact compiled_documents all id.index

variable (compiled : Program.compile interpretation documents = .ok program)
  (absent : RenderError) (options : Render.Options σ)
include compiled

/-- Included documents put out what they do by name, in whatever scope they are entered. -/
theorem compiled_entrance (levels : Nat) :
    program.entrance options levels =
      Lexical.entrance interpretation absent documents options levels := by
  induction levels with
  | zero => rfl
  | succ levels ih =>
    funext target
    rw [Program.entrance, Lexical.entrance]
    obtain ⟨missing, none⟩ | ⟨document, block, given, found, here⟩ :=
      compiled_document compiled target
    · rw [missing, none]
    · rw [given, found]
      refine congrArg Entrance.admitted (funext fun scope => funext fun progress => ?_)
      -- Frames that are there before the document begins are no document's own.
      rw [ih]
      exact compiled_block absent _ [] scope.frames scope.context false progress .document
        document here

/-- A compiled program renders every document as its template is rendered by name. -/
theorem compiled_flow (document : DocId) :
    program.flow options document =
      Lexical.flow interpretation absent documents options document := by
  rw [Program.flow, Lexical.flow, Program.setting, compiled_entrance compiled absent options]
  obtain ⟨missing, none⟩ | ⟨nodes, block, given, found, here⟩ :=
    compiled_document compiled document
  · rw [missing, none]
  · rw [given, found]
    exact compiled_block absent _ [] [] .root false .start .document nodes here

end Renderings

end Stencil
