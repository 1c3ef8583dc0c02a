import Stencil.Proofs.Lexical.Compiled
import Stencil.Render

/-! # Lines of terminators at the beginning of a document

A line that is nothing but its terminator puts the terminator out behind content, and drops it
otherwise.  But its own empty text is content to the lines behind it.  So of several such lines at
the beginning of a block only the first is dropped, and the terminators of the others come out
although nothing has been put out before them.
-/

namespace Stencil

open Host (Interpretation)
open Template (Document Node)
open Program (Routine Line Block Place)

variable {σ : Type}

/-! ## What the lines put out -/

/-- A line that is nothing but its terminator, once it is compiled. -/
def Program.Line.newline (terminator : String) : Line σ :=
  ⟨[.literal ""], some terminator, none⟩

def terminatorChunks (terminators : List String) : List String :=
  terminators.flatMap fun terminator => [terminator, ""]

theorem Flow.emitAll_append {α : Type} (ahead chunks : List String)
    (next : Unit → Flow σ α) :
    emitAll (ahead ++ chunks) >>= next = emitAll ahead >>= fun _ => emitAll chunks >>= next := by
  induction ahead with
  | nil => rfl
  | cons chunk ahead ih => exact congrArg (Flow.emit chunk) (funext fun _ => ih)

theorem Flow.line_begun {α β : Type} (lead : String) (indentation : Option String)
    (atStart : Bool) (flow : Flow σ α) (next : α × Bool → Flow σ β) :
    flow.line lead indentation (.begun atStart) >>= next =
      flow.line lead indentation (.begun atStart) >>= fun ended => next (ended.1, true) := by
  induction flow generalizing atStart with
  | finish | fail | bottomless => rfl
  | emit chunk resume ih =>
    simp only [line, LineStage.begin, LineStage.afterNewline]
    split
    · exact congrArg (emit chunk) (funext fun after => ih after after)
    · simp only [emitIndented_bind]
      exact congrArg (emitIndented indentation atStart chunk) (funext fun after => ih after after)
  | call callable invocation resume ih =>
    exact congrArg (call callable invocation) (funext fun value => ih value atStart)
  | round resume ih => exact congrArg round (funext fun go => ih go atStart)
  | poll resume ih => exact congrArg poll (funext fun go => ih go atStart)

/-- A line that begins with a text has content. -/
theorem Flow.line_visible {α β : Type} {text : String} (visible : isNewline text = false)
    (lead : String) (indentation : Option String) (resume : Bool → Flow σ α)
    (next : α × Bool → Flow σ β) :
    (emit text resume).line lead indentation .fresh >>= next =
      (emit text resume).line lead indentation .fresh >>= fun ended => next (ended.1, true) := by
  simp only [line, visible, Bool.false_eq_true, if_false, LineStage.begin]
  refine congrArg (emit lead) (funext fun atStart => ?_)
  refine (emitIndented_bind ..).trans (Eq.trans ?_ (emitIndented_bind ..).symm)
  exact congrArg (emitIndented indentation atStart text) (funext fun after => line_begun ..)

section Flows

variable (setting : Setting σ) (scope : Scope (SectionFlow σ)) (progress : Progress)

theorem blockFlow_newline (hasContent : Bool) (terminator : String) (lines : List (Line σ)) :
    Program.blockFlow setting scope hasContent progress (.newline terminator :: lines) =
      Flow.emitAll [if hasContent then terminator else "", ""] >>= fun _ =>
        Program.blockFlow setting scope true progress lines := by
  cases hasContent <;> rfl

theorem blockFlow_newlines (terminators : List String) (lines : List (Line σ)) :
    Program.blockFlow setting scope true progress (terminators.map .newline ++ lines) =
      Flow.emitAll (terminatorChunks terminators) >>= fun _ =>
        Program.blockFlow setting scope true progress lines := by
  induction terminators with
  | nil => rfl
  | cons terminator terminators ih =>
    rw [List.map_cons, List.cons_append, blockFlow_newline, ih]
    exact (Flow.emitAll_append [terminator, ""] (terminatorChunks terminators) _).symm

/-- For a line that begins with a text it makes no difference whether a line before it had
content. -/
theorem blockFlow_literal {text : String} (visible : isNewline text = false)
    (children : List (Routine σ)) (indentation : Option String) (lines : List (Line σ)) :
    Program.blockFlow setting scope true progress
        (⟨.literal text :: children, none, indentation⟩ :: lines) =
      Program.blockFlow setting scope false progress
        (⟨.literal text :: children, none, indentation⟩ :: lines) := by
  have line := fun hasContent => Flow.line_visible visible "" indentation
    (fun _ => Program.childrenFlow setting scope progress children) fun ended =>
      Program.blockFlow setting scope (hasContent || ended.2) ended.1 lines
  exact (line true).trans (line false).symm

end Flows

/-! ## Draining texts -/

def Drained.afterChunks (chunks : List String) (drained : Drained σ) : Drained σ :=
  chunks.foldr afterChunk drained

namespace Drained

theorem toText_afterChunk (chunk : String) (drained : Drained σ) :
    (drained.afterChunk chunk).toText = (chunk ++ ·) <$> drained.toText := by
  rw [afterChunk]
  split
  next empty =>
    rw [String.isEmpty_iff.1 empty]
    simp only [String.empty_append, id_map']
  next =>
    rw [toText, toText]
    cases drained.ending with
    | failed error => rfl
    | complete | bottomless => exact congrArg Except.ok (String.join_cons ..)

theorem toText_afterChunks (chunks : List String) (drained : Drained σ) :
    (drained.afterChunks chunks).toText = (String.join chunks ++ ·) <$> drained.toText := by
  induction chunks with
  | nil =>
    simp only [String.join_nil, String.empty_append, id_map']
    rfl
  | cons chunk chunks ih =>
    simp only [String.join_cons, String.append_assoc]
    rw [afterChunks, List.foldr_cons, toText_afterChunk, ← afterChunks, ih, Functor.map_map]

theorem calls_afterChunks (chunks : List String) (drained : Drained σ) :
    (drained.afterChunks chunks).calls = drained.calls := by
  induction chunks with
  | nil => rfl
  | cons chunk chunks ih =>
    rw [afterChunks, List.foldr_cons, afterChunk]
    split <;> exact ih

end Drained

/-- Chunks that nothing depends on are put out one after another. -/
theorem Flow.drain_emitAll {limits : Limits σ} {host : σ}
    (free : limits.isCancelled host = false) (flow : Flow σ Progress) (chunks : List String)
    (standing : Standing) :
    (emitAll chunks >>= fun _ => flow).drain limits standing host =
      (flow.drain limits (chunks.foldl Standing.afterChunk standing) host).afterChunks chunks := by
  induction chunks generalizing standing with
  | nil => rfl
  | cons chunk chunks ih =>
    have step := congrArg (Drained.afterChunk chunk) (ih (standing.afterChunk chunk))
    refine Eq.trans ?_ step
    change Drained.afterChunk chunk (if limits.isCancelled host then _ else _) = _
    rw [free]
    rfl

theorem join_terminatorChunks (terminators : List String) :
    String.join (terminatorChunks terminators) = String.join terminators := by
  induction terminators with
  | nil => rfl
  | cons terminator terminators ih =>
    rw [terminatorChunks, List.flatMap_cons, String.join_append, ← terminatorChunks, ih]
    simp only [String.join_cons, String.join_nil, String.append_empty]

theorem standing_terminatorChunks (terminators : List String) (standing : Standing) :
    (terminatorChunks terminators).foldl Standing.afterChunk standing =
      terminators.foldl Standing.afterChunk standing := by
  induction terminators generalizing standing with
  | nil => rfl
  | cons terminator terminators ih => exact ih (standing.afterChunk terminator)

/-! ## Compiling them -/

section Compiled

variable {interpretation : Interpretation σ} {size : Nat} {names : Program.Names} {place : Place}

theorem compileBlock_newlines (terminators : List String) (nodes : List Node) {block : Block σ}
    (compiled : Program.compileBlock interpretation size names place
      (terminators.map (fun terminator => .line (.newline terminator)) ++ nodes) = .ok block) :
    ∃ lines, Program.compileBlock interpretation size names place nodes = .ok lines ∧
      block = terminators.map .newline ++ lines := by
  induction terminators generalizing block with
  | nil => exact ⟨block, compiled, rfl⟩
  | cons terminator terminators ih =>
    simp only [List.map_cons, List.cons_append, Program.compileBlock, except_bind_eq_ok] at compiled
    obtain ⟨line, here, later, rest, same⟩ := compiled
    cases here
    cases same
    obtain ⟨lines, there, rfl⟩ := ih rest
    exact ⟨lines, there, rfl⟩

theorem compileBlock_literal {text : String} {children : List Node} {source : String}
    {indentation : Option String} {nodes : List Node} {block : Block σ}
    (compiled : Program.compileBlock interpretation size names place
      (.line ⟨.literal text :: children, false, source, indentation⟩ :: nodes) = .ok block) :
    ∃ routines lines, block = ⟨.literal text :: routines, none, indentation⟩ :: lines := by
  have literal : ¬∃ part, Node.literal text = .stray part := nofun
  simp only [Program.compileBlock, Program.compileLine,
    compileChildren_cons literal, Program.compileNode,
    except_bind_eq_ok] at compiled
  obtain ⟨_, ⟨_, ⟨_, first, routines, -, child⟩, line⟩, lines, -, same⟩ := compiled
  cases first
  cases child
  cases line
  cases same
  exact ⟨routines, lines, rfl⟩

end Compiled

/-! ## Documents that begin with them -/

/-- Two documents that differ in that the first one begins with lines of terminators.  The first
of its terminators is dropped, and these are the others.  It is settled if what the other document
puts out does not depend on where the output stands behind them. -/
structure Program.LeadBy (program : Program σ) (terminators : List String) (settled : Prop)
    (long short : DocId) (options : Render.Options σ) (host : σ) : Prop where
  /-- The terminators come first, and then all that the other document puts out where the output
  then stands. -/
  text : ((program.render long options).drain host).toText =
    (String.join terminators ++ ·) <$>
      ((Render.suspended options.limits (terminators.foldl Standing.afterChunk .start) fun _ =>
        program.flow options short).drain host).toText
  calls : ((program.render long options).drain host).calls =
    ((Render.suspended options.limits (terminators.foldl Standing.afterChunk .start) fun _ =>
      program.flow options short).drain host).calls
  /-- If there is no terminator but the first one, or all the others are empty, they come to the
  same text. -/
  same : (∀ terminator ∈ terminators, terminator = "") →
    ((program.render long options).drain host).toText =
      ((program.render short options).drain host).toText
  /-- Otherwise they come to different ones. -/
  different : settled → ∀ content,
    ((program.render short options).drain host).toText = .ok content →
    ((program.render long options).drain host).toText = .ok (String.join terminators ++ content) ∧
      (((program.render long options).drain host).toText = .ok content →
        ∀ terminator ∈ terminators, terminator = "")

theorem iterations_terminators (terminators : List String) (standing : Standing) :
    (terminators.foldl Standing.afterChunk standing).iterations = standing.iterations := by
  induction terminators generalizing standing with
  | nil => rfl
  | cons terminator terminators ih =>
    rw [List.foldl_cons, ih, Standing.afterChunk]
    split <;> rfl

theorem foldl_afterChunk_empty {terminators : List String}
    (empty : ∀ terminator ∈ terminators, terminator = "") (standing : Standing) :
    terminators.foldl Standing.afterChunk standing = standing := by
  induction terminators with
  | nil => rfl
  | cons terminator terminators ih =>
    obtain ⟨rfl, rest⟩ := List.forall_mem_cons.1 empty
    exact ih rest

theorem join_eq_empty {texts : List String} :
    String.join texts = "" ↔ ∀ text ∈ texts, text = "" := by
  induction texts with
  | nil => exact ⟨fun _ => nofun, fun _ => rfl⟩
  | cons text texts ih =>
    rw [String.join_cons, String.append_eq_empty_iff, ih, List.forall_mem_cons]

/-- After a text that is no newline the output stands within a line, wherever it stood before. -/
theorem Flow.drain_visible {limits : Limits σ} {standing other : Standing} {text : String}
    (same : standing.iterations = other.iterations) (content : text ≠ "")
    (resume : Bool → Flow σ Progress) (host : σ) :
    (emit "" fun _ => emit text resume).drain limits standing host =
      (emit "" fun _ => emit text resume).drain limits other host := by
  have nonempty : text.isEmpty = false := by
    rw [← Bool.not_eq_true, String.isEmpty_iff]
    exact content
  have stands : standing.afterChunk text = other.afterChunk text := by
    simp only [Standing.afterChunk, nonempty, same, Bool.false_eq_true, if_false]
  have before : standing.afterChunk "" = standing ∧ other.afterChunk "" = other := ⟨rfl, rfl⟩
  simp only [drain, before, stands]

section Documents

variable {interpretation : Interpretation σ} {documents : List Document} {program : Program σ}
  {long short : DocId} {first : String} {terminators : List String} {text : String}
  {children : List Node} {source : String} {indentation : Option String} {lines : List Node}

theorem flow_newlines (compiled : Program.compile interpretation documents = .ok program)
    (visible : text ≠ "\n")
    (bare : documents[short.index]? =
      some (.line ⟨.literal text :: children, false, source, indentation⟩ :: lines))
    (whole : documents[long.index]? =
      some ((first :: terminators).map (fun terminator => .line (.newline terminator)) ++
        .line ⟨.literal text :: children, false, source, indentation⟩ :: lines))
    (options : Render.Options σ) :
    program.flow options long =
      Flow.emitAll ("" :: "" :: terminatorChunks terminators) >>= fun _ =>
        program.flow options short := by
  obtain ⟨missing, -⟩ | ⟨_, block, there, found, here⟩ := compiled_document compiled short
  · cases bare.symm.trans missing
  obtain ⟨missing, -⟩ | ⟨_, longer, elsewhere, known, later⟩ := compiled_document compiled long
  · cases whole.symm.trans missing
  cases bare.symm.trans there
  cases whole.symm.trans elsewhere
  obtain ⟨_, again, rfl⟩ := compileBlock_newlines _ _ later
  cases here.symm.trans again
  obtain ⟨routines, rest, rfl⟩ := compileBlock_literal here
  have content : isNewline text = false := beq_eq_false_iff_ne.2 visible
  rw [Program.flow, Program.flow, known, found]
  dsimp only
  -- The first line drops its terminator, but counts as content for those behind it.
  rw [List.map_cons, List.cons_append, blockFlow_newline, blockFlow_newlines,
    blockFlow_literal _ _ _ content]
  exact (Flow.emitAll_append ["", ""] (terminatorChunks terminators) _).symm

/-- The terminators are put out first, and then the rest where the output then stands. -/
theorem drain_newlines {options : Render.Options σ}
    (flows : program.flow options long = Flow.emitAll ("" :: "" :: terminatorChunks terminators) >>=
      fun _ => program.flow options short) (host : σ) :
    ((program.render long options).drain host).toText =
        (String.join terminators ++ ·) <$>
          ((Render.suspended options.limits (terminators.foldl Standing.afterChunk .start) fun _ =>
            program.flow options short).drain host).toText ∧
      ((program.render long options).drain host).calls =
        ((Render.suspended options.limits (terminators.foldl Standing.afterChunk .start) fun _ =>
          program.flow options short).drain host).calls := by
  simp only [Program.render, Render.drain]
  -- No call is made among the terminators, so that the host says the same at each of them.
  cases free : options.limits.isCancelled host with
  | true => exact ⟨rfl, rfl⟩
  | false =>
    have standing : ("" :: "" :: terminatorChunks terminators).foldl Standing.afterChunk .start =
        terminators.foldl Standing.afterChunk .start := standing_terminatorChunks terminators .start
    simp only [Bool.false_eq_true, if_false]
    rw [flows, Flow.drain_emitAll free, Drained.toText_afterChunks, Drained.calls_afterChunks,
      standing]
    simp only [String.join_cons, String.empty_append, join_terminatorChunks, and_self]

/-- A line that is not indented puts its first text out directly behind its lead. -/
theorem flow_literal (compiled : Program.compile interpretation documents = .ok program)
    (visible : text ≠ "\n")
    (bare : documents[short.index]? =
      some (.line ⟨.literal text :: children, false, source, none⟩ :: lines))
    (options : Render.Options σ) :
    ∃ resume, program.flow options short = .emit "" fun _ => .emit text resume := by
  obtain ⟨missing, -⟩ | ⟨_, block, there, found, here⟩ := compiled_document compiled short
  · cases bare.symm.trans missing
  cases bare.symm.trans there
  obtain ⟨routines, rest, rfl⟩ := compileBlock_literal here
  have content : isNewline text = false := beq_eq_false_iff_ne.2 visible
  have line : (Program.childrenFlow (program.setting options) (.root .root) .start
      (.literal text :: routines)).line "" none .fresh = .emit "" fun _ => .emit text fun after =>
        (Program.childrenFlow (program.setting options) (.root .root) .start routines).line "" none
          (.begun after) := by
    simp only [Program.childrenFlow, Program.routineFlow]
    exact if_neg (ne_true_of_eq_false content)
  rw [Program.flow, found]
  dsimp only
  rw [Program.blockFlow, Flow.leadOf, if_neg Bool.false_ne_true, line]
  exact ⟨_, rfl⟩

/-- Where the output stands behind the terminators makes no difference, if it is the start of a line
or the first line is not indented. -/
theorem drain_settled (compiled : Program.compile interpretation documents = .ok program)
    (visible : text ≠ "\n")
    (bare : documents[short.index]? =
      some (.line ⟨.literal text :: children, false, source, indentation⟩ :: lines))
    (settled : terminators.foldl Standing.afterChunk .start = .start ∨
      indentation = none ∧ text ≠ "")
    (options : Render.Options σ) (host : σ) :
    (Render.suspended options.limits (terminators.foldl Standing.afterChunk .start) fun _ =>
        program.flow options short).drain host =
      (program.render short options).drain host := by
  obtain atStart | ⟨rfl, content⟩ := settled
  · rw [atStart]
    rfl
  · obtain ⟨resume, flow⟩ := flow_literal compiled visible bare options
    simp only [Program.render, Render.drain, flow]
    rw [Flow.drain_visible (iterations_terminators terminators .start) content]

/-- A document whose first line begins with a text, and the same behind lines of terminators:
all terminators but the first are put out. -/
theorem leading_terminators_put_out
    (compiled : Program.compile interpretation documents = .ok program) (visible : text ≠ "\n")
    (bare : documents[short.index]? =
      some (.line ⟨.literal text :: children, false, source, indentation⟩ :: lines))
    (whole : documents[long.index]? =
      some ((first :: terminators).map (fun terminator => .line (.newline terminator)) ++
        .line ⟨.literal text :: children, false, source, indentation⟩ :: lines))
    (options : Render.Options σ) (host : σ) :
    program.LeadBy terminators
      (terminators.foldl Standing.afterChunk .start = .start ∨ indentation = none ∧ text ≠ "")
      long short options host := by
  have flows := flow_newlines compiled visible bare whole options
  have both : _ ∧ _ := drain_newlines flows host
  refine ⟨both.1, both.2, fun empty => ?_, fun settled content plain => ?_⟩
  · rw [both.1, join_eq_empty.2 empty, foldl_afterChunk_empty empty]
    simp only [String.empty_append, id_map']
    rfl
  · rw [both.1, drain_settled compiled visible bare settled, plain]
    refine ⟨rfl, fun same => join_eq_empty.1 ?_⟩
    exact String.append_eq_right_iff.1 (Except.ok.inj same)

end Documents

/-- A document that begins with two lines of terminators, and the same without them. -/
def blankTemplates : List Document :=
  let content : Node := .line ⟨[.literal "a"], false, "", none⟩
  [[.line (.newline "\n"), .line (.newline "\n"), content], [content]]

def blankProgram : Program Unit where
  documents :=
    let content : Line Unit := ⟨[.literal "a"], none, none⟩
    [[.newline "\n", .newline "\n", content], [content]]

def blankInterpretation : Interpretation Unit :=
  fun fragment => .ok (.read fragment.source)

theorem blank_compiled : Program.compile blankInterpretation blankTemplates = .ok blankProgram :=
  rfl

/-- The document begins with a blank line, and without the two lines it does not. -/
theorem blank_line_put_out :
    Program.compile blankInterpretation blankTemplates = .ok blankProgram ∧
      (blankProgram.renderToEnd ⟨0⟩ ()).toText = .ok "\na" ∧
      (blankProgram.renderToEnd ⟨1⟩ ()).toText = .ok "a" :=
  ⟨blank_compiled, rfl, rfl⟩

theorem blank_line_leads :
    Program.compile blankInterpretation blankTemplates = .ok blankProgram ∧
      blankTemplates[0]? = some
        (["\n", "\n"].map (fun terminator => .line (.newline terminator)) ++
          [.line ⟨[.literal "a"], false, "", none⟩]) ∧
      blankTemplates[1]? = some [.line ⟨[.literal "a"], false, "", none⟩] ∧ "a" ≠ "\n" ∧
      blankProgram.LeadBy ["\n"]
        (["\n"].foldl Standing.afterChunk .start = .start ∨
          (none : Option String) = none ∧ "a" ≠ "")
        ⟨0⟩ ⟨1⟩ {} () :=
  ⟨blank_compiled, rfl, rfl, by decide,
    leading_terminators_put_out blank_compiled (by decide) rfl rfl {} ()⟩

end Stencil
