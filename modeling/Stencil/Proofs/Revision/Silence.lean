import Stencil.Proofs.Leaves
import Stencil.Proofs.Revision.Constants
import Stencil.Proofs.Revision.Pieces

/-! # Silent nodes and lines

A node that comes to no chunk, not even an empty one, can be put among the children of any line,
and a line of nothing but such nodes among the lines of any block.  Nobody notices: not the line,
which is not begun, nor the block or the loop around it, which have not had content, nor the section
that is recorded, nor the output.  Only the calls of the node's own expression are made in addition.

An empty literal is not silent.  It is content.
-/

namespace Stencil

open Eager (Occasion)
open Host (Interpretation)
open Template (Document Fragment Include Spot Path Supplied)

variable {σ : Type} {interpretation : Interpretation σ}

/-- The fragment by which a node puts something out, binds a name or selects a block. -/
def Template.Node.evaluated : Template.Node → List Fragment
  | .expression _ fragment | .choice fragment .. | .loop _ _ fragment .. => [fragment]
  | .binding _ fragment _ => fragment.toList
  | .line _ | .literal _ | .transform .. | .inclusion .. | .slot _ | .stray _ => []

/-- Nodes that come to no chunk.  Of the blocks that are not selected nothing is asked. -/
inductive Silent (interpretation : Interpretation σ) (missing : String → Prop) :
    Template.Node → Prop where
  | effect {fragment : Fragment} {value : Value} :
      Constant interpretation fragment value →
      Silent interpretation missing (.expression .effect fragment)
  | output (kind : Template.ExpressionKind) {fragment : Fragment} {value : Value} :
      Constant interpretation fragment value → value.leaves = [] →
      Silent interpretation missing (.expression kind fragment)
  | binding (name : String) {fragment : Fragment} {value : Value} :
      Constant interpretation fragment value →
      Silent interpretation missing (.binding name (some fragment) [])
  | choice {condition : Fragment} {value : Value} {body otherwise : List Template.Node} :
      Constant interpretation condition value →
      (if value.isTruthy then body else otherwise) = [] →
      Silent interpretation missing (.choice condition body otherwise)
  | loop (item : String) (index : Option String) {iterable : Fragment}
      (separator : Option String) (body : List Template.Node) :
      Constant interpretation iterable (.list []) →
      Silent interpretation missing (.loop item index iterable separator body [])
  | slot {name : String} : missing name → Silent interpretation missing (.slot name)

/-- A block becomes another one by a silent child or by a line of silent children, which evaluate
these fragments. -/
inductive Insertion (interpretation : Interpretation σ) (missing : String → Prop) :
    List Template.Node → List Template.Node → List Fragment → Prop where
  | child (spot : Spot) {node : Template.Node} :
      Silent interpretation missing node →
      Insertion interpretation missing (spot.fill []) (spot.fill [node]) node.evaluated
  | line (before after : List Template.Node) {children : List Template.Node} (isNewline : Bool)
      (source : String) (indentation : Option String) :
      (∀ node ∈ children, Silent interpretation missing node) →
      Insertion interpretation missing (before ++ after)
        (before ++ .line ⟨children, isNewline, source, indentation⟩ :: after)
        (children.flatMap Template.Node.evaluated)

section Flows

variable {absent : RenderError} {reached : Include → Prop} {fragments : List Fragment}
  {versions : Versions interpretation absent (.constants interpretation [] fragments False) reached}
  {environment : Lexical.Environment} {size : Nat} {missing : String → Prop}

theorem Silent.node {node : Template.Node} (silent : Silent interpretation missing node)
    (unsupplied : ∀ part ∈ versions.context.sections, ¬missing part.1)
    (fits : Program.ChildFits interpretation size (environment.map Prod.fst) node)
    (own : ∀ fragment ∈ node.evaluated, fragment ∈ fragments) {progress later : Progress}
    (alike : Progress.Revised (.constants interpretation [] fragments False) progress later) :
    Flow.Revised (.constants interpretation [] fragments False)
      (Progress.Revised (.constants interpretation [] fragments False)) (.finish progress)
      (Lexical.nodeFlow interpretation absent versions.other versions.within environment later
        node) := by
  cases silent with
  | effect constant =>
    obtain _ | _ | _ | readable := fits
    exact .addConstant constant readable.bound (own _ (List.mem_singleton_self _)) (.finish alike)
  | output kind constant empty =>
    obtain _ | _ | _ | readable := fits
    refine .addConstant constant readable.bound (own _ (List.mem_singleton_self _)) ?_
    cases kind with
    | effect => exact .finish alike
    | normal | inject =>
      simp only [Value.chunks_leaves, empty]
      exact .finish alike
  | binding name constant =>
    obtain _ | _ | _ | _ | ⟨readable, -⟩ := fits
    exact .addConstant constant (readable _ rfl).bound (own _ (List.mem_singleton_self _))
      (.finish alike)
  | @choice condition value body otherwise constant selected =>
    obtain _ | _ | _ | _ | _ | ⟨readable, -, -⟩ := fits
    refine .addConstant constant readable.bound (own _ (List.mem_singleton_self _)) ?_
    cases truthy : value.isTruthy <;> rw [truthy] at selected <;> cases selected <;>
      exact .finish alike
  | loop item index separator body constant =>
    obtain _ | _ | _ | _ | _ | _ | ⟨readable, -, -⟩ := fits
    exact .addConstant constant readable.bound (own _ (List.mem_singleton_self _)) (.finish alike)
  | @slot name absent =>
    have none : versions.context.sections.lookup name = none := by
      rw [List.lookup_eq_none_iff]
      intro part member
      refine bne_iff_ne.2 ?_
      rintro rfl
      exact unsupplied part member absent
    -- The same sections are supplied on both sides.
    have same := lookup_forall₂ versions.contexts.sections name
    rw [none] at same
    simp only [Lexical.nodeFlow, Flow.slot, Context.section?]
    generalize versions.within.sections.lookup name = found at same
    cases same
    exact .finish alike

theorem Silent.children {nodes : List Template.Node}
    (silent : ∀ node ∈ nodes, Silent interpretation missing node)
    (unsupplied : ∀ part ∈ versions.context.sections, ¬missing part.1)
    (fits : ∀ node ∈ nodes,
      Program.ChildFits interpretation size (environment.map Prod.fst) node)
    (own : ∀ fragment ∈ nodes.flatMap Template.Node.evaluated, fragment ∈ fragments) :
    versions.Children environment [] nodes := by
  induction nodes with
  | nil => exact fun _ _ alike => .finish alike
  | cons node nodes ih =>
    obtain ⟨first, silent⟩ := List.forall_mem_cons.1 silent
    obtain ⟨here, fits⟩ := List.forall_mem_cons.1 fits
    obtain ⟨mine, own⟩ := List.forall_mem_append.1 own
    intro progress later alike
    have kept : ¬∃ part, node = .stray part := by
      rintro ⟨part, rfl⟩
      cases first
    simp only [Lexical.childrenFlow_cons kept]
    exact (first.node unsupplied here mine alike).bind (ih silent fits own)

/-- A line without chunks is not begun, and the lines behind it do not know of it. -/
theorem Versions.Block.silent {nodes rest : List Template.Node}
    (silent : versions.Children environment [] nodes)
    (later : versions.Block environment rest rest) (isNewline : Bool) (source : String)
    (indentation : Option String) :
    versions.Block environment rest (.line ⟨nodes, isNewline, source, indentation⟩ :: rest) := by
  intro hasContent progress after alike
  have idle : Lexical.blockFlow interpretation absent versions.one versions.context environment
        hasContent progress rest =
      (Flow.finish (progress, false) >>= fun result => Lexical.blockFlow interpretation absent
        versions.one versions.context environment (hasContent || result.2) result.1 rest) :=
    congrArg (fun content => Lexical.blockFlow interpretation absent versions.one versions.context
      environment content progress rest) (Bool.or_false hasContent).symm
  simp only [Lexical.blockFlow, Lexical.lineFlow]
  rw [idle]
  refine ((silent _ _ alike).line _ indentation .fresh).bind ?_
  rintro ⟨progress, content⟩ ⟨after, _⟩ ⟨alike, rfl⟩
  exact later _ _ _ alike

/-- What is inserted does nothing but evaluate its own fragments. -/
theorem Insertion.block {block other : List Template.Node}
    (insertion : Insertion interpretation missing block other fragments)
    (unsupplied : ∀ part ∈ versions.context.sections, ¬missing part.1)
    (fits : Program.BlockFits interpretation size (environment.map Prod.fst) other)
    (known : ∀ inclusion ∈ Template.includesOf block, reached inclusion) :
    versions.Block environment block other := by
  cases insertion with
  | child spot silent =>
    refine .spot spot known fun _ => Silent.children ?_ unsupplied (Spot.fits fits).1 ?_
    · exact List.forall_mem_singleton.2 silent
    · simp
  | line before after isNewline source indentation silent =>
    rw [Template.includesOf_append] at known
    obtain ⟨ahead, behind⟩ := List.forall_mem_append.1 known
    obtain ⟨-, there⟩ := List.forall_mem_append.1 fits
    obtain ⟨⟨here⟩, -⟩ := List.forall_mem_cons.1 there
    refine .behind before ahead (.silent ?_ (versions.block_same after behind _) _ _ _)
    exact Silent.children silent unsupplied here fun _ member => member

end Flows

/-- Wherever a child that comes to no chunk is inserted into a line, or a line of such children into
a block, nothing changes in any rendering but that its own expressions are evaluated in addition:
there are the same chunks and calls in the same order and the same ending, on whatever host and
occasion.  A slot comes to no chunk in a rendering if no include that is reached supplies a section
for it to the document in which it stands. -/
theorem silent_insertion_unnoticed {documents : List Document} {program larger : Program σ}
    (compiled : Program.compile interpretation documents = .ok program) {place : DocId}
    {path : Path} {block other : List Template.Node}
    (given : documents[place.index]? = some (path.fill block))
    (again : Program.compile interpretation (documents.set place.index (path.fill other)) =
      .ok larger)
    (id : DocId) {fragments : List Fragment}
    (insertion : Insertion interpretation (fun name => ¬Supplied documents id place name) block
      other fragments)
    (options : Render.Options σ) (meanwhile : Nat → σ → σ) (host : σ) :
    let before := (Occasion.mk program options meanwhile).account id host
    let after := (Occasion.mk larger options meanwhile).account id host
    Account.Revised (.constants interpretation [] fragments False) before after ∧
      after.drained.chunks = before.drained.chunks ∧
      (Occasion.mk program options meanwhile).Tells id host before ∧
      (Occasion.mk larger options meanwhile).Tells id host after := by
  have revised := account_revised compiled given again id
    (fun versions supplied _ _ fits known => insertion.block
      (fun part member unsupplied => unsupplied (supplied part member)) fits known)
    options meanwhile ⟨nofun, nofun, nofun⟩ host
  exact ⟨revised, revised.entries.chunks .complete host not_false, Occasion.account_tells _ _ _,
    Occasion.account_tells _ _ _⟩

/-- Fragments are lists of two texts or of nothing, or nothing themselves. -/
def quietInterpretation : Interpretation Unit
  | ⟨"pair", _⟩ => .ok (.untyped "pair" fun _ => pure (.list [.text "a", .text "b"]))
  | ⟨"none", _⟩ => .ok (.untyped "none" fun _ => pure (.list []))
  | ⟨source, _⟩ => .ok (.untyped source fun _ => pure .nothing)

/-- Children of each kind that come to no chunk. -/
def quietNodes : List Template.Node :=
  [.expression .effect ⟨"pair", []⟩, .expression .normal ⟨"none", []⟩,
    .binding "y" (some ⟨"bound", []⟩) [], .choice ⟨"never", []⟩ [.line (.newline "\n")] [],
    .loop "y" none ⟨"none", []⟩ (some "; ") [.line (.newline "\n")] [], .slot "body"]

/-- A document with a block in a loop in a section, and a layout that has the section twice. -/
def quietTemplates (block : List Template.Node) : List Document :=
  let slot : Template.Node := .line ⟨[.slot "body"], false, "", none⟩
  [pairPath.fill block, [slot, .line (.newline "\n"), slot]]

def quietAccount (block : List Template.Node) : Option (Account Unit) :=
  (Program.compile quietInterpretation (quietTemplates block)).toOption.map fun program =>
    (Occasion.mk program {} fun _ host => host).account ⟨0⟩ ()

def quietLine (text : String) : Template.Node := .line ⟨[.literal text], false, "", some "  "⟩

/-- In each round of the loop all expressions of the line are evaluated, and there is no newline. -/
theorem quiet_line_in_section :
    let before := quietAccount ([quietLine "x"] ++ [.line (.newline "\n"), quietLine "z"])
    let after := quietAccount ([quietLine "x"] ++ .line ⟨quietNodes, true, "\n", some "  "⟩ ::
      [.line (.newline "\n"), quietLine "z"])
    after.map (fun account => account.drained.chunks) =
        before.map (fun account => account.drained.chunks) ∧
      before.map (fun account => account.drained.chunks) =
        some ["  ", "x", "\n", "  ", "z", ", ", "x", "\n", "  ", "z", "\n",
          "  ", "x", "\n", "  ", "z", ", ", "x", "\n", "  ", "z"] ∧
      before.map (fun account => account.drained.calls.map Invocation.source) = some ["pair"] ∧
      after.map (fun account => account.drained.calls.map Invocation.source) =
        some ["pair", "pair", "none", "bound", "never", "none",
          "pair", "none", "bound", "never", "none"] := by
  have constant (source : String) {value : Value}
      (means : quietInterpretation ⟨source, []⟩ = .ok (.untyped source fun _ => pure value)) :
      Constant quietInterpretation ⟨source, []⟩ value := ⟨_, means, nofun, fun _ _ => rfl⟩
  let block := [quietLine "x"] ++ [.line (.newline "\n"), quietLine "z"]
  -- Only the layout is included, and only the document itself has the slot in its line.
  have layout : ∀ inclusion, Template.Reaches (quietTemplates block) ⟨0⟩ inclusion →
      inclusion.target = ⟨1⟩ := by
    intro inclusion reached
    induction reached with
    | direct found member =>
      cases found
      obtain rfl := List.mem_singleton.1 member
      rfl
    | further _ found member target =>
      rw [target] at found
      cases found
      cases member
  have silent : ∀ node ∈ quietNodes, Silent quietInterpretation
      (fun name => ¬Supplied (quietTemplates block) ⟨0⟩ ⟨0⟩ name) node := by
    simp only [quietNodes, List.forall_mem_cons, List.not_mem_nil, false_implies, implies_true,
      and_true]
    refine ⟨.effect (constant "pair" rfl), .output .normal (constant "none" rfl) rfl,
      .binding "y" (constant "bound" rfl), .choice (constant "never" rfl) rfl,
      .loop "y" none (some "; ") _ (constant "none" rfl), .slot ?_⟩
    rintro ⟨inclusion, reached, here, -⟩
    cases here.symm.trans (layout inclusion reached)
  obtain ⟨program, compiled⟩ : ∃ program,
    Program.compile quietInterpretation (quietTemplates block) = .ok program := ⟨_, rfl⟩
  obtain ⟨larger, again⟩ : ∃ larger, Program.compile quietInterpretation (quietTemplates
    ([quietLine "x"] ++ .line ⟨quietNodes, true, "\n", some "  "⟩ ::
      [.line (.newline "\n"), quietLine "z"])) = .ok larger := ⟨_, rfl⟩
  have given : (quietTemplates block)[(DocId.mk 0).index]? = some (pairPath.fill block) := rfl
  obtain ⟨-, chunks, -⟩ := silent_insertion_unnoticed compiled given again ⟨0⟩
    (.line _ _ true "\n" (some "  ") silent) {} (fun _ host => host) ()
  have block : Program.compile quietInterpretation (quietTemplates
    ([quietLine "x"] ++ [.line (.newline "\n"), quietLine "z"])) = .ok program := compiled
  refine ⟨?_, by decide +kernel, by decide +kernel, by decide +kernel⟩
  simp only [quietAccount, block, again]
  exact congrArg some chunks

end Stencil
