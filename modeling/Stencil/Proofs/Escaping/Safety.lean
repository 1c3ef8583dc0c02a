import Stencil.Proofs.Comparison.Accounts
import Stencil.Proofs.Escaping.Harmless

/-! # No markup but a program's own

With escaping, whatever a program puts out is a text of its own or means nothing in markup, if
no output is raw and no transform puts out what was put out before.  A text that came from a
call has been escaped exactly once, on whatever way it came into the document.
-/

namespace Stencil

open Eager (Occasion)

variable {σ : Type}

namespace Program

/-- A text that stands in the program itself. -/
def Static (program : Program σ) (text : String) : Prop :=
  ∃ part ∈ program.parts, text ∈ part.texts

/-- No output puts out texts as they are. -/
def Rawless (program : Program σ) : Prop :=
  ∀ expression, .routine (.output expression true) ∉ program.parts

/-- The chunk of a leaf of a value that was the answer of an output of the program. -/
structure Stems (program : Program σ) (answers : Host.Callable σ → Invocation → Value → Prop)
    (leaf : Leaf) (text : String) : Prop where
  output : program.Shows answers false leaf
  escaped : text = leaf.chunk .html

end Program

/-- Only texts of the program and escaped leaves of outputs are put out. -/
def Likeness.outputs (program : Program σ)
    (answers : Host.Callable σ → Invocation → Value → Prop) : Likeness σ where
  answers
  chunk one other := one = other ∧
    (one = "" ∨ program.Static one ∨ ∃ leaf, program.Stems answers leaf one)
  cut _ := False
  deep := True
  blank := ⟨rfl, .inl rfl⟩
  newline same := congrArg isNewline same.1
  empty same := congrArg String.isEmpty same.1

theorem Program.suits_outputs {program : Program σ} (rawless : program.Rawless)
    (transformless : program.Transformless)
    (answers : Host.Callable σ → Invocation → Value → Prop) :
    Suits (.outputs program answers) .html .html program.parts where
  texts part member text stands := ⟨rfl, .inr (.inl ⟨part, member, stands⟩)⟩
  transforms expression body member := absurd member (transformless expression body)
  outputs expression raw member value answered := by
    obtain ⟨bindings, answered⟩ := answered
    cases raw with
    | true => exact absurd member (rawless expression)
    | false =>
      rw [value.chunks_leaves]
      refine List.forall₂_same.2 fun chunk among => ⟨rfl, .inr (.inr ?_)⟩
      obtain ⟨leaf, found, rfl⟩ := List.mem_map.1 among
      exact ⟨leaf, ⟨expression, bindings, value, member, answered, found⟩, rfl⟩

/-- Every chunk of a rendering with escaping is a text of the program, or it is harmless and stems
from a leaf that an output got from an earlier call.  That of a text has been escaped once. -/
theorem dynamic_chunks_escaped (occasion : Occasion σ) (rawless : occasion.program.Rawless)
    (transformless : occasion.program.Transformless) (escape : occasion.options.escape = .html)
    (document : DocId) (host : σ) :
    let account := occasion.account document host
    (∀ before text after, account.entries = before ++ .chunk text :: after →
      occasion.program.Static text ∨ Harmless text.toList ∧
        ∃ leaf, occasion.program.Stems
          (fun callable invocation value => .call callable invocation (.ok value) ∈ before)
          leaf text) ∧
      occasion.Tells document host account := by
  intro account
  refine ⟨fun before text after split => ?_, occasion.account_tells document host⟩
  let like : Likeness σ := .outputs occasion.program fun callable invocation value =>
    .call callable invocation (.ok value) ∈ before
  have flow : Flow.Alike like (Progress.Alike like)
      (occasion.program.flow occasion.options document)
      (occasion.program.flow occasion.options document) := by
    refine Program.flow_alike_of_depth ?_ True.intro rfl document
    rw [escape]
    exact Program.suits_outputs rawless transformless _
  obtain ⟨visible, _, rfl, kept⟩ := (Flow.Alike.poll fun _ => flow).chunk_kept (fun _ => id)
    occasion.around 0 .start host split fun _ _ _ => id
  obtain blank | static | ⟨leaf, stems⟩ := kept
  · exact absurd blank visible
  · exact .inl static
  · refine .inr ⟨?_, leaf, stems⟩
    rw [stems.escaped]
    exact leaf.chunk_harmless

/-- A page that hands a title and a body to a layout, which has the body twice. -/
def titleExample : Program Unit where
  documents :=
    let value (source : String) (value : Value) : Program.Expression Unit :=
      ⟨source, [], [], .untyped source fun _ => pure value⟩
    let title : Program.Expression Unit := .read "title" ⟨0, 0⟩
    [[⟨[.inclusion ⟨1⟩ [("title", value "news" (.list [.text "<&", .bool true]))]
        [⟨"body", [⟨[.literal "<b>", .output (value "quote" (.text "\"\'")) false],
          none, none⟩]⟩]], none, none⟩],
      [⟨[.binding "title" none [⟨[.output title false], none, none⟩], .slot "body",
        .slot "body"], none, some "  "⟩]]

theorem title_escaped :
    let occasion : Occasion Unit := ⟨titleExample, {}, fun _ host => host⟩
    let account := occasion.account ⟨0⟩ ()
    titleExample.Rawless ∧ titleExample.Transformless ∧ occasion.options.escape = .html ∧
      (∀ before text after, account.entries = before ++ .chunk text :: after →
        titleExample.Static text ∨ Harmless text.toList ∧
          ∃ leaf, titleExample.Stems
            (fun callable invocation value => .call callable invocation (.ok value) ∈ before)
            leaf text) ∧
      account.drained.chunks =
        ["  ", "&lt;&amp;", "true", "<b>", "&quot;&#39;", "<b>", "&quot;&#39;"] := by
  intro occasion account
  have rawless : titleExample.Rawless := by
    simp [Program.Rawless, Program.parts, titleExample, Program.blockParts, Program.childParts,
      Program.sectionParts, Program.Routine.innerParts]
  have transformless : titleExample.Transformless := by
    simp [Program.Transformless, Program.parts, titleExample, Program.blockParts,
      Program.childParts, Program.sectionParts, Program.Routine.innerParts]
  exact ⟨rawless, transformless, rfl,
    (dynamic_chunks_escaped occasion rawless transformless rfl ⟨0⟩ ()).1, by decide +kernel⟩

end Stencil
