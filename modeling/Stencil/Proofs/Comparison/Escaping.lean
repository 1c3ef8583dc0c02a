import Stencil.Proofs.Comparison.Accounts
import Stencil.Proofs.Escaping.Text
import Stencil.Proofs.Leaves

/-! # Escaping changes nothing but chunks

What a rendering puts out with and without escaping differs chunk by chunk, if no transform
gathers chunks into a value.  Where a text stands, what joins it to other texts, which calls are
made and how the rendering ends are decided by the chunks, but only by whether they are empty
and whether they are newlines.
-/

namespace Stencil

open Eager (Occasion)

variable {σ : Type}

/-- A text that a program puts out as it is: one of its own texts, a leaf of a value that a raw
output got from a call, or a number or truth value that any output got. -/
inductive Program.Verbatim (program : Program σ)
    (answers : Host.Callable σ → Invocation → Value → Prop) : String → Prop where
  | static {part : Part σ} {text : String} :
      part ∈ program.parts → text ∈ part.texts → Verbatim program answers text
  | raw {leaf : Leaf} :
      program.Shows answers true leaf → Verbatim program answers (leaf.chunk .plain)
  | number {amount : Float} :
      program.Shows answers false (.number amount) →
      Verbatim program answers (Value.number amount).toText
  | bool {truth : Bool} :
      program.Shows answers false (.bool truth) →
      Verbatim program answers (Value.bool truth).toText

/-- Chunks are escaped in the first rendering, unless they are put out as they are. -/
def Likeness.escaping (program : Program σ)
    (answers : Host.Callable σ → Invocation → Value → Prop) : Likeness σ where
  answers
  chunk one other :=
    one = Escape.html.apply other ∨ (one = other ∧ program.Verbatim answers other)
  cut _ := False
  deep := True
  blank := .inl rfl
  newline := by
    rintro one other (rfl | ⟨rfl, -⟩)
    · exact Escape.apply_html_isNewline other
    · rfl
  empty := by
    rintro one other (rfl | ⟨rfl, -⟩)
    · exact Escape.apply_html_isEmpty other
    · rfl

section Chunks

variable {program : Program σ} {answers : Host.Callable σ → Invocation → Value → Prop}

theorem Leaf.chunk_escaping {leaf : Leaf} (shown : program.Shows answers false leaf) :
    (Likeness.escaping program answers).chunk (leaf.chunk .html) (leaf.chunk .plain) := by
  cases leaf with
  | text content => exact .inl rfl
  | number amount => exact .inr ⟨rfl, .number shown⟩
  | bool truth => exact .inr ⟨rfl, .bool shown⟩

theorem Program.suits_escaping (transformless : program.Transformless) :
    Suits (.escaping program answers) .html .plain program.parts where
  texts _ member _ stands := .inr ⟨rfl, .static member stands⟩
  transforms expression body member := absurd member (transformless expression body)
  outputs expression raw member value answered := by
    obtain ⟨bindings, answered⟩ := answered
    rw [value.chunks_leaves, value.chunks_leaves]
    refine List.forall₂_map_left_iff.2 (List.forall₂_map_right_iff.2 (List.forall₂_same.2 ?_))
    intro leaf found
    have shown : program.Shows answers raw leaf :=
      ⟨expression, bindings, value, member, answered, found⟩
    cases raw with
    | true => exact .inr ⟨rfl, .raw shown⟩
    | false => exact Leaf.chunk_escaping shown

end Chunks

/-- With and without escaping the same calls are made in the same order among as many chunks, and
the end is the same.  Each chunk is the escaped form of the other one or is put out as it is, and
then it is a text of the program or is known from what was answered to its outputs. -/
theorem escaping_keeps_layout (program : Program σ) (transformless : program.Transformless)
    (options : Render.Options σ) (meanwhile : Nat → σ → σ) (document : DocId) (host : σ) :
    let occasion escape := Occasion.mk program { options with escape } meanwhile
    let account escape := (occasion escape).account document host
    let answers callable invocation value :=
      .call callable invocation (.ok value) ∈ (account .html).entries
    List.Forall₂ (Entry.Alike (.escaping program answers)) (account .html).entries
        (account .plain).entries ∧
      (account .html).ending = (account .plain).ending ∧
      (account .html).host = (account .plain).host ∧
      ∀ escape, (occasion escape).Tells document host (account escape) := by
  intro occasion account answers
  have flows : Flow.Alike (.escaping program answers) (Progress.Alike (.escaping program answers))
      (program.flow { options with escape := .html } document)
      (program.flow { options with escape := .plain } document) := by
    refine Program.flow_alike_of_depth ?_ True.intro ?_ document
    · exact Program.suits_escaping transformless
    · rfl
  have alike : Account.Alike (.escaping program answers) (account .html) (account .plain) :=
    (Flow.Alike.poll fun _ => flows).account (.refl _ (occasion .html).around) 0 .start host
      fun _ _ _ => id
  have told escape := (occasion escape).account_tells document host
  generalize account .plain = plain at alike ⊢
  generalize account .html = escaped at alike
  cases alike with
  | whole entries => exact ⟨entries, rfl, rfl, told⟩
  | cut impossible => exact impossible.elim

/-- A line of markup around a list, in which one text is a newline and another one is empty. -/
def markupExample : Program Unit where
  documents := [[⟨[
    .literal "<p>",
    .output ⟨"items", [], [], .untyped "items" fun _ =>
      pure (.list [.text "a&b", .text "\n", .text "", .nothing, .bool true, .text "<"])⟩ false],
    none, some "  "⟩]]

theorem markup_keeps_layout :
    let account escape :=
      (Occasion.mk markupExample { escape } fun _ host => host).account ⟨0⟩ ()
    let answers callable invocation value :=
      .call callable invocation (.ok value) ∈ (account .html).entries
    markupExample.Transformless ∧
      List.Forall₂ (Entry.Alike (.escaping markupExample answers)) (account .html).entries
        (account .plain).entries ∧
      (account .html).drained.chunks = ["  ", "<p>", "a&amp;b", "\n", "  ", "true", "&lt;"] ∧
      (account .plain).drained.chunks = ["  ", "<p>", "a&b", "\n", "  ", "true", "<"] := by
  have transformless : markupExample.Transformless := by
    simp [Program.Transformless, Program.parts, markupExample, Program.blockParts,
      Program.childParts, Program.Routine.innerParts]
  exact ⟨transformless,
    (escaping_keeps_layout markupExample transformless {} (fun _ host => host) ⟨0⟩ ()).1,
    by decide +kernel, by decide +kernel⟩

end Stencil
