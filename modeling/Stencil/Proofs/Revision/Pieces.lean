import Stencil.Proofs.Revision.Documents

/-! # Literals in pieces

A literal may as well be put out in two pieces.  The constructs around it, at whatever place it
stands, decide by chunks where separators, terminators and indentations go, and what a section has
recorded; but they come to the same text and hand the same values to the host.
-/

namespace Stencil

open Eager (Occasion)
open Host (Interpretation)
open Template (Document Spot Path)

variable {σ : Type}

/-- Chunks may come in two pieces, and nothing else changes. -/
def Revision.splitting : Revision σ :=
  { Revision.unchanged with splits := True }

theorem literal_split {interpretation : Interpretation σ} {absent : RenderError}
    {reached : Template.Include → Prop}
    {versions : Versions interpretation absent .splitting reached}
    {environment : Lexical.Environment} {one two : String} (first : Inline one)
    (second : Inline two) :
    versions.Children environment [.literal (one ++ two)] [.literal one, .literal two] := by
  intro progress later alike
  exact .split True.intro first second rfl (.finish alike)

theorem Account.Revised.toText {revision : Revision σ} {one other : Account σ}
    (revised : Account.Revised revision one other) :
    other.drained.toText = one.drained.toText := by
  obtain ⟨entries, ending, host⟩ := one
  obtain ⟨others, _, _⟩ := other
  obtain ⟨revised, rfl, rfl⟩ := revised
  cases ending with
  | failed error => rfl
  | complete | bottomless => exact congrArg Except.ok (revised.text _ host)

/-- Wherever a literal stands in the documents of a program, two literals may take its place that
make up its text, as long as both are content of the line.  The larger documents are compiled as
well, and without a token every document is rendered to the same text or fails with the same error,
by the same calls with the same bindings. -/
theorem literal_in_pieces {interpretation : Interpretation σ} {documents : List Document}
    {program : Program σ} (compiled : Program.compile interpretation documents = .ok program)
    {place : DocId} {path : Path} {spot : Spot} {one two : String}
    (given : documents[place.index]? = some (path.fill (spot.fill [.literal (one ++ two)])))
    (first : one ≠ "" ∧ one ≠ "\n") (second : two ≠ "" ∧ two ≠ "\n") :
    ∃ larger, Program.compile interpretation (documents.set place.index
        (path.fill (spot.fill [.literal one, .literal two]))) = .ok larger ∧
      ∀ (id : DocId) (options : Render.Options σ), options.isCancelled = none → ∀ host,
        let whole := (program.render id options).drain host
        let pieces := (larger.render id options).drain host
        pieces.toText = whole.toText ∧ pieces.calls = whole.calls ∧
          pieces.ending = whole.ending ∧ pieces.host = whole.host := by
  have inline {text : String} (content : text ≠ "" ∧ text ≠ "\n") : Inline text :=
    ⟨by simpa using content.1, beq_eq_false_iff_ne.2 content.2⟩
  -- Two literals may stand wherever one may.
  have wellFormed : Program.WellFormed interpretation (documents.set place.index
      (path.fill (spot.fill [.literal one, .literal two]))) := by
    intro document member
    rw [List.length_set]
    obtain here | rfl := List.mem_or_eq_of_mem_set member
    · exact (Program.compile_eq_ok_iff.trans Program.documentChecks_hold).1 ⟨program, compiled⟩
        document here
    · refine Path.fits (wellFormed_of_compile compiled given) fun scope fits => ?_
      refine (Spot.fits fits).2 _ fun node literal => ?_
      obtain rfl | rfl := List.mem_pair.1 literal <;> exact .literal _
  obtain ⟨larger, again⟩ :=
    (Program.compile_eq_ok_iff.trans Program.documentChecks_hold).2 wellFormed
  refine ⟨larger, again, fun id options uncancelled host => ?_⟩
  have unnoticed : Revision.splitting.Unnoticed
      (Occasion.mk program options fun _ host => host).around :=
    ⟨nofun, fun _ => uncancelled_around uncancelled program _, fun _ _ _ => rfl⟩
  have drain (program : Program σ) : (program.render id options).drain host =
      ((Occasion.mk program options fun _ host => host).account id host).drained :=
    (Occasion.account_tells ⟨program, options, fun _ host => host⟩ id host).drain fun _ _ => rfl
  have revised := account_revised compiled given again id
    (fun versions _ _ _ _ known => .spot spot known fun _ =>
      literal_split (inline first) (inline second))
    options _ unnoticed host
  simp only [drain]
  exact ⟨revised.toText, revised.entries.calls .complete host nofun nofun, revised.ending.symm,
    revised.host.symm⟩

/-- A place on an indented line in a section, in a loop over two elements. -/
def pairPath : Path :=
  [(⟨[], [], [], false, "", none, []⟩, .part ⟨1⟩ [] [] "body" []),
    (⟨[], [], [], false, "", none, []⟩, .loop "x" none ⟨"pair", []⟩ (some ", ") [])]

def indentedSpot : Spot := ⟨[], [], [], false, "", some "  ", []⟩

/-- The place in the first document, and a layout that has the section twice. -/
def piecesTemplates (nodes : List Template.Node) : List Document :=
  let slot : Template.Node := .line ⟨[.slot "body"], false, "", none⟩
  [pairPath.fill (indentedSpot.fill nodes), [slot, .line (.newline "\n"), slot]]

def piecesDrained (nodes : List Template.Node) : Option (Drained Unit) :=
  (Program.compile pairInterpretation (piecesTemplates nodes)).toOption.map fun program =>
    (program.render ⟨0⟩ {}).drain ()

/-- Neither the separator nor the indentation gets between the pieces, and the section is put out
again in the pieces that it was recorded in. -/
theorem pieces_in_section :
    let whole := piecesDrained [.literal "ab"]
    let pieces := piecesDrained [.literal "a", .literal "b"]
    pieces.map Drained.chunks =
        some ["  ", "a", "b", ", ", "a", "b", "\n", "  ", "a", "b", ", ", "a", "b"] ∧
      whole.map Drained.chunks = some ["  ", "ab", ", ", "ab", "\n", "  ", "ab", ", ", "ab"] ∧
      pieces.map Drained.toText = whole.map Drained.toText ∧
      pieces.map Drained.calls = whole.map Drained.calls := by
  obtain ⟨program, compiled⟩ : ∃ program,
    Program.compile pairInterpretation (piecesTemplates [.literal "ab"]) = .ok program := ⟨_, rfl⟩
  have given : (piecesTemplates [.literal "ab"])[(DocId.mk 0).index]? =
      some (pairPath.fill (indentedSpot.fill [.literal ("a" ++ "b")])) := rfl
  obtain ⟨larger, again, same⟩ := literal_in_pieces compiled given (by decide) (by decide)
  have again : Program.compile pairInterpretation
      (piecesTemplates [.literal "a", .literal "b"]) = .ok larger := again
  refine ⟨by decide +kernel, by decide +kernel, ?_⟩
  obtain ⟨text, calls, -, -⟩ := same ⟨0⟩ {} rfl ()
  simp only [piecesDrained, compiled, again]
  exact ⟨congrArg some text, congrArg some calls⟩

end Stencil
