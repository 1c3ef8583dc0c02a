import Mathlib.Data.List.DropRight
import Stencil.Proofs.Indentation.Marked

/-! # Well indented streams

In a well indented stream each chunk at the start of a line stands behind the indentations of the
lines around it, the outermost first, and no other chunk stands behind any indentation.  A stance
is what has to be known of the chunks so far to tell which chunks may come next.
-/

namespace Stencil

def Piece.isIndentation (piece : Piece) : Bool :=
  piece.role == .indentation

/-- It is no newline that is there as an indentation. -/
def Piece.IsStraight (piece : Piece) : Prop :=
  piece.isIndentation → isNewline piece.text = false

theorem Piece.crooked {piece : Piece} (crooked : ¬piece.IsStraight) :
    piece.isIndentation ∧ isNewline piece.text := by
  rwa [IsStraight, Classical.not_imp, Bool.not_eq_false] at crooked

/-- The texts that are put out at all. -/
def shown (texts : List String) : List String :=
  texts.filter (!·.isEmpty)

theorem shown_append (texts others : List String) :
    shown (texts ++ others) = shown texts ++ shown others :=
  List.filter_append ..

/-- The indentations that belong directly before a chunk which does or does not begin a line. -/
def Piece.due (piece : Piece) (atStart : Bool) : List String :=
  if atStart && !isNewline piece.text then shown piece.around else []

theorem Piece.due_newline {piece : Piece} (newline : isNewline piece.text) (atStart : Bool) :
    piece.due atStart = [] := by
  simp only [due, newline, Bool.not_true, Bool.and_false, Bool.false_eq_true, if_false]

theorem Piece.due_of_shown {piece : Piece} (none : shown piece.around = []) (atStart : Bool) :
    piece.due atStart = [] := by
  simp only [due, none, ite_self]

theorem isEmpty_concat (texts : List String) (text : String) :
    (texts ++ [text]).isEmpty = false := by
  simp

theorem not_isEmpty_of_isNewline {text : String} (newline : isNewline text) :
    text.isEmpty = false := by
  rw [eq_of_beq newline]
  rfl

/-- Whether what comes behind some chunks begins a line. -/
def atLineStart (stream : List Piece) : Bool :=
  stream.getLast?.all fun piece => isNewline piece.text

/-- The indentations directly before any chunk but a newline are those of the lines around it if
they stand at the start of a line, and else there are none. -/
def WellIndented (stream : List Piece) : Prop :=
  ∀ before piece after, stream = before ++ piece :: after → piece.isIndentation = false →
    (before.rtakeWhile Piece.isIndentation).map Piece.text =
      piece.due (atLineStart (before.rdropWhile Piece.isIndentation))

/-! ## Stances -/

inductive Stance where
  /-- There have been no chunks but newlines, and it is not known what else there has been. -/
  | unknown
  /-- Whether a line began before some indentations that have just been put out. -/
  | known (atStart : Bool) (run : List String)

namespace Stance

/-- No indentation is waiting for its chunk. -/
inductive Settled : Stance → Prop where
  | unknown : Settled .unknown
  | known (atStart : Bool) : Settled (.known atStart [])

inductive IsKnown : Stance → Prop where
  | known (atStart : Bool) (run : List String) : IsKnown (.known atStart run)

/-- A chunk may be put out, and then the output is or is not at the start of a line. -/
inductive Takes : Stance → Piece → Bool → Stance → Prop where
  /-- Nothing is put out, but something is learnt of the output. -/
  | learn {piece : Piece} (atStart : Bool) :
      piece.text.isEmpty → Takes .unknown piece atStart (.known atStart [])
  | blank {piece : Piece} {atStart : Bool} {run : List String} :
      piece.text.isEmpty →
      Takes (.known atStart run) piece (atStart && run.isEmpty) (.known atStart run)
  /-- Behind a newline something else may still be put ahead of the first other chunk. -/
  | skip {piece : Piece} :
      piece.isIndentation = false → isNewline piece.text → Takes .unknown piece true .unknown
  | indentation {piece : Piece} {run : List String} :
      piece.isIndentation → piece.text.isEmpty = false → isNewline piece.text = false →
      Takes (.known true run) piece false (.known true (run ++ [piece.text]))
  | first {piece : Piece} :
      piece.isIndentation = false → piece.text.isEmpty = false → isNewline piece.text = false →
      shown piece.around = [] → Takes .unknown piece false (.known false [])
  | text {piece : Piece} {atStart : Bool} {run : List String} :
      piece.isIndentation = false → piece.text.isEmpty = false →
      run = piece.due atStart →
      Takes (.known atStart run) piece (isNewline piece.text) (.known (isNewline piece.text) [])

/-- What is known of some chunks. -/
def of (stream : List Piece) : Stance :=
  .known (atLineStart (stream.rdropWhile Piece.isIndentation))
    ((stream.rtakeWhile Piece.isIndentation).map Piece.text)

def atStart : Stance → Bool
  | .unknown => false
  | .known atStart run => atStart && run.isEmpty

variable {stance later : Stance} {piece : Piece} {atStart answer : Bool}

theorem of_indentation (stream : List Piece) (indents : piece.isIndentation) :
    of (stream ++ [piece]) = .known (atLineStart (stream.rdropWhile Piece.isIndentation))
      ((stream.rtakeWhile Piece.isIndentation).map Piece.text ++ [piece.text]) := by
  simp only [of, List.rdropWhile_concat_pos _ _ _ indents,
    List.rtakeWhile_concat_pos _ _ _ indents, List.map_append, List.map_cons, List.map_nil]

theorem of_text (stream : List Piece) (text : piece.isIndentation = false) :
    of (stream ++ [piece]) = .known (isNewline piece.text) [] := by
  have other : ¬piece.isIndentation = true := by rw [text]; exact Bool.false_ne_true
  simp only [of, List.rdropWhile_concat_neg _ _ _ other, List.rtakeWhile_concat_neg _ _ _ other,
    atLineStart, List.getLast?_concat, Option.all_some, List.map_nil]

section Known

variable {run : List String}

theorem Takes.of_blank (takes : (known atStart run).Takes piece answer later)
    (empty : piece.text.isEmpty) :
    answer = (atStart && run.isEmpty) ∧ later = .known atStart run := by
  cases takes with
  | blank => exact ⟨rfl, rfl⟩
  | indentation _ visible | text _ visible => rw [empty] at visible; cases visible

theorem Takes.of_indents (takes : (known atStart run).Takes piece answer later)
    (indents : piece.isIndentation) (visible : piece.text.isEmpty = false) :
    atStart = true ∧ isNewline piece.text = false ∧ answer = false ∧
      later = .known true (run ++ [piece.text]) := by
  cases takes with
  | blank empty => rw [visible] at empty; cases empty
  | indentation _ _ other => exact ⟨rfl, other, rfl, rfl⟩
  | text text => rw [text] at indents; cases indents

theorem Takes.of_visible (takes : (known atStart run).Takes piece answer later)
    (text : piece.isIndentation = false) (visible : piece.text.isEmpty = false) :
    run = piece.due atStart ∧ answer = isNewline piece.text ∧
      later = .known (isNewline piece.text) [] := by
  cases takes with
  | blank empty => rw [visible] at empty; cases empty
  | indentation indents => rw [text] at indents; cases indents
  | text _ _ fits => exact ⟨fits, rfl, rfl⟩

theorem takes_newline (text : piece.isIndentation = false) (newline : isNewline piece.text)
    (atStart : Bool) : (known atStart []).Takes piece true (.known true []) := by
  have takes := @Takes.text piece atStart [] text (not_isEmpty_of_isNewline newline)
    (piece.due_newline newline atStart).symm
  rwa [newline] at takes

theorem Takes.of_newline (takes : (known atStart run).Takes piece answer later)
    (newline : isNewline piece.text) :
    piece.isIndentation = false ∧ run = [] ∧ answer = true ∧ later = .known true [] := by
  have visible := not_isEmpty_of_isNewline newline
  cases kind : piece.isIndentation with
  | true =>
    cases takes with
    | blank empty => rw [visible] at empty; cases empty
    | indentation _ _ other => rw [newline] at other; cases other
    | text text => rw [kind] at text; cases text
  | false =>
    obtain ⟨fits, rfl, rfl⟩ := takes.of_visible kind visible
    rw [piece.due_newline newline] at fits
    rw [newline]
    exact ⟨rfl, fits, rfl, rfl⟩

end Known

theorem Takes.isStraight (takes : stance.Takes piece answer later) : piece.IsStraight := by
  intro indents
  cases takes with
  | learn _ empty | blank empty =>
    exact Bool.eq_false_iff.2 fun newline =>
      absurd empty (Bool.eq_false_iff.1 (not_isEmpty_of_isNewline newline))
  | indentation _ _ other => exact other
  | skip text | first text | text text => rw [indents] at text; cases text

theorem takes_skip (admits : ∃ answer later, unknown.Takes piece answer later)
    (newline : isNewline piece.text) :
    unknown.Takes piece true unknown ∧ piece.isIndentation = false := by
  obtain ⟨_, _, admitted⟩ := admits
  cases admitted with
  | learn _ empty => rw [not_isEmpty_of_isNewline newline] at empty; cases empty
  | skip text => exact ⟨.skip text newline, text⟩
  | first _ _ other => rw [newline] at other; cases other

theorem Takes.isKnown_of_not_newline (takes : stance.Takes piece answer later)
    (other : isNewline piece.text = false) : later.IsKnown := by
  cases takes with
  | skip _ newline => rw [other] at newline; cases newline
  | _ => exact .known ..

theorem Takes.isKnown (takes : stance.Takes piece answer later) (known : stance.IsKnown) :
    later.IsKnown := by
  cases takes with
  | skip => cases known
  | _ => exact .known ..

/-- What may be put out where nothing is known may be put out everywhere, with the same effect.
Only behind a newline more is known than before. -/
theorem Takes.told (admits : ∃ answer later, unknown.Takes piece answer later) (atStart : Bool) :
    (∃ answer later, (known atStart []).Takes piece answer later) ∧
      ∀ answer later, (known atStart []).Takes piece answer later →
        unknown.Takes piece answer later ∨
          unknown.Takes piece answer unknown ∧ later = known true [] := by
  obtain ⟨_, _, admitted⟩ := admits
  cases admitted with
  | learn _ empty =>
    refine ⟨⟨_, _, .blank empty⟩, fun answer later takes => ?_⟩
    obtain ⟨rfl, rfl⟩ := takes.of_blank empty
    rw [List.isEmpty_nil, Bool.and_true]
    exact .inl (.learn atStart empty)
  | skip text newline =>
    refine ⟨⟨_, _, takes_newline text newline atStart⟩, fun answer later takes => ?_⟩
    obtain ⟨-, -, rfl, rfl⟩ := takes.of_newline newline
    exact .inr ⟨.skip text newline, rfl⟩
  | first text visible other none =>
    refine ⟨⟨_, _, .text text visible (piece.due_of_shown none _).symm⟩,
      fun answer later takes => ?_⟩
    obtain ⟨-, rfl, rfl⟩ := takes.of_visible text visible
    rw [other]
    exact .inl (.first text visible other none)

end Stance

theorem WellIndented.nil : WellIndented [] := by
  intro before piece after split
  exact absurd split.symm (List.append_ne_nil_of_right_ne_nil _ (List.cons_ne_nil _ _))

/-- One more chunk keeps a stream well indented if its own indentations are right. -/
theorem WellIndented.concat {stream : List Piece} {piece : Piece} (indented : WellIndented stream)
    (fits : piece.isIndentation = false →
      (stream.rtakeWhile Piece.isIndentation).map Piece.text =
        piece.due (atLineStart (stream.rdropWhile Piece.isIndentation))) :
    WellIndented (stream ++ [piece]) := by
  intro before other after split text
  obtain rfl | ⟨earlier, last, rfl⟩ := List.eq_nil_or_concat' after
  · obtain ⟨rfl, same⟩ := List.append_inj' split rfl
    cases same
    exact fits text
  · rw [← List.cons_append, ← List.append_assoc] at split
    exact indented before other earlier (List.append_inj_left' split rfl) text

/-- A chunk that is taken keeps a stream well indented. -/
theorem Stance.Takes.of_concat {stream : List Piece} {piece : Piece} {answer : Bool}
    {later : Stance} (takes : (of stream).Takes piece answer later)
    (visible : piece.text.isEmpty = false) (indented : WellIndented stream) :
    later = of (stream ++ [piece]) ∧ answer = isNewline piece.text ∧
      answer = (of (stream ++ [piece])).atStart ∧ WellIndented (stream ++ [piece]) := by
  cases kind : piece.isIndentation with
  | true =>
    obtain ⟨begins, other, rfl, rfl⟩ := takes.of_indents kind visible
    rw [of_indentation stream kind, begins, other]
    refine ⟨rfl, rfl, ?_, indented.concat fun text => absurd kind (text ▸ Bool.false_ne_true)⟩
    rw [Stance.atStart, isEmpty_concat, Bool.and_false]
  | false =>
    obtain ⟨fits, rfl, rfl⟩ := takes.of_visible kind visible
    rw [of_text stream kind]
    refine ⟨rfl, rfl, ?_, indented.concat fun _ => fits⟩
    rw [Stance.atStart, List.isEmpty_nil, Bool.and_true]

end Stencil
