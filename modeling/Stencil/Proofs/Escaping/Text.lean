import Stencil.Escape
import Stencil.Flow

/-! # Escaped texts

Escaping replaces characters one by one, so nothing that decides about layout is changed by it:
an escaped text is empty or a newline exactly where the text is.  And what it puts in place of
a character means nothing in markup.
-/

namespace Stencil.Escape

theorem entity_of_not_isMarkup {c : Char} (plain : isMarkup c = false) : entity c = [c] := by
  unfold entity
  split <;> first | rfl | exact absurd plain (by decide)

theorem escapeChars_of_plain {s : List Char} (plain : s.any isMarkup = false) :
    escapeChars s = s := by
  induction s with
  | nil => rfl
  | cons c s ih =>
    simp only [List.any_cons, Bool.or_eq_false_iff] at plain
    rw [escapeChars, List.flatMap_cons, entity_of_not_isMarkup plain.1, ← escapeChars, ih plain.2]
    rfl

/-- A new text is only made where it is different, but the characters are the same either
way. -/
theorem apply_html_toList (s : String) : (html.apply s).toList = escapeChars s.toList := by
  simp only [apply, escaped?]
  cases found : s.toList.any isMarkup with
  | true => simp only [if_true, Option.getD_some, String.toList_ofList]
  | false => simp only [Bool.false_eq_true, if_false, Option.getD_none, escapeChars_of_plain found]

/-! ## Layout -/

theorem entity_ne_nil (c : Char) : entity c ≠ [] := by
  unfold entity
  split <;> exact List.cons_ne_nil _ _

theorem escapeChars_eq_nil {s : List Char} : escapeChars s = [] ↔ s = [] := by
  cases s with
  | nil => exact Iff.rfl
  | cons c s =>
    simp only [escapeChars, List.flatMap_cons, List.append_eq_nil_iff, entity_ne_nil, false_and,
      List.cons_ne_nil]

/-- The first character of an entity is an ampersand. -/
theorem entity_eq_newline {c : Char} {rest : List Char} (newline : entity c ++ rest = ['\n']) :
    c = '\n' ∧ rest = [] := by
  unfold entity at newline
  split at newline <;> simp_all

theorem escapeChars_eq_newline {s : List Char} : escapeChars s = ['\n'] ↔ s = ['\n'] := by
  refine ⟨fun newline => ?_, fun newline => ?_⟩
  · cases s with
    | nil => exact nomatch newline
    | cons c s =>
      rw [escapeChars, List.flatMap_cons] at newline
      obtain ⟨rfl, rest⟩ := entity_eq_newline newline
      rw [escapeChars_eq_nil.1 rest]
  · rw [newline]
    rfl

theorem apply_html_isEmpty (s : String) : (html.apply s).isEmpty = s.isEmpty := by
  rw [Bool.eq_iff_iff, String.isEmpty_iff, String.isEmpty_iff, ← String.toList_eq_nil_iff,
    ← String.toList_eq_nil_iff, apply_html_toList, escapeChars_eq_nil]

theorem apply_html_isNewline (s : String) : isNewline (html.apply s) = isNewline s := by
  have newline (t : String) : isNewline t ↔ t.toList = ['\n'] := by
    rw [isNewline, beq_iff_eq, ← String.toList_inj]
    rfl
  rw [Bool.eq_iff_iff, newline, newline, apply_html_toList, escapeChars_eq_newline]

end Stencil.Escape
