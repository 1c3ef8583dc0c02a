import Stencil.Proofs.Escaping.Harmless

/-! # Escaping loses nothing

The entities can be put back into characters in one pass from left to right, and that undoes
escaping.  It does so for every text, also for one that has entities of its own or pieces of them:
each of its ampersands has become an entity, so an ampersand of the escaped text always begins one
that escaping has made.

A text is escaped piece by piece, and it is changed exactly if a new one has to be made.
-/

namespace Stencil

namespace Escape

/-! ## Back into characters -/

/-- Puts a character in place of each entity, from left to right. -/
def unescapeChars : List Char → List Char
  | '&' :: 'a' :: 'm' :: 'p' :: ';' :: rest => '&' :: unescapeChars rest
  | '&' :: 'l' :: 't' :: ';' :: rest => '<' :: unescapeChars rest
  | '&' :: 'g' :: 't' :: ';' :: rest => '>' :: unescapeChars rest
  | '&' :: 'q' :: 'u' :: 'o' :: 't' :: ';' :: rest => '"' :: unescapeChars rest
  | '&' :: '#' :: '3' :: '9' :: ';' :: rest => '\'' :: unescapeChars rest
  | c :: rest => c :: unescapeChars rest
  | [] => []

/-- A text with a character in place of each entity. -/
def unescape (s : String) : String :=
  String.ofList (unescapeChars s.toList)

theorem unescapeChars_cons {c : Char} (plain : c ≠ '&') (rest : List Char) :
    unescapeChars (c :: rest) = c :: unescapeChars rest := by
  rw [unescapeChars] <;> rintro _ rfl <;> exact absurd rfl plain

/-- What escaping puts in place of a character is read as this character, whatever follows. -/
theorem unescapeChars_entity (c : Char) (rest : List Char) :
    unescapeChars (entity c ++ rest) = c :: unescapeChars rest := by
  cases markup : isMarkup c with
  | true =>
    simp only [isMarkup, Bool.or_eq_true, beq_iff_eq] at markup
    obtain (((rfl | rfl) | rfl) | rfl) | rfl := markup <;> rfl
  | false =>
    rw [entity_of_not_isMarkup markup, List.singleton_append]
    refine unescapeChars_cons ?_ rest
    rintro rfl
    cases markup

theorem unescapeChars_escapeChars (s : List Char) : unescapeChars (escapeChars s) = s := by
  induction s with
  | nil => rfl
  | cons c s ih => rw [escapeChars, List.flatMap_cons, unescapeChars_entity, ← escapeChars, ih]

theorem unescape_apply (s : String) : unescape (html.apply s) = s := by
  rw [unescape, apply_html_toList, unescapeChars_escapeChars, String.ofList_toList]

/-! ## Texts that are changed -/

theorem apply_html_append (s t : String) :
    html.apply (s ++ t) = html.apply s ++ html.apply t := by
  rw [← String.toList_inj]
  simp only [String.toList_append, apply_html_toList, escapeChars, List.flatMap_append]

theorem one_lt_length_entity {c : Char} (markup : isMarkup c) : 1 < (entity c).length := by
  simp only [isMarkup, Bool.or_eq_true, beq_iff_eq] at markup
  obtain (((rfl | rfl) | rfl) | rfl) | rfl := markup <;> decide

theorem length_le_escapeChars (s : List Char) : s.length ≤ (escapeChars s).length := by
  induction s with
  | nil => exact Nat.le_refl 0
  | cons c s ih =>
    have room : 0 < (entity c).length := List.length_pos_iff.2 (entity_ne_nil c)
    rw [escapeChars, List.flatMap_cons, ← escapeChars, List.length_append, List.length_cons]
    omega

/-- A text with a markup character becomes longer. -/
theorem length_lt_escapeChars {s : List Char} (marked : s.any isMarkup) :
    s.length < (escapeChars s).length := by
  obtain ⟨c, member, markup⟩ := List.any_eq_true.1 marked
  obtain ⟨before, after, rfl⟩ := List.append_of_mem member
  have longer := one_lt_length_entity markup
  have first := length_le_escapeChars before
  have last := length_le_escapeChars after
  simp only [escapeChars, List.flatMap_append, List.flatMap_cons, List.length_append,
    List.length_cons] at first last ⊢
  omega

theorem escaped?_isSome (s : String) : (html.escaped? s).isSome = s.toList.any isMarkup := by
  rw [escaped?]
  cases s.toList.any isMarkup <;> rfl

theorem apply_html_ne_iff (s : String) : html.apply s ≠ s ↔ s.toList.any isMarkup := by
  rw [Ne, ← String.toList_inj, apply_html_toList]
  constructor
  · intro changed
    cases marked : s.toList.any isMarkup with
    | true => rfl
    | false => exact absurd (escapeChars_of_plain marked) changed
  · intro marked same
    have longer := length_lt_escapeChars marked
    rw [same] at longer
    exact Nat.lt_irrefl _ longer

theorem any_isMarkup_iff {s : List Char} :
    s.any isMarkup ↔ ∃ c ∈ s, c ∈ ['&', '<', '>', '"', '\''] := by
  simp [isMarkup, or_assoc]

end Escape

open Escape (html unescape)

/-- Escaping is done piece by piece, it is undone by one pass from left to right, and so different
texts stay different.  What it gives means nothing in markup.  It makes a new text exactly for a
text with a markup character, and exactly such a text is changed. -/
theorem escaping_loses_nothing (s t : String) :
    html.apply (s ++ t) = html.apply s ++ html.apply t ∧
      unescape (html.apply s) = s ∧
      (html.apply s = html.apply t ↔ s = t) ∧
      Harmless (html.apply s).toList ∧
      ((html.escaped? s).isSome ↔ ∃ c ∈ s.toList, c ∈ ['&', '<', '>', '"', '\'']) ∧
      (html.apply s ≠ s ↔ ∃ c ∈ s.toList, c ∈ ['&', '<', '>', '"', '\'']) := by
  refine ⟨Escape.apply_html_append s t, Escape.unescape_apply s, ⟨fun same => ?_, congrArg _⟩, ?_,
    ?_, ?_⟩
  · rw [← Escape.unescape_apply s, same, Escape.unescape_apply]
  · rw [Escape.apply_html_toList]
    exact escapeChars_harmless s.toList
  · rw [Escape.escaped?_isSome, Escape.any_isMarkup_iff]
  · rw [Escape.apply_html_ne_iff, Escape.any_isMarkup_iff]

/-- One pass is not more than one: what has been an entity before escaping is one again. -/
example : html.apply "&lt;&am" = "&amp;lt;&amp;am" ∧ unescape "&amp;lt;&amp;am" = "&lt;&am" := by
  decide

end Stencil
