import Stencil.Scope

/-! # Names as they are shown

What a developer is shown of a scope are the names of its frames, each in quotes, in brackets
within brackets.  The text leaves nothing open: a quoted character is told from what follows it, so
a quoted name is, so a list in brackets is.  Two scopes are shown by the same text only if their
frames have the same names in the same order.
-/

namespace Stencil

namespace Text

variable {α : Type}

/-- What has been written can be read again, whatever follows it. -/
def Legible (write : α → List Char) : Prop :=
  ∀ {one other : α} {rest more : List Char},
    write one ++ rest = write other ++ more → one = other ∧ rest = more

/-- Two texts up to a mark that is in neither of them are the same. -/
theorem eq_of_append_mark {one other rest more : List Char} {mark : Char} (here : mark ∉ one)
    (there : mark ∉ other) (same : one ++ mark :: rest = other ++ mark :: more) :
    one = other ∧ rest = more := by
  induction one generalizing other with
  | nil =>
    cases other with
    | nil => exact ⟨rfl, (List.cons.inj same).2⟩
    | cons c other => exact absurd ((List.cons.inj same).1 ▸ List.mem_cons_self) there
  | cons c one ih =>
    cases other with
    | nil => exact absurd ((List.cons.inj same).1 ▸ List.mem_cons_self) here
    | cons d other =>
      obtain ⟨first, later⟩ := List.cons.inj same
      obtain ⟨equal, left⟩ := ih (fun member => here (List.mem_cons_of_mem c member))
        (fun member => there (List.mem_cons_of_mem d member)) later
      exact ⟨by rw [first, equal], left⟩

/-! ## Characters -/

theorem digitChar_inj {m n : Nat} (small : m < 16) (little : n < 16)
    (same : m.digitChar = n.digitChar) : m = n := by
  have all : ∀ m < 16, ∀ n < 16, Nat.digitChar m = Nat.digitChar n → m = n := by decide
  exact all m small n little same

/-- More than one digit is not one digit. -/
theorem toDigits_ne_singleton {n : Nat} (large : 16 ≤ n) (c : Char) : Nat.toDigits 16 n ≠ [c] := by
  intro same
  rw [Nat.toDigits_of_base_le (by decide) large] at same
  obtain ⟨none, -⟩ | ⟨-, none⟩ := List.append_eq_singleton_iff.1 same
  · exact Nat.toDigits_ne_nil none
  · exact List.cons_ne_nil _ _ none

theorem toDigits_inj {m n : Nat} (same : Nat.toDigits 16 m = Nat.toDigits 16 n) : m = n := by
  induction m using Nat.strongRecOn generalizing n with
  | ind m ih =>
    obtain small | large := Nat.lt_or_ge m 16 <;> obtain little | big := Nat.lt_or_ge n 16
    · rw [Nat.toDigits_of_lt_base small, Nat.toDigits_of_lt_base little] at same
      exact digitChar_inj small little (List.singleton_inj.1 same)
    · rw [Nat.toDigits_of_lt_base small] at same
      exact absurd same.symm (toDigits_ne_singleton big _)
    · rw [Nat.toDigits_of_lt_base little] at same
      exact absurd same (toDigits_ne_singleton large _)
    · rw [Nat.toDigits_of_base_le (by decide) large, Nat.toDigits_of_base_le (by decide) big]
        at same
      -- The last digits are equal, and so are the numbers without them.
      obtain ⟨first, last⟩ := List.append_inj' same rfl
      have quotient := ih (m / 16) (by omega) first
      have remainder := digitChar_inj (Nat.mod_lt m (by decide)) (Nat.mod_lt n (by decide))
        (List.singleton_inj.1 last)
      omega

theorem brace_not_mem_toDigits (n : Nat) : '\x7d' ∉ Nat.toDigits 16 n := by
  have none : ∀ n < 16, '\x7d' ∉ [Nat.digitChar n] := by decide
  induction n using Nat.strongRecOn with
  | ind n ih =>
    obtain small | large := Nat.lt_or_ge n 16
    · rw [Nat.toDigits_of_lt_base small]
      exact none n small
    · rw [Nat.toDigits_of_base_le (by decide) large, List.mem_append, not_or]
      exact ⟨ih (n / 16) (by omega), none (n % 16) (Nat.mod_lt n (by decide))⟩

theorem legible_codePoint : Legible codePoint := by
  intro c d rest more same
  simp only [codePoint, List.append_assoc, List.append_cancel_left_eq, List.singleton_append]
    at same
  obtain ⟨digits, left⟩ :=
    eq_of_append_mark (brace_not_mem_toDigits _) (brace_not_mem_toDigits _) same
  exact ⟨Char.toNat_inj.1 (toDigits_inj digits), left⟩

/-- The characters that are written with a letter, and their letters. -/
def lettered : List (Char × Char) :=
  [('\x00', '0'), ('\t', 't'), ('\n', 'n'), ('\r', 'r'), ('"', '"'), ('\\', '\\')]

/-- A character is written as itself, with a letter or as its code point. -/
theorem quoteChar_cases (c : Char) :
    (quoteChar c = [c] ∧ c ≠ '\\' ∧ c ≠ '"') ∨
      (∃ letter, quoteChar c = ['\\', letter] ∧ (c, letter) ∈ lettered) ∨
      quoteChar c = codePoint c := by
  unfold quoteChar
  split
  case h_7 quote backslash =>
    split
    · exact .inr (.inr rfl)
    · exact .inl ⟨rfl, backslash, quote⟩
  all_goals exact .inr (.inl ⟨_, rfl, by decide⟩)

theorem lettered_inj {c d letter : Char} (one : (c, letter) ∈ lettered)
    (other : (d, letter) ∈ lettered) : c = d := by
  have all : ∀ one ∈ lettered, ∀ other ∈ lettered, one.2 = other.2 → one.1 = other.1 := by decide
  exact all _ one _ other rfl

theorem not_lettered (c : Char) : (c, 'u') ∉ lettered := by
  have all : ∀ one ∈ lettered, one.2 ≠ 'u' := by decide
  exact fun member => all _ member rfl

theorem legible_quoteChar : Legible quoteChar := by
  intro c d rest more same
  -- Two of the three ways begin with a backslash, and the character behind it tells them apart.
  obtain ⟨here, notBackslash, -⟩ | ⟨letter, here, member⟩ | here := quoteChar_cases c <;>
    obtain ⟨there, otherBackslash, -⟩ | ⟨other, there, another⟩ | there := quoteChar_cases d <;>
    rw [here, there] at same
  · exact List.cons.inj same
  · exact absurd (List.cons.inj same).1 notBackslash
  · exact absurd (List.cons.inj same).1 notBackslash
  · exact absurd (List.cons.inj same).1.symm otherBackslash
  · obtain ⟨-, same⟩ := List.cons.inj same
    obtain ⟨rfl, left⟩ := List.cons.inj same
    exact ⟨lettered_inj member another, left⟩
  · obtain ⟨-, same⟩ := List.cons.inj same
    obtain ⟨rfl, -⟩ := List.cons.inj same
    exact absurd member (not_lettered c)
  · exact absurd (List.cons.inj same).1.symm otherBackslash
  · obtain ⟨-, same⟩ := List.cons.inj same
    obtain ⟨rfl, -⟩ := List.cons.inj same
    exact absurd another (not_lettered d)
  · exact legible_codePoint same

theorem quoteChar_ne_quote (c : Char) (rest more : List Char) :
    quoteChar c ++ rest ≠ '"' :: more := by
  intro same
  obtain ⟨here, -, different⟩ | ⟨letter, here, -⟩ | here := quoteChar_cases c <;>
    rw [here] at same
  · exact different (List.cons.inj same).1
  · exact absurd (List.cons.inj same).1 (by decide)
  · exact absurd (List.cons.inj same).1 (by decide)

/-! ## Lists -/

/-- One thing after the other, up to an end that none of them begins with. -/
theorem Legible.upTo {write : α → List Char} (legible : Legible write) {ending : Char}
    (apart : ∀ one rest more, write one ++ rest ≠ ending :: more) :
    Legible fun items : List α => items.flatMap write ++ [ending] := by
  intro one other rest more same
  induction one generalizing other with
  | nil =>
    cases other with
    | nil => exact ⟨rfl, (List.cons.inj same).2⟩
    | cons item other =>
      simp only [List.flatMap_cons, List.append_assoc] at same
      exact absurd same.symm (apart item _ _)
  | cons item one ih =>
    cases other with
    | nil =>
      simp only [List.flatMap_cons, List.append_assoc] at same
      exact absurd same (apart item _ _)
    | cons another other =>
      simp only [List.flatMap_cons, List.append_assoc] at same
      obtain ⟨rfl, later⟩ := legible same
      obtain ⟨rfl, left⟩ := ih (by simpa using later)
      exact ⟨rfl, left⟩

theorem legible_quote : Legible fun s => (quote s).toList := by
  intro one other rest more same
  simp only [quote, String.toList_ofList, List.cons_append] at same
  obtain ⟨equal, left⟩ :=
    legible_quoteChar.upTo quoteChar_ne_quote (List.cons.inj same).2
  exact ⟨String.toList_inj.1 equal, left⟩

/-- A list in brackets, with commas in between. -/
def bracketed (write : α → List Char) (items : List α) : List Char :=
  '[' :: [',', ' '].intercalate (items.map write) ++ [']']

/-- What is joined begins with the first item, and all the others follow their commas. -/
theorem intercalate_map_cons (comma : List Char) (write : α → List Char) (item : α)
    (items : List α) :
    comma.intercalate ((item :: items).map write) =
      write item ++ items.flatMap (fun item => comma ++ write item) := by
  induction items generalizing item with
  | nil => simp
  | cons next items ih =>
    rw [List.map_cons, List.map_cons, List.intercalate_cons_cons, ← List.map_cons, ih,
      List.flatMap_cons, List.append_assoc, List.append_assoc]

theorem bracketed_cons (write : α → List Char) (item : α) (items : List α) :
    bracketed write (item :: items) =
      '[' :: (write item ++ (items.flatMap (fun item => [',', ' '] ++ write item) ++ [']'])) := by
  rw [bracketed, intercalate_map_cons, List.cons_append, List.append_assoc]

theorem Legible.bracketed {write : α → List Char} (legible : Legible write)
    (apart : ∀ one rest more, write one ++ rest ≠ ']' :: more) : Legible (bracketed write) := by
  intro one other rest more same
  -- Behind the first item, each item begins with its comma.
  have further : Legible fun items : List α =>
      items.flatMap (fun item => [',', ' '] ++ write item) ++ [']'] := by
    refine Legible.upTo (fun same => ?_) fun _ _ _ same => ?_
    · exact legible (List.cons.inj (List.cons.inj same).2).2
    · exact absurd (List.cons.inj same).1 (by decide)
  cases one with
  | nil =>
    cases other with
    | nil => exact ⟨rfl, (List.cons.inj (List.cons.inj same).2).2⟩
    | cons item other =>
      rw [bracketed_cons, List.cons_append, List.append_assoc] at same
      exact absurd (List.cons.inj same).2.symm (apart item _ _)
  | cons item one =>
    cases other with
    | nil =>
      rw [bracketed_cons, List.cons_append, List.append_assoc] at same
      exact absurd (List.cons.inj same).2 (apart item _ _)
    | cons another other =>
      rw [bracketed_cons, bracketed_cons, List.cons_append, List.cons_append, List.append_assoc,
        List.append_assoc (write another)] at same
      obtain ⟨rfl, later⟩ := legible (List.cons.inj same).2
      obtain ⟨rfl, left⟩ := further later
      exact ⟨rfl, left⟩

end Text

namespace Scope

open Text (quote bracketed)

/-- The names of some frames as they are shown. -/
def shownNames (names : List (List String)) : String :=
  "[" ++ ", ".intercalate (names.map fun frame =>
    "[" ++ ", ".intercalate (frame.map quote) ++ "]") ++ "]"

theorem toList_shownNames (names : List (List String)) :
    (shownNames names).toList = bracketed (bracketed fun name => (quote name).toList) names := by
  have frame (names : List String) :
      ("[" ++ ", ".intercalate (names.map quote) ++ "]").toList =
        bracketed (fun name => (quote name).toList) names := by
    simp [bracketed, Function.comp_def]
  simp only [shownNames, String.toList_append, String.toList_intercalate, List.map_map,
    Function.comp_def, frame]
  rfl

theorem shownNames_inj {one other : List (List String)} :
    shownNames one = shownNames other ↔ one = other := by
  refine ⟨fun same => ?_, congrArg _⟩
  have frame : Text.Legible (bracketed fun name => (quote name).toList) :=
    Text.legible_quote.bracketed fun name rest more same => by
      simp only [quote, String.toList_ofList, List.cons_append] at same
      exact absurd (List.cons.inj same).1 (by decide)
  have frames : Text.Legible (bracketed (bracketed fun name => (quote name).toList)) :=
    frame.bracketed fun _ _ _ same => absurd (List.cons.inj same).1 (by decide)
  rw [← String.toList_inj, toList_shownNames, toList_shownNames] at same
  exact (frames (congrArg (· ++ []) same)).1

example : shownNames [["b", "\"c\n"], ["a"], []] = "[[\"b\", \"\\\"c\\n\"], [\"a\"], []]" := by
  decide +kernel

end Scope

end Stencil
