import Stencil.Proofs.Escaping.Text
import Stencil.Proofs.Leaves

/-! # Texts that mean nothing in markup

The chunk of every leaf is harmless when it is escaped: that of a text because its markup
characters have become entities, those of numbers and truth values because they never have any.
-/

namespace Stencil

open Escape (isMarkup entity escapeChars)

/-- The references that stand for the markup characters. -/
def entities : List (List Char) :=
  ["&amp;", "&lt;", "&gt;", "&quot;", "&#39;"].map String.toList

/-- No character means anything in markup, but for ampersands that begin an entity. -/
structure Harmless (s : List Char) : Prop where
  clean : ∀ c ∈ s, c ∉ ['<', '>', '"', '\'']
  ampersands : ∀ rest, '&' :: rest <:+ s → ∃ entity ∈ entities, entity <+: '&' :: rest

/-- No character means anything in markup. -/
def Unmarked (s : List Char) : Prop :=
  ∀ c ∈ s, isMarkup c = false

theorem isMarkup_of_mem : ∀ c ∈ ['<', '>', '"', '\''], isMarkup c :=
  List.all_eq_true.1 rfl

namespace Unmarked

variable {s : List Char}

theorem of_any (plain : s.any isMarkup = false) : Unmarked s :=
  fun c member => Bool.not_eq_true _ ▸ List.any_eq_false.1 plain c member

theorem clean (unmarked : Unmarked s) (c : Char) (member : c ∈ s) :
    c ∉ ['<', '>', '"', '\''] := by
  intro special
  have plain := unmarked c member
  rw [isMarkup_of_mem c special] at plain
  cases plain

theorem no_ampersand (unmarked : Unmarked s) (rest : List Char) : ¬ '&' :: rest <:+ s :=
  fun suffix => nomatch unmarked '&' (suffix.subset (List.mem_cons_self ..))

theorem harmless (unmarked : Unmarked s) : Harmless s :=
  ⟨unmarked.clean, fun rest suffix => absurd suffix (unmarked.no_ampersand rest)⟩

theorem append {t : List Char} (first : Unmarked s) (second : Unmarked t) : Unmarked (s ++ t) :=
  fun c member => (List.mem_append.1 member).elim (first c) (second c)

theorem subset {t : List Char} (unmarked : Unmarked s) (fewer : t ⊆ s) : Unmarked t :=
  fun c member => unmarked c (fewer member)

theorem replicate {c : Char} (plain : isMarkup c = false) (n : Nat) :
    Unmarked (List.replicate n c) := by
  intro d member
  rw [List.eq_of_mem_replicate member, plain]

theorem guarded {condition : Prop} [Decidable condition] (unmarked : Unmarked s) :
    Unmarked (if condition then s else []) := by
  split
  · exact unmarked
  · exact nofun

end Unmarked

/-! ## Entities -/

theorem entity_mem {c : Char} (markup : isMarkup c) : entity c ∈ entities := by
  simp only [isMarkup, Bool.or_eq_true, beq_iff_eq] at markup
  obtain (((rfl | rfl) | rfl) | rfl) | rfl := markup <;> decide

theorem entities_begin : ∀ e ∈ entities, ∃ s, e = '&' :: s ∧ s.any isMarkup = false := by
  simp only [entities, List.map, List.forall_mem_cons]
  exact ⟨⟨_, rfl, rfl⟩, ⟨_, rfl, rfl⟩, ⟨_, rfl, rfl⟩, ⟨_, rfl, rfl⟩, ⟨_, rfl, rfl⟩, nofun⟩

namespace Harmless

theorem of_entity {e : List Char} (known : e ∈ entities) : Harmless e := by
  obtain ⟨s, rfl, plain⟩ := entities_begin e known
  have unmarked : Unmarked s := .of_any plain
  constructor
  case clean =>
    intro c member
    obtain rfl | member := List.mem_cons.1 member
    · decide
    · exact unmarked.clean c member
  case ampersands =>
    intro rest suffix
    obtain whole | later := List.suffix_cons_iff.1 suffix
    · exact ⟨'&' :: s, known, whole ▸ List.prefix_refl _⟩
    · exact absurd later (unmarked.no_ampersand rest)

theorem append {s t : List Char} (first : Harmless s) (second : Harmless t) :
    Harmless (s ++ t) where
  clean c member := (List.mem_append.1 member).elim (first.clean c) (second.clean c)
  ampersands rest suffix := by
    obtain ⟨before, split⟩ := suffix
    obtain ⟨middle, rfl, shared⟩ | ⟨middle, rfl, shared⟩ := List.append_eq_append_iff.1 split
    · cases middle with
      | nil => exact second.ampersands rest ⟨[], shared⟩
      -- The ampersand stands in the first text, and so does all of its entity.
      | cons c middle =>
        obtain ⟨rfl, rfl⟩ := List.cons_eq_cons.1 shared
        obtain ⟨entity, known, begins⟩ := first.ampersands middle ⟨before, rfl⟩
        exact ⟨entity, known, begins.trans (List.prefix_append ('&' :: middle) t)⟩
    · exact second.ampersands rest ⟨middle, shared.symm⟩

end Harmless

theorem entity_harmless (c : Char) : Harmless (entity c) := by
  cases markup : isMarkup c with
  | true => exact .of_entity (entity_mem markup)
  | false =>
    rw [Escape.entity_of_not_isMarkup markup]
    refine Unmarked.harmless fun d member => ?_
    rw [List.mem_singleton.1 member, markup]

theorem escapeChars_harmless (s : List Char) : Harmless (escapeChars s) := by
  induction s with
  | nil => exact Unmarked.harmless nofun
  | cons c s ih => exact (entity_harmless c).append ih

/-! ## Numbers and truth values -/

theorem isMarkup_of_isDigit {c : Char} (digit : c.isDigit) : isMarkup c = false := by
  cases markup : isMarkup c with
  | false => rfl
  | true =>
    simp only [isMarkup, Bool.or_eq_true, beq_iff_eq] at markup
    obtain (((rfl | rfl) | rfl) | rfl) | rfl := markup <;> exact absurd digit (by decide)

section Numbers

open Decimal

theorem numeral_unmarked (decimal : Scientific) : Unmarked decimal.numeral.digits := by
  intro c member
  have digits : c ∈ Nat.toDigits 10 decimal.coefficient :=
    List.mem_reverse.1 (List.dropWhile_subset _ (List.mem_reverse.1 member))
  exact isMarkup_of_isDigit (Nat.isDigit_of_mem_toDigits (by decide) (by decide) digits)

theorem writePositional_unmarked (format : Format) {n : Numeral} (digits : Unmarked n.digits) :
    Unmarked (format.writePositional n) := by
  have point : Unmarked ['.', '0'] := .of_any rfl
  have zeros (count : Nat) : Unmarked (List.replicate count '0') := .replicate rfl count
  simp only [Format.writePositional]
  split
  · have small : Unmarked ['0', '.'] := point.subset (by decide)
    exact (small.append (zeros _)).append digits
  split
  · exact (digits.append (zeros _)).append point.guarded
  · have dot : Unmarked ['.'] := point.subset (by decide)
    have fraction := dot.append (digits.subset (List.drop_subset n.point.toNat _))
    exact (digits.subset (List.take_subset _ _)).append fraction

theorem writeReading_unmarked (reading : Reading) :
    Unmarked (Value.numberFormat.writeReading reading).toList := by
  have sign : Unmarked ['-'] := .of_any rfl
  cases reading with
  | nan => exact .of_any rfl
  | infinite negative => cases negative <;> exact .of_any rfl
  | finite negative magnitude =>
    simp only [Format.writeReading]
    split
    · rw [String.toList_ofList]
      exact sign.guarded.append (.of_any rfl)
    · rw [String.toList_ofList]
      exact sign.guarded.append (writePositional_unmarked _ (numeral_unmarked _))

end Numbers

theorem boolText_unmarked (truth : Bool) : Unmarked (Value.boolText truth).toList := by
  cases truth <;> exact .of_any rfl

/-- No leaf has a chunk that means anything in markup, once texts are escaped. -/
theorem Leaf.chunk_harmless (leaf : Leaf) : Harmless (leaf.chunk .html).toList := by
  cases leaf with
  | text content =>
    rw [chunk, Escape.apply_html_toList]
    exact escapeChars_harmless content.toList
  | number amount =>
    rw [chunk, Value.toText]
    exact (writeReading_unmarked _).harmless
  | bool truth =>
    rw [chunk, Value.toText]
    exact (boolText_unmarked truth).harmless

end Stencil
