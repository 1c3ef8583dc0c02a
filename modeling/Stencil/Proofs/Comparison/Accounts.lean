import Stencil.Proofs.Accounts
import Stencil.Proofs.Comparison.Routine

/-! # Two accounts side by side

Flows that are alike give accounts that are alike, entry by entry.  Where the first flow is cut
off, by an error of its own or by limits that are stricter than those of the second one, its
account is alike to a beginning of the other one.
-/

namespace Stencil

open Eager (Surroundings)

variable {σ α β : Type} (like : Likeness σ)

inductive Entry.Alike : Entry σ → Entry σ → Prop where
  | call (callable : Host.Callable σ) (invocation : Invocation)
      (outcome : Except RenderError Value) :
      Alike (.call callable invocation outcome) (.call callable invocation outcome)
  | chunk {one other : String} : like.chunk one other → Alike (.chunk one) (.chunk other)

/-- A call that has returned an error. -/
def Entry.isFailure : Entry σ → Bool
  | .call _ _ (.error _) => true
  | .call _ _ (.ok _) | .chunk _ => false

/-- An account that is cut off is not ended by an error of a call. -/
inductive Account.Alike : Account σ → Account σ → Prop where
  | whole {entries others : List (Entry σ)} {ending : Ending} {host : σ} :
      List.Forall₂ (Entry.Alike like) entries others → (ending = .bottomless → like.deep) →
      Alike ⟨entries, ending, host⟩ ⟨others, ending, host⟩
  | cut {entries earlier : List (Entry σ)} {ending : Ending} {host : σ} {other : Account σ} :
      like.cut ending → entries.any Entry.isFailure = false →
      List.Forall₂ (Entry.Alike like) entries earlier → earlier <+: other.entries →
      Alike ⟨entries, ending, host⟩ other

/-- All calls are answered as the likeness says. -/
def Account.AnsweredLike (account : Account σ) : Prop :=
  ∀ callable invocation value, .call callable invocation (.ok value) ∈ account.entries →
    like.answers callable invocation value

/-- The first surroundings are those of the second or stricter, and where they are stricter they
cut a rendering off. -/
structure Eager.Surroundings.Alike (one other : Surroundings σ) : Prop where
  polls : ∀ host, one.isCancelled host = other.isCancelled host ∨
    (one.isCancelled host ∧ like.cut (.failed .cancelled))
  rounds : ∀ standing : Standing,
    standing.afterRound one.toLimits = standing.afterRound other.toLimits ∨
      ∃ error, standing.afterRound one.toLimits = .error error ∧ like.cut (.failed error)
  meanwhile : ∀ answered host,
    one.meanwhile answered host = other.meanwhile answered host ∨
      (one.isCancelled (one.meanwhile answered host) ∧ like.cut (.failed .cancelled))

variable {like}

theorem Eager.Surroundings.Alike.refl (like : Likeness σ) (around : Surroundings σ) :
    Surroundings.Alike like around around where
  polls _ := .inl rfl
  rounds _ := .inl rfl
  meanwhile _ _ := .inl rfl

namespace Account

variable {account one other : Account σ}

theorem AnsweredLike.after {entry : Entry σ} (answered : AnsweredLike like (account.after entry)) :
    AnsweredLike like account :=
  fun callable invocation value member =>
    answered callable invocation value (List.mem_cons_of_mem _ member)

theorem AnsweredLike.polled {cancelled : Bool} {host : σ}
    (answered : AnsweredLike like
      (if cancelled then .last (.failed .cancelled) host else account))
    (goesOn : cancelled = false) : AnsweredLike like account := by
  rwa [goesOn] at answered

namespace Alike

theorem failed (error : RenderError) (host : σ) :
    Account.Alike like (.last (.failed error) host) (.last (.failed error) host) :=
  .whole .nil nofun

theorem stopped {ending : Ending} (allowed : like.cut ending) (host : σ) (other : Account σ) :
    Account.Alike like (.last ending host) other :=
  .cut allowed rfl .nil List.nil_prefix

theorem after {entry next : Entry σ} (same : Entry.Alike like entry next)
    (success : entry.isFailure = false) (alike : Account.Alike like one other) :
    Account.Alike like (one.after entry) (other.after next) := by
  cases alike with
  | whole entries deep => exact .whole (.cons same entries) deep
  | cut allowed successes entries earlier =>
    refine .cut allowed ?_ (.cons same entries) ((List.prefix_cons_inj next).2 earlier)
    rw [List.any_cons, success, successes]
    rfl

/-- Where both are polled, either both go on or the first is cut off. -/
theorem polled {around within : Surroundings σ} (limits : Surroundings.Alike like around within)
    (host : σ) (alike : around.isCancelled host = false → Account.Alike like one other) :
    Account.Alike like
      (if around.isCancelled host then .last (.failed .cancelled) host else one)
      (if within.isCancelled host then .last (.failed .cancelled) host else other) := by
  obtain same | ⟨cancelled, allowed⟩ := limits.polls host
  · rw [← same]
    cases goesOn : around.isCancelled host with
    | true => exact .failed .cancelled host
    | false => exact alike goesOn
  · rw [if_pos cancelled]
    exact .stopped allowed host _

/-! With the same chunks on both sides the entries are the same. -/

section Same

variable {cut : Ending → Prop} {deep : Prop}

theorem entries_eq {entries others : List (Entry σ)}
    (alike : List.Forall₂ (Entry.Alike (.same cut deep)) entries others) : entries = others := by
  refine List.forall₂_eq_eq_eq ▸ alike.imp fun _ _ same => ?_
  cases same with
  | call => rfl
  | chunk same => exact congrArg Entry.chunk same

theorem eq_or_prefix (alike : Account.Alike (.same cut deep) one other) :
    one = other ∨ (cut one.ending ∧ one.entries.any Entry.isFailure = false ∧
      one.entries <+: other.entries) := by
  cases alike with
  | whole entries => exact .inl (by rw [entries_eq entries])
  | cut allowed successes entries earlier =>
    rw [← entries_eq entries] at earlier
    exact .inr ⟨allowed, successes, earlier⟩

end Same

end Alike

end Account

theorem Standing.afterChunk_alike {one other : String} (same : like.chunk one other)
    (standing : Standing) : standing.afterChunk one = standing.afterChunk other := by
  simp only [afterChunk, like.empty same, like.newline same]

/-- Flows that are alike have accounts that are alike, if all calls are answered as the likeness
says. -/
theorem Flow.Alike.account {results : α → β → Prop} {around within : Surroundings σ}
    (limits : Surroundings.Alike like around within) {flow : Flow σ α} {other : Flow σ β}
    (alike : Flow.Alike like results flow other) (answered : Nat) (standing : Standing) (host : σ)
    (answers : Account.AnsweredLike like (flow.account around answered standing host)) :
    Account.Alike like (flow.account around answered standing host)
      (other.account within answered standing host) := by
  induction alike generalizing answered standing host with
  | failing allowed | sinking allowed => exact .stopped allowed host _
  | finish => exact .whole .nil (by rintro ⟨⟩)
  | fail error => exact .failed error host
  | bottomless deep => exact .whole .nil fun _ => deep
  | @emit one two resume follow same _ ih =>
    simp only [Flow.account, Standing.afterChunk_alike same, like.empty same] at answers ⊢
    cases empty : two.isEmpty with
    | true =>
      simp only [empty, if_true] at answers ⊢
      exact .polled limits host fun goesOn => ih _ answered _ host (answers.polled goesOn)
    | false =>
      simp only [empty, Bool.false_eq_true, if_false] at answers ⊢
      refine .after (.chunk same) rfl ?_
      obtain unchanged | ⟨cancelled, allowed⟩ := limits.meanwhile answered host
      · rw [unchanged] at answers ⊢
        exact .polled limits _ fun goesOn => ih _ (answered + 1) _ _ (answers.after.polled goesOn)
      -- Others have cancelled the first rendering, so it does not matter what it would do.
      · rw [if_pos cancelled]
        exact .stopped allowed _ _
  | @call callable invocation resume follow _ ih =>
    simp only [Flow.account] at answers ⊢
    rcases ran : (callable.run invocation.bindings).run host with ⟨outcome, host⟩
    simp only [ran] at answers ⊢
    cases outcome with
    | ok value =>
      have answer := answers callable invocation value (List.mem_cons_self ..)
      exact .after (.call callable invocation _) rfl
        (ih value answer answered standing host answers.after)
    | error error => exact .whole (.cons (.call callable invocation _) .nil) (by rintro ⟨⟩)
  | round _ ih =>
    simp only [Flow.account] at answers ⊢
    obtain same | ⟨error, exceeded, allowed⟩ := limits.rounds standing
    · rw [same] at answers ⊢
      cases begun : standing.afterRound within.toLimits with
      | ok standing =>
        rw [begun] at answers
        exact ih () answered standing host answers
      | error error => exact .failed error host
    · rw [exceeded]
      exact .stopped allowed host _
  | poll _ ih =>
    simp only [Flow.account] at answers ⊢
    exact .polled limits host fun goesOn => ih () answered standing host (answers.polled goesOn)

namespace Account

variable {account : Account σ} {before after : List (Entry σ)} {entry : Entry σ}

theorem not_split (ending : Ending) (host : σ) :
    (last ending host).entries ≠ before ++ entry :: after :=
  (List.append_ne_nil_of_right_ne_nil before (List.cons_ne_nil entry after)).symm

/-- A rendering that is cancelled does nothing more. -/
theorem split_of_polled {cancelled : Prop} [Decidable cancelled] {host : σ}
    (split : entries (if cancelled then last (.failed .cancelled) host else account) =
      before ++ entry :: after) : account.entries = before ++ entry :: after := by
  by_cases stopped : cancelled
  · rw [if_pos stopped] at split
    exact absurd split (not_split _ _)
  · rwa [if_neg stopped] at split

/-- An entry is the first one, or it stands behind the first one. -/
theorem split_of_after {first : Entry σ}
    (split : (account.after first).entries = before ++ entry :: after) :
    first = entry ∨
      ∃ earlier, before = first :: earlier ∧ account.entries = earlier ++ entry :: after := by
  cases before with
  | nil => exact .inl (List.cons_eq_cons.1 split).1
  | cons _ earlier =>
    obtain ⟨rfl, later⟩ := List.cons_eq_cons.1 split
    exact .inr ⟨earlier, rfl, later⟩

end Account

/-- A chunk stands for some other one if all calls before it are answered as the likeness says.
Whatever happens after the chunk does not matter. -/
theorem Flow.Alike.chunk_kept {results : α → β → Prop} (uncut : ∀ ending, ¬like.cut ending)
    (around : Surroundings σ) {flow : Flow σ α} {other : Flow σ β}
    (alike : Flow.Alike like results flow other) (answered : Nat) (standing : Standing)
    (host : σ) {before after : List (Entry σ)} {text : String}
    (split : (flow.account around answered standing host).entries = before ++ .chunk text :: after)
    (followed : ∀ callable invocation value,
      .call callable invocation (.ok value) ∈ before → like.answers callable invocation value) :
    text ≠ "" ∧ ∃ twin, like.chunk text twin := by
  induction alike generalizing answered standing host before with
  | failing allowed | sinking allowed => exact absurd allowed (uncut _)
  | finish | fail | bottomless => exact absurd split (Account.not_split _ _)
  | @emit one two resume follow same _ ih =>
    simp only [Flow.account] at split
    by_cases empty : one.isEmpty
    · simp only [empty, if_true] at split
      exact ih _ answered _ host (Account.split_of_polled split) followed
    · simp only [empty, Bool.false_eq_true, if_false] at split
      obtain here | ⟨earlier, rfl, later⟩ := Account.split_of_after split
      · cases here
        exact ⟨fun blank => empty (blank ▸ rfl), two, same⟩
      · exact ih _ _ _ _ (Account.split_of_polled later) fun callable invocation value member =>
          followed callable invocation value (List.mem_cons_of_mem _ member)
  | @call callable invocation resume follow _ ih =>
    simp only [Flow.account] at split
    rcases ran : (callable.run invocation.bindings).run host with ⟨outcome, host⟩
    simp only [ran] at split
    cases outcome with
    | ok value =>
      obtain here | ⟨earlier, rfl, later⟩ := Account.split_of_after split
      · cases here
      -- This call is before the chunk.
      · have answer := followed callable invocation value (List.mem_cons_self ..)
        exact ih value answer _ _ _ later fun callable invocation value member =>
          followed callable invocation value (List.mem_cons_of_mem _ member)
    | error error =>
      obtain here | ⟨earlier, rfl, later⟩ := Account.split_of_after split
      · cases here
      · exact absurd later (Account.not_split _ _)
  | round _ ih =>
    simp only [Flow.account] at split
    cases begun : standing.afterRound around.toLimits with
    | ok standing =>
      simp only [begun] at split
      exact ih () _ _ _ split followed
    | error error =>
      simp only [begun] at split
      exact absurd split (Account.not_split _ _)
  | poll _ ih =>
    simp only [Flow.account] at split
    exact ih () _ _ _ (Account.split_of_polled split) followed

end Stencil
