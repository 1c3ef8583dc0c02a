import Stencil.Proofs.Revision.Flow

/-! # Accounts of revised flows

The accounts of a flow and of its revision differ in the calls and chunks that the revision speaks
of, and in nothing else.  Where rounds are no longer told there must be no limit to them.  Where
chunks come in two pieces nobody must use the host or cancel the rendering between the two.
-/

namespace Stencil

open Eager (Surroundings)

variable {σ α β : Type} {revision : Revision σ}

namespace Revision

/-- Entries of two accounts that differ in what the revision changes. -/
inductive Entries (revision : Revision σ) : List (Entry σ) → List (Entry σ) → Prop where
  | nil : Entries revision [] []
  | cons (entry : Entry σ) {entries others : List (Entry σ)} :
      Entries revision entries others → Entries revision (entry :: entries) (entry :: others)
  | drop {entry : Entry σ} {entries others : List (Entry σ)} :
      revision.dropped entry → Entries revision entries others →
      Entries revision (entry :: entries) others
  | add {entry : Entry σ} {entries others : List (Entry σ)} :
      revision.added entry → Entries revision entries others →
      Entries revision entries (entry :: others)
  | split {one two : String} {entries others : List (Entry σ)} :
      revision.splits → Inline one → Inline two → Entries revision entries others →
      Entries revision (.chunk (one ++ two) :: entries) (.chunk one :: .chunk two :: others)

end Revision

/-- What happened in a rendering before and after a revision. -/
structure Account.Revised (revision : Revision σ) (one other : Account σ) : Prop where
  entries : revision.Entries one.entries other.entries
  ending : one.ending = other.ending
  host : one.host = other.host

namespace Account.Revised

variable {one other : Account σ}

theorem last (ending : Ending) (host : σ) :
    Account.Revised revision (.last ending host) (.last ending host) :=
  ⟨.nil, rfl, rfl⟩

theorem after (entry : Entry σ) (revised : Account.Revised revision one other) :
    Account.Revised revision (one.after entry) (other.after entry) :=
  ⟨.cons entry revised.entries, revised.ending, revised.host⟩

theorem drop {entry : Entry σ} (allowed : revision.dropped entry)
    (revised : Account.Revised revision one other) :
    Account.Revised revision (one.after entry) other :=
  ⟨.drop allowed revised.entries, revised.ending, revised.host⟩

theorem add {entry : Entry σ} (allowed : revision.added entry)
    (revised : Account.Revised revision one other) :
    Account.Revised revision one (other.after entry) :=
  ⟨.add allowed revised.entries, revised.ending, revised.host⟩

theorem split {first second : String} (allowed : revision.splits) (here : Inline first)
    (there : Inline second) (revised : Account.Revised revision one other) :
    Account.Revised revision (one.after (.chunk (first ++ second)))
      ((other.after (.chunk second)).after (.chunk first)) :=
  ⟨.split allowed here there revised.entries, revised.ending, revised.host⟩

end Account.Revised

/-- Around a rendering nothing tells what the revision changes. -/
structure Revision.Unnoticed (revision : Revision σ) (around : Surroundings σ) : Prop where
  rounds : revision.unrolls → around.maxIterations = none
  polls : revision.splits → ∀ host, around.isCancelled host = false
  alone : revision.splits → ∀ answered host, around.meanwhile answered host = host

/-- Two renderings stand alike, as far as the revision does not change the number of rounds. -/
structure Standing.Revised (revision : Revision σ) (one other : Standing) : Prop where
  atStart : one.atStart = other.atStart
  iterations : revision.unrolls ∨ one.iterations = other.iterations

namespace Standing.Revised

variable {one other : Standing}

theorem refl (standing : Standing) : Standing.Revised revision standing standing :=
  ⟨rfl, .inr rfl⟩

theorem afterChunk (revised : Standing.Revised revision one other) (chunk : String) :
    Standing.Revised revision (one.afterChunk chunk) (other.afterChunk chunk) := by
  simp only [Standing.afterChunk]
  split
  · exact revised
  · exact ⟨rfl, revised.iterations⟩

/-- Both begin a round, or both are refused. -/
theorem afterRound {around : Surroundings σ} (unnoticed : revision.Unnoticed around)
    (revised : Standing.Revised revision one other) :
    (∃ error, one.afterRound around.toLimits = .error error ∧
        other.afterRound around.toLimits = .error error) ∨
      ∃ begun started, one.afterRound around.toLimits = .ok begun ∧
        other.afterRound around.toLimits = .ok started ∧
        Standing.Revised revision begun started := by
  obtain unrolls | same := revised.iterations
  · simp only [Standing.afterRound, unnoticed.rounds unrolls]
    exact .inr ⟨_, _, rfl, rfl, revised.atStart, .inl unrolls⟩
  · obtain ⟨atStart, iterations⟩ := one
    obtain ⟨_, _⟩ := other
    cases revised.atStart
    cases same
    cases (Standing.mk atStart iterations).afterRound around.toLimits with
    | error error => exact .inl ⟨error, rfl, rfl⟩
    | ok begun => exact .inr ⟨begun, begun, rfl, rfl, .refl begun⟩

end Standing.Revised

/-- A revised flow has a revised account. -/
theorem Flow.Revised.account {results : α → β → Prop} {flow : Flow σ α} {other : Flow σ β}
    (revised : Flow.Revised revision results flow other) {around : Surroundings σ}
    (unnoticed : revision.Unnoticed around) {answered inside : Nat}
    (counted : revision.splits ∨ answered = inside) {standing later : Standing}
    (stands : Standing.Revised revision standing later) (host : σ) :
    Account.Revised revision (flow.account around answered standing host)
      (other.account around inside later host) := by
  induction revised generalizing answered inside standing later host with
  | finish | bottomless => exact .last _ host
  | fail error => exact .last _ host
  | @emit chunk resume follow _ ih =>
    have told := stands.afterChunk chunk
    -- Others have the host for themselves after so many chunks, if it matters.
    have shared : around.meanwhile answered host = around.meanwhile inside host := by
      obtain allowed | rfl := counted
      · rw [unnoticed.alone allowed, unnoticed.alone allowed]
      · rfl
    simp only [Flow.account, ← told.atStart, shared]
    split
    · split
      · exact .last _ host
      · exact ih _ counted told host
    · refine .after _ ?_
      split
      · exact .last _ _
      · exact ih _ (counted.imp_right (congrArg (· + 1))) told _
  | @call callable invocation resume follow _ ih =>
    simp only [Flow.account]
    rcases (callable.run invocation.bindings).run host with ⟨outcome, host⟩
    cases outcome with
    | ok value => exact .after _ (ih value counted stands host)
    | error error => exact .after _ (.last _ host)
  | round _ ih =>
    simp only [Flow.account]
    obtain ⟨error, here, there⟩ | ⟨begun, started, here, there, stands⟩ :=
      stands.afterRound unnoticed
    · rw [here, there]
      exact .last _ host
    · rw [here, there]
      exact ih () counted stands host
  | poll _ ih =>
    simp only [Flow.account]
    split
    · exact .last _ host
    · exact ih () counted stands host
  | @drop callable invocation value _ _ allowed _ ih =>
    have idle : ∀ host, (callable.run invocation.bindings).run host = (.ok value, host) :=
      revision.idle _ (.inl allowed)
    rw [Flow.account, idle]
    exact .drop allowed (ih counted stands host)
  | @add callable invocation value _ _ allowed _ ih =>
    have idle : ∀ host, (callable.run invocation.bindings).run host = (.ok value, host) :=
      revision.idle _ (.inr allowed)
    rw [Flow.account, idle]
    exact .add allowed (ih counted stands host)
  | unroll allowed _ ih =>
    simp only [Flow.account, Standing.afterRound, unnoticed.rounds allowed]
    refine ih counted ?_ host
    exact ⟨stands.atStart, .inl allowed⟩
  | @split one two resume next follow allowed first second pieces _ ih =>
    have whole := first.append second
    simp only [Flow.account, Standing.afterChunk, whole.visible, whole.unbroken, first.visible,
      first.unbroken, second.visible, second.unbroken, unnoticed.polls allowed,
      unnoticed.alone allowed, pieces, Bool.false_eq_true, if_false]
    refine .split allowed first second (ih (.inl allowed) ?_ host)
    exact ⟨rfl, stands.iterations⟩
  | wait allowed _ ih =>
    simp only [Flow.account, unnoticed.polls allowed, Bool.false_eq_true, if_false]
    exact ih counted stands host

/-! ## What the entries have in common -/

namespace Revision.Entries

variable {entries others : List (Entry σ)}

/-- Nothing has been changed. -/
theorem eq (revised : revision.Entries entries others)
    (kept : ∀ entry, ¬revision.dropped entry) (none : ∀ entry, ¬revision.added entry)
    (whole : ¬revision.splits) : entries = others := by
  induction revised with
  | nil => rfl
  | cons entry _ ih => exact congrArg (entry :: ·) ih
  | drop allowed => exact absurd allowed (kept _)
  | add allowed => exact absurd allowed (none _)
  | split allowed => exact absurd allowed whole

/-- What is dropped or added is a call. -/
theorem call_of_changed {entry : Entry σ}
    (changed : revision.dropped entry ∨ revision.added entry) :
    ∃ callable invocation outcome, entry = .call callable invocation outcome := by
  have idle := revision.idle entry changed
  cases entry with
  | call callable invocation outcome => exact ⟨callable, invocation, outcome, rfl⟩
  | chunk => exact idle.elim

variable (revised : revision.Entries entries others) (ending : Ending) (host : σ)
include revised

theorem chunks (whole : ¬revision.splits) :
    (Account.mk others ending host).drained.chunks =
      (Account.mk entries ending host).drained.chunks := by
  induction revised with
  | nil => rfl
  | cons entry _ ih =>
    cases entry with
    | call => exact ih
    | chunk text => exact congrArg (text :: ·) ih
  | drop allowed _ ih =>
    obtain ⟨_, _, _, rfl⟩ := call_of_changed (.inl allowed)
    exact ih
  | add allowed _ ih =>
    obtain ⟨_, _, _, rfl⟩ := call_of_changed (.inr allowed)
    exact ih
  | split allowed => exact absurd allowed whole

/-- The text is the same, in whatever pieces. -/
theorem text : (Account.mk others ending host).text = (Account.mk entries ending host).text := by
  have next (chunk : String) (entries : List (Entry σ)) :
      (Account.mk (.chunk chunk :: entries) ending host).text =
        chunk ++ (Account.mk entries ending host).text :=
    Account.text_after_chunk chunk ⟨entries, ending, host⟩
  induction revised with
  | nil => rfl
  | cons entry _ ih =>
    cases entry with
    | call => exact ih
    | chunk text => rw [next, next, ih]
  | drop allowed _ ih =>
    obtain ⟨_, _, _, rfl⟩ := call_of_changed (.inl allowed)
    exact ih
  | add allowed _ ih =>
    obtain ⟨_, _, _, rfl⟩ := call_of_changed (.inr allowed)
    exact ih
  | split _ _ _ _ ih => rw [next, next, next, ih, String.append_assoc]

theorem calls (kept : ∀ entry, ¬revision.dropped entry) (none : ∀ entry, ¬revision.added entry) :
    (Account.mk others ending host).drained.calls =
      (Account.mk entries ending host).drained.calls := by
  induction revised with
  | nil => rfl
  | cons entry _ ih =>
    cases entry with
    | call callable invocation => exact congrArg (invocation :: ·) ih
    | chunk => exact ih
  | drop allowed => exact absurd allowed (kept _)
  | add allowed => exact absurd allowed (none _)
  | split _ _ _ _ ih => exact ih

end Revision.Entries

end Stencil
