import Stencil.Proofs.Comparison.Accounts

/-! # Flows that go on further

A flow is extended by a second one that does the same, except that it may go on where the first one
comes to an end for a reason that is exempt: its includes are nested more deeply than they may be.
Nothing but the way of ending tells the accounts of the two flows apart.
-/

namespace Stencil

open Eager (Surroundings)

variable {σ α β γ : Type}

abbrev Flow.ExtendedBy (exempt : Ending → Prop) (results : α → β → Prop) :
    Flow σ α → Flow σ β → Prop :=
  Alike (.same exempt True) results

section Flows

variable {exempt : Ending → Prop} {results : α → β → Prop} {flow : Flow σ α} {other : Flow σ β}

/-- The same flow on both sides, and what comes after it. -/
theorem Flow.Alike.after (flow : Flow σ γ) {next : γ → Flow σ α} {follow : γ → Flow σ β}
    (second : ∀ result, ExtendedBy exempt results (next result) (follow result)) :
    ExtendedBy exempt results (flow >>= next) (flow >>= follow) := by
  refine (refl (Likeness.same_exact _ _) (.of_all flow)).bind ?_
  rintro result _ rfl
  exact second result

namespace Flow.ExtendedBy

theorem through (extended : ExtendedBy exempt results flow other) {S κ : Type}
    {take : S → String → Flow σ (S × Bool)} {tell : S → κ}
    {adapt : {α : Type} → S → Flow σ α → Flow σ (α × κ)} (adaptor : Adaptor take tell adapt)
    (state : S) :
    ExtendedBy exempt (fun one two => results one.1 two.1 ∧ one.2 = two.2) (adapt state flow)
      (adapt state other) :=
  extended.through_exact (Likeness.same_exact _ _) adaptor state

/-- If no ending is exempt, both are the same flow, but for what it comes to. -/
theorem eq_map (extended : ExtendedBy (fun _ => False) results flow other) {give : α → β}
    (ends : ∀ one two, results one two → two = give one) : other = give <$> flow := by
  rw [map_eq_pure_bind]
  change other = flow.bind fun result => .finish (give result)
  induction extended with
  | failing absurd | sinking absurd => exact absurd.elim
  | finish same => exact congrArg Flow.finish (ends _ _ same)
  | fail | bottomless => rfl
  | emit same _ ih =>
    cases same
    exact congrArg (Flow.emit _) (funext ih)
  | call _ ih => exact congrArg (Flow.call _ _) (funext fun value => ih value True.intro)
  | round _ ih => exact congrArg Flow.round (funext ih)
  | poll _ ih => exact congrArg Flow.poll (funext ih)

/-- An account is that of the flow that goes on further, unless it ends in an exempt way without
any failed call. -/
theorem account_or (extended : ExtendedBy exempt results flow other) (around : Surroundings σ)
    (answered : Nat) (standing : Standing) (host : σ) :
    let account := flow.account around answered standing host
    (exempt account.ending ∧ account.entries.any Entry.isFailure = false) ∨
      account = other.account around answered standing host := by
  have alike := Alike.account (.refl _ around) extended answered standing host
    fun _ _ _ _ => True.intro
  obtain same | ⟨allowed, successes, -⟩ := alike.eq_or_prefix
  · exact .inr same
  · exact .inl ⟨allowed, successes⟩

theorem account (extended : ExtendedBy exempt results flow other) (around : Surroundings σ)
    (answered : Nat) (standing : Standing) (host : σ) :
    exempt (flow.account around answered standing host).ending ∨
      flow.account around answered standing host =
        other.account around answered standing host :=
  (extended.account_or around answered standing host).imp_left And.left

end Flow.ExtendedBy

end Flows

end Stencil
