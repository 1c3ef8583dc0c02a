import Stencil.Proofs.Accounts
import Stencil.Proofs.Calls.Made

/-! # Hosts that a rendering cannot tell apart

A rendering learns of its host only by the answers of its callables and by its token.  So on two
hosts which these do not tell apart, and which they leave that way, it answers the same, with the
same calls, and what is left of it is the same too.
-/

namespace Stencil

open Host (Callable)
open Eager (Surroundings)

variable {σ α : Type}

def Host.BothCalm (calm : σ → Prop) (one other : σ) : Prop :=
  calm one ∧ calm other

/-- On hosts that are alike a callable gives the same answer, and it leaves them alike. -/
def Host.Callable.Blind (alike : σ → σ → Prop) (callable : Callable σ) : Prop :=
  ∀ bindings one other, alike one other →
    ((callable.run bindings).run one).1 = ((callable.run bindings).run other).1 ∧
      alike ((callable.run bindings).run one).2 ((callable.run bindings).run other).2

/-- On hosts that are alike either both renderings are cancelled or none. -/
def Limits.Blind (alike : σ → σ → Prop) (limits : Limits σ) : Prop :=
  ∀ one other, alike one other → limits.isCancelled one = limits.isCancelled other

/-- All callables that a flow can call are blind. -/
abbrev Flow.Blind (alike : σ → σ → Prop) (flow : Flow σ α) : Prop :=
  flow.Calls fun callable _ => callable.Blind alike

/-- What is left of a rendering is blind. -/
def Render.Blind (alike : σ → σ → Prop) : Render σ → Prop
  | .finished => True
  | .suspended limits _ rest => limits.Blind alike ∧ (rest ()).Blind alike

/-- An expression whose callable is blind makes no other call. -/
theorem Program.occurrence_blind {alike : σ → σ → Prop} {occurrence : Program.Occurrence σ}
    (blind : occurrence.expression.callable.Blind alike) :
    occurrence.Calls fun callable _ => callable.Blind alike := by
  intro scope _
  rw [Expression.evaluate]
  cases occurrence.expression.bindings scope with
  | ok bindings => exact ⟨blind, fun _ => True.intro⟩
  | error error => exact True.intro

theorem Program.render_blind {alike : σ → σ → Prop} {program : Program σ}
    {options : Render.Options σ}
    (callables : ∀ occurrence ∈ program.occurrences, occurrence.expression.callable.Blind alike)
    (token : options.limits.Blind alike) (document : DocId) :
    (program.render document options).Blind alike :=
  ⟨token, flow_calls (fun occurrence stands => occurrence_blind (callables occurrence stands))
    options document⟩

variable {alike : σ → σ → Prop} {limits : Limits σ} {one other : σ}

/-! ## One answer -/

/-- The same is answered after the same calls, the same is left, and the hosts are alike again. -/
structure Pulled.EqualUpTo (alike : σ → σ → Prop) (one other : Pulled σ) : Prop where
  calls : one.calls = other.calls
  answer : one.answer = other.answer
  render : one.render = other.render
  host : alike one.host other.host

theorem Pulled.EqualUpTo.last (same : alike one other) (answer : Answer) :
    (Pulled.last answer one).EqualUpTo alike (.last answer other) :=
  ⟨rfl, rfl, rfl, same⟩

theorem Pulled.EqualUpTo.afterCall {here there : Pulled σ} (same : here.EqualUpTo alike there)
    (invocation : Invocation) :
    (here.afterCall invocation).EqualUpTo alike (there.afterCall invocation) :=
  { same with calls := congrArg (invocation :: ·) same.calls }

theorem Flow.pull_equal (token : limits.Blind alike) (flow : Flow σ Progress)
    (blind : flow.Blind alike) (standing : Standing) (same : alike one other) :
    (flow.pull limits standing one).EqualUpTo alike (flow.pull limits standing other) := by
  -- The hosts stay alike from call to call, so that one flow is followed on both of them.
  induction flow generalizing standing one other with
  | finish | fail | bottomless => exact .last same _
  | emit chunk resume ih =>
    simp only [pull, token one other same]
    split
    · split
      · exact .last same _
      · exact ih _ (blind _) _ same
    · exact ⟨rfl, rfl, rfl, same⟩
  | call callable invocation resume ih =>
    obtain ⟨answers, hosts⟩ := blind.1 invocation.bindings one other same
    simp only [pull]
    rcases ran : (callable.run invocation.bindings).run one with ⟨outcome, here⟩
    rcases runs : (callable.run invocation.bindings).run other with ⟨answer, there⟩
    rw [ran, runs] at answers hosts
    cases answers
    cases outcome with
    | ok value => exact (ih value (blind.2 value) standing hosts).afterCall invocation
    | error error => exact (Pulled.EqualUpTo.last hosts _).afterCall invocation
  | round resume ih =>
    simp only [pull]
    cases standing.afterRound limits with
    | ok standing => exact ih () (blind ()) standing same
    | error error => exact .last same _
  | poll resume ih =>
    simp only [pull, token one other same]
    split
    · exact .last same _
    · exact ih () (blind ()) standing same

theorem Render.next_equal {render : Render σ} (blind : render.Blind alike)
    (same : alike one other) : (render.next one).EqualUpTo alike (render.next other) := by
  cases render with
  | finished => exact .last same _
  | suspended limits standing rest =>
    exact Flow.pull_equal blind.1 (.poll rest) (fun _ => blind.2) standing same

theorem Render.next_blind {render : Render σ} (blind : render.Blind alike) (host : σ) :
    (render.next host).render.Blind alike := by
  cases render with
  | finished => exact True.intro
  | suspended limits standing rest =>
    obtain ⟨token, calls⟩ := blind
    -- What is left begins with a poll, and is as blind as what has been followed up to there.
    have start : (Flow.poll rest).Blind alike := fun _ => calls
    have arrives : (Moment.mk standing (.poll rest) host).Arrives limits
        ((Render.suspended limits standing rest).next host) :=
      Moment.pull_arrives (.poll rest) standing host
    obtain ⟨reaches, concludes, same⟩ := arrives
    rw [same]
    have later := reaches.calls start
    cases concludes with
    | chunk _ => exact ⟨token, later _⟩
    | error | complete | bottomless => exact True.intro

/-! ## All answers -/

/-- The same is told of both, and the hosts are alike again. -/
structure Account.EqualUpTo (alike : σ → σ → Prop) (one other : Account σ) : Prop where
  entries : one.entries = other.entries
  ending : one.ending = other.ending
  host : alike one.host other.host

theorem Account.EqualUpTo.last (same : alike one other) (ending : Ending) :
    (Account.last ending one).EqualUpTo alike (.last ending other) :=
  ⟨rfl, rfl, same⟩

theorem Account.EqualUpTo.after {here there : Account σ} (same : here.EqualUpTo alike there)
    (entry : Entry σ) : (here.after entry).EqualUpTo alike (there.after entry) :=
  { same with entries := congrArg (entry :: ·) same.entries }

/-- Others leave hosts alike that have been so, whatever they do to them. -/
def Eager.Surroundings.Blind (alike : σ → σ → Prop) (around : Surroundings σ) : Prop :=
  around.toLimits.Blind alike ∧ ∀ answered one other, alike one other →
    alike (around.meanwhile answered one) (around.meanwhile answered other)

theorem Flow.account_equal {around : Surroundings σ} (others : around.Blind alike)
    (flow : Flow σ α) (blind : flow.Blind alike) (answered : Nat) (standing : Standing)
    (same : alike one other) :
    (flow.account around answered standing one).EqualUpTo alike
      (flow.account around answered standing other) := by
  obtain ⟨token, meanwhile⟩ := others
  induction flow generalizing answered standing one other with
  | finish | fail | bottomless => exact .last same _
  | emit chunk resume ih =>
    -- An empty chunk is not seen by others; after any other chunk they have used both hosts.
    have later := meanwhile answered one other same
    simp only [account, token one other same, token _ _ later]
    split
    · split
      · exact .last same _
      · exact ih _ (blind _) _ _ same
    · refine .after ?_ _
      split
      · exact .last later _
      · exact ih _ (blind _) _ _ later
  | call callable invocation resume ih =>
    obtain ⟨answers, hosts⟩ := blind.1 invocation.bindings one other same
    simp only [account]
    rcases ran : (callable.run invocation.bindings).run one with ⟨outcome, here⟩
    rcases runs : (callable.run invocation.bindings).run other with ⟨answer, there⟩
    rw [ran, runs] at answers hosts
    cases answers
    cases outcome with
    | ok value => exact (ih value (blind.2 value) answered standing hosts).after _
    | error error => exact (Account.EqualUpTo.last hosts _).after _
  | round resume ih =>
    simp only [account]
    cases standing.afterRound around.toLimits with
    | ok standing => exact ih () (blind ()) answered standing same
    | error error => exact .last same _
  | poll resume ih =>
    simp only [account, token one other same]
    split
    · exact .last same _
    · exact ih () (blind ()) answered standing same

structure Drained.EqualUpTo (alike : σ → σ → Prop) (one other : Drained σ) : Prop where
  events : one.events = other.events
  ending : one.ending = other.ending
  host : alike one.host other.host

theorem Render.drain_equal {render : Render σ} (blind : render.Blind alike)
    (same : alike one other) : (render.drain one).EqualUpTo alike (render.drain other) := by
  cases render with
  | finished => exact ⟨rfl, rfl, same⟩
  | suspended limits standing rest =>
    -- To drain is to render with nobody else at the host.
    let around : Surroundings σ := { limits with meanwhile := fun _ host => host }
    have others : around.Blind alike := ⟨blind.1, fun _ _ _ => id⟩
    have told := Flow.account_equal others (.poll rest) (fun _ => blind.2) 0 standing same
    have drained := @Flow.account_drain σ around (fun _ _ => rfl) (.poll rest) 0 standing
    change ((Flow.poll rest).drain limits standing one).EqualUpTo alike
      ((Flow.poll rest).drain limits standing other)
    rw [← drained one, ← drained other]
    exact ⟨congrArg (List.map Entry.event) told.entries, told.ending, told.host⟩

end Stencil
