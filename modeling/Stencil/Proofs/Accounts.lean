import Stencil.Proofs.Eager.Pulls
import Stencil.Proofs.Eager.Walk

/-! # Accounts of renderings

An account tells what happened in a rendering from its beginning to its end: the chunks and the
calls in their order, and of every call also what came of it.  It is the account of one occasion,
on which others may have used the host whenever the reader had been given a chunk.
-/

namespace Stencil

open Eager (Surroundings Occasion)

variable {σ α : Type}

/-- Something that is told of a rendering. -/
inductive Entry (σ : Type) where
  | call (callable : Host.Callable σ) (invocation : Invocation)
      (outcome : Except RenderError Value)
  | chunk (text : String)

def Entry.event : Entry σ → Event
  | call _ invocation _ => .call invocation
  | chunk text => .chunk text

structure Account (σ : Type) where
  entries : List (Entry σ)
  ending : Ending
  host : σ

namespace Account

def last (ending : Ending) (host : σ) : Account σ :=
  ⟨[], ending, host⟩

/-- What happened, and something before it. -/
def after (entry : Entry σ) (account : Account σ) : Account σ :=
  { account with entries := entry :: account.entries }

/-- What an observer sees of it. -/
def drained (account : Account σ) : Drained σ :=
  ⟨account.entries.map Entry.event, account.ending, account.host⟩

end Account

/-- The account of a flow, given how many chunks there have been before. -/
def Flow.account (around : Surroundings σ) :
    (answered : Nat) → Standing → Flow σ α → σ → Account σ
  | _, _, .finish _, host => .last .complete host
  | _, _, .bottomless, host => .last .bottomless host
  | _, _, .fail error, host => .last (.failed error) host
  | answered, standing, .emit chunk resume, host =>
    let standing := standing.afterChunk chunk
    if chunk.isEmpty then
      if around.isCancelled host then .last (.failed .cancelled) host
      else (resume standing.atStart).account around answered standing host
    else
      let host := around.meanwhile answered host
      Account.after (.chunk chunk) <|
        if around.isCancelled host then .last (.failed .cancelled) host
        else (resume standing.atStart).account around (answered + 1) standing host
  | answered, standing, .call callable invocation resume, host =>
    match (callable.run invocation.bindings).run host with
    | (.ok value, host) =>
      ((resume value).account around answered standing host).after
        (.call callable invocation (.ok value))
    | (.error error, host) =>
      (Account.last (.failed error) host).after (.call callable invocation (.error error))
  | answered, standing, .round resume, host =>
    match standing.afterRound around.toLimits with
    | .ok standing => (resume ()).account around answered standing host
    | .error error => .last (.failed error) host
  | answered, standing, .poll resume, host =>
    if around.isCancelled host then .last (.failed .cancelled) host
    else (resume ()).account around answered standing host

def Eager.Occasion.account (occasion : Occasion σ) (document : DocId) (host : σ) : Account σ :=
  (Flow.poll fun _ => occasion.program.flow occasion.options document).account occasion.around 0
    .start host

/-! ## Accounts are true -/

/-- With nobody else at the host an account is what is drained. -/
theorem Flow.account_drain {around : Surroundings σ}
    (alone : ∀ answered host, around.meanwhile answered host = host) (flow : Flow σ Progress)
    (answered : Nat) (standing : Standing) (host : σ) :
    (flow.account around answered standing host).drained =
      flow.drain around.toLimits standing host := by
  induction flow generalizing answered standing host with
  | finish | fail | bottomless => rfl
  | emit chunk resume ih =>
    simp only [account, drain, alone, Drained.afterChunk]
    by_cases empty : chunk.isEmpty
    · simp only [empty, if_true]
      split
      · rfl
      · exact ih _ _ _ _
    · simp only [empty, Bool.false_eq_true, if_false]
      split
      · rfl
      · simp only [← ih _ (answered + 1)]
        rfl
  | call callable invocation resume ih =>
    simp only [account, drain]
    rcases (callable.run invocation.bindings).run host with ⟨outcome, host⟩
    cases outcome with
    | ok value =>
      simp only [← ih value answered]
      rfl
    | error error => rfl
  | round resume ih =>
    simp only [account, drain]
    cases standing.afterRound around.toLimits with
    | ok standing => exact ih () _ _ _
    | error error => rfl
  | poll resume ih =>
    simp only [account, drain]
    split
    · rfl
    · exact ih () _ _ _

/-- Whatever others do to the host, an account is what is answered until the end. -/
theorem Flow.account_drains (around : Surroundings σ) (flow : Flow σ Progress) (answered : Nat)
    (standing : Standing) (host : σ)
    (followed : (flow.account around answered standing host).ending ≠ .bottomless) :
    (flow.pull around.toLimits standing host).Drains around.meanwhile answered
      (flow.account around answered standing host).drained := by
  induction flow generalizing answered standing host with
  | finish => exact .ended
  | fail error => exact .failed
  -- To the reader this would look like the end.
  | bottomless => exact absurd rfl followed
  | emit chunk resume ih =>
    simp only [account, pull] at followed ⊢
    by_cases empty : chunk.isEmpty
    · simp only [empty, if_true] at followed ⊢
      by_cases cancelled : around.isCancelled host
      · simp only [cancelled, if_true]
        exact .failed
      · simp only [cancelled, Bool.false_eq_true, if_false] at followed ⊢
        exact ih _ _ _ _ followed
    · simp only [empty, Bool.false_eq_true, if_false] at followed ⊢
      refine @Pulled.Drains.chunk σ _ _ _ _ _ _ (Account.drained _) ?_
      simp only [Render.next]
      by_cases cancelled : around.isCancelled (around.meanwhile answered host)
      · simp only [cancelled, if_true]
        exact .failed
      · simp only [Account.after, cancelled, Bool.false_eq_true, if_false] at followed ⊢
        exact ih _ _ _ _ followed
  | call callable invocation resume ih =>
    simp only [account, pull] at followed ⊢
    rcases ran : (callable.run invocation.bindings).run host with ⟨outcome, host⟩
    simp only [ran] at followed ⊢
    cases outcome with
    | ok value => exact (ih value answered standing host followed).afterCall invocation
    | error error =>
      have failed : (Pulled.last (.error error) host).Drains around.meanwhile answered
          (.last (.failed error) host) := .failed
      exact failed.afterCall invocation
  | round resume ih =>
    simp only [account, pull] at followed ⊢
    cases begun : standing.afterRound around.toLimits with
    | ok standing =>
      simp only [begun] at followed ⊢
      exact ih () _ _ _ followed
    | error error => exact .failed
  | poll resume ih =>
    simp only [account, pull] at followed ⊢
    by_cases cancelled : around.isCancelled host
    · simp only [cancelled, if_true]
      exact .failed
    · simp only [cancelled, Bool.false_eq_true, if_false] at followed ⊢
      exact ih () _ _ _ followed

namespace Eager.Occasion

/-- An account tells how the document is rendered on this occasion. -/
structure Tells (occasion : Occasion σ) (document : DocId) (host : σ) (account : Account σ) :
    Prop where
  /-- With nobody else at the host, this is what the rendering comes to when it is drained. -/
  drain : (∀ answered host, occasion.meanwhile answered host = host) →
    (occasion.program.render document occasion.options).drain host = account.drained
  /-- Whatever others do to the host, this is what the rendering answers until it ends. -/
  answers : account.ending ≠ .bottomless →
    ((occasion.program.render document occasion.options).next host).Drains
      occasion.meanwhile 0 account.drained

theorem account_tells (occasion : Occasion σ) (document : DocId) (host : σ) :
    occasion.Tells document host (occasion.account document host) where
  drain alone := by
    -- A rendering can be cancelled at its beginning, as a flow that begins with a poll.
    have drained := @Flow.account_drain σ occasion.around alone
      (.poll fun _ => occasion.program.flow occasion.options document) 0 .start host
    exact drained.symm
  answers followed := Flow.account_drains occasion.around _ 0 .start host followed

end Eager.Occasion

end Stencil
