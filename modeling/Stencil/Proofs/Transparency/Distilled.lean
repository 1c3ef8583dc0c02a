import Stencil.Proofs.Accounts
import Stencil.Proofs.Adaptors

/-! # What can be told from outside

Nobody sees an empty chunk.  The rounds of a loop and the moments at which a rendering may be
cancelled are not seen either, as long as nothing limits it.  What is left of a flow without them
is all that its account depends on, and it stays the same when the flow goes through an adaptor
that has nothing to add: a line without terminator and indentation, a loop without separator, a
recording.
-/

namespace Stencil

open Eager (Surroundings)

variable {σ α β : Type}

namespace Flow

/-- The chunks and calls of a flow that can be seen, given whether the output is at the start of a
line.  In the end this is given back. -/
def distilled : (atStart : Bool) → Flow σ α → Flow σ (α × Bool)
  | atStart, finish result => finish (result, atStart)
  | _, fail error => fail error
  | _, bottomless => bottomless
  | atStart, emit chunk resume =>
    if chunk.isEmpty then (resume atStart).distilled atStart
    else emit chunk fun _ => (resume (isNewline chunk)).distilled (isNewline chunk)
  | atStart, call callable invocation resume =>
    call callable invocation fun value => (resume value).distilled atStart
  | atStart, round resume => (resume ()).distilled atStart
  | atStart, poll resume => (resume ()).distilled atStart

theorem distilled_bind (atStart : Bool) (flow : Flow σ α) (next : α → Flow σ β) :
    (flow >>= next).distilled atStart =
      flow.distilled atStart >>= fun here => (next here.1).distilled here.2 := by
  show (flow.bind next).distilled atStart = (flow.distilled atStart).bind _
  induction flow generalizing atStart with
  | finish | fail | bottomless => rfl
  | emit chunk resume ih =>
    simp only [bind, distilled]
    split
    · exact ih _ _
    · exact congrArg (emit chunk) (funext fun _ => ih _ _)
  | call callable invocation resume ih =>
    exact congrArg (call callable invocation) (funext fun value => ih value _)
  | round resume ih | poll resume ih => exact ih () _

/-! ## Adaptors that add nothing -/

section Adaptors

variable {S κ : Type} {take : S → String → Flow σ (S × Bool)} {tell : S → κ}
  {adapt : {α : Type} → S → Flow σ α → Flow σ (α × κ)}

/-- An adaptor that takes each chunk for the chunk itself does nothing. -/
theorem fst_adapt (adaptor : Adaptor take tell adapt)
    (plain : ∀ state chunk, Prod.snd <$> take state chunk = emit chunk finish) (state : S)
    (flow : Flow σ α) : Prod.fst <$> adapt state flow = flow := by
  induction flow generalizing state with
  | finish result =>
    rw [adaptor.finish]
    rfl
  | fail error =>
    rw [adaptor.fail]
    rfl
  | bottomless =>
    rw [adaptor.bottomless]
    rfl
  | emit chunk resume ih =>
    rw [adaptor.emit, map_bind]
    simp only [ih]
    rw [← bind_map_left, plain]
    rfl
  | call callable invocation resume ih =>
    rw [adaptor.call]
    exact congrArg (call callable invocation) (funext fun value => ih value state)
  | round resume ih =>
    rw [adaptor.round]
    exact congrArg round (funext fun go => ih go state)
  | poll resume ih =>
    rw [adaptor.poll]
    exact congrArg poll (funext fun go => ih go state)

/-- An adaptor cannot be told from outside if what it takes for a chunk cannot be told from the
chunk. -/
theorem distilled_adapt (adaptor : Adaptor take tell adapt)
    (plain : ∀ state chunk atStart, (Prod.snd <$> take state chunk).distilled atStart =
      (emit chunk finish).distilled atStart) (state : S) (flow : Flow σ α) (atStart : Bool) :
    (Prod.fst <$> adapt state flow).distilled atStart = flow.distilled atStart := by
  induction flow generalizing state atStart with
  | finish result =>
    rw [adaptor.finish]
    rfl
  | fail error =>
    rw [adaptor.fail]
    rfl
  | bottomless =>
    rw [adaptor.bottomless]
    rfl
  | emit chunk resume ih =>
    rw [adaptor.emit]
    calc (Prod.fst <$> (take state chunk >>= fun next =>
          adapt next.1 (resume next.2))).distilled atStart
      _ = (take state chunk).distilled atStart >>= fun here =>
            (resume here.1.2).distilled here.2 := by
          rw [map_bind, distilled_bind]
          simp only [ih]
      _ = (Prod.snd <$> take state chunk >>= resume).distilled atStart := by
          rw [bind_map_left, distilled_bind]
      _ = (emit chunk finish >>= resume).distilled atStart := by
          rw [distilled_bind, plain, ← distilled_bind]
  | call callable invocation resume ih =>
    rw [adaptor.call]
    exact congrArg (call callable invocation) (funext fun value => ih value state atStart)
  | round resume ih =>
    rw [adaptor.round]
    exact ih () state atStart
  | poll resume ih =>
    rw [adaptor.poll]
    exact ih () state atStart

end Adaptors

/-- The marker of a line is empty, and without an indentation the line does not care where the
output stands. -/
theorem distilled_line (atStart : Bool) (flow : Flow σ α) (stage : LineStage) :
    (Prod.fst <$> flow.line "" none stage).distilled atStart = flow.distilled atStart := by
  refine distilled_adapt (.line "" none) (fun stage chunk atStart => ?_) stage flow atStart
  rw [lineTake]
  split
  · rfl
  · cases stage <;> rfl

theorem fst_joined (flow : Flow σ α) (hasContent : Bool) :
    Prod.fst <$> flow.joined none hasContent = flow := by
  refine fst_adapt (.joined none) (fun hasContent chunk => ?_) hasContent flow
  rw [joinedTake, ite_self]
  split <;> rfl

theorem fst_recordedAfter (flow : Flow σ α) (kept : List String) :
    Prod.fst <$> flow.recordedAfter kept = flow :=
  fst_adapt .recordedAfter (fun _ _ => rfl) kept flow

end Flow

/-! ## Accounts -/

/-- Nothing ends a rendering before its time. -/
structure Eager.Surroundings.Unlimited (around : Surroundings σ) : Prop where
  polls : ∀ host, around.isCancelled host = false
  rounds : around.maxIterations = none

theorem Standing.afterRound_unlimited {around : Surroundings σ} (unlimited : around.Unlimited)
    (standing : Standing) :
    standing.afterRound around.toLimits =
      .ok { standing with iterations := standing.iterations + 1 } := by
  simp only [afterRound, unlimited.rounds]

/-- Without limits an account depends on nothing but what can be told from outside. -/
theorem Flow.account_distilled {around : Surroundings σ} (unlimited : around.Unlimited)
    (flow : Flow σ α) (answered : Nat) (atStart : Bool) (begun other : Nat) (host : σ) :
    flow.account around answered ⟨atStart, begun⟩ host =
      (flow.distilled atStart).account around answered ⟨atStart, other⟩ host := by
  -- Rounds are counted on one side only, and without a limit the counts do not matter.
  induction flow generalizing answered atStart begun other host with
  | finish | fail | bottomless => rfl
  | emit chunk resume ih =>
    by_cases empty : chunk.isEmpty
    · simp only [account, distilled, empty, if_true, Standing.afterChunk, unlimited.polls,
        Bool.false_eq_true, if_false]
      exact ih _ _ _ _ _ _
    · simp only [account, distilled, empty, Standing.afterChunk, unlimited.polls,
        Bool.false_eq_true, if_false]
      exact congrArg (Account.after _) (ih _ _ _ _ _ _)
  | call callable invocation resume ih =>
    simp only [account, distilled]
    rcases (callable.run invocation.bindings).run host with ⟨outcome, host⟩
    cases outcome with
    | ok value => exact congrArg (Account.after _) (ih _ _ _ _ _ _)
    | error error => rfl
  | round resume ih =>
    simp only [account, Standing.afterRound_unlimited unlimited]
    exact ih () _ _ _ _ _
  | poll resume ih =>
    simp only [account, unlimited.polls, Bool.false_eq_true, if_false]
    exact ih () _ _ _ _ _

/-- Flows that cannot be told from each other have the same account. -/
theorem Flow.account_congr {around : Surroundings σ} (unlimited : around.Unlimited)
    {flow other : Flow σ α} (answered : Nat) (standing : Standing)
    (same : flow.distilled standing.atStart = other.distilled standing.atStart) (host : σ) :
    flow.account around answered standing host = other.account around answered standing host := by
  obtain ⟨atStart, begun⟩ := standing
  rw [account_distilled unlimited flow answered atStart begun begun, same]
  exact (account_distilled unlimited other answered atStart begun begun host).symm

end Stencil
