import Stencil.Proofs.Adaptors
import Stencil.Proofs.Streams.Capped
import Stencil.Proofs.Transparency.Selection

/-! # What is gathered

A flow whose chunks are gathered into a text puts out nothing.  The constructs around it do not
notice it, and neither does the output.  It makes the calls and begins the rounds of a rendering of
its own, on a host that nobody else uses meanwhile, and ends with the text of that rendering.
-/

namespace Stencil

open Eager (Surroundings)
open Stencil.Flow

variable {σ α β : Type}

/-! ## Silence -/

namespace Flow

/-- The flow puts out nothing, not even an empty chunk. -/
def Silent : Flow σ α → Prop
  | finish _ | fail _ | bottomless => True
  | emit _ _ => False
  | call _ _ resume => ∀ value, (resume value).Silent
  | round resume | poll resume => ∀ go, (resume go).Silent

theorem silent_gatheredAfter (flow : Flow σ α) (text : String) (atStart : Bool) :
    (flow.gatheredAfter text atStart).Silent := by
  induction flow generalizing text atStart with
  | finish | fail | bottomless => exact True.intro
  | emit chunk resume ih =>
    intro _
    dsimp only
    split
    · exact ih _ _ _
    · exact ih _ _ _
  | call callable invocation resume ih => exact fun value => ih value text atStart
  | round resume ih | poll resume ih => exact fun go => ih go text atStart

/-- An adaptor is in the same state when a silent flow has come to its result. -/
theorem Silent.through {S κ : Type} {take : S → String → Flow σ (S × Bool)} {tell : S → κ}
    {adapt : {α : Type} → S → Flow σ α → Flow σ (α × κ)} {flow : Flow σ α} (silent : flow.Silent)
    (adaptor : Adaptor take tell adapt) (state : S) (next : α → Flow σ β) :
    adapt state (flow >>= next) = flow >>= fun result => adapt state (next result) := by
  change adapt state (flow.bind next) = flow.bind _
  induction flow with
  | finish => rfl
  | fail error => exact adaptor.fail state error
  | bottomless => exact adaptor.bottomless state
  | emit => exact silent.elim
  | call callable invocation resume ih =>
    rw [bind, adaptor.call]
    exact congrArg (call callable invocation) (funext fun value => ih value (silent value))
  | round resume ih =>
    rw [bind, adaptor.round]
    exact congrArg round (funext fun go => ih go (silent go))
  | poll resume ih =>
    rw [bind, adaptor.poll]
    exact congrArg poll (funext fun go => ih go (silent go))

/-- Whatever a construct around a flow keeps, it is the same ahead of the flow and behind it. -/
structure Unnoticed (flow : Flow σ α) : Prop where
  line : ∀ {β : Type} (next : α → Flow σ β) lead indentation stage,
    (flow >>= next).line lead indentation stage =
      flow >>= fun result => (next result).line lead indentation stage
  joined : ∀ {β : Type} (next : α → Flow σ β) separator hasContent,
    (flow >>= next).joined separator hasContent =
      flow >>= fun result => (next result).joined separator hasContent
  recorded : ∀ {β : Type} (next : α → Flow σ β) kept,
    (flow >>= next).recordedAfter kept = flow >>= fun result => (next result).recordedAfter kept
  gathered : ∀ {β : Type} (next : α → Flow σ β) text atStart,
    (flow >>= next).gatheredAfter text atStart =
      flow >>= fun result => (next result).gatheredAfter text atStart

theorem Silent.unnoticed {flow : Flow σ α} (silent : flow.Silent) : flow.Unnoticed where
  line next lead indentation stage := silent.through (.line lead indentation) stage next
  joined next separator hasContent := silent.through (.joined separator) hasContent next
  recorded next kept := silent.through .recordedAfter kept next
  gathered next text atStart := silent.through .gatheredAfter (text, atStart) next

end Flow

/-! ## Accounts -/

/-- Nobody else uses the host. -/
def Eager.Surroundings.alone (around : Surroundings σ) : Surroundings σ :=
  { around with meanwhile := fun _ host => host }

def Entry.isCall : Entry σ → Bool
  | call .. => true
  | chunk _ => false

namespace Account

/-- The calls, and what came of them. -/
def calls (account : Account σ) : List (Entry σ) :=
  account.entries.filter Entry.isCall

/-- All chunks as one text. -/
def text (account : Account σ) : String :=
  String.join account.drained.chunks

theorem text_after_chunk (chunk : String) (account : Account σ) :
    (account.after (.chunk chunk)).text = chunk ++ account.text :=
  String.join_cons ..

end Account

/-- What happens when the chunks of a course are gathered behind a text, given what comes then of
its result and of the text, so many rounds later. -/
def Course.gathered (course : Course σ α) (text : String)
    (go : α × String → Nat → σ → Account σ) : Account σ :=
  Account.afterAll course.account.calls <|
    match course.outcome with
    | .finished result =>
      go (result, text ++ course.account.text) (roundsIn course.steps) course.host
    | .failed error | .interrupted error => .last (.failed error) course.host
    | .bottomless => .last .bottomless course.host

namespace Course

variable (course : Course σ α) (text : String) (go : α × String → Nat → σ → Account σ)

theorem gathered_chunk (chunk : String) (atStart : Bool) :
    (course.after (.chunk chunk atStart)).gathered text go =
      course.gathered (text ++ chunk) go := by
  have rounds : roundsIn (course.after (.chunk chunk atStart)).steps = roundsIn course.steps :=
    roundsIn_cons rfl _
  have whole : (course.after (.chunk chunk atStart)).account.text = chunk ++ course.account.text ∧
      (course.after (.chunk chunk atStart)).account.calls = course.account.calls := by
    by_cases empty : chunk.isEmpty
    · have unseen : (Step.chunk chunk atStart : Step σ).seen? = none := if_pos empty
      rw [account_unseen unseen, String.isEmpty_iff.1 empty, String.empty_append]
      exact ⟨rfl, rfl⟩
    · have seen : (Step.chunk chunk atStart : Step σ).seen? = some (.chunk chunk) := if_neg empty
      rw [account_seen seen]
      exact ⟨Account.text_after_chunk .., rfl⟩
  rw [gathered, gathered, rounds, whole.1, whole.2, String.append_assoc]
  rfl

theorem gathered_call (callable : Host.Callable σ) (invocation : Invocation)
    (outcome : Except RenderError Value) :
    (course.after (.call callable invocation outcome)).gathered text go =
      (course.gathered text go).after (.call callable invocation outcome) := by
  have rounds : roundsIn (course.after (.call callable invocation outcome)).steps =
      roundsIn course.steps := roundsIn_cons rfl _
  rw [gathered, rounds]
  rfl

theorem gathered_round :
    (course.after .round).gathered text go =
      course.gathered text fun result rounds => go result (rounds + 1) := by
  have rounds : roundsIn (course.after .round).steps = roundsIn course.steps + 1 :=
    roundsIn_round _
  rw [gathered, rounds]
  rfl

theorem gathered_poll : (course.after .poll).gathered text go = course.gathered text go := by
  have rounds : roundsIn (course.after .poll).steps = roundsIn course.steps := roundsIn_cons rfl _
  rw [gathered, rounds]
  rfl

end Course

/-- Where the output stands within its line does not matter to a limit. -/
theorem Standing.afterRound_restart (standing : Standing) (atStart : Bool) (limits : Limits σ) :
    (Standing.mk atStart standing.iterations).afterRound limits =
      (standing.afterRound limits).map ({ · with atStart }) := by
  rw [afterRound, afterRound]
  cases limits.maxIterations with
  | none => rfl
  | some limit =>
    dsimp only
    split <;> rfl

theorem Standing.eq_of_afterRound {limits : Limits σ} {standing later : Standing}
    (begun : standing.afterRound limits = .ok later) :
    later = { standing with iterations := standing.iterations + 1 } := by
  rw [← iterations_afterRound begun, ← Eager.atStart_of_afterRound begun]

/-- The account of a flow that is gathered, by its course with nobody else at the host.  It begins
at the start of a line and with the rounds that have begun before. -/
theorem Flow.gathered_account {around : Surroundings σ}
    (uncancelled : ∀ host, around.isCancelled host = false) (flow : Flow σ α) (text : String)
    (atStart : Bool) (next : α × String → Flow σ β) (answered inside : Nat) (standing : Standing)
    (host : σ) :
    (flow.gatheredAfter text atStart >>= next).account around answered standing host =
      (flow.course around.alone inside ⟨atStart, standing.iterations⟩ host).gathered text
        fun result rounds host => (next result).account around answered
          { standing with iterations := standing.iterations + rounds } host := by
  induction flow generalizing text atStart inside standing host with
  | finish result =>
    change _ = (next (result, text ++ "")).account around answered standing host
    rw [String.append_empty]
    rfl
  | fail | bottomless => rfl
  | emit chunk resume ih =>
    have polls : around.alone.isCancelled host = false := uncancelled host
    change (Flow.poll fun _ => (if chunk.isEmpty then (resume atStart).gatheredAfter text atStart
      else (resume (isNewline chunk)).gatheredAfter (text ++ chunk) (isNewline chunk)) >>=
        next).account around answered standing host = _
    rw [account, course, uncancelled, polls, Course.gathered_chunk]
    by_cases empty : chunk.isEmpty
    · simp only [empty, Standing.afterChunk, if_true, Bool.false_eq_true, if_false]
      rw [String.isEmpty_iff.1 empty, String.append_empty]
      exact ih atStart text atStart inside standing host
    · have polls : around.alone.isCancelled (around.alone.meanwhile inside host) = false :=
        uncancelled host
      simp only [empty, Standing.afterChunk, polls, Bool.false_eq_true, if_false]
      exact ih (isNewline chunk) (text ++ chunk) (isNewline chunk) (inside + 1) standing host
  | call callable invocation resume ih =>
    change (Flow.call callable invocation fun value => (resume value).gatheredAfter text atStart >>=
      next).account around answered standing host = _
    rw [account, course]
    rcases (callable.run invocation.bindings).run host with ⟨outcome, host⟩
    cases outcome with
    | ok value =>
      refine (congrArg (Account.after _) (ih value text atStart inside standing host)).trans ?_
      exact (Course.gathered_call ..).symm
    | error error => rfl
  | round resume ih =>
    -- Inside, a round may be begun exactly if it may be begun outside.
    have alike : (Standing.mk atStart standing.iterations).afterRound around.alone.toLimits =
        (standing.afterRound around.toLimits).map ({ · with atStart }) :=
      Standing.afterRound_restart ..
    change (Flow.round fun go => (resume go).gatheredAfter text atStart >>= next).account around
      answered standing host = _
    rw [account, course, alike]
    cases begun : standing.afterRound around.toLimits with
    | error error => rfl
    | ok later =>
      obtain rfl := Standing.eq_of_afterRound begun
      refine (ih () text atStart inside _ host).trans ?_
      dsimp only [Except.map]
      rw [Course.gathered_round]
      simp only [Nat.add_assoc, Nat.add_comm 1]
  | poll resume ih =>
    have polls : around.alone.isCancelled host = false := uncancelled host
    change (Flow.poll fun go => (resume go).gatheredAfter text atStart >>= next).account around
      answered standing host = _
    rw [account, course, uncancelled, polls, if_neg Bool.false_ne_true, if_neg Bool.false_ne_true,
      Course.gathered_poll]
    exact ih () text atStart inside standing host

end Stencil
