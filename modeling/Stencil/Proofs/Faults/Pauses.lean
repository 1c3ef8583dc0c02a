import Stencil.Proofs.Faults.Justified
import Stencil.Proofs.Faults.Settled
import Stencil.Proofs.Pulls.FailStop

/-! # Runs that lay blame

A rendering that lays blame can be run beside the rendering itself, on the same host and with
the same answers.  Both go through the same moments, until one of them comes to a blame and the
other to its error.
-/

namespace Stencil

variable {σ α : Type}

/-! ## From answer to answer -/

/-- A rendering between two answers. -/
structure Pause (σ α : Type) where
  standing : Standing
  rest : Unit → Flow σ α
  host : σ

namespace Pause

/-- The moment at which the next answer is asked for, on the host as it is then.  First of all the
rendering can be cancelled. -/
def asked (pause : Pause σ α) (present : σ) : Moment σ α :=
  ⟨pause.standing, .poll pause.rest, present⟩

/-- From one pause to a later one, with a chunk for an answer after each change of the host. -/
inductive Passes (limits : Limits σ) : Pause σ α → List (σ → σ) → Pause σ α → Prop where
  | here {pause : Pause σ α} : Passes limits pause [] pause
  | chunk {pause last : Pause σ α} {change : σ → σ} {changes : List (σ → σ)}
      {calls : List Invocation} {standing : Standing} {chunk : String}
      {resume : Bool → Flow σ α} {host : σ} :
      (pause.asked (change pause.host)).Reaches limits calls
        ⟨standing, .emit chunk resume, host⟩ →
      ¬chunk.isEmpty →
      Passes limits ⟨standing.afterChunk chunk,
        fun _ => resume (standing.afterChunk chunk).atStart, host⟩ changes last →
      Passes limits pause (change :: changes) last

variable {limits : Limits σ}

theorem finished_left (changes : List (σ → σ)) (host : σ) :
    (Render.finished : Render σ).left changes host = .finished := by
  induction changes generalizing host with
  | nil => rfl
  | cons change changes ih => exact ih _

/-- A rendering that is not yet at its end has passed from one chunk to another. -/
theorem passes_of_left {limits later : Limits σ} {standing after : Standing}
    {rest onward : Unit → Flow σ Progress} {changes : List (σ → σ)} {host : σ}
    (left : (Render.suspended limits standing rest).left changes host =
      .suspended later after onward) :
    later = limits ∧
      ∃ last, Passes limits ⟨standing, rest, host⟩ changes ⟨after, onward, last⟩ := by
  induction changes generalizing standing rest host with
  | nil =>
    cases left
    exact ⟨rfl, host, .here⟩
  | cons change changes ih =>
    rw [Render.left] at left
    obtain ⟨reaches, concludes, same⟩ := Moment.pull_arrives (.poll rest) standing (change host)
    change (Render.suspended limits standing rest).next (change host) = _ at same
    rw [same] at left
    cases concludes with
    | error | complete | bottomless =>
      change Render.left changes .finished _ = _ at left
      rw [finished_left] at left
      cases left
    | chunk nonempty =>
      obtain ⟨same, last, passes⟩ := ih left
      exact ⟨same, last, .chunk reaches nonempty passes⟩

end Pause

/-! ## Beside each other -/

namespace Blaming

variable {limits : Limits σ} {kind : Except (Blame σ) Progress → Prop}

/-- The rendering reaches the same moments as the one that lays blame. -/
theorem reaches_settled {standing later : Standing} {host after : σ} {calls : List Invocation}
    {flow : Flow σ (Except (Blame σ) Progress)} {reached : Flow σ Progress}
    (reaches : (Moment.mk standing (settled flow) host).Reaches limits calls
      ⟨later, reached, after⟩) (ends : flow.Ends kind) :
    ∃ beside, reached = settled beside ∧ beside.Ends kind ∧
      (Moment.mk standing flow host).Reaches limits calls ⟨later, beside, after⟩ := by
  -- The induction is on the flow that lays blame: once a blame is settled, nothing is left of it
  -- that could be reached, so the two stay beside each other.
  induction flow generalizing standing host calls with
  | finish outcome =>
    have here : calls = [] ∧ Moment.mk later reached after =
        ⟨standing, settled (.finish outcome), host⟩ := by
      cases outcome <;> cases reaches <;> exact ⟨rfl, rfl⟩
    obtain ⟨rfl, same⟩ := here
    cases same
    exact ⟨_, rfl, ends, .here⟩
  | fail error => exact ends.elim
  | bottomless =>
    cases reaches
    exact ⟨.bottomless, rfl, ends, .here⟩
  | emit chunk resume ih =>
    cases reaches with
    | here => exact ⟨_, rfl, ends, .here⟩
    | empty empty next =>
      -- After an empty chunk both can be cancelled before they go on.
      cases next with
      | here =>
        exact ⟨.poll fun _ => resume later.atStart, rfl, fun _ => ends _, .empty empty .here⟩
      | poll going next =>
        obtain ⟨beside, same, holds, there⟩ := ih standing.atStart next (ends _)
        exact ⟨beside, same, holds, .empty empty (.poll going there)⟩
  | call callable invocation resume ih =>
    cases reaches with
    | here => exact ⟨_, rfl, ends, .here⟩
    | call ran next =>
      obtain ⟨beside, same, holds, there⟩ := ih _ next (ends.2 _)
      exact ⟨beside, same, holds, .call ran there⟩
  | round resume ih =>
    cases reaches with
    | here => exact ⟨_, rfl, ends, .here⟩
    | round begun next =>
      obtain ⟨beside, same, holds, there⟩ := ih () next (ends _)
      exact ⟨beside, same, holds, .round begun there⟩
  | poll resume ih =>
    cases reaches with
    | here => exact ⟨_, rfl, ends, .here⟩
    | poll going next =>
      obtain ⟨beside, same, holds, there⟩ := ih () next (ends _)
      exact ⟨beside, same, holds, .poll going there⟩

/-- The rendering passes on with the same answers as the one that lays blame. -/
theorem passes_settled (pause : Pause σ (Except (Blame σ) Progress))
    {start last : Pause σ Progress} {changes : List (σ → σ)}
    (passes : start.Passes limits changes last)
    (same : start = ⟨pause.standing, fun go => settled (pause.rest go), pause.host⟩)
    (ends : (pause.rest ()).Ends kind) :
    ∃ beside : Pause σ (Except (Blame σ) Progress),
      last = ⟨beside.standing, fun go => settled (beside.rest go), beside.host⟩ ∧
        (beside.rest ()).Ends kind ∧ pause.Passes limits changes beside := by
  induction passes generalizing pause with
  | here => exact ⟨pause, same, ends, .here⟩
  | @chunk start last change changes calls standing chunk resume host reaches nonempty _ ih =>
    subst same
    have asked : Flow.Ends kind (.poll pause.rest) := fun _ => ends
    obtain ⟨beside, same, holds, there⟩ := reaches_settled reaches asked
    cases beside with
    | emit text onward =>
      cases same
      obtain ⟨after, ended, final, passed⟩ := ih ⟨_, fun _ => onward _, host⟩ rfl (holds _)
      exact ⟨after, ended, final, .chunk there nonempty passed⟩
    | finish outcome => cases outcome <;> cases same
    | fail | bottomless | call | round | poll => cases same

end Blaming

end Stencil
