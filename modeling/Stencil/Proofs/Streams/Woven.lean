import Mathlib.Algebra.Ring.Nat
import Mathlib.Data.List.Basic
import Stencil.Flow.Join
import Stencil.Flow.Line
import Stencil.Proofs.Indentation.Stream
import Stencil.Proofs.Streams.Runs

/-! # Streams woven together

Streams stand one after another, and what joins two of them stands directly ahead of the first
content of the later one.  A stream without content joins nothing, and nothing joins it.  Both
adaptors that put out something of their own, that of a line and that of a round, weave a lead into
the run of the flow that they adapt.
-/

namespace Stencil

open Eager (hasContent)

variable {σ α : Type}

/-! ## Chunks -/

/-- The chunks, with a lead directly ahead of the first content. -/
def ledBy (lead : Option String) : List String → List String
  | [] => []
  | chunk :: chunks =>
    if isNewline chunk then chunk :: ledBy lead chunks else lead.toList ++ chunk :: chunks

/-- Streams one after another, given whether there has been content before them.  Each stream comes
with its lead, which may depend on that. -/
def woven : (earlier : Bool) → List ((Bool → Option String) × List String) → List String
  | _, [] => []
  | earlier, (lead, chunks) :: streams =>
    ledBy (lead earlier) chunks ++ woven (earlier || hasContent chunks) streams

/-- A lead that is there only if there has been content before. -/
def leadIf (lead : Option String) (earlier : Bool) : Option String :=
  if earlier then lead else none

theorem hasContent_cons (chunk : String) (chunks : List String) :
    hasContent (chunk :: chunks) = (!isNewline chunk || hasContent chunks) :=
  List.any_cons

theorem ledBy_none (chunks : List String) : ledBy none chunks = chunks := by
  induction chunks with
  | nil => rfl
  | cons chunk chunks ih =>
    rw [ledBy, ih]
    exact ite_self _

/-- Where there is no content there is no lead. -/
theorem ledBy_idle {chunks : List String} (idle : hasContent chunks = false)
    (lead : Option String) : ledBy lead chunks = chunks := by
  induction chunks with
  | nil => rfl
  | cons chunk chunks ih =>
    rw [hasContent_cons, Bool.or_eq_false_iff, Bool.not_eq_false'] at idle
    rw [ledBy, if_pos idle.1, ih idle.2]

theorem length_ledBy (lead : String) (chunks : List String) :
    (ledBy (some lead) chunks).length = chunks.length + (hasContent chunks).toNat := by
  induction chunks with
  | nil => rfl
  | cons chunk chunks ih =>
    rw [ledBy, hasContent_cons]
    cases isNewline chunk with
    | true =>
      simp only [if_true, List.length_cons, ih, Bool.not_true, Bool.false_or]
      omega
    | false => rfl

/-- An empty lead cannot be seen. -/
theorem shown_ledBy (lead : Option String) (chunks : List String) :
    shown (ledBy (some (lead.getD "")) chunks) = shown (ledBy lead chunks) := by
  cases lead with
  | some lead => rfl
  | none =>
    rw [ledBy_none]
    induction chunks with
    | nil => rfl
    | cons chunk chunks ih =>
      rw [ledBy]
      split
      · rw [← List.singleton_append, shown_append, ih, ← shown_append, List.singleton_append]
      · rfl

theorem woven_append (earlier : Bool)
    (streams others : List ((Bool → Option String) × List String)) :
    woven earlier (streams ++ others) =
      woven earlier streams ++ woven (earlier || streams.any (hasContent ·.2)) others := by
  induction streams generalizing earlier with
  | nil => simp only [List.nil_append, woven, List.any_nil, Bool.or_false]
  | cons stream streams ih =>
    simp only [List.cons_append, woven, ih, List.any_cons, List.append_assoc, Bool.or_assoc]

/-- A stream without content is put out as it is, and all others are as they are without it. -/
theorem woven_idle {chunks : List String} (idle : hasContent chunks = false) (earlier : Bool)
    (lead : Bool → Option String) (before after : List ((Bool → Option String) × List String)) :
    ∃ back, woven earlier (before ++ after) = woven earlier before ++ back ∧
      woven earlier (before ++ (lead, chunks) :: after) =
        woven earlier before ++ chunks ++ back := by
  refine ⟨_, woven_append earlier before after, ?_⟩
  rw [woven_append, woven, ledBy_idle idle, idle, Bool.or_false, List.append_assoc]

/-- The leads are one fewer than the streams with content, unless there is content before. -/
theorem length_woven (lead : String) (earlier : Bool) (streams : List (List String)) :
    (woven earlier (streams.map (leadIf (some lead), ·))).length + (!earlier).toNat =
      (streams.map List.length).sum +
        max (streams.countP hasContent) (!earlier).toNat := by
  induction streams generalizing earlier with
  | nil => cases earlier <;> rfl
  | cons chunks streams ih =>
    have rest := ih (earlier || hasContent chunks)
    have here := length_ledBy lead chunks
    simp only [List.map_cons, woven, List.length_append, List.sum_cons, List.countP_cons] at rest ⊢
    cases content : hasContent chunks <;> cases earlier <;>
      simp only [content, leadIf, Bool.false_eq_true, if_true, if_false, ledBy_none, Bool.or_false,
        Bool.or_true, Bool.not_true, Bool.not_false, Bool.toNat_true, Bool.toNat_false]
        at rest here ⊢ <;> omega

/-- Where there is no lead, an empty one makes no difference to what is seen. -/
theorem shown_woven (earlier : Bool) (streams : List (Option String × List String)) :
    shown (woven earlier (streams.map fun stream =>
        (fun earlier => some ((leadIf stream.1 earlier).getD ""), stream.2))) =
      shown (woven earlier (streams.map fun stream => (leadIf stream.1, stream.2))) := by
  induction streams generalizing earlier with
  | nil => rfl
  | cons stream streams ih =>
    simp only [List.map_cons, woven, shown_append, shown_ledBy, ih]

/-! ## Steps -/

namespace Flow

/-- The steps, with a lead put out directly ahead of the first content. -/
inductive Led : Option String → List (Step σ) → List (Step σ) → Prop where
  | bare (steps : List (Step σ)) : Led none steps steps
  | nil (lead : String) : Led (some lead) [] []
  | skip {lead : String} {step : Step σ} {steps led : List (Step σ)} :
      step.isContent = false → Led (some lead) steps led →
      Led (some lead) (step :: steps) (step :: led)
  | ahead {lead : String} {step : Step σ} {steps : List (Step σ)} (atStart : Bool) :
      step.isContent → Led (some lead) (step :: steps) (.chunk lead atStart :: step :: steps)

theorem Led.empty (lead : Option String) : Led lead ([] : List (Step σ)) [] := by
  cases lead with
  | none => exact .bare []
  | some lead => exact .nil lead

theorem Led.cons {lead : Option String} {step : Step σ} {steps led : List (Step σ)}
    (idle : step.isContent = false) (rest : Led lead steps led) :
    Led lead (step :: steps) (step :: led) := by
  cases lead with
  | none =>
    cases rest
    exact .bare _
  | some lead => exact .skip idle rest

theorem Led.chunks {lead : Option String} {steps led : List (Step σ)}
    (woven : Led lead steps led) : chunksOf led = ledBy lead (chunksOf steps) := by
  induction woven with
  | bare steps => exact (ledBy_none _).symm
  | nil lead => rfl
  | @skip lead step steps led idle _ ih =>
    cases step with
    | chunk text atStart =>
      have newline : isNewline text = true := by
        simpa only [Step.isContent, Bool.not_eq_false'] using idle
      show text :: chunksOf led = ledBy (some lead) (text :: chunksOf steps)
      rw [ledBy, if_pos newline, ih]
    | call | round | poll => exact ih
  | @ahead lead step steps atStart content =>
    cases step with
    | chunk text atStart =>
      have visible : ¬isNewline text = true := by
        rwa [Step.isContent, Bool.not_eq_true', ← Bool.not_eq_true] at content
      show lead :: text :: chunksOf steps = ledBy (some lead) (text :: chunksOf steps)
      rw [ledBy, if_neg visible]
      rfl
    | call | round | poll => cases content

/-- Turns one after another, each with its lead, given whether there has been content before. -/
inductive Woven : (earlier : Bool) → List ((Bool → Option String) × List (Step σ)) →
    List (Step σ) → Prop where
  | nil (earlier : Bool) : Woven earlier [] []
  | cons {earlier : Bool} {lead : Bool → Option String} {turn led : List (Step σ)}
      {turns : List ((Bool → Option String) × List (Step σ))} {steps : List (Step σ)} :
      Led (lead earlier) turn led → Woven (earlier || hasContent (chunksOf turn)) turns steps →
      Woven earlier ((lead, turn) :: turns) (led ++ steps)

theorem Woven.only {earlier : Bool} {lead : Bool → Option String} {turn led : List (Step σ)}
    (first : Led (lead earlier) turn led) : Woven earlier [(lead, turn)] led := by
  have woven : Woven earlier [(lead, turn)] (led ++ []) := .cons first (.nil _)
  rwa [List.append_nil] at woven

theorem Woven.chunks {earlier : Bool} {turns : List ((Bool → Option String) × List (Step σ))}
    {steps : List (Step σ)} (joins : Woven earlier turns steps) :
    chunksOf steps = woven earlier (turns.map fun turn => (turn.1, chunksOf turn.2)) := by
  induction joins with
  | nil => rfl
  | cons led _ ih => rw [chunksOf_append, led.chunks, ih, List.map_cons, Stencil.woven]

/-- What becomes of one of the turns, given those before it. -/
theorem Woven.split {earlier : Bool} {lead : Bool → Option String} {turn : List (Step σ)}
    {before after : List ((Bool → Option String) × List (Step σ))} {steps : List (Step σ)}
    (joins : Woven earlier (before ++ (lead, turn) :: after) steps) :
    ∃ front led back, steps = front ++ led ++ back ∧ Woven earlier before front ∧
      Led (lead (earlier || before.any (hasContent <| chunksOf ·.2))) turn led := by
  induction before generalizing earlier steps with
  | nil =>
    cases joins with
    | cons led rest =>
      rw [List.any_nil, Bool.or_false]
      exact ⟨[], _, _, rfl, .nil earlier, led⟩
  | cons first before ih =>
    cases joins with
    | cons one rest =>
      obtain ⟨front, led, back, rfl, joined, own⟩ := ih rest
      rw [List.any_cons, ← Bool.or_assoc]
      refine ⟨_ ++ front, led, back, ?_, .cons one joined, own⟩
      simp only [List.append_assoc]

/-! ## Adaptors -/

theorem Step.isContent_chunk (text : String) (atStart : Bool) :
    (Step.chunk text atStart : Step σ).isContent = !isNewline text :=
  rfl

theorem hasContent_chunksOf_cons (step : Step σ) (steps : List (Step σ)) :
    hasContent (chunksOf (step :: steps)) = (step.isContent || hasContent (chunksOf steps)) := by
  cases step with
  | chunk text atStart => exact hasContent_cons text (chunksOf steps)
  | call | round | poll => rfl

/-- A step that is no content does not count for the result of an adaptor. -/
theorem Outcome.map_idle {step : Step σ} (idle : step.isContent = false) (begun : Bool)
    (turn : List (Step σ)) (early : Outcome α) :
    early.map (·, begun || hasContent (chunksOf turn)) =
      early.map (·, begun || hasContent (chunksOf (step :: turn))) := by
  rw [hasContent_chunksOf_cons, idle, Bool.false_or]

/-- From the first content on, the result of an adaptor is settled. -/
theorem Outcome.map_content {step : Step σ} (content : step.isContent) (begun : Bool)
    (turn : List (Step σ)) (early : Outcome α) :
    early.map (·, true || hasContent (chunksOf turn)) =
      early.map (·, begun || hasContent (chunksOf (step :: turn))) := by
  simp only [hasContent_chunksOf_cons, content, Bool.true_or, Bool.or_true]

theorem Outcome.map_start (begun : Bool) (result : α) :
    Outcome.finished (result, begun) =
      (Outcome.finished result).map (·, begun || hasContent (chunksOf ([] : List (Step σ)))) := by
  show _ = Outcome.finished (result, begun || false)
  rw [Bool.or_false]

namespace Runs

variable {flow : Flow σ α} {steps : List (Step σ)} {outcome : Outcome (α × Bool)}

/-- A round of a loop is run by itself, and the separator is woven in. -/
theorem of_joined {separator : Option String} {begun : Bool}
    (runs : (flow.joined separator begun).Runs steps outcome) :
    ∃ turn early, flow.Runs turn early ∧
      outcome = early.map (·, begun || hasContent (chunksOf turn)) ∧
      Led (if begun then none else separator) turn steps := by
  induction flow generalizing begun steps with
  | finish result =>
    cases runs
    exact ⟨[], _, .finish result, Outcome.map_start (σ := σ) begun result, .empty _⟩
  | fail error =>
    cases runs
    exact ⟨[], _, .fail error, rfl, .empty _⟩
  | bottomless =>
    cases runs
    exact ⟨[], _, .bottomless, rfl, .empty _⟩
  | emit chunk resume ih =>
    rw [joined] at runs
    cases newline : isNewline chunk with
    | true =>
      rw [if_pos newline] at runs
      cases runs with
      | emit atStart runs =>
        have idle : (Step.chunk chunk atStart : Step σ).isContent = false := by
          rw [Step.isContent_chunk, newline, Bool.not_true]
        obtain ⟨turn, early, first, rfl, led⟩ := ih atStart runs
        exact ⟨_, early, .emit atStart first, Outcome.map_idle idle begun turn early, led.cons idle⟩
    | false =>
      rw [if_neg (ne_true_of_eq_false newline)] at runs
      have content (atStart : Bool) : (Step.chunk chunk atStart : Step σ).isContent = true := by
        rw [Step.isContent_chunk, newline, Bool.not_false]
      -- Behind the first content nothing more is put ahead.
      generalize absent : (if begun then none else separator) = lead at runs ⊢
      cases lead with
      | none =>
        cases runs with
        | emit atStart runs =>
          obtain ⟨_, early, first, rfl, ⟨⟩⟩ := ih atStart runs
          exact ⟨_, early, .emit atStart first, Outcome.map_content (content atStart) begun _ early,
            .bare _⟩
      | some text =>
        cases runs with
        | emit heard runs =>
          cases runs with
          | emit atStart runs =>
            obtain ⟨_, early, first, rfl, ⟨⟩⟩ := ih atStart runs
            exact ⟨_, early, .emit atStart first,
              Outcome.map_content (content atStart) begun _ early, .ahead heard (content atStart)⟩
  | call callable invocation resume ih =>
    cases runs with
    | call value runs =>
      obtain ⟨turn, early, first, rfl, led⟩ := ih value runs
      exact ⟨_, early, .call value first, Outcome.map_idle rfl begun turn early, led.cons rfl⟩
    | refused error => exact ⟨_, _, .refused error, rfl, (Led.empty _).cons rfl⟩
  | round resume ih =>
    cases runs with
    | round runs =>
      obtain ⟨turn, early, first, rfl, led⟩ := ih () runs
      exact ⟨_, early, .round first, Outcome.map_idle rfl begun turn early, led.cons rfl⟩
    | forbidden error => exact ⟨_, _, .forbidden error, rfl, .empty _⟩
  | poll resume ih =>
    cases runs with
    | poll runs =>
      obtain ⟨turn, early, first, rfl, led⟩ := ih () runs
      exact ⟨_, early, .poll first, Outcome.map_idle rfl begun turn early, led.cons rfl⟩
    | cancelled error => exact ⟨_, _, .cancelled error, rfl, .empty _⟩

end Runs

/-- Without an indentation a line adds to its children what a separator adds to a round. -/
theorem line_eq_joined (flow : Flow σ α) (lead : String) (stage : LineStage) :
    flow.line lead none stage = flow.joined (some lead) stage.hasContent := by
  induction flow generalizing stage with
  | finish | fail | bottomless => rfl
  | emit chunk resume ih =>
    rw [line, joined]
    split
    · refine congrArg (emit chunk) (funext fun atStart => (ih atStart _).trans ?_)
      cases stage <;> rfl
    · have rest := funext fun atStart => ih atStart (.begun atStart)
      cases stage with
      | fresh => exact congrArg (emit lead fun _ => emit chunk ·) rest
      | begun atStart => exact congrArg (emit chunk) rest
  | call callable invocation resume ih =>
    exact congrArg (call callable invocation) (funext fun value => ih value stage)
  | round resume ih => exact congrArg round (funext fun go => ih go stage)
  | poll resume ih => exact congrArg poll (funext fun go => ih go stage)

end Flow

end Stencil
