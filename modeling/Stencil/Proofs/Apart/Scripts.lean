import Stencil.Proofs.Apart.Hosts
import Stencil.Proofs.Lexical.Resolved
import Stencil.Script

/-! # Scripts that leave their host alone

A scripted expression that neither counts nor cancels comes to the same on every host and changes
nothing, as do the expressions of the stock and plain names.  If all expressions of a script are of
this kind, its callables are blind to whatever others do with the host.
-/

namespace Stencil

open Host (Action Bindings Callable Catalog Interpretation)
open Script (Body State)

variable {σ α β : Type}

/-! ## Callables that leave their host alone -/

/-- What is done comes to the same on every host, and changes nothing. -/
def Host.Action.Steady (action : Action σ α) : Prop :=
  ∃ outcome, ∀ host, action.run host = (outcome, host)

namespace Host.Action.Steady

theorem pure (value : α) : Steady (Pure.pure value : Action σ α) :=
  ⟨.ok value, fun _ => rfl⟩

theorem lift (outcome : Except RenderError α) : Steady (liftM outcome : Action σ α) :=
  ⟨outcome, fun _ => rfl⟩

theorem bind {action : Action σ α} {next : α → Action σ β} (first : Steady action)
    (second : ∀ value, Steady (next value)) : Steady (action >>= next) := by
  obtain ⟨outcome, same⟩ := first
  have step : ∀ host, (action >>= next).run host =
      match action.run host with
      | (.ok value, after) => (next value).run after
      | (.error error, after) => (.error error, after) := by
    intro host
    change (ExceptT.bindCont next (action.run host).1).run (action.run host).2 = _
    rcases action.run host with ⟨_ | _, _⟩ <;> rfl
  cases outcome with
  | error error => exact ⟨.error error, fun host => by rw [step, same]⟩
  | ok value =>
    -- The first action has left the host as it was, so that the second one begins there.
    obtain ⟨outcome, later⟩ := second value
    exact ⟨outcome, fun host => by rw [step, same]; exact later host⟩

end Host.Action.Steady

def Host.Callable.Steady (callable : Callable σ) : Prop :=
  ∀ bindings, Action.Steady (callable.run bindings)

theorem Host.Callable.Steady.blind {callable : Callable σ} (steady : callable.Steady)
    (alike : σ → σ → Prop) : callable.Blind alike := by
  intro bindings one other same
  obtain ⟨outcome, runs⟩ := steady bindings
  rw [runs, runs]
  exact ⟨rfl, same⟩

theorem Host.TypedFunction.steady (f : Host.TypedFunction) : (f.callable : Callable σ).Steady :=
  fun _ => .lift _

theorem Host.Catalog.foldl_register {γ : Type} {callable : γ → Callable σ} {entries : List γ}
    {catalog : Catalog σ} {kind : Callable σ → Prop}
    (before : ∀ member ∈ catalog.callables, kind member)
    (added : ∀ entry ∈ entries, kind (callable entry)) :
    ∀ member ∈ (entries.foldl (fun catalog entry => catalog.register (callable entry))
      catalog).callables, kind member := by
  induction entries generalizing catalog with
  | nil => exact before
  | cons entry entries ih =>
    obtain ⟨here, later⟩ := List.forall_mem_cons.1 added
    exact ih (List.forall_mem_cons.2 ⟨here, before⟩) later

/-! ## Scripted expressions -/

namespace Script

mutual

/-- Neither counts nor cancels. -/
def Body.isPlain : Body → Bool
  | .counter _ | .cancel _ => false
  | .const _ | .get _ | .find _ | .fail _ => true
  | .concat parts | .array parts | .add parts => arePlain parts
  | .asciiUpper part | .truthy part | .typeName part => part.isPlain

def arePlain : List Body → Bool
  | [] => true
  | part :: parts => part.isPlain && arePlain parts

end

mutual

theorem run_steady (bindings : Bindings) : (body : Body) → body.isPlain →
    Action.Steady (body.run bindings)
  | .const _, _ => .pure _
  | .get name, _ => .lift (bindings.get name)
  | .find _, _ => .pure _
  | .fail error, _ => ⟨.error error, fun _ => rfl⟩
  | .concat parts, plain | .array parts, plain | .add parts, plain =>
    (runAll_steady bindings parts plain).bind fun _ => .pure _
  | .asciiUpper part, plain | .truthy part, plain | .typeName part, plain =>
    (run_steady bindings part plain).bind fun _ => .pure _
  | .counter _, plain | .cancel _, plain => nomatch plain

theorem runAll_steady (bindings : Bindings) : (parts : List Body) → arePlain parts →
    Action.Steady (runAll bindings parts)
  | [], _ => .pure []
  | part :: parts, plain => by
    obtain ⟨here, later⟩ := Bool.and_eq_true_iff.1 plain
    exact (run_steady bindings part here).bind fun _ =>
      (runAll_steady bindings parts later).bind fun _ => .pure _

end

/-! ## Scripted hosts -/

variable {script : Script}

/-- Each callable of the script is one of the stock or scripted. -/
theorem catalog_steady (plain : ∀ entry ∈ script.entries, entry.body.isPlain) :
    ∀ callable ∈ script.catalog.callables, callable.Steady := by
  have scripted : ∀ entry ∈ script.entries, entry.callable.Steady :=
    fun entry member bindings => run_steady bindings entry.body (plain entry member)
  have stock : ∀ callable ∈ (Catalog.empty : Catalog State).registerStock.callables,
      callable.Steady :=
    Catalog.foldl_register (fun callable member => absurd member List.not_mem_nil)
      fun entry _ => entry.expression.steady
  -- Whatever is registered later has no influence on what is there already.
  rw [catalog]
  refine Catalog.foldl_register ?_ scripted
  cases script.withStock with
  | true => exact stock
  | false => exact fun callable member => absurd member List.not_mem_nil

theorem interpretation_steady (plain : ∀ entry ∈ script.entries, entry.body.isPlain)
    {fragment : Template.Fragment} {callable : Callable State}
    (taken : script.interpretation fragment = .ok callable) : callable.Steady := by
  rw [interpretation, Interpretation.refusing] at taken
  cases refused : script.refusals.lookup fragment.source with
  | some refusal =>
    rw [refused] at taken
    cases taken
  | none =>
    rw [refused] at taken
    dsimp only [Catalog.interpret] at taken
    cases found : script.catalog.find? fragment.source with
    | some other =>
      rw [found] at taken
      cases taken
      exact catalog_steady plain callable (List.mem_of_find?_eq_some found)
    | none =>
      rw [found] at taken
      dsimp only at taken
      split at taken
      · cases taken
        exact fun bindings => .lift _
      · cases taken

/-- The callables of a program that is compiled for such a script are blind. -/
theorem callables_blind (plain : ∀ entry ∈ script.entries, entry.body.isPlain)
    {documents : List Template.Document} {program : Program State}
    (compiled : Program.compile script.interpretation documents = .ok program)
    (alike : State → State → Prop) :
    ∀ occurrence ∈ program.occurrences, occurrence.expression.callable.Blind alike := by
  intro occurrence stands
  obtain ⟨fragment, here⟩ := stems_program compiled occurrence stands
  exact (interpretation_steady plain (represents_of_compile here).taken).blind alike

def State.NoneSet (state : State) : Prop :=
  ∀ token, state.isSet token = false

/-- A rendering that is given a token, or none, is not cancelled as long as none is set. -/
theorem token_blind {options : Render.Options State} {token : Option String}
    (given : options.isCancelled = token.map fun token state => state.isSet token) :
    options.limits.Blind (Host.BothCalm State.NoneSet) := by
  rintro one other ⟨here, there⟩
  simp only [Render.Options.limits, Render.Options.isCancelledAt, given]
  cases token with
  | none => rfl
  | some token => exact (here token).trans (there token).symm

end Script

end Stencil
