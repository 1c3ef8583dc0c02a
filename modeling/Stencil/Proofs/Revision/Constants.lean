import Stencil.Proofs.Calls.Checked
import Stencil.Proofs.Revision.Documents

/-! # Constants

A constant is a fragment that comes to the same value on every host and leaves the host as it is.
Nothing but its call tells whether it has been evaluated.
-/

namespace Stencil

open Host (Interpretation)
open Template (Fragment)

variable {σ α β : Type} {interpretation : Interpretation σ}

/-- The callable takes whatever is in scope and always comes to the same value. -/
structure Host.Callable.Constant (callable : Host.Callable σ) (value : Value) : Prop where
  accepts : ∀ parameter ∈ callable.signature.parameters, ∀ given, parameter.check given = .ok ()
  returns : ∀ bindings host, (callable.run bindings).run host = (.ok value, host)

/-- A fragment that means a constant. -/
def Constant (interpretation : Interpretation σ) (fragment : Fragment) (value : Value) : Prop :=
  ∃ callable, interpretation fragment = .ok callable ∧ callable.Constant value

/-- A call by which one of these fragments has been evaluated to a constant. -/
inductive Evaluation (interpretation : Interpretation σ) (fragments : List Fragment) :
    Entry σ → Prop where
  | intro {fragment : Fragment} {callable : Host.Callable σ} {value : Value}
      (bindings : Host.Bindings) :
      fragment ∈ fragments → interpretation fragment = .ok callable → callable.Constant value →
      Evaluation interpretation fragments (.call callable ⟨fragment.source, bindings⟩ (.ok value))

theorem Evaluation.idle {fragments : List Fragment} {entry : Entry σ}
    (evaluation : Evaluation interpretation fragments entry) : entry.Idle := by
  obtain ⟨bindings, -, -, constant⟩ := evaluation
  exact constant.returns bindings

/-- Some constants are evaluated no longer and others in addition. -/
def Revision.constants (interpretation : Interpretation σ) (dropped added : List Fragment)
    (unrolls : Prop) : Revision σ where
  dropped := Evaluation interpretation dropped
  added := Evaluation interpretation added
  unrolls := unrolls
  splits := False
  idle _ changed := changed.elim Evaluation.idle Evaluation.idle

theorem checks_pass {parameters : List Host.Parameter}
    (accepts : ∀ parameter ∈ parameters, ∀ given, parameter.check given = .ok ())
    (bindings : Host.Bindings) :
    parameters.forM (Lexical.checkNamed bindings) = .ok () := by
  induction parameters with
  | nil => rfl
  | cons parameter parameters ih =>
    obtain ⟨here, later⟩ := List.forall_mem_cons.1 accepts
    have first : Lexical.checkNamed bindings parameter = .ok () := by
      rw [Lexical.checkNamed]
      split
      · exact here _
      · rfl
    rw [except_forM_cons, first]
    exact ih later

theorem mapM_lookup {environment : Lexical.Environment} {names : List String}
    (bound : ∀ name ∈ names, name ∈ environment.map Prod.fst) :
    ∃ entries, names.mapM (fun name => (environment.lookup name).map (name, ·)) =
      some entries := by
  induction names with
  | nil => exact ⟨[], rfl⟩
  | cons name names ih =>
    obtain ⟨here, later⟩ := List.forall_mem_cons.1 bound
    obtain ⟨entries, rest⟩ := ih later
    cases found : environment.lookup name with
    | none =>
      rw [List.lookup_eq_none_iff] at found
      obtain ⟨entry, member, rfl⟩ := List.mem_map.1 here
      exact absurd (found entry member) (by simp)
    | some value =>
      refine ⟨(name, value) :: entries, ?_⟩
      simp only [List.mapM_cons, found, rest]
      rfl

/-- Where its names are in scope, a constant is evaluated by one call. -/
theorem Constant.evaluate {fragment : Fragment} {value : Value}
    (constant : Constant interpretation fragment value) {environment : Lexical.Environment}
    (bound : ∀ name ∈ fragment.names, name ∈ environment.map Prod.fst) (absent : RenderError) :
    ∃ callable bindings, interpretation fragment = .ok callable ∧ callable.Constant value ∧
      Lexical.evaluate interpretation absent environment fragment =
        .call callable ⟨fragment.source, bindings⟩ .finish := by
  obtain ⟨callable, taken, constant⟩ := constant
  obtain ⟨entries, found⟩ := mapM_lookup bound
  refine ⟨callable, ⟨entries⟩, taken, constant, ?_⟩
  simp only [Lexical.evaluate, taken, found, checks_pass constant.accepts]

namespace Flow.Revised

variable {dropped added : List Fragment} {unrolls : Prop} {results : α → β → Prop}
  {fragment : Fragment} {value : Value} {environment : Lexical.Environment} {absent : RenderError}

theorem dropConstant (constant : Constant interpretation fragment value)
    (bound : ∀ name ∈ fragment.names, name ∈ environment.map Prod.fst)
    (member : fragment ∈ dropped) {next : Value → Flow σ α} {other : Flow σ β}
    (rest : Revised (.constants interpretation dropped added unrolls) results (next value) other) :
    Revised (.constants interpretation dropped added unrolls) results
      (Lexical.evaluate interpretation absent environment fragment >>= next) other := by
  obtain ⟨callable, bindings, taken, constant, call⟩ := constant.evaluate bound absent
  rw [call]
  exact .drop (.intro bindings member taken constant) rest

theorem addConstant (constant : Constant interpretation fragment value)
    (bound : ∀ name ∈ fragment.names, name ∈ environment.map Prod.fst)
    (member : fragment ∈ added) {flow : Flow σ α} {follow : Value → Flow σ β}
    (rest : Revised (.constants interpretation dropped added unrolls) results flow
      (follow value)) :
    Revised (.constants interpretation dropped added unrolls) results flow
      (Lexical.evaluate interpretation absent environment fragment >>= follow) := by
  obtain ⟨callable, bindings, taken, constant, call⟩ := constant.evaluate bound absent
  rw [call]
  exact .add (.intro bindings member taken constant) rest

end Flow.Revised

end Stencil
