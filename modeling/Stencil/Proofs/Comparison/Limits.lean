import Stencil.Proofs.Comparison.Accounts

/-! # Limits only cut renderings short

A rendering under stricter limits does what the same rendering does under laxer ones, up to a
point where an error of the limit ends it.  Nothing is left out, changed or put out in another
order before that point, wherever in the nesting of constructs the limit is met.  The same holds
of a rendering that is cancelled, by its own host or by others.
-/

namespace Stencil

open Eager (Surroundings Occasion)

variable {σ : Type}

/-- A rendering has failed with an error of one of the kinds. -/
def Ending.FailedBy (kinds : List RenderError.Kind) : Ending → Prop
  | .failed error => error.kind ∈ kinds
  | .complete | .bottomless => False

/-- The first account is the second one, or it is a beginning of the second one that ends with an
error of one of the kinds. -/
def Account.CutShort (kinds : List RenderError.Kind) (short full : Account σ) : Prop :=
  short = full ∨
    ∃ error, error.kind ∈ kinds ∧ short.ending = .failed error ∧ short.entries <+: full.entries

section Kinds

variable {kinds : List RenderError.Kind} {deep : Prop} {short full : Account σ}

theorem Account.Alike.cutShort
    (alike : Account.Alike (.same (Ending.FailedBy kinds) deep) short full) :
    short.CutShort kinds full := by
  obtain rfl | ⟨failed, -, earlier⟩ := alike.eq_or_prefix
  · exact .inl rfl
  · obtain ⟨entries, ending, host⟩ := short
    cases ending with
    | failed error => exact .inr ⟨error, failed, rfl, earlier⟩
    | complete | bottomless => exact failed.elim

/-- Where no side is nested too deeply, both accounts are told to their ends. -/
theorem Account.Alike.followed
    (alike : Account.Alike (.same (Ending.FailedBy kinds) False) short full) :
    short.ending ≠ .bottomless := by
  rintro endless
  cases alike with
  | whole _ deep => exact deep endless
  | cut failed =>
    cases endless
    exact failed

end Kinds

/-! ## Limits -/

/-- The first options set the same limits as the second or stricter ones.  Both limit the depth
of includes. -/
structure Render.Options.Within (strict lax : Render.Options σ) : Prop where
  escape : strict.escape = lax.escape
  isCancelled : strict.isCancelled = lax.isCancelled
  iterations : ∀ limit ∈ lax.maxIterations, ∃ less ∈ strict.maxIterations, less ≤ limit
  depth : ∃ less ∈ strict.maxIncludeDepth, ∃ limit ∈ lax.maxIncludeDepth, less ≤ limit

def limitKinds : List RenderError.Kind :=
  [.resourceLimit, .recursionLimit]

theorem Standing.afterRound_within {strict lax : Render.Options σ} (within : strict.Within lax)
    (standing : Standing) :
    standing.afterRound strict.limits = standing.afterRound lax.limits ∨
      ∃ error, standing.afterRound strict.limits = .error error ∧ error.kind ∈ limitKinds := by
  have iterations := within.iterations
  simp only [afterRound, Render.Options.limits]
  cases limited : strict.maxIterations with
  | none =>
    cases unlimited : lax.maxIterations with
    | none => exact .inl rfl
    | some limit => simp [limited, unlimited] at iterations
  | some less =>
    by_cases exceeded : less < standing.iterations + 1
    · exact .inr ⟨.tooManyIterations less, by simp only [exceeded, if_true],
        List.mem_cons_self ..⟩
    -- A round that the stricter limit allows is allowed by the laxer one.
    · refine .inl ?_
      simp only [exceeded, if_false]
      cases unlimited : lax.maxIterations with
      | none => rfl
      | some limit =>
        have ordered : less ≤ limit := by simpa [limited, unlimited] using iterations
        have allowed : ¬limit < standing.iterations + 1 := by omega
        simp only [allowed, if_false]

theorem surroundings_within {strict lax : Render.Options σ} (within : strict.Within lax)
    (meanwhile : Nat → σ → σ) (deep : Prop) :
    Surroundings.Alike (.same (Ending.FailedBy limitKinds) deep) { strict.limits with meanwhile }
      { lax.limits with meanwhile } where
  polls host := .inl (by
    simp only [Render.Options.limits, Render.Options.isCancelledAt, within.isCancelled])
  rounds := Standing.afterRound_within within
  meanwhile _ _ := .inl rfl

/-- Where the stricter limit lets no document be entered any more, the laxer one may. -/
theorem flow_within (program : Program σ) {strict lax : Render.Options σ}
    (within : strict.Within lax) (document : DocId) :
    Flow.Alike (.same (Ending.FailedBy limitKinds) False)
      (Progress.Alike (.same (σ := σ) (Ending.FailedBy limitKinds) False))
      (program.flow strict document) (program.flow lax document) := by
  obtain ⟨less, limited, limit, unlimited, ordered⟩ := within.depth
  rw [Option.mem_def] at limited unlimited
  have suits : Program.Suits (.same (Ending.FailedBy limitKinds) False) strict.escape lax.escape
      program.parts := by
    rw [within.escape]
    exact .of_exact (Likeness.same_exact _ _) _ _
  refine Program.flow_alike suits (limit - less) (fun target => ?_) ?_ document
  · simp only [Program.entrance, limited]
    exact .failing (List.mem_cons_of_mem _ (List.mem_cons_self ..))
  · simp only [limited, unlimited, Option.getD_some]
    omega

/-! ## Cancellation -/

/-- Others do nothing to the host, or they see to it that a rendering is cancelled. -/
def CancelsOnly (isCancelled : σ → Bool) (meanwhile : Nat → σ → σ) : Prop :=
  ∀ answered host, meanwhile answered host = host ∨ isCancelled (meanwhile answered host)

theorem surroundings_cancelled (options : Render.Options σ) {isCancelled : σ → Bool}
    {meanwhile : Nat → σ → σ} (cancels : CancelsOnly isCancelled meanwhile) (deep : Prop) :
    Surroundings.Alike (.same (Ending.FailedBy [.cancelled]) deep)
      { Render.Options.limits { options with isCancelled := some isCancelled } with meanwhile }
      { Render.Options.limits { options with isCancelled := none } with
        meanwhile := fun _ host => host } where
  polls host := by
    simp only [Render.Options.limits, Render.Options.isCancelledAt]
    cases isCancelled host with
    | false => exact .inl rfl
    | true => exact .inr ⟨rfl, List.mem_cons_self ..⟩
  rounds _ := .inl rfl
  meanwhile answered host := by
    obtain same | cancelled := cancels answered host
    · exact .inl same
    · exact .inr ⟨cancelled, List.mem_cons_self ..⟩

/-! ## Accounts -/

/-- Under two limits on the same occasion, the account under the stricter limit is that under the
laxer one or is cut short by an error of the limit.  Under a cancellation, by others before the
first chunk or behind any chunk, or by the host's own callables, the account is that of the
rendering that cannot be cancelled or is cut short by the cancellation.  And a rendering that
finds itself cancelled when it is asked does nothing else than answer so. -/
theorem limits_only_truncate (program : Program σ) (document : DocId) (host : σ) :
    (∀ strict lax : Render.Options σ, strict.Within lax → ∀ meanwhile,
      let short := (Occasion.mk program strict meanwhile).account document host
      let full := (Occasion.mk program lax meanwhile).account document host
      short.CutShort limitKinds full ∧ short.ending ≠ .bottomless ∧ full.ending ≠ .bottomless) ∧
    (∀ (options : Render.Options σ) isCancelled meanwhile, CancelsOnly isCancelled meanwhile →
      ∀ first, first = host ∨ isCancelled first →
      ((Occasion.mk program { options with isCancelled := some isCancelled } meanwhile).account
        document first).CutShort [.cancelled]
      ((Occasion.mk program { options with isCancelled := none } fun _ host => host).account
        document host)) ∧
    (∀ limits standing rest, limits.isCancelled host →
      (Render.suspended limits standing rest).next host = .last (.error .cancelled) host) ∧
    ∀ options meanwhile, (Occasion.mk program options meanwhile).Tells document host
      ((Occasion.mk program options meanwhile).account document host) := by
  refine ⟨fun strict lax within meanwhile => ?_, fun options isCancelled meanwhile cancels => ?_,
    fun limits standing rest cancelled => ?_, fun options meanwhile => ?_⟩
  · have alike (one : Render.Options σ) (within : one.Within lax) :=
      (Flow.Alike.poll fun _ => flow_within program within document).account
        (surroundings_within within meanwhile False) 0 .start host fun _ _ _ _ => True.intro
    -- Compared with itself, the laxer rendering is seen not to be nested too deeply either.
    have reflexive : lax.Within lax := by
      obtain ⟨-, -, limit, unlimited, -⟩ := within.depth
      exact ⟨rfl, rfl, fun limit given => ⟨limit, given, Nat.le_refl _⟩,
        ⟨limit, unlimited, limit, unlimited, Nat.le_refl _⟩⟩
    exact ⟨(alike strict within).cutShort, (alike strict within).followed,
      (alike lax reflexive).followed⟩
  · have alike : Flow.Alike (.same (Ending.FailedBy [.cancelled]) True)
        (Progress.Alike (.same (σ := σ) (Ending.FailedBy [.cancelled]) True))
        (program.flow { options with isCancelled := some isCancelled } document)
        (program.flow { options with isCancelled := none } document) := by
      refine Program.flow_alike_of_depth ?_ True.intro ?_ document
      · exact .of_exact (Likeness.same_exact _ _) options.escape program.parts
      · rfl
    rintro first (rfl | cancelled)
    · exact ((Flow.Alike.poll fun _ => alike).account (surroundings_cancelled options cancels True)
        0 .start first fun _ _ _ _ => True.intro).cutShort
    · refine .inr ⟨.cancelled, List.mem_cons_self .., ?_⟩
      have polled : Render.Options.isCancelledAt { options with isCancelled := some isCancelled }
          first = true := cancelled
      simp only [Occasion.account, Flow.account, Occasion.around, Render.Options.limits, polled,
        if_true]
      exact ⟨rfl, List.nil_prefix⟩
  · simp only [Render.next, cancelled, if_true]
  · exact Occasion.account_tells _ document host

/-- Two names, and then the same document once more, for ever. -/
def endlessExample : Program Bool where
  documents := [[
    ⟨[.loop "name" none
        ⟨"names", [], [], .untyped "names" fun _ => pure (.list [.text "a", .text "b"])⟩
        (some ",") [⟨[.output (.read "name" ⟨0, 0⟩) false], none, none⟩] []],
      none, none⟩,
    ⟨[.inclusion ⟨0⟩ [] []], some "\n", none⟩]]

/-- Others cancel behind the third chunk. -/
def cancelsThird (answered : Nat) (host : Bool) : Bool :=
  host || answered == 2

theorem endless_only_truncates :
    let strict : Render.Options Bool := { maxIterations := some 3, maxIncludeDepth := some 1 }
    let lax : Render.Options Bool := { maxIncludeDepth := some 2 }
    let account (options : Render.Options Bool) meanwhile :=
      (Occasion.mk endlessExample options meanwhile).account ⟨0⟩ false
    let cancelled := account { strict with isCancelled := some id } cancelsThird
    strict.Within lax ∧ CancelsOnly id cancelsThird ∧
      (account strict fun _ host => host).CutShort limitKinds (account lax fun _ host => host) ∧
      (account strict fun _ host => host).ending = .failed (.tooManyIterations 3) ∧
      (account strict fun _ host => host).drained.chunks = ["a", ",", "b", "\n", "a"] ∧
      cancelled.CutShort [.cancelled] (account strict fun _ host => host) ∧
      cancelled.ending = .failed .cancelled ∧ cancelled.drained.chunks = ["a", ",", "b"] := by
  have within : @Render.Options.Within Bool
      { maxIterations := some 3, maxIncludeDepth := some 1 } { maxIncludeDepth := some 2 } :=
    ⟨rfl, rfl, nofun, ⟨1, rfl, 2, rfl, by decide⟩⟩
  have cancels : CancelsOnly id cancelsThird := by
    intro answered host
    cases host with
    | true => exact .inl rfl
    | false =>
      simp only [cancelsThird, Bool.false_or]
      cases answered == 2 with
      | true => exact .inr rfl
      | false => exact .inl rfl
  obtain ⟨limited, cut, -⟩ := limits_only_truncate endlessExample ⟨0⟩ false
  exact ⟨within, cancels, (limited _ _ within _).1, by decide +kernel, by decide +kernel,
    cut { maxIterations := some 3, maxIncludeDepth := some 1 } id cancelsThird cancels false
      (.inl rfl), by decide +kernel, by decide +kernel⟩

end Stencil
