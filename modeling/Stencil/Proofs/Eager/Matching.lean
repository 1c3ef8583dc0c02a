import Stencil.Proofs.Eager.Leads

/-! # Walks that match acts

A part of a walk matches an act on the output if both do the same to the output, from one
ledger on.  The rules below show this for one part after another: a walk may note and keep
whatever it likes in between, and the description of the ledger in the end says how its result
is related to that of the act.

Neither is ever exhausted where the depth of includes is limited.
-/

namespace Stencil

namespace Eager

variable {σ α β γ δ S : Type}

/-! ## Acts that are never exhausted -/

/-- Whatever an act meets, it is not nested too deeply to be followed. -/
def Act.Followed (act : Act S α) : Prop :=
  ∀ state, (act state).1 ≠ .error .exhausted

theorem Act.Quiet.followed {act : Act (Output σ) α} (quiet : act.Quiet) : act.Followed :=
  fun output => (quiet output).2

theorem Act.Followed.countRound (around : Surroundings σ) :
    Followed (Eager.countRound around) := by
  intro output
  rw [Eager.countRound]
  split
  · exact ok_ne_exhausted _
  · exact failed_ne_exhausted _

theorem Act.Followed.callHost (callable : Host.Callable σ) (invocation : Invocation) :
    Followed (Eager.callHost callable invocation) := by
  intro output
  rw [Eager.callHost]
  split
  · exact ok_ne_exhausted _
  · exact failed_ne_exhausted _

/-! ## Matching -/

/-- From a ledger on, a part of a walk does to the output what an act does, and then results
and ledger are as described.  It is exhausted only if includes may be nested ever deeper. -/
def Walk.Matches (deep : Prop) (ledger : Ledger σ) (walk : Walk σ α) (act : Act (Output σ) β)
    (done : Ledger σ → α → β → Prop) : Prop :=
  ∀ output, match walk ⟨output, ledger⟩, act output with
    | (.ok result, world), (.ok other, after) =>
      world.output = after ∧ done world.ledger result other
    | (.error stop, world), (.error reason, after) =>
      world.output = after ∧ stop = reason ∧ (stop = .exhausted → deep)
    | _, _ => False

namespace Walk.Matches

variable {deep : Prop} {ledger : Ledger σ} {walk : Walk σ α} {act : Act (Output σ) β}
  {done done' : Ledger σ → α → β → Prop}

theorem mono (matched : Matches deep ledger walk act done)
    (ends : ∀ after result other, done after result other → done' after result other) :
    Matches deep ledger walk act done' := by
  intro output
  have one := matched output
  revert one
  rcases walk ⟨output, ledger⟩ with ⟨outcome, world⟩
  rcases act output with ⟨reason, after⟩
  cases outcome <;> cases reason
  · exact id
  · exact id
  · exact id
  · exact fun holds => ⟨holds.1, ends _ _ _ holds.2⟩

theorem bind {next : α → Walk σ γ} {follow : β → Act (Output σ) δ}
    {last : Ledger σ → γ → δ → Prop} (first : Matches deep ledger walk act done)
    (second : ∀ after result other, done after result other →
      Matches deep after (next result) (follow other) last) :
    Matches deep ledger (walk >>= next) (act >>= follow) last := by
  intro output
  have one := first output
  revert one
  rw [Act.bind_apply, Act.bind_apply]
  rcases walk ⟨output, ledger⟩ with ⟨outcome, world⟩
  rcases act output with ⟨reason, after⟩
  cases outcome <;> cases reason
  · exact id
  · exact False.elim
  · exact False.elim
  -- Both go on from the same output, the walk with the ledger that it has come to.
  · rintro ⟨rfl, holds⟩
    exact second world.ledger _ _ holds world.output

theorem pure {result : α} {other : β} (holds : done ledger result other) :
    Matches deep ledger (Pure.pure result) (Pure.pure other) done :=
  fun _ => ⟨rfl, holds⟩

theorem fail (error : RenderError) :
    Matches deep ledger (throw (.failed error) : Walk σ α)
      (throw (.failed error) : Act (Output σ) β) done :=
  fun _ => ⟨rfl, rfl, nofun⟩

theorem exhaust (unlimited : deep) :
    Matches deep ledger (throw .exhausted : Walk σ α) (throw .exhausted : Act (Output σ) β)
      done :=
  fun _ => ⟨rfl, rfl, fun _ => unlimited⟩

/-- What is done to the output alone matches itself. -/
theorem outputs (followed : act.Followed) {done : Ledger σ → β → β → Prop}
    (holds : ∀ result, done ledger result result) :
    Matches deep ledger (Walk.outputs act) act done := by
  intro output
  have one := followed output
  revert one
  simp only [Walk.outputs]
  rcases act output with ⟨reason, after⟩
  cases reason with
  | ok result => exact fun _ => ⟨rfl, holds result⟩
  | error stop =>
    intro other
    exact ⟨rfl, rfl, fun same => absurd (congrArg Except.error same) other⟩

section Stepwise

variable {last : Ledger σ → γ → β → Prop}

theorem keeps_bind {change : Ledger σ → Ledger σ} {next : Unit → Walk σ γ}
    (matched : Matches deep (change ledger) (next ()) act last) :
    Matches deep ledger (Walk.keeps change >>= next) act last :=
  matched

theorem note_bind {deed : Deed σ} {next : Unit → Walk σ γ}
    (matched : Matches deep (ledger.noted deed) (next ()) act last) :
    Matches deep ledger (Walk.note deed >>= next) act last :=
  matched

theorem known_bind {number : Nat} {name : String} {next : Option Memo → Walk σ γ}
    (matched : Matches deep ledger (next (ledger.memo number name)) act last) :
    Matches deep ledger (Walk.known number name >>= next) act last :=
  matched

theorem enter_bind {next : Nat → Walk σ γ}
    (matched : Matches deep ledger.entered (next ledger.next) act last) :
    Matches deep ledger (Walk.enter >>= next) act last :=
  matched

/-- What is noted at the end. -/
theorem note {deed : Deed σ} {done : Ledger σ → Unit → β → Prop} {other : β}
    (holds : done (ledger.noted deed) () other) :
    Matches deep ledger (Walk.note deed) (Pure.pure other) done :=
  fun _ => ⟨rfl, holds⟩

end Stepwise

/-- The result of an act can be given another form. -/
theorem map {give : β → γ} {last : Ledger σ → α → γ → Prop}
    (matched : Matches deep ledger walk act fun after result other =>
      last after result (give other)) : Matches deep ledger walk (give <$> act) last := by
  intro output
  have one := matched output
  revert one
  rw [map_apply]
  rcases walk ⟨output, ledger⟩ with ⟨outcome, world⟩
  rcases act output with ⟨reason, after⟩
  cases outcome <;> cases reason <;> exact id

theorem enclosed (matched : Matches deep ledger walk act done) :
    Matches deep ledger (Walk.enclosed walk) (enclosedFrom [] act)
      fun after result other => result.2 = other.2 ∧ done after result.1 other.1 := by
  intro output
  have one := matched (output.enter [])
  revert one
  simp only [Walk.enclosed, enclosedFrom]
  rcases walk ⟨output.enter [], ledger⟩ with ⟨outcome, world⟩
  rcases act (output.enter []) with ⟨reason, after⟩
  cases outcome <;> cases reason
  · rintro ⟨rfl, same⟩
    exact ⟨rfl, same⟩
  · exact False.elim
  · exact False.elim
  · rintro ⟨rfl, holds⟩
    exact ⟨rfl, rfl, holds⟩

theorem gathered (matched : Matches deep ledger walk act done) :
    Matches deep ledger (Walk.gathered walk) (gatheredFrom "" true act)
      fun after result other => result.2 = other.2 ∧ done after result.1 other.1 := by
  intro output
  have one := matched (output.gathering "" true)
  revert one
  simp only [Walk.gathered, gatheredFrom]
  rcases walk ⟨output.gathering "" true, ledger⟩ with ⟨outcome, world⟩
  rcases act (output.gathering "" true) with ⟨reason, after⟩
  cases outcome <;> cases reason
  · rintro ⟨rfl, same⟩
    exact ⟨rfl, same⟩
  · exact False.elim
  · exact False.elim
  · rintro ⟨rfl, holds⟩
    exact ⟨rfl, rfl, holds⟩

/-- What is known of all ledgers that a walk leads to is known of those where it matches. -/
theorem leads {known : α → Ledger σ → Prop} {stopped : Ledger σ → Prop}
    (matched : Matches deep ledger walk act done)
    (leads : ∀ output, Walk.Leads ⟨output, ledger⟩ walk
      (fun result after => known result after.ledger) fun after => stopped after.ledger) :
    Matches deep ledger walk act fun after result other =>
      known result after ∧ done after result other := by
  intro output
  have one := matched output
  have two := leads output
  revert one two
  simp only [Walk.Leads]
  rcases walk ⟨output, ledger⟩ with ⟨outcome, world⟩
  rcases act output with ⟨reason, after⟩
  cases outcome <;> cases reason
  · exact fun holds _ => holds
  · exact False.elim
  · exact False.elim
  · exact fun holds known => ⟨holds.1, known, holds.2⟩

end Walk.Matches

end Eager

end Stencil
