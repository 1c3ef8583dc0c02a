import Stencil.Proofs.Lexical.Meaning
import Stencil.Proofs.Occurrences

/-! # Addresses

An address is computed from the names of the frames and used on the frames.  As long as the
names are the same it leads to the value that the innermost frame with the name has, whatever
frames there are further out.  Likewise a parameter is placed among the names that a fragment
declares, and checked among their values.
-/

namespace Stencil

open Host (Bindings Interpretation Parameter)
open Template (Fragment)
open Program (Names Address Expression)

variable {σ β : Type}

theorem Frame.lookup_of_idxOf? {frame : Frame} {name : String} {slot : Nat}
    (found : (frame.map (·.1)).idxOf? name = some slot) :
    ∃ value, frame[slot]?.map (·.2) = some value ∧ frame.lookup name = some value := by
  induction frame generalizing slot with
  | nil => cases found
  | cons entry frame ih =>
    obtain ⟨first, value⟩ := entry
    rw [List.map_cons, List.idxOf?_cons] at found
    by_cases same : first = name
    · subst same
      rw [if_pos (BEq.rfl)] at found
      cases found
      exact ⟨value, rfl, List.lookup_cons_self⟩
    · rw [if_neg (by simpa using same)] at found
      obtain ⟨before, earlier, rfl⟩ := Option.map_eq_some_iff.1 found
      obtain ⟨other, place, lookup⟩ := ih earlier
      have different : (name == first) = false := by simpa using Ne.symm same
      refine ⟨other, place, ?_⟩
      rw [List.lookup_cons, different]
      exact lookup

theorem Frame.lookup_of_idxOf?_none {frame : Frame} {name : String}
    (missing : (frame.map (·.1)).idxOf? name = none) : frame.lookup name = none := by
  rw [List.lookup_eq_none_iff]
  intro entry member
  rw [List.idxOf?_eq_none_iff] at missing
  have different : name ≠ entry.1 := by
    rintro rfl
    exact missing (List.mem_map_of_mem member)
  simpa using different

/-- An address leads to the value that counts. -/
theorem resolve_found {inner : List Frame} {name : String} {address : Address}
    (found : (namesOf inner).resolve? name = some address) (extra : List Frame)
    (context : Context β) :
    ∃ value, (Scope.mk (inner ++ extra) context).resolve? address = some value ∧
      inner.findSome? (·.lookup name) = some value ∧
      inner.flatten.lookup name = some value := by
  induction inner generalizing address with
  | nil => cases found
  | cons frame inner ih =>
    simp only [namesOf, List.map_cons, Names.resolve?] at found
    -- Names are looked up frame by frame: the first frame that has the name ends the search.
    cases place : (frame.map (·.1)).idxOf? name with
    | some slot =>
      rw [place] at found
      cases found
      obtain ⟨value, there, lookup⟩ := Frame.lookup_of_idxOf? place
      refine ⟨value, ?_, ?_, ?_⟩
      · obtain ⟨entry, present, rfl⟩ := Option.map_eq_some_iff.1 there
        simp only [Scope.resolve?, List.cons_append, List.getElem?_cons_zero, Option.bind_eq_bind,
          Option.bind_some, present]
        rfl
      · rw [List.findSome?_cons, lookup]
      · rw [List.flatten_cons, List.lookup_append, lookup]
        rfl
    | none =>
      rw [place] at found
      -- The name is none of this frame, so its address is one frame further out.
      obtain ⟨outer, further, rfl⟩ := Option.map_eq_some_iff.1 found
      obtain ⟨value, there, first, lookup⟩ := ih further
      have missing := Frame.lookup_of_idxOf?_none place
      refine ⟨value, there, ?_, ?_⟩
      · rw [List.findSome?_cons, missing]
        exact first
      · rw [List.flatten_cons, List.lookup_append, missing]
        exact lookup

/-! ## Fragments -/

/-- What it takes for one part of a check to be followed by another. -/
theorem except_bind_eq_ok {ε α γ : Type} {first : Except ε α} {next : α → Except ε γ}
    {result : γ} :
    (first >>= next) = .ok result ↔ ∃ value, first = .ok value ∧ next value = .ok result := by
  cases first with
  | error error => exact ⟨nofun, fun ⟨_, same, _⟩ => nomatch same⟩
  | ok value =>
    constructor
    · exact fun done => ⟨value, rfl, done⟩
    · rintro ⟨_, same, done⟩
      cases same
      exact done

theorem except_map_eq_ok {ε α γ : Type} {give : α → γ} {first : Except ε α} {result : γ} :
    give <$> first = .ok result ↔ ∃ value, first = .ok value ∧ give value = result := by
  cases first with
  | error error => exact ⟨nofun, fun ⟨_, same, _⟩ => nomatch same⟩
  | ok value =>
    constructor
    · exact fun done => ⟨value, rfl, Except.ok.inj done⟩
    · rintro ⟨_, same, rfl⟩
      cases same
      rfl

/-- The parameters of an expression are those of its callable, each at the first place of its
name. -/
structure Program.Expression.Placed (expression : Expression σ) : Prop where
  parameters : expression.parameters.map (·.2) = expression.callable.signature.parameters
  places : ∀ placed ∈ expression.parameters,
    (expression.reads.map (·.1)).idxOf? placed.2.name = some placed.1

/-- An expression reads every name where it is bound, and every parameter where it is read. -/
structure Program.Expression.Resolved (names : Names) (expression : Expression σ) : Prop where
  addresses : ∀ read ∈ expression.reads, names.resolve? read.1 = some read.2
  placed : expression.Placed

/-- The expression of a fragment has the names of the fragment, each with its address. -/
structure Program.Expression.Represents (interpretation : Interpretation σ) (names : Names)
    (fragment : Fragment) (expression : Expression σ) : Prop where
  taken : interpretation fragment = .ok expression.callable
  source : expression.source = fragment.source
  declared : expression.reads.map (·.1) = fragment.names
  resolved : expression.Resolved names

variable {interpretation : Interpretation σ} {names : Names} {fragment : Fragment}
  {expression : Expression σ}

theorem reads_of_mapM {source : String} {free : List String} {reads : List (String × Address)}
    (resolved : free.mapM (Program.resolveName names source) = .ok reads) :
    reads.map (·.1) = free ∧ ∀ read ∈ reads, names.resolve? read.1 = some read.2 := by
  induction free generalizing reads with
  | nil =>
    cases resolved
    exact ⟨rfl, nofun⟩
  | cons name free ih =>
    simp only [List.mapM_cons, except_bind_eq_ok] at resolved
    obtain ⟨read, here, rest, later, same⟩ := resolved
    cases same
    obtain ⟨declared, others⟩ := ih later
    rw [Program.resolveName] at here
    cases found : names.resolve? name with
    | none => rw [found] at here; cases here
    | some address =>
      rw [found] at here
      cases here
      refine ⟨congrArg (name :: ·) declared, fun read member => ?_⟩
      obtain rfl | later := List.mem_cons.1 member
      · exact found
      · exact others read later

theorem placed_of_mapM {parameters : List Parameter} {places : List (Nat × Parameter)}
    (placed : parameters.mapM (Program.placeParameter fragment) = .ok places) :
    places.map (·.2) = parameters ∧
      ∀ placed ∈ places, fragment.names.idxOf? placed.2.name = some placed.1 := by
  induction parameters generalizing places with
  | nil =>
    cases placed
    exact ⟨rfl, nofun⟩
  | cons parameter parameters ih =>
    simp only [List.mapM_cons, except_bind_eq_ok] at placed
    obtain ⟨first, here, rest, later, same⟩ := placed
    cases same
    obtain ⟨same, others⟩ := ih later
    rw [Program.placeParameter] at here
    cases found : fragment.names.idxOf? parameter.name with
    | none => rw [found] at here; cases here
    | some place =>
      rw [found] at here
      cases here
      exact ⟨congrArg (parameter :: ·) same, List.forall_mem_cons.2 ⟨found, others⟩⟩

/-- What a fragment is compiled to represents the fragment. -/
theorem represents_of_compile
    (compiled : Program.compileFragment interpretation names fragment = .ok expression) :
    expression.Represents interpretation names fragment := by
  simp only [Program.compileFragment, except_bind_eq_ok] at compiled
  obtain ⟨callable, taken, parameters, placed, reads, resolved, same⟩ := compiled
  cases same
  obtain ⟨declared, addresses⟩ := reads_of_mapM resolved
  obtain ⟨own, places⟩ := placed_of_mapM placed
  rw [← declared] at places
  cases interpreted : interpretation fragment with
  | error error => rw [interpreted] at taken; cases taken
  | ok other =>
    rw [interpreted] at taken
    cases taken
    exact ⟨interpreted, rfl, declared, addresses, own, places⟩

/-! ## Parameters -/

theorem except_forM_cons {ε γ : Type} (check : γ → Except ε Unit) (entry : γ)
    (entries : List γ) :
    (entry :: entries).forM check = check entry >>= fun _ => entries.forM check :=
  rfl

/-- Parameters are placed where their names lead. -/
structure Host.Bindings.Placed (bindings : Bindings) (parameters : List (Nat × Parameter)) :
    Prop where
  found : ∀ placed ∈ parameters, ∃ value,
    (bindings.entries.map (·.2))[placed.1]? = some value ∧
      bindings.find? placed.2.name = some value
  /-- It comes to the same whether the values are checked by place or by name. -/
  checked : parameters.forM (Expression.checkParameter (bindings.entries.map (·.2))) =
    (parameters.map (·.2)).forM (Lexical.checkNamed bindings)

theorem Host.Bindings.placed {bindings : Bindings} {parameters : List (Nat × Parameter)}
    (places : ∀ placed ∈ parameters,
      (bindings.entries.map (·.1)).idxOf? placed.2.name = some placed.1) :
    bindings.Placed parameters := by
  induction parameters with
  | nil => exact ⟨nofun, rfl⟩
  | cons first parameters ih =>
    obtain ⟨here, later⟩ := List.forall_mem_cons.1 places
    obtain ⟨found, checked⟩ := ih later
    -- Of several entries with the name both ways lead to the first.
    obtain ⟨value, there, lookup⟩ := Frame.lookup_of_idxOf? here
    have reached : (bindings.entries.map (·.2))[first.1]? = some value := by
      rw [List.getElem?_map]
      exact there
    refine ⟨List.forall_mem_cons.2 ⟨⟨value, reached, lookup⟩, found⟩, ?_⟩
    have both : Expression.checkParameter (bindings.entries.map (·.2)) first =
        Lexical.checkNamed bindings first.2 := by
      rw [Expression.checkParameter, reached, Lexical.checkNamed, find?, lookup]
    rw [List.map_cons, except_forM_cons, except_forM_cons, both, checked]

/-- At their addresses the names of an expression have the values that they have by name. -/
theorem readNames {inner : List Frame} {reads : List (String × Address)}
    (resolved : ∀ read ∈ reads, (namesOf inner).resolve? read.1 = some read.2)
    (extra : List Frame) (context : Context β) :
    ∃ entries, reads.mapM (Expression.readName ⟨inner ++ extra, context⟩) = .ok entries ∧
      ((reads.map (·.1)).mapM fun name => (inner.flatten.lookup name).map (name, ·)) =
        some entries ∧
      entries.map (·.1) = reads.map (·.1) ∧
      ∀ entry ∈ entries, inner.findSome? (·.lookup entry.1) = some entry.2 := by
  induction reads with
  | nil => exact ⟨[], rfl, rfl, rfl, nofun⟩
  | cons read reads ih =>
    obtain ⟨name, address⟩ := read
    obtain ⟨value, there, first, lookup⟩ :=
      resolve_found (resolved _ (List.mem_cons_self ..)) extra context
    obtain ⟨entries, byAddress, byName, same, values⟩ :=
      ih fun read member => resolved read (List.mem_cons_of_mem _ member)
    refine ⟨(name, value) :: entries, ?_, ?_, congrArg (name :: ·) same, ?_⟩
    · simp only [List.mapM_cons, Expression.readName, there, byAddress]
      rfl
    · simp only [List.map_cons, List.mapM_cons, lookup, Option.map_some, byName]
      rfl
    · intro entry member
      obtain rfl | later := List.mem_cons.1 member
      · exact first
      · exact values entry later

/-- An expression is evaluated at its addresses as its fragment is by name. -/
theorem evaluate_eq (absent : RenderError) {inner : List Frame}
    (represents : expression.Represents interpretation (namesOf inner) fragment)
    (extra : List Frame) (context : Context β) :
    expression.evaluate (Scope.mk (inner ++ extra) context) =
      Lexical.evaluate interpretation absent inner.flatten fragment := by
  obtain ⟨addresses, own, places⟩ := represents.resolved
  obtain ⟨entries, byAddress, byName, same, -⟩ := readNames addresses extra context
  rw [represents.declared] at byName
  rw [← same] at places
  have checked := (@Host.Bindings.placed ⟨entries⟩ _ places).checked
  rw [own] at checked
  have bound : expression.bindings (Scope.mk (inner ++ extra) context) =
      (expression.callable.signature.parameters.forM (Lexical.checkNamed ⟨entries⟩) >>=
        fun _ => pure ⟨entries⟩) := by
    rw [Expression.bindings, byAddress, ← checked]
    rfl
  rw [Expression.evaluate, bound, Lexical.evaluate, represents.taken, represents.source]
  simp only [byName]
  cases expression.callable.signature.parameters.forM (Lexical.checkNamed ⟨entries⟩) with
  | ok _ => rfl
  | error error => rfl

end Stencil
