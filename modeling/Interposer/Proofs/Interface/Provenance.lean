import Interposer.Generator
import Interposer.Proofs.Interface.Introspection

/-! Where the names of a wrapper's variables come from. A name is the declared one, or made up for a
blank one, and in both cases it may have been lengthened because a file has it as an alias. -/

namespace Interposer

/-- The names that blank parameters and results are given. -/
inductive IsMadeUp : String → Prop
  | param (i : Nat) : IsMadeUp ("p" ++ toString i)
  | result (i : Nat) : IsMadeUp ("r" ++ toString i)
  | err : IsMadeUp "err"

/-- What can become of a declared name next to some aliases. -/
inductive NameOrigin (aliases : List String) (declared : String) : String → Prop
  | kept : isBlankName declared = false → NameOrigin aliases declared declared
  | madeUp {name : String} (n : Nat) : isBlankName declared = true → IsMadeUp name →
      NameOrigin aliases declared (name ++ underscores n)
  | lengthened {name : String} (n : Nat) : NameOrigin aliases declared name → name ∈ aliases →
      NameOrigin aliases declared (name ++ underscores (n + 1))

variable {aliases taken : List String}

theorem isMadeUp_syntheticParam (i : Nat) (isLast : Bool) (type : SignatureType) :
    IsMadeUp (syntheticParam i isLast type) := .param i

theorem isMadeUp_syntheticResult (i : Nat) (isLast : Bool) (type : SignatureType) :
    IsMadeUp (syntheticResult i isLast type) := by
  unfold syntheticResult
  split
  · exact .err
  · exact .result i

theorem nameOrigin_nameOr {synthetic : String} (hsynthetic : IsMadeUp synthetic)
    (declared : String) : NameOrigin aliases declared (nameOr synthetic declared taken).1 := by
  unfold nameOr
  split
  · next hblank =>
    obtain ⟨n, hn⟩ := freshAfter_eq_append taken synthetic
    rw [hn]
    exact .madeUp n hblank hsynthetic
  · next hblank => exact .kept (Bool.eq_false_iff.mpr hblank)

/-- The variables have their names from the declared ones, each from the one in its place. -/
abbrev Sourced (aliases : List String) : List Variable → List Parameter → Prop :=
  List.Forall₂ fun declared v => NameOrigin aliases declared.name v.name

theorem sourced_nameVars {synthetic : Nat → Bool → SignatureType → String}
    (hsynthetic : ∀ i isLast type, IsMadeUp (synthetic i isLast type)) {i : Nat}
    {taken' : List String} {vars : List Variable} {named : List Parameter}
    {table table' : ImportTable}
    (h : nameVars synthetic i taken vars table = .ok (named, taken') table') :
    Sourced aliases vars named := by
  induction vars generalizing i taken table named with
  | nil =>
    obtain ⟨heq, -⟩ := Importing.pure_eq_ok.mp h
    cases heq
    exact .nil
  | cons v rest ih =>
    obtain ⟨declared, type⟩ := v
    obtain ⟨converted, table₁, -, h⟩ := Importing.bind_eq_ok.mp h
    obtain ⟨⟨named', _⟩, table₂, hrest, h⟩ := Importing.bind_eq_ok.mp h
    obtain ⟨heq, rfl⟩ := Importing.pure_eq_ok.mp h
    cases heq
    exact .cons (nameOrigin_nameOr (hsynthetic ..) declared) (ih hrest)

/-- A name that has to give way to aliases gets at least one underscore. -/
theorem Sourced.avoidAliases {vars : List Variable} {named : List Parameter}
    (h : Sourced aliases vars named) (taken : List String) :
    Sourced aliases vars (avoidAliases aliases taken named).1 := by
  induction h generalizing taken with
  | nil => exact .nil
  | @cons declared v vars named horigin _ ih =>
    rw [Interposer.avoidAliases]
    split
    · next halias =>
      have hmem : v.name ∈ aliases := by simpa using halias
      refine .cons ?_ (ih _)
      have hnew := freshAfter_not_mem (aliases ++ taken) v.name
      obtain ⟨n, hn⟩ := freshAfter_eq_append (aliases ++ taken) v.name
      cases n with
      | zero =>
        have hsame : freshAfter (aliases ++ taken) v.name = v.name := by
          rw [hn]
          exact String.append_empty
        rw [hsame] at hnew
        exact (hnew (List.mem_append_left _ hmem)).elim
      | succ n =>
        simp only [hn]
        exact .lengthened n horigin hmem
    · exact .cons horigin (ih _)

/-- The names of a method, as those of its declaration and of the imports of a file. -/
structure Method.Named (table : ImportTable) (spec : MethodSpec) (m : Method) : Prop where
  wellNamed : WellNamed table spec m
  params : Sourced table.aliases spec.params m.params
  results : Sourced table.aliases spec.results m.results

theorem Method.ofSpec_named {spec : MethodSpec} {m : Method} {table₁ table₂ : ImportTable}
    (h : Method.ofSpec spec table₁ = .ok m table₂) (table : ImportTable) :
    Method.Named table spec (m.avoidAliases table) := by
  have hwellNamed := Method.ofSpec_wellNamed h table
  obtain ⟨⟨params, _⟩, _, hparams, h⟩ := Importing.bind_eq_ok.mp h
  obtain ⟨⟨results, _⟩, _, hresults, h⟩ := Importing.bind_eq_ok.mp h
  obtain ⟨rfl, -⟩ := Importing.pure_eq_ok.mp h
  exact ⟨hwellNamed, (sourced_nameVars isMadeUp_syntheticParam hparams).avoidAliases _,
    (sourced_nameVars isMadeUp_syntheticResult hresults).avoidAliases _⟩

namespace Generator

variable {p : Package} {name : String} {hooks : List Hook} {g : Generator}

/-- The methods of a generator have names next to all its imports. -/
theorem named_of_new (h : Generator.new p name hooks = .ok g) :
    ∃ members specs, p.resolve name = .ok members ∧ p.methodSet members = .ok specs ∧
      List.Forall₂ (Method.Named g.imports) specs g.interface.methods := by
  rw [Generator.new] at h
  split at h
  · next interface table hintrospect =>
    cases h
    obtain ⟨members, specs, methods, hresolve, hset, hmethods, -, heq⟩ :=
      p.introspect_eq_ok hintrospect
    refine ⟨members, specs, hresolve, hset, ?_⟩
    rw [heq, List.forall₂_map_right_iff]
    refine (methodsOfSpecs_eq_ok hmethods).imp fun spec m ⟨_, _, hspec⟩ => ?_
    exact Method.ofSpec_named hspec table
  · cases h

theorem exists_named_of_mem (h : Generator.new p name hooks = .ok g) {m : Method}
    (hm : m ∈ g.interface.methods) : ∃ spec, Method.Named g.imports spec m := by
  obtain ⟨-, specs, -, -, hnamed⟩ := named_of_new h
  obtain ⟨i, rfl⟩ := List.mem_iff_get.mp hm
  obtain ⟨hlength, hget⟩ := List.forall₂_iff_get.mp hnamed
  exact ⟨_, hget i (hlength.symm ▸ i.isLt) i.isLt⟩

end Generator

end Interposer
