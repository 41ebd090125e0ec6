import Interposer.Proofs.Interface.Flattening
import Interposer.Proofs.Steps

/-! From the name of an interface to its body. A name leads through aliases to a declaration, and from
there through definitions and aliases to an interface; each of the two ways is followed for a
bounded number of steps. What is found is the interface at the end, by whichever name the way was
entered (`resolutionLaws`). -/

namespace Interposer.Package

variable {p : Package} {name : String} {members : List Member}

/-- `d` is an alias of a local type without arguments, and `d'` is what the name of that type stands
for. -/
inductive Redirects (p : Package) : Declaration → Declaration → Prop
  | synonym {declared next : String} {d' : Declaration} : p.lookup? next = some d' →
      Redirects p (.typeAlias declared (.named p.path next [])) d'

/-- The way from a name to the interface with these members: through aliases to a declaration of a
type without parameters, and from what that is defined to be to an interface. -/
def ResolvesTo (p : Package) (name : String) (members : List Member) : Prop :=
  ∃ first declared underlying aliases definitions, p.lookup? name = some first ∧
    Steps p.Redirects aliases first (.type declared [] underlying) ∧ aliases < maxDepth ∧
    Steps p.Declares definitions underlying (.interface members) ∧ definitions < maxDepth

/-- `a` is an alias of the local type `b`, or is defined to be like it. -/
inductive Renames (p : Package) (a b : String) : Prop
  | synonym {declared : String} :
      p.lookup? a = some (.typeAlias declared (.named p.path b [])) → Renames p a b
  | definition {declared : String} :
      p.lookup? a = some (.type declared [] (.named p.path b [])) → Renames p a b

/-- A name that stands for no type: for nothing, for a variable, a constant or a function, or for a
type that needs arguments. -/
inductive Untyped (p : Package) (name : String) : Prop
  | missing : p.lookup? name = none → Untyped p name
  | var {declared : String} : p.lookup? name = some (.var declared) → Untyped p name
  | const {declared : String} : p.lookup? name = some (.const declared) → Untyped p name
  | func {declared : String} : p.lookup? name = some (.func declared) → Untyped p name
  | generic {declared param : String} {params : List String} {underlying : SourceType} :
      p.lookup? name = some (.type declared (param :: params) underlying) → Untyped p name

/-! ## One step -/

theorem localName?_eq_some_iff {t : SourceType} {next : String} :
    p.localName? t = some next ↔ t = .named p.path next [] := by
  constructor
  · intro h
    unfold localName? at h
    split at h
    · split at h
      · next hlocal =>
        cases h
        simp only [Bool.and_eq_true, beq_iff_eq, List.isEmpty_iff] at hlocal
        obtain ⟨rfl, rfl⟩ := hlocal
        rfl
      · cases h
    · cases h
  · rintro rfl
    simp [localName?]

theorem redirects_unique : Relator.RightUnique p.Redirects := by
  intro d d₁ d₂ h₁ h₂
  cases h₁ with
  | synonym hlookup₁ =>
    cases h₂ with
    | synonym hlookup₂ => exact Option.some.inj (hlookup₁.symm.trans hlookup₂)

theorem declares_unique : Relator.RightUnique p.Declares := by
  intro t inner inner' h h'
  exact h.unique h'

theorem not_redirects_type {declared : String} {params : List String} {underlying : SourceType}
    (d : Declaration) : ¬ p.Redirects (.type declared params underlying) d := nofun

theorem not_declares_interface (t : SourceType) : ¬ p.Declares (.interface members) t := nofun

theorem definition?_eq_none_iff : p.definition? name = none ↔ p.Untyped name := by
  unfold definition?
  constructor
  · intro h
    cases hlookup : p.lookup? name with
    | none => exact .missing hlookup
    | some d =>
      rw [hlookup] at h
      cases d with
      | type declared params underlying =>
        cases params with
        | nil => cases h
        | cons param params => exact .generic hlookup
      | typeAlias declared target => cases h
      | var declared => exact .var hlookup
      | const declared => exact .const hlookup
      | func declared => exact .func hlookup
  · intro h
    cases h with
    | missing hlookup | var hlookup | const hlookup | func hlookup | generic hlookup =>
      rw [hlookup]

/-! ## Definitions -/

/-- All that can come of a type. -/
theorem underlyingInterface_cases (p : Package) (name : String) (steps : Nat) (t : SourceType) :
    (∃ members, t = .interface members ∧
      p.underlyingInterface name (steps + 1) t = .ok members) ∨
    (∃ inner, p.Declares t inner ∧
      p.underlyingInterface name (steps + 1) t = p.underlyingInterface name steps inner) ∨
    ((∀ members, t ≠ .interface members) ∧ (∀ inner, ¬ p.Declares t inner) ∧
      p.underlyingInterface name (steps + 1) t = .error (.notInterface name t)) := by
  by_cases hinterface : ∃ members, t = .interface members
  · obtain ⟨members, rfl⟩ := hinterface
    exact .inl ⟨members, rfl, rfl⟩
  have hnone : ∀ members, t = .interface members → False := not_exists.mp hinterface
  rw [underlyingInterface.eq_3 _ _ _ _ hnone]
  cases hnext : (p.localName? t).bind p.definition? with
  | some inner =>
    exact .inr (.inl ⟨inner, declares_iff.mpr (Option.bind_eq_some_iff.mp hnext), rfl⟩)
  | none =>
    refine .inr (.inr ⟨hnone, ?_, rfl⟩)
    intro inner hdeclares
    rw [Option.bind_eq_some_iff.mpr (declares_iff.mp hdeclares)] at hnext
    cases hnext

/-- The way of definitions is followed to an interface that is less than `steps` steps away. -/
theorem underlyingInterface_eq_ok_iff {steps : Nat} {t : SourceType} :
    p.underlyingInterface name steps t = .ok members ↔
      ∃ n < steps, Steps p.Declares n t (.interface members) := by
  induction steps generalizing t with
  | zero =>
    refine iff_of_false nofun ?_
    rintro ⟨n, hn, -⟩
    exact Nat.not_lt_zero n hn
  | succ steps ih =>
    rw [Steps.within_succ_iff]
    rcases p.underlyingInterface_cases name steps t with ⟨members', rfl, heq⟩ |
      ⟨inner, hdeclares, heq⟩ | ⟨hother, hstuck, heq⟩
    · rw [heq]
      constructor
      · intro h
        cases h
        exact .inl rfl
      · rintro (h | ⟨inner, hdeclares, -⟩)
        · cases h
          rfl
        · exact (not_declares_interface inner hdeclares).elim
    · rw [heq, ih]
      constructor
      · intro h
        exact .inr ⟨inner, hdeclares, h⟩
      · rintro (rfl | ⟨inner', hdeclares', h⟩)
        · exact (not_declares_interface inner hdeclares).elim
        · rwa [hdeclares.unique hdeclares']
    · rw [heq]
      refine iff_of_false nofun ?_
      rintro (h | ⟨inner, hdeclares, -⟩)
      · exact hother members h
      · exact hstuck inner hdeclares

/-- Following definitions fails at a type that leads no further or, whatever that is, at the one that
is `steps` steps away. -/
theorem underlyingInterface_eq_error_iff {steps : Nat} {t : SourceType} {failure : Failure} :
    p.underlyingInterface name steps t = .error failure ↔
      ∃ found, failure = .notInterface name found ∧ (Steps p.Declares steps t found ∨
        (∃ n < steps, Steps p.Declares n t found) ∧ (∀ members, found ≠ .interface members) ∧
          ∀ inner, ¬ p.Declares found inner) := by
  induction steps generalizing t with
  | zero =>
    have hzero : p.underlyingInterface name 0 t = .error (.notInterface name t) := by
      cases t <;> rfl
    simp only [hzero, Steps.zero_iff, Except.error.injEq]
    constructor
    · rintro rfl
      exact ⟨t, rfl, .inl rfl⟩
    · rintro ⟨found, rfl, rfl | ⟨⟨n, hn, -⟩, -⟩⟩
      · rfl
      · exact (Nat.not_lt_zero n hn).elim
  | succ steps ih =>
    simp only [Steps.within_succ_iff, Steps.succ_iff]
    rcases p.underlyingInterface_cases name steps t with ⟨members', rfl, heq⟩ |
      ⟨inner, hdeclares, heq⟩ | ⟨hother, hstuck, heq⟩
    · rw [heq]
      refine iff_of_false nofun ?_
      rintro ⟨found, -, ⟨inner, hdeclares, -⟩ | ⟨rfl | ⟨inner, hdeclares, -⟩, hother, -⟩⟩
      · exact not_declares_interface inner hdeclares
      · exact hother members' rfl
      · exact not_declares_interface inner hdeclares
    · rw [heq, ih]
      refine exists_congr fun found => and_congr_right fun _ => or_congr ?_ ?_
      · constructor
        · intro h
          exact ⟨inner, hdeclares, h⟩
        · rintro ⟨inner', hdeclares', h⟩
          rwa [hdeclares.unique hdeclares']
      · refine and_congr_left fun hend => ?_
        constructor
        · intro h
          exact .inr ⟨inner, hdeclares, h⟩
        · rintro (rfl | ⟨inner', hdeclares', h⟩)
          · exact (hend.2 inner hdeclares).elim
          · rwa [hdeclares.unique hdeclares']
    · rw [heq, Except.error.injEq]
      constructor
      · rintro rfl
        exact ⟨t, rfl, .inr ⟨.inl rfl, hother, hstuck⟩⟩
      · rintro ⟨found, rfl, ⟨inner, hdeclares, -⟩ | ⟨rfl | ⟨inner, hdeclares, -⟩, -⟩⟩
        · exact (hstuck inner hdeclares).elim
        · rfl
        · exact (hstuck inner hdeclares).elim

/-! ## Aliases -/

/-- All that can come of a declaration. -/
theorem resolveDeclaration_cases (p : Package) (name : String) (steps : Nat) (d : Declaration) :
    (∃ declared underlying, d = .type declared [] underlying ∧
      p.resolveDeclaration name (steps + 1) d = p.underlyingInterface name maxDepth underlying) ∨
    (∃ d', p.Redirects d d' ∧
      p.resolveDeclaration name (steps + 1) d = p.resolveDeclaration name steps d') ∨
    ((∀ declared underlying, d ≠ .type declared [] underlying) ∧ (∀ d', ¬ p.Redirects d d') ∧
      ∃ failure, p.resolveDeclaration name (steps + 1) d = .error failure ∧
        (∀ about, failure ≠ .notNamed about .aliasCycle) ∧
        ∀ about found, failure ≠ .notInterface about found) := by
  cases d with
  | type declared params underlying =>
    cases params with
    | nil => exact .inl ⟨declared, underlying, rfl, rfl⟩
    | cons param params =>
      refine .inr (.inr ⟨by simp, ?_, _, rfl, by simp, by simp⟩)
      rintro d' ⟨⟩
  | typeAlias declared target =>
    rw [resolveDeclaration]
    cases hnext : p.localName? target with
    | none =>
      refine .inr (.inr ⟨by simp, ?_, _, rfl, by simp, by simp⟩)
      rintro d' ⟨-⟩
      rw [localName?_eq_some_iff.mpr rfl] at hnext
      cases hnext
    | some next =>
      obtain rfl := localName?_eq_some_iff.mp hnext
      simp only
      cases hlookup : p.lookup? next with
      | none =>
        refine .inr (.inr ⟨by simp, ?_, _, rfl, by simp, by simp⟩)
        rintro d' ⟨hsome⟩
        rw [hlookup] at hsome
        cases hsome
      | some d' => exact .inr (.inl ⟨d', .synonym hlookup, rfl⟩)
  | var declared | const declared | func declared =>
    refine .inr (.inr ⟨by simp, ?_, _, rfl, by simp, by simp⟩)
    rintro d' ⟨⟩

/-- The way of aliases is followed to a declaration that is less than `steps` steps away. What is
said then is what its definition says. -/
theorem resolveDeclaration_eq_iff {steps : Nat} {d : Declaration}
    {answer : Except Failure (List Member)}
    (hanswer : ∀ failure, answer = .error failure →
      ∃ about found, failure = .notInterface about found) :
    p.resolveDeclaration name steps d = answer ↔ ∃ declared underlying,
      (∃ n < steps, Steps p.Redirects n d (.type declared [] underlying)) ∧
        p.underlyingInterface name maxDepth underlying = answer := by
  induction steps generalizing d with
  | zero =>
    refine iff_of_false ?_ ?_
    · rintro rfl
      obtain ⟨about, found, hfound⟩ := hanswer _ rfl
      cases hfound
    · rintro ⟨declared, underlying, ⟨n, hn, -⟩, -⟩
      exact Nat.not_lt_zero n hn
  | succ steps ih =>
    simp only [Steps.within_succ_iff]
    rcases p.resolveDeclaration_cases name steps d with ⟨declared, underlying, rfl, heq⟩ |
      ⟨d', hredirects, heq⟩ | ⟨hother, hstuck, failure, heq, -, hfailure⟩
    · rw [heq]
      constructor
      · intro h
        exact ⟨declared, underlying, .inl rfl, h⟩
      · rintro ⟨_, _, h | ⟨d', hredirects, -⟩, hunderlying⟩
        · cases h
          exact hunderlying
        · exact (not_redirects_type d' hredirects).elim
    · rw [heq, ih]
      refine exists_congr fun declared => exists_congr fun underlying => and_congr_left fun _ => ?_
      constructor
      · intro h
        exact .inr ⟨d', hredirects, h⟩
      · rintro (rfl | ⟨d'', hredirects', h⟩)
        · exact (not_redirects_type d' hredirects).elim
        · rwa [redirects_unique hredirects hredirects']
    · rw [heq]
      refine iff_of_false ?_ ?_
      · rintro rfl
        obtain ⟨about, found, hfound⟩ := hanswer _ rfl
        exact hfailure about found hfound
      · rintro ⟨declared, underlying, h | ⟨d', hredirects, -⟩, -⟩
        · exact hother declared underlying h
        · exact hstuck d' hredirects

/-- A cycle is what following aliases ends with if there are `steps` steps to make. -/
theorem resolveDeclaration_eq_aliasCycle_iff {steps : Nat} {d : Declaration} {about : String} :
    p.resolveDeclaration name steps d = .error (.notNamed about .aliasCycle) ↔
      about = name ∧ ∃ d', Steps p.Redirects steps d d' := by
  induction steps generalizing d with
  | zero =>
    constructor
    · intro h
      cases h
      exact ⟨rfl, d, .zero d⟩
    · rintro ⟨rfl, -⟩
      rfl
  | succ steps ih =>
    simp only [Steps.succ_iff]
    rcases p.resolveDeclaration_cases name steps d with ⟨declared, underlying, rfl, heq⟩ |
      ⟨d', hredirects, heq⟩ | ⟨-, hstuck, failure, heq, hfailure, -⟩
    · rw [heq, underlyingInterface_eq_error_iff]
      refine iff_of_false ?_ ?_
      · rintro ⟨found, hfound, -⟩
        cases hfound
      · rintro ⟨-, _, d', hredirects, -⟩
        exact not_redirects_type d' hredirects
    · rw [heq, ih]
      refine and_congr_right fun _ => exists_congr fun last => ?_
      constructor
      · intro h
        exact ⟨d', hredirects, h⟩
      · rintro ⟨d'', hredirects', h⟩
        rwa [redirects_unique hredirects hredirects']
    · rw [heq]
      refine iff_of_false ?_ ?_
      · intro h
        exact hfailure about (Except.error.inj h)
      · rintro ⟨-, _, d', hredirects, -⟩
        exact hstuck d' hredirects

/-! ## From a name to an interface -/

theorem resolve_eq_ok_iff : p.resolve name = .ok members ↔ p.ResolvesTo name members := by
  unfold resolve ResolvesTo
  cases hlookup : p.lookup? name with
  | none => exact iff_of_false nofun (by simp)
  | some first =>
    have hok : ∀ failure, (.ok members : Except Failure (List Member)) = .error failure →
        ∃ about found, failure = .notInterface about found := nofun
    simp only [resolveDeclaration_eq_iff hok, underlyingInterface_eq_ok_iff]
    constructor
    · rintro ⟨declared, underlying, ⟨aliases, haliases, hfirst⟩, definitions, hdefinitions, hrest⟩
      exact ⟨first, declared, underlying, aliases, definitions, rfl, hfirst, haliases, hrest,
        hdefinitions⟩
    · rintro ⟨_, declared, underlying, aliases, definitions, hsome, hfirst, haliases, hrest,
        hdefinitions⟩
      cases hsome
      exact ⟨declared, underlying, ⟨aliases, haliases, hfirst⟩, definitions, hdefinitions, hrest⟩

/-! ## From one name to another -/

/-- What a name is declared to be leads to the interface with these members in `n` steps. -/
def Denotes (p : Package) (n : Nat) (name : String) (members : List Member) : Prop :=
  ∃ t, p.definition? name = some t ∧ Steps p.Declares n t (.interface members)

theorem renames_iff {a b : String} :
    p.Renames a b ↔ p.definition? a = some (.named p.path b []) := by
  constructor
  · intro h
    cases h with
    | synonym hlookup | definition hlookup => rw [definition?, hlookup]
  · intro h
    unfold definition? at h
    split at h
    · next hlookup =>
      cases h
      exact .definition hlookup
    · next hlookup =>
      cases h
      exact .synonym hlookup
    · cases h

theorem ResolvesTo.exists_denotes (h : p.ResolvesTo name members) :
    ∃ n, p.Denotes n name members := by
  obtain ⟨first, declared, underlying, aliases, definitions, hlookup, hfirst, -, hrest, -⟩ := h
  induction aliases generalizing name first with
  | zero =>
    cases hfirst
    exact ⟨definitions, underlying, by rw [definition?, hlookup], hrest⟩
  | succ aliases ih =>
    obtain ⟨d, hredirects, hothers⟩ := Steps.succ_iff.mp hfirst
    cases hredirects with
    | @synonym _ next _ hnext =>
      obtain ⟨n, t, hdefinition, hsteps⟩ := ih d hnext hothers
      have hdeclares := declares_iff.mpr ⟨next, localName?_eq_some_iff.mpr rfl, hdefinition⟩
      exact ⟨n + 1, _, by rw [definition?, hlookup], .succ hdeclares hsteps⟩

/-- A name and what it is another name for lead to the same interface. -/
theorem Denotes.of_renames {n : Nat} {a b : String} (h : p.Denotes n a members)
    (hrenames : p.Renames a b) : ∃ k, n = k + 1 ∧ p.Denotes k b members := by
  obtain ⟨t, hdefinition, hsteps⟩ := h
  cases (renames_iff.mp hrenames).symm.trans hdefinition
  cases hsteps with
  | succ hdeclares hrest =>
    obtain ⟨next, hname, hnext⟩ := declares_iff.mp hdeclares
    cases localName?_eq_some_iff.mp hname
    exact ⟨_, rfl, _, hnext, hrest⟩

theorem Denotes.of_reflTransGen {n : Nat} {a b : String} (h : p.Denotes n a members)
    (hreach : Relation.ReflTransGen p.Renames a b) : ∃ k ≤ n, p.Denotes k b members := by
  induction hreach with
  | refl => exact ⟨n, Nat.le_refl n, h⟩
  | tail _ hrenames ih =>
    obtain ⟨k, hk, hb⟩ := ih
    obtain ⟨k', rfl, hc⟩ := hb.of_renames hrenames
    exact ⟨k', Nat.le_of_succ_le hk, hc⟩

/-- A name that is another name for itself denotes nothing. -/
theorem Denotes.not_cyclic {n : Nat} {a : String} (h : p.Denotes n a members) :
    ¬ Relation.TransGen p.Renames a a := by
  induction n using Nat.strongRecOn with
  | ind n ih =>
    intro hcycle
    obtain ⟨b, hrenames, hreach⟩ := Relation.TransGen.head'_iff.mp hcycle
    obtain ⟨k, rfl, hb⟩ := h.of_renames hrenames
    obtain ⟨k', hk', ha⟩ := hb.of_reflTransGen hreach
    exact ih k' (Nat.lt_succ_of_le hk') ha hcycle

theorem Denotes.unique {m n : Nat} {a : String} {members' : List Member}
    (h : p.Denotes m a members) (h' : p.Denotes n a members') : members = members' := by
  obtain ⟨t, hdefinition, hsteps⟩ := h
  obtain ⟨t', hdefinition', hsteps'⟩ := h'
  cases hdefinition.symm.trans hdefinition'
  obtain ⟨-, hrest⟩ := hsteps.align declares_unique not_declares_interface hsteps'
  cases hrest.reflTransGen.cases_head with
  | inl heq =>
    cases heq
    rfl
  | inr hstep =>
    obtain ⟨inner, hdeclares, -⟩ := hstep
    exact (not_declares_interface inner hdeclares).elim

/-- Two names of one interface have the same methods. -/
theorem methods_eq_of_resolve_eq {other : String} {table table₁ table₂ : ImportTable}
    {i i' : Interface} (heq : p.resolve name = p.resolve other)
    (h : p.introspect name table = .ok i table₁) (h' : p.introspect other table = .ok i' table₂) :
    i.methods = i'.methods := by
  obtain ⟨members, specs, methods, hresolve, hset, hmethods, -, hi⟩ := p.introspect_eq_ok h
  obtain ⟨members', specs', methods', hresolve', hset', hmethods', -, hi'⟩ :=
    p.introspect_eq_ok h'
  cases (hresolve.symm.trans heq).trans hresolve'
  cases hset.symm.trans hset'
  cases hmethods.symm.trans hmethods'
  rw [hi, hi']

/-- What the resolution of names is like in a package. -/
structure ResolutionLaws (p : Package) : Prop where
  /-- A name resolves to the interface that it leads to, if neither way to it is too long, and to
  nothing else. -/
  resolves_iff : ∀ name members, p.resolve name = .ok members ↔ p.ResolvesTo name members
  /-- A name that leads into a cycle, of aliases, definitions or both, does not resolve. -/
  cyclic : ∀ name next, Relation.ReflTransGen p.Renames name next →
    Relation.TransGen p.Renames next next → ∃ failure, p.resolve name = .error failure
  /-- A name that leads to one that stands for no type does not resolve. -/
  untyped : ∀ name last, Relation.ReflTransGen p.Renames name last → p.Untyped last →
    ∃ failure, p.resolve name = .error failure
  /-- If a name leads to another, both have the same methods. -/
  sameMethods : ∀ name other table i i' table₁ table₂,
    Relation.ReflTransGen p.Renames name other → p.introspect name table = .ok i table₁ →
      p.introspect other table = .ok i' table₂ → i.methods = i'.methods

/-- What resolves can be reached from any name on the way. -/
theorem denotes_of_resolve {other : String} (h : p.resolve name = .ok members)
    (hreach : Relation.ReflTransGen p.Renames name other) : ∃ n, p.Denotes n other members := by
  obtain ⟨n, hname⟩ := (resolve_eq_ok_iff.mp h).exists_denotes
  obtain ⟨k, -, hother⟩ := hname.of_reflTransGen hreach
  exact ⟨k, hother⟩

/-- **Resolution of names.** -/
theorem resolutionLaws (p : Package) : p.ResolutionLaws where
  resolves_iff name members := resolve_eq_ok_iff
  cyclic name next hreach hcycle := by
    cases h : p.resolve name with
    | error failure => exact ⟨failure, rfl⟩
    | ok members =>
      obtain ⟨n, hnext⟩ := denotes_of_resolve h hreach
      exact (hnext.not_cyclic hcycle).elim
  untyped name last hreach huntyped := by
    cases h : p.resolve name with
    | error failure => exact ⟨failure, rfl⟩
    | ok members =>
      obtain ⟨n, t, hdefinition, -⟩ := denotes_of_resolve h hreach
      exact nomatch (definition?_eq_none_iff.mpr huntyped).symm.trans hdefinition
  sameMethods name other table i i' table₁ table₂ hreach h h' := by
    refine methods_eq_of_resolve_eq ?_ h h'
    obtain ⟨members, _, _, hresolve, -⟩ := p.introspect_eq_ok h
    obtain ⟨members', _, _, hresolve', -⟩ := p.introspect_eq_ok h'
    obtain ⟨m, hname⟩ := denotes_of_resolve hresolve hreach
    obtain ⟨n, hother⟩ := denotes_of_resolve hresolve' .refl
    rw [hresolve, hresolve', hname.unique hother]

end Interposer.Package
