import Interposer.Proofs.Interface.Resolution
import Interposer.Proofs.SignatureType.Rejection

/-! What is said when a name does not resolve to an interface. Of a name that is said to be an alias
cycle, and of a type that is said to be no interface, this is true unless the way from the name is
as long as the bound on ways (`failureLaws`); what stands at the end of such a way is not looked
at (`resolve_long_ways`). An introspection fails in these two ways just if resolution does
(`introspect_eq_error_iff`). -/

namespace Interposer

namespace Declaration

def isAlias : Declaration → Bool
  | typeAlias .. => true
  | _ => false

/-- Whether the declaration is one of a type, by a definition or an alias. -/
def isTyped : Declaration → Bool
  | type .. | typeAlias .. => true
  | _ => false

end Declaration

namespace Package

variable {p : Package} {name about : String}

/-- The names that are declared in some way. -/
def namesOf (p : Package) (declared : Declaration → Bool) : List String :=
  (p.declarations.filter declared).map (·.name)

theorem mem_namesOf {declared : Declaration → Bool} {d : Declaration}
    (hlookup : p.lookup? name = some d) (h : declared d = true) : name ∈ p.namesOf declared := by
  obtain ⟨hname, _, _, hsplit, -⟩ := List.find?_eq_some_iff_append.mp hlookup
  refine List.mem_map.mpr ⟨d, List.mem_filter.mpr ⟨?_, h⟩, by simpa using hname⟩
  rw [hsplit]
  exact List.mem_append_right _ List.mem_cons_self

/-! ## Ways of aliases -/

/-- `a` is an alias of the local type `b`. -/
def Synonym (p : Package) (a b : String) : Prop :=
  ∃ declared, p.lookup? a = some (.typeAlias declared (.named p.path b []))

theorem synonym_unique : Relator.RightUnique p.Synonym := by
  rintro a b b' ⟨declared, hlookup⟩ ⟨declared', hlookup'⟩
  cases hlookup.symm.trans hlookup'
  rfl

theorem exists_synonyms {n : Nat} {first last : Declaration} (hlookup : p.lookup? name = some first)
    (h : Steps p.Redirects n first last) :
    ∃ b, p.lookup? b = some last ∧ Steps p.Synonym n name b := by
  induction h generalizing name with
  | zero first => exact ⟨name, hlookup, .zero name⟩
  | succ hredirects _ ih =>
    cases hredirects with
    | synonym hnext =>
      obtain ⟨b, hb, hsteps⟩ := ih hnext
      exact ⟨b, hb, .succ ⟨_, hlookup⟩ hsteps⟩

/-- A way of aliases to anything else goes through as many aliases as it has steps. -/
theorem steps_le_of_not_isAlias {n : Nat} {first last : Declaration}
    (hlookup : p.lookup? name = some first) (h : Steps p.Redirects n first last)
    (hlast : last.isAlias = false) : n ≤ (p.namesOf Declaration.isAlias).length := by
  obtain ⟨b, hb, hsteps⟩ := exists_synonyms hlookup h
  have hend : ∀ c, ¬ p.Synonym b c := by
    rintro c ⟨declared, halias⟩
    cases hb.symm.trans halias
    cases hlast
  refine hsteps.le_length id synonym_unique hend ?_ (fun _ _ _ _ _ _ heq => heq)
  rintro a c ⟨declared, halias⟩
  exact mem_namesOf halias rfl

/-! ## Ways of definitions -/

/-- The name of a declared type. -/
def typeName : SourceType → String
  | .named _ name _ => name
  | _ => ""

/-- A way of definitions to an interface goes through as many types as it has steps. -/
theorem steps_le_of_interface {n : Nat} {t : SourceType} {members : List Member}
    (h : Steps p.Declares n t (.interface members)) :
    n ≤ (p.namesOf Declaration.isTyped).length := by
  refine h.le_length typeName declares_unique not_declares_interface ?_ ?_
  · rintro _ _ (hlookup | hlookup)
    · exact mem_namesOf hlookup rfl
    · exact mem_namesOf hlookup rfl
  · rintro _ _ _ _ (h | h) (h' | h') heq <;>
      exact congrArg (SourceType.named p.path · []) heq

/-! ## Failures of a name -/

theorem resolve_eq_aliasCycle_iff : p.resolve name = .error (.notNamed about .aliasCycle) ↔
    about = name ∧ ∃ first last, p.lookup? name = some first ∧
      Steps p.Redirects maxDepth first last := by
  unfold resolve
  cases hlookup : p.lookup? name with
  | none => exact iff_of_false nofun (by simp)
  | some first => simp only [resolveDeclaration_eq_aliasCycle_iff, Option.some.injEq,
      exists_and_left, exists_eq_left']

/-- The type at which following definitions from `t` ends: the first one that is neither an interface
nor declared in the package, or the one that is as far away as the bound. -/
def StopsAt (p : Package) (t found : SourceType) : Prop :=
  Steps p.Declares maxDepth t found ∨ (∃ n < maxDepth, Steps p.Declares n t found) ∧
    (∀ members, found ≠ .interface members) ∧ ∀ inner, ¬ p.Declares found inner

theorem resolve_eq_notInterface_iff {found : SourceType} :
    p.resolve name = .error (.notInterface about found) ↔
      about = name ∧ ∃ first declared underlying, p.lookup? name = some first ∧
        (∃ n < maxDepth, Steps p.Redirects n first (.type declared [] underlying)) ∧
        p.StopsAt underlying found := by
  unfold resolve
  cases hlookup : p.lookup? name with
  | none => exact iff_of_false nofun (by simp)
  | some first =>
    have herror : ∀ failure, (.error (.notInterface about found) : Except Failure (List Member)) =
        .error failure → ∃ about found, failure = .notInterface about found := by
      rintro failure ⟨rfl⟩
      exact ⟨about, found, rfl⟩
    simp only [resolveDeclaration_eq_iff herror, underlyingInterface_eq_error_iff]
    constructor
    · rintro ⟨declared, underlying, hfirst, _, hfound, hstops⟩
      cases hfound
      exact ⟨rfl, first, declared, underlying, rfl, hfirst, hstops⟩
    · rintro ⟨rfl, _, declared, underlying, hsome, hfirst, hstops⟩
      cases hsome
      exact ⟨declared, underlying, hfirst, found, rfl, hstops⟩

/-! ## Failures of an introspection -/

/-- A failure of expanding or of converting an interface that was found. -/
def ComesOfMethods (failure : Failure) : Prop :=
  failure.IsUnsupported ∨ ∃ name package, failure = .notFound name package

theorem exists_of_expandMembers_eq_error
    {embedded : SourceType → Except Failure (List MethodSpec)} {members : List Member}
    {failure : Failure} (h : expandMembers embedded members = .error failure) :
    ∃ t, embedded t = .error failure := by
  induction members with
  | nil => cases h
  | cons member rest ih =>
    cases member with
    | method name params results variadic =>
      rw [expandMembers] at h
      cases hrest : expandMembers embedded rest with
      | error failure' =>
        rw [hrest] at h
        cases h
        exact ih hrest
      | ok specs => rw [hrest] at h; cases h
    | embedded t =>
      rw [expandMembers] at h
      cases ht : embedded t with
      | error failure' =>
        rw [ht] at h
        cases h
        exact ⟨t, ht⟩
      | ok inner =>
        cases hrest : expandMembers embedded rest with
        | error failure' =>
          rw [ht, hrest] at h
          cases h
          exact ih hrest
        | ok specs => rw [ht, hrest] at h; cases h

theorem comesOfMethods_of_expandEmbedded {steps : Nat} {t : SourceType} {failure : Failure}
    (h : p.expandEmbedded steps t = .error failure) : ComesOfMethods failure := by
  induction steps generalizing t with
  | zero =>
    cases h
    exact .inl ⟨_, rfl⟩
  | succ steps ih =>
    by_cases hinterface : ∃ members, t = .interface members
    · obtain ⟨members, rfl⟩ := hinterface
      obtain ⟨t', ht'⟩ := exists_of_expandMembers_eq_error h
      exact ih ht'
    rw [expandEmbedded_of_ne_interface (not_exists.mp hinterface)] at h
    split at h
    · cases h
    split at h
    · cases h
    split at h
    · cases h
      exact .inl ⟨_, rfl⟩
    · split at h
      · exact ih h
      · cases h
        exact .inr ⟨_, _, rfl⟩

theorem comesOfMethods_of_methodSet {members : List Member} {failure : Failure}
    (h : p.methodSet members = .error failure) : ComesOfMethods failure := by
  rw [methodSet] at h
  cases hmembers : expandMembers (p.expandEmbedded (maxDepth + 1)) members with
  | ok specs => rw [hmembers] at h; cases h
  | error failure' =>
    rw [hmembers] at h
    cases h
    obtain ⟨t, ht⟩ := exists_of_expandMembers_eq_error hmembers
    exact comesOfMethods_of_expandEmbedded ht

theorem failsOnly_nameVars (synthetic : Nat → Bool → SignatureType → String) (i : Nat)
    (taken : List String) (vars : List Variable) :
    Importing.FailsOnly Failure.IsUnsupported (nameVars synthetic i taken vars) := by
  induction vars generalizing i taken with
  | nil => exact .pure _
  | cons v rest ih =>
    cases v with
    | mk declared type =>
      refine .bind (SignatureType.failsOnly_ofSource type) fun converted => ?_
      exact .bind (ih (i + 1) _) fun _ => .pure _

theorem failsOnly_methodsOfSpecs (specs : List MethodSpec) :
    Importing.FailsOnly Failure.IsUnsupported (methodsOfSpecs specs) := by
  induction specs with
  | nil => exact .pure _
  | cons spec rest ih =>
    have hspec : Importing.FailsOnly Failure.IsUnsupported (Method.ofSpec spec) :=
      .bind (failsOnly_nameVars _ _ _ _) fun _ => .bind (failsOnly_nameVars _ _ _ _) fun _ => .pure _
    exact .bind hspec fun _ => .bind ih fun _ => .pure _

/-- An introspection fails like resolution or because of the methods of what was resolved. -/
theorem introspect_eq_error_iff {failure : Failure} (hname : ¬ ComesOfMethods failure)
    (table : ImportTable) : (∃ table', p.introspect name table = .error failure table') ↔
      p.resolve name = .error failure := by
  cases hresolve : p.resolve name with
  | error failure' =>
    have hfails : p.introspect name table = .error failure' table := by
      unfold introspect
      rw [hresolve]
      rfl
    rw [hfails]
    constructor
    · rintro ⟨table', h⟩
      cases h
      rfl
    · rintro ⟨rfl⟩
      exact ⟨table, rfl⟩
  | ok members =>
    refine iff_of_false ?_ nofun
    rintro ⟨table', h⟩
    have hmethods : Importing.FailsOnly ComesOfMethods (p.introspect name) := by
      unfold introspect
      rw [hresolve]
      refine .bind (.pure members) fun members => .bind (.importing p.path) fun qualifier => ?_
      refine .bind (.ofExcept fun _ => comesOfMethods_of_methodSet) fun specs => ?_
      refine .bind ((failsOnly_methodsOfSpecs specs).mono fun _ => .inl) fun methods => ?_
      intro table failure table' hget
      cases hget
    exact hname (hmethods table failure table' h)

/-! ## The truth of what is said -/

/-- What is said of a name for which introspection fails. -/
structure FailureLaws (p : Package) : Prop where
  /-- A name is called a cycle if it leads through as many aliases as are followed. -/
  aliasCycle_iff : ∀ name table about,
    (∃ table', p.introspect name table = .error (.notNamed about .aliasCycle) table') ↔
      about = name ∧ ∃ first last, p.lookup? name = some first ∧
        Steps p.Redirects maxDepth first last
  /-- It is one if the package has fewer aliases: then it leads to nothing but aliases. -/
  cyclic : ∀ name table about table', (p.namesOf Declaration.isAlias).length < maxDepth →
    p.introspect name table = .error (.notNamed about .aliasCycle) table' →
      ∀ first d, p.lookup? name = some first → Relation.ReflTransGen p.Redirects first d →
        d.isAlias = true
  /-- A type is said to be no interface if following definitions stops at it. -/
  notInterface_iff : ∀ name table about found,
    (∃ table', p.introspect name table = .error (.notInterface about found) table') ↔
      about = name ∧ ∃ first declared underlying, p.lookup? name = some first ∧
        (∃ n < maxDepth, Steps p.Redirects n first (.type declared [] underlying)) ∧
        p.StopsAt underlying found
  /-- It is none if the package declares fewer types than definitions are followed. -/
  notInterface : ∀ name table about found table',
    (p.namesOf Declaration.isTyped).length < maxDepth →
      p.introspect name table = .error (.notInterface about found) table' →
        ∀ members, found ≠ .interface members

/-- A name that is called a cycle in a package with few aliases leads to aliases only. -/
theorem isAlias_of_aliasCycle (hfew : (p.namesOf Declaration.isAlias).length < maxDepth)
    (h : p.resolve name = .error (.notNamed about .aliasCycle)) {first d : Declaration}
    (hfirst : p.lookup? name = some first) (hreach : Relation.ReflTransGen p.Redirects first d) :
    d.isAlias = true := by
  obtain ⟨-, first', last, hsome, hlong⟩ := resolve_eq_aliasCycle_iff.mp h
  cases hfirst.symm.trans hsome
  cases hd : d.isAlias with
  | true => rfl
  | false =>
    -- The way to `d` begins with all the steps that are followed, so there are as many aliases.
    obtain ⟨n, hway⟩ := Steps.exists_of_reflTransGen hreach
    have hend : ∀ d', ¬ p.Redirects d d' := by
      rintro d' ⟨-⟩
      cases hd
    obtain ⟨hle, -⟩ := hlong.align redirects_unique hend hway
    have hmany := steps_le_of_not_isAlias hfirst hway hd
    omega

/-- A type that is said to be no interface in a package with few types is none. -/
theorem ne_interface_of_notInterface {found : SourceType}
    (hfew : (p.namesOf Declaration.isTyped).length < maxDepth)
    (h : p.resolve name = .error (.notInterface about found)) (members : List Member) :
    found ≠ .interface members := by
  obtain ⟨-, _, _, underlying, -, -, hlong | ⟨-, hother, -⟩⟩ := resolve_eq_notInterface_iff.mp h
  · intro hinterface
    rw [hinterface] at hlong
    have hmany := steps_le_of_interface hlong
    omega
  · exact hother members

/-- **Failures of resolution.** -/
theorem failureLaws (p : Package) : p.FailureLaws := by
  have hcycle : ∀ about, ¬ ComesOfMethods (.notNamed about .aliasCycle) := by
    rintro about (⟨what, h⟩ | ⟨name, package, h⟩) <;> cases h
  have hkind : ∀ about found, ¬ ComesOfMethods (.notInterface about found) := by
    rintro about found (⟨what, h⟩ | ⟨name, package, h⟩) <;> cases h
  constructor
  case aliasCycle_iff =>
    intro name table about
    rw [introspect_eq_error_iff (hcycle about), resolve_eq_aliasCycle_iff]
  case cyclic =>
    intro name table about table' hfew h first d
    exact isAlias_of_aliasCycle hfew ((introspect_eq_error_iff (hcycle about) table).mp ⟨_, h⟩)
  case notInterface_iff =>
    intro name table about found
    rw [introspect_eq_error_iff (hkind about found), resolve_eq_notInterface_iff]
  case notInterface =>
    intro name table about found table' hfew h
    exact ne_interface_of_notInterface hfew
      ((introspect_eq_error_iff (hkind about found) table).mp ⟨_, h⟩)

/-- A package with two interfaces that are one step too far away from their first names. -/
def ladder : Package where
  name := "ladder"
  path := "example.com/ladder"
  declarations :=
    let next (letter : String) (i : Nat) : SourceType :=
      .named "example.com/ladder" (letter ++ toString (i + 1)) []
    (List.range maxDepth).map (fun i => .typeAlias ("A" ++ toString i) (next "A" i)) ++
      (List.range maxDepth).map (fun i => .type ("D" ++ toString i) [] (next "D" i)) ++
      [.type "A32" [] (.interface []), .type "D32" [] (.interface [])]

/-- The aliases are no cycle, and the interface at the end of the definitions is said to be none. -/
theorem resolve_long_ways :
    ladder.resolve "A0" = .error (.notNamed "A0" .aliasCycle) ∧ ladder.resolve "A1" = .ok [] ∧
    ladder.resolve "D0" = .error (.notInterface "D0" (.interface [])) ∧
    ladder.resolve "D1" = .ok [] := by
  exact ⟨rfl, rfl, rfl, rfl⟩

end Package

end Interposer
