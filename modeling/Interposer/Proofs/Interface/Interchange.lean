import Interposer.Proofs.Interface.Flattening
import Interposer.Proofs.SignatureType.BasicForm

/-! Packages that differ in how they describe predeclared types. They have the same basic form, and
to introspection they are the same (`Package.interchangeable`), with one exception: an interface may
embed `any` if that is described as a basic type, and may not if it is described as a declared type
of no package (`Package.any_not_interchangeable`). -/

namespace Interposer

/-- A result and its failure in basic form. -/
def basicFormBy {α : Type} (f : α → α) (x : Except Failure α) : Except Failure α :=
  (x.map f).mapError Failure.basicForm

theorem Importing.ofExcept_basicFormBy_bind {α β : Type} {f : α → α} {x : Except Failure α}
    {m m' : α → Importing β} (h : ∀ a, x = .ok a → m' (f a) = inBasicForm (m a)) :
    (ofExcept (basicFormBy f x) >>= m') = inBasicForm (ofExcept x >>= m) := by
  cases x with
  | ok a => exact h a rfl
  | error failure => rfl

def MethodSpec.basicForm (spec : MethodSpec) : MethodSpec :=
  ⟨spec.name, Variable.basicForms spec.params, Variable.basicForms spec.results, spec.variadic⟩

namespace Package

variable {p q : Package} {name : String} {members : List Member}

def basicForm (p : Package) : Package :=
  { p with declarations := p.declarations.map (·.basicForm) }

/-! ## Names -/

theorem lookup?_basicForm (p : Package) (name : String) :
    p.basicForm.lookup? name = (p.lookup? name).map Declaration.basicForm := by
  have hname : ∀ d : Declaration, d.basicForm.name = d.name := by
    intro d
    cases d <;> rfl
  rw [lookup?, basicForm, List.find?_map, lookup?]
  simp only [Function.comp_def, hname]

theorem definition?_basicForm (p : Package) (name : String) :
    p.basicForm.definition? name = (p.definition? name).map SourceType.basicForm := by
  unfold definition?
  rw [lookup?_basicForm]
  cases p.lookup? name with
  | none => rfl
  | some d =>
    cases d with
    | type declared params underlying => cases params <;> rfl
    | _ => rfl

/-- No predeclared type is a type of a package with a path. -/
theorem localName?_basicForm (hpath : p.path ≠ "") (t : SourceType) :
    p.basicForm.localName? t.basicForm = p.localName? t := by
  cases t with
  | named package name args =>
    rw [SourceType.basicForm]
    split
    · next hpredeclared =>
      obtain ⟨rfl, -⟩ := hpredeclared
      simp [localName?, hpath.symm]
    · rw [localName?, localName?, SourceType.isEmpty_basicForms]
      rfl
  | _ => rfl

theorem basicForm_ne_interface {t : SourceType} (h : ∀ members, t ≠ .interface members) :
    ∀ members, t.basicForm ≠ .interface members := by
  intro members
  cases t with
  | interface members' => exact (h members' rfl).elim
  | named package name args =>
    rw [SourceType.basicForm]
    split <;> exact nofun
  | _ => exact nofun

/-! ## Resolution -/

theorem underlyingInterface_basicForm (hpath : p.path ≠ "") (name : String) (steps : Nat)
    (t : SourceType) : p.basicForm.underlyingInterface name steps t.basicForm =
      basicFormBy Member.basicForms (p.underlyingInterface name steps t) := by
  induction steps generalizing t with
  | zero => rfl
  | succ steps ih =>
    by_cases hinterface : ∃ members, t = .interface members
    · obtain ⟨members, rfl⟩ := hinterface
      rfl
    have hother := not_exists.mp hinterface
    rw [underlyingInterface.eq_3 _ _ _ _ hother,
      underlyingInterface.eq_3 _ _ _ _ (basicForm_ne_interface hother), localName?_basicForm hpath]
    cases p.localName? t with
    | none => rfl
    | some next =>
      rw [Option.bind_some, Option.bind_some, definition?_basicForm]
      cases p.definition? next with
      | none => rfl
      | some inner => exact ih inner

theorem resolveDeclaration_basicForm (hpath : p.path ≠ "") (name : String) (steps : Nat)
    (d : Declaration) : p.basicForm.resolveDeclaration name steps d.basicForm =
      basicFormBy Member.basicForms (p.resolveDeclaration name steps d) := by
  induction steps generalizing d with
  | zero => rfl
  | succ steps ih =>
    cases d with
    | type declared params underlying =>
      cases params with
      | nil => exact underlyingInterface_basicForm hpath name maxDepth underlying
      | cons param params => rfl
    | typeAlias declared target =>
      rw [Declaration.basicForm, resolveDeclaration, resolveDeclaration, localName?_basicForm hpath]
      cases p.localName? target with
      | none => rfl
      | some next =>
        dsimp only
        rw [lookup?_basicForm]
        cases p.lookup? next with
        | none => rfl
        | some d => exact ih d
    | var declared | const declared | func declared => rfl

theorem resolve_basicForm (hpath : p.path ≠ "") (name : String) :
    p.basicForm.resolve name = basicFormBy Member.basicForms (p.resolve name) := by
  rw [resolve, resolve, lookup?_basicForm]
  cases p.lookup? name with
  | none => rfl
  | some d => exact resolveDeclaration_basicForm hpath name maxDepth d

/-! ## Method sets -/

/-- The predeclared `any`, described as a declared type. -/
def namedAny : SourceType := .named "" "any" []

/-- Expanding the interface called `name` leads to `any`, described as a declared type. -/
def ReachesNamedAny (p : Package) (name : String) : Prop :=
  ∃ members, p.resolve name = .ok members ∧
    Relation.ReflTransGen p.Leads (.interface members) namedAny

theorem isPredeclaredError_basicForm (t : SourceType) :
    t.basicForm.isPredeclaredError = t.isPredeclaredError := by
  cases t with
  | named package name args =>
    rw [SourceType.basicForm]
    split
    · next hpredeclared => simp [SourceType.isPredeclaredError, hpredeclared.1]
    · rfl
  | _ => rfl

theorem isAny_basicForm {t : SourceType} (h : t ≠ namedAny) : t.basicForm.isAny = t.isAny := by
  cases t with
  | named package name args =>
    rw [SourceType.basicForm]
    split
    · next hpredeclared =>
      obtain ⟨rfl, hargs⟩ := hpredeclared
      obtain rfl := List.isEmpty_iff.mp hargs
      have hname : name ≠ "any" := by
        rintro rfl
        exact h rfl
      simpa [SourceType.isAny] using hname
    · rfl
  | _ => rfl

theorem expandMembers_basicForms
    {embedded embedded' : SourceType → Except Failure (List MethodSpec)} {members : List Member}
    (h : ∀ t, .embedded t ∈ members →
      embedded' t.basicForm = basicFormBy (List.map (·.basicForm)) (embedded t)) :
    expandMembers embedded' (Member.basicForms members) =
      basicFormBy (List.map (·.basicForm)) (expandMembers embedded members) := by
  induction members with
  | nil => rfl
  | cons member rest ih =>
    have hrest := ih fun t ht => h t (List.mem_cons_of_mem _ ht)
    cases member with
    | method name params results variadic =>
      rw [Member.basicForms, expandMembers, hrest, expandMembers]
      cases expandMembers embedded rest <;> rfl
    | embedded t =>
      rw [Member.basicForms, expandMembers, hrest, h t List.mem_cons_self, expandMembers]
      cases embedded t with
      | error failure => rfl
      | ok inner =>
        cases expandMembers embedded rest with
        | error failure => rfl
        | ok others => exact congrArg Except.ok List.map_append.symm

theorem expandEmbedded_basicForm (hpath : p.path ≠ "") {t : SourceType} (steps : Nat)
    (hany : ¬ Relation.ReflTransGen p.Leads t namedAny) :
    p.basicForm.expandEmbedded steps t.basicForm =
      basicFormBy (List.map (·.basicForm)) (p.expandEmbedded steps t) := by
  induction steps generalizing t with
  | zero => rfl
  | succ steps ih =>
    have hinner : ∀ t', p.Leads t t' → p.basicForm.expandEmbedded steps t'.basicForm =
        basicFormBy (List.map (·.basicForm)) (p.expandEmbedded steps t') :=
      fun t' hlead => ih fun hreach => hany (.head hlead hreach)
    by_cases hinterface : ∃ members, t = .interface members
    · obtain ⟨members, rfl⟩ := hinterface
      exact expandMembers_basicForms fun t ht => hinner t (.embedded ht)
    have hother := not_exists.mp hinterface
    have hne : t ≠ namedAny := by
      rintro rfl
      exact hany .refl
    rw [expandEmbedded_of_ne_interface hother,
      expandEmbedded_of_ne_interface (basicForm_ne_interface hother), isPredeclaredError_basicForm,
      isAny_basicForm hne, localName?_basicForm hpath]
    by_cases herror : t.isPredeclaredError
    · rw [if_pos herror, if_pos herror]
      rfl
    rw [if_neg herror, if_neg herror]
    split
    · rfl
    cases hname : p.localName? t with
    | none => rfl
    | some next =>
      dsimp only
      rw [definition?_basicForm]
      cases hdefinition : p.definition? next with
      | none => rfl
      | some inner =>
        have hdeclares := declares_iff.mpr ⟨next, hname, hdefinition⟩
        exact hinner inner (.declared (mt isPredeclaredError_iff.mpr herror) hdeclares)

theorem firstOfEachName_basicForm (specs : List MethodSpec) :
    firstOfEachName (specs.map (·.basicForm)) = (firstOfEachName specs).map (·.basicForm) := by
  induction specs with
  | nil => rfl
  | cons m rest ih =>
    rw [List.map_cons, firstOfEachName, ih, List.filter_map, firstOfEachName, List.map_cons]
    rfl

theorem methodSet_basicForm (hpath : p.path ≠ "")
    (hany : ¬ Relation.ReflTransGen p.Leads (.interface members) namedAny) :
    p.basicForm.methodSet (Member.basicForms members) =
      basicFormBy (List.map (·.basicForm)) (p.methodSet members) := by
  have hmembers : expandMembers (p.basicForm.expandEmbedded (maxDepth + 1))
      (Member.basicForms members) = basicFormBy (List.map (·.basicForm))
        (expandMembers (p.expandEmbedded (maxDepth + 1)) members) :=
    expandMembers_basicForms fun t ht =>
      expandEmbedded_basicForm hpath (maxDepth + 1) fun hreach => hany (.head (.embedded ht) hreach)
  rw [methodSet, methodSet, hmembers]
  cases expandMembers (p.expandEmbedded (maxDepth + 1)) members with
  | error failure => rfl
  | ok specs => exact congrArg Except.ok (firstOfEachName_basicForm specs)

/-- An interface that leads to such an `any` has no method set. -/
theorem exists_failure_of_reaches
    (hreach : Relation.ReflTransGen p.Leads (.interface members) namedAny) (hpath : p.path ≠ "") :
    ∃ failure, p.methodSet members = .error failure := by
  cases hset : p.methodSet members with
  | error failure => exact ⟨failure, rfl⟩
  | ok specs =>
    have hresolves := (methodSet_succeeds_iff.mp ⟨specs, hset⟩).1 namedAny hreach
    rcases hresolves with ⟨_, h⟩ | h | h | ⟨inner, hdeclares⟩
    · cases h
    · simp [namedAny, SourceType.IsError] at h
    · cases h
    · obtain ⟨_, hname, -⟩ := declares_iff.mp hdeclares
      simp [namedAny, localName?, hpath.symm] at hname

end Package

/-! ## Methods -/

open Importing

theorem nameVars_basicForms (synthetic : Nat → Bool → SignatureType → String) (i : Nat)
    (taken : List String) (vars : List Variable) :
    nameVars synthetic i taken (Variable.basicForms vars) =
      inBasicForm (nameVars synthetic i taken vars) := by
  induction vars generalizing i taken with
  | nil => rfl
  | cons v rest ih =>
    cases v with
    | mk declared type =>
      simp only [Variable.basicForms, nameVars, SignatureType.ofSource_basicForm,
        Variable.isEmpty_basicForms, ih, inBasicForm_bind, inBasicForm_pure]

theorem Method.ofSpec_basicForm (spec : MethodSpec) :
    Method.ofSpec spec.basicForm = inBasicForm (Method.ofSpec spec) := by
  have hnames :
      declaredNames (Variable.basicForms spec.params ++ Variable.basicForms spec.results) =
        declaredNames (spec.params ++ spec.results) := by
    rw [← Variable.basicForms_append, declaredNames, Variable.map_name_basicForms, declaredNames]
  simp only [Method.ofSpec, MethodSpec.basicForm, hnames, nameVars_basicForms, inBasicForm_bind,
    inBasicForm_pure]

theorem methodsOfSpecs_basicForm (specs : List MethodSpec) :
    methodsOfSpecs (specs.map (·.basicForm)) = inBasicForm (methodsOfSpecs specs) := by
  induction specs with
  | nil => rfl
  | cons spec rest ih =>
    simp only [List.map_cons, methodsOfSpecs, Method.ofSpec_basicForm, ih, inBasicForm_bind,
      inBasicForm_pure]

/-! ## Introspection -/

namespace Package

variable {p q : Package} {name : String}

theorem introspect_basicForm (hpath : p.path ≠ "") (hany : ¬ p.ReachesNamedAny name) :
    p.basicForm.introspect name = inBasicForm (p.introspect name) := by
  rw [introspect, introspect, resolve_basicForm hpath]
  apply ofExcept_basicFormBy_bind
  intro members hresolve
  rw [inBasicForm_bind]
  apply congrArg
  funext qualifier
  rw [methodSet_basicForm hpath fun hreach => hany ⟨members, hresolve, hreach⟩]
  apply ofExcept_basicFormBy_bind
  intro specs _
  rw [methodsOfSpecs_basicForm, inBasicForm_bind]
  rfl

/-- What introspection finds in one package and in the other. -/
structure Interchangeable (p q : Package) : Prop where
  /-- Both succeed with the same interface and the same table, or neither succeeds. -/
  ok_iff : ∀ name table i table', ¬ p.ReachesNamedAny name → ¬ q.ReachesNamedAny name →
    (p.introspect name table = .ok i table' ↔ q.introspect name table = .ok i table')
  /-- Failures are of the same kind, and tell the two packages apart by nothing but the description
  of a predeclared type. -/
  failure : ∀ name table failure table', ¬ p.ReachesNamedAny name → ¬ q.ReachesNamedAny name →
    p.introspect name table = .error failure table' →
      ∃ failure', q.introspect name table = .error failure' table' ∧
        failure'.basicForm = failure.basicForm
  /-- Where the exception is met there is a failure. -/
  refused : ∀ name table, p.ReachesNamedAny name →
    ∃ failure table', p.introspect name table = .error failure table'

theorem introspect_refused (hpath : p.path ≠ "") (h : p.ReachesNamedAny name)
    (table : ImportTable) :
    ∃ failure table', p.introspect name table = .error failure table' := by
  cases hintrospect : p.introspect name table with
  | error failure table' => exact ⟨failure, table', rfl⟩
  | ok i table' =>
    obtain ⟨members, specs, _, hresolve, hset, -⟩ := p.introspect_eq_ok hintrospect
    obtain ⟨members', hresolve', hreach⟩ := h
    cases hresolve.symm.trans hresolve'
    obtain ⟨failure, hfailure⟩ := exists_failure_of_reaches hreach hpath
    cases hset.symm.trans hfailure

/-- **Descriptions of predeclared types.** -/
theorem interchangeable (hpath : p.path ≠ "") (h : p.basicForm = q.basicForm) :
    p.Interchangeable q := by
  have hpath' : q.path ≠ "" := by
    have hpaths : p.basicForm.path = q.basicForm.path := congrArg Package.path h
    exact fun hempty => hpath (hpaths.trans hempty)
  have hsame : ∀ name, ¬ p.ReachesNamedAny name → ¬ q.ReachesNamedAny name →
      inBasicForm (p.introspect name) = inBasicForm (q.introspect name) := by
    intro name hp hq
    rw [← introspect_basicForm hpath hp, h, introspect_basicForm hpath' hq]
  constructor
  case ok_iff =>
    intro name table i table' hp hq
    rw [← inBasicForm_eq_ok_iff, hsame name hp hq, inBasicForm_eq_ok_iff]
  case failure =>
    intro name table failure table' hp hq hfailure
    rw [← inBasicForm_eq_error_iff, ← hsame name hp hq, inBasicForm_eq_error_iff]
    exact ⟨failure, hfailure, rfl⟩
  case refused =>
    intro name table hreach
    exact introspect_refused hpath hreach table

/-- A package with an interface that embeds `any`. -/
def closers (any : SourceType) : Package where
  name := "repo"
  path := "example.com/app/repo"
  declarations := [.type "Store" [] (.interface [.embedded any, .method "Close" [] [] false])]

/-- The two descriptions of `any` cannot be interchanged where it is embedded. -/
theorem any_not_interchangeable :
    (closers (.basic "any")).basicForm = (closers namedAny).basicForm ∧
    (∃ i table', (closers (.basic "any")).introspect "Store" .empty = .ok i table' ∧
      i.methods.map (·.name) = ["Close"]) ∧
    ∃ table', (closers namedAny).introspect "Store" .empty =
      .error (.unsupported (.embedding namedAny)) table' := by
  refine ⟨rfl, ⟨_, _, rfl, rfl⟩, _, rfl⟩

end Package

end Interposer
