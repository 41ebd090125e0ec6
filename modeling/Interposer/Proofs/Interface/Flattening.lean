import Interposer.Proofs.Interface.Introspection
import Mathlib.Data.List.Chain
import Mathlib.Logic.Relation

/-! Embedded interfaces. The expansion of an interface has, in the place of every embedded element,
the methods that the element stands for, at any depth. A method set is the expansion with the
repeated names left out; there is one exactly if all elements can be expanded and no chain of them
is too long, which excludes interfaces that embed themselves. -/

namespace Interposer

/-- The predeclared `error`, in either of its descriptions. -/
def SourceType.IsError (t : SourceType) : Prop :=
  t = .basic "error" ∨ ∃ args, t = .named "" "error" args

namespace Package

variable {p : Package}

/-- `t` is the name of a local type, without type parameters, that is declared to be `inner`. -/
inductive Declares (p : Package) : SourceType → SourceType → Prop
  | definition {name declared : String} {inner : SourceType} :
      p.lookup? name = some (.type declared [] inner) →
      Declares p (.named p.path name []) inner
  | synonym {name declared : String} {inner : SourceType} :
      p.lookup? name = some (.typeAlias declared inner) →
      Declares p (.named p.path name []) inner

/-- To expand the first type is to expand the second, perhaps among others. -/
inductive Leads (p : Package) : SourceType → SourceType → Prop
  | embedded {members : List Member} {t : SourceType} :
      .embedded t ∈ members → Leads p (.interface members) t
  | declared {t inner : SourceType} : ¬ t.IsError → p.Declares t inner → Leads p t inner

/-- An element that can be expanded, what it leads to aside. -/
def Resolves (p : Package) (t : SourceType) : Prop :=
  (∃ members, t = .interface members) ∨ t.IsError ∨ t = .basic "any" ∨ ∃ inner, p.Declares t inner

/-- Members of an interface with all methods that they stand for. An embedded element is replaced by
the members of the interface that it is, or by what it is declared to be. -/
inductive Expansion (p : Package) : List Member → List MethodSpec → Prop
  | nil : Expansion p [] []
  | method {name : String} {params results : List Variable} {variadic : Bool} {rest : List Member}
      {specs : List MethodSpec} : Expansion p rest specs →
      Expansion p (.method name params results variadic :: rest)
        (⟨name, params, results, variadic⟩ :: specs)
  | interface {members rest : List Member} {specs : List MethodSpec} :
      Expansion p (members ++ rest) specs →
      Expansion p (.embedded (.interface members) :: rest) specs
  | declared {t inner : SourceType} {rest : List Member} {specs : List MethodSpec} :
      ¬ t.IsError → p.Declares t inner → Expansion p (.embedded inner :: rest) specs →
      Expansion p (.embedded t :: rest) specs
  | error {t : SourceType} {rest : List Member} {specs : List MethodSpec} :
      t.IsError → Expansion p rest specs →
      Expansion p (.embedded t :: rest)
        (⟨"Error", [], [.mk "" (.basic "string")], false⟩ :: specs)
  | any {rest : List Member} {specs : List MethodSpec} :
      Expansion p rest specs → Expansion p (.embedded (.basic "any") :: rest) specs

/-! ## One element -/

theorem isPredeclaredError_iff {t : SourceType} : t.isPredeclaredError = true ↔ t.IsError := by
  cases t <;> simp [SourceType.isPredeclaredError, SourceType.IsError]

theorem isAny_iff {t : SourceType} : t.isAny = true ↔ t = .basic "any" := by
  cases t <;> simp [SourceType.isAny]

theorem declares_iff {t inner : SourceType} :
    p.Declares t inner ↔ ∃ name, p.localName? t = some name ∧ p.definition? name = some inner := by
  constructor
  · rintro (hlookup | hlookup) <;>
      exact ⟨_, by simp [localName?]; rfl, by simp [definition?, hlookup]⟩
  · rintro ⟨name, hname, hdefinition⟩
    unfold localName? at hname
    split at hname
    · split at hname
      · next hlocal =>
        cases hname
        simp only [Bool.and_eq_true, beq_iff_eq, List.isEmpty_iff] at hlocal
        obtain ⟨rfl, rfl⟩ := hlocal
        unfold definition? at hdefinition
        split at hdefinition
        · next hlookup => cases hdefinition; exact .definition hlookup
        · next hlookup => cases hdefinition; exact .synonym hlookup
        · cases hdefinition
      · cases hname
    · cases hname

theorem Declares.unique {t inner inner' : SourceType} (h : p.Declares t inner)
    (h' : p.Declares t inner') : inner = inner' := by
  obtain ⟨name, hname, hdefinition⟩ := declares_iff.mp h
  obtain ⟨name', hname', hdefinition'⟩ := declares_iff.mp h'
  cases hname.symm.trans hname'
  cases hdefinition.symm.trans hdefinition'
  rfl

theorem expandEmbedded_of_ne_interface {t : SourceType} (h : ∀ members, t ≠ .interface members)
    (steps : Nat) : p.expandEmbedded (steps + 1) t =
      if t.isPredeclaredError then .ok [errorMethod]
      else if t.isAny then .ok []
      else
        match p.localName? t with
        | none => .error (.unsupported (.embedding t))
        | some name =>
          match p.definition? name with
          | some inner => p.expandEmbedded steps inner
          | none => .error (.notFound name p.path) := by
  cases t with
  | interface members => exact (h members rfl).elim
  | _ => rfl

/-- All that can come of an element. -/
theorem expandEmbedded_cases (p : Package) (steps : Nat) (t : SourceType) :
    (∃ members, t = .interface members ∧
      p.expandEmbedded (steps + 1) t = expandMembers (p.expandEmbedded steps) members) ∨
    (t.IsError ∧ p.expandEmbedded (steps + 1) t = .ok [errorMethod]) ∨
    (t = .basic "any" ∧ p.expandEmbedded (steps + 1) t = .ok []) ∨
    (∃ inner, ¬ t.IsError ∧ p.Declares t inner ∧
      p.expandEmbedded (steps + 1) t = p.expandEmbedded steps inner) ∨
    (¬ p.Resolves t ∧ ∃ failure, p.expandEmbedded (steps + 1) t = .error failure) := by
  by_cases hinterface : ∃ members, t = .interface members
  · obtain ⟨members, rfl⟩ := hinterface
    exact .inl ⟨members, rfl, rfl⟩
  rw [expandEmbedded_of_ne_interface (not_exists.mp hinterface)]
  by_cases herror : t.IsError
  · exact .inr (.inl ⟨herror, if_pos (isPredeclaredError_iff.mpr herror)⟩)
  rw [if_neg (mt isPredeclaredError_iff.mp herror)]
  by_cases hany : t = .basic "any"
  · exact .inr (.inr (.inl ⟨hany, if_pos (isAny_iff.mpr hany)⟩))
  rw [if_neg (mt isAny_iff.mp hany)]
  have hresolves : p.Resolves t → ∃ inner, p.Declares t inner := fun h =>
    ((h.resolve_left hinterface).resolve_left herror).resolve_left hany
  cases hname : p.localName? t with
  | none =>
    refine .inr (.inr (.inr (.inr ⟨fun h => ?_, _, rfl⟩)))
    obtain ⟨inner, hdeclares⟩ := hresolves h
    obtain ⟨name, hsome, -⟩ := declares_iff.mp hdeclares
    exact nomatch hname.symm.trans hsome
  | some name =>
    cases hdefinition : p.definition? name with
    | some inner =>
      have hdeclares := declares_iff.mpr ⟨name, hname, hdefinition⟩
      exact .inr (.inr (.inr (.inl ⟨inner, herror, hdeclares, by simp [hdefinition]⟩)))
    | none =>
      refine .inr (.inr (.inr (.inr ⟨fun h => ?_, _, by simp only [hdefinition]; rfl⟩)))
      obtain ⟨inner, hdeclares⟩ := hresolves h
      obtain ⟨name', hname', hsome⟩ := declares_iff.mp hdeclares
      cases hname.symm.trans hname'
      exact nomatch hdefinition.symm.trans hsome

/-! ## Whether there is an expansion -/

theorem leads_interface_iff {members : List Member} {t : SourceType} :
    p.Leads (.interface members) t ↔ .embedded t ∈ members := by
  constructor
  · rintro (hmem | ⟨-, hdeclares⟩)
    · exact hmem
    · cases hdeclares
  · exact .embedded

theorem leads_iff_declares {t inner t' : SourceType} (herror : ¬ t.IsError)
    (hdeclares : p.Declares t inner) : p.Leads t t' ↔ t' = inner := by
  constructor
  · rintro (hmem | ⟨-, hdeclares'⟩)
    · cases hdeclares
    · exact hdeclares'.unique hdeclares
  · rintro rfl
    exact .declared herror hdeclares

theorem not_leads_of_isError {t t' : SourceType} (herror : t.IsError) : ¬ p.Leads t t' := by
  rintro (hmem | ⟨hnot, -⟩)
  · simp [SourceType.IsError] at herror
  · exact hnot herror

theorem not_leads_any {t : SourceType} : ¬ p.Leads (.basic "any") t := by
  rintro (_ | ⟨-, hdeclares⟩)
  cases hdeclares

def Succeeds {α : Type} (x : Except Failure α) : Prop := ∃ a, x = .ok a

theorem expandMembers_succeeds_iff {embedded : SourceType → Except Failure (List MethodSpec)}
    {members : List Member} : Succeeds (expandMembers embedded members) ↔
      ∀ t, .embedded t ∈ members → Succeeds (embedded t) := by
  induction members with
  | nil => exact iff_of_true ⟨[], rfl⟩ nofun
  | cons member rest ih =>
    cases member with
    | method name params results variadic =>
      simp only [List.mem_cons, reduceCtorEq, false_or, ← ih, expandMembers]
      cases expandMembers embedded rest <;> simp [Succeeds, bind, Except.bind]
    | embedded t =>
      simp only [List.mem_cons, Member.embedded.injEq, forall_eq_or_imp, ← ih, expandMembers]
      cases embedded t <;> cases expandMembers embedded rest <;>
        simp [Succeeds, bind, Except.bind]

/-- An element can be expanded in some steps if it can be expanded at all, and what it leads to can
be expanded in one step less. -/
theorem expandEmbedded_succ_succeeds_iff {steps : Nat} {t : SourceType} :
    Succeeds (p.expandEmbedded (steps + 1) t) ↔
      p.Resolves t ∧ ∀ t', p.Leads t t' → Succeeds (p.expandEmbedded steps t') := by
  rcases p.expandEmbedded_cases steps t with ⟨members, rfl, heq⟩ | ⟨herror, heq⟩ | ⟨rfl, heq⟩ |
    ⟨inner, herror, hdeclares, heq⟩ | ⟨hnot, failure, heq⟩
  · simp only [heq, expandMembers_succeeds_iff, leads_interface_iff]
    exact (and_iff_right (.inl ⟨members, rfl⟩)).symm
  · rw [heq]
    exact iff_of_true ⟨_, rfl⟩ ⟨.inr (.inl herror), fun _ h => (not_leads_of_isError herror h).elim⟩
  · rw [heq]
    exact iff_of_true ⟨_, rfl⟩ ⟨.inr (.inr (.inl rfl)), fun _ h => (not_leads_any h).elim⟩
  · simp only [heq, leads_iff_declares herror hdeclares, forall_eq]
    exact (and_iff_right (.inr (.inr (.inr ⟨inner, hdeclares⟩)))).symm
  · rw [heq]
    exact iff_of_false (fun ⟨_, h⟩ => nomatch h) fun h => hnot h.1

/-- Within some steps an element can be expanded if all elements that it reaches can be, and there
are fewer than `steps` on every way from it. -/
theorem expandEmbedded_succeeds_iff {steps : Nat} {t : SourceType} :
    Succeeds (p.expandEmbedded steps t) ↔
      (∀ t', Relation.ReflTransGen p.Leads t t' → p.Resolves t') ∧
        ∀ chain, (t :: chain).IsChain p.Leads → chain.length < steps := by
  induction steps generalizing t with
  | zero =>
    refine iff_of_false (fun ⟨_, h⟩ => nomatch h) fun h => ?_
    exact Nat.not_lt_zero _ (h.2 [] (.singleton t))
  | succ steps ih =>
    rw [expandEmbedded_succ_succeeds_iff]
    simp only [ih]
    constructor
    · rintro ⟨hresolves, hleads⟩
      refine ⟨fun t' hreach => ?_, fun chain hchain => ?_⟩
      · rcases hreach.cases_head with rfl | ⟨t₁, hlead, hreach⟩
        · exact hresolves
        · exact (hleads t₁ hlead).1 t' hreach
      · cases hchain with
        | singleton => exact Nat.succ_pos steps
        | cons_cons hlead hchain => exact Nat.succ_lt_succ ((hleads _ hlead).2 _ hchain)
    · rintro ⟨hresolves, hchains⟩
      refine ⟨hresolves t .refl, fun t' hlead => ⟨fun t'' hreach => ?_, fun chain hchain => ?_⟩⟩
      · exact hresolves t'' (.head hlead hreach)
      · exact Nat.lt_of_succ_lt_succ (hchains (t' :: chain) (.cons_cons hlead hchain))

/-! ## What the expansion is -/

theorem expandMembers_method_eq_ok {embedded : SourceType → Except Failure (List MethodSpec)}
    {name : String} {params results : List Variable} {variadic : Bool} {rest : List Member}
    {specs : List MethodSpec}
    (h : expandMembers embedded (.method name params results variadic :: rest) = .ok specs) :
    ∃ others, expandMembers embedded rest = .ok others ∧
      specs = ⟨name, params, results, variadic⟩ :: others := by
  rw [expandMembers] at h
  cases hrest : expandMembers embedded rest with
  | error failure => rw [hrest] at h; cases h
  | ok others => rw [hrest] at h; cases h; exact ⟨others, rfl, rfl⟩

theorem expandMembers_embedded_eq_ok {embedded : SourceType → Except Failure (List MethodSpec)}
    {t : SourceType} {rest : List Member} {specs : List MethodSpec}
    (h : expandMembers embedded (.embedded t :: rest) = .ok specs) :
    ∃ inner others, embedded t = .ok inner ∧ expandMembers embedded rest = .ok others ∧
      specs = inner ++ others := by
  rw [expandMembers] at h
  cases ht : embedded t with
  | error failure => rw [ht] at h; cases h
  | ok inner =>
    cases hrest : expandMembers embedded rest with
    | error failure => rw [ht, hrest] at h; cases h
    | ok others => rw [ht, hrest] at h; cases h; exact ⟨inner, others, rfl, rfl, rfl⟩

theorem expansion_of_expandMembers {embedded : SourceType → Except Failure (List MethodSpec)}
    (hembedded : ∀ t inner rest specs', embedded t = .ok inner → p.Expansion rest specs' →
      p.Expansion (.embedded t :: rest) (inner ++ specs'))
    {members rest : List Member} {specs specs' : List MethodSpec}
    (h : expandMembers embedded members = .ok specs) (hrest : p.Expansion rest specs') :
    p.Expansion (members ++ rest) (specs ++ specs') := by
  induction members generalizing specs with
  | nil => cases h; exact hrest
  | cons member members ih =>
    cases member with
    | method name params results variadic =>
      obtain ⟨others, hmembers, rfl⟩ := expandMembers_method_eq_ok h
      exact .method (ih hmembers)
    | embedded t =>
      obtain ⟨inner, others, ht, hmembers, rfl⟩ := expandMembers_embedded_eq_ok h
      rw [List.append_assoc]
      exact hembedded t inner _ _ ht (ih hmembers)

/-- What is found in some steps is the expansion. -/
theorem expansion_of_expandEmbedded {steps : Nat} {t : SourceType} {specs specs' : List MethodSpec}
    {rest : List Member} (h : p.expandEmbedded steps t = .ok specs)
    (hrest : p.Expansion rest specs') : p.Expansion (.embedded t :: rest) (specs ++ specs') := by
  induction steps generalizing t specs specs' rest with
  | zero => cases h
  | succ steps ih =>
    rcases p.expandEmbedded_cases steps t with ⟨members, rfl, heq⟩ | ⟨herror, heq⟩ | ⟨rfl, heq⟩ |
      ⟨inner, herror, hdeclares, heq⟩ | ⟨-, failure, heq⟩ <;> rw [heq] at h
    · exact .interface (expansion_of_expandMembers (fun _ _ _ _ ht => ih ht) h hrest)
    · cases h; exact .error herror hrest
    · cases h; exact .any hrest
    · exact .declared herror hdeclares (ih h hrest)
    · cases h

theorem Expansion.unique {members : List Member} {specs specs' : List MethodSpec}
    (h : p.Expansion members specs) (h' : p.Expansion members specs') : specs = specs' := by
  induction h generalizing specs' with
  | nil => cases h'; rfl
  | method _ ih =>
    cases h' with
    | method h' => rw [ih h']
  | interface _ ih =>
    cases h' with
    | interface h' => exact ih h'
    | declared _ hdeclares => cases hdeclares
    | error herror => simp [SourceType.IsError] at herror
  | declared herror hdeclares _ ih =>
    cases h' with
    | interface => cases hdeclares
    | declared _ hdeclares' h' => exact ih (hdeclares.unique hdeclares' ▸ h')
    | error herror' => exact (herror herror').elim
    | any => cases hdeclares
  | error herror _ ih =>
    cases h' with
    | interface => simp [SourceType.IsError] at herror
    | declared herror' => exact (herror' herror).elim
    | error _ h' => rw [ih h']
    | any => simp [SourceType.IsError] at herror
  | any _ ih =>
    cases h' with
    | declared _ hdeclares => cases hdeclares
    | error herror => simp [SourceType.IsError] at herror
    | any h' => exact ih h'

end Package

/-! ## The first method of each name -/

/-- The methods found so far, with one more unless its name is among theirs. -/
def addNew (found : List MethodSpec) (m : MethodSpec) : List MethodSpec :=
  if m.name ∈ found.map (·.name) then found else found ++ [m]

theorem foldl_addNew (specs found : List MethodSpec) : specs.foldl addNew found =
    found ++ (firstOfEachName specs).filter fun m => m.name ∉ found.map (·.name) := by
  induction specs generalizing found with
  | nil => exact (List.append_nil found).symm
  | cons m rest ih =>
    rw [List.foldl_cons, ih, addNew, firstOfEachName]
    split
    · next hmem =>
      rw [List.filter_cons_of_neg (by simpa using hmem), List.filter_filter]
      refine congrArg (found ++ ·) (List.filter_congr fun m' _ => ?_)
      -- A method named like one of those found is not named like `m`, which is not among them.
      by_cases heq : m'.name = m.name
      · simp [heq, List.mem_map.mp hmem]
      · simp [heq]
    · next hnot =>
      rw [List.filter_cons_of_pos (by simpa using hnot), List.filter_filter, List.append_assoc]
      refine congrArg (found ++ ·) (congrArg (m :: ·) (List.filter_congr fun m' _ => ?_))
      simp only [List.map_append, List.map_cons, List.map_nil, List.mem_append,
        List.mem_singleton, not_or, Bool.decide_and, decide_not, bne, beq_eq_decide]

theorem firstOfEachName_eq_foldl (specs : List MethodSpec) :
    firstOfEachName specs = specs.foldl addNew [] := by
  rw [foldl_addNew]
  simp

theorem name_mem_firstOfEachName {specs : List MethodSpec} {m : MethodSpec} (h : m ∈ specs) :
    m.name ∈ (firstOfEachName specs).map (·.name) := by
  induction specs with
  | nil => exact (List.not_mem_nil h).elim
  | cons first rest ih =>
    rw [firstOfEachName, List.map_cons, List.mem_cons]
    rcases List.mem_cons.mp h with rfl | h
    · exact .inl rfl
    by_cases hname : m.name = first.name
    · exact .inl hname
    · obtain ⟨m', hm', heq⟩ := List.mem_map.mp (ih h)
      exact .inr (List.mem_map.mpr ⟨m', List.mem_filter.mpr ⟨hm', by simpa [heq] using hname⟩, heq⟩)

theorem firstOfEachName_sublist (specs : List MethodSpec) :
    (firstOfEachName specs).Sublist specs := by
  induction specs with
  | nil => exact .slnil
  | cons first rest ih => exact (List.filter_sublist.trans ih).cons_cons first

/-- No earlier method has the name of one that is kept. -/
theorem exists_first_of_mem {specs : List MethodSpec} {m : MethodSpec}
    (h : m ∈ firstOfEachName specs) :
    ∃ before after, specs = before ++ m :: after ∧ m.name ∉ before.map (·.name) := by
  induction specs with
  | nil => exact (List.not_mem_nil h).elim
  | cons first rest ih =>
    rcases List.mem_cons.mp h with rfl | h
    · exact ⟨[], rest, rfl, List.not_mem_nil⟩
    · obtain ⟨hmem, hname⟩ := List.mem_filter.mp h
      obtain ⟨before, after, rfl, hnot⟩ := ih hmem
      refine ⟨first :: before, after, rfl, ?_⟩
      rw [List.map_cons, List.mem_cons, not_or]
      exact ⟨by simpa using hname, hnot⟩

/-! ## One pass -/

/-- The methods of an interface body, each added to those found before unless its name is taken. -/
def collectMembers
    (embedded : SourceType → List MethodSpec → Except Failure (List MethodSpec)) :
    List Member → List MethodSpec → Except Failure (List MethodSpec)
  | [], found => .ok found
  | .method name params results variadic :: rest, found =>
    collectMembers embedded rest (addNew found ⟨name, params, results, variadic⟩)
  | .embedded type :: rest, found => do
    let found ← embedded type found
    collectMembers embedded rest found

def Package.collectEmbedded (p : Package) :
    (steps : Nat) → SourceType → List MethodSpec → Except Failure (List MethodSpec)
  | 0, _, _ => .error (.unsupported .embeddingDepth)
  | steps + 1, type, found =>
    match type with
    | .interface members => collectMembers (p.collectEmbedded steps) members found
    | type =>
      if type.isPredeclaredError then .ok (addNew found errorMethod)
      else if type.isAny then .ok found
      else
        match p.localName? type with
        | none => .error (.unsupported (.embedding type))
        | some name =>
          match p.definition? name with
          | some inner => p.collectEmbedded steps inner found
          | none => .error (.notFound name p.path)

theorem collectMembers_eq
    {collect : SourceType → List MethodSpec → Except Failure (List MethodSpec)}
    {expand : SourceType → Except Failure (List MethodSpec)}
    (h : ∀ t found, collect t found = (expand t).map (·.foldl addNew found))
    (members : List Member) (found : List MethodSpec) :
    collectMembers collect members found =
      (expandMembers expand members).map (·.foldl addNew found) := by
  induction members generalizing found with
  | nil => rfl
  | cons member rest ih =>
    cases member with
    | method name params results variadic =>
      rw [collectMembers, ih, expandMembers]
      cases expandMembers expand rest <;> rfl
    | embedded t =>
      rw [collectMembers, h, expandMembers]
      cases expand t with
      | error failure => rfl
      | ok inner =>
        have hrest := ih (inner.foldl addNew found)
        cases hexpand : expandMembers expand rest with
        | error failure => rw [hexpand] at hrest; exact hrest
        | ok others =>
          rw [hexpand] at hrest
          exact hrest.trans (congrArg Except.ok List.foldl_append.symm)

theorem Package.collectEmbedded_of_ne_interface {p : Package} {t : SourceType}
    (h : ∀ members, t ≠ .interface members) (steps : Nat) (found : List MethodSpec) :
    p.collectEmbedded (steps + 1) t found =
      if t.isPredeclaredError then .ok (addNew found errorMethod)
      else if t.isAny then .ok found
      else
        match p.localName? t with
        | none => .error (.unsupported (.embedding t))
        | some name =>
          match p.definition? name with
          | some inner => p.collectEmbedded steps inner found
          | none => .error (.notFound name p.path) := by
  cases t with
  | interface members => exact (h members rfl).elim
  | _ => rfl

theorem Package.collectEmbedded_eq (p : Package) (steps : Nat) (t : SourceType)
    (found : List MethodSpec) : p.collectEmbedded steps t found =
      (p.expandEmbedded steps t).map (·.foldl addNew found) := by
  induction steps generalizing t found with
  | zero => rfl
  | succ steps ih =>
    by_cases hinterface : ∃ members, t = .interface members
    · obtain ⟨members, rfl⟩ := hinterface
      exact collectMembers_eq ih members found
    have hne := not_exists.mp hinterface
    rw [collectEmbedded_of_ne_interface hne, expandEmbedded_of_ne_interface hne]
    split
    · rfl
    split
    · rfl
    cases p.localName? t with
    | none => rfl
    | some name =>
      dsimp only
      cases p.definition? name with
      | none => rfl
      | some inner => exact ih inner found

/-! ## Method sets -/

/-- The method set of an interface body is its expansion without repeated names. Elements of the
body itself are at depth zero, and each element is one deeper than the one that leads to it. -/
structure Package.Flattens (p : Package) (members : List Member) : Prop where
  succeeds_iff : (∃ specs, p.methodSet members = .ok specs) ↔
    (∀ t, Relation.ReflTransGen p.Leads (.interface members) t → p.Resolves t) ∧
      ∀ t deeper, (.interface members :: t :: deeper).IsChain p.Leads → deeper.length ≤ maxDepth
  expansion : ∀ specs, p.methodSet members = .ok specs →
    ∃ expansion, (∀ methods, p.Expansion members methods ↔ methods = expansion) ∧
      specs = expansion.foldl addNew []
  nodup : ∀ specs, p.methodSet members = .ok specs → (specs.map (·.name)).Nodup
  /-- Every name is there, and each method stands where its name comes first. -/
  complete : ∀ specs expansion, p.methodSet members = .ok specs → p.Expansion members expansion →
    specs.Sublist expansion ∧ (∀ m ∈ expansion, m.name ∈ specs.map (·.name)) ∧
      ∀ m ∈ specs, ∃ before after, expansion = before ++ m :: after ∧
        m.name ∉ before.map (·.name)
  cyclic : ∀ t, Relation.ReflTransGen p.Leads (.interface members) t →
    Relation.TransGen p.Leads t t → ∃ failure, p.methodSet members = .error failure
  onePass : p.methodSet members = collectMembers (p.collectEmbedded (maxDepth + 1)) members []

namespace Package

variable {p : Package} {members : List Member}

theorem methodSet_eq_map (p : Package) (members : List Member) : p.methodSet members =
    (p.expandEmbedded (maxDepth + 2) (.interface members)).map firstOfEachName := by
  rw [methodSet, expandEmbedded]
  cases expandMembers (p.expandEmbedded (maxDepth + 1)) members <;> rfl

theorem methodSet_succeeds_iff : (∃ specs, p.methodSet members = .ok specs) ↔
    (∀ t, Relation.ReflTransGen p.Leads (.interface members) t → p.Resolves t) ∧
      ∀ t deeper, (.interface members :: t :: deeper).IsChain p.Leads →
        deeper.length ≤ maxDepth := by
  have hmap : (∃ specs, p.methodSet members = .ok specs) ↔
      Succeeds (p.expandEmbedded (maxDepth + 2) (.interface members)) := by
    rw [methodSet_eq_map]
    cases p.expandEmbedded (maxDepth + 2) (.interface members) <;> simp [Succeeds, Except.map]
  rw [hmap, expandEmbedded_succeeds_iff]
  refine and_congr_right' ⟨fun h t deeper hchain => ?_, fun h chain hchain => ?_⟩
  · exact Nat.lt_succ_iff.mp (Nat.lt_of_succ_lt_succ (h (t :: deeper) hchain))
  · cases chain with
    | nil => exact Nat.succ_pos _
    | cons t deeper => exact Nat.succ_lt_succ (Nat.lt_succ_iff.mpr (h t deeper hchain))

theorem methodSet_eq_ok {specs : List MethodSpec} (h : p.methodSet members = .ok specs) :
    ∃ expansion, p.Expansion members expansion ∧ specs = firstOfEachName expansion := by
  rw [methodSet] at h
  cases hmembers : expandMembers (p.expandEmbedded (maxDepth + 1)) members with
  | error failure => rw [hmembers] at h; cases h
  | ok expansion =>
    rw [hmembers] at h
    cases h
    have hexpansion := expansion_of_expandMembers
      (fun _ _ _ _ => expansion_of_expandEmbedded) hmembers .nil
    exact ⟨expansion, by simpa using hexpansion, rfl⟩

/-- A method set is the one expansion of the members, without repeated names. -/
theorem expansion_of_methodSet {specs : List MethodSpec} (h : p.methodSet members = .ok specs) :
    ∃ expansion, (∀ methods, p.Expansion members methods ↔ methods = expansion) ∧
      specs = expansion.foldl addNew [] := by
  obtain ⟨expansion, hexpansion, rfl⟩ := methodSet_eq_ok h
  refine ⟨expansion, fun methods => ⟨fun h => h.unique hexpansion, ?_⟩,
    firstOfEachName_eq_foldl expansion⟩
  rintro rfl
  exact hexpansion

/-- Chains from an element are at least as long as those from an element that it reaches. -/
theorem exists_chain_of_reflTransGen {t t' : SourceType} {n : Nat}
    (hreach : Relation.ReflTransGen p.Leads t t')
    (h : ∃ chain, (t' :: chain).IsChain p.Leads ∧ n ≤ chain.length) :
    ∃ chain, (t :: chain).IsChain p.Leads ∧ n ≤ chain.length := by
  induction hreach using Relation.ReflTransGen.head_induction_on with
  | refl => exact h
  | head hlead _ ih =>
    obtain ⟨chain, hchain, hlength⟩ := ih
    exact ⟨_ :: chain, .cons_cons hlead hchain, Nat.le_succ_of_le hlength⟩

/-- An element that leads back to itself is on chains of any length. -/
theorem exists_chain_of_transGen {t : SourceType} (h : Relation.TransGen p.Leads t t) (n : Nat) :
    ∃ chain, (t :: chain).IsChain p.Leads ∧ n ≤ chain.length := by
  obtain ⟨t', hlead, hreach⟩ := Relation.TransGen.head'_iff.mp h
  induction n with
  | zero => exact ⟨[], .singleton t, Nat.zero_le _⟩
  | succ n ih =>
    obtain ⟨chain, hchain, hlength⟩ := exists_chain_of_reflTransGen hreach ih
    exact ⟨t' :: chain, .cons_cons hlead hchain, Nat.succ_le_succ hlength⟩

/-- **Method sets of interfaces that embed others.** -/
theorem methodSet_flattens (p : Package) (members : List Member) : p.Flattens members where
  succeeds_iff := methodSet_succeeds_iff
  expansion _ := expansion_of_methodSet
  nodup specs := p.nodup_methodSet
  complete specs expansion h hexpansion := by
    obtain ⟨expansion', hexpansion', rfl⟩ := methodSet_eq_ok h
    obtain rfl := hexpansion.unique hexpansion'
    exact ⟨firstOfEachName_sublist _, fun m => name_mem_firstOfEachName,
      fun m => exists_first_of_mem⟩
  cyclic t hreach hcycle := by
    cases hset : p.methodSet members with
    | error failure => exact ⟨failure, rfl⟩
    | ok specs =>
      obtain ⟨chain, hchain, hlength⟩ := exists_chain_of_reflTransGen hreach
        (exists_chain_of_transGen hcycle (maxDepth + 2))
      match chain with
      | [] => cases hlength
      | t' :: deeper =>
        have hshort := (methodSet_succeeds_iff.mp ⟨specs, hset⟩).2 t' deeper hchain
        exact (Nat.not_succ_le_self _ ((Nat.le_of_succ_le_succ hlength).trans hshort)).elim
  onePass := by
    rw [collectMembers_eq (p.collectEmbedded_eq (maxDepth + 1)), methodSet]
    cases expandMembers (p.expandEmbedded (maxDepth + 1)) members with
    | error failure => rfl
    | ok expansion => exact congrArg Except.ok (firstOfEachName_eq_foldl expansion)

end Package

end Interposer
