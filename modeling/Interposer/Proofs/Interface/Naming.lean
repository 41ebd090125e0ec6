import Interposer.Interface.Naming
import Interposer.Proofs.SignatureType.Conversion

/-! Names of parameters and results. They are settled in two passes: blank names are filled in, and
then names that are aliases are changed. Both passes keep some names and replace the others by
fresh ones (`Relabelled`), and whatever is said about names follows from that alone. -/

namespace Interposer

/-- Names of which those that fail `keep` are replaced, one after another, by names that pass it
and that are not taken. The replacements are taken from then on. -/
inductive Relabelled (keep : String → Bool) :
    List String → List String → List String → List String → Prop
  | nil : Relabelled keep taken [] [] taken
  | kept : keep name = true → Relabelled keep taken names names' taken' →
    Relabelled keep taken (name :: names) (name :: names') taken'
  | fresh : keep name = false → keep name' = true → name' ∉ taken →
    Relabelled keep (name' :: taken) names names' taken' →
    Relabelled keep taken (name :: names) (name' :: names') taken'

namespace Relabelled

variable {keep : String → Bool} {taken taken' taken'' names names' : List String}

theorem append {more more' : List String} (h : Relabelled keep taken names names' taken')
    (h' : Relabelled keep taken' more more' taken'') :
    Relabelled keep taken (names ++ more) (names' ++ more') taken'' := by
  induction h with
  | nil => exact h'
  | kept hkeep _ ih => exact .kept hkeep (ih h')
  | fresh hdrop hkeep hnew _ ih => exact .fresh hdrop hkeep hnew (ih h')

theorem keep_of_mem (h : Relabelled keep taken names names' taken') :
    ∀ name ∈ names', keep name = true := by
  induction h with
  | nil => exact nofun
  | kept hkeep _ ih => exact List.forall_mem_cons.mpr ⟨hkeep, ih⟩
  | fresh _ hkeep _ _ ih => exact List.forall_mem_cons.mpr ⟨hkeep, ih⟩

theorem same_of_keep (h : Relabelled keep taken names names' taken') :
    List.Forall₂ (fun name name' => keep name = true → name' = name) names names' := by
  induction h with
  | nil => exact .nil
  | kept _ _ ih => exact .cons (fun _ => rfl) ih
  | fresh hdrop _ _ _ ih => exact .cons (fun hkeep => by simp [hdrop] at hkeep) ih

/-- A name that both of two passes keep comes through unchanged. -/
theorem same_of_keep_keep {keep' : String → Bool} {avoid avoid' names'' : List String}
    (h : Relabelled keep taken names names' taken')
    (h' : Relabelled keep' avoid names' names'' avoid') :
    List.Forall₂ (fun name name'' => keep name = true → keep' name = true → name'' = name)
      names names'' := by
  have hsame := h.same_of_keep
  have hsame' := h'.same_of_keep
  clear h h'
  induction hsame generalizing names'' with
  | nil => cases hsame'; exact .nil
  | cons hfirst _ ih =>
    obtain _ | ⟨hsecond, hrest⟩ := hsame'
    refine .cons (fun hkeep hkeep' => ?_) (ih hrest)
    rw [← hfirst hkeep] at hkeep' ⊢
    exact hsecond hkeep'

/-- A name is either kept or new. -/
theorem mem_filter_or_not_mem (h : Relabelled keep taken names names' taken') {name : String}
    (hmem : name ∈ names') : name ∈ names.filter keep ∨ name ∉ taken := by
  induction h with
  | nil => exact (List.not_mem_nil hmem).elim
  | kept hkeep _ ih =>
    rw [List.filter_cons_of_pos hkeep]
    rcases List.mem_cons.mp hmem with rfl | hmem
    · exact .inl List.mem_cons_self
    · exact (ih hmem).imp_left (List.mem_cons_of_mem _)
  | fresh hdrop _ hnew _ ih =>
    rw [List.filter_cons_of_neg (by simp [hdrop])]
    rcases List.mem_cons.mp hmem with rfl | hmem
    · exact .inr hnew
    · exact (ih hmem).imp_right fun hnot htaken => hnot (List.mem_cons_of_mem _ htaken)

/-- If the kept names are taken from the start and different from each other, then so are all
names in the end: a later name is kept or new, and new names avoid the kept ones. -/
theorem nodup (h : Relabelled keep taken names names' taken') (htaken : names.filter keep ⊆ taken)
    (hnodup : (names.filter keep).Nodup) : names'.Nodup := by
  induction h with
  | nil => exact List.nodup_nil
  | kept hkeep h ih =>
    rw [List.filter_cons_of_pos hkeep] at htaken hnodup
    obtain ⟨hnot, hnodup⟩ := List.nodup_cons.mp hnodup
    obtain ⟨hhead, htail⟩ := List.cons_subset.mp htaken
    refine List.nodup_cons.mpr ⟨fun hmem => ?_, ih htail hnodup⟩
    exact (h.mem_filter_or_not_mem hmem).elim hnot fun hnew => hnew hhead
  | fresh hdrop _ hnew h ih =>
    rw [List.filter_cons_of_neg (by simp [hdrop])] at htaken hnodup
    refine List.nodup_cons.mpr ⟨fun hmem => ?_, ih ?_ hnodup⟩
    · refine (h.mem_filter_or_not_mem hmem).elim (fun hkept => hnew (htaken hkept)) ?_
      exact fun hnot => hnot List.mem_cons_self
    · exact fun _ hmem => List.mem_cons_of_mem _ (htaken hmem)

end Relabelled

/-! ## Blank names -/

theorem isBlankName_eq_false_iff {name : String} :
    isBlankName name = false ↔ name ≠ "" ∧ name ≠ "_" := by
  simp [isBlankName]

theorem isBlankName_append_underscores {name : String} (h : isBlankName name = false) (n : Nat) :
    isBlankName (name ++ underscores n) = false := by
  rw [isBlankName_eq_false_iff] at h ⊢
  have hlength : (name ++ underscores n).length = name.length + n := by simp [underscores]
  have hname : name.length ≠ 0 := fun hzero => h.1 (String.length_eq_zero_iff.mp hzero)
  refine ⟨fun heq => ?_, fun heq => ?_⟩ <;> rw [heq] at hlength
  · have hzero : name.length + n = 0 := hlength.symm
    omega
  · have hone : name.length + n = 1 := hlength.symm
    obtain rfl : n = 0 := by omega
    exact h.2 (by simpa [underscores] using heq)

theorem isBlankName_freshAfter {name : String} (h : isBlankName name = false)
    (taken : List String) : isBlankName (freshAfter taken name) = false := by
  obtain ⟨n, hn⟩ := freshAfter_eq_append taken name
  exact hn ▸ isBlankName_append_underscores h n

theorem isBlankName_append_toString {letter : String} (hlength : letter.length = 1) (i : Nat) :
    isBlankName (letter ++ toString i) = false := by
  rw [isBlankName_eq_false_iff]
  have hdigits : (toString i).length ≠ 0 := fun hzero =>
    ImportTable.toString_nat_ne_empty i (String.length_eq_zero_iff.mp hzero)
  have htotal : (letter ++ toString i).length = 1 + (toString i).length := by
    rw [String.length_append, hlength]
  refine ⟨fun heq => ?_, fun heq => ?_⟩ <;> rw [heq] at htotal
  · have hzero : 0 = 1 + (toString i).length := htotal
    omega
  · have hone : 1 = 1 + (toString i).length := htotal
    omega

theorem isBlankName_syntheticParam (i : Nat) (isLast : Bool) (type : SignatureType) :
    isBlankName (syntheticParam i isLast type) = false :=
  isBlankName_append_toString rfl i

theorem isBlankName_syntheticResult (i : Nat) (isLast : Bool) (type : SignatureType) :
    isBlankName (syntheticResult i isLast type) = false := by
  unfold syntheticResult
  split
  · rfl
  · exact isBlankName_append_toString rfl i

/-! ## Filling in blank names -/

/-- One name of a signature: kept if it is declared, else a fresh one that is not blank. -/
theorem nameOr_relabelled {synthetic declared : String} {taken taken' : List String}
    {names names' : List String} (hsynthetic : isBlankName synthetic = false)
    (h : Relabelled (!isBlankName ·) (nameOr synthetic declared taken).2 names names' taken') :
    Relabelled (!isBlankName ·) taken (declared :: names)
      ((nameOr synthetic declared taken).1 :: names') taken' := by
  unfold nameOr at h ⊢
  split at h
  · next hblank =>
    rw [if_pos hblank]
    exact .fresh (by simp [hblank]) (by simp [isBlankName_freshAfter hsynthetic])
      (freshAfter_not_mem taken synthetic) h
  · next hblank =>
    rw [if_neg hblank]
    exact .kept (by simpa using hblank) h

/-- The first pass converts the types and fills in the blank names. -/
theorem nameVars_eq_ok {synthetic : Nat → Bool → SignatureType → String}
    (hsynthetic : ∀ i isLast type, isBlankName (synthetic i isLast type) = false) {i : Nat}
    {taken taken' : List String} {vars : List Variable} {named : List Parameter}
    {table table' : ImportTable}
    (h : nameVars synthetic i taken vars table = .ok (named, taken') table') :
    SignatureType.ofVariables vars table = .ok (named.map (·.type)) table' ∧
      Relabelled (!isBlankName ·) taken (vars.map (·.name)) (named.map (·.name)) taken' := by
  induction vars generalizing i taken table named with
  | nil =>
    obtain ⟨heq, rfl⟩ := Importing.pure_eq_ok.mp h
    cases heq
    exact ⟨rfl, .nil⟩
  | cons v rest ih =>
    obtain ⟨declared, type⟩ := v
    obtain ⟨converted, table₁, htype, h⟩ := Importing.bind_eq_ok.mp h
    obtain ⟨⟨named', _⟩, table₂, hrest, h⟩ := Importing.bind_eq_ok.mp h
    obtain ⟨heq, rfl⟩ := Importing.pure_eq_ok.mp h
    cases heq
    obtain ⟨hconv, hnames⟩ := ih hrest
    refine ⟨Importing.bind_eq_ok.mpr ⟨_, _, htype, Importing.bind_eq_ok.mpr ⟨_, _, hconv, rfl⟩⟩, ?_⟩
    exact nameOr_relabelled (hsynthetic ..) hnames

/-- Converting a method converts its parameters and then its results, and gives all of them names
that are not blank. -/
theorem Method.ofSpec_eq_ok {spec : MethodSpec} {m : Method} {table table' : ImportTable}
    (h : Method.ofSpec spec table = .ok m table') :
    m.name = spec.name ∧ m.variadic = spec.variadic ∧
      (∃ table₁, SignatureType.ofVariables spec.params table = .ok (m.params.map (·.type)) table₁ ∧
        SignatureType.ofVariables spec.results table₁ = .ok (m.results.map (·.type)) table') ∧
      ∃ taken taken', Relabelled (!isBlankName ·) (declaredNames (spec.params ++ spec.results))
          (spec.params.map (·.name)) (m.params.map (·.name)) taken ∧
        Relabelled (!isBlankName ·) taken
          (spec.results.map (·.name)) (m.results.map (·.name)) taken' := by
  obtain ⟨⟨params, taken₁⟩, table₁, hparams, h⟩ := Importing.bind_eq_ok.mp h
  obtain ⟨⟨results, taken₂⟩, table₂, hresults, h⟩ := Importing.bind_eq_ok.mp h
  obtain ⟨rfl, rfl⟩ := Importing.pure_eq_ok.mp h
  obtain ⟨hptypes, hpnames⟩ := nameVars_eq_ok isBlankName_syntheticParam hparams
  obtain ⟨hrtypes, hrnames⟩ := nameVars_eq_ok isBlankName_syntheticResult hresults
  exact ⟨rfl, rfl, ⟨_, hptypes, hrtypes⟩, _, _, hpnames, hrnames⟩

/-! ## Avoiding aliases -/

/-- The names that the second pass leaves alone. -/
def isUnshadowing (aliases : List String) (name : String) : Bool :=
  !isBlankName name && !aliases.contains name

theorem avoidAliases_relabelled (aliases taken : List String) {vars : List Parameter}
    (hnames : ∀ v ∈ vars, isBlankName v.name = false) :
    Relabelled (isUnshadowing aliases) taken (vars.map (·.name))
      ((avoidAliases aliases taken vars).1.map (·.name)) (avoidAliases aliases taken vars).2 := by
  induction vars generalizing taken with
  | nil => exact .nil
  | cons v rest ih =>
    obtain ⟨hname, hrest⟩ := List.forall_mem_cons.mp hnames
    rw [avoidAliases]
    split
    · next halias =>
      have hnew := freshAfter_not_mem (aliases ++ taken) v.name
      rw [List.mem_append, not_or] at hnew
      refine .fresh (by simp only [isUnshadowing, halias, Bool.not_true, Bool.and_false]) ?_
        hnew.2 (ih _ hrest)
      simpa [isUnshadowing, isBlankName_freshAfter hname] using hnew.1
    · next halias =>
      exact .kept (by simpa [isUnshadowing, hname] using halias) (ih _ hrest)

theorem avoidAliases_types (aliases taken : List String) (vars : List Parameter) :
    (avoidAliases aliases taken vars).1.map (·.type) = vars.map (·.type) := by
  induction vars generalizing taken with
  | nil => rfl
  | cons v rest ih =>
    rw [avoidAliases]
    split <;> simp [ih]

namespace Method

variable (m : Method) (table : ImportTable)

theorem avoidAliases_paramTypes :
    (m.avoidAliases table).params.map (·.type) = m.params.map (·.type) :=
  avoidAliases_types ..

theorem avoidAliases_resultTypes :
    (m.avoidAliases table).results.map (·.type) = m.results.map (·.type) :=
  avoidAliases_types ..

variable {m}

/-- The second pass keeps the names that are no aliases, and starts with all names taken. -/
theorem avoidAliases_names (hnames : ∀ v ∈ m.vars, isBlankName v.name = false) :
    ∃ taken taken', Relabelled (isUnshadowing table.aliases) m.variableNames
        (m.params.map (·.name)) ((m.avoidAliases table).params.map (·.name)) taken ∧
      Relabelled (isUnshadowing table.aliases) taken
        (m.results.map (·.name)) ((m.avoidAliases table).results.map (·.name)) taken' := by
  obtain ⟨hparams, hresults⟩ := List.forall_mem_append.mp hnames
  exact ⟨_, _, avoidAliases_relabelled _ _ hparams, avoidAliases_relabelled _ _ hresults⟩

end Method

end Interposer
