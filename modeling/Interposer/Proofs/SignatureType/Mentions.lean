import Interposer.Proofs.SignatureType.Conversion

/-! The named types inside a type of a signature. A type that was converted mentions each package
under the alias that the final table has for it. -/

namespace Interposer

namespace SignatureType

/-- The type `name` of the package at `path` occurs somewhere in a type, written with
`qualifier`. -/
inductive Mentions (qualifier path name : String) : SignatureType → Prop
  | named : Mentions qualifier path name (.named qualifier path name)
  | slice : Mentions qualifier path name elem → Mentions qualifier path name (.slice elem)
  | array : Mentions qualifier path name elem → Mentions qualifier path name (.array length elem)
  | mapKey : Mentions qualifier path name key → Mentions qualifier path name (.map key value)
  | mapValue : Mentions qualifier path name value → Mentions qualifier path name (.map key value)
  | pointer : Mentions qualifier path name elem → Mentions qualifier path name (.pointer elem)
  | param : type ∈ params → Mentions qualifier path name type →
    Mentions qualifier path name (.func params results variadic)
  | result : type ∈ results → Mentions qualifier path name type →
    Mentions qualifier path name (.func params results variadic)

variable {path : String}

theorem pathsOfAll_eq (types : List SignatureType) :
    pathsOfAll types = types.flatMap (·.paths) := by
  induction types with
  | nil => rfl
  | cons t types ih => rw [pathsOfAll, ih, List.flatMap_cons]

mutual

theorem mentions_of_mem_paths : ∀ (t : SignatureType), path ∈ t.paths →
    path ≠ "" ∧ ∃ qualifier name, t.Mentions qualifier path name
  | .slice elem, h => by
    obtain ⟨hne, q, n, hm⟩ := mentions_of_mem_paths elem h
    exact ⟨hne, q, n, .slice hm⟩
  | .array _ elem, h => by
    obtain ⟨hne, q, n, hm⟩ := mentions_of_mem_paths elem h
    exact ⟨hne, q, n, .array hm⟩
  | .pointer elem, h => by
    obtain ⟨hne, q, n, hm⟩ := mentions_of_mem_paths elem h
    exact ⟨hne, q, n, .pointer hm⟩
  | .map key value, h => by
    rcases List.mem_append.mp h with h | h
    · obtain ⟨hne, q, n, hm⟩ := mentions_of_mem_paths key h
      exact ⟨hne, q, n, .mapKey hm⟩
    · obtain ⟨hne, q, n, hm⟩ := mentions_of_mem_paths value h
      exact ⟨hne, q, n, .mapValue hm⟩
  | .func params results _, h => by
    rcases List.mem_append.mp h with h | h
    · obtain ⟨hne, t, ht, q, n, hm⟩ := mentions_of_mem_pathsOfAll params h
      exact ⟨hne, q, n, .param ht hm⟩
    · obtain ⟨hne, t, ht, q, n, hm⟩ := mentions_of_mem_pathsOfAll results h
      exact ⟨hne, q, n, .result ht hm⟩
  | .named qualifier path' name, h => by
    rw [paths] at h
    split at h
    · exact (List.not_mem_nil h).elim
    · next hempty =>
      obtain rfl := List.mem_singleton.mp h
      exact ⟨by simpa using hempty, qualifier, name, .named⟩

theorem mentions_of_mem_pathsOfAll : ∀ (types : List SignatureType), path ∈ pathsOfAll types →
    path ≠ "" ∧ ∃ t ∈ types, ∃ qualifier name, t.Mentions qualifier path name
  | [], h => (List.not_mem_nil h).elim
  | t :: types, h => by
    rcases List.mem_append.mp h with h | h
    · obtain ⟨hne, hm⟩ := mentions_of_mem_paths t h
      exact ⟨hne, t, List.mem_cons_self, hm⟩
    · obtain ⟨hne, t', ht', hm⟩ := mentions_of_mem_pathsOfAll types h
      exact ⟨hne, t', List.mem_cons_of_mem _ ht', hm⟩

end

theorem Mentions.mem_paths {t : SignatureType} {qualifier name : String}
    (h : t.Mentions qualifier path name) (hpath : path ≠ "") : path ∈ t.paths := by
  induction h with
  | named => rw [paths, if_neg (by simpa using hpath)]; exact List.mem_singleton_self _
  | slice _ ih | array _ ih | pointer _ ih => exact ih
  | mapKey _ ih => exact List.mem_append_left _ ih
  | mapValue _ ih => exact List.mem_append_right _ ih
  | param ht _ ih =>
    refine List.mem_append_left _ ?_
    rw [pathsOfAll_eq]
    exact List.mem_flatMap.mpr ⟨_, ht, ih⟩
  | result ht _ ih =>
    refine List.mem_append_right _ ?_
    rw [pathsOfAll_eq]
    exact List.mem_flatMap.mpr ⟨_, ht, ih⟩

/-- The paths that the imports of a file are chosen by are those of the named types. -/
theorem mem_paths_iff {t : SignatureType} :
    path ∈ t.paths ↔ path ≠ "" ∧ ∃ qualifier name, t.Mentions qualifier path name :=
  ⟨mentions_of_mem_paths t, fun ⟨hpath, _, _, h⟩ => h.mem_paths hpath⟩

end SignatureType

/-- A converted type mentions predeclared types without a qualifier, and its own packages with
theirs. -/
theorem SourceType.Representable.mentions_toSignature {t : SourceType} (ht : t.Representable)
    {qualify : String → String} {qualifier path name : String}
    (h : (t.toSignature qualify).Mentions qualifier path name) :
    qualifier = "" ∧ path = "" ∨ qualifier = qualify path ∧ path ∈ t.packages := by
  induction ht with
  | basic => cases h; exact .inl ⟨rfl, rfl⟩
  | named => cases h; exact .inr ⟨rfl, List.mem_singleton_self _⟩
  | pointer _ ih => cases h with | pointer h => exact ih h
  | slice _ ih => cases h with | slice h => exact ih h
  | array _ _ ih => cases h with | array h => exact ih h
  | map _ _ ihkey ihvalue =>
    cases h with
    | mapKey h => exact (ihkey h).imp_right (.imp_right (List.mem_append_left _))
    | mapValue h => exact (ihvalue h).imp_right (.imp_right (List.mem_append_right _))
  | func _ _ ihparams ihresults =>
    rw [toSignature, toSignatures_eq, toSignatures_eq] at h
    cases h with
    | param hmem h =>
      obtain ⟨v, hv, rfl⟩ := List.mem_map.mp hmem
      refine (ihparams v hv h).imp_right (.imp_right fun hpath => ?_)
      exact List.mem_append_left _ (packages_subset_packagesOfAll hv hpath)
    | result hmem h =>
      obtain ⟨v, hv, rfl⟩ := List.mem_map.mp hmem
      refine (ihresults v hv h).imp_right (.imp_right fun hpath => ?_)
      exact List.mem_append_right _ (packages_subset_packagesOfAll hv hpath)

end Interposer
