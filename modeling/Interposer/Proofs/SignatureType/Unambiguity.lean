import Interposer.Proofs.SignatureType.Mentions
import Interposer.Proofs.SignatureType.Reading

/-! What the text of a converted type tells. The text leaves out the paths of packages, but the
aliases in it belong to one import table, which gives the paths back (`restorePaths_withoutPaths`).
So equal texts are those of equal types, as long as no package has the empty alias of predeclared
types. -/

namespace Interposer

namespace SignatureType

mutual

/-- The type with the paths of its packages put back in. -/
def restorePaths (pathOf : String → String) : SignatureType → SignatureType
  | .slice elem => .slice (elem.restorePaths pathOf)
  | .array length elem => .array length (elem.restorePaths pathOf)
  | .map key value => .map (key.restorePaths pathOf) (value.restorePaths pathOf)
  | .pointer elem => .pointer (elem.restorePaths pathOf)
  | .func params results variadic =>
    .func (restorePathsAll pathOf params) (restorePathsAll pathOf results) variadic
  | .named qualifier _ name => .named qualifier (pathOf qualifier) name

def restorePathsAll (pathOf : String → String) : List SignatureType → List SignatureType
  | [] => []
  | t :: types => t.restorePaths pathOf :: restorePathsAll pathOf types

end

/-- Aliases stand for what `pathOf` says everywhere in the type. -/
def Follows (pathOf : String → String) (t : SignatureType) : Prop :=
  ∀ qualifier path name, t.Mentions qualifier path name → path = pathOf qualifier

variable {pathOf : String → String}

mutual

theorem restorePaths_withoutPaths : ∀ {t : SignatureType}, t.Follows pathOf →
    t.withoutPaths.restorePaths pathOf = t
  | .slice _, h => by
    rw [withoutPaths, restorePaths, restorePaths_withoutPaths fun _ _ _ hm => h _ _ _ (.slice hm)]
  | .array _ _, h => by
    rw [withoutPaths, restorePaths, restorePaths_withoutPaths fun _ _ _ hm => h _ _ _ (.array hm)]
  | .pointer _, h => by
    rw [withoutPaths, restorePaths, restorePaths_withoutPaths fun _ _ _ hm => h _ _ _ (.pointer hm)]
  | .map _ _, h => by
    rw [withoutPaths, restorePaths, restorePaths_withoutPaths fun _ _ _ hm => h _ _ _ (.mapKey hm),
      restorePaths_withoutPaths fun _ _ _ hm => h _ _ _ (.mapValue hm)]
  | .func _ _ _, h => by
    rw [withoutPaths, restorePaths,
      restorePathsAll_withoutPathsAll fun _ ht _ _ _ hm => h _ _ _ (.param ht hm),
      restorePathsAll_withoutPathsAll fun _ ht _ _ _ hm => h _ _ _ (.result ht hm)]
  | .named _ _ _, h => by rw [withoutPaths, restorePaths, ← h _ _ _ .named]

theorem restorePathsAll_withoutPathsAll : ∀ {types : List SignatureType},
    (∀ t ∈ types, t.Follows pathOf) →
      restorePathsAll pathOf (withoutPathsAll types) = types
  | [], _ => rfl
  | _ :: _, h => by
    obtain ⟨ht, htypes⟩ := List.forall_mem_cons.mp h
    rw [withoutPathsAll, restorePathsAll, restorePaths_withoutPaths ht,
      restorePathsAll_withoutPathsAll htypes]

end

/-- The aliases of one table tell types with the same text apart. -/
theorem Follows.eq_of_render_eq {a b : SignatureType} (ha : a.Follows pathOf)
    (hb : b.Follows pathOf) (hwa : a.WellFormed) (hwb : b.WellFormed) (h : a.render = b.render) :
    a = b := by
  rw [← restorePaths_withoutPaths ha, ← restorePaths_withoutPaths hb, hwa.render_injective hwb h]

/-! ## Texts have no paths -/

theorem renderVariadic_withoutPaths {t : SignatureType} (h : t.withoutPaths.render = t.render) :
    t.withoutPaths.renderVariadic = t.renderVariadic := by
  cases t with
  | slice elem =>
    rw [withoutPaths, render, render, String.append_right_inj] at h
    exact congrArg ("..." ++ ·) h
  | _ => exact congrArg ("..." ++ ·) h

theorem renderParams_map_withoutPaths {types : List SignatureType}
    (h : ∀ t ∈ types, t.withoutPaths.render = t.render) (variadic : Bool) :
    renderParams variadic (types.map withoutPaths) = renderParams variadic types := by
  induction types with
  | nil => rfl
  | cons t types ih =>
    obtain ⟨ht, htypes⟩ := List.forall_mem_cons.mp h
    cases types with
    | nil =>
      cases variadic with
      | false => simp [renderParams_false, renderAll, ht]
      | true =>
        rw [List.map_cons, List.map_nil, renderParams_singleton, renderParams_singleton,
          renderVariadic_withoutPaths ht]
    | cons t' types =>
      have hrest := ih htypes
      rw [List.map_cons] at hrest
      rw [List.map_cons, List.map_cons, renderParams_cons_cons, renderParams_cons_cons, ht, hrest]

mutual

theorem render_withoutPaths : ∀ t : SignatureType, t.withoutPaths.render = t.render
  | .slice elem => by rw [withoutPaths, render, render, render_withoutPaths elem]
  | .array _ elem => by rw [withoutPaths, render, render, render_withoutPaths elem]
  | .pointer elem => by rw [withoutPaths, render, render, render_withoutPaths elem]
  | .map key value => by
    rw [withoutPaths, render, render, render_withoutPaths key, render_withoutPaths value]
  | .func params results variadic => by
    rw [withoutPaths, render, render, withoutPathsAll_eq, withoutPathsAll_eq,
      renderParams_map_withoutPaths (render_withoutPaths_of_mem params), ← renderParams_false,
      ← renderParams_false, renderParams_map_withoutPaths (render_withoutPaths_of_mem results)]
  | .named _ _ _ => by rw [withoutPaths, render, render]

theorem render_withoutPaths_of_mem : ∀ types : List SignatureType,
    ∀ t ∈ types, t.withoutPaths.render = t.render
  | [] => nofun
  | t :: types => List.forall_mem_cons.mpr
    ⟨render_withoutPaths t, render_withoutPaths_of_mem types⟩

end

theorem render_eq_iff {a b : SignatureType} (ha : a.WellFormed) (hb : b.WellFormed) :
    a.render = b.render ↔ a.withoutPaths = b.withoutPaths := by
  refine ⟨ha.render_injective hb, fun h => ?_⟩
  rw [← render_withoutPaths a, ← render_withoutPaths b, h]

end SignatureType

open SignatureType

namespace ImportTable

/-- What a qualifier stands for in a file with these imports; without a qualifier a type is
predeclared. -/
def pathOfQualifier (table : ImportTable) (qualifier : String) : String :=
  if qualifier = "" then "" else (table.pathOf? qualifier).getD ""

theorem pathOfQualifier_qualifier {table : ImportTable} (H : table.WellFormed) {path : String}
    (hpath : path ∈ table.paths) (hdefault : defaultAlias path ≠ "") :
    table.pathOfQualifier (table.qualifier path) = path := by
  have hmem := mem_entries_qualifier H hpath
  rw [pathOfQualifier, if_neg (H.name_ne_empty hmem hdefault), H.pathOf?_eq_some_iff.mpr hmem,
    Option.getD_some]

end ImportTable

/-- A type was converted on a new table that other paths were entered into before and after. -/
def SignatureType.ConvertedOn (table : ImportTable) (t : SignatureType) : Prop :=
  ∃ source before after between, ofSource source (ImportTable.empty.addAll before) = .ok t between ∧
    table = between.addAll after

theorem SignatureType.ConvertedOn.follows {table : ImportTable} {t : SignatureType}
    (h : t.ConvertedOn table) (hdefault : ∀ path ∈ t.paths, defaultAlias path ≠ "") :
    t.Follows table.pathOfQualifier := by
  obtain ⟨source, before, after, between, hsource, rfl⟩ := h
  have hrepresentable := SourceType.representable_of_ofSource source hsource
  have H := ImportTable.WellFormed.empty.addAll before
  rw [hrepresentable.converts H] at hsource
  cases hsource
  intro qualifier path name hm
  rcases hrepresentable.mentions_toSignature hm with ⟨rfl, rfl⟩ | ⟨rfl, hpath⟩
  · rfl
  · have H' := (H.addAll source.packages).addAll after
    rw [← ImportTable.qualifier_addAll H hpath after]
    by_cases hempty : path = ""
    · rw [hempty, ImportTable.qualifier_empty H']
      rfl
    · have hpaths : path ∈ (((ImportTable.empty.addAll before).addAll source.packages).addAll
          after).paths :=
        ImportTable.mem_paths_of_le (ImportTable.le_addAll _ after)
          ((ImportTable.mem_paths_addAll _ _).mpr (.inr ⟨hpath, hempty⟩))
      rw [ImportTable.pathOfQualifier_qualifier H' hpaths (hdefault path (hm.mem_paths hempty))]

namespace SignatureType

/-- Types that were converted on one table are as different as their texts, and only the
predeclared type is an error. -/
theorem ConvertedOn.unambiguous {table : ImportTable} {a b : SignatureType}
    (ha : a.ConvertedOn table) (hb : b.ConvertedOn table) (hwa : a.WellFormed) (hwb : b.WellFormed)
    (hdefault : ∀ path ∈ a.paths ++ b.paths, defaultAlias path ≠ "") :
    (a.render = b.render ↔ a = b) ∧ (a.isError = true ↔ a = .predeclared "error") := by
  have hfa := ha.follows fun path hpath => hdefault path (List.mem_append_left _ hpath)
  have hfb := hb.follows fun path hpath => hdefault path (List.mem_append_right _ hpath)
  have hferror : (predeclared "error").Follows table.pathOfQualifier := by
    intro qualifier path name hm
    cases hm
    rfl
  have herror : (predeclared "error").WellFormed := .named (absurd rfl) (by decide)
  refine ⟨⟨hfa.eq_of_render_eq hfb hwa hwb, congrArg render⟩, ?_⟩
  rw [isError, beq_iff_eq]
  exact ⟨hfa.eq_of_render_eq hferror hwa herror, fun h => h ▸ rfl⟩

/-- A package whose default alias is empty has types that look predeclared. -/
theorem isError_of_empty_alias : ∃ table,
    ConvertedOn table (.named "" "example.com/app/_" "error") ∧
    WellFormed (.named "" "example.com/app/_" "error") ∧
    isError (.named "" "example.com/app/_" "error") = true :=
  ⟨_, ⟨.named "example.com/app/_" "error" [], [], [], _, rfl, rfl⟩, .named (absurd rfl) (by decide),
    by decide⟩

end SignatureType

end Interposer
