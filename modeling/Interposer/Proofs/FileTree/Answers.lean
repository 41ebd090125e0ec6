import Interposer.Proofs.FileTree.Walk

/-! What a tree answers after it has changed in a single file and in new directories. A file in
another place is read as before, and next to it no file has appeared or gone. -/

namespace Interposer.FileTree

open Interposer.Path (IsProper)

variable {tree tree' : FileTree} {l place directory : Location} {path : Path} {name : String}

/-- Everything stands in a directory, under a name of its own. -/
structure WellFormed (tree : FileTree) : Prop where
  directory : ∀ {l name}, (tree.get? (l ++ [name])).isSome → tree.get? l = some .directory
  proper : ∀ {l name}, (tree.get? (l ++ [name])).isSome → IsProper name

/-- The second tree has grown out of the first, with a change in no other file than the one in
`place`. -/
structure Changed (place : Location) (tree tree' : FileTree) : Prop where
  grows : tree.Grows tree'
  file : ∀ {l}, l ≠ place → ∀ content,
    tree'.get? l = some (.file content) ↔ tree.get? l = some (.file content)

/-! ## Names in a directory -/

theorem route_of_ne_blank {segment : String} (hsegment : segment ≠ "") (segments : List String) :
    tree.route ⟨segment :: segments⟩ = .ok (tree.workingDirectory, segment :: segments) := by
  rw [route]
  split <;> simp_all

theorem route_of_blank {segments : List String} (hsegments : segments ≠ []) :
    tree.route ⟨"" :: segments⟩ = .ok ([], segments) := by
  obtain ⟨segment, segments, rfl⟩ := List.exists_cons_of_ne_nil hsegments
  rfl

/-- A name at the end of a path is looked for where the path leads, whatever slash it ends with. -/
theorem route_join {here : Location} {segments : List String}
    (hroute : tree.route path = .ok (here, segments)) (name : String) :
    ∃ before, tree.route (path.join name) = .ok (here, before ++ [name]) ∧
      (segments = before ∨ segments = before ++ [""]) := by
  obtain ⟨all⟩ := path
  rw [Path.join]
  by_cases hlast : all.getLast? = some ""
  · rw [if_pos hlast]
    obtain ⟨before, rfl⟩ := List.getLast?_eq_some_iff.mp hlast
    simp only [List.dropLast_concat]
    cases before with
    | nil => cases hroute
    | cons segment before =>
      rw [List.cons_append] at hroute ⊢
      by_cases hsegment : segment = ""
      · subst hsegment
        rw [route_of_blank (by simp)] at hroute ⊢
        cases hroute
        exact ⟨before, rfl, .inr rfl⟩
      · rw [route_of_ne_blank hsegment] at hroute ⊢
        cases hroute
        exact ⟨segment :: before, rfl, .inr rfl⟩
  · rw [if_neg hlast]
    cases all with
    | nil => cases hroute
    | cons segment all =>
      simp only [List.cons_append]
      by_cases hsegment : segment = ""
      · subst hsegment
        have hall : all ≠ [] := by
          rintro rfl
          exact hlast rfl
        rw [route_of_blank hall] at hroute
        rw [route_of_blank (by simp)]
        cases hroute
        exact ⟨_, rfl, .inl rfl⟩
      · rw [route_of_ne_blank hsegment] at hroute ⊢
        cases hroute
        exact ⟨segment :: all, rfl, .inl rfl⟩

/-- A path with a name added leads to that name in the directory. -/
theorem locate_join (hlocate : tree.locate path = .ok directory)
    (hdirectory : tree.get? directory = some .directory) (hname : IsProper name) :
    tree.locate (path.join name) =
      if (tree.get? (directory ++ [name])).isSome then .ok (directory ++ [name])
      else .error .notFound := by
  obtain ⟨here, segments, hroute, hwalk⟩ := locate_eq_ok.mp hlocate
  obtain ⟨before, hjoin, hsegments⟩ := route_join hroute name
  have hbefore : tree.walk here before = .ok directory := by
    rcases hsegments with rfl | rfl
    · exact hwalk
    · obtain ⟨between, hbefore, hblank⟩ := walk_append_eq_ok hwalk
      rw [walk_idle (get?_of_walk_cons hblank) rfl] at hblank
      cases hblank
      exact hbefore
  rw [locate, hjoin]
  simp only [bind, Except.bind]
  rw [walk_append, hbefore]
  exact walk_proper hdirectory hname

theorem WellFormed.locate_path (h : tree.WellFormed) (hl : tree.get? l = some .directory) :
    tree.locate l.path = .ok l := by
  have hwalk : tree.walk [] l = .ok l := by
    induction l using List.reverseRecOn with
    | nil => rfl
    | append_singleton l name ih =>
      have hsome : (tree.get? (l ++ [name])).isSome := by rw [hl]; rfl
      have hparent := h.directory hsome
      rw [walk_append, ih hparent]
      exact (walk_proper hparent (h.proper hsome)).trans (if_pos hsome)
  cases l with
  | nil => rfl
  | cons name names =>
    exact locate_eq_ok.mpr ⟨[], _, route_of_blank (List.cons_ne_nil name names), hwalk⟩

theorem WellFormed.directory_of_isPrefix (h : tree.WellFormed)
    (hl : tree.get? l = some .directory) {root : Location} (hroot : root <+: l) :
    tree.get? root = some .directory := by
  obtain ⟨names, rfl⟩ := hroot
  induction names using List.reverseRecOn with
  | nil => rwa [List.append_nil] at hl
  | append_singleton names name ih =>
    rw [← List.append_assoc] at hl
    exact ih (h.directory (by rw [hl]; rfl))

/-- The name of a place in a directory. -/
def nameIn? (directory l : Location) : Option String :=
  if l.dropLast = directory then l.getLast? else none

theorem namesIn_eq (tree : FileTree) (directory : Location) :
    tree.namesIn directory = (tree.entries.map Prod.fst).filterMap (nameIn? directory) := by
  rw [List.filterMap_map]
  rfl

theorem dropLast_append_of_getLast? (h : l.getLast? = some name) : l.dropLast ++ [name] = l := by
  obtain ⟨before, rfl⟩ := List.getLast?_eq_some_iff.mp h
  rw [List.dropLast_concat]

namespace Changed

theorem readText (h : Changed place tree tree') {text : String}
    (hread : tree.readText path = .ok text) (hplace : tree.locate path ≠ .ok place) :
    tree'.readText path = .ok text := by
  obtain ⟨l, content, hlocate, hl, htext⟩ := readText_eq_ok.mp hread
  have hne : l ≠ place := fun heq => hplace (heq ▸ hlocate)
  exact readText_eq_ok.mpr ⟨l, content, h.grows.locate hlocate, (h.file hne content).mpr hl, htext⟩

/-- Other names in a directory stand for files where they did. -/
theorem isFile_join (h : Changed place tree tree') (hlocate : tree.locate path = .ok directory)
    (hdirectory : tree.get? directory = some .directory) (hname : IsProper name)
    (hplace : directory ++ [name] ≠ place) :
    tree'.isFile (path.join name) = tree.isFile (path.join name) := by
  have hjoin := locate_join hlocate hdirectory hname
  have hjoin' := locate_join (h.grows.locate hlocate) (h.grows.directory hdirectory) hname
  rw [Bool.eq_iff_iff, isFile_iff, isFile_iff, hjoin, hjoin']
  have hfile := h.file hplace
  constructor
  · rintro ⟨l, content, hl, hcontent⟩
    split at hl <;> cases hl
    have := (hfile content).mp hcontent
    exact ⟨_, content, if_pos (by rw [this]; rfl), this⟩
  · rintro ⟨l, content, hl, hcontent⟩
    split at hl <;> cases hl
    have := (hfile content).mpr hcontent
    exact ⟨_, content, if_pos (by rw [this]; rfl), this⟩

/-- New names in a directory come after those it had. -/
theorem list (h : Changed place tree tree') {names : List String}
    (hlist : tree.list path = .ok names) : ∃ directory new, tree.locate path = .ok directory ∧
      tree.get? directory = some .directory ∧ tree'.list path = .ok (names ++ new) ∧
      ∀ name ∈ new, tree.get? (directory ++ [name]) = none := by
  rw [FileTree.list] at hlist
  cases hlocate : tree.locate path with
  | error why => simp [hlocate, bind, Except.bind] at hlist
  | ok directory =>
    simp only [hlocate, bind, Except.bind] at hlist
    split at hlist <;> cases hlist
    next hdirectory =>
    obtain ⟨new, hlocations, hnew⟩ := h.grows.locations
    refine ⟨directory, new.filterMap (nameIn? directory), rfl, hdirectory, ?_, ?_⟩
    · rw [FileTree.list, h.grows.locate hlocate]
      simp only [bind, Except.bind, h.grows.directory hdirectory]
      rw [namesIn_eq, namesIn_eq, hlocations, List.filterMap_append]
    · intro name hname
      obtain ⟨l, hl, hlname⟩ := List.mem_filterMap.mp hname
      rw [nameIn?] at hlname
      split at hlname
      · next heq => rw [← heq, dropLast_append_of_getLast? hlname, hnew l hl]
      · cases hlname

end Changed

end Interposer.FileTree
