import Interposer.FileTree
import Interposer.Proofs.Path

/-! Walking through a tree of files, and what is found again in a tree that has grown: everything
that was there, with directories where these were. -/

namespace Interposer.FileTree

variable {tree tree' tree'' : FileTree} {here l : Location} {segments : List String} {path : Path}

theorem fromUTF8?_toUTF8 (text : String) : String.fromUTF8? text.toUTF8 = some text :=
  dif_pos (show text.toUTF8.IsValidUTF8 from text.isValidUTF8)

/-! ## Walking -/

theorem walk_append (tree : FileTree) (here : Location) (before after : List String) :
    tree.walk here (before ++ after) = tree.walk here before >>= fun l => tree.walk l after := by
  induction before generalizing here with
  | nil => rfl
  | cons segment before ih =>
    rw [List.cons_append, walk, walk]
    split
    · simp only [ih]
      split
      · rfl
      · split
        · rfl
        · split <;> rfl
    · rfl
    · rfl

theorem walk_append_eq_ok {before after : List String}
    (h : tree.walk here (before ++ after) = .ok l) :
    ∃ between, tree.walk here before = .ok between ∧ tree.walk between after = .ok l := by
  rw [walk_append] at h
  cases hbefore : tree.walk here before with
  | error why => rw [hbefore] at h; cases h
  | ok between => exact ⟨between, rfl, by rwa [hbefore] at h⟩

/-- Only from a directory leads anything anywhere. -/
theorem get?_of_walk_cons {segment : String} (h : tree.walk here (segment :: segments) = .ok l) :
    tree.get? here = some .directory := by
  rw [walk] at h
  split at h
  · assumption
  · cases h
  · cases h

theorem walk_idle {segment : String} (hhere : tree.get? here = some .directory)
    (hidle : Path.isIdle segment = true) :
    tree.walk here (segment :: segments) = tree.walk here segments := by
  rw [walk, hhere]
  simp [hidle]

theorem walk_idles (hhere : tree.get? here = some .directory)
    (hidle : ∀ segment ∈ segments, Path.isIdle segment = true) :
    tree.walk here segments = .ok here := by
  induction segments with
  | nil => rfl
  | cons segment segments ih =>
    rw [walk_idle hhere (hidle segment List.mem_cons_self)]
    exact ih fun s hs => hidle s (List.mem_cons_of_mem _ hs)

theorem walk_proper {name : String} (hhere : tree.get? here = some .directory)
    (hname : Path.IsProper name) :
    tree.walk here (name :: segments) =
      if (tree.get? (here ++ [name])).isSome then tree.walk (here ++ [name]) segments
      else .error .notFound := by
  rw [walk, hhere]
  simp [hname.1, hname.2]

/-! ## Where paths lead -/

theorem locate_eq_ok : tree.locate path = .ok l ↔
    ∃ here segments, tree.route path = .ok (here, segments) ∧ tree.walk here segments = .ok l := by
  rw [locate]
  cases hroute : tree.route path with
  | error why => simp [bind, Except.bind]
  | ok route =>
    constructor
    · exact fun h => ⟨route.1, route.2, rfl, h⟩
    · rintro ⟨_, _, ⟨⟩, h⟩
      exact h

theorem isDirectory_iff : tree.isDirectory path = true ↔
    ∃ l, tree.locate path = .ok l ∧ tree.get? l = some .directory := by
  rw [isDirectory, entryAt]
  cases hlocate : tree.locate path with
  | error why => simp [bind, Except.bind]
  | ok l => cases hl : tree.get? l with
    | none => simp [bind, Except.bind, hl]
    | some entry => cases entry <;> simp [bind, Except.bind, hl]

theorem isFile_iff : tree.isFile path = true ↔
    ∃ l content, tree.locate path = .ok l ∧ tree.get? l = some (.file content) := by
  rw [isFile, entryAt]
  cases hlocate : tree.locate path with
  | error why => simp [bind, Except.bind]
  | ok l => cases hl : tree.get? l with
    | none => simp [bind, Except.bind, hl]
    | some entry => cases entry <;> simp [bind, Except.bind, hl]

theorem readText_eq_ok {text : String} : tree.readText path = .ok text ↔
    ∃ l content, tree.locate path = .ok l ∧ tree.get? l = some (.file content) ∧
      String.fromUTF8? content = some text := by
  rw [readText, entryAt]
  cases hlocate : tree.locate path with
  | error why => simp [bind, Except.bind]
  | ok l => cases hl : tree.get? l with
    | none => simp [bind, Except.bind, hl]
    | some entry => cases entry with
      | directory => simp [bind, Except.bind, hl]
      | file content =>
        cases htext : String.fromUTF8? content <;> simp [bind, Except.bind, hl, htext]

variable {directory : Location} {name : String} {before blanks : List String}

/-- The end of a path in a directory, in front of slashes. -/
theorem locateEnd_eq (hroute : tree.route path = .ok (here, before ++ name :: blanks))
    (hname : name ≠ "") (hblanks : ∀ s ∈ blanks, s = "")
    (hwalk : tree.walk here before = .ok directory)
    (hdirectory : tree.get? directory = some .directory) :
    tree.locateEnd path = .ok (directory, name) := by
  have hend : ((before ++ name :: blanks).reverse.dropWhile (· == "")).reverse =
      before ++ [name] := by
    have hblanks : ∀ s ∈ blanks.reverse, (s == "") = true := by simpa using hblanks
    rw [List.reverse_append, List.reverse_cons, List.append_assoc,
      List.dropWhile_append_of_pos hblanks, List.singleton_append,
      List.dropWhile_cons_of_neg (by simpa using hname), List.reverse_cons, List.reverse_reverse]
  have hstep : tree.walk here (before ++ ["."]) = .ok directory := by
    rw [walk_append, hwalk]
    exact walk_idles hdirectory (by simp [Path.isIdle])
  simp only [locateEnd, hroute, bind, Except.bind, hend, List.dropLast_concat, hstep]
  simp

theorem locateEnd_eq_ok (h : tree.locateEnd path = .ok (directory, name)) :
    isDots name = true ∨ ∃ here before blanks,
      tree.route path = .ok (here, before ++ name :: blanks) ∧ name ≠ "" ∧
      (∀ s ∈ blanks, s = "") ∧ tree.walk here before = .ok directory ∧
      tree.get? directory = some .directory := by
  rw [locateEnd] at h
  cases hroute : tree.route path with
  | error why => simp [hroute, bind, Except.bind] at h
  | ok route =>
    obtain ⟨here, segments⟩ := route
    simp only [hroute, bind, Except.bind] at h
    rcases Path.dropEnd_cases (· == "") segments with
      ⟨-, hend⟩ | ⟨before, last, blanks, heq, hlast, hblanks, hend⟩
    · left
      rw [hend] at h
      split at h
      · cases h
      · cases h
        rfl
    · right
      rw [hend, List.dropLast_concat, List.getLast?_concat] at h
      split at h
      · cases h
      · next hwalk =>
        cases h
        obtain ⟨between, hbefore, hdot⟩ := walk_append_eq_ok hwalk
        have hbetween := get?_of_walk_cons hdot
        rw [walk_idle hbetween rfl, walk] at hdot
        cases hdot
        exact ⟨here, before, blanks, by rw [heq]; rfl, by simpa using hlast, by simpa using hblanks,
          hbefore, hbetween⟩

theorem isProper_of_isDots (hdots : isDots name = false) (hname : name ≠ "") :
    Path.IsProper name := by
  simp only [isDots, Bool.or_eq_false_iff, beq_eq_false_iff_ne] at hdots
  exact ⟨by simp [Path.isIdle, hname, hdots.1], hdots.2⟩

theorem route_eq_ok (h : tree.route path = .ok (here, segments)) :
    here = tree.workingDirectory ∧ path.segments = segments ∨
      here = [] ∧ path.segments = "" :: segments := by
  rw [route] at h
  split at h <;> cases h
  · next heq => exact .inr ⟨rfl, heq⟩
  · exact .inl ⟨rfl, rfl⟩

theorem getLast?_of_route {segment : String} (hroute : tree.route path = .ok (here, segments))
    (h : segments.getLast? = some segment) : path.segments.getLast? = some segment := by
  rcases route_eq_ok hroute with ⟨-, heq⟩ | ⟨-, heq⟩
  · rw [heq, h]
  · rw [heq, List.getLast?_cons, h]
    rfl

theorem getLast?_append_blanks (before : List String) (name : String) (hne : blanks ≠ [])
    (hblanks : ∀ s ∈ blanks, s = "") : (before ++ name :: blanks).getLast? = some "" := by
  obtain ⟨blank, blanks, rfl⟩ := List.exists_cons_of_ne_nil hne
  rw [List.getLast?_append_cons, List.getLast?_cons_cons,
    List.getLast?_eq_some_getLast (List.cons_ne_nil _ _)]
  exact congrArg some (hblanks _ (List.getLast_mem _))

/-- A path to its end as a place in a directory. Slashes after it lead on from a directory only. -/
theorem locate_of_locateEnd (h : tree.locateEnd path = .ok (directory, name))
    (hdots : isDots name = false) (hsome : (tree.get? (directory ++ [name])).isSome)
    (hend : path.segments.getLast? = some "" →
      tree.get? (directory ++ [name]) = some .directory) :
    tree.locate path = .ok (directory ++ [name]) := by
  obtain hdots' | ⟨here, before, blanks, hroute, hname, hblanks, hwalk, hdirectory⟩ :=
    locateEnd_eq_ok h
  · rw [hdots] at hdots'
    cases hdots'
  · refine locate_eq_ok.mpr ⟨here, _, hroute, ?_⟩
    rw [walk_append, hwalk]
    refine (walk_proper hdirectory (isProper_of_isDots hdots hname)).trans ?_
    rw [if_pos hsome]
    cases blanks with
    | nil => rfl
    | cons blank blanks =>
      have hlast := getLast?_append_blanks before name (List.cons_ne_nil blank blanks) hblanks
      exact walk_idles (hend (getLast?_of_route hroute hlast)) fun s hs => by rw [hblanks s hs]; rfl

/-- No directory can be made where one stands. -/
theorem makeDirectory_of_isDirectory (h : tree.isDirectory path = true) :
    tree.makeDirectory path = .error .alreadyExists := by
  obtain ⟨l, hlocate, hl⟩ := isDirectory_iff.mp h
  obtain ⟨here, segments, hroute, hwalk⟩ := locate_eq_ok.mp hlocate
  rcases Path.dropEnd_cases (· == "") segments with
    ⟨hblank, hend⟩ | ⟨before, last, blanks, rfl, hlast, hblanks, -⟩
  · have hhere : tree.walk here ["."] = .ok here := by
      refine walk_idles ?_ (by simp [Path.isIdle])
      cases segments with
      | nil => cases hwalk; exact hl
      | cons => exact get?_of_walk_cons hwalk
    have hlocateEnd : tree.locateEnd path = .ok (here, ".") := by
      simp only [locateEnd, hroute, bind, Except.bind, hend, List.dropLast_nil, List.nil_append,
        hhere]
      rfl
    rw [makeDirectory, hlocateEnd]
    rfl
  · obtain ⟨directory, hbefore, hafter⟩ := walk_append_eq_ok hwalk
    have hdirectory := get?_of_walk_cons hafter
    have hlocateEnd : tree.locateEnd path = .ok (directory, last) :=
      locateEnd_eq hroute (by simpa using hlast) (by simpa using hblanks) hbefore hdirectory
    have hstands : (isDots last || (tree.get? (directory ++ [last])).isSome) = true := by
      cases hdots : isDots last with
      | true => rfl
      | false =>
        rw [walk_proper hdirectory (isProper_of_isDots hdots (by simpa using hlast))] at hafter
        split at hafter
        · simpa using ‹_›
        · cases hafter
    rw [makeDirectory, hlocateEnd]
    exact if_pos hstands

/-! ## Growth -/

/-- The second tree has everything of the first, with directories where these were, and what it has
besides comes after. -/
structure Grows (tree tree' : FileTree) : Prop where
  workingDirectory : tree'.workingDirectory = tree.workingDirectory
  directory : ∀ {l}, tree.get? l = some .directory → tree'.get? l = some .directory
  isSome : ∀ {l}, (tree.get? l).isSome → (tree'.get? l).isSome
  locations : ∃ new, tree'.entries.map Prod.fst = tree.entries.map Prod.fst ++ new ∧
    ∀ l ∈ new, tree.get? l = none

namespace Grows

theorem refl (tree : FileTree) : tree.Grows tree :=
  ⟨rfl, id, id, [], (List.append_nil _).symm, nofun⟩

theorem trans (h : tree.Grows tree') (h' : tree'.Grows tree'') : tree.Grows tree'' where
  workingDirectory := h'.workingDirectory.trans h.workingDirectory
  directory := fun hl => h'.directory (h.directory hl)
  isSome := fun hl => h'.isSome (h.isSome hl)
  locations := by
    obtain ⟨new, heq, hnew⟩ := h.locations
    obtain ⟨new', heq', hnew'⟩ := h'.locations
    refine ⟨new ++ new', by rw [heq', heq, List.append_assoc], fun l hl => ?_⟩
    rcases List.mem_append.mp hl with hl | hl
    · exact hnew l hl
    · have := hnew' l hl
      rw [← Option.not_isSome_iff_eq_none] at this ⊢
      exact fun hsome => this (h.isSome hsome)

theorem walk (h : tree.Grows tree') (hwalk : tree.walk here segments = .ok l) :
    tree'.walk here segments = .ok l := by
  induction segments generalizing here with
  | nil => exact hwalk
  | cons segment segments ih =>
    have hhere := get?_of_walk_cons hwalk
    rw [FileTree.walk, hhere] at hwalk
    rw [FileTree.walk, h.directory hhere]
    simp only at hwalk ⊢
    split at hwalk
    · next hidle => rw [if_pos hidle, ih hwalk]
    · next hidle =>
      rw [if_neg hidle]
      split at hwalk
      · next hup => rw [if_pos hup, ih hwalk]
      · next hup =>
        rw [if_neg hup]
        split at hwalk
        · next hsome => rw [if_pos (h.isSome hsome), ih hwalk]
        · cases hwalk

theorem route (h : tree.Grows tree') (path : Path) : tree'.route path = tree.route path := by
  simp only [FileTree.route, h.workingDirectory]

theorem locate (h : tree.Grows tree') (hlocate : tree.locate path = .ok l) :
    tree'.locate path = .ok l := by
  obtain ⟨here, segments, hroute, hwalk⟩ := locate_eq_ok.mp hlocate
  exact locate_eq_ok.mpr ⟨here, segments, (h.route path).trans hroute, h.walk hwalk⟩

theorem locateEnd (h : tree.Grows tree') {end' : Location × String}
    (hend : tree.locateEnd path = .ok end') : tree'.locateEnd path = .ok end' := by
  rw [FileTree.locateEnd] at hend ⊢
  rw [h.route]
  cases hroute : tree.route path with
  | error why => simp [hroute, bind, Except.bind] at hend
  | ok route =>
    simp only [hroute, bind, Except.bind] at hend ⊢
    split at hend
    · cases hend
    · next hwalk =>
      rw [h.walk hwalk]
      exact hend

theorem isDirectory (h : tree.Grows tree') (hdirectory : tree.isDirectory path = true) :
    tree'.isDirectory path = true := by
  obtain ⟨l, hlocate, hl⟩ := isDirectory_iff.mp hdirectory
  exact isDirectory_iff.mpr ⟨l, h.locate hlocate, h.directory hl⟩

end Grows

end Interposer.FileTree
