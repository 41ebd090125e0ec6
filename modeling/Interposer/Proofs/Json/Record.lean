import Mathlib.Data.List.Perm.Basic
import Mathlib.Data.List.Forall2
import Interposer.Package.Description

/-! Records as objects, with their fields in any order and some of them left out: what the readers
find in them, and how deep a field is nested. -/

namespace Interposer.Json

variable {α : Type} {fields : List (String × Option Json)} {members : List (String × Json)}
  {items : List Json} {j : Json} {n : Nat}

/-! ## Nesting -/

theorem depth_le_of_mem_items (h : j ∈ items) : j.depth ≤ depthOfItems items := by
  induction items with
  | nil => cases h
  | cons item items ih =>
    rw [depthOfItems]
    rcases List.mem_cons.mp h with rfl | h
    · exact Nat.le_max_left _ _
    · exact Nat.le_trans (ih h) (Nat.le_max_right _ _)

theorem depth_le_of_mem_members {m : String × Json} (h : m ∈ members) :
    m.2.depth ≤ depthOfMembers members := by
  induction members with
  | nil => cases h
  | cons _ members ih =>
    rw [depthOfMembers]
    rcases List.mem_cons.mp h with rfl | h
    · exact Nat.le_max_left _ _
    · exact Nat.le_trans (ih h) (Nat.le_max_right _ _)

theorem depthOfMembers_le (h : ∀ m ∈ members, m.2.depth ≤ n) : depthOfMembers members ≤ n := by
  induction members with
  | nil => exact Nat.zero_le n
  | cons m members ih =>
    rw [depthOfMembers]
    exact Nat.max_le.mpr ⟨h m List.mem_cons_self, ih fun m hm => h m (List.mem_cons_of_mem _ hm)⟩

/-! ## Readable values -/

theorem isReadable_of_mem_items (h : areReadable items = true) (hj : j ∈ items) :
    j.isReadable = true := by
  induction items with
  | nil => cases hj
  | cons item items ih =>
    rw [areReadable, Bool.and_eq_true] at h
    rcases List.mem_cons.mp hj with rfl | hj
    · exact h.1
    · exact ih h.2 hj

theorem isReadable_of_mem_members (h : membersReadable members = true) {m : String × Json}
    (hm : m ∈ members) : m.2.isReadable = true := by
  induction members with
  | nil => cases hm
  | cons _ members ih =>
    rw [membersReadable, Bool.and_eq_true] at h
    rcases List.mem_cons.mp hm with rfl | hm
    · exact h.1
    · exact ih h.2 hm

/-! ## Fields -/

/-- The members of a record that are written. -/
def membersOf (fields : List (String × Option Json)) : List (String × Json) :=
  fields.filterMap fun (name, value) => value.map (name, ·)

/-- An object with these fields and no others, in any order; `none` stands for a field that is left
out. -/
def IsRecord (fields : List (String × Option Json)) (j : Json) : Prop :=
  ∃ members, j = .object members ∧ members.Perm (membersOf fields)

theorem isRecord_reverse (fields : List (String × Option Json)) :
    IsRecord fields (.object (membersOf fields).reverse) :=
  ⟨_, rfl, List.reverse_perm _⟩

theorem mem_membersOf {m : String × Json} : m ∈ membersOf fields ↔ (m.1, some m.2) ∈ fields := by
  simp only [membersOf, List.mem_filterMap, Option.map_eq_some_iff]
  constructor
  · rintro ⟨⟨name, _⟩, hmem, _, rfl, rfl⟩
    exact hmem
  · exact fun hmem => ⟨_, hmem, _, rfl, rfl⟩

theorem membersOf_cons (field : String × Option Json) (fields : List (String × Option Json)) :
    membersOf (field :: fields) = (field.2.map (field.1, ·)).toList ++ membersOf fields := by
  cases h : field.2 <;> simp [membersOf, h]

theorem filter_membersOf_of_notMem {name : String} (hname : name ∉ fields.map Prod.fst) :
    (membersOf fields).filter (·.1 == name) = [] := by
  rw [List.filter_eq_nil_iff]
  intro m hm
  rw [beq_iff_eq]
  rintro rfl
  exact hname (List.mem_map_of_mem (mem_membersOf.mp hm))

theorem filter_membersOf {name : String} {value : Option Json}
    (hnames : (fields.map Prod.fst).Nodup) (hfield : (name, value) ∈ fields) :
    (membersOf fields).filter (·.1 == name) = (value.map (name, ·)).toList := by
  induction fields with
  | nil => cases hfield
  | cons field fields ih =>
    obtain ⟨hname, hnames⟩ := List.nodup_cons.mp hnames
    rw [membersOf_cons, List.filter_append]
    rcases List.mem_cons.mp hfield with rfl | hfield
    · rw [filter_membersOf_of_notMem hname]
      cases value <;> simp
    · have hne : field.1 ≠ name := fun heq =>
        hname (heq ▸ List.mem_map_of_mem (f := Prod.fst) hfield)
      rw [ih hnames hfield]
      cases h : field.2 <;> simp [hne]

/-- A field with a name of its own is found by it. -/
theorem uniqueMember_eq {name : String} {value : Option Json}
    (hmembers : members.Perm (membersOf fields)) (hnames : (fields.map Prod.fst).Nodup)
    (hfield : (name, value) ∈ fields) : uniqueMember members name = some value := by
  have h := hmembers.filter (·.1 == name)
  rw [filter_membersOf hnames hfield] at h
  cases value with
  | none => rw [uniqueMember, List.perm_nil.mp h]
  | some value => rw [uniqueMember, List.perm_singleton.mp h]

theorem uniqueMember_eq_none {name : String} (hmembers : members.Perm (membersOf fields))
    (hname : name ∉ fields.map Prod.fst) : uniqueMember members name = some none := by
  have h := hmembers.filter (·.1 == name)
  rw [filter_membersOf_of_notMem hname] at h
  rw [uniqueMember, List.perm_nil.mp h]

namespace IsRecord

/-- The fields that a reader asks for are found by their names. -/
theorem record_eq (h : IsRecord fields j) (hnames : (fields.map Prod.fst).Nodup)
    (asked : List (String × Option Json)) (hasked : ∀ field ∈ asked, field ∈ fields) :
    j.record (asked.map Prod.fst) = some (asked.map Prod.snd) := by
  obtain ⟨members, rfl, hmembers⟩ := h
  rw [record]
  induction asked with
  | nil => rfl
  | cons field asked ih =>
    have hfield := uniqueMember_eq hmembers hnames (hasked field List.mem_cons_self)
    rw [List.map_cons, List.mapM_cons, hfield, ih fun f hf => hasked f (List.mem_cons_of_mem _ hf)]
    rfl

theorem record_self (h : IsRecord fields j) (hnames : (fields.map Prod.fst).Nodup) :
    j.record (fields.map Prod.fst) = some (fields.map Prod.snd) :=
  h.record_eq hnames fields fun _ hfield => hfield

/-- The kind of a record is apart from its other fields. -/
theorem splitKind_eq {kind : Json} (h : IsRecord (("kind", some kind) :: fields) j)
    (hnames : ("kind" :: fields.map Prod.fst).Nodup) :
    ∃ rest, j.splitKind = some (kind, rest) ∧ IsRecord fields rest ∧ rest.depth ≤ j.depth := by
  obtain ⟨members, rfl, hmembers⟩ := h
  have hkind : uniqueMember members "kind" = some (some kind) :=
    uniqueMember_eq hmembers hnames List.mem_cons_self
  have hfilter : (membersOf fields).filter (·.1 != "kind") = membersOf fields := by
    rw [List.filter_eq_self]
    intro m hm
    rw [bne_iff_ne]
    intro heq
    exact (List.nodup_cons.mp hnames).1
      (heq ▸ List.mem_map_of_mem (f := Prod.fst) (mem_membersOf.mp hm))
  refine ⟨.object (members.filter (·.1 != "kind")), ?_, ⟨_, rfl, ?_⟩, ?_⟩
  · simp [splitKind, hkind]
  · have h := hmembers.filter (·.1 != "kind")
    rwa [membersOf_cons, List.filter_append, hfilter] at h
  · exact Nat.add_le_add_right (depthOfMembers_le fun m hm =>
      depth_le_of_mem_members (List.mem_filter.mp hm).1) 1

/-- A field is nested less deep than its record. -/
theorem depth_lt {field : Option Json} {value : Json} (h : IsRecord fields j) (name : String)
    (hfield : (name, field) ∈ fields) (hvalue : value ∈ field) : value.depth < j.depth := by
  obtain ⟨members, rfl, hmembers⟩ := h
  have hmem : (name, value) ∈ members :=
    hmembers.mem_iff.mpr (mem_membersOf.mpr (Option.mem_def.mp hvalue ▸ hfield))
  exact Nat.lt_succ_of_le (depth_le_of_mem_members hmem)

theorem isReadable {field : Option Json} {value : Json} (h : IsRecord fields j)
    (hreadable : j.isReadable = true) (name : String) (hfield : (name, field) ∈ fields)
    (hvalue : value ∈ field) : value.isReadable = true := by
  obtain ⟨members, rfl, hmembers⟩ := h
  have hmem : (name, value) ∈ members :=
    hmembers.mem_iff.mpr (mem_membersOf.mpr (Option.mem_def.mp hvalue ▸ hfield))
  exact isReadable_of_mem_members hreadable hmem

end IsRecord

/-! ## Lists -/

/-- The items of an array are read one by one. -/
theorem asList?_eq {read? : Json → Option α} {values : List α} {R : α → Json → Prop}
    (h : List.Forall₂ R values items)
    (hread : ∀ value j, j ∈ items → R value j → read? j = some value) :
    asList? read? (.array items) = some values := by
  rw [asList?]
  induction h with
  | nil => rfl
  | cons hitem _ ih =>
    rw [List.mapM_cons, hread _ _ List.mem_cons_self hitem,
      ih fun value j hj => hread value j (List.mem_cons_of_mem _ hj)]
    rfl

end Interposer.Json
