import Interposer.Proofs.Interface.Introspection

/-! Introspection once more. The first run hands out aliases while its table still grows and changes
names only when the table is complete; a second run meets the complete table from the start. What
has been entered is found again on every later table (`Importing.Repeatable`), so the two runs do
the same (`introspect_idempotent`). -/

namespace Interposer

namespace Importing

variable {α β : Type}

/-- What a computation that ends with `a` does to its table, and what it does when run again. -/
structure Repeats (m : Importing α) (a : α) (table table' : ImportTable) : Prop where
  grows : table ≤ table'
  wellFormed : table'.WellFormed
  /-- On any later table, all that the computation enters is there already. -/
  again : ∀ {later : ImportTable}, later.WellFormed → table' ≤ later → m later = .ok a later

/-- The computation can be repeated wherever it succeeds. -/
def Repeatable (m : Importing α) : Prop :=
  ∀ ⦃table table' : ImportTable⦄ ⦃a : α⦄, table.WellFormed → m table = .ok a table' →
    Repeats m a table table'

theorem Repeatable.pure (a : α) : Repeatable (pure a : Importing α) := by
  intro table table' b H h
  obtain ⟨rfl, rfl⟩ := pure_eq_ok.mp h
  exact ⟨le_rfl, H, fun _ _ => rfl⟩

theorem Repeatable.throw (failure : Failure) : Repeatable (throw failure : Importing α) :=
  fun _ _ _ _ h => (throw_ne_ok h).elim

theorem Repeatable.importing (path : String) : Repeatable (importing path) := by
  intro table table' name H h
  rw [importing_eq_ok] at h
  obtain rfl : (table.add path).1 = name := congrArg Prod.fst h
  obtain rfl : (table.add path).2 = table' := congrArg Prod.snd h
  refine ⟨table.le_add path, H.add path, fun {later} Hlater hle => importing_eq_ok.mpr ?_⟩
  by_cases hpath : path = ""
  · subst hpath
    rfl
  · exact Hlater.add_of_mem (ImportTable.mem_of_le hle (table.mem_add hpath))

/-- On a table that is later than the second part's, the first part leaves that table as it is. -/
theorem Repeatable.bind {m : Importing α} {f : α → Importing β} (hm : Repeatable m)
    (hf : ∀ a, Repeatable (f a)) : Repeatable (m >>= f) := by
  intro table table' b H h
  obtain ⟨a, table₁, hfirst, hsecond⟩ := bind_eq_ok.mp h
  have first := hm H hfirst
  have second := hf a first.wellFormed hsecond
  refine ⟨first.grows.trans second.grows, second.wellFormed, fun {later} Hlater hle => ?_⟩
  have hagain := first.again Hlater (second.grows.trans hle)
  exact bind_eq_ok.mpr ⟨a, later, hagain, second.again Hlater hle⟩

end Importing

open Importing

/-! ## Conversion and naming -/

namespace SignatureType

mutual

theorem repeatable_ofSource : ∀ t : SourceType, Repeatable (ofSource t)
  | .basic _ => .pure _
  | .named package name args => by
    rw [ofSource]
    split
    · exact .bind (.importing package) fun _ => .pure _
    · exact .throw _
  | .pointer elem => .bind (repeatable_ofSource elem) fun _ => .pure _
  | .slice elem => .bind (repeatable_ofSource elem) fun _ => .pure _
  | .array length elem => by
    rw [ofSource]
    split
    · exact .bind (repeatable_ofSource elem) fun _ => .pure _
    · exact .throw _
  | .map key value =>
    .bind (repeatable_ofSource key) fun _ => .bind (repeatable_ofSource value) fun _ => .pure _
  | .func params results _ =>
    .bind (repeatable_ofVariables params) fun _ =>
      .bind (repeatable_ofVariables results) fun _ => .pure _
  | .interface _ | .struct _ | .chan _ _ | .typeParam _ | .other _ => .throw _

theorem repeatable_ofVariables : ∀ vars : List Variable, Repeatable (ofVariables vars)
  | [] => .pure _
  | v :: rest => by
    cases v with
    | mk name type =>
      refine .bind (repeatable_ofSource type) fun _ => ?_
      exact .bind (repeatable_ofVariables rest) fun _ => .pure _

end

end SignatureType

/-- Names depend on the types of what they name, but on no table. -/
theorem repeatable_nameVars (synthetic : Nat → Bool → SignatureType → String)
    (vars : List Variable) (i : Nat) (taken : List String) :
    Repeatable (nameVars synthetic i taken vars) := by
  induction vars generalizing i taken with
  | nil => exact .pure _
  | cons v rest ih =>
    obtain ⟨declared, type⟩ := v
    refine .bind (SignatureType.repeatable_ofSource type) fun converted => ?_
    exact .bind (ih ..) fun _ => .pure _

theorem Method.repeatable_ofSpec (spec : MethodSpec) : Repeatable (Method.ofSpec spec) :=
  .bind (repeatable_nameVars ..) fun _ => .bind (repeatable_nameVars ..) fun _ => .pure _

theorem repeatable_methodsOfSpecs (specs : List MethodSpec) :
    Repeatable (methodsOfSpecs specs) := by
  induction specs with
  | nil => exact .pure _
  | cons spec rest ih =>
    exact .bind (Method.repeatable_ofSpec spec) fun _ => .bind ih fun _ => .pure _

/-! ## Introspection -/

/-- The second pass of naming sees the table that the first run ends with, and so does that of the
second run. -/
theorem Package.introspect_again {p : Package} {name : String} {table table' : ImportTable}
    {i : Interface} (H : table.WellFormed) (h : p.introspect name table = .ok i table') :
    table ≤ table' ∧ p.introspect name table' = .ok i table' := by
  obtain ⟨members, specs, methods, hresolve, hset, hmethods, htype, hnames⟩ := p.introspect_eq_ok h
  have own : Repeats (importing p.path) (table.add p.path).1 table (table.add p.path).2 :=
    Repeatable.importing p.path H (importing_eq_ok.mpr rfl)
  have converted := repeatable_methodsOfSpecs specs own.wellFormed hmethods
  refine ⟨own.grows.trans converted.grows, ?_⟩
  have hown := own.again converted.wellFormed converted.grows
  have hconverted := converted.again converted.wellFormed le_rfl
  refine bind_eq_ok.mpr ⟨members, table', ofExcept_eq_ok.mpr ⟨hresolve, rfl⟩, ?_⟩
  refine bind_eq_ok.mpr ⟨_, table', hown, ?_⟩
  refine bind_eq_ok.mpr ⟨specs, table', ofExcept_eq_ok.mpr ⟨hset, rfl⟩, ?_⟩
  refine bind_eq_ok.mpr ⟨methods, table', hconverted, ?_⟩
  refine bind_eq_ok.mpr ⟨table', table', rfl, pure_eq_ok.mpr ⟨?_, rfl⟩⟩
  rw [← htype, ← hnames]

/-- **Introspection is idempotent** on its import table. Run again on the table that it leaves, it
finds the same interface, down to aliases and names, and enters nothing. -/
theorem introspect_idempotent {p : Package} {name : String} {run : List String}
    {table : ImportTable} {i : Interface}
    (h : p.introspect name (ImportTable.empty.addAll run) = .ok i table) :
    p.introspect name table = .ok i table ∧
      ∀ entry ∈ (ImportTable.empty.addAll run).entries, entry ∈ table.entries := by
  obtain ⟨hle, hagain⟩ := p.introspect_again (ImportTable.WellFormed.empty.addAll run) h
  exact ⟨hagain, fun _ => ImportTable.mem_of_le hle⟩

/-- Paths that were entered before, one of them with the alias that `shop` would have. -/
def oldPaths : List String := ["example.com/old/shop", "github.com/getsentry/sentry-go"]

/-- The interface's own package gets a number, and the result that is called `shop` hides an import
all the same. -/
theorem introspect_shop_idempotent :
    ∃ i table, shop.introspect "Store" (ImportTable.empty.addAll oldPaths) = .ok i table ∧
      table.aliases = ["shop", "sentry", "shop0", "context"] ∧
      i.methods.map (·.variableNames) =
        [["context_", "sentry_", "r0", "err"], ["ctx", "p1", "items", "shop_", "err"]] ∧
      shop.introspect "Store" table = .ok i table ∧
      ∀ entry ∈ (ImportTable.empty.addAll oldPaths).entries, entry ∈ table.entries := by
  have h : shop.introspect "Store" (ImportTable.empty.addAll oldPaths) = .ok _ _ := rfl
  exact ⟨_, _, h, by decide +kernel, by decide +kernel, introspect_idempotent h⟩

end Interposer
