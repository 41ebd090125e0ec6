import Interposer.Proofs.Fresh
import Interposer.Proofs.Hook.Sentry
import Interposer.Proofs.Text.Quoted

/-! The data of breadcrumbs. A map has one entry for each of its variables. Snake case takes
different names to the same key, and an underscore after a key may lead to that of another
variable, but a key is always lengthened past all that come before it. So no key occurs twice, and
as quoted texts read back, none does to a reader of the code either (`breadcrumb_entries`). -/

namespace Interposer.Sentry

/-! ## Keys -/

/-- The variable's name in snake case, perhaps lengthened. -/
def IsKeyFor (v : Parameter) (key : String) : Prop :=
  ∃ n, key = Text.snakeCase v.name ++ underscores n

theorem forall₂_isKeyFor (used : List String) (vars : List Parameter) :
    List.Forall₂ IsKeyFor vars (dataKeys used vars) := by
  induction vars generalizing used with
  | nil => exact .nil
  | cons v rest ih =>
    apply List.Forall₂.cons
    · exact freshAfter_eq_append used (Text.snakeCase v.name)
    · exact ih _

theorem notMem_used_of_mem_dataKeys {used : List String} {vars : List Parameter} {key : String}
    (h : key ∈ dataKeys used vars) : key ∉ used := by
  induction vars generalizing used with
  | nil => cases h
  | cons v rest ih =>
    rcases List.mem_cons.mp h with rfl | h
    · exact freshAfter_not_mem used _
    · intro hused
      exact ih h (List.mem_cons_of_mem _ hused)

theorem nodup_dataKeys (used : List String) (vars : List Parameter) :
    (dataKeys used vars).Nodup := by
  induction vars generalizing used with
  | nil => exact .nil
  | cons v rest ih =>
    apply List.Nodup.cons
    · intro hmem
      exact notMem_used_of_mem_dataKeys hmem List.mem_cons_self
    · exact ih _

/-! ## Map literals -/

/-- An entry of a map literal: the literal that is its key, and the expression that is its value. -/
structure Entry where
  key : String
  value : String

def Entry.text (e : Entry) : String := e.key ++ ": " ++ e.value

def mapLiteral (entries : List Entry) : String :=
  "map[string]any\x7b" ++ ", ".intercalate (entries.map Entry.text) ++ "\x7d"

/-- The entry for a variable under a key. -/
def entryOf (pair : String × Parameter) : Entry := ⟨Text.quote pair.1, pair.2.name⟩

/-- The entries that a map has for variables. -/
def entriesOf (vars : List Parameter) : List Entry := ((dataKeys [] vars).zip vars).map entryOf

theorem dataMap_eq (vars : List Parameter) : dataMap vars = mapLiteral (entriesOf vars) := by
  unfold dataMap mapLiteral entriesOf
  rw [List.map_map, ← List.map_uncurry_zip_eq_zipWith]
  rfl

/-- The entry is that of the variable: its value is the variable, and its key denotes the name in
snake case, perhaps with underscores. -/
structure Labels (v : Parameter) (e : Entry) : Prop where
  value : e.value = v.name
  key : ∃ n, Text.literal? e.key = some (Text.snakeCase v.name ++ underscores n).toByteArray

theorem forall₂_labels {vars : List Parameter} {keys : List String}
    (h : List.Forall₂ IsKeyFor vars keys) :
    List.Forall₂ Labels vars ((keys.zip vars).map entryOf) := by
  induction h with
  | nil => exact .nil
  | cons hkey _ ih =>
    obtain ⟨n, rfl⟩ := hkey
    exact .cons ⟨rfl, n, Text.literal?_quote _⟩ ih

/-- What the keys denote, in their order. -/
theorem literals_entriesOf (vars : List Parameter) :
    (entriesOf vars).map (Text.literal? ·.key) =
      (dataKeys [] vars).map fun key => some key.toByteArray := by
  have hlength : (dataKeys [] vars).length ≤ vars.length :=
    Nat.le_of_eq (forall₂_isKeyFor [] vars).length_eq.symm
  have hkeys : (dataKeys [] vars) = ((dataKeys [] vars).zip vars).map (·.1) :=
    (List.map_fst_zip hlength).symm
  rw [entriesOf, List.map_map]
  conv => rhs; rw [hkeys, List.map_map]
  apply List.map_congr_left
  intro pair _
  rw [Function.comp_apply, Function.comp_apply, entryOf, Text.literal?_quote]

/-! ## Reading of map literals -/

/-- An operand goes on up to the comma or the brace behind it. -/
def isOperandChar (c : Char) : Bool := c ≠ ',' && c ≠ '\x7d'

/-- An entry as it is read: the bytes that its key denotes, and its value. -/
abbrev ReadEntry := ByteArray × String

/-- The entry at the start of a text, and what follows it. -/
def readEntry? : List Char → Option (ReadEntry × List Char)
  | '"' :: cs =>
    match Text.readContent cs with
    | some (key, ':' :: ' ' :: rest) =>
      some ((key, String.ofList (rest.takeWhile isOperandChar)), rest.dropWhile isOperandChar)
    | _ => none
  | _ => none

/-- Entries up to the brace that ends the text, at most `limit` of them. -/
def readEntries? : Nat → List Char → Option (List ReadEntry)
  | 0, _ => none
  | limit + 1, cs => do
    let (entry, rest) ← readEntry? cs
    match rest with
    | ['\x7d'] => some [entry]
    | ',' :: ' ' :: rest => (readEntries? limit rest).map (entry :: ·)
    | _ => none

/-- The entries of a map literal. -/
def readMap? (text : String) : Option (List ReadEntry) :=
  match text.toList.dropPrefix? "map[string]any\x7b".toList with
  | some ['\x7d'] => some []
  | some cs => readEntries? cs.length cs
  | none => none

theorem readEntry?_text {pair : String × Parameter}
    (hname : ∀ c ∈ pair.2.name.toList, isOperandChar c = true) (rest : List Char)
    (hrest : ∀ c ∈ rest.head?, isOperandChar c = false) :
    readEntry? ((entryOf pair).text.toList ++ rest) =
      some ((pair.1.toByteArray, pair.2.name), rest) := by
  have hkey := Text.readContent_quoted pair.1.toList (':' :: ' ' :: (pair.2.name.toList ++ rest))
  rw [String.ofList_toList] at hkey
  simp [Entry.text, entryOf, Text.quote, readEntry?, hkey,
    Text.takeWhile_append_of_head hname hrest, Text.dropWhile_append_of_head hname hrest]

/-- Entries with the brace behind them. -/
def closedEntries (entries : List Entry) : List Char :=
  (", ".intercalate (entries.map Entry.text)).toList ++ ['\x7d']

theorem closedEntries_singleton (e : Entry) : closedEntries [e] = e.text.toList ++ ['\x7d'] := by
  simp [closedEntries]

theorem closedEntries_cons_cons (e e' : Entry) (entries : List Entry) :
    closedEntries (e :: e' :: entries) =
      e.text.toList ++ ',' :: ' ' :: closedEntries (e' :: entries) := by
  simp [closedEntries, String.intercalate_cons_cons]

theorem readEntries?_closedEntries {pairs : List (String × Parameter)} (hne : pairs ≠ [])
    (hnames : ∀ pair ∈ pairs, ∀ c ∈ pair.2.name.toList, isOperandChar c = true) {limit : Nat}
    (hlimit : (closedEntries (pairs.map entryOf)).length ≤ limit) :
    readEntries? limit (closedEntries (pairs.map entryOf)) =
      some (pairs.map fun pair => (pair.1.toByteArray, pair.2.name)) := by
  induction pairs generalizing limit with
  | nil => exact (hne rfl).elim
  | cons pair pairs ih =>
    obtain ⟨hname, hnames⟩ := List.forall_mem_cons.mp hnames
    cases limit with
    | zero => simp [closedEntries] at hlimit
    | succ limit =>
      cases pairs with
      | nil =>
        have hentry := readEntry?_text hname ['\x7d'] (by simp [isOperandChar])
        simp [closedEntries_singleton, readEntries?, hentry]
      | cons next pairs =>
        rw [List.map_cons, List.map_cons, closedEntries_cons_cons] at hlimit ⊢
        have hentry := readEntry?_text hname
          (',' :: ' ' :: closedEntries (entryOf next :: pairs.map entryOf)) (by simp [isOperandChar])
        have hlimit : (closedEntries ((next :: pairs).map entryOf)).length ≤ limit := by
          simp only [List.length_append, List.length_cons] at hlimit
          rw [List.map_cons]
          omega
        have hothers := ih (List.cons_ne_nil _ _) hnames hlimit
        rw [List.map_cons] at hothers
        simp only [readEntries?, hentry, Option.bind_eq_bind, Option.bind_some, hothers]
        rfl

/-- A map literal reads as its entries, unless a name goes on past the value that it is. -/
theorem readMap?_mapLiteral {pairs : List (String × Parameter)}
    (hnames : ∀ pair ∈ pairs, ∀ c ∈ pair.2.name.toList, isOperandChar c = true) :
    readMap? (mapLiteral (pairs.map entryOf)) =
      some (pairs.map fun pair => (pair.1.toByteArray, pair.2.name)) := by
  have hprefix : (mapLiteral (pairs.map entryOf)).toList.dropPrefix? "map[string]any\x7b".toList =
      some (closedEntries (pairs.map entryOf)) := by
    rw [List.dropPrefix?_eq_some_iff]
    refine ⟨_, ?_, beq_self_eq_true _⟩
    unfold mapLiteral closedEntries
    simp
  cases pairs with
  | nil => rw [readMap?, hprefix]; rfl
  | cons pair pairs =>
    have hread := readEntries?_closedEntries (List.cons_ne_nil pair pairs) hnames (Nat.le_refl _)
    rw [readMap?, hprefix]
    split
    · next h =>
      rw [Option.some.inj h] at hread
      cases hread
    · next h => cases h; exact hread
    · next h => cases h

/-! ## Breadcrumbs -/

/-- Entries for variables, one for each and in their order, under keys that differ. -/
structure LabelsEach (vars : List Parameter) (entries : List Entry) : Prop where
  each : List.Forall₂ Labels vars entries
  distinct : (entries.map (Text.literal? ·.key)).Nodup
  /-- Names with neither commas nor braces read back, and so do the keys. -/
  readsBack : (∀ v ∈ vars, ∀ c ∈ v.name.toList, isOperandChar c = true) →
    ∃ read, readMap? (mapLiteral entries) = some read ∧
      List.Forall₂ (fun e r => Text.literal? e.key = some r.1 ∧ e.value = r.2) entries read

theorem labelsEach_entriesOf (vars : List Parameter) : LabelsEach vars (entriesOf vars) where
  each := forall₂_labels (forall₂_isKeyFor [] vars)
  distinct := by
    rw [literals_entriesOf]
    apply (nodup_dataKeys [] vars).map
    intro key key' h
    exact String.toByteArray_inj.mp (Option.some.inj h)
  readsBack := by
    intro hnames
    have hpairs : ∀ pair ∈ (dataKeys [] vars).zip vars, ∀ c ∈ pair.2.name.toList,
        isOperandChar c = true := by
      intro pair hpair
      exact hnames pair.2 (List.of_mem_zip hpair).2
    refine ⟨_, readMap?_mapLiteral hpairs, ?_⟩
    rw [entriesOf, List.forall₂_map_left_iff, List.forall₂_map_right_iff, List.forall₂_same]
    intro pair _
    exact ⟨Text.literal?_quote pair.1, rfl⟩

/-- The code that adds a breadcrumb. -/
def crumbText (sentry context category message : String) (data : List String) : String :=
  "\n".intercalate (
    ["if __sentry_hub := " ++ sentry ++ ".GetHubFromContext(" ++ context ++
        "); __sentry_hub != nil \x7b",
      "\t__sentry_hub.AddBreadcrumb(&" ++ sentry ++ ".Breadcrumb\x7b",
      "\t\tCategory: " ++ Text.quote category ++ ",",
      "\t\tMessage: " ++ Text.quote message ++ ","] ++
    data ++
    ["\t\x7d, nil)", "\x7d"])

/-- The lines with the arguments and the results of a call. -/
def callLines (args results : List Entry) : List String :=
  ["\t\tData: map[string]any\x7b",
    "\t\t\t\"args\": " ++ mapLiteral args ++ ",",
    "\t\t\t\"results\": " ++ mapLiteral results ++ ",",
    "\t\t\x7d,"]

variable {options : Options} {m : Method} {table : ImportTable}

theorem breadcrumbFragment_eq_ok_iff {fragment : Option String} :
    breadcrumbFragment options m table = .ok fragment ↔
      ∃ context args, m.params = context :: args ∧ context.type.isContext = true ∧
        fragment = some (crumbText (clientName table) context.name options.category m.name
          (dataLines (dataEntries options m args))) := by
  constructor
  · intro h
    obtain ⟨⟨context, args⟩, haccepted, h⟩ := Wrapper.bind_eq_ok.mp h
    obtain ⟨hparams, hcontext⟩ := contextAndRest_eq_ok_iff.mp haccepted
    cases h
    exact ⟨context, args, hparams, hcontext, rfl⟩
  · rintro ⟨context, args, hparams, hcontext, rfl⟩
    have haccepted := contextAndRest_eq_ok_iff.mpr ⟨hparams, hcontext⟩
    exact Wrapper.bind_eq_ok.mpr ⟨(context, args), haccepted, rfl⟩

/-- **Breadcrumbs.** Any method that takes a context first has one, which loses no variable and
reports none twice. -/
theorem breadcrumb_entries (hargs : options.noArgs = false) (hresults : options.noResults = false)
    (herror : options.onlyError = false) (m : Method) (table : ImportTable) :
    ((∃ fragment, (hook options).fragment .postCall m table = .ok fragment) ↔
      ∃ context args, m.params = context :: args ∧ context.type.isContext = true) ∧
    ∀ fragment, (hook options).fragment .postCall m table = .ok fragment →
      ∃ context args argEntries resultEntries, m.params = context :: args ∧
        fragment = some (crumbText (clientName table) context.name options.category m.name
          (callLines argEntries resultEntries)) ∧
        LabelsEach args argEntries ∧ LabelsEach m.results resultEntries := by
  have hfragment : (hook options).fragment .postCall m table = breadcrumbFragment options m table :=
    rfl
  simp only [hfragment, breadcrumbFragment_eq_ok_iff]
  constructor
  · constructor
    · rintro ⟨_, context, args, hparams, hcontext, -⟩
      exact ⟨context, args, hparams, hcontext⟩
    · rintro ⟨context, args, hparams, hcontext⟩
      exact ⟨_, context, args, hparams, hcontext, rfl⟩
  · rintro _ ⟨context, args, hparams, -, rfl⟩
    refine ⟨context, args, entriesOf args, entriesOf m.results, hparams, ?_,
      labelsEach_entriesOf args, labelsEach_entriesOf m.results⟩
    simp only [dataLines, dataEntries, hargs, hresults, herror, dataMap_eq]
    rfl

/-- A method with names that snake case does not tell apart, and one that looks lengthened. -/
def moveMethod : Method where
  name := "Move"
  params := [⟨"ctx", .named "context" "context" "Context"⟩, ⟨"userID", .predeclared "int"⟩,
    ⟨"user_id", .predeclared "int"⟩, ⟨"a_", .predeclared "int"⟩, ⟨"a", .predeclared "int"⟩,
    ⟨"A", .predeclared "int"⟩]
  results := [⟨"n", .predeclared "int"⟩, ⟨"err", .predeclared "error"⟩]
  variadic := false

theorem breadcrumb_moveMethod : ∃ argEntries resultEntries,
    (hook {}).fragment .postCall moveMethod .empty = .ok (some (crumbText "sentry" "ctx" "db.query"
      "Move" (callLines argEntries resultEntries))) ∧
    LabelsEach moveMethod.params.tail argEntries ∧
    LabelsEach moveMethod.results resultEntries := by
  obtain ⟨haccepted, hentries⟩ := @breadcrumb_entries {} rfl rfl rfl moveMethod .empty
  obtain ⟨fragment, hfragment⟩ := haccepted.mpr ⟨_, _, rfl, rfl⟩
  obtain ⟨context, args, argEntries, resultEntries, hparams, rfl, hargs, hresults⟩ :=
    hentries fragment hfragment
  cases hparams
  exact ⟨argEntries, resultEntries, hfragment, hargs, hresults⟩

example : dataMap moveMethod.params.tail =
    "map[string]any\x7b\"user_id\": userID, \"user_id_\": user_id, \"a_\": a_, \"a\": a, \"a__\": A\x7d" := by
  decide +kernel

end Interposer.Sentry
