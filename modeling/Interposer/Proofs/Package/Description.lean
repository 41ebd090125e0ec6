import Interposer.Proofs.Json.Record
import Interposer.Proofs.Json.Writing

/-! The descriptions of a package: in every record the fields may stand in any order, and those that
have their default value may be left out. The reader finds the package in each of its descriptions
(`Package.ofDescription_eq`). -/

namespace Interposer

namespace Description

open Json

variable {α : Type}

/-! ## Descriptions -/

/-- A field that may be left out where it has the default value. -/
inductive DescribesDefaulting (write : α → Json) (default : α) : α → Option Json → Prop
  | written (a : α) : DescribesDefaulting write default a (some (write a))
  | omitted : DescribesDefaulting write default default none

/-- A list of described things, which may be left out where it is empty. -/
inductive DescribesList (R : α → Json → Prop) : List α → Option Json → Prop
  | written : List.Forall₂ R values items → DescribesList R values (some (.array items))
  | omitted : DescribesList R [] none

def directionName : Direction → String
  | .both => "both"
  | .send => "send"
  | .receive => "recv"

section

variable (R : SourceType → Json → Prop)

inductive DescribesVariable : Variable → Json → Prop
  | mk : DescribesDefaulting .string "" name name' → R type type' →
    IsRecord [("name", name'), ("type", some type')] j → DescribesVariable (.mk name type) j

/-- The fields that describe a signature. -/
inductive DescribesSignature :
    List (String × Option Json) → List Variable → List Variable → Bool → Prop
  | mk : DescribesList (DescribesVariable R) params params' →
    DescribesList (DescribesVariable R) results results' →
    DescribesDefaulting .bool false variadic variadic' →
    DescribesSignature [("params", params'), ("results", results'), ("variadic", variadic')]
      params results variadic

/-- The fields of a signature stand in a method's own record, next to its name. -/
inductive DescribesMember : Member → Json → Prop
  | method : DescribesSignature R signature params results variadic →
    IsRecord (("name", some (.string name)) :: signature) j →
    DescribesMember (.method name params results variadic) j
  | embedded : R type type' → IsRecord [("embed", some type')] j →
    DescribesMember (.embedded type) j

end

inductive DescribesType : SourceType → Json → Prop
  | basic : IsRecord [("kind", some (.string "basic")), ("name", some (.string name))] j →
    DescribesType (.basic name) j
  | named : DescribesDefaulting .string "" package package' →
    DescribesList DescribesType args args' →
    IsRecord [("kind", some (.string "named")), ("package", package'),
      ("name", some (.string name)), ("type_args", args')] j →
    DescribesType (.named package name args) j
  | pointer : DescribesType elem elem' →
    IsRecord [("kind", some (.string "pointer")), ("elem", some elem')] j →
    DescribesType (.pointer elem) j
  | slice : DescribesType elem elem' →
    IsRecord [("kind", some (.string "slice")), ("elem", some elem')] j →
    DescribesType (.slice elem) j
  | array : length < lengthBound → DescribesType elem elem' →
    IsRecord [("kind", some (.string "array")), ("len", some (.natural length)),
      ("elem", some elem')] j →
    DescribesType (.array length elem) j
  | map : DescribesType key key' → DescribesType value value' →
    IsRecord [("kind", some (.string "map")), ("key", some key'), ("value", some value')] j →
    DescribesType (.map key value) j
  | func : DescribesSignature DescribesType signature params results variadic →
    IsRecord (("kind", some (.string "signature")) :: signature) j →
    DescribesType (.func params results variadic) j
  | interface : DescribesList (DescribesMember DescribesType) members members' →
    IsRecord [("kind", some (.string "interface")), ("methods", members')] j →
    DescribesType (.interface members) j
  | struct : DescribesList (DescribesVariable DescribesType) fields fields' →
    IsRecord [("kind", some (.string "struct")), ("fields", fields')] j →
    DescribesType (.struct fields) j
  | chan : DescribesDefaulting (fun d => .string (directionName d)) .both direction direction' →
    DescribesType elem elem' →
    IsRecord [("kind", some (.string "chan")), ("dir", direction'), ("elem", some elem')] j →
    DescribesType (.chan direction elem) j
  | typeParam : IsRecord [("kind", some (.string "type_param")), ("name", some (.string name))] j →
    DescribesType (.typeParam name) j
  | other : IsRecord [("kind", some (.string "other")),
      ("description", some (.string description))] j →
    DescribesType (.other description) j

inductive DescribesDeclaration : Declaration → Json → Prop
  | type : DescribesDefaulting (fun names => .array (names.map .string)) [] params params' →
    DescribesType underlying underlying' →
    IsRecord [("kind", some (.string "type")), ("name", some (.string name)),
      ("type_params", params'), ("type", some underlying')] j →
    DescribesDeclaration (.type name params underlying) j
  | typeAlias : DescribesType target target' →
    IsRecord [("kind", some (.string "alias")), ("name", some (.string name)),
      ("type", some target')] j →
    DescribesDeclaration (.typeAlias name target) j
  | var : IsRecord [("kind", some (.string "var")), ("name", some (.string name))] j →
    DescribesDeclaration (.var name) j
  | const : IsRecord [("kind", some (.string "const")), ("name", some (.string name))] j →
    DescribesDeclaration (.const name) j
  | func : IsRecord [("kind", some (.string "func")), ("name", some (.string name))] j →
    DescribesDeclaration (.func name) j

inductive DescribesPackage (p : Package) : Json → Prop
  | mk : DescribesList DescribesDeclaration p.declarations declarations' →
    IsRecord [("name", some (.string p.name)), ("path", some (.string p.path)),
      ("objects", declarations')] j →
    DescribesPackage p j

/-! ## Reading fields -/

/-- A reader that finds what is described no deeper than `n`. -/
def Reads (R : α → Json → Prop) (read? : Json → Option α) (n : Nat) : Prop :=
  ∀ a j, R a j → j.depth ≤ n → read? j = some a

variable {n : Nat}

theorem DescribesDefaulting.read {write : α → Json} {read? : Json → Option α} {default a : α}
    {field : Option Json} (h : DescribesDefaulting write default a field)
    (hread : ∀ a, read? (write a) = some a) : defaulting default read? field = some a := by
  cases h with
  | written => exact hread a
  | omitted => rfl

theorem Reads.list {R : α → Json → Prop} {read? : Json → Option α} (hread : Reads R read? n)
    {values : List α} {field : Option Json} (h : DescribesList R values field)
    (hdepth : ∀ j ∈ field, j.depth ≤ n) : defaulting [] (asList? read?) field = some values := by
  cases h with
  | omitted => rfl
  | written hitems =>
    refine asList?_eq hitems fun a j hj ha => hread a j ha ?_
    have := depth_le_of_mem_items hj
    have := hdepth _ rfl
    rw [depth] at this
    omega

section

variable {R : SourceType → Json → Prop} {read? : Json → Option SourceType}

theorem Reads.variable (hread : Reads R read? n) :
    Reads (DescribesVariable R) (readVariable read?) n := by
  intro v j h hdepth
  cases h with
  | @mk name name' type type' _ hname htype hrecord =>
    have htype : read? type' = some type := hread _ _ htype
      (Nat.le_trans (Nat.le_of_lt (hrecord.depth_lt "type" (by simp) rfl)) hdepth)
    have hname : defaulting "" asString? name' = some name := hname.read fun _ => rfl
    have hfields : j.record ["name", "type"] = some [name', some type'] :=
      hrecord.record_self (by simp)
    simp [readVariable, hfields, hname, required, htype]

theorem DescribesSignature.names {signature : List (String × Option Json)}
    {params results : List Variable} {variadic : Bool}
    (h : DescribesSignature R signature params results variadic) :
    signature.map Prod.fst = ["params", "results", "variadic"] := by
  cases h
  rfl

theorem Reads.signature (hread : Reads R read? n) {signature fields : List (String × Option Json)}
    {params results : List Variable} {variadic : Bool} {j : Json}
    (h : DescribesSignature R signature params results variadic) (hrecord : IsRecord fields j)
    (hnames : (fields.map Prod.fst).Nodup) (hsignature : ∀ field ∈ signature, field ∈ fields)
    (hdepth : j.depth ≤ n + 1) :
    readSignature read? j = some (params, results, variadic) := by
  have hfields := hrecord.record_eq hnames signature hsignature
  have hfield : ∀ name field, (name, field) ∈ signature → ∀ value ∈ field, value.depth ≤ n :=
    fun name field hmem value hvalue => by
      have := hrecord.depth_lt name (hsignature _ hmem) hvalue
      omega
  cases h with
  | @mk _ params' _ results' _ variadic' hparams hresults hvariadic =>
    have hparams : defaulting [] (readVariables read?) params' = some params :=
      hread.variable.list hparams (hfield "params" _ (by simp))
    have hresults : defaulting [] (readVariables read?) results' = some results :=
      hread.variable.list hresults (hfield "results" _ (by simp))
    have hvariadic : defaulting false asBool? variadic' = some variadic :=
      hvariadic.read fun _ => rfl
    simp only [List.map_cons, List.map_nil] at hfields
    simp [readSignature, hfields, hparams, hresults, hvariadic]

/-- An embedded type has no name, so it is not read as a method. -/
theorem Reads.member (hread : Reads R read? n) :
    Reads (DescribesMember R) (readMember read?) n := by
  intro member j h hdepth
  cases h with
  | @method signature params results variadic name _ hsignature hrecord =>
    have hnames : ("name" :: signature.map Prod.fst).Nodup := by simp [hsignature.names]
    have hread : readSignature read? j = some (params, results, variadic) :=
      hread.signature hsignature hrecord hnames (fun _ hfield => List.mem_cons_of_mem _ hfield)
        (Nat.le_succ_of_le hdepth)
    obtain ⟨members, rfl, hmembers⟩ := hrecord
    have hname : uniqueMember members "name" = some (some (.string name)) :=
      uniqueMember_eq hmembers hnames List.mem_cons_self
    simp [readMember, readMethod, hname, required, asString?, hread]
  | @embedded type type' _ htype hrecord =>
    have htype : read? type' = some type := hread _ _ htype
      (Nat.le_trans (Nat.le_of_lt (hrecord.depth_lt "embed" (by simp) rfl)) hdepth)
    obtain ⟨members, rfl, hmembers⟩ := hrecord
    have hname : uniqueMember members "name" = some none := uniqueMember_eq_none hmembers (by simp)
    have hembed : uniqueMember members "embed" = some (some type') :=
      uniqueMember_eq hmembers (by simp) (by simp)
    simp [readMember, readMethod, readEmbedded, hname, hembed, required, htype]

end

/-! ## Reading types -/

/-- A record of a known kind is read by its other fields. -/
theorem readType_of_kind {kind : String} {fields : List (String × Option Json)} {j : Json}
    {t : SourceType} (hrecord : IsRecord (("kind", some (.string kind)) :: fields) j)
    (hnames : ("kind" :: fields.map Prod.fst).Nodup) (hkind : typeKinds.contains kind = true)
    (hfields : ∀ rest, IsRecord fields rest → rest.depth ≤ j.depth →
      readTypeOfKind (readType n) kind rest = some t) :
    readType (n + 1) j = some t := by
  obtain ⟨rest, hsplit, hrest, hdepth⟩ := hrecord.splitKind_eq hnames
  simp [readType, hsplit, readTypeKind, List.contains_iff_mem.mp hkind, hfields rest hrest hdepth]

theorem reads_readType (n : Nat) : Reads DescribesType (readType n) n := by
  induction n with
  | zero =>
    intro t j h hdepth
    have hobject : ∀ fields, IsRecord fields j → False := by
      rintro fields ⟨members, rfl, -⟩
      exact absurd hdepth (Nat.not_succ_le_zero _)
    cases h <;> exact (hobject _ ‹_›).elim
  | succ n ih =>
    intro t j h hdepth
    -- what a field of the record without its kind is nested
    have hfield : ∀ {fields rest} name field, IsRecord fields rest → rest.depth ≤ j.depth →
        (name, field) ∈ fields → ∀ value ∈ field, value.depth ≤ n := by
      intro fields rest name field hrest hle hmem value hvalue
      have := hrest.depth_lt name hmem hvalue
      omega
    cases h with
    | @basic name _ hrecord =>
      refine readType_of_kind hrecord (by simp) (by decide) fun rest hrest hle => ?_
      have hfields : rest.record ["name"] = some [some (.string name)] :=
        hrest.record_self (by simp)
      simp [readTypeOfKind, hfields, required, asString?]
    | @named package package' args args' name _ hpackage hargs hrecord =>
      refine readType_of_kind hrecord (by simp) (by decide) fun rest hrest hle => ?_
      have hfields : rest.record ["package", "name", "type_args"] =
          some [package', some (.string name), args'] := hrest.record_self (by simp)
      have hpackage : defaulting "" asString? package' = some package :=
        hpackage.read fun _ => rfl
      have hargs : defaulting [] (asList? (readType n)) args' = some args :=
        ih.list hargs (hfield "type_args" _ hrest hle (by simp))
      simp [readTypeOfKind, hfields, required, asString?, hpackage, hargs]
    | @pointer elem elem' _ helem hrecord =>
      refine readType_of_kind hrecord (by simp) (by decide) fun rest hrest hle => ?_
      have hfields : rest.record ["elem"] = some [some elem'] := hrest.record_self (by simp)
      have helem := ih _ _ helem (hfield "elem" _ hrest hle (by simp) _ rfl)
      simp [readTypeOfKind, hfields, required, helem]
    | @slice elem elem' _ helem hrecord =>
      refine readType_of_kind hrecord (by simp) (by decide) fun rest hrest hle => ?_
      have hfields : rest.record ["elem"] = some [some elem'] := hrest.record_self (by simp)
      have helem := ih _ _ helem (hfield "elem" _ hrest hle (by simp) _ rfl)
      simp [readTypeOfKind, hfields, required, helem]
    | @array length elem elem' _ hlength helem hrecord =>
      refine readType_of_kind hrecord (by simp) (by decide) fun rest hrest hle => ?_
      have hfields : rest.record ["len", "elem"] = some [some (.natural length), some elem'] :=
        hrest.record_self (by simp)
      have helem := ih _ _ helem (hfield "elem" _ hrest hle (by simp) _ rfl)
      simp [readTypeOfKind, hfields, required, readLength?, hlength, helem]
    | @map key key' value value' _ hkey hvalue hrecord =>
      refine readType_of_kind hrecord (by simp) (by decide) fun rest hrest hle => ?_
      have hfields : rest.record ["key", "value"] = some [some key', some value'] :=
        hrest.record_self (by simp)
      have hkey := ih _ _ hkey (hfield "key" _ hrest hle (by simp) _ rfl)
      have hvalue := ih _ _ hvalue (hfield "value" _ hrest hle (by simp) _ rfl)
      simp [readTypeOfKind, hfields, required, hkey, hvalue]
    | @func signature params results variadic _ hsignature hrecord =>
      refine readType_of_kind hrecord (by simp [hsignature.names]) (by decide)
        fun rest hrest hle => ?_
      have hread : readSignature (readType n) rest = some (params, results, variadic) :=
        ih.signature hsignature hrest (by simp [hsignature.names]) (fun _ h => h)
          (Nat.le_trans hle hdepth)
      simp [readTypeOfKind, hread]
    | @interface members members' _ hmembers hrecord =>
      refine readType_of_kind hrecord (by simp) (by decide) fun rest hrest hle => ?_
      have hfields : rest.record ["methods"] = some [members'] := hrest.record_self (by simp)
      have hmembers : defaulting [] (asList? (readMember (readType n))) members' = some members :=
        ih.member.list hmembers (hfield "methods" _ hrest hle (by simp))
      simp [readTypeOfKind, hfields, hmembers]
    | @struct vars vars' _ hvars hrecord =>
      refine readType_of_kind hrecord (by simp) (by decide) fun rest hrest hle => ?_
      have hfields : rest.record ["fields"] = some [vars'] := hrest.record_self (by simp)
      have hvars : defaulting [] (readVariables (readType n)) vars' = some vars :=
        ih.variable.list hvars (hfield "fields" _ hrest hle (by simp))
      simp [readTypeOfKind, hfields, hvars]
    | @chan direction direction' elem elem' _ hdirection helem hrecord =>
      refine readType_of_kind hrecord (by simp) (by decide) fun rest hrest hle => ?_
      have hfields : rest.record ["dir", "elem"] = some [direction', some elem'] :=
        hrest.record_self (by simp)
      have hdirection : defaulting .both readDirection? direction' = some direction :=
        hdirection.read fun d => by cases d <;> rfl
      have helem := ih _ _ helem (hfield "elem" _ hrest hle (by simp) _ rfl)
      simp [readTypeOfKind, hfields, required, hdirection, helem]
    | @typeParam name _ hrecord =>
      refine readType_of_kind hrecord (by simp) (by decide) fun rest hrest hle => ?_
      have hfields : rest.record ["name"] = some [some (.string name)] :=
        hrest.record_self (by simp)
      simp [readTypeOfKind, hfields, required, asString?]
    | @other description _ hrecord =>
      refine readType_of_kind hrecord (by simp) (by decide) fun rest hrest hle => ?_
      have hfields : rest.record ["description"] = some [some (.string description)] :=
        hrest.record_self (by simp)
      simp [readTypeOfKind, hfields, required, asString?]

/-! ## Reading declarations -/

theorem mapM_asString? (names : List String) : (names.map .string).mapM asString? = some names := by
  induction names with
  | nil => rfl
  | cons name names ih =>
    rw [List.map_cons, List.mapM_cons, ih]
    rfl

theorem readDeclaration_of_kind {kind : String} {fields : List (String × Option Json)} {j : Json}
    {d : Declaration} (hrecord : IsRecord (("kind", some (.string kind)) :: fields) j)
    (hnames : ("kind" :: fields.map Prod.fst).Nodup) (hreadable : j.isReadable = true)
    (hdepth : j.depth + 2 ≤ maxNesting)
    (hfields : ∀ rest, IsRecord fields rest → readDeclarationOfKind kind rest = some d) :
    readDeclaration j = some d := by
  obtain ⟨rest, hsplit, hrest, -⟩ := hrecord.splitKind_eq hnames
  simp [readDeclaration, hreadable, hdepth, hsplit, asString?, hfields rest hrest]

theorem DescribesDeclaration.readDeclaration_eq {d : Declaration} {j : Json}
    (h : DescribesDeclaration d j) (hreadable : j.isReadable = true)
    (hdepth : j.depth + 2 ≤ maxNesting) : readDeclaration j = some d := by
  have hread : ∀ {fields rest} name {t t'}, IsRecord fields rest → (name, some t') ∈ fields →
      DescribesType t t' → readType rest.depth t' = some t := by
    intro fields rest name t t' hrest hmem ht
    exact reads_readType _ _ _ ht (Nat.le_of_lt (hrest.depth_lt name hmem rfl))
  cases h with
  | @type params params' underlying underlying' name _ hparams htype hrecord =>
    refine readDeclaration_of_kind hrecord (by simp) hreadable hdepth fun rest hrest => ?_
    have hfields : rest.record ["name", "type_params", "type"] =
        some [some (.string name), params', some underlying'] := hrest.record_self (by simp)
    have hparams : defaulting [] (asList? asString?) params' = some params :=
      hparams.read mapM_asString?
    have htype := hread "type" hrest (by simp) htype
    simp [readDeclarationOfKind, hfields, required, asString?, hparams, htype]
  | @typeAlias target target' name _ htarget hrecord =>
    refine readDeclaration_of_kind hrecord (by simp) hreadable hdepth fun rest hrest => ?_
    have hfields : rest.record ["name", "type"] = some [some (.string name), some target'] :=
      hrest.record_self (by simp)
    have htarget := hread "type" hrest (by simp) htarget
    simp [readDeclarationOfKind, hfields, required, asString?, htarget]
  | @var name _ hrecord | @const name _ hrecord | @func name _ hrecord =>
    refine readDeclaration_of_kind hrecord (by simp) hreadable hdepth fun rest hrest => ?_
    have hfields : rest.record ["name"] = some [some (.string name)] :=
      hrest.record_self (by simp)
    simp [readDeclarationOfKind, hfields, required, asString?]

theorem DescribesPackage.readPackage_eq {p : Package} {j : Json} (h : DescribesPackage p j)
    (hreadable : j.isReadable = true) (hdepth : j.depth ≤ maxNesting) :
    readPackage j = some p := by
  cases h with
  | @mk declarations' _ hdeclarations hrecord =>
    have hfields : j.record ["name", "path", "objects"] =
        some [some (.string p.name), some (.string p.path), declarations'] :=
      hrecord.record_self (by simp)
    have hread : defaulting [] (asList? readDeclaration) declarations' = some p.declarations := by
      generalize p.declarations = declarations at hdeclarations
      cases hdeclarations with
      | omitted => rfl
      | @written _ items hitems =>
        have harray : (Json.array items).depth < j.depth :=
          hrecord.depth_lt "objects" (by simp) rfl
        have hreadables : (Json.array items).isReadable = true :=
          hrecord.isReadable hreadable "objects" (by simp) rfl
        refine asList?_eq hitems fun d j' hj' hd => hd.readDeclaration_eq ?_ ?_
        · exact isReadable_of_mem_items hreadables hj'
        · have := depth_le_of_mem_items hj'
          rw [depth] at harray
          omega
    simp [readPackage, hfields, required, asString?, hread]

end Description

/-- A package is found in every text of each of its descriptions. -/
theorem Package.ofDescription_eq {p : Package} {j : Json} {text : String}
    (h : Description.DescribesPackage p j) (htext : j.IsText text.toList)
    (hdepth : j.depth ≤ Description.maxNesting) (location : String) :
    Package.ofDescription location text = .ok p := by
  rw [ofDescription, htext.parse?_eq, Option.bind_some, h.readPackage_eq htext.isReadable hdepth]

/-! ## A description with its fields in another order -/

/-- A package with one interface, which embeds another one. -/
def journal : Package where
  name := "journal"
  path := "example.com/journal"
  declarations := [.type "Journal" [] (.interface
    [.method "Write" [.mk "" (.slice (.basic "byte"))] [] true,
      .embedded (.named "" "error" [])])]

/-- Every record from its last field to its first, without the fields that have a default. -/
def journalDescription : Json :=
  let bytes := Json.object
    [("elem", .object [("name", .string "byte"), ("kind", .string "basic")]),
      ("kind", .string "slice")]
  let write := Json.object
    [("variadic", .bool true), ("params", .array [.object [("type", bytes)]]),
      ("name", .string "Write")]
  let error := Json.object [("name", .string "error"), ("kind", .string "named")]
  let journal := Json.object
    [("methods", .array [write, .object [("embed", error)]]), ("kind", .string "interface")]
  .object
    [("objects", .array [.object
        [("type", journal), ("name", .string "Journal"), ("kind", .string "type")]]),
      ("path", .string "example.com/journal"), ("name", .string "journal")]

open Description in
theorem describesPackage_journal : DescribesPackage journal journalDescription := by
  have hrecord := fun fields => Json.isRecord_reverse fields
  have hbyte : DescribesType (.basic "byte") _ := .basic (hrecord _)
  have hbytes : DescribesVariable DescribesType (.mk "" (.slice (.basic "byte"))) _ :=
    .mk .omitted (.slice hbyte (hrecord _)) (hrecord _)
  have hwrite : DescribesMember DescribesType
      (.method "Write" [.mk "" (.slice (.basic "byte"))] [] true) _ :=
    .method (.mk (.written (.cons hbytes .nil)) .omitted (.written true)) (hrecord _)
  have herror : DescribesMember DescribesType (.embedded (.named "" "error" [])) _ :=
    .embedded (.named .omitted .omitted (hrecord _)) (hrecord _)
  have hjournal : DescribesType (.interface _) _ :=
    .interface (.written (.cons hwrite (.cons herror .nil))) (hrecord _)
  exact .mk (.written (.cons (.type .omitted hjournal (hrecord _)) .nil)) (hrecord _)

def journalText : String := String.ofList (journalDescription.compact?.getD [])

theorem isText_journalText : journalDescription.IsText journalText.toList := by
  obtain ⟨text, htext⟩ : ∃ text, journalDescription.compact? = some text :=
    Option.isSome_iff_exists.mp (by decide +kernel)
  rw [journalText, htext, Option.getD_some, String.toList_ofList]
  exact (Json.writes_of_compact? _ htext).isText

theorem depth_journalDescription : journalDescription.depth ≤ Description.maxNesting := by decide

theorem Package.ofDescription_journal : Description.DescribesPackage journal journalDescription ∧
    journalDescription.IsText journalText.toList ∧
    journalDescription.depth ≤ Description.maxNesting ∧
    Package.ofDescription "journal.json" journalText = .ok journal :=
  ⟨describesPackage_journal, isText_journalText, depth_journalDescription,
    Package.ofDescription_eq describesPackage_journal isText_journalText depth_journalDescription
      "journal.json"⟩

end Interposer
