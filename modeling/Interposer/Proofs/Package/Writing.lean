import Interposer.Proofs.Package.Description

/-! Every package whose array lengths are machine words has a description, and the description has
a text (`Package.exists_description`). -/

namespace Interposer

/-! ## Array lengths -/

mutual

/-- All array lengths in the type are machine words. -/
def SourceType.LengthsFit : SourceType → Prop
  | .array length elem => length < lengthBound ∧ elem.LengthsFit
  | .pointer elem | .slice elem | .chan _ elem => elem.LengthsFit
  | .map key value => key.LengthsFit ∧ value.LengthsFit
  | .named _ _ args => TypesFit args
  | .func params results _ => VariablesFit params ∧ VariablesFit results
  | .interface members => MembersFit members
  | .struct fields => VariablesFit fields
  | .basic _ | .typeParam _ | .other _ => True

def TypesFit : List SourceType → Prop
  | [] => True
  | t :: types => t.LengthsFit ∧ TypesFit types

def VariablesFit : List Variable → Prop
  | [] => True
  | .mk _ type :: vars => type.LengthsFit ∧ VariablesFit vars

def MembersFit : List Member → Prop
  | [] => True
  | .method _ params results _ :: members =>
    (VariablesFit params ∧ VariablesFit results) ∧ MembersFit members
  | .embedded type :: members => type.LengthsFit ∧ MembersFit members

end

def Declaration.LengthsFit : Declaration → Prop
  | .type _ _ t | .typeAlias _ t => t.LengthsFit
  | .var _ | .const _ | .func _ => True

namespace Description

open Json

variable {α : Type}

/-! ## Records that can be written -/

theorem exists_record (fields : List (String × Option Json))
    (h : ∀ m ∈ membersOf fields, m.2.IsWritable) : ∃ j, IsRecord fields j ∧ j.IsWritable :=
  ⟨.object (membersOf fields), ⟨_, rfl, .refl _⟩, .object h⟩

/-- All of the values have descriptions that can be written. -/
def AreDescribed (R : α → Json → Prop) (values : List α) : Prop :=
  ∃ items, List.Forall₂ R values items ∧ ∀ j ∈ items, j.IsWritable

theorem AreDescribed.nil {R : α → Json → Prop} : AreDescribed R [] := ⟨[], .nil, nofun⟩

theorem AreDescribed.cons {R : α → Json → Prop} {a : α} {values : List α}
    (h : ∃ j, R a j ∧ j.IsWritable) (hvalues : AreDescribed R values) :
    AreDescribed R (a :: values) := by
  obtain ⟨j, hj, hwritable⟩ := h
  obtain ⟨items, hitems, hall⟩ := hvalues
  exact ⟨j :: items, .cons hj hitems, List.forall_mem_cons.mpr ⟨hwritable, hall⟩⟩

theorem AreDescribed.list {R : α → Json → Prop} {values : List α} (h : AreDescribed R values) :
    ∃ j, DescribesList R values (some j) ∧ j.IsWritable := by
  obtain ⟨items, hitems, hall⟩ := h
  exact ⟨_, .written hitems, .array hall⟩

theorem exists_signature {R : SourceType → Json → Prop} {params results : List Variable}
    (hparams : AreDescribed (DescribesVariable R) params)
    (hresults : AreDescribed (DescribesVariable R) results) (variadic : Bool) :
    ∃ signature, DescribesSignature R signature params results variadic ∧
      ∀ m ∈ membersOf signature, m.2.IsWritable := by
  obtain ⟨params', hparams, hparamsw⟩ := hparams.list
  obtain ⟨results', hresults, hresultsw⟩ := hresults.list
  exact ⟨_, .mk hparams hresults (.written variadic), by simp [membersOf, hparamsw, hresultsw]⟩

/-! ## Descriptions of types -/

mutual

theorem exists_describesType : ∀ t : SourceType, t.LengthsFit →
    ∃ j, DescribesType t j ∧ j.IsWritable
  | .basic name, _ => by
    obtain ⟨j, hrecord, hj⟩ :=
      exists_record [("kind", some (.string "basic")), ("name", some (.string name))]
        (by simp [membersOf])
    exact ⟨j, .basic hrecord, hj⟩
  | .named package name args, h => by
    obtain ⟨args', hargs, hargsw⟩ := (areDescribed_types args h).list
    obtain ⟨j, hrecord, hj⟩ := exists_record [("kind", some (.string "named")),
      ("package", some (.string package)), ("name", some (.string name)), ("type_args", some args')]
        (by simp [membersOf, hargsw])
    exact ⟨j, .named (.written package) hargs hrecord, hj⟩
  | .pointer elem, h => by
    obtain ⟨elem', helem, helemw⟩ := exists_describesType elem h
    obtain ⟨j, hrecord, hj⟩ :=
      exists_record [("kind", some (.string "pointer")), ("elem", some elem')]
        (by simp [membersOf, helemw])
    exact ⟨j, .pointer helem hrecord, hj⟩
  | .slice elem, h => by
    obtain ⟨elem', helem, helemw⟩ := exists_describesType elem h
    obtain ⟨j, hrecord, hj⟩ :=
      exists_record [("kind", some (.string "slice")), ("elem", some elem')]
        (by simp [membersOf, helemw])
    exact ⟨j, .slice helem hrecord, hj⟩
  | .array length elem, h => by
    obtain ⟨hlength, h⟩ := h
    obtain ⟨elem', helem, helemw⟩ := exists_describesType elem h
    obtain ⟨j, hrecord, hj⟩ := exists_record [("kind", some (.string "array")),
      ("len", some (.natural length)), ("elem", some elem')]
        (by simp [membersOf, helemw, isWritable_natural hlength])
    exact ⟨j, .array hlength helem hrecord, hj⟩
  | .map key value, h => by
    obtain ⟨key', hkey, hkeyw⟩ := exists_describesType key h.1
    obtain ⟨value', hvalue, hvaluew⟩ := exists_describesType value h.2
    obtain ⟨j, hrecord, hj⟩ :=
      exists_record [("kind", some (.string "map")), ("key", some key'), ("value", some value')]
        (by simp [membersOf, hkeyw, hvaluew])
    exact ⟨j, .map hkey hvalue hrecord, hj⟩
  | .func params results variadic, h => by
    obtain ⟨signature, hsignature, hsignaturew⟩ := exists_signature
      (areDescribed_variables params h.1) (areDescribed_variables results h.2) variadic
    obtain ⟨j, hrecord, hj⟩ := exists_record (("kind", some (.string "signature")) :: signature)
      (by rw [membersOf_cons]; simpa using hsignaturew)
    exact ⟨j, .func hsignature hrecord, hj⟩
  | .interface members, h => by
    obtain ⟨members', hmembers, hmembersw⟩ := (areDescribed_members members h).list
    obtain ⟨j, hrecord, hj⟩ :=
      exists_record [("kind", some (.string "interface")), ("methods", some members')]
        (by simp [membersOf, hmembersw])
    exact ⟨j, .interface hmembers hrecord, hj⟩
  | .struct fields, h => by
    obtain ⟨fields', hfields, hfieldsw⟩ := (areDescribed_variables fields h).list
    obtain ⟨j, hrecord, hj⟩ :=
      exists_record [("kind", some (.string "struct")), ("fields", some fields')]
        (by simp [membersOf, hfieldsw])
    exact ⟨j, .struct hfields hrecord, hj⟩
  | .chan direction elem, h => by
    obtain ⟨elem', helem, helemw⟩ := exists_describesType elem h
    obtain ⟨j, hrecord, hj⟩ := exists_record [("kind", some (.string "chan")),
      ("dir", some (.string (directionName direction))), ("elem", some elem')]
        (by simp [membersOf, helemw])
    exact ⟨j, .chan (.written direction) helem hrecord, hj⟩
  | .typeParam name, _ => by
    obtain ⟨j, hrecord, hj⟩ :=
      exists_record [("kind", some (.string "type_param")), ("name", some (.string name))]
        (by simp [membersOf])
    exact ⟨j, .typeParam hrecord, hj⟩
  | .other description, _ => by
    obtain ⟨j, hrecord, hj⟩ := exists_record [("kind", some (.string "other")),
      ("description", some (.string description))] (by simp [membersOf])
    exact ⟨j, .other hrecord, hj⟩

theorem areDescribed_types : ∀ types : List SourceType, TypesFit types →
    AreDescribed DescribesType types
  | [], _ => .nil
  | t :: types, h => .cons (exists_describesType t h.1) (areDescribed_types types h.2)

theorem areDescribed_variables : ∀ vars : List Variable, VariablesFit vars →
    AreDescribed (DescribesVariable DescribesType) vars
  | [], _ => .nil
  | .mk name type :: vars, h => by
    obtain ⟨type', htype, htypew⟩ := exists_describesType type h.1
    obtain ⟨j, hrecord, hj⟩ :=
      exists_record [("name", some (.string name)), ("type", some type')]
        (by simp [membersOf, htypew])
    exact .cons ⟨j, .mk (.written name) htype hrecord, hj⟩ (areDescribed_variables vars h.2)

theorem areDescribed_members : ∀ members : List Member, MembersFit members →
    AreDescribed (DescribesMember DescribesType) members
  | [], _ => .nil
  | .method name params results variadic :: members, h => by
    obtain ⟨signature, hsignature, hsignaturew⟩ := exists_signature
      (areDescribed_variables params h.1.1) (areDescribed_variables results h.1.2) variadic
    obtain ⟨j, hrecord, hj⟩ := exists_record (("name", some (.string name)) :: signature)
      (by rw [membersOf_cons]; simpa using hsignaturew)
    exact .cons ⟨j, .method hsignature hrecord, hj⟩ (areDescribed_members members h.2)
  | .embedded type :: members, h => by
    obtain ⟨type', htype, htypew⟩ := exists_describesType type h.1
    obtain ⟨j, hrecord, hj⟩ :=
      exists_record [("embed", some type')] (by simp [membersOf, htypew])
    exact .cons ⟨j, .embedded htype hrecord, hj⟩ (areDescribed_members members h.2)

end

/-! ## Descriptions of packages -/

theorem exists_describesDeclaration (d : Declaration) (h : d.LengthsFit) :
    ∃ j, DescribesDeclaration d j ∧ j.IsWritable := by
  cases d with
  | type name params type =>
    obtain ⟨type', htype, htypew⟩ := exists_describesType type h
    have hparamsw : (Json.array (params.map .string)).IsWritable :=
      .array (List.forall_mem_map.mpr fun name _ => isWritable_string name)
    obtain ⟨j, hrecord, hj⟩ := exists_record [("kind", some (.string "type")),
      ("name", some (.string name)), ("type_params", some (.array (params.map .string))),
      ("type", some type')] (by simp [membersOf, hparamsw, htypew])
    exact ⟨j, .type (.written params) htype hrecord, hj⟩
  | typeAlias name type =>
    obtain ⟨type', htype, htypew⟩ := exists_describesType type h
    obtain ⟨j, hrecord, hj⟩ := exists_record [("kind", some (.string "alias")),
      ("name", some (.string name)), ("type", some type')] (by simp [membersOf, htypew])
    exact ⟨j, .typeAlias htype hrecord, hj⟩
  | var name =>
    obtain ⟨j, hrecord, hj⟩ :=
      exists_record [("kind", some (.string "var")), ("name", some (.string name))]
        (by simp [membersOf])
    exact ⟨j, .var hrecord, hj⟩
  | const name =>
    obtain ⟨j, hrecord, hj⟩ :=
      exists_record [("kind", some (.string "const")), ("name", some (.string name))]
        (by simp [membersOf])
    exact ⟨j, .const hrecord, hj⟩
  | func name =>
    obtain ⟨j, hrecord, hj⟩ :=
      exists_record [("kind", some (.string "func")), ("name", some (.string name))]
        (by simp [membersOf])
    exact ⟨j, .func hrecord, hj⟩

end Description

open Description in
theorem Package.exists_description (p : Package) (h : ∀ d ∈ p.declarations, d.LengthsFit) :
    ∃ j text, DescribesPackage p j ∧ j.IsText text := by
  have hall : AreDescribed DescribesDeclaration p.declarations := by
    generalize p.declarations = declarations at h
    induction declarations with
    | nil => exact .nil
    | cons d declarations ih =>
      obtain ⟨hd, hrest⟩ := List.forall_mem_cons.mp h
      exact .cons (exists_describesDeclaration d hd) (ih hrest)
  obtain ⟨declarations', hdeclarations, hdeclarationsw⟩ := hall.list
  obtain ⟨j, hrecord, hj⟩ := exists_record [("name", some (.string p.name)),
    ("path", some (.string p.path)), ("objects", some declarations')]
      (by simp [Json.membersOf, hdeclarationsw])
  obtain ⟨text, htext⟩ := Option.isSome_iff_exists.mp hj
  exact ⟨j, text, .mk hdeclarations hrecord, (Json.writes_of_compact? j htext).isText⟩

end Interposer
