import Interposer.Proofs.Wrapper.Contributions

/-! The body of a method. The wrapped method is called in one statement and its results are returned
in another; all that a body has besides is empty lines and code of hooks, perhaps behind a test of
the error (`methodBody_eq`). -/

namespace Interposer.Wrapper

variable {m : Method} {table : ImportTable} {hooks : List Hook}

/-! ## The call -/

/-- A call of a method on a field of the receiver, with variables as arguments and variables for
its results. -/
structure Call where
  targets : List String
  receiver : String
  field : String
  method : String
  args : List String
  /-- The last argument is a slice, passed as `...`. -/
  spread : Bool

def Call.text (c : Call) : String :=
  (if c.targets.isEmpty then "" else ", ".intercalate c.targets ++ " = ") ++
    c.receiver ++ "." ++ c.field ++ "." ++ c.method ++
    "(" ++ ", ".intercalate c.args ++ (if c.spread && !c.args.isEmpty then "..." else "") ++ ")"

/-- The call that hands a method on to the wrapped value. -/
def forwardingCall (receiver : String) (m : Method) : Call where
  targets := m.results.map (·.name)
  receiver
  field := wrappedName
  method := m.name
  args := m.params.map (·.name)
  spread := m.variadic

theorem intercalate_arguments (variadic : Bool) (params : List Parameter) :
    ", ".intercalate (arguments variadic params) = ", ".intercalate (params.map (·.name)) ++
      (if variadic && !(params.map (·.name)).isEmpty then "..." else "") := by
  induction params with
  | nil => cases variadic <;> rfl
  | cons p rest ih =>
    cases rest with
    | nil => cases variadic <;> simp [arguments]
    | cons q rest =>
      have hne : arguments variadic (q :: rest) ≠ [] := by cases rest <;> simp [arguments]
      rw [arguments, String.intercalate_cons_of_ne_nil hne, ih]
      · simp only [List.map_cons, List.isEmpty_cons, String.intercalate_cons_cons,
          String.append_assoc]
      · exact nofun

theorem delegateCall_eq (receiver : String) (m : Method) :
    delegateCall receiver m = (forwardingCall receiver m).text := by
  simp only [delegateCall, Call.text, forwardingCall, intercalate_arguments, List.isEmpty_map]
  split <;> simp [String.append_assoc]

/-! ## Groups of statements -/

theorem eq_or_mem_of_mem_intersperse {α : Type} {sep x : α} {xs : List α}
    (h : x ∈ xs.intersperse sep) : x = sep ∨ x ∈ xs := by
  induction xs with
  | nil => exact .inr h
  | cons y ys ih =>
    cases ys with
    | nil => exact .inr h
    | cons z zs =>
      rw [List.intersperse_cons_cons, List.mem_cons, List.mem_cons] at h
      rcases h with rfl | rfl | h
      · exact .inr List.mem_cons_self
      · exact .inl rfl
      · exact (ih h).imp_right (List.mem_cons_of_mem _)

theorem mem_statements {cs : List Contribution} {s : Statement} (hs : s ∈ statements cs) :
    s = .blank ∨ ∃ c ∈ cs, s = .raw c.code := by
  refine (eq_or_mem_of_mem_intersperse hs).imp_right fun h => ?_
  obtain ⟨c, hc, rfl⟩ := List.mem_map.mp h
  exact ⟨c, hc, rfl⟩

/-- A group is followed by at most an empty line and then by what comes of the others. -/
theorem joinGroups_cons (group : List Statement) (groups : List (List Statement)) :
    ∃ gap, joinGroups (group :: groups) = group ++ (gap ++ joinGroups groups) ∧
      ∀ s ∈ gap, s = .blank := by
  rw [joinGroups]
  by_cases hgroup : group.isEmpty
  · rw [if_pos hgroup, List.isEmpty_iff.mp hgroup]
    exact ⟨[], rfl, nofun⟩
  by_cases hrest : (joinGroups groups).isEmpty
  · rw [if_neg hgroup, if_pos hrest, List.isEmpty_iff.mp hrest]
    exact ⟨[], by simp, nofun⟩
  · rw [if_neg hgroup, if_neg hrest]
    exact ⟨[.blank], rfl, List.forall_mem_singleton.mpr rfl⟩

/-! ## The body -/

/-- A statement of a body that is not there for the call: an empty line, or code of which `code`
holds, which may be put behind a condition. -/
inductive Added (code : String → Prop) : Statement → Prop
  | blank : Added code .blank
  | raw : code text → Added code (.raw text)
  | ifThen : (∀ s ∈ body, Added code s) → Added code (.ifThen condition body)
  | ifElse : (∀ s ∈ body, Added code s) → (∀ s ∈ alternative, Added code s) →
    Added code (.ifElse condition body alternative)

/-- The code is what a hook has for some point of the method. -/
def HookCode (hooks : List Hook) (m : Method) (table : ImportTable) (code : String) : Prop :=
  ∃ hook ∈ hooks, ∃ point, Consulted m point ∧ hook.fragment point m table = .ok (some code)

/-- The statement that returns the results, if there are any. -/
def returnOf (results : List Parameter) : List Statement :=
  if results.isEmpty then [] else [.returns (results.map (·.name))]

theorem added_statements {f : Fragments} (h : fragments m table hooks = .ok f)
    (point : HookPoint) : ∀ s ∈ statements (f.at point), Added (HookCode hooks m table) s := by
  intro s hs
  rcases mem_statements hs with rfl | ⟨⟨hook, code⟩, hc, rfl⟩
  · exact .blank
  · obtain ⟨hhook, hconsulted, hcode⟩ := (mem_fragments_at h point).mp hc
    exact .raw ⟨hook, hhook, point, hconsulted, hcode⟩

theorem added_gate {code : String → Prop} {err : String} {onSuccess onError : List Statement}
    (hsuccess : ∀ s ∈ onSuccess, Added code s) (herror : ∀ s ∈ onError, Added code s) :
    ∀ s ∈ gate err onSuccess onError, Added code s := by
  unfold gate
  split
  · exact nofun
  · exact List.forall_mem_singleton.mpr (.ifThen hsuccess)
  · exact List.forall_mem_singleton.mpr (.ifThen herror)
  · exact List.forall_mem_singleton.mpr (.ifElse herror hsuccess)

/-- What is done about the outcome of the call. -/
def outcome (m : Method) (f : Fragments) : List Statement :=
  match m.errorResult? with
  | some err => gate err.name (statements f.onSuccess) (statements f.onError)
  | none => statements f.onSuccess

theorem added_outcome {f : Fragments} (h : fragments m table hooks = .ok f) :
    ∀ s ∈ outcome m f, Added (HookCode hooks m table) s := by
  have hsuccess := added_statements h .onSuccess
  unfold outcome
  split
  · exact added_gate hsuccess (added_statements h .onError)
  · exact hsuccess

/-- A body calls the wrapped method and ends by returning the results. -/
theorem methodBody_eq {f : Fragments} (h : fragments m table hooks = .ok f) (receiver : String) :
    ∃ before after, methodBody receiver m f =
        before ++ .raw (forwardingCall receiver m).text :: (after ++ returnOf m.results) ∧
      ∀ s ∈ before ++ after, Added (HookCode hooks m table) s := by
  have hbody : methodBody receiver m f = joinGroups [statements f.preCall,
      [.raw (delegateCall receiver m)], statements f.postCall, outcome m f,
      returnOf m.results] := rfl
  obtain ⟨gap₁, hjoin₁, hgap₁⟩ := joinGroups_cons (statements f.preCall)
    [[.raw (delegateCall receiver m)], statements f.postCall, outcome m f, returnOf m.results]
  obtain ⟨gap₂, hjoin₂, hgap₂⟩ := joinGroups_cons [.raw (delegateCall receiver m)]
    [statements f.postCall, outcome m f, returnOf m.results]
  obtain ⟨gap₃, hjoin₃, hgap₃⟩ := joinGroups_cons (statements f.postCall)
    [outcome m f, returnOf m.results]
  obtain ⟨gap₄, hjoin₄, hgap₄⟩ := joinGroups_cons (outcome m f) [returnOf m.results]
  have hlast : joinGroups [returnOf m.results] = returnOf m.results := by
    cases returnOf m.results <;> rfl
  rw [hjoin₁, hjoin₂, hjoin₃, hjoin₄, hlast, delegateCall_eq] at hbody
  have hblank {gap : List Statement} (hgap : ∀ s ∈ gap, s = .blank) :
      ∀ s ∈ gap, Added (HookCode hooks m table) s := fun s hs => hgap s hs ▸ .blank
  refine ⟨statements f.preCall ++ gap₁,
    gap₂ ++ (statements f.postCall ++ (gap₃ ++ (outcome m f ++ gap₄))), ?_, ?_⟩
  · rw [hbody]
    simp
  · simp only [List.forall_mem_append]
    exact ⟨⟨added_statements h .preCall, hblank hgap₁⟩, hblank hgap₂,
      added_statements h .postCall, hblank hgap₃, added_outcome h, hblank hgap₄⟩

end Interposer.Wrapper
