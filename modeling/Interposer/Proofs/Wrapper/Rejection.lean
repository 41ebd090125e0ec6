import Interposer.Proofs.Wrapper.Contributions

/-! Rejections. A file is written method by method, each method point by point, and at each point
the hooks that have a capability there are consulted in their order. The first consultation that
fails is the failure of the file, and there is no other way for it to fail. -/

namespace Interposer.Wrapper

/-- A capability of a hook, asked about a method. -/
structure Consultation where
  method : Method
  point : HookPoint
  capability : Capability

def Consultation.answer (c : Consultation) (table : ImportTable) : Except Failure (Option String) :=
  c.capability c.method table

def returnsError (m : Method) : Bool := m.results.getLast?.any (·.type.render == "error")

/-- The points of a method, in the order in which hooks are consulted. -/
def pointsOf (m : Method) : List HookPoint :=
  [.preCall, .postCall, .onSuccess] ++ if returnsError m then [.onError] else []

def consultationsAt (hooks : List Hook) (m : Method) (point : HookPoint) : List Consultation :=
  hooks.filterMap fun h => (h.capability? point).map fun capability => ⟨m, point, capability⟩

def consultations (hooks : List Hook) (methods : List Method) : List Consultation :=
  methods.flatMap fun m => (pointsOf m).flatMap (consultationsAt hooks m)

/-- The first of the consultations that fails does so with `failure`. -/
def FirstFails (table : ImportTable) (cs : List Consultation) (failure : Failure) : Prop :=
  ∃ earlier c later, cs = earlier ++ c :: later ∧
    (∀ c' ∈ earlier, ∃ code, c'.answer table = .ok code) ∧ c.answer table = .error failure

/-! ## Failures of what is done in turn -/

def failure? {α : Type} : Except Failure α → Option Failure
  | .ok _ => none
  | .error failure => some failure

theorem failure?_eq_some_iff {α : Type} {x : Except Failure α} {failure : Failure} :
    failure? x = some failure ↔ x = .error failure := by
  cases x <;> simp [failure?]

theorem failure?_eq_none_iff {α : Type} {x : Except Failure α} :
    failure? x = none ↔ ∃ a, x = .ok a := by
  cases x <;> simp [failure?]

/-- If what is done next fails in one way whatever it is given, the first failure counts. -/
theorem failure?_bind {α β : Type} {x : Except Failure α} {f : α → Except Failure β}
    {next : Option Failure} (h : ∀ a, failure? (f a) = next) :
    failure? (x >>= f) = (failure? x).or next := by
  cases x with
  | error failure => rfl
  | ok a => exact h a

theorem failure?_bind_of_none {α β : Type} {x : Except Failure α} {f : α → Except Failure β}
    (h : ∀ a, failure? (f a) = none) : failure? (x >>= f) = failure? x :=
  (failure?_bind h).trans Option.or_none

def firstFailure? (table : ImportTable) (cs : List Consultation) : Option Failure :=
  cs.findSome? fun c => failure? (c.answer table)

variable {table : ImportTable} {hooks : List Hook}

theorem firstFailure?_append (cs cs' : List Consultation) : firstFailure? table (cs ++ cs') =
    (firstFailure? table cs).or (firstFailure? table cs') :=
  List.findSome?_append

theorem firstFailure?_eq_some_iff {cs : List Consultation} {failure : Failure} :
    firstFailure? table cs = some failure ↔ FirstFails table cs failure := by
  simp only [firstFailure?, List.findSome?_eq_some_iff, failure?_eq_some_iff,
    failure?_eq_none_iff, FirstFails]
  exact ⟨fun ⟨earlier, c, later, heq, hc, hearlier⟩ => ⟨earlier, c, later, heq, hearlier, hc⟩,
    fun ⟨earlier, c, later, heq, hearlier, hc⟩ => ⟨earlier, c, later, heq, hc, hearlier⟩⟩

/-! ## From a point to a file -/

theorem consultationsAt_cons (hook : Hook) (hooks : List Hook) (m : Method) (point : HookPoint) :
    consultationsAt (hook :: hooks) m point =
      ((hook.capability? point).map fun capability => ⟨m, point, capability⟩).toList ++
        consultationsAt hooks m point := by
  rw [consultationsAt, List.filterMap_cons]
  cases hook.capability? point <;> rfl

theorem failure?_contributions (point : HookPoint) (m : Method) :
    failure? (contributions point m table hooks) =
      firstFailure? table (consultationsAt hooks m point) := by
  induction hooks with
  | nil => rfl
  | cons hook hooks ih =>
    have hhooks : failure? (contributions point m table (hook :: hooks)) =
        (failure? (hook.fragment point m table)).or
          (firstFailure? table (consultationsAt hooks m point)) :=
      failure?_bind fun fragment =>
        (failure?_bind_of_none fun rest => by cases fragment <;> rfl).trans ih
    rw [hhooks, consultationsAt_cons, firstFailure?_append, Hook.fragment]
    cases hook.capability? point with
    | none => rfl
    | some capability =>
      cases h : capability m table <;> simp [firstFailure?, Consultation.answer, h]

theorem isSome_errorResult? (m : Method) : m.errorResult?.isSome = returnsError m := by
  unfold Method.errorResult? returnsError SignatureType.isError
  cases m.results.getLast? <;> simp [Option.filter]
  split <;> simp_all

theorem failure?_fragments (m : Method) : failure? (fragments m table hooks) =
    firstFailure? table ((pointsOf m).flatMap (consultationsAt hooks m)) := by
  have herror : failure? (if m.errorResult?.isSome then contributions .onError m table hooks
      else .ok []) = firstFailure? table
        ((if returnsError m then [.onError] else []).flatMap (consultationsAt hooks m)) := by
    rw [isSome_errorResult?]
    split
    · rw [failure?_contributions, List.flatMap_singleton]
    · rfl
  have hpoints : failure? (fragments m table hooks) =
      (firstFailure? table (consultationsAt hooks m .preCall)).or
        ((firstFailure? table (consultationsAt hooks m .postCall)).or
          ((firstFailure? table (consultationsAt hooks m .onSuccess)).or
            (failure? (if m.errorResult?.isSome then contributions .onError m table hooks
              else .ok [])))) := by
    simp only [← failure?_contributions]
    refine failure?_bind fun _ => failure?_bind fun _ => failure?_bind fun _ => ?_
    split <;> exact failure?_bind_of_none fun _ => rfl
  simp only [hpoints, herror, ← firstFailure?_append, pointsOf, List.flatMap_append,
    List.flatMap_cons, List.flatMap_nil, List.append_assoc, List.append_nil]

theorem failure?_instrument (methods : List Method) : failure? (instrument table hooks methods) =
    firstFailure? table (consultations hooks methods) := by
  induction methods with
  | nil => rfl
  | cons m methods ih =>
    have hmethods : failure? (instrument table hooks (m :: methods)) =
        (failure? (fragments m table hooks)).or
          (firstFailure? table (consultations hooks methods)) :=
      failure?_bind fun _ => (failure?_bind_of_none fun _ => rfl).trans ih
    rw [hmethods, failure?_fragments, ← firstFailure?_append]
    rfl

theorem failure?_file (package typeName : String) (i : Interface) :
    failure? (file package typeName i hooks table) =
      firstFailure? table (consultations hooks i.methods) := by
  have hfile : failure? (file package typeName i hooks table) =
      failure? (instrument table hooks i.methods) := failure?_bind_of_none fun _ => rfl
  rw [hfile, failure?_instrument]

theorem returnsError_of_onError {methods : List Method} {c : Consultation}
    (hc : c ∈ consultations hooks methods) (hpoint : c.point = .onError) :
    ∃ r, c.method.results.getLast? = some r ∧ r.type.render = "error" := by
  obtain ⟨m, -, hc⟩ := List.mem_flatMap.mp hc
  obtain ⟨point, hmem, hc⟩ := List.mem_flatMap.mp hc
  obtain ⟨hook, -, hc⟩ := List.mem_filterMap.mp hc
  obtain ⟨capability, -, rfl⟩ := Option.map_eq_some_iff.mp hc
  obtain rfl : point = .onError := hpoint
  cases herror : returnsError m with
  | false => simp [pointsOf, herror] at hmem
  | true => simpa [returnsError, Option.any_eq_true] using herror

/-- **Rejections.** A file cannot be written exactly if some consultation fails, and what is said
then is what the first of them says. Errors of a call are asked about only where there are any. -/
theorem file_failures (package typeName : String) (i : Interface) (hooks : List Hook)
    (table : ImportTable) :
    (∀ failure, file package typeName i hooks table = .error failure ↔
      FirstFails table (consultations hooks i.methods) failure) ∧
    ((∃ failure, file package typeName i hooks table = .error failure) ↔
      ∃ c ∈ consultations hooks i.methods, ∃ failure, c.answer table = .error failure) ∧
    ∀ c ∈ consultations hooks i.methods, c.point = .onError →
      ∃ r, c.method.results.getLast? = some r ∧ r.type.render = "error" := by
  refine ⟨fun failure => ?_, ?_, fun c => returnsError_of_onError⟩
  · rw [← failure?_eq_some_iff, failure?_file, firstFailure?_eq_some_iff]
  · simp only [← failure?_eq_some_iff, failure?_file, ← Option.isSome_iff_exists, firstFailure?,
      List.findSome?_isSome_iff]

end Interposer.Wrapper
