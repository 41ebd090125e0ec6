import Interposer.Proofs.SignatureType.Conversion

/-! Failures of computations that enter imports. Conversion has one way to fail: at a type that has no
place in a signature, which is unsupported. -/

namespace Interposer

namespace Importing

variable {α β : Type} {P : Failure → Prop}

/-- The computation fails in such ways only. -/
def FailsOnly (P : Failure → Prop) (m : Importing α) : Prop :=
  ∀ table failure table', m table = .error failure table' → P failure

theorem FailsOnly.pure (a : α) : FailsOnly P (pure a : Importing α) := by
  intro table failure table' h
  cases h

theorem FailsOnly.throw {failure : Failure} (h : P failure) :
    FailsOnly P (throw failure : Importing α) := by
  intro table failure' table' hthrow
  cases hthrow
  exact h

theorem FailsOnly.bind {m : Importing α} {f : α → Importing β} (hm : FailsOnly P m)
    (hf : ∀ a, FailsOnly P (f a)) : FailsOnly P (m >>= f) := by
  intro table failure table' h
  change EStateM.bind m f table = _ at h
  unfold EStateM.bind at h
  cases hfirst : m table with
  | ok a table₁ =>
    rw [hfirst] at h
    exact hf a table₁ failure table' h
  | error failure' table₁ =>
    rw [hfirst] at h
    cases h
    exact hm table failure table' hfirst

theorem FailsOnly.importing (path : String) : FailsOnly P (importing path) := by
  intro table failure table' h
  cases h

theorem FailsOnly.ofExcept {x : Except Failure α} (h : ∀ failure, x = .error failure → P failure) :
    FailsOnly P (ofExcept x : Importing α) := by
  cases x with
  | ok a => exact .pure a
  | error failure => exact .throw (h failure rfl)

theorem FailsOnly.mono {Q : Failure → Prop} {m : Importing α} (hm : FailsOnly P m)
    (hPQ : ∀ failure, P failure → Q failure) : FailsOnly Q m := by
  intro table failure table' h
  exact hPQ failure (hm table failure table' h)

end Importing

open Importing

def Failure.IsUnsupported (failure : Failure) : Prop := ∃ what, failure = .unsupported what

namespace SignatureType

mutual

theorem failsOnly_ofSource : ∀ t : SourceType, FailsOnly Failure.IsUnsupported (ofSource t)
  | .basic _ => .pure _
  | .named package name args => by
    rw [ofSource]
    split
    · exact .bind (.importing package) fun _ => .pure _
    · exact .throw ⟨_, rfl⟩
  | .pointer elem => .bind (failsOnly_ofSource elem) fun _ => .pure _
  | .slice elem => .bind (failsOnly_ofSource elem) fun _ => .pure _
  | .array length elem => by
    rw [ofSource]
    split
    · exact .bind (failsOnly_ofSource elem) fun _ => .pure _
    · exact .throw ⟨_, rfl⟩
  | .map key value =>
    .bind (failsOnly_ofSource key) fun _ => .bind (failsOnly_ofSource value) fun _ => .pure _
  | .func params results _ =>
    .bind (failsOnly_ofVariables params) fun _ =>
      .bind (failsOnly_ofVariables results) fun _ => .pure _
  | .interface _ | .struct _ | .chan _ _ | .typeParam _ | .other _ => .throw ⟨_, rfl⟩

theorem failsOnly_ofVariables :
    ∀ vars : List Variable, FailsOnly Failure.IsUnsupported (ofVariables vars)
  | [] => .pure _
  | .mk _ type :: rest =>
    .bind (failsOnly_ofSource type) fun _ => .bind (failsOnly_ofVariables rest) fun _ => .pure _

end

end SignatureType

end Interposer
