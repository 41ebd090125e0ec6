/-! Names that avoid others. A name is lengthened, or numbered, until it is free; among more
candidates than there are taken names one is free, so the search is bounded. -/

namespace Interposer

/-- The first of `candidate 0`, …, `candidate bound` that is free, the last one if none is. -/
def firstFree (taken : String → Bool) (candidate : Nat → String) (bound : Nat) : String :=
  candidate (((List.range bound).find? fun n => !taken (candidate n)).getD bound)

def underscores (n : Nat) : String := String.ofList (List.replicate n '_')

/-- `name` with as few underscores after it as make it differ from all of `taken`. -/
def freshAfter (taken : List String) (name : String) : String :=
  firstFree taken.contains (fun n => name ++ underscores n) taken.length

/-- `name` with as few underscores before it as make it differ from all of `taken`. -/
def freshBefore (taken : List String) (name : String) : String :=
  firstFree taken.contains (fun n => underscores n ++ name) taken.length

end Interposer
