import Interposer.Text.LetterCase.Table

/-! Upper and lower case of single characters, by the Unicode properties Uppercase and Lowercase
and the full lower case mapping. On ASCII all three agree with core's functions on `Char`. -/

namespace Interposer.Text

namespace LetterCase

def inRun (n first last step : Nat) : Bool :=
  first ≤ n && n ≤ last && (n - first) % step == 0

def inRuns (runs : List (Nat × Nat × Nat)) (n : Nat) : Bool :=
  runs.any fun (first, last, step) => inRun n first last step

end LetterCase

def isUpper (c : Char) : Bool :=
  if c.toNat < 0x80 then c.isUpper else LetterCase.inRuns LetterCase.uppercaseRuns c.toNat

def isLower (c : Char) : Bool :=
  if c.toNat < 0x80 then c.isLower else LetterCase.inRuns LetterCase.lowercaseRuns c.toNat

/-- The lower case form of a character. A dotted capital I keeps its dot as a combining mark, so
the form is a list. -/
def toLower (c : Char) : List Char :=
  if c.toNat < 0x80 then [c.toLower]
  else if c.toNat == 0x130 then ['i', Char.ofNat 0x307]
  else
    match LetterCase.loweringRuns.find?
        (fun (first, last, step, _) => LetterCase.inRun c.toNat first last step) with
    | some (_, _, _, distance) => [Char.ofNat (c.toNat + distance).toNat]
    | none => [c]

end Interposer.Text
