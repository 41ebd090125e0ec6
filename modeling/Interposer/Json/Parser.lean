import Interposer.Json
import Interposer.Text.Hex

/-! Reading JSON: strict syntax, with nothing but white space around the value. A reader takes the
characters to read and answers what it found along with the characters after it. -/

namespace Interposer.Json

def isSpace (c : Char) : Bool := c == ' ' || c == '\n' || c == '\t' || c == '\r'

def skipSpace (cs : List Char) : List Char := cs.dropWhile isSpace

def simpleEscape? : Char → Option Char
  | '"' => some '"'
  | '\\' => some '\\'
  | '/' => some '/'
  | 'b' => some '\x08'
  | 'f' => some '\x0c'
  | 'n' => some '\n'
  | 'r' => some '\r'
  | 't' => some '\t'
  | _ => none

/-- UTF-16 units and characters of a string literal. -/
inductive Piece where
  | char (c : Char)
  | unit (n : Nat)

/-- The content of a string literal up to its closing quote. -/
def readPieces : List Char → Option (List Piece × List Char)
  | [] => none
  | '"' :: cs => some ([], cs)
  | '\\' :: 'u' :: a :: b :: c :: d :: cs => do
    let n ← Text.hexNumber? [a, b, c, d]
    let (pieces, rest) ← readPieces cs
    some (.unit n :: pieces, rest)
  | '\\' :: e :: cs => do
    let c ← simpleEscape? e
    let (pieces, rest) ← readPieces cs
    some (.char c :: pieces, rest)
  | c :: cs =>
    if c.toNat < 0x20 then none
    else do
      let (pieces, rest) ← readPieces cs
      some (.char c :: pieces, rest)

def isHighSurrogate (n : Nat) : Bool := 0xD800 ≤ n && n < 0xDC00

def isLowSurrogate (n : Nat) : Bool := 0xDC00 ≤ n && n < 0xE000

/-- The characters that pieces stand for; surrogates must come in pairs. -/
def decodePieces : List Piece → Option (List Char)
  | [] => some []
  | .char c :: rest => (decodePieces rest).map (c :: ·)
  | .unit high :: .unit low :: rest =>
    if isHighSurrogate high then
      if isLowSurrogate low then
        (decodePieces rest).map
          (Char.ofNat (0x10000 + (high - 0xD800) * 0x400 + (low - 0xDC00)) :: ·)
      else none
    else if isLowSurrogate high then none
    else (decodePieces (.unit low :: rest)).map (Char.ofNat high :: ·)
  | .unit n :: rest =>
    if isHighSurrogate n || isLowSurrogate n then none
    else (decodePieces rest).map (Char.ofNat n :: ·)

/-- A string literal after its opening quote; no value if a surrogate stands alone. -/
def readString (cs : List Char) : Option (Option String × List Char) := do
  let (pieces, rest) ← readPieces cs
  some ((decodePieces pieces).map String.ofList, rest)

def digitsValue (ds : List Char) : Nat := ds.foldl (fun n d => n * 10 + (d.toNat - 0x30)) 0

/-! ## The range of numbers

The value of a number is a product of two floating point numbers, the digits that fit into a machine
word and a power of ten. It must not be beyond the greatest floating point number. -/

def wordBound : Nat := 0x10000000000000000

/-- Continues `n` by digits as long as it fits into a machine word, and counts the digits left. -/
def wordDigits (n : Nat) : List Char → Nat × Nat
  | [] => (n, 0)
  | d :: ds =>
    let m := n * 10 + (d.toNat - 0x30)
    if m < wordBound then wordDigits m ds else (n, ds.length + 1)

/-- Rounds to 53 binary digits, to an even last digit where two numbers are equally near. -/
def roundToFloat (n : Nat) : Nat :=
  let k := n.log2 - 52
  let unit := 1 <<< k
  let q := n / unit
  let r := n % unit
  if unit < 2 * r || (unit = 2 * r && q % 2 = 1) then (q + 1) * unit else q * unit

/-- Beyond every floating point number: what would be rounded past the greatest one. -/
def overflowBound : Nat := Nat.pow 2 1024 - Nat.pow 2 970

/-- Whether a number is within the range of floating point numbers, from its digits before and after
the point and its exponent. -/
def inRange (whole fraction : List Char) (exponent : Int) : Bool :=
  let (n, left) := wordDigits 0 whole
  let (n, unused) := wordDigits n fraction
  let exponent := exponent + left + unused - fraction.length
  if n = 0 ∨ exponent < 0 then true
  else if exponent > 308 then false
  else roundToFloat n * roundToFloat (Nat.pow 10 exponent.toNat) < overflowBound

/-- The digits after a decimal point, if there is one. -/
def readFraction : List Char → Option (List Char × List Char)
  | '.' :: cs =>
    match cs.takeWhile Char.isDigit with
    | [] => none
    | ds => some (ds, cs.dropWhile Char.isDigit)
  | cs => some ([], cs)

def readExponentDigits (negative : Bool) (cs : List Char) : Option (Option Int × List Char) :=
  match cs.takeWhile Char.isDigit with
  | [] => none
  | ds =>
    let n : Int := digitsValue ds
    some (some (if negative then -n else n), cs.dropWhile Char.isDigit)

def readExponent : List Char → Option (Option Int × List Char)
  | e :: cs =>
    if e = 'e' ∨ e = 'E' then
      match cs with
      | '-' :: cs => readExponentDigits true cs
      | '+' :: cs => readExponentDigits false cs
      | cs => readExponentDigits false cs
    else some (none, e :: cs)
  | [] => some (none, [])

/-- A number after its sign. Integers have no superfluous zeros in front. -/
def readNumber (negative : Bool) (cs : List Char) : Option (Json × List Char) := do
  let whole := cs.takeWhile Char.isDigit
  if whole.isEmpty || (whole.head? == some '0' && whole.length > 1) then none
  let (fraction, cs) ← readFraction (cs.dropWhile Char.isDigit)
  let (exponent, cs) ← readExponent cs
  let mantissa := digitsValue (whole ++ fraction)
  if !inRange whole fraction (exponent.getD 0) then some (.unreadable, cs)
  else if fraction.isEmpty && exponent.isNone && !negative then some (.natural mantissa, cs)
  else
    some (.decimal (if negative then -mantissa else mantissa)
      (exponent.getD 0 - fraction.length), cs)

/-- An object, if all of its keys have values. -/
def ofMembers (members : List (Option String × Json)) : Json :=
  let members : Option (List (String × Json)) :=
    members.mapM fun (key, value) => do
      let key ← key
      some (key, value)
  match members with
  | some members => .object members
  | none => .unreadable

mutual

/-- A value after white space, nested at most `fuel` readers deep. -/
def readValue : (fuel : Nat) → List Char → Option (Json × List Char)
  | 0, _ => none
  | fuel + 1, cs =>
    match skipSpace cs with
    | 'n' :: 'u' :: 'l' :: 'l' :: cs => some (.null, cs)
    | 't' :: 'r' :: 'u' :: 'e' :: cs => some (.bool true, cs)
    | 'f' :: 'a' :: 'l' :: 's' :: 'e' :: cs => some (.bool false, cs)
    | '"' :: cs => do
      let (s, cs) ← readString cs
      some (s.elim .unreadable .string, cs)
    | '-' :: cs => readNumber true cs
    | '[' :: cs =>
      match skipSpace cs with
      | ']' :: cs => some (.array [], cs)
      | cs => do
        let (items, cs) ← readItems fuel cs
        some (.array items, cs)
    | '\x7b' :: cs =>
      match skipSpace cs with
      | '\x7d' :: cs => some (.object [], cs)
      | cs => do
        let (members, cs) ← readMembers fuel cs
        some (ofMembers members, cs)
    | cs => readNumber false cs

/-- The items of an array up to its closing bracket. -/
def readItems : (fuel : Nat) → List Char → Option (List Json × List Char)
  | 0, _ => none
  | fuel + 1, cs => do
    let (item, cs) ← readValue fuel cs
    match skipSpace cs with
    | ']' :: cs => some ([item], cs)
    | ',' :: cs => do
      let (items, cs) ← readItems fuel cs
      some (item :: items, cs)
    | _ => none

/-- The members of an object up to its closing brace. -/
def readMembers : (fuel : Nat) → List Char → Option (List (Option String × Json) × List Char)
  | 0, _ => none
  | fuel + 1, cs =>
    match skipSpace cs with
    | '"' :: cs => do
      let (key, cs) ← readString cs
      match skipSpace cs with
      | ':' :: cs => do
        let (value, cs) ← readValue fuel cs
        match skipSpace cs with
        | '\x7d' :: cs => some ([(key, value)], cs)
        | ',' :: cs => do
          let (members, cs) ← readMembers fuel cs
          some ((key, value) :: members, cs)
        | _ => none
      | _ => none
    | _ => none

end

/-- Reads a text that is one value. Between two nested readers at least one character is read, or
none and then one, which bounds their depth. -/
def parse? (s : String) : Option Json :=
  let cs := s.toList
  match readValue (2 * cs.length + 2) cs with
  | some (value, rest) => if (skipSpace rest).isEmpty then some value else none
  | none => none

end Interposer.Json
