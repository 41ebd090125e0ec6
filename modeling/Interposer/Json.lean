/-! JSON values and their text. An object keeps its members in order, repeated keys included, so
that a reader can tell what to make of them. Some literals are well formed and still have no value:
a string with half of a surrogate pair, a number beyond all floating point numbers, and an object
with such a string for a key. They are `unreadable`, and the rest of the text can be read around
them. -/

namespace Interposer

inductive Json where
  | null
  | bool (b : Bool)
  /-- An integer written with digits alone. -/
  | natural (n : Nat)
  /-- Any other number, `mantissa` times ten to the power `exponent`. -/
  | decimal (mantissa exponent : Int)
  | string (s : String)
  | unreadable
  | array (items : List Json)
  | object (members : List (String × Json))

namespace Json

mutual

/-- How deep arrays and objects are nested. -/
def depth : Json → Nat
  | array items => depthOfItems items + 1
  | object members => depthOfMembers members + 1
  | _ => 0

def depthOfItems : List Json → Nat
  | [] => 0
  | j :: rest => max j.depth (depthOfItems rest)

def depthOfMembers : List (String × Json) → Nat
  | [] => 0
  | (_, j) :: rest => max j.depth (depthOfMembers rest)

end

mutual

/-- Whether every literal has a value. -/
def isReadable : Json → Bool
  | unreadable => false
  | array items => areReadable items
  | object members => membersReadable members
  | _ => true

def areReadable : List Json → Bool
  | [] => true
  | j :: rest => j.isReadable && areReadable rest

def membersReadable : List (String × Json) → Bool
  | [] => true
  | (_, j) :: rest => j.isReadable && membersReadable rest

end

end Json

end Interposer
