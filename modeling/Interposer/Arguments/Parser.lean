import Interposer.Arguments

/-! Reading a command line, argument by argument. A value follows its option or is attached to it;
after `--` nothing is an option any more. -/

namespace Interposer

/-- Reasons for which a command line cannot be read. -/
inductive Misuse where
  | unknownOption (argument : String)
  | missingValue (o : ValueOption)
  | emptyValue (o : ValueOption)
  /-- A value is attached to an option that takes none. -/
  | needlessValue (argument : String)
  | repeated (longName : String)
  /-- There is an interface already. -/
  | needlessArgument (argument : String)
  deriving DecidableEq, Repr

/-- What a command line asks for. -/
inductive Request where
  | generate (arguments : Arguments)
  | help
  | version
  deriving DecidableEq, Repr

/-- What an option stands for. -/
inductive OptionName where
  | value (o : ValueOption)
  | flag (f : Flag)
  | help
  | version
  deriving DecidableEq, Repr

namespace OptionName

def ofLong? (name : String) : Option OptionName :=
  if name = "help" then some help
  else if name = "version" then some version
  else (ValueOption.all.find? (·.longName == name)).map value <|>
    (Flag.all.find? (·.longName == name)).map flag

def ofLetter? (letter : Char) : Option OptionName :=
  if letter = 'h' then some help
  else if letter = 'V' then some version
  else (ValueOption.all.find? (·.letter? == some letter)).map value

end OptionName

/-- An argument by its form. -/
inductive Word where
  | separator
  | operand (text : String)
  /-- `--name` or `--name=value`. -/
  | long (name : String) (attached : Option String)
  /-- `-l`, with whatever follows the letter. -/
  | short (letter : Char) (rest : List Char)
  deriving DecidableEq, Repr

/-- The text before and after the first equals sign. -/
def splitAttached (cs : List Char) : String × Option String :=
  let name := String.ofList (cs.takeWhile (· ≠ '='))
  match cs.dropWhile (· ≠ '=') with
  | _ :: value => (name, some (String.ofList value))
  | [] => (name, none)

def Word.ofText (text : String) : Word :=
  match text.toList with
  | ['-', '-'] => .separator
  | '-' :: '-' :: cs => .long (splitAttached cs).1 (splitAttached cs).2
  | '-' :: letter :: rest => .short letter rest
  | _ => .operand text

/-- The value in a word after the option's letter; an equals sign in front does not belong to it. -/
def attachedToLetter : List Char → Option String
  | [] => none
  | '=' :: cs => some (String.ofList cs)
  | cs => some (String.ofList cs)

/-- Whether an argument can be the value of the option before it. -/
def isDetachedValue (text : String) : Bool :=
  match Word.ofText text with
  | .operand _ => true
  | _ => false

namespace Arguments

def addOperand (a : Arguments) (text : String) : Except Misuse Arguments :=
  match a.interface with
  | none => .ok { a with interface := some text }
  | some _ => .error (.needlessArgument text)

def addOperands (a : Arguments) (operands : List String) : Except Misuse Arguments :=
  operands.foldlM addOperand a

def addFlag (a : Arguments) (f : Flag) : Except Misuse Arguments :=
  if a.has f then .error (.repeated f.longName) else .ok { a with flags := f :: a.flags }

def addValue (a : Arguments) (o : ValueOption) (text : String) : Except Misuse Arguments :=
  if (a.value? o).isSome then .error (.repeated o.longName)
  else if o.isPath && text.isEmpty then .error (.emptyValue o)
  else .ok { a with values := (o, text) :: a.values }

end Arguments

/-- An option with its value as far as that is in the same word, or why the word is none. -/
def namedOption (text : String) : Word → Except Misuse (OptionName × Option String)
  | .long name attached =>
    match OptionName.ofLong? name, attached with
    | none, _ => .error (.unknownOption text)
    | some (.value o), attached => .ok (.value o, attached)
    | some _, some _ => .error (.needlessValue text)
    | some name, none => .ok (name, none)
  | .short letter rest =>
    match OptionName.ofLetter? letter with
    | none => .error (.unknownOption text)
    | some name => .ok (name, attachedToLetter rest)
  | _ => .error (.unknownOption text)

namespace Request

/-- Reads on after `a`. Help and version are asked for where they stand, whatever follows. -/
def readFrom (a : Arguments) : List String → Except Misuse Request
  | [] => .ok (.generate a)
  | text :: rest =>
    match Word.ofText text with
    | .separator => (a.addOperands rest).map .generate
    | .operand text => do readFrom (← a.addOperand text) rest
    | word => do
      match ← namedOption text word with
      | (.help, _) => .ok .help
      | (.version, _) => .ok .version
      | (.flag f, _) => readFrom (← a.addFlag f) rest
      | (.value o, some value) => readFrom (← a.addValue o value) rest
      | (.value o, none) =>
        match rest with
        | [] => .error (.missingValue o)
        | value :: rest =>
          if isDetachedValue value then readFrom (← a.addValue o value) rest
          else .error (.missingValue o)

/-- Reads a command line without the program's name. -/
def ofCommandLine (arguments : List String) : Except Misuse Request := readFrom {} arguments

end Request

end Interposer
