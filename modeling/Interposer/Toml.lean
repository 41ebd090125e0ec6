/-! The part of TOML that settings are written in: texts, switches, lists and tables. Numbers and
dates, keys with dots and headers of single tables are not in it. -/

namespace Interposer

inductive Toml where
  | string (s : String)
  | bool (b : Bool)
  | array (items : List Toml)
  | table (entries : List (String × Toml))

namespace Toml

def asString? : Toml → Option String
  | string s => some s
  | _ => none

def asBool? : Toml → Option Bool
  | bool b => some b
  | _ => none

def asList? (item? : Toml → Option α) : Toml → Option (List α)
  | array items => items.mapM item?
  | _ => none

end Toml

end Interposer
