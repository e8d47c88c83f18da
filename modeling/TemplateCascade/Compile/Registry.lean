import Std.Data.ExtTreeMap
import TemplateCascade.Compile.BuiltIn

namespace TemplateCascade
namespace Compile

/-!
# Registered functions

The functions that templates can call, by name.  An application may add functions of its own and
replace others.
-/

/-- Functions by name. -/
structure Registry where
  functions : Std.ExtTreeMap String Function

namespace Registry

def empty : Registry := ⟨∅⟩

def function? (registry : Registry) (name : String) : Option Function :=
  registry.functions[name]?

def contains (registry : Registry) (name : String) : Bool :=
  registry.functions.contains name

/-- Register a function under a name, in place of any other of that name. -/
def register (registry : Registry) (name : String) (function : Function) : Registry :=
  ⟨registry.functions.insert name function⟩

/-- The registered names in ascending order. -/
def names (registry : Registry) : List String :=
  registry.functions.keys

def size (registry : Registry) : Nat :=
  registry.functions.size

/-- The function of each built-in name. -/
def builtInFunctions : List (String × Function) :=
  [("if", BuiltIn.choose),
    ("checked", BuiltIn.flag " checked=\"checked\""),
    ("selected", BuiltIn.flag " selected=\"selected\""),
    ("calc", BuiltIn.calculate),
    ("escape", BuiltIn.escape),
    ("raw", BuiltIn.forced .raw),
    ("urlencode", BuiltIn.forced .url),
    ("jsescape", BuiltIn.forced .script),
    ("count", BuiltIn.format .count),
    ("number", BuiltIn.format .number),
    ("date", BuiltIn.format .date),
    ("time", BuiltIn.format .time),
    ("datetime", BuiltIn.format .dateTime),
    ("link", BuiltIn.link),
    ("pagenav", BuiltIn.pageNavigation),
    ("helper", BuiltIn.helper),
    ("phrase", BuiltIn.phrase)]

/-- The registry with the built-in functions alone. -/
def builtIn : Registry :=
  builtInFunctions.foldl (fun registry (name, function) => registry.register name function) empty

end Registry

end Compile
end TemplateCascade
