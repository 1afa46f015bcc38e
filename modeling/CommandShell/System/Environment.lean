import CommandShell.Text.Encoding

/-!
Environment variables, in the order in which they were first set.
-/
namespace CommandShell

abbrev Environment := List (Bytes × Bytes)

def equalsSign : UInt8 := 61

namespace Environment

/-- The value of a variable. The search compares whole entries, written with an equals
sign between name and value; a name that is empty or has a NUL byte is never set. -/
def get? (env : Environment) (name : Bytes) : Option Bytes :=
  if name.isEmpty || name.contains 0 then none
  else env.findSome? fun entry =>
    afterPart? (name ++ [equalsSign]) (entry.1 ++ equalsSign :: entry.2)

def text? (env : Environment) (name : Text) : Option Text :=
  (env.get? (encode name)).bind decode?

def unset (env : Environment) (name : Bytes) : Environment :=
  env.filter fun entry => entry.1 != name

def set (env : Environment) (name value : Bytes) : Environment :=
  if env.any fun entry => entry.1 == name then
    env.map fun entry => if entry.1 == name then (name, value) else entry
  else env ++ [(name, value)]

def names (env : Environment) : List Text :=
  env.filterMap fun entry => decode? entry.1

end Environment

end CommandShell
