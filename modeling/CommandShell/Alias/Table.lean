import CommandShell.Trouble

/-!
The alias table: at most `capacity` names in the order of their definition, each
with the text that replaces it at the start of a line. A name has no blank in it.
-/
namespace CommandShell

structure AliasEntry where
  name : Text
  text : Text
  deriving Repr, DecidableEq

structure AliasTable where
  entries : List AliasEntry
  capacity : Nat
  deriving Repr, DecidableEq

namespace AliasTable

def empty (capacity : Nat) : AliasTable :=
  ⟨[], capacity⟩

def get? (table : AliasTable) (name : Text) : Option Text :=
  (table.entries.find? fun entry => entry.name == name).map (·.text)

def has (table : AliasTable) (name : Text) : Bool :=
  table.entries.any fun entry => entry.name == name

/-- Gives a name its text. The name is taken without blanks around it. A known name
keeps its place, a new one goes to the end while there is room. -/
def insert (table : AliasTable) (name text : Text) : Except Trouble AliasTable :=
  let name := trim name
  if name.isEmpty || name.any isBlank then .error (.invalidAliasName name)
  else if table.has name then
    .ok { table with entries := table.entries.map fun entry =>
      if entry.name == name then ⟨name, text⟩ else entry }
  else if table.capacity ≤ table.entries.length then .error (.aliasTableFull table.capacity)
  else .ok { table with entries := table.entries ++ [⟨name, text⟩] }

def erase (table : AliasTable) (name : Text) : Except Trouble AliasTable :=
  if table.has name then
    .ok { table with entries := table.entries.eraseP fun entry => entry.name == name }
  else .error (.unknownAlias name)

end AliasTable

end CommandShell
