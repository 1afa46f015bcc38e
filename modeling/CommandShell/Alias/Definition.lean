import CommandShell.Alias.Table
import CommandShell.Text.Line

/-!
Alias definitions in writing. A definition is `name=text`, and one pair of quotes
around the text is not part of it. `define?` reads a definition and `print`
writes one with single quotes around the text.
-/
namespace CommandShell

def isQuote (c : Char) : Bool :=
  c == '\'' || c == '"'

def unquote (text : Text) : Text :=
  match text with
  | first :: middle =>
      if isQuote first && middle.getLast? == some first then middle.dropLast else text
  | [] => []

def isLineEnd (c : Char) : Bool :=
  c == '\n' || c == '\r'

def AliasEntry.define? (definition : Text) : Option AliasEntry :=
  match definition.dropWhile (· != '=') with
  | [] => none
  | _ :: text =>
      some ⟨trim (definition.takeWhile (· != '=')), unquote (dropEndWhile isLineEnd text)⟩

def AliasEntry.print (entry : AliasEntry) : Text :=
  entry.name ++ "='".toList ++ entry.text ++ "'".toList

namespace AliasTable

def insertLines (table : AliasTable) (lines : List Text) : AliasTable :=
  lines.foldl (fun table line =>
    match AliasEntry.define? line with
    | none => table
    | some entry =>
        match table.insert entry.name entry.text with
        | .ok next => next
        | .error _ => table) table

def fileContent (table : AliasTable) : Bytes :=
  writeLines (table.entries.map AliasEntry.print)

end AliasTable

end CommandShell
