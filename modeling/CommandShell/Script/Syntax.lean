import CommandShell.Text.Latin

/-!
Scripts of the machine's command interpreter as trees. A word is made of parts that are
written out or filled in when the command runs; quotes decide whether a part that is
filled in may fall apart into several words or stand for file names.
-/
namespace CommandShell

namespace Script

inductive ParameterUse
  | value
  | length
  | default (empty : Bool)
  | assign (empty : Bool)
  | alternative (empty : Bool)
  | demand (empty : Bool)
  | cutStart (longest : Bool)
  | cutEnd (longest : Bool)
  | unknown
  deriving DecidableEq

inductive RedirectKind
  | read
  | write
  | append
  | readWrite
  | duplicate
  | here
  deriving DecidableEq

mutual

inductive WordPart
  | text (chars : Text) (quoted : Bool)
  | parameter (name : Text) (use : ParameterUse) (word : List WordPart) (quoted : Bool)
  | output (body : List Command) (quoted : Bool)
  | arithmetic (body : List WordPart) (quoted : Bool)

inductive Redirect
  | mk (fd : Nat) (kind : RedirectKind) (target : List WordPart)

inductive Command
  | simple (line : Nat) (settings : List (Text × List WordPart)) (words : List (List WordPart))
      (redirects : List Redirect)
  | pipeline (stages : List Command)
  | negated (body : Command)
  | chain (onFailure : Bool) (first second : Command)
  | background (body : Command)
  | subshell (line : Nat) (body : List Command)
  | group (body : List Command)
  | branch (condition yes no : List Command)
  | loop (holds : Bool) (condition body : List Command)
  | forEach (line : Nat) (name : Text) (items : Option (List (List WordPart)))
      (body : List Command)
  | choice (line : Nat) (word : List WordPart)
      (arms : List (List (List WordPart) × List Command))
  | function (name : Text) (body : Command)
  | redirected (line : Nat) (body : Command) (redirects : List Redirect)

end

def loneSubshell? : Command → Option Command
  | .subshell line body => some (.subshell line body)
  | .redirected _ body _ => loneSubshell? body
  | .group [body] => loneSubshell? body
  | _ => none

/-- A command with redirections. Those of a lone subshell are replaced. -/
def Command.redirect (line : Nat) (command : Command) (redirects : List Redirect) : Command :=
  .redirected line ((loneSubshell? command).getD command) redirects

abbrev Word := List WordPart

def isNameStart (c : Char) : Bool :=
  c.isAlpha || c == '_'

def isNameChar (c : Char) : Bool :=
  c.isAlphanum || c == '_'

def isName (text : Text) : Bool :=
  text.head?.any isNameStart && text.all isNameChar

def isSpecial (c : Char) : Bool :=
  "#@*?-$!".toList.contains c

end Script

end CommandShell
