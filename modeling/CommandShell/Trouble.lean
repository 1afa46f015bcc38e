import CommandShell.System.Failure

/-!
Everything a command can be refused for, as causes. `Trouble.message` is the only
place where they are put into words.
-/
namespace CommandShell

inductive Redirection
  | input
  | output
  deriving Repr, DecidableEq

inductive SyntaxTrouble
  | missingTarget (kind : Redirection)
  | emptyStage
  deriving Repr, DecidableEq

inductive Trouble
  | ungrammatical (cause : SyntaxTrouble)
  | redirect (path : Text) (cause : Failure)
  | commandTooLong (limit : Nat)
  | failed (cause : Failure)
  | invalidAliasName (name : Text)
  | aliasTableFull (capacity : Nat)
  | unknownAlias (name : Text)
  | malformedAlias
  | missingAliasName
  | invalidHistoryNumber (argument : Text)
  | tooManyFolders
  | cannotEnter (path : Text) (cause : Failure)
  | cannotList (path : Text) (cause : Failure)
  | cannotRead (operands : List (Text × Failure))
  | searchUsage
  | cannotSearch (path : Text) (cause : Failure)
  | nothingToExplain
  | unexplained (names : List Text)
  deriving Repr, DecidableEq

def Redirection.symbol : Redirection → Char
  | .input => '<'
  | .output => '>'

def SyntaxTrouble.message : SyntaxTrouble → Text
  | .missingTarget kind => '`' :: kind.symbol :: "` needs a file name".toList
  | .emptyStage => "unexpected `|`".toList

def complaint (command : String) (subject : Text) (cause : Failure) : Text :=
  command.toList ++ ": ".toList ++ subject ++ ": ".toList ++ cause.message

def Trouble.message : Trouble → Text
  | .ungrammatical cause => "syntax error: ".toList ++ cause.message
  | .redirect path cause => path ++ ": ".toList ++ cause.message
  | .commandTooLong limit =>
      "command too long (limit ".toList ++ digits limit ++ " bytes)".toList
  | .failed cause => cause.message
  | .invalidAliasName name => "alias: invalid name '".toList ++ name ++ "'".toList
  | .aliasTableFull capacity =>
      "alias: table full (".toList ++ digits capacity ++ " entries)".toList
  | .unknownAlias name => "unalias: ".toList ++ name ++ ": not found".toList
  | .malformedAlias => "alias: invalid format. Usage: alias name='command'".toList
  | .missingAliasName => "unalias: missing alias name".toList
  | .invalidHistoryNumber argument => "history: invalid number: ".toList ++ argument
  | .tooManyFolders => "cd: too many arguments".toList
  | .cannotEnter path cause => complaint "cd" path cause
  | .cannotList path cause => complaint "ls" path cause
  | .cannotRead operands =>
      joinWith ['\n'] (operands.map fun operand => complaint "cat" operand.1 operand.2)
  | .searchUsage => "Usage: grep [-i] pattern [file]".toList
  | .cannotSearch path cause => complaint "grep" path cause
  | .nothingToExplain => "type: missing argument".toList
  | .unexplained names =>
      "type: ".toList ++ joinWith ", ".toList names ++ ": not found".toList

end CommandShell
