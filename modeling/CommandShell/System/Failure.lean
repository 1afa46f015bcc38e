import CommandShell.Text.Decimal

/-!
Why the machine refuses an operation on files, names or streams. Each cause has
one wording, and the causes that the system numbers carry their number.
-/
namespace CommandShell

inductive Failure
  | noEntry
  | accessDenied
  | formatUnknown
  | notFolder
  | isFolder
  | nameTooLong
  | tooManyLinks
  | brokenPipe
  | notText
  | nulInName
  | nulInWord (position : Nat)
  | source (wording : Text)
  deriving Repr, DecidableEq

namespace Failure

def reason : Failure → Text
  | .noEntry => "No such file or directory".toList
  | .formatUnknown => "Exec format error".toList
  | .accessDenied => "Permission denied".toList
  | .notFolder => "Not a directory".toList
  | .isFolder => "Is a directory".toList
  | .nameTooLong => "File name too long".toList
  | .tooManyLinks => "Too many levels of symbolic links".toList
  | .brokenPipe => "Broken pipe".toList
  | .notText => "stream did not contain valid UTF-8".toList
  | .nulInName => "file name contained an unexpected NUL byte".toList
  | .nulInWord position =>
      "nul byte found in provided data at position: ".toList ++ digits position
  | .source wording => wording

def number? : Failure → Option Nat
  | .noEntry => some 2
  | .formatUnknown => some 8
  | .accessDenied => some 13
  | .notFolder => some 20
  | .isFolder => some 21
  | .nameTooLong => some 36
  | .tooManyLinks => some 40
  | .brokenPipe => some 32
  | .notText | .nulInName | .nulInWord _ | .source _ => none

def message (failure : Failure) : Text :=
  match failure.number? with
  | some number => failure.reason ++ " (os error ".toList ++ digits number ++ ")".toList
  | none => failure.reason

end Failure

end CommandShell
