import CommandShell.Tool.Basic

/-!
Reading the words of a call as options and operands. Options are single letters, several
of them behind one dash, or long names behind two, which may be cut short as long as
they stay clear. Two dashes alone end the options.
-/
namespace CommandShell

namespace Tool

structure OptionForms where
  flags : Text
  valued : Text
  long : List (String × Char)
  maybeValued : Text
  leading : Bool

inductive OptionFault
  | unknownLetter (letter : Char)
  | missingValue (letter : Char)
  | unknownName (word : Text)
  | unclearName (word : Text) (candidates : List String)
  | unwantedValue (name : String)
  | missingNamedValue (name : String)

def OptionFault.message : OptionFault → Text
  | .unknownLetter letter => "invalid option -- '".toList ++ [letter, '\'']
  | .missingValue letter => "option requires an argument -- '".toList ++ [letter, '\'']
  | .unknownName word => "unrecognized option '".toList ++ word ++ ['\'']
  | .unclearName word candidates =>
      "option '".toList ++ word ++ "' is ambiguous; possibilities:".toList ++
        candidates.flatMap fun name => " '--".toList ++ name.toList ++ ['\'']
  | .unwantedValue name =>
      "option '--".toList ++ name.toList ++ "' doesn't allow an argument".toList
  | .missingNamedValue name => "option '--".toList ++ name.toList ++ "' requires an argument".toList

/-- What the letters behind one dash are. The last of them may wait for its value. -/
def readLetters (forms : OptionForms) :
    Text → Except OptionFault (List (Char × Text) × Option Char)
  | [] => .ok ([], none)
  | letter :: rest =>
      if forms.flags.contains letter then
        match readLetters forms rest with
        | .error fault => .error fault
        | .ok (options, waiting) => .ok ((letter, []) :: options, waiting)
      else if !forms.valued.contains letter then .error (.unknownLetter letter)
      else if rest.isEmpty then .ok ([], some letter)
      else .ok ([(letter, rest)], none)

/-- The long option that a name stands for: the one so called, or the only one that begins
so. Names for one letter do not make each other unclear. -/
def longOption? (forms : OptionForms) (word name : Text) : Except OptionFault (String × Char) :=
  match forms.long.find? fun entry => entry.1.toList == name with
  | some entry => .ok entry
  | none =>
      match forms.long.filter fun entry => startsWith entry.1.toList name with
      | [] => .error (.unknownName word)
      | entry :: others =>
          if others.all fun other => other.2 == entry.2 then .ok entry
          else .error (.unclearName word ((entry :: others).map (·.1)))

def readLong (forms : OptionForms) (body : Text) :
    Except OptionFault (String × Char × Option Text) :=
  let name := body.takeWhile (· != '=')
  let value := (body.drop name.length).drop 1
  let given := name.length < body.length
  match longOption? forms ('-' :: '-' :: name) name with
  | .error (.unknownName _) => .error (.unknownName ('-' :: '-' :: body))
  | .error fault => .error fault
  | .ok (long, letter) =>
      if forms.valued.contains letter && !forms.maybeValued.contains letter then
        .ok (long, letter, if given then some value else none)
      else if given && !forms.maybeValued.contains letter then .error (.unwantedValue long)
      else .ok (long, letter, some value)

def readWords (forms : OptionForms) :
    List Text → Except OptionFault (List (Char × Text) × List Text)
  | [] => .ok ([], [])
  | word :: rest =>
      match word with
      | ['-', '-'] => .ok ([], rest)
      | '-' :: '-' :: body =>
          match readLong forms body with
          | .error fault => .error fault
          | .ok (_, letter, some value) =>
              (readWords forms rest).map fun read => ((letter, value) :: read.1, read.2)
          | .ok (name, letter, none) =>
              match rest with
              | [] => .error (.missingNamedValue name)
              | value :: rest =>
                  (readWords forms rest).map fun read => ((letter, value) :: read.1, read.2)
      | '-' :: letter :: letters =>
          match readLetters forms (letter :: letters) with
          | .error fault => .error fault
          | .ok (options, none) =>
              (readWords forms rest).map fun read => (options ++ read.1, read.2)
          | .ok (options, some waiting) =>
              match rest with
              | [] => .error (.missingValue waiting)
              | value :: rest =>
                  (readWords forms rest).map fun read =>
                    (options ++ (waiting, value) :: read.1, read.2)
      | _ =>
          if forms.leading then .ok ([], word :: rest)
          else (readWords forms rest).map fun read => (read.1, word :: read.2)

abbrev Choices := List (List String)

def chosen (choices : Choices) (option : String) (word : Text) : Except (List Text) String :=
  let begun := choices.filter fun names => names.any fun name => startsWith name.toList word
  let named := choices.filter fun names => names.any fun name => name.toList == word
  let refuse := fun (why : String) => Except.error
    ((why.toList ++ " argument ".toList ++ wordInQuotes word ++ " for '--".toList ++
      option.toList ++ ['\'']) :: "Valid arguments are:".toList ::
      choices.map fun names =>
        "  - ".toList ++ joinWith ", ".toList (names.map fun name => wordInQuotes name.toList))
  match named ++ begun with
  | [] => refuse "invalid"
  | names :: _ =>
      if named.isEmpty && 1 < begun.length then refuse "ambiguous" else .ok (names.headD "")

/-- A tool with options. A call that cannot be read ends with `code`. -/
def withOptions (forms : OptionForms) (code : Int) (run : Call → Action ExitStatus) : Tool :=
  fun argv =>
    let words := argv.map Latin.ofBytes
    let name := words.head?.getD []
    match readWords forms (words.drop 1) with
    | .ok (options, operands) => run ⟨name, options, operands⟩
    | .error fault => Call.misuse ⟨name, [], []⟩ code [fault.message]

end Tool

end CommandShell
