import InteropHeader.Command.Request

/-!
# Command line arguments

Input:
  the arguments of the program.

Algorithm:
  arguments are read from the left.  An option is given by its long name behind
  two dashes, or by its letter behind one; letters without a value may share a
  dash.  The value of an option follows an equals sign, stands directly behind
  its letter, or is the next argument, which must not look like an option.  No
  option may be given twice at one level.  Behind a lone `--` nothing is an
  option.

  The first word is the command, and its own options and words follow it.  The
  first mistake ends the reading, and so does an option that asks for the
  version or for help.
-/

namespace InteropHeader

/-- A mistake in the arguments. -/
inductive UsageError
  | unknownOption (option : String)
  | repeatedOption (option : String)
  | missingValue (option : String)
  | invalidValue (option value : String)
  | unexpectedWord (word : String)
  | unknownCommand (name : String)
  | missing (what : String)
  deriving DecidableEq, Repr

namespace UsageError

/-- The wording of a mistake. -/
def message : UsageError → String
  | unknownOption option => "unexpected argument '" ++ option ++ "' found"
  | repeatedOption option =>
      "the argument '" ++ option ++ "' cannot be used multiple times"
  | missingValue option => "a value is required for '" ++ option ++ "'"
  | invalidValue option value => "invalid value '" ++ value ++ "' for '" ++ option ++ "'"
  | unexpectedWord word => "unexpected argument '" ++ word ++ "' found"
  | unknownCommand name => "unrecognized subcommand '" ++ name ++ "'"
  | missing what => "required but not provided: " ++ what

end UsageError

/-- Why the reading of arguments ends early. -/
inductive ArgumentStop
  | mistake (error : UsageError)
  | version
  | help
  deriving DecidableEq, Repr

/-- What an option takes or does. -/
inductive OptionKind
  | flag
  | text
  /-- It takes a path, which is not empty. -/
  | path
  | format
  | version
  | help
  deriving DecidableEq, Repr

namespace OptionKind

/-- Whether an option takes a value. -/
def takesValue : OptionKind → Bool
  | text | path | format => true
  | flag | version | help => false

/-- Whether an option takes the given value. -/
def accepts (value : String) : OptionKind → Bool
  | text => true
  | path => value ≠ ""
  | format => (SectionFormat.ofName? value).isSome
  | flag | version | help => false

end OptionKind

/-- An option of a command. -/
structure CommandOption where
  name : String
  letter : Option Char := none
  kind : OptionKind
  deriving DecidableEq, Repr

/-- Arguments that have been read at one level. -/
structure GivenArguments where
  options : List (String × String) := []
  /-- The words that are no options. -/
  words : List String := []
  deriving DecidableEq, Repr

namespace GivenArguments

/-- Whether an option is given. -/
def has (given : GivenArguments) (name : String) : Bool :=
  given.options.any (·.1 = name)

/-- The value of an option that is given. -/
def value? (given : GivenArguments) (name : String) : Option String :=
  given.options.lookup name

/-- The arguments with another option. -/
def give (given : GivenArguments) (option : CommandOption) (value : String) :
    Except ArgumentStop GivenArguments :=
  if given.has option.name then
    .error (.mistake (.repeatedOption option.name))
  else
    .ok { given with options := given.options ++ [(option.name, value)] }

/-- The arguments with an option that stands for itself. -/
def giveFlag (given : GivenArguments) (option : CommandOption) :
    Except ArgumentStop GivenArguments :=
  match option.kind with
  | .version => .error .version
  | .help => .error .help
  | _ => given.give option ""

/-- The arguments with an option and its value. -/
def giveValue (given : GivenArguments) (option : CommandOption) (value : String) :
    Except ArgumentStop GivenArguments :=
  if option.kind.accepts value then
    given.give option value
  else
    .error (.mistake (.invalidValue option.name value))

/-- The arguments with the options of a cluster of letters; the last one may
still wait for its value. -/
def giveLetters (options : List CommandOption) (given : GivenArguments) :
    List Char → Except ArgumentStop (GivenArguments × Option CommandOption)
  | [] => .ok (given, none)
  | letter :: rest =>
      match options.find? (·.letter = some letter) with
      | none => .error (.mistake (.unknownOption (String.ofList ['-', letter])))
      | some option =>
          if option.kind.takesValue then
            match rest with
            | [] => .ok (given, some option)
            | '=' :: value => do
                return (← given.giveValue option (String.ofList value), none)
            | value => do
                return (← given.giveValue option (String.ofList value), none)
          else do
            (← given.giveFlag option).giveLetters options rest

/-- The arguments with an option given by its long name, behind the dashes. -/
def giveName (options : List CommandOption) (given : GivenArguments) (text : List Char) :
    Except ArgumentStop (GivenArguments × Option CommandOption) :=
  let name := String.ofList (text.takeWhile (· ≠ '='))
  let unknown := ArgumentStop.mistake (.unknownOption ("--" ++ name))
  match options.find? (·.name = name), text.dropWhile (· ≠ '=') with
  | none, _ => .error unknown
  | some option, [] =>
      if option.kind.takesValue then
        .ok (given, some option)
      else do
        return (← given.giveFlag option, none)
  | some option, _ :: value => do
      return (← given.giveValue option (String.ofList value), none)

end GivenArguments

/-- How an argument is to be understood. -/
inductive ArgumentShape
  /-- The lone `--`. -/
  | separator
  | long (text : List Char)
  | letters (text : List Char)
  | word
  deriving DecidableEq, Repr

namespace ArgumentShape

/-- The shape of an argument. -/
def ofArgument (argument : String) : ArgumentShape :=
  match argument.toList with
  | ['-', '-'] => separator
  | '-' :: '-' :: text => long text
  | '-' :: letter :: text => letters (letter :: text)
  | _ => word

end ArgumentShape

/-- A way of reading arguments: the options at one level, and how many words
there may be. -/
structure ArgumentLevel where
  options : List CommandOption
  /-- The greatest number of words. -/
  wordLimit : Nat

namespace ArgumentLevel

/-- Adds a word to the arguments. -/
def giveWord (level : ArgumentLevel) (given : GivenArguments) (word : String) :
    Except ArgumentStop GivenArguments :=
  if given.words.length < level.wordLimit then
    .ok { given with words := given.words ++ [word] }
  else
    .error (.mistake (.unexpectedWord word))

/-- Reads the arguments behind a command; `waiting` is an option whose value is
the next argument, and `literal` tells that there are no more options. -/
def read (level : ArgumentLevel) (waiting : Option CommandOption) (literal : Bool)
    (given : GivenArguments) : List String → Except ArgumentStop GivenArguments
  | [] =>
      match waiting with
      | some option => .error (.mistake (.missingValue option.name))
      | none => .ok given
  | argument :: rest =>
      if literal then do
        level.read none true (← level.giveWord given argument) rest
      else
        match waiting, ArgumentShape.ofArgument argument with
        | some option, .word => do
            level.read none false (← given.giveValue option argument) rest
        | some option, _ => .error (.mistake (.missingValue option.name))
        | none, .separator => level.read none true given rest
        | none, .long text => do
            let (extended, next) ← given.giveName level.options text
            level.read next false extended rest
        | none, .letters text => do
            let (extended, next) ← given.giveLetters level.options text
            level.read next false extended rest
        | none, .word => do
            level.read none false (← level.giveWord given argument) rest

end ArgumentLevel

namespace Request

/-- The option that asks for more reports. -/
def verbose : CommandOption :=
  { name := "verbose", letter := some 'v', kind := .flag }

/-- The option that asks for help. -/
def helpOption : CommandOption :=
  { name := "help", letter := some 'h', kind := .help }

/-- The option that names the manifest. -/
def manifestOption : CommandOption :=
  { name := "file", letter := some 'f', kind := .path }

/-- The option that names the bridging header. -/
def bridgingOption : CommandOption :=
  { name := "bridging-header", letter := some 'b', kind := .text }

/-- The options in front of the command. -/
def topLevel : List CommandOption :=
  [verbose, helpOption, { name := "version", letter := some 'V', kind := .version }]

/-- The arguments of `generate`. -/
def generateLevel : ArgumentLevel where
  options := [verbose, helpOption, manifestOption, bridgingOption,
    { name := "expose-public-decls", kind := .flag },
    { name := "output", letter := some 'o', kind := .path }]
  wordLimit := 0

/-- The arguments of `imports`. -/
def importsLevel : ArgumentLevel where
  options := [verbose, helpOption, manifestOption, bridgingOption,
    { name := "format", kind := .format }]
  wordLimit := 0

/-- The arguments of `guard`. -/
def guardLevel : ArgumentLevel where
  options := [verbose, helpOption]
  wordLimit := 1

/-- The path of the manifest, which must be given. -/
def requiredManifest (given : GivenArguments) : Except ArgumentStop String :=
  match given.value? "file" with
  | some manifest => .ok manifest
  | none => .error (.mistake (.missing "--file <FILE>"))

/-- The request of a command with its arguments. -/
def ofCommand (name : String) (arguments : List String) : Except ArgumentStop Request :=
  match name with
  | "generate" => do
      let given ← generateLevel.read none false {} arguments
      let manifest ← requiredManifest given
      return .generate
        { manifest := manifest
          bridging := given.value? "bridging-header"
          exposeCxx := given.has "expose-public-decls" }
        (given.value? "output")
  | "imports" => do
      let given ← importsLevel.read none false {} arguments
      let manifest ← requiredManifest given
      let format := (given.value? "format").bind SectionFormat.ofName?
      return .imports manifest (given.value? "bridging-header") (format.getD .text)
  | "guard" => do
      let given ← guardLevel.read none false {} arguments
      match given.words with
      | word :: _ => return .guard word
      | [] => throw (.mistake (.missing "<NAME>"))
  | "help" => throw .help
  | _ => throw (.mistake (.unknownCommand name))

/-- The request that the arguments from the left on make. -/
def ofTopLevel (given : GivenArguments) : List String → Except ArgumentStop Request
  | [] => .error (.mistake (.missing "a command"))
  | argument :: rest =>
      match ArgumentShape.ofArgument argument with
      | .separator => .error (.mistake (.missing "a command"))
      | .long text => do
          let (extended, _) ← given.giveName topLevel text
          ofTopLevel extended rest
      | .letters text => do
          let (extended, _) ← given.giveLetters topLevel text
          ofTopLevel extended rest
      | .word => ofCommand argument rest

/-- The request that the arguments of the program make. -/
def ofArguments (arguments : List String) : Except UsageError Request :=
  match ofTopLevel {} arguments with
  | .ok request => .ok request
  | .error .version => .ok .version
  | .error .help => .ok .help
  | .error (.mistake error) => .error error

end Request

end InteropHeader
