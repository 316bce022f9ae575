/-!
# Arguments

The command line is a command with options. An option has a long name, after two hyphens, and
mostly a short one, after one; short options may run together. The value of an option is the next
argument, or stands in the same one. No option may be given twice.
-/

namespace Lifecycle.CommandLine

inductive Command
  | classify
  | generate
deriving DecidableEq, Repr

/-- What options say. -/
inductive Flag
  | verbose
  | samples
  | tests
  | model
  | settings
  | output
  | version
  | help
deriving DecidableEq, Repr

namespace Flag

def takesValue : Flag → Bool
  | .model => true
  | .settings => true
  | .output => true
  | _ => false

def long : Flag → String
  | .verbose => "verbose"
  | .samples => "samples"
  | .tests => "tests"
  | .model => "code-model"
  | .settings => "settings"
  | .output => "output"
  | .version => "version"
  | .help => "help"

def short? : Flag → Option Char
  | .verbose => some 'v'
  | .samples => none
  | .tests => none
  | .model => some 'c'
  | .settings => some 's'
  | .output => some 'o'
  | .version => some 'V'
  | .help => some 'h'

end Flag

/-- The options that may stand before the command, and those of each command. -/
def flagsOf : Option Command → List Flag
  | none => [.verbose, .version, .help]
  | some .classify => [.verbose, .model, .settings, .help]
  | some .generate => [.verbose, .model, .settings, .samples, .tests, .output, .help]

/-- What ends the reading of arguments early. -/
inductive Stop
  | misuse
  | version
  | help
deriving DecidableEq, Repr

/-- Options that were given, each with its value if it takes one. -/
abbrev Given := List (Flag × String)

/-- One more option. Asking for the version or for help ends the reading; an option that takes a
value needs one that is not empty. -/
def give (flag : Flag) (value : String) (given : Given) : Except Stop Given :=
  match flag with
  | .version => .error .version
  | .help => .error .help
  | _ =>
    if (given.lookup flag).isSome || (flag.takesValue && value.isEmpty) then .error .misuse
    else .ok (given ++ [(flag, value)])

/-- Whether an argument can be the value of an option before it. -/
def isValue (argument : String) : Bool :=
  argument == "-" || argument.toList.head? != some '-'

def giveNext (flag : Flag) (rest : List String) (given : Given) :
    Except Stop (List String × Given) :=
  match rest with
  | value :: rest =>
    if isValue value then (give flag value given).map fun given => (rest, given)
    else .error .misuse
  | [] => .error .misuse

/-- Short options that run together. -/
def readShort (flags : List Flag) : List Char → List String → Given →
    Except Stop (List String × Given)
  | [], rest, given => .ok (rest, given)
  | c :: cs, rest, given =>
    match flags.find? (·.short? == some c) with
    | none => .error .misuse
    | some flag =>
      if flag.takesValue then
        match cs with
        | [] => giveNext flag rest given
        | '=' :: value => (give flag (String.ofList value) given).map fun given => (rest, given)
        | value => (give flag (String.ofList value) given).map fun given => (rest, given)
      else (give flag "" given).bind (readShort flags cs rest)

/-- A long option, by the characters after its hyphens. -/
def readLong (flags : List Flag) (cs : List Char) (rest : List String) (given : Given) :
    Except Stop (List String × Given) :=
  let name := cs.takeWhile (· != '=')
  match flags.find? (·.long.toList == name), cs.dropWhile (· != '=') with
  | none, _ => .error .misuse
  | some flag, [] =>
    if flag.takesValue then giveNext flag rest given
    else (give flag "" given).map fun given => (rest, given)
  | some flag, _ :: value =>
    if flag.takesValue then
      (give flag (String.ofList value) given).map fun given => (rest, given)
    else .error .misuse

/-- The options up to the first argument that is none, and the arguments from there on. -/
def readOptions (flags : List Flag) : Nat → List String → Given →
    Except Stop (List String × Given)
  | 0, rest, given => .ok (rest, given)
  | fuel + 1, rest, given =>
    match rest with
    | [] => .ok ([], given)
    | argument :: others =>
      match argument.toList with
      | '-' :: '-' :: [] => .ok (rest, given)
      | '-' :: '-' :: name => do
        let (rest, given) ← readLong flags name others given
        readOptions flags fuel rest given
      | '-' :: c :: cs => do
        let (rest, given) ← readShort flags (c :: cs) others given
        readOptions flags fuel rest given
      | _ => .ok (rest, given)

/-- What is asked for on the command line. -/
structure Invocation where
  command : Command
  verbose : Bool
  /-- path of the service description -/
  model : String
  /-- path of the settings -/
  settings : Option String
  samples : Bool
  tests : Bool
  /-- path of the directory to write to -/
  output : String
deriving DecidableEq, Repr

/-- Where artifacts go unless the command line says so. -/
def standardOutput : String := "./output"

def commandNamed? (name : String) : Option Command :=
  [("classify", Command.classify), ("generate", Command.generate)].lookup name

/-- What a command is invoked with. Nothing may follow its options but the mark of their end. -/
def readCommand (verbose : Bool) (command : Command) (arguments : List String) :
    Except Stop Invocation := do
  let (rest, given) ←
    readOptions (flagsOf (some command)) (arguments.length + 1) arguments []
  if rest != [] && rest != ["--"] then throw .misuse
  match given.lookup .model with
  | none => throw .misuse
  | some model =>
    pure
      { command
        verbose := verbose || (given.lookup .verbose).isSome
        model
        settings := given.lookup .settings
        samples := (given.lookup .samples).isSome
        tests := (given.lookup .tests).isSome
        output := (given.lookup .output).getD standardOutput }

def readArguments (arguments : List String) : Except Stop Invocation := do
  let (rest, given) ← readOptions (flagsOf none) (arguments.length + 1) arguments []
  match rest with
  | [] => throw .misuse
  | name :: rest =>
    match commandNamed? name with
    | some command => readCommand (given.lookup .verbose).isSome command rest
    | none =>
      -- help on a command that there is
      let isHelp := name == "help" && rest.length ≤ 1
        && rest.all fun name => name == "help" || (commandNamed? name).isSome
      throw (if isHelp then .help else .misuse)

end Lifecycle.CommandLine
