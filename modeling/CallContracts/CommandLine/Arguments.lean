import CallContracts.Text.Digit

/-!
Reading the arguments of the command line.

    arguments := option* command argument*
    option    := "-h" | "--help" | "--config" file | "--config=" file

A long option may be cut short. An argument that starts with a dash is an option, unless it looks
like a negative number or holds a blank; behind `--` nothing is an option. Help may be asked for
before and behind a command. Any misuse ends with the exit code 2, help with 0.

Main definitions: `Argument.classify`, `Command`, `Invocation` and `Invocation.read`.
-/

namespace CallContracts.CommandLine

/-- What the command line is asked for. -/
inductive Command where
  /-- Shows the tree of a signature. -/
  | parse (signature : String)
  /-- Shows the ancestry of a type. -/
  | chain (name : String)
  /-- Tests a literal against a type. -/
  | check (expression literal : String)
  /-- Lists the types with their ancestry. -/
  | types
  deriving Repr, DecidableEq

/-- A command, and the document of the setup that it is to use if one is named. -/
structure Invocation where
  config : Option String
  command : Command
  deriving Repr, DecidableEq

/-- The exit code of a misuse. -/
def misuse : Nat := 2

/-- The exit code of help. -/
def helped : Nat := 0

/-! ### Single arguments -/

/-- What an argument is to a list of options. -/
inductive Argument where
  | plain (text : String)
  /-- An option, perhaps with a value behind an equals sign. -/
  | option (name : String) (value : Option String)
  | unknown (text : String)
  /-- Behind it nothing is an option. -/
  | separator
  deriving Repr, DecidableEq

/-- A dash and digits, perhaps with a point in front of the last of them. -/
def isNegativeNumber (cs : List Char) : Bool :=
  match cs with
  | '-' :: rest =>
    let whole := rest.takeWhile Text.isDigit
    match rest.dropWhile Text.isDigit with
    | [] => !whole.isEmpty
    | ['\n'] => !whole.isEmpty
    | '.' :: fraction =>
      let digits := fraction.takeWhile Text.isDigit
      let last := fraction.dropWhile Text.isDigit
      !digits.isEmpty && (last.isEmpty || last == ['\n'])
    | _ => false
  | _ => false

/-- The text before the first equals sign, and the text behind it if there is one. -/
def atEquals (s : String) : String × Option String :=
  let cs := s.toList
  let name := cs.takeWhile (· != '=')
  match cs.dropWhile (· != '=') with
  | _ :: value => (String.ofList name, some (String.ofList value))
  | [] => (s, none)

/-- The options that an argument may be short for. -/
def candidates (options : List String) (s : String) : List (String × Option String) :=
  if "--".isPrefixOf s then
    let (name, value) := atEquals s
    (options.filter fun o => name.isPrefixOf o).map (·, value)
  else
    options.filterMap fun o =>
      if o.toList = s.toList.take 2 then some (o, some (String.ofList (s.toList.drop 2)))
      else if s.isPrefixOf o then some (o, none)
      else none

/-- What an argument is, unless it is short for several options. -/
def Argument.classify (options : List String) (s : String) : Option Argument :=
  if s = "--" then some .separator
  else if !"-".isPrefixOf s || s = "-" then some (.plain s)
  else if s ∈ options then some (.option s none)
  else
    let (name, value) := atEquals s
    if value.isSome && name ∈ options then some (.option name value)
    else
      match candidates options s with
      | [(o, value)] => some (.option o value)
      | _ :: _ :: _ => none
      | [] =>
        if isNegativeNumber s.toList || s.toList.contains ' ' then some (.plain s)
        else some (.unknown s)

/-- What the arguments are, unless one of them is short for several options. -/
def classifyAll (options : List String) : List String → Option (List Argument)
  | [] => some []
  | s :: ss =>
    if s = "--" then some (.separator :: ss.map .plain)
    else do
      let a ← Argument.classify options s
      let rest ← classifyAll options ss
      return a :: rest

/-! ### Commands -/

/-- The options for help. -/
def helpOptions : List String := ["-h", "--help"]

/-- The option that names the document of a setup. -/
def configOption : String := "--config"

/-- The exit code of an option for help. It takes no value, but its letter may be followed by
others. -/
def helpCode (name : String) : Option String → Nat
  | none => helped
  | some value => if name.length = 2 && value != "" then helped else misuse

/-- Takes the values of a command: exactly `wanted` of them, and no option but help. A separator
joins the values beside it. -/
def takeValues (wanted : Nat) (bad : Bool) (done : List String) :
    List Argument → Except Nat (List String)
  | [] => if bad || done.length != wanted then .error misuse else .ok done
  | .plain s :: rest =>
    if done.length < wanted then takeValues wanted bad (done ++ [s]) rest
    else takeValues wanted true done rest
  | .separator :: rest => takeValues wanted (bad || wanted == 0) done rest
  | .option name value :: _ => .error (helpCode name value)
  | .unknown _ :: rest => takeValues wanted true done rest

/-- The number of values that a command takes. -/
def valueCount? (name : String) : Option Nat :=
  if name = "parse" || name = "chain" then some 1
  else if name = "check" then some 2
  else if name = "types" then some 0
  else none

/-- The command of a name and its values. -/
def command? : String → List String → Option Command
  | "parse", [signature] => some (.parse signature)
  | "chain", [name] => some (.chain name)
  | "check", [expression, literal] => some (.check expression literal)
  | "types", [] => some .types
  | _, _ => none

/-- Reads a command from its name and the arguments behind it. -/
def readCommand (bad : Bool) (name : String) (arguments : List String) : Except Nat Command :=
  match valueCount? name with
  | none => .error misuse
  | some wanted =>
    match classifyAll helpOptions arguments with
    | none => .error misuse
    | some classified => do
      let values ← takeValues wanted bad [] classified
      match command? name values with
      | some c => .ok c
      | none => .error misuse

/-! ### Invocations -/

/-- Reads what stands before the command; each argument stands beside its text. After the option
that names a document, `expecting` its name comes next. -/
def readFrom (bad : Bool) (config : Option String) :
    (expecting : Bool) → List (Argument × String) → Except Nat Invocation
  | _, [] => .error misuse
  | true, (.plain file, _) :: rest => readFrom bad (some file) false rest
  | true, _ :: _ => .error misuse
  | false, (.separator, _) :: _ => .error misuse
  | false, (.unknown _, _) :: rest => readFrom true config false rest
  | false, (.option name value, _) :: rest =>
    if name = configOption then
      match value with
      | some file => readFrom bad (some file) false rest
      | none => readFrom bad config true rest
    else .error (helpCode name value)
  | false, (.plain name, _) :: rest =>
    match readCommand bad name (rest.map (·.2)) with
    | .ok c => .ok ⟨config, c⟩
    | .error exitCode => .error exitCode

/-- Reads the arguments of the command line; without anything to carry out there is an exit
code. -/
def Invocation.read (arguments : List String) : Except Nat Invocation :=
  match classifyAll (configOption :: helpOptions) arguments with
  | none => .error misuse
  | some classified => readFrom false none false (classified.zip arguments)

end CallContracts.CommandLine
