import LiveRuns.Settings.Environment
import LiveRuns.Settings.Flag

/-!
The command line.

An option takes its value from the same argument, after an equals sign, or from the next one, which
must not look like an option.  An option may be given once.  What is no option is refused, and that
before a fault in the value of the option in front of it.  An option that is not given has the value
of its variable, if there is one.
-/

namespace LiveRuns.Settings

abbrev Choices := List (Flag × Scalar)

namespace CommandLine

inductive Asked where
  | value (flag : Flag)
  | stop (reason : Refusal)

def long? (name : String) : Option Asked :=
  if name = "help" then some (.stop .help)
  else if name = "version" then some (.stop .version)
  else (Flag.all.find? (·.name = name)).map .value

def short? (letter : Char) : Option Asked :=
  if letter = 'h' then some (.stop .help)
  else if letter = 'V' then some (.stop .version)
  else if letter = 'c' then some (.value .config)
  else none

inductive Argument where
  /-- The end of the options. -/
  | finish
  /-- A long name, with what follows an equals sign. -/
  | long (name : String) (value : Option String)
  /-- A letter, with what follows it. -/
  | short (letter : Char) (rest : List Char)
  | plain (text : String)
deriving DecidableEq, Repr

def cutValue (s : List Char) : String × Option String :=
  let name := s.takeWhile (· ≠ '=')
  let value := match s.drop name.length with
    | _ :: value => some (String.ofList value)
    | [] => none
  (String.ofList name, value)

def Argument.ofText (text : String) : Argument :=
  match text.toList with
  | ['-', '-'] => .finish
  | '-' :: '-' :: s => let (name, value) := cutValue s; .long name value
  | '-' :: letter :: rest => .short letter rest
  | _ => .plain text

/-- An option and its value, once it is there. -/
abbrev Open := Option (Flag × Option String)

def settle (given : Choices) : Open → Except Refusal Choices
  | none => .ok given
  | some (flag, none) => .error (.missingValue flag)
  | some (flag, some value) =>
    if given.any (·.1 = flag) then .error (.repeated flag)
    else do return given ++ [(flag, ← flag.read value)]

/-- Open an option, or take it up at once if it has its value. -/
def ask (given : Choices) (flag : Flag) : Option String → Except Refusal (Choices × Open)
  | some value => do return (← settle given (some (flag, some value)), none)
  | none => .ok (given, some (flag, none))

def readFrom (given : Choices) (asked : Open) : List String → Except Refusal Choices
  | [] => settle given asked
  | text :: rest =>
    match Argument.ofText text with
    | .plain value =>
      match asked with
      | some (flag, none) => readFrom given (some (flag, some value)) rest
      | _ => .error (.unexpected value)
    | .finish =>
      match rest with
      | [] => settle given asked
      | text :: _ => .error (.unexpected text)
    | .long name value =>
      match long? name, value with
      | none, _ => .error (.unexpected ("--" ++ name))
      | some (.stop _), some value => .error (.unexpectedValue value ("--" ++ name))
      | some (.stop reason), none => do
        discard (settle given asked)
        throw reason
      | some (.value flag), value => do
        let (given, asked) ← ask (← settle given asked) flag value
        readFrom given asked rest
    | .short letter tail =>
      match short? letter with
      | none => .error (.unexpected (String.ofList ['-', letter]))
      | some (.stop reason) => do
        discard (settle given asked)
        throw reason
      | some (.value flag) => do
        let value := match tail with
          | [] => none
          | '=' :: value => some (String.ofList value)
          | _ => some (String.ofList tail)
        let (given, asked) ← ask (← settle given asked) flag value
        readFrom given asked rest

/-- Add the options whose variables are set. -/
def addVariables (environment : Environment) (given : Choices) : List Flag → Except Refusal Choices
  | [] => .ok given
  | flag :: flags =>
    match given.any (·.1 = flag), environment.get? flag.envName with
    | false, some value => do
      addVariables environment (given ++ [(flag, ← flag.read value)]) flags
    | _, _ => addVariables environment given flags

/-- Read a command line, without the name of the program. -/
def read (arguments : List String) (environment : Environment) : Except Refusal Choices := do
  addVariables environment (← readFrom [] none arguments) Flag.all

end CommandLine

namespace Choices

def get? (choices : Choices) (flag : Flag) : Option Scalar := choices.lookup flag

def layer (choices : Choices) : Layer :=
  choices.filterMap fun (flag, value) => flag.path?.map (·, .leaf none value)

end Choices

end LiveRuns.Settings
