import WordMachine.Command.Help
import WordMachine.Command.Options
import WordMachine.Engine
import WordMachine.Text.Alphanumeric

/-!
# Requests

A command line asks for the version, for help, or for something to be done with a file: run it,
show its layout, or run it with breakpoints. Options before the command apply to all commands. Of a
number given more than once only the last counts, and only that one has to be a number; every
breakpoint counts.
-/

namespace WordMachine.Command

open Text

inductive Key where
  | verbose
  | version
  | help
  | maxSteps
  | trace
  | memory
  | breakpoint
  deriving DecidableEq, Repr

def helpSwitch : Switch Key := ⟨.help, "--help", none, false⟩

def maxStepsSwitch : Switch Key := ⟨.maxSteps, "--max-steps", some 'n', true⟩

def commonSwitches : List (Switch Key) :=
  [⟨.verbose, "--verbose", some 'v', false⟩, ⟨.version, "--version", none, false⟩, helpSwitch]

def runSwitches : List (Switch Key) :=
  [maxStepsSwitch, ⟨.trace, "--trace", some 't', false⟩, ⟨.memory, "--memory", some 'm', false⟩,
   helpSwitch]

def debugSwitches : List (Switch Key) :=
  [maxStepsSwitch, ⟨.breakpoint, "--break", some 'b', true⟩, helpSwitch]

/-- What to do with a file. -/
inductive Action where
  | run (maxSteps : Int) (trace memory : Bool)
  | layout
  | debug (maxSteps : Int) (breakpoints : List Int)
  deriving DecidableEq, Repr

structure Task where
  verbose : Bool
  path : String
  action : Action
  deriving DecidableEq, Repr

inductive Request where
  | version
  | help (topic : Topic)
  | task (t : Task)
  deriving DecidableEq, Repr

/-- A number that is at least one. -/
def positive? (text : String) : Option Int :=
  (Numeral.readSigned? text).bind fun n => if 1 ≤ n then some n else none

/-- The values given for an option, in order. -/
def valuesOf (key : Key) (given : List (Key × String)) : List String :=
  (given.filter (·.1 = key)).map (·.2)

def isGiven (key : Key) (given : List (Key × String)) : Bool := given.any (·.1 = key)

/-- The step ceiling asked for. -/
def maxSteps? (given : List (Key × String)) : Option Int :=
  match (valuesOf .maxSteps given).getLast? with
  | none => some ({} : Config).maxSteps
  | some text => positive? text

/-- The options of each command and what it does with them. -/
def Topic.switches : Topic → List (Switch Key)
  | .commands => commonSwitches
  | .run => runSwitches
  | .layout => [helpSwitch]
  | .debug => debugSwitches

/-- The command with a given name. -/
def commandNamed? : String → Option Topic
  | "run" => some .run
  | "layout" => some .layout
  | "debug" => some .debug
  | _ => none

/-- What a command does under its options. -/
def action? (given : List (Key × String)) : Topic → Option Action
  | .run => (maxSteps? given).map (.run · (isGiven .trace given) (isGiven .memory given))
  | .layout => some .layout
  | .debug => do
    let maxSteps ← maxSteps? given
    let breakpoints ← (valuesOf .breakpoint given).mapM positive?
    return .debug maxSteps breakpoints
  | .commands => none

/-- A command and the words after it. -/
def readCommand (verbose : Bool) (command : Topic) (rest : List String) : Option Request := do
  let (given, words) ← readWords command.switches true [] [] rest
  if isGiven .help given then return .help command
  let [path] := words | none
  let action ← action? given command
  return .task { verbose, path, action }

/-- Whether a word that names no command looks like an option: it begins with a character that is
neither a letter nor a numeral. -/
def looksLikeOption (word : String) : Bool :=
  match word.toList with
  | [] => false
  | c :: _ => !isAlphanumeric c

/-- What a command line asks for; nothing when it is not well formed. An empty one, and one that has
something like an option where the command should be, ask for help. -/
def Request.read? (args : List String) : Option Request := do
  if args.isEmpty then return .help .commands
  let (given, words) ← readWords Topic.commands.switches false [] [] args
  match given.find? fun (key, _) => key = .version || key = .help with
  | some (.version, _) => return .version
  | some _ => return .help .commands
  | none =>
    let name :: rest := words | none
    match commandNamed? name with
    | some command => readCommand (isGiven .verbose given) command rest
    | none => if looksLikeOption name then return .help .commands else none

end WordMachine.Command
