import WordMachine.Command.Request
import WordMachine.Journal
import WordMachine.Text.Lines
import WordMachine.Text.Utf8
import WordMachine.View

/-!
# Commands

A task turns the bytes of a file into a reply: an exit code, and text for the two output streams.
The code is zero when all went well, one when the program has an error, two when an argument does
not fit, and three for any other failure. The journal goes to the second stream before the error;
without the verbose option only its warnings do, and bare.
-/

namespace WordMachine.Command

open Text

structure Reply where
  code : Nat
  out : String
  err : String
  /-- Whether the caller asked for all details of a failure that is not the program's. -/
  detailed : Bool := false
  deriving DecidableEq, Repr

/-- Lines of output, each ended. -/
def lines (texts : List String) : String := String.join (texts.map (· ++ "\n"))

/-- The text of a file: bytes read as UTF-8, line ends made alike. -/
def sourceText (bytes : List UInt8) : Except Refusal String :=
  match Utf8.decode bytes with
  | .ok cs => .ok (String.ofList (unifyLineEnds cs))
  | .error e => .error (.notText e)

/-- The registers and flags, and the memory on request. -/
def stateLines (m : Machine) (withMemory : Bool) : List String :=
  [View.registers m.registers.values, View.flags m.registers.flags]
    ++ if withMemory then ["", View.memory m.memory] else []

def journalLines (verbose : Bool) (records : List Journal.Record) : List String :=
  if verbose then records.map fun r => r.level.name ++ ": " ++ r.message
  else (records.filter (·.level = .warning)).map (·.message)

/-- What a task has to say: output, journal, and the failure that ended it. -/
structure Account where
  out : List String := []
  journal : List Journal.Record := []
  failure : Option Failure := none

/-- The line that reports a program error. -/
def diagnosticLine (d : Diagnostic) : String :=
  (if d.cause.phase? = some .layout then "Preprocessing" else "Runtime") ++ " error: " ++ d.message

/-- The reply for an account. Whether a refused value counts as a bad argument depends on the
command. -/
def Account.reply (a : Account) (verbose : Bool) (blamesArgument : Bool) : Reply :=
  let out := lines a.out
  let journal := journalLines verbose a.journal
  match a.failure with
  | none => { code := 0, out, err := lines journal }
  | some (.diagnostic d) => { code := 1, out, err := lines (journal ++ [diagnosticLine d]) }
  | some (.refusal r) =>
    if blamesArgument ∧ r.kind = .value then
      { code := 2, out, err := lines (journal ++ ["Error: " ++ r.message]) }
    else
      { code := 3, out, err := lines (journal ++ ["Internal error: " ++ r.message]),
        detailed := verbose }

/-- What a full run prints while it goes on: each statement executed and what it left. -/
def traceLines (machines : List Machine) : List String :=
  machines.flatMap fun m =>
    match m.finished? with
    | none => []
    | some s => [View.statement none s, View.brief m.next.registers]

/-- Whether a failure is the ceiling and not the fault of a step. -/
def isOverLimit : Option Failure → Bool
  | some (.diagnostic ⟨.executionLimit _, _⟩) => true
  | _ => false

def runAccount (verbose : Bool) (maxSteps : Int) (trace memory : Bool) (source : String) :
    Account :=
  let engine := Engine.load { maxSteps } source
  let turn := engine.run
  let final := turn.engine.machine
  match engine.prepare with
  | .error f => { journal := Journal.ofLayout engine.source, failure := some f }
  | .ok ready =>
    let journal := Journal.ofLayout engine.source ++ Journal.ofSteps ready.machine final ++
      if turn.failure.isNone || isOverLimit turn.failure then [Journal.ofEnd maxSteps final] else []
    let traced := if trace then traceLines (Journal.between ready.machine final) else []
    let closing := match turn.failure with
      | none =>
        stateLines final memory
          ++ if verbose then ["Executed " ++ toString final.steps ++ " steps"] else []
      | some (.diagnostic _) => stateLines final memory
      | some (.refusal _) => []
    { out := traced ++ closing, journal, failure := turn.failure }

def layoutAccount (verbose : Bool) (source : String) : Account :=
  let program := statements source
  let journal := Journal.ofLayout program
  match Layout.build program with
  | .error f => { journal, failure := some f }
  | .ok l =>
    { out := [View.listing l.statements none, "", View.symbols l.symbols, "", View.memory l.memory]
        ++ if verbose then ["Program size: " ++ toString l.size ++ " bytes"] else []
      journal }

/-- What a stretch of a session prints. -/
def stretchLines (after : Session) (outcome : Except Failure Event) : List String :=
  match outcome with
  | .error _ => []
  | .ok e =>
    ("-- " ++ e.text) ::
      if e.reason = .breakpoint then
        View.listing after.machine.program (some after.machine.line)
          :: stateLines after.machine false
      else stateLines after.machine false

/-- How the last stretch of a session ends the task. -/
def stretchFailure (maxSteps : Int) (after : Session) (outcome : Except Failure Event) :
    Option Failure :=
  match outcome with
  | .error f => some f
  | .ok e =>
    match e.cause with
    | some d => some (.diagnostic d)
    | none =>
      if e.reason = .limit then some (.report (Engine.overLimit maxSteps after.machine))
      else none

def debugAccount (maxSteps : Int) (breakpoints : List Int) (source : String) : Account :=
  let journal := Journal.ofLayout (statements source)
  match Session.load { maxSteps } source with
  | .error f => { journal, failure := some f }
  | .ok session =>
    match breakpoints.foldlM Session.addBreakpoint session with
    | .error r => { journal, failure := some (.refusal r) }
    | .ok session =>
      let stretches := session.finish
      { out := stretches.flatMap fun (_, after, outcome) => stretchLines after outcome
        journal := journal ++ stretches.flatMap fun (before, after, outcome) =>
          Journal.ofStretch before after outcome
        failure := stretches.getLast?.bind fun (_, after, outcome) =>
          stretchFailure maxSteps after outcome }

/-- The reply of a task to the bytes of its file. Only the command with breakpoints takes a refused
value, which may be a breakpoint, for a bad argument. -/
def Task.reply (t : Task) (bytes : List UInt8) : Reply :=
  let blamesArgument := match t.action with
    | .debug .. => true
    | _ => false
  let account : Account :=
    match sourceText bytes with
    | .error r => { failure := some (.refusal r) }
    | .ok source =>
      match t.action with
      | .run maxSteps trace memory => runAccount t.verbose maxSteps trace memory source
      | .layout => layoutAccount t.verbose source
      | .debug maxSteps breakpoints => debugAccount maxSteps breakpoints source
  account.reply t.verbose blamesArgument

def versionText : String := "ibmasm, version 1.0.0"

/-- Answers a command line, reading the file it names; nothing when the command line is not well
formed or the file cannot be read. -/
def respond {m : Type → Type} [Monad m] (read : String → m (Option (List UInt8)))
    (args : List String) : m (Option Reply) :=
  match Request.read? args with
  | none => pure none
  | some .version => pure (some { code := 0, out := lines [versionText], err := "" })
  | some (.help topic) => pure (some { code := 0, out := lines topic.lines, err := "" })
  | some (.task t) => do
    let bytes ← read t.path
    pure (bytes.map t.reply)

end WordMachine.Command
