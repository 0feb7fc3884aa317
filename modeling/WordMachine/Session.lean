import WordMachine.Engine

/-!
# Sessions

A session runs a program that is laid out, one statement or one stretch at a time, and remembers
the lines it executed. A stretch stops at the end of the program, when its budget or the ceiling is
used up, before a line with a breakpoint, or at an error. The statement a stretch starts from is
executed even when it has a breakpoint, so a session that stopped at one can go on.
-/

namespace WordMachine

inductive StopReason where
  | step
  | breakpoint
  | finish
  | limit
  | error
  | unknown
  deriving DecidableEq, Repr

/-- Why and where a session stopped. -/
structure Event where
  reason : StopReason
  line : Option Int := none
  address : Option Int := none
  message : String := ""
  cause : Option Diagnostic := none
  deriving DecidableEq, Repr

/-- The message, or a sentence that tells the reason. -/
def Event.text (e : Event) : String :=
  let line := match e.line with
    | some n => toString n
    | none => "None"
  if !e.message.isEmpty then e.message
  else match e.reason with
    | .step => "Step to line " ++ line
    | .breakpoint => "Breakpoint at line " ++ line
    | .finish => "Program finished"
    | .limit => "Step limit reached"
    | .error => "Runtime error"
    | .unknown => "Unknown"

/-- Breakpoints are kept in increasing order. -/
structure Session where
  config : Config
  machine : Machine
  breakpoints : List Int := []
  history : Array Int := #[]
  deriving DecidableEq, Repr

namespace Session

/-- A machine at the start of a program. -/
def start (config : Config) (source : String) : Except Failure Machine := do
  let program := statements source
  let l ← Layout.build program
  return (Machine.fresh config program).restart l

def load (config : Config) (source : String) : Except Failure Session := do
  let machine ← start config source
  return { config, machine }

/-- Another program in place of the current one. Breakpoints past its last line are dropped. -/
def reload (s : Session) (source : String) : Except Failure Session := do
  let machine ← start s.config source
  return { s with
    machine
    history := #[]
    breakpoints := s.breakpoints.filter (· ≤ machine.program.length) }

/-- A line put in its place among increasing lines. -/
def insertLine (line : Int) : List Int → List Int
  | [] => [line]
  | l :: rest =>
    if line < l then line :: l :: rest
    else if line = l then l :: rest
    else l :: insertLine line rest

def addBreakpoint (s : Session) (line : Int) : Except Refusal Session :=
  let count := s.machine.program.length
  if 1 ≤ line ∧ line ≤ count then .ok { s with breakpoints := insertLine line s.breakpoints }
  else .error (.lineOutside line count)

def removeBreakpoint (s : Session) (line : Int) : Session :=
  { s with breakpoints := s.breakpoints.filter (· ≠ line) }

def clearBreakpoints (s : Session) : Session := { s with breakpoints := [] }

/-- The event of stopping at the current position. -/
def stop (s : Session) (reason : StopReason) (message : String) : Event :=
  { reason
    line := s.machine.nextLine?
    address := if s.machine.atEnd then none else some s.machine.address
    message }

/-- The event of an error in the current statement. -/
def fault (s : Session) (d : Diagnostic) : Event :=
  { reason := .error, line := d.line, address := some s.machine.address, message := d.message,
    cause := some d }

/-- A statement executed and remembered. -/
def record (s : Session) (m : Machine) : Session :=
  { s with machine := m, history := s.history.push (s.machine.line + 1) }

/-- Executes one statement; at the end nothing happens. -/
def step (s : Session) : Session × Except Failure Event :=
  if s.machine.atEnd then (s, .ok (s.stop .finish ""))
  else match s.machine.step with
    | .error e => ({ s with machine := s.machine.tick }, .error e)
    | .ok m =>
      let s := s.record m
      (s, .ok (s.stop (if m.atEnd then .finish else .step) ""))

/-- Runs on after the given number of statements of a stretch. -/
def runFor (s : Session) (taken : Nat) : Nat → Session × Except Failure Event
  | 0 =>
    if s.machine.atEnd then (s, .ok (s.stop .finish ""))
    else
      (s, .ok (s.stop .limit
        ("Stopped after " ++ toString taken ++ " steps (" ++ toString s.machine.steps
          ++ " in total)")))
  | n + 1 =>
    if s.machine.atEnd then (s, .ok (s.stop .finish ""))
    else if 0 < taken ∧ s.machine.line + 1 ∈ s.breakpoints then (s, .ok (s.stop .breakpoint ""))
    else match s.machine.step with
      | .ok m => (s.record m).runFor (taken + 1) n
      | .error (.diagnostic d) => ({ s with machine := s.machine.tick }, .ok (s.fault d))
      | .error (.refusal r) => ({ s with machine := s.machine.tick }, .error (.refusal r))

/-- Statements a stretch may execute: its budget, and no more than the ceiling leaves. -/
def allowance (s : Session) (budget : Option Int) : Nat :=
  min (budget.getD s.config.maxSteps).toNat (Engine.fuel s.config.maxSteps s.machine)

/-- Runs one stretch. -/
def run (s : Session) (budget : Option Int) : Session × Except Failure Event :=
  s.runFor 0 (s.allowance budget)

/-- One stretch after another while they stop at breakpoints, each with the session before it, and
at most the given number of them. -/
def stretches (s : Session) : Nat → List (Session × Session × Except Failure Event)
  | 0 => []
  | n + 1 =>
    let (s', outcome) := s.run none
    match outcome with
    | .ok e => (s, s', outcome) :: (if e.reason = .breakpoint then s'.stretches n else [])
    | .error _ => [(s, s', outcome)]

/-- All stretches up to the one that does not stop at a breakpoint. Each executes a statement, so
the ceiling bounds their number. -/
def finish (s : Session) : List (Session × Session × Except Failure Event) :=
  s.stretches (Engine.fuel s.config.maxSteps s.machine + 1)

end Session

end WordMachine
