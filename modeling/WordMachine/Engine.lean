import WordMachine.Machine

/-!
# Running a program to its end

An engine holds the text of a program, laid out or not yet, and a machine for it. A run lays the
program out, starts at its first statement and goes on until the end, an error, or the ceiling on
the number of steps. The ceiling is looked at once more when the run is over, so a program that
ends on the last step allowed has still reached it.
-/

namespace WordMachine

structure Config where
  maxSteps : Int := 1000
  registerCount : Nat := 16
  deriving DecidableEq, Repr

/-- A machine for a program not yet laid out. -/
def Machine.fresh (config : Config) (program : List Statement) : Machine :=
  { program, registers := .fresh config.registerCount }

/-- A machine at the start of a layout; registers, flags and the step count carry over. -/
def Machine.restart (m : Machine) (l : Layout) : Machine :=
  { m with
    program := l.statements
    symbols := l.symbols
    memory := l.memory
    line := 0
    address := 0 }

/-- What came of running for a while: the machine, the statements executed, and a failure if one
ended it. -/
structure Run where
  machine : Machine
  executed : Array Statement := #[]
  failure : Option Failure := none
  deriving DecidableEq, Repr

/-- Steps until the end of the program or a failure, and at most the given number of times. -/
def Machine.runFor : Nat → Machine → Array Statement → Run
  | 0, m, executed => { machine := m, executed }
  | n + 1, m, executed =>
    if m.atEnd then { machine := m, executed }
    else match m.step with
      | .error e => { machine := m.tick, executed, failure := some e }
      | .ok m' => m'.runFor n (executed ++ m.current?.toArray)

/-- The line of the next statement, counted from one; none at the end. -/
def Machine.nextLine? (m : Machine) : Option Int := if m.atEnd then none else some (m.line + 1)

/-- Whether a statement can be announced. One with code is announced by its line number and, where
its name is known, by the address reached; in a state that no program leads to, either may be a
number that cannot be written out. -/
def Machine.announces (m : Machine) (s : Statement) : Bool :=
  match CodeLine.parse? s.text with
  | none => true
  | some l =>
    Text.Numeral.isWritable s.line && (l.mnemonic?.isNone || Text.Numeral.isWritable m.address)

/-- Whether the statement at the position can be announced. -/
def Machine.canAnnounce (m : Machine) : Bool := m.atEnd || m.current?.all m.announces

/-- One step, for a statement that can be announced; one that cannot is not executed. -/
def Machine.attempt (m : Machine) : Except Failure Machine :=
  if m.canAnnounce then m.step else .error (.refusal .numberTooLong)

structure Engine where
  limit : Int
  source : List Statement
  laidOut : Bool := false
  machine : Machine
  deriving DecidableEq, Repr

namespace Engine

/-- A program as it stands before anything is done with it. -/
def load (config : Config) (source : String) : Engine :=
  let program := statements source
  { limit := config.maxSteps, source := program, machine := .fresh config program }

/-- Lays the program out and moves to its first statement. -/
def prepare (e : Engine) : Except Failure Engine := do
  let l ← Layout.build e.source
  return { e with laidOut := true, machine := e.machine.restart l }

/-- What came of an operation on an engine. -/
structure Turn where
  engine : Engine
  executed : Array Statement := #[]
  failure : Option Failure := none
  deriving DecidableEq, Repr

/-- One step, after laying the program out if that has not been done. -/
def step (e : Engine) : Turn :=
  match if e.laidOut then .ok e else e.prepare with
  | .error f => { engine := e, failure := some f }
  | .ok e =>
    match e.machine.attempt with
    | .error f => { engine := { e with machine := e.machine.tick }, failure := some f }
    | .ok m =>
      { engine := { e with machine := m }, executed := e.machine.finished?.toArray }

/-- Steps a machine may still take below a ceiling. -/
def fuel (limit : Int) (m : Machine) : Nat := (limit - m.steps).toNat

/-- The error of a run that reached the ceiling, charged to the statement that would come next. -/
def overLimit (limit : Int) (m : Machine) : Diagnostic := ⟨.executionLimit limit, m.nextLine?⟩

/-- What a run reports when it is over: the ceiling, if it was reached. Otherwise the number of
steps is told, if it can be. -/
def closing (limit : Int) (m : Machine) : Option Failure :=
  if limit ≤ m.steps then some (.report (overLimit limit m))
  else if Text.Numeral.isWritable m.steps then none
  else some (.refusal .numberTooLong)

/-- A full run. -/
def run (e : Engine) : Turn :=
  match e.prepare with
  | .error f => { engine := e, failure := some f }
  | .ok e =>
    let r := e.machine.runFor (fuel e.limit e.machine) #[]
    { engine := { e with machine := r.machine }
      executed := r.executed
      failure := r.failure.or (closing e.limit r.machine) }

/-- The address that a token means, for a statement on a given line. -/
def resolve (e : Engine) (token : String) (line : Int) : Except Failure Int := do
  let a ← Address.read e.machine.registers.count token line
  e.machine.resolve a line

/-- A one-line summary. -/
def summary (e : Engine) : String :=
  "Interpreter(line=" ++ toString e.machine.line ++ ", address=" ++ toString e.machine.address
    ++ ", steps=" ++ toString e.machine.steps ++ ", statements="
    ++ toString e.machine.program.length ++ ")"

end Engine

end WordMachine
