import WordMachine.Session

/-!
# The journal

What the layout and the machine do can be told step by step. Since both are determined by what
they start from, the account is given afterwards: the records of a step are read off the machine
before it, and those of a stretch off the machines it went through.
-/

namespace WordMachine.Journal

inductive Level where
  | debug
  | info
  | warning
  deriving DecidableEq, Repr

def Level.name : Level → String
  | .debug => "DEBUG"
  | .info => "INFO"
  | .warning => "WARNING"

structure Record where
  level : Level
  message : String
  deriving DecidableEq, Repr

/-- The record of a label that a draft accepts. -/
def ofLabel (d : Layout.Draft) (s : Statement) (label : Option String) : List Record :=
  match label, d.define s label with
  | some name, .ok _ => [⟨.debug, "Label \"" ++ name ++ "\" = " ++ toString d.address⟩]
  | _, _ => []

/-- The records of one statement laid out. -/
def ofStatement (d : Layout.Draft) (s : Statement) : List Record :=
  match CodeLine.parse? s.text with
  | none => []
  | some l =>
    let placed := match d.add s with
      | .error _ => []
      | .ok d' =>
        [⟨.debug, "Line " ++ toString s.line ++ ": " ++ l.name ++ " at " ++ toString d.address
          ++ ", " ++ toString (d'.address - d.address) ++ " bytes"⟩]
    ofLabel d s l.label ++ placed

/-- The records of statements laid out after a draft, up to the first that fails. -/
def ofDraft (done : Array Record) (d : Layout.Draft) : List Statement → Array Record
  | [] =>
    done.push ⟨.info, "Layout complete: " ++ toString d.statements.size ++ " statements, "
      ++ toString d.symbols.labels.length ++ " labels, " ++ toString d.memory.size ++ " bytes"⟩
  | s :: rest =>
    let done := done ++ (ofStatement d s).toArray
    match d.add s with
    | .error _ => done
    | .ok d' => ofDraft done d' rest

/-- The records of a layout. -/
def ofLayout (program : List Statement) : List Record := (ofDraft #[] {} program).toList

/-- What a step tells beyond the statement it executes: a division by zero, or a jump taken. -/
def ofInstruction (m : Machine) (s : Statement) (name : String) (i : Instruction) : List Record :=
  let division : List Record := [⟨.debug, "Division by zero in \"" ++ name ++ "\", result is 0"⟩]
  match i with
  | .register (.arith .div) _ j => if m.registers.get j = 0 then division else []
  | .memory (.arith .div) _ a =>
    match (m.resolve a s.line).bind (m.memory.readWord · s.line) with
    | .ok 0 => division
    | _ => []
  | .jump when a =>
    match m.resolve a s.line with
    | .error _ => []
    | .ok address =>
      match jumpTarget m.program address s.line with
      | .error _ => []
      | .ok place =>
        if when.holds m.registers.flags then
          [⟨.debug, "Line " ++ toString s.line ++ ": " ++ name ++ " taken to line "
            ++ toString (place + 1) ++ " @" ++ toString address⟩]
        else []
  | _ => []

/-- The records of the step that a machine is about to take. -/
def ofStep (m : Machine) : List Record :=
  if m.atEnd then []
  else match m.current? with
    | none => []
    | some s =>
      match CodeLine.parse? s.text with
      | none => []
      | some l =>
        if l.mnemonic?.isNone then []
        else
          ⟨.debug, "Line " ++ toString s.line ++ " @" ++ toString m.address ++ ": " ++ l.name ++ " "
            ++ " ".intercalate l.operands⟩
          :: (match m.decode s l with
            | .error _ => []
            | .ok i => ofInstruction m s l.name i)

/-- A machine and those it becomes in the given number of steps less one, in order. -/
def visited : Nat → Machine → Array Machine → Array Machine
  | 0, _, done => done
  | n + 1, m, done => visited n m.next (done.push m)

/-- The machines that took the steps between two moments of one machine. -/
def between (before after : Machine) : List Machine :=
  (visited (after.steps - before.steps) before #[]).toList

/-- The records of the steps between two moments of one machine. -/
def ofSteps (before after : Machine) : List Record := (between before after).flatMap ofStep

/-- How a full run ends that no step made fail. -/
def ofEnd (limit : Int) (m : Machine) : Record :=
  if limit ≤ m.steps then
    ⟨.warning, "Execution ceiling of " ++ toString limit ++ " steps reached"⟩
  else ⟨.info, "Program finished after " ++ toString m.steps ++ " steps"⟩

/-- The records of a stretch of a session. -/
def ofStretch (before after : Session) (outcome : Except Failure Event) : List Record :=
  ofSteps before.machine after.machine ++
    match outcome with
    | .ok { cause := some d, .. } => [⟨.info, "Run stopped by error: " ++ d.message⟩]
    | _ => []

end WordMachine.Journal
