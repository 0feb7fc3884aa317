import WordMachine.Proofs.Calls
import WordMachine.Proofs.Step

/-!
# Steps that write in place

A step can also be taken on one machine, register by register and flag by flag, where whatever was
written before a failure stays written. Every instruction makes its last check before its first
write, so a step taken in place leaves what a step leaves that is all or nothing: the machine after
it, or the machine before it with one step more on its count (`InPlace.run_step`). The same holds of
an engine with somebody watching it (`Watched.run_step`). As no step looks at the count, a step that
fails once fails from then on (`afterAll_step_of_failure`).
-/

namespace WordMachine

/-- What works on a state in place. -/
abbrev InPlace (σ : Type) := EStateM Failure σ

namespace InPlace

section Whole

variable {σ α : Type}

/-- Looks at the state and goes on with what it finds, or fails. -/
def look (x : σ → Except Failure α) : InPlace σ α := fun s =>
  match x s with
  | .ok a => .ok a s
  | .error f => .error f s

/-- Changes the state as a whole, or fails and changes nothing. -/
def commit (x : σ → Except Failure σ) : InPlace σ Unit := fun s =>
  match x s with
  | .ok s' => .ok () s'
  | .error f => .error f s

theorem ext {p q : InPlace σ α} (h : ∀ s, p.run s = q.run s) : p = q := funext h

@[simp] theorem run_look (x : σ → Except Failure α) (s : σ) :
    (look x).run s = match x s with
      | .ok a => .ok a s
      | .error f => .error f s := rfl

@[simp] theorem run_commit (x : σ → Except Failure σ) (s : σ) :
    (commit x).run s = match x s with
      | .ok s' => .ok () s'
      | .error f => .error f s := rfl

/-- What looks before it commits is all or nothing. -/
theorem look_bind_commit (x : σ → Except Failure α) (y : α → σ → Except Failure σ) :
    (look x >>= fun a => commit (y a)) = commit fun s => x s >>= fun a => y a s := by
  refine ext fun s => ?_
  rcases h : x s with f | a <;> simp [h] <;> rfl

/-- What is all or nothing stays so when it is followed by what cannot fail. -/
theorem commit_bind_commit (x : σ → Except Failure σ) (y : σ → σ) :
    (commit x >>= fun _ => commit fun s => .ok (y s)) = commit fun s => (x s).map y := by
  refine ext fun s => ?_
  rcases h : x s with f | s' <;> simp [h, Except.map]

end Whole

def register (i : Nat) : InPlace Machine Int := do return (← get).registers.get i

def writeRegister (i : Nat) (v : Int) : InPlace Machine Unit :=
  modify fun m => { m with registers := m.registers.set i v }

def writeFlags (v : Int) : InPlace Machine Unit :=
  modify fun m => { m with registers := m.registers.describe v }

def readWord (address line : Int) : InPlace Machine Int :=
  look fun m => m.memory.readWord address line

def writeWord (address v line : Int) : InPlace Machine Unit := do
  look fun m => if m.memory.Covers address then .ok () else .error (m.memory.outside address line)
  modify fun m => { m with
    memory := ⟨Memory.overwrite m.memory.cells address.toNat (Cell.ofWord v)⟩ }

def operate (op : RegisterOp) (i j : Nat) : InPlace Machine Unit := do
  match op with
  | .compare => writeFlags ((← register i) - (← register j))
  | .load =>
    writeRegister i (← register j)
    writeFlags (← register i)
  | .arith op =>
    writeRegister i (op.apply (← register i) (← register j))
    writeFlags (← register i)

def access (op : MemoryOp) (i : Nat) (address line : Int) : InPlace Machine Unit := do
  match op with
  | .loadAddress => writeRegister i address
  | .store => writeWord address (← register i) line
  | .load => writeRegister i (← readWord address line)
  -- the flags are written again below, and in the end describe the register alone
  | .compare => writeFlags ((← register i) - (← readWord address line))
  | .arith op =>
    let word ← readWord address line
    writeRegister i (op.apply (← register i) word)
  writeFlags (← register i)

def advance (s : Statement) : InPlace Machine Unit := do
  modify fun m => { m with address := m.address + s.size }
  modify fun m => { m with line := m.line + 1 }

def resolve (a : Address) (line : Int) : InPlace Machine Int :=
  look fun m => m.resolve a line

def jump (when : Condition) (s : Statement) (place : Nat) (address : Int) :
    InPlace Machine Unit := do
  if when.holds (← get).registers.flags then
    modify fun m => { m with line := place }
    modify fun m => { m with address }
  else
    advance s

def perform (s : Statement) : Instruction → InPlace Machine Unit
  | .register op i j => do
    operate op i j
    advance s
  | .memory op i a => do
    let address ← resolve a s.line
    access op i address s.line
    advance s
  | .jump when a => do
    let address ← resolve a s.line
    -- a jump that is not taken needs a place too
    let place ← look fun m => (jumpTarget m.program address s.line).mapError .diagnostic
    jump when s place address
  | .data => advance s

def announce (s : Statement) : InPlace Machine Unit :=
  look fun m => if m.announces s then .ok () else .error (.refusal .numberTooLong)

def execute (s : Statement) : InPlace Machine Unit :=
  match CodeLine.parse? s.text with
  | none => advance s
  | some l => do
    announce s
    let i ← look (·.decode s l)
    perform s i

def current : InPlace Machine Statement :=
  look fun m =>
    match m.current? with
    | none => .error (.refusal (refusePosition m.line .noStatement))
    | some s => .ok s

/-- The statement executed is returned, if there was one. -/
def step : InPlace Machine (Option Statement) := do
  -- counted before anything can fail
  modify Machine.tick
  if (← get).atEnd then
    return none
  else
    let s ← current
    execute s
    return some s

section Commit

theorem operate_eq (op : RegisterOp) (i j : Nat) :
    operate op i j = commit fun m => .ok { m with registers := m.registers.operate op i j } := by
  cases op <;> rfl

theorem advance_eq (s : Statement) : advance s = commit fun m => .ok (m.advance s) := rfl

theorem readWord_bind_commit (address line : Int) (y : Int → Machine → Machine) :
    (readWord address line >>= fun w => commit fun m => .ok (y w m))
      = commit fun m => (m.memory.readWord address line).map (y · m) := by
  unfold readWord
  rw [look_bind_commit]
  refine congrArg commit (funext fun m => ?_)
  rcases m.memory.readWord address line with e | w <;> rfl

theorem writeWord_bind_commit (address v line : Int) (y : Machine → Machine) :
    (writeWord address v line >>= fun _ => commit fun m => .ok (y m))
      = commit fun m => (m.memory.writeWord address v line).map
        fun memory => y { m with memory } := by
  refine ext fun m => ?_
  by_cases h : m.memory.Covers address <;>
    simp [writeWord, Memory.writeWord, h, Except.map]

theorem access_eq (op : MemoryOp) (i : Nat) (address line : Int) :
    access op i address line = commit fun m => m.access op i address line := by
  cases op with
  | loadAddress => rfl
  | store =>
    refine ext fun m => ?_
    have hvalue (p : Int → InPlace Machine Unit) :
        (register i >>= p).run m = (p (m.registers.get i)).run m := rfl
    have hflags : (register i >>= writeFlags) = commit fun m =>
        .ok { m with registers := m.registers.describe (m.registers.get i) } := rfl
    rw [access, hvalue, hflags, writeWord_bind_commit, run_commit, run_commit, Machine.access]
    rcases m.memory.writeWord address (m.registers.get i) line with d | memory <;> rfl
  | load =>
    exact readWord_bind_commit address line fun w m =>
      { m with registers := m.registers.assign i w }
  | compare =>
    exact readWord_bind_commit address line fun w m =>
      { m with registers := m.registers.describe (m.registers.get i) }
  | arith op =>
    exact readWord_bind_commit address line fun w m =>
      { m with registers := m.registers.assign i (op.apply (m.registers.get i) w) }

theorem jump_eq (when : Condition) (s : Statement) (place : Nat) (address : Int) :
    jump when s place address = commit fun m =>
      .ok (if when.holds m.registers.flags then { m with line := place, address }
        else m.advance s) := by
  refine ext fun m => ?_
  by_cases h : when.holds m.registers.flags = true <;> simp [jump, advance_eq, h]

theorem perform_eq (s : Statement) (i : Instruction) :
    perform s i = commit fun m => m.perform s i := by
  cases i with
  | register op i j =>
    simp only [perform, operate_eq, advance_eq, commit_bind_commit]
    rfl
  | memory op i a =>
    simp only [perform, access_eq, advance_eq, commit_bind_commit, resolve, look_bind_commit]
    refine congrArg commit (funext fun m => ?_)
    simp only [Machine.perform]
    rcases m.resolve a s.line with e | address
    · rfl
    · simp only [bind, Except.bind]
      rcases m.access op i address s.line with e | m₁ <;> rfl
  | jump when a =>
    simp only [perform, jump_eq, resolve, look_bind_commit]
    refine congrArg commit (funext fun m => ?_)
    simp only [Machine.perform]
    rcases m.resolve a s.line with e | address
    · rfl
    · simp only [bind, Except.bind]
      rcases jumpTarget m.program address s.line with e | place
      · rfl
      · by_cases h : when.holds m.registers.flags = true <;> simp [h] <;> rfl
  | data => rfl

theorem execute_eq (s : Statement) :
    execute s = commit fun m => if m.announces s then m.execute s
      else .error (.refusal .numberTooLong) := by
  unfold execute announce
  rcases hp : CodeLine.parse? s.text with _ | l
  · have ha : ∀ m : Machine, m.announces s = true := by
      intro m
      unfold Machine.announces
      rw [hp]
    simp [ha, advance_eq, Machine.execute, hp]
  · simp only [perform_eq, look_bind_commit]
    refine congrArg commit (funext fun m => ?_)
    by_cases ha : m.announces s = true
    · simp only [ha, if_true, Machine.execute, hp]
      rfl
    · simp only [ha]
      rfl

end Commit

/-- A step in place is all or nothing, but for the count. -/
theorem run_step (m : Machine) :
    step.run m = match m.attempt with
      | .ok m' => .ok m.finished? m'
      | .error f => .error f m.tick := by
  have hend : m.tick.atEnd = m.atEnd := rfl
  have hcur : m.tick.current? = m.current? := rfl
  unfold step current Machine.attempt Machine.canAnnounce Machine.finished? Machine.step
  by_cases he : m.atEnd = true
  · simp [hend, he]
  · rcases hc : m.current? with _ | s
    · simp [hend, hcur, he, hc]
    · have ha : m.tick.announces s = m.announces s := rfl
      by_cases hs : m.announces s = true
      · rcases hx : m.execute s with f | m' <;>
          simp [-bind_pure_comp, hend, hcur, he, hc, execute_eq, ha, hs, Machine.execute_tick, hx,
            Except.map]
      · simp [-bind_pure_comp, hend, hcur, he, hc, execute_eq, ha, hs]

end InPlace

/-- An engine, and the statements of which whoever watches it was told. -/
structure Watched where
  engine : Engine
  told : Array Statement := #[]

namespace Watched

open InPlace (look commit)

def setMachine (w : Watched) (m : Machine) : Watched :=
  { w with engine := { w.engine with machine := m } }

def onMachine {α : Type} (p : InPlace Machine α) : InPlace Watched α := fun w =>
  match p.run w.engine.machine with
  | .ok a m => .ok a (w.setMachine m)
  | .error f m => .error f (w.setMachine m)

def prepare : InPlace Watched Unit := do
  let l ← look fun w => Layout.build w.engine.source
  modify fun w => { w with engine := { w.engine with laidOut := true } }
  modify fun w => w.setMachine { w.engine.machine with program := l.statements }
  modify fun w => w.setMachine { w.engine.machine with symbols := l.symbols }
  modify fun w => w.setMachine { w.engine.machine with memory := l.memory }
  modify fun w => w.setMachine { w.engine.machine with line := 0 }
  modify fun w => w.setMachine { w.engine.machine with address := 0 }

/-- A statement is told of when it has been executed. -/
def stepMachine : InPlace Watched Unit := do
  match ← onMachine InPlace.step with
  | some s => modify fun w => { w with told := w.told.push s }
  | none => pure ()

def step : InPlace Watched Unit := do
  if !(← get).engine.laidOut then prepare
  stepMachine

@[simp] theorem run_onMachine {α : Type} (p : InPlace Machine α) (w : Watched) :
    (onMachine p).run w = match p.run w.engine.machine with
      | .ok a m => .ok a (w.setMachine m)
      | .error f m => .error f (w.setMachine m) := rfl

theorem prepare_eq :
    prepare = commit fun w => w.engine.prepare.map fun e => { w with engine := e } := by
  refine InPlace.ext fun w => ?_
  rcases h : Layout.build w.engine.source with f | l <;> simp [prepare, Engine.prepare, h] <;> rfl

/-- What a call leaves behind for whoever watches. -/
def leave (w : Watched) (t : Engine.Turn) : Watched := ⟨t.engine, w.told ++ t.executed⟩

theorem run_stepMachine (w : Watched) (h : w.engine.laidOut = true) :
    stepMachine.run w = match w.engine.step.failure with
      | none => .ok () (w.leave w.engine.step)
      | some f => .error f (w.leave w.engine.step) := by
  unfold stepMachine
  rw [EStateM.run_bind, run_onMachine, InPlace.run_step]
  rcases hm : w.engine.machine.attempt with f | m
  · simp [Engine.step_of_attempt_error h hm, leave, setMachine]
  · rw [Engine.step_of_attempt_ok h hm]
    rcases w.engine.machine.finished? with _ | s <;> simp [leave, setMachine]

/-- A step of an engine in place leaves what the step of the engine leaves. -/
theorem run_step (w : Watched) :
    step.run w = match w.engine.step.failure with
      | none => .ok () (w.leave w.engine.step)
      | some f => .error f (w.leave w.engine.step) := by
  unfold step
  rcases hl : w.engine.laidOut with _ | _
  · rcases hp : w.engine.prepare with f | e
    · simp [hl, prepare_eq, hp, Engine.step_of_prepare_error hl hp, leave, Except.map]
    · have hw := run_stepMachine { w with engine := e } (by
        obtain ⟨l, -, rfl⟩ := Engine.prepare_ok hp
        rfl)
      simp [hl, prepare_eq, hp, Engine.step_of_prepare_ok hl hp, Except.map, hw, leave]
  · simp [hl, run_stepMachine w hl]

end Watched

namespace Engine

/-- Some steps more on the count of the machine, and nothing else changed. -/
def count (e : Engine) (n : Nat) : Engine :=
  { e with machine := { e.machine with steps := e.machine.steps + n } }

variable {e : Engine} {f : Failure}

theorem count_count (e : Engine) (k n : Nat) : (e.count k).count n = e.count (k + n) := by
  simp [count, Nat.add_assoc]

theorem attempt_of_failure (hl : e.laidOut = true) (h : e.step.failure = some f) :
    e.machine.attempt = .error f := by
  rcases hm : e.machine.attempt with g | m
  · rw [step_of_attempt_error hl hm] at h
    cases h
    rfl
  · rw [step_of_attempt_ok hl hm] at h
    cases h

/-- A step that fails is counted and leaves everything else as it was. -/
theorem step_of_failure (hl : e.laidOut = true) (h : e.step.failure = some f) :
    e.step = { engine := e.count 1, failure := some f } :=
  step_of_attempt_error hl (attempt_of_failure hl h)

theorem failure_step_count (hl : e.laidOut = true) (h : e.step.failure = some f) :
    (e.count 1).step.failure = some f := by
  have hl' : (e.count 1).laidOut = true := hl
  have ha : (e.count 1).machine.attempt = .error f := by
    show e.machine.tick.attempt = .error f
    rw [Machine.attempt_tick, attempt_of_failure hl h]
    rfl
  rw [step_of_attempt_error hl' ha]

theorem afterAll_step_of_failure : ∀ (n : Nat) {e : Engine}, e.laidOut = true →
    e.step.failure = some f → e.afterAll (List.replicate n .step) = e.count n
      ∧ (e.count n).step.failure = some f
  | 0, e, hl, h => ⟨rfl, h⟩
  | n + 1, e, hl, h => by
    have ht := failure_step_count hl h
    obtain ⟨ha, hf⟩ := afterAll_step_of_failure n (e := e.count 1) hl ht
    rw [count_count, Nat.add_comm] at ha hf
    refine ⟨?_, hf⟩
    rw [List.replicate_succ, afterAll_cons, ← ha]
    show (e.step.engine).afterAll _ = _
    rw [step_of_failure hl h]

/-- A step that fails changes nothing but the count, even in place, and nobody is told of it; every
later step fails in the same way. When there was no layout and none could be made, not even the
count changes. -/
theorem step_failure_atomic (e : Engine) :
    (e.laidOut = true → ∀ f, e.step.failure = some f →
        (∀ told, Watched.step.run ⟨e, told⟩ = .error f ⟨e.count 1, told⟩)
          ∧ ∀ n, e.afterAll (List.replicate n .step) = e.count n
            ∧ (e.count n).step
              = { engine := e.count (n + 1), executed := #[], failure := some f })
      ∧ (e.laidOut = false → ∀ f, e.prepare = .error f →
        (∀ told, Watched.step.run ⟨e, told⟩ = .error f ⟨e, told⟩)
          ∧ e.step = { engine := e, executed := #[], failure := some f }) := by
  refine ⟨fun hl f h => ⟨fun told => ?_, fun n => ?_⟩, fun hl f hp => ⟨fun told => ?_, ?_⟩⟩
  · rw [Watched.run_step, step_of_failure hl h]
    simp [Watched.leave]
  · obtain ⟨ha, hf⟩ := afterAll_step_of_failure n hl h
    have hl' : (e.count n).laidOut = true := hl
    exact ⟨ha, by rw [step_of_failure hl' hf, count_count]⟩
  · rw [Watched.run_step, step_of_prepare_error hl hp]
    simp [Watched.leave]
  · exact step_of_prepare_error hl hp

/-- A word that does not lie within memory is not stored, neither the first time nor later. -/
theorem step_failure_atomic_store :
    ∃ e : Engine, e.machine.registers.get 1 = 14
      ∧ e.step.failure = some (.atLine 4 (.memoryAccess 14 16))
      ∧ ∀ n, e.afterAll (List.replicate n .step) = e.count n := by
  let e := (load {} "K DC 7\nL 1,K\nA 1,K\nST 1,14").afterAll [.step, .step, .step]
  have he : e.laidOut = true ∧ e.machine.registers.get 1 = 14
      ∧ e.step.failure = some (.atLine 4 (.memoryAccess 14 16)) := by
    decide +kernel
  obtain ⟨hl, hr, hf⟩ := he
  exact ⟨e, hr, hf, fun n => (((step_failure_atomic e).1 hl _ hf).2 n).1⟩

end Engine

end WordMachine
