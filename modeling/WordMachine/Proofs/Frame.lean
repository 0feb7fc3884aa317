import WordMachine.Proofs.Execution
import WordMachine.Proofs.Overlay
import WordMachine.Proofs.Runs

/-!
# What a step leaves alone

A step that succeeds is counted once and keeps the program and what the names in it mean. Registers
are written only by an instruction that writes its first one, and then only that one
(`values_step`, `values_of_writes`); memory is written only where a register is stored
(`memory_step`, `memory_of_store`); flags are set only by an instruction that works on registers;
and only a jump that is taken leads elsewhere than to the next line (`position_step`,
`position_of_jump`). All this holds of any machine, also of one that no program leads to.
-/

namespace WordMachine

/-- Whether an instruction writes its first register. Comparing and storing only read it. -/
def Mnemonic.writesRegister : Mnemonic → Bool
  | .register (.arith _) | .register .load => true
  | .memory (.arith _) | .memory .load | .memory .loadAddress => true
  | .register .compare | .memory .compare | .memory .store | .jump _ | .data _ => false

/-- Whether an instruction is a jump that is taken under the given flags. -/
def Mnemonic.isTaken (flags : Flags) : Mnemonic → Bool
  | .jump when => when.holds flags
  | .register _ | .memory _ | .data _ => false

namespace Machine

variable {m m' : Machine}

/-- Whether the statement at the position is a jump that is taken. -/
def takesJump (m : Machine) : Bool := m.mnemonic?.any (Mnemonic.isTaken m.registers.flags)

/-- What a step leaves alone, and where and how it changes the rest. -/
structure Frame (m m' : Machine) : Prop where
  steps : m'.steps = m.steps + 1
  program : m'.program = m.program
  symbols : m'.symbols = m.symbols
  registers : m.mnemonic?.any Mnemonic.writesRegister = false →
    m'.registers.values = m.registers.values
  /-- Of the registers only the one named first is written. -/
  register : ∀ s mnemonic operands, m.Faces s mnemonic operands → mnemonic.writesRegister = true →
    ∃ t u i v, operands = [t, ",", u] ∧ NamesRegister m.registers.count t i
      ∧ m'.registers.values = m.registers.values.set i v
  flags : m.operates = false → m'.registers.flags = m.registers.flags
  memory : m.mnemonic? ≠ some (.memory .store) → m'.memory = m.memory
  /-- Of memory only four bytes are written, with the word in the register, and become data. -/
  store : ∀ s operands, m.Faces s (.memory .store) operands →
    ∃ t u i address, operands = [t, ",", u] ∧ NamesRegister m.registers.count t i
      ∧ m.Means u s.line address ∧ 0 ≤ address ∧ address + 4 ≤ m.memory.size
      ∧ m'.memory.values = overlay m.memory.values address.toNat (Word.encode (m.registers.get i))
      ∧ m'.memory.kinds = overlay m.memory.kinds address.toNat (List.replicate 4 .data)
  past : m.atEnd = true → m'.line = m.line ∧ m'.address = m.address
  onward : m.atEnd = false → m.takesJump = false → ∃ s, m.current? = some s
    ∧ m'.line = m.line + 1 ∧ m'.address = m.address + s.size
  jump : m.takesJump = true → ∃ s when t address place, m.Faces s (.jump when) [t]
    ∧ m.Means t s.line address ∧ jumpTarget m.program address s.line = .ok place
    ∧ m'.line = place ∧ m'.address = address

/-- What an operation between a register and an address can do. -/
theorem access_cases {op : MemoryOp} {i : Nat} {address line : Int}
    (h : m.access op i address line = .ok m') :
    ((Mnemonic.memory op).writesRegister = true
        ∧ ∃ v, m' = { m with registers := m.registers.assign i v })
      ∨ (op = .compare ∧ m' = { m with registers := m.registers.describe (m.registers.get i) })
      ∨ op = .store ∧ ∃ memory, m.memory.writeWord address (m.registers.get i) line = .ok memory
        ∧ m' = { m with memory, registers := m.registers.describe (m.registers.get i) } := by
  cases op with
  | arith op =>
    obtain ⟨word, -, h⟩ := bind_eq_ok.1 h
    cases h
    exact .inl ⟨rfl, _, rfl⟩
  | compare =>
    obtain ⟨word, -, h⟩ := bind_eq_ok.1 h
    cases h
    exact .inr (.inl ⟨rfl, rfl⟩)
  | load =>
    obtain ⟨word, -, h⟩ := bind_eq_ok.1 h
    cases h
    exact .inl ⟨rfl, _, rfl⟩
  | store =>
    obtain ⟨memory, hwrite, h⟩ := bind_eq_ok.1 h
    cases h
    exact .inr (.inr ⟨rfl, memory, hwrite, rfl⟩)
  | loadAddress =>
    cases h
    exact .inl ⟨rfl, _, rfl⟩

section Step

variable {s : Statement} {mnemonic : Mnemonic} {operands : List String} (h : m.step = .ok m')
include h

theorem values_step (hno : m.mnemonic?.any Mnemonic.writesRegister = false) :
    m'.registers.values = m.registers.values := by
  cases effect_of_step h with
  | past => rfl
  | blank => rfl
  | @register _ op _ _ _ _ hfaces =>
    rw [hfaces.mnemonic?_eq] at hno
    cases op with
    | compare => rfl
    | arith => cases hno
    | load => cases hno
  | memory hfaces _ _ haccess =>
    rw [hfaces.mnemonic?_eq] at hno
    rcases access_cases haccess with ⟨hw, -⟩ | ⟨-, rfl⟩ | ⟨-, memory, -, rfl⟩
    · simp [hw] at hno
    · rfl
    · rfl
  | jump => split_ifs <;> rfl
  | data => rfl

theorem values_of_writes (hfaces : m.Faces s mnemonic operands)
    (hw : mnemonic.writesRegister = true) :
    ∃ t u i v, operands = [t, ",", u] ∧ NamesRegister m.registers.count t i
      ∧ m'.registers.values = m.registers.values.set i v := by
  rcases mnemonic with op | op | when | op
  · obtain ⟨t, u, i, j, hoperands, hi, -, rfl⟩ := (step_register_iff hfaces).1 h
    cases op with
    | arith op => exact ⟨t, u, i, _, hoperands, hi, rfl⟩
    | load => exact ⟨t, u, i, _, hoperands, hi, rfl⟩
    | compare => cases hw
  · obtain ⟨t, u, i, address, m₁, hoperands, hi, -, haccess, rfl⟩ := (step_memory_iff hfaces).1 h
    rcases access_cases haccess with ⟨-, v, rfl⟩ | ⟨rfl, -⟩ | ⟨rfl, -⟩
    · exact ⟨t, u, i, _, hoperands, hi, rfl⟩
    · cases hw
    · cases hw
  · cases hw
  · cases hw

theorem memory_step (hno : m.mnemonic? ≠ some (.memory .store)) : m'.memory = m.memory := by
  cases effect_of_step h with
  | past => rfl
  | blank => rfl
  | register => rfl
  | memory hfaces _ _ haccess =>
    rw [hfaces.mnemonic?_eq] at hno
    rcases access_cases haccess with ⟨-, v, rfl⟩ | ⟨-, rfl⟩ | ⟨rfl, -⟩
    · rfl
    · rfl
    · exact absurd rfl hno
  | jump => split_ifs <;> rfl
  | data => rfl

theorem memory_of_store (hfaces : m.Faces s (.memory .store) operands) :
    ∃ t u i address, operands = [t, ",", u] ∧ NamesRegister m.registers.count t i
      ∧ m.Means u s.line address
      ∧ m.memory.writeWord address (m.registers.get i) s.line = .ok m'.memory := by
  obtain ⟨t, u, i, address, m₁, hoperands, hi, haddress, haccess, rfl⟩ :=
    (step_memory_iff hfaces).1 h
  obtain ⟨memory, hwrite, haccess⟩ := bind_eq_ok.1 haccess
  cases haccess
  exact ⟨t, u, i, address, hoperands, hi, haddress, hwrite⟩

theorem position_step (he : m.atEnd = false) (hno : m.takesJump = false) :
    ∃ s, m.current? = some s ∧ m'.line = m.line + 1 ∧ m'.address = m.address + s.size := by
  unfold takesJump at hno
  cases effect_of_step h with
  | past hpast =>
    rw [he] at hpast
    cases hpast
  | blank hs => exact ⟨_, hs, rfl, rfl⟩
  | register hfaces => exact ⟨_, hfaces.1, rfl, rfl⟩
  | memory hfaces _ _ haccess =>
    obtain ⟨registers, memory, rfl⟩ := access_frame haccess
    exact ⟨_, hfaces.1, rfl, rfl⟩
  | jump hfaces =>
    rw [hfaces.mnemonic?_eq] at hno
    rw [if_neg (by simpa [Mnemonic.isTaken] using hno)]
    exact ⟨_, hfaces.1, rfl, rfl⟩
  | data hfaces => exact ⟨_, hfaces.1, rfl, rfl⟩

theorem position_of_jump (htaken : m.takesJump = true) :
    ∃ s when t address place, m.Faces s (.jump when) [t] ∧ m.Means t s.line address
      ∧ jumpTarget m.program address s.line = .ok place ∧ m'.line = place
      ∧ m'.address = address := by
  obtain ⟨s, mnemonic, operands, hfaces, htaken⟩ := faces_of_any htaken
  rcases mnemonic with op | op | when | op
  · cases htaken
  · cases htaken
  · obtain ⟨t, address, place, rfl, haddress, hplace, rfl⟩ := (step_jump_iff hfaces).1 h
    -- taken is judged by the flags before the step, which are those that the step reads
    have hholds : when.holds m.registers.flags = true := htaken
    rw [if_pos hholds]
    exact ⟨s, when, t, address, place, hfaces, haddress, hplace, rfl, rfl⟩
  · cases htaken

theorem frame_of_step : Frame m m' where
  steps := steps_step h
  program := (frame_step h).1
  symbols := (frame_step h).2
  registers := values_step h
  register _ _ _ hfaces hw := values_of_writes h hfaces hw
  flags hno := by rw [(step_of_not_operates hno h).1]
  memory := memory_step h
  store s operands hfaces := by
    obtain ⟨t, u, i, address, hoperands, hi, haddress, hwrite⟩ := memory_of_store h hfaces
    obtain ⟨hlow, hhigh⟩ := Memory.covers_of_writeWord hwrite
    exact ⟨t, u, i, address, hoperands, hi, haddress, hlow, hhigh, Memory.values_writeWord hwrite,
      Memory.kinds_writeWord hwrite⟩
  past he := by
    unfold step at h
    rw [if_pos he] at h
    cases h
    exact ⟨rfl, rfl⟩
  onward := position_step h
  jump := position_of_jump h

end Step

end Machine

namespace Engine

/-- A step of an engine that succeeds changes nothing but its machine, and of that only what its
frame allows. -/
theorem step_within_frame (e : Engine) (hlaid : e.laidOut = true) (hok : e.step.failure = none) :
    e.step.engine = { e with machine := e.step.engine.machine }
      ∧ e.machine.Frame e.step.engine.machine := by
  have hstep := machine_step_of_success hlaid hok
  refine ⟨?_, Machine.frame_of_step hstep⟩
  rcases ha : e.machine.attempt with f | m
  · rw [step_of_attempt_error hlaid ha]
  · rw [step_of_attempt_ok hlaid ha]

/-- A word is stored over parts of two instructions, one of which is the one that stores it. -/
theorem step_within_frame_store :
    ∃ e, e = (load ⟨1000, 2⟩ "K DC 258\nL 1,K\nST 1,6").afterAll [.step, .step]
      ∧ e.laidOut = true ∧ e.step.failure = none
      ∧ e.machine.Faces ⟨"ST 1,6", 2, 8, 4⟩ (.memory .store) ["1", ",", "6"]
      ∧ e.step.engine.machine.memory.values = overlay e.machine.memory.values 6 [0, 0, 1, 2]
      ∧ e.step.engine.machine.registers.values = e.machine.registers.values
      ∧ e.step.engine.machine.line = 3 ∧ e.step.engine.machine.address = 12 := by
  obtain ⟨e, he⟩ : ∃ e, e = (load ⟨1000, 2⟩ "K DC 258\nL 1,K\nST 1,6").afterAll [.step, .step] :=
    ⟨_, rfl⟩
  have hrun : e.laidOut = true ∧ e.step.failure = none
      ∧ e.machine.current? = some ⟨"ST 1,6", 2, 8, 4⟩ ∧ e.machine.line = 2 ∧ e.machine.address = 8
      ∧ e.machine.registers.get 1 = 258 ∧ e.resolve "6" 3 = .ok 6
      ∧ readRegister e.machine.registers.count "1".toList 3 = .ok 1 := by
    rw [he]
    decide +kernel
  obtain ⟨hlaid, hok, hcurrent, hline, haddress, hget, hresolve, hone⟩ := hrun
  have hfaces : e.machine.Faces ⟨"ST 1,6", 2, 8, 4⟩ (.memory .store) ["1", ",", "6"] :=
    ⟨hcurrent, ⟨"ST", none, "ST", ["1", ",", "6"]⟩, by decide +kernel, by decide +kernel, rfl⟩
  obtain ⟨-, hframe⟩ := step_within_frame e hlaid hok
  obtain ⟨t, u, i, a, hoperands, hi, hmeans, -, -, hvalues, -⟩ := hframe.store _ _ hfaces
  obtain ⟨rfl, -, rfl⟩ : "1" = t ∧ "," = "," ∧ "6" = u := by simpa using hoperands
  obtain rfl : 1 = i := Except.ok.inj (hone.symm.trans (readRegister_eq_ok_iff.2 hi))
  obtain rfl : 6 = a := Except.ok.inj (hresolve.symm.trans (resolve_eq_ok_iff.2 hmeans))
  have hkept := hframe.registers (by rw [hfaces.mnemonic?_eq]; rfl)
  obtain ⟨s, hs, hnext, hmoved⟩ := hframe.onward (Machine.atEnd_of_current? hcurrent)
    (by rw [Machine.takesJump, hfaces.mnemonic?_eq]; rfl)
  obtain rfl := Option.some.inj (hcurrent.symm.trans hs)
  rw [hget] at hvalues
  exact ⟨e, he, hlaid, hok, hfaces, hvalues, hkept, by rw [hnext, hline]; rfl,
    by rw [hmoved, haddress]; rfl⟩

end Engine

end WordMachine
