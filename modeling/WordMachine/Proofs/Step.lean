import WordMachine.Engine
import WordMachine.Proofs.Outcome

/-!
# What a step can do

A step that succeeds past the end only counts. Otherwise it executes the statement at the position
and then either moves on to the next line, whatever it did to registers and memory, or jumps, and
then it changes nothing but the position (`step_cases`). No step looks at how many were taken
before it (`step_tick`).
-/

namespace WordMachine.Machine

variable {m m' : Machine} {s : Statement}

@[simp] theorem program_tick (m : Machine) : m.tick.program = m.program := rfl

@[simp] theorem line_tick (m : Machine) : m.tick.line = m.line := rfl

theorem jumpTarget_ok {program : List Statement} {address line : Int} {place : Nat}
    (h : jumpTarget program address line = .ok place) : target? program address = some place := by
  unfold jumpTarget at h
  split at h
  · cases h
    assumption
  · cases h

section Cases

theorem access_frame {op : MemoryOp} {i : Nat} {address line : Int}
    (h : m.access op i address line = .ok m') :
    ∃ registers memory, m' = { m with registers, memory } := by
  unfold access at h
  split at h
  · obtain ⟨word, -, h⟩ := bind_eq_ok.1 h
    cases h
    exact ⟨_, _, rfl⟩
  · obtain ⟨word, -, h⟩ := bind_eq_ok.1 h
    cases h
    exact ⟨_, _, rfl⟩
  · obtain ⟨word, -, h⟩ := bind_eq_ok.1 h
    cases h
    exact ⟨_, _, rfl⟩
  · obtain ⟨memory, -, h⟩ := bind_eq_ok.1 h
    cases h
    exact ⟨_, _, rfl⟩
  · cases h
    exact ⟨_, _, rfl⟩

theorem perform_cases {i : Instruction} (h : m.perform s i = .ok m') :
    (∃ registers memory, m' = { m with registers, memory }.advance s)
      ∨ ∃ address place, target? m.program address = some place
        ∧ m' = { m with line := place, address } := by
  unfold perform at h
  split at h
  · cases h
    exact .inl ⟨_, _, rfl⟩
  · obtain ⟨address, -, h⟩ := bind_eq_ok.1 h
    obtain ⟨m₁, ha, h⟩ := bind_eq_ok.1 h
    obtain ⟨registers, memory, rfl⟩ := access_frame ha
    cases h
    exact .inl ⟨registers, memory, rfl⟩
  · obtain ⟨address, -, h⟩ := bind_eq_ok.1 h
    obtain ⟨place, hj, h⟩ := bind_eq_ok.1 h
    split at h
    · cases h
      exact .inr ⟨address, place, jumpTarget_ok (mapError_eq_ok.1 hj), rfl⟩
    · cases h
      exact .inl ⟨_, _, rfl⟩
  · cases h
    exact .inl ⟨_, _, rfl⟩

theorem execute_cases (h : m.execute s = .ok m') :
    (∃ registers memory, m' = { m with registers, memory }.advance s)
      ∨ ∃ address place, target? m.program address = some place
        ∧ m' = { m with line := place, address } := by
  unfold execute at h
  split at h
  · cases h
    exact .inl ⟨_, _, rfl⟩
  · obtain ⟨i, -, h⟩ := bind_eq_ok.1 h
    exact perform_cases h

theorem step_cases (h : m.step = .ok m') :
    (m.atEnd = true ∧ m' = m.tick)
      ∨ m.atEnd = false ∧ ∃ s, m.current? = some s
        ∧ ((∃ registers memory, m' = ({ m with registers, memory }.advance s).tick)
          ∨ ∃ address place, target? m.program address = some place
            ∧ m' = { m with line := place, address }.tick) := by
  unfold step at h
  split at h
  · rename_i he
    cases h
    exact .inl ⟨he, rfl⟩
  · rename_i he
    rcases hc : m.current? with _ | s <;> rw [hc] at h
    · cases h
    · obtain ⟨m₁, hm, rfl⟩ := map_eq_ok.1 h
      refine .inr ⟨by simpa using he, s, rfl, ?_⟩
      rcases execute_cases hm with ⟨registers, memory, rfl⟩ | ⟨address, place, ht, rfl⟩
      · exact .inl ⟨registers, memory, rfl⟩
      · exact .inr ⟨address, place, ht, rfl⟩

/-- No step changes the program, or what the names in it mean. -/
theorem frame_step (h : m.step = .ok m') :
    m'.program = m.program ∧ m'.symbols = m.symbols := by
  rcases step_cases h with ⟨-, rfl⟩ | ⟨-, s, -, ⟨registers, memory, rfl⟩ | ⟨address, place, -, rfl⟩⟩
  · exact ⟨rfl, rfl⟩
  · exact ⟨rfl, rfl⟩
  · exact ⟨rfl, rfl⟩

theorem program_step (h : m.step = .ok m') : m'.program = m.program := (frame_step h).1

end Cases

section Count

theorem access_tick (m : Machine) (op : MemoryOp) (i : Nat) (address line : Int) :
    m.tick.access op i address line = (m.access op i address line).map tick := by
  unfold access
  cases op with
  | arith op => rcases hr : m.memory.readWord address line with e | word <;> simp [tick, hr] <;> rfl
  | compare => rcases hr : m.memory.readWord address line with e | word <;> simp [tick, hr] <;> rfl
  | load => rcases hr : m.memory.readWord address line with e | word <;> simp [tick, hr] <;> rfl
  | store =>
    rcases hw : m.memory.writeWord address (m.registers.get i) line with e | memory <;>
      simp [tick, hw] <;> rfl
  | loadAddress => rfl

theorem resolve_tick (m : Machine) (a : Address) (line : Int) :
    m.tick.resolve a line = m.resolve a line := rfl

theorem perform_tick (m : Machine) (s : Statement) (i : Instruction) :
    m.tick.perform s i = (m.perform s i).map tick := by
  unfold perform
  cases i with
  | register op i j => rfl
  | memory op i a =>
    simp only [resolve_tick, access_tick]
    rcases m.resolve a s.line with e | address
    · rfl
    · simp only [bind, Except.bind]
      rcases m.access op i address s.line with e | m₁ <;> rfl
  | jump when a =>
    simp only [resolve_tick, program_tick]
    rcases m.resolve a s.line with e | address
    · rfl
    · simp only [bind, Except.bind]
      rcases jumpTarget m.program address s.line with e | place
      · rfl
      · by_cases hw : when.holds m.registers.flags = true <;> simp [tick, hw] <;> rfl
  | data => rfl

theorem decode_tick (m : Machine) (s : Statement) (l : CodeLine) :
    m.tick.decode s l = m.decode s l := rfl

theorem execute_tick (m : Machine) (s : Statement) :
    m.tick.execute s = (m.execute s).map tick := by
  unfold execute
  rcases CodeLine.parse? s.text with _ | l
  · rfl
  · simp only [decode_tick]
    rcases m.decode s l with e | i
    · rfl
    · simp only [bind, Except.bind, perform_tick]

theorem step_tick (m : Machine) : m.tick.step = m.step.map tick := by
  unfold step
  rw [show m.tick.atEnd = m.atEnd from rfl, show m.tick.current? = m.current? from rfl]
  split
  · rfl
  · rcases m.current? with _ | s
    · rfl
    · simp only [execute_tick]

theorem attempt_tick (m : Machine) : m.tick.attempt = m.attempt.map tick := by
  unfold attempt
  rw [step_tick, show m.tick.canAnnounce = m.canAnnounce from rfl]
  split <;> rfl

end Count

end WordMachine.Machine
