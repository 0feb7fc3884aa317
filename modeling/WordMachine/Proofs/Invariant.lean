import WordMachine.Proofs.Image
import WordMachine.Proofs.Position
import WordMachine.Proofs.Rows

/-!
# What every state keeps

Whatever a step does to the registers is to write one of them, wrapping the value, to set the flags
from one value, or both in this order; whatever it does to memory is to write a word
(`step_change`). So registers hold words and the flags describe one value (`Registers.Sound`), the
rows of memory are such as come to be from words and zeros added and words stored
(`Memory.Rows.Reached`), and memory keeps its size and its data cells (`Memory.Change.kinds`), after
any calls (`sound_afterAll`).
-/

namespace WordMachine

/-! ## Registers -/

namespace Registers

variable {count : Nat} {r r' : Registers}

/-- As many registers as were asked for, each with a word in it, and flags that one value can
have. -/
structure Sound (count : Nat) (r : Registers) : Prop where
  count_eq : r.count = count
  fits : ∀ v ∈ r.values, Word.Fits v
  flags : ¬ (r.flags.zero = true ∧ r.flags.sign = true)

/-- What a step can make of the registers. -/
inductive Change (r : Registers) : Registers → Prop
  | none : Change r r
  | describe (v : Int) : Change r (r.describe v)
  | assign (i : Nat) (v : Int) : Change r (r.assign i v)

theorem change_operate (r : Registers) (op : RegisterOp) (i j : Nat) :
    Change r (r.operate op i j) := by
  cases op with
  | arith op => exact .assign _ _
  | compare => exact .describe _
  | load => exact .assign _ _

theorem sound_fresh (count : Nat) : Sound count (fresh count) := by
  refine ⟨count_fresh count, fun v hv => ?_, by simp [fresh]⟩
  rw [List.eq_of_mem_replicate hv]
  decide

theorem Sound.fits_get (h : Sound count r) (i : Nat) : Word.Fits (r.get i) := by
  rw [get, List.getD_eq_getElem?_getD]
  rcases hi : r.values[i]? with _ | v
  · decide
  · exact h.fits v (List.mem_of_getElem? hi)

theorem Sound.describe (h : Sound count r) (v : Int) : Sound count (r.describe v) :=
  ⟨h.count_eq, h.fits, Flags.not_zero_and_sign_ofResult v⟩

theorem Sound.set (h : Sound count r) (i : Nat) (v : Int) : Sound count (r.set i v) := by
  refine ⟨by rw [count_set, h.count_eq], fun w hw => ?_, h.flags⟩
  rcases List.mem_or_eq_of_mem_set hw with hw | rfl
  · exact h.fits w hw
  · exact Word.fits_wrap v

theorem Sound.change (h : Sound count r) (hc : Change r r') : Sound count r' := by
  cases hc with
  | none => exact h
  | describe v => exact h.describe v
  | assign i v => exact (h.set i v).describe _

end Registers

/-! ## Memory -/

namespace Memory

variable {m m' : Memory} {i : Nat}

/-- What a step can make of memory. -/
inductive Change (m : Memory) : Memory → Prop
  | none : Change m m
  | write {m' : Memory} {address value : Int} {line : Option Int}
    (h : m.writeWord address value line = .ok m') : Change m m'

theorem Change.size (h : Change m m') : m'.size = m.size := by
  cases h with
  | none => rfl
  | write h => exact size_writeWord h

theorem Change.kinds (h : Change m m') (hi : m.kinds[i]? = some .data) :
    m'.kinds[i]? = some .data := by
  cases h with
  | none => exact hi
  | @write _ address _ _ h =>
    have hsize : address.toNat + (List.replicate 4 CellKind.data).length ≤ m.kinds.length := by
      rw [length_kinds]
      exact (cells_of_writeWord h).1
    rw [kinds_writeWord h]
    by_cases hin : address.toNat ≤ i ∧ i < address.toNat + 4
    · rw [getElem?_overlay_inside hsize hin.1 hin.2, List.getElem?_replicate_of_lt (by omega)]
    · rw [getElem?_overlay_outside hsize (by simp only [List.length_replicate]; omega), hi]

theorem Change.reached (h : Change m m') (hm : m.rows.Reached) : m'.rows.Reached := by
  cases h with
  | none => exact hm
  | write h => exact hm.write h

/-- In the rows of memory a step stores a word, or does nothing. -/
theorem Change.rows (h : Change m m') :
    m'.rows = m.rows ∨ ∃ address value line,
      (InPlace.storeWord address value line).run m.rows = .ok () m'.rows := by
  cases h with
  | none => exact .inl rfl
  | @write _ address value line h =>
    have hs := InPlace.run_storeWord m address value line
    rw [h] at hs
    exact .inr ⟨address, value, line, hs⟩

end Memory

/-! ## Steps -/

namespace Machine

variable {m m' : Machine} {s : Statement}

/-- Registers and memory are changed as a step can change them. -/
structure Change (m m' : Machine) : Prop where
  registers : m.registers.Change m'.registers
  memory : m.memory.Change m'.memory

theorem access_change {op : MemoryOp} {i : Nat} {address line : Int}
    (h : m.access op i address line = .ok m') : Change m m' := by
  unfold access at h
  split at h
  · obtain ⟨word, -, h⟩ := bind_eq_ok.1 h
    cases h
    exact ⟨.assign _ _, .none⟩
  · obtain ⟨word, -, h⟩ := bind_eq_ok.1 h
    cases h
    exact ⟨.describe _, .none⟩
  · obtain ⟨word, -, h⟩ := bind_eq_ok.1 h
    cases h
    exact ⟨.assign _ _, .none⟩
  · obtain ⟨memory, hw, h⟩ := bind_eq_ok.1 h
    cases h
    exact ⟨.describe _, .write hw⟩
  · cases h
    exact ⟨.assign _ _, .none⟩

theorem perform_change {i : Instruction} (h : m.perform s i = .ok m') : Change m m' := by
  unfold perform at h
  split at h
  · cases h
    exact ⟨Registers.change_operate _ _ _ _, .none⟩
  · obtain ⟨address, -, h⟩ := bind_eq_ok.1 h
    obtain ⟨m₁, ha, h⟩ := bind_eq_ok.1 h
    cases h
    obtain ⟨hregisters, hmemory⟩ := access_change ha
    exact ⟨hregisters, hmemory⟩
  · obtain ⟨address, -, h⟩ := bind_eq_ok.1 h
    obtain ⟨place, -, h⟩ := bind_eq_ok.1 h
    split at h <;> cases h <;> exact ⟨.none, .none⟩
  · cases h
    exact ⟨.none, .none⟩

theorem step_change (h : m.step = .ok m') : Change m m' := by
  unfold step at h
  split at h
  · cases h
    exact ⟨.none, .none⟩
  · rcases hc : m.current? with _ | s <;> rw [hc] at h
    · cases h
    · obtain ⟨m₁, hm, rfl⟩ := map_eq_ok.1 h
      unfold execute at hm
      split at hm
      · cases hm
        exact ⟨.none, .none⟩
      · obtain ⟨i, -, hm⟩ := bind_eq_ok.1 hm
        obtain ⟨hregisters, hmemory⟩ := perform_change hm
        exact ⟨hregisters, hmemory⟩

end Machine

/-! ## Calls -/

namespace Engine

variable {e e' : Engine}

/-- What every call keeps. Before a layout memory is empty, and after it as large as the program. -/
structure Sound (config : Config) (e : Engine) : Prop where
  registers : e.machine.registers.Sound config.registerCount
  memory : e.machine.memory.rows.Reached
  size : (e.machine.memory.size : Int) = if e.laidOut then extent e.machine.program else 0

theorem sound_load (config : Config) (source : String) : Sound config (load config source) :=
  ⟨Registers.sound_fresh _, .empty, rfl⟩

theorem sound_afterAll (config : Config) (source : String) (calls : List Call) :
    Sound config ((load config source).afterAll calls) := by
  refine afterAll_induct (fun e e' he hp => ?_) (fun e m he hlaid hs => ?_)
    (fun e he hlaid => ?_) calls (sound_load config source)
  · obtain ⟨l, hl, rfl⟩ := prepare_ok hp
    exact ⟨he.registers, Layout.reached_of_build hl, Layout.size_memory hl⟩
  · have hchange := Machine.step_change hs
    refine ⟨he.registers.change hchange.registers, hchange.memory.reached he.memory, ?_⟩
    have hsize := he.size
    rw [if_pos hlaid] at hsize ⊢
    rw [hchange.memory.size, hsize, Machine.program_step hs]
  · exact ⟨he.registers, he.memory, he.size⟩

theorem change_step (h : e.laidOut = true) :
    e.machine.memory.Change e.step.engine.machine.memory := by
  rcases ha : e.machine.attempt with f | m
  · rw [step_of_attempt_error h ha]
    exact .none
  · rw [step_of_attempt_ok h ha]
    exact (Machine.step_change (Machine.step_of_attempt ha)).memory

/-- After any calls, failing ones included, registers hold words and are as many as at first, and
the flags are not both set. Values and kinds of memory, kept in two rows that are added to and
written one after the other, are equally many, as many as the program takes once it is laid out; a
cell that belongs to code holds no value. The next step stores at most a word in the rows, keeps
their number, and turns no data cell into one of code. -/
theorem state_afterAll (config : Config) (source : String) (calls : List Call) :
    let e := (load config source).afterAll calls
    let m := e.machine
    let m' := e.step.engine.machine
    (∀ v ∈ m.registers.values, -2147483648 ≤ v ∧ v ≤ 2147483647)
      ∧ m.registers.values.length = config.registerCount
      ∧ ¬ (m.registers.flags.zero = true ∧ m.registers.flags.sign = true)
      ∧ m.memory.rows.Reached
      ∧ m.memory.rows.values.length = m.memory.rows.kinds.length
      ∧ (e.laidOut = true → (m.memory.values.length : Int) = extent m.program
        ∧ (m'.memory.rows = m.memory.rows ∨ ∃ address value line,
          (InPlace.storeWord address value line).run m.memory.rows = .ok () m'.memory.rows)
        ∧ m'.memory.values.length = m.memory.values.length
        ∧ m'.memory.kinds.length = m.memory.kinds.length)
      ∧ (∀ b ∈ m.memory.values, b.toNat ≤ 255)
      ∧ (∀ i : Nat, m.memory.kinds[i]? = some .code → m.memory.values[i]? = some 0)
      ∧ ∀ i : Nat, m.memory.kinds[i]? = some .data → m'.memory.kinds[i]? = some .data := by
  intro e m m'
  have hsound : Sound config e := sound_afterAll config source calls
  have hparallel := hsound.memory.parallel
  refine ⟨hsound.registers.fits, hsound.registers.count_eq, hsound.registers.flags, hsound.memory,
    hparallel.length_eq, fun hlaid => ?_, fun b _ => ?_, hparallel.room, fun i hi => ?_⟩
  · have hsize := hsound.size
    rw [if_pos hlaid] at hsize
    simp only [Memory.length_values, Memory.length_kinds]
    have hchange := change_step hlaid
    exact ⟨hsize, hchange.rows, hchange.size, hchange.size⟩
  · have := b.toNat_lt
    omega
  · rcases hl : e.laidOut with _ | _
    · -- without a layout there is no cell at all
      have hsize := hsound.size
      rw [if_neg (by simp [hl])] at hsize
      have hlt := (List.getElem?_eq_some_iff.1 hi).1
      rw [Memory.length_kinds] at hlt
      have hzero : m.memory.size = 0 := by exact_mod_cast hsize
      omega
    · exact (change_step hl).kinds hi

/-- A product that wraps is stored over parts of two instructions, and then a step fails. -/
theorem state_afterAll_store :
    ∃ e, e = (load ⟨1000, 2⟩ "K DC 65535\nL 1,K\nM 1,K\nST 1,6\nL 0,99").afterAll
        [.step, .step, .step, .step]
      ∧ e.laidOut = true ∧ e.machine.registers.values = [0, -131071]
      ∧ e.machine.memory.kinds[6]? = some .data ∧ e.machine.memory.kinds[10]? = some .code
      ∧ e.step.failure = some (.atLine 5 (.memoryAccess 99 20))
      ∧ (e.machine.memory.values.length : Int) = extent e.machine.program
      ∧ e.machine.memory.values[10]? = some 0
      ∧ e.step.engine.machine.memory.kinds[6]? = some .data := by
  have hstate := state_afterAll ⟨1000, 2⟩ "K DC 65535\nL 1,K\nM 1,K\nST 1,6\nL 0,99"
    [.step, .step, .step, .step]
  generalize he : (load ⟨1000, 2⟩ "K DC 65535\nL 1,K\nM 1,K\nST 1,6\nL 0,99").afterAll
    [.step, .step, .step, .step] = e at hstate
  have hrun : e.laidOut = true ∧ e.machine.registers.values = [0, -131071]
      ∧ e.machine.memory.kinds[6]? = some .data ∧ e.machine.memory.kinds[10]? = some .code
      ∧ e.step.failure = some (.atLine 5 (.memoryAccess 99 20)) := by
    rw [← he]
    decide +kernel
  obtain ⟨hlaid, hvalues, hdata, hcode, hfailure⟩ := hrun
  obtain ⟨-, -, -, -, -, hsize, -, hroom, hkept⟩ := hstate
  exact ⟨e, rfl, hlaid, hvalues, hdata, hcode, hfailure, (hsize hlaid).1, hroom 10 hcode,
    hkept 6 hdata⟩

end Engine

end WordMachine
