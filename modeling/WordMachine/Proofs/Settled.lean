import WordMachine.Proofs.Announced
import WordMachine.Proofs.Fault
import WordMachine.Proofs.Invariant

/-!
# Errors that can always be told

The error of an access outside memory shows the address, and one too long to be written out is
refused. No program comes to that: an address in an operand has no more digits than are converted, a
register holds a word, and a label stands in the image or at its end (`Settled.isWritable`). All
this holds of a machine that steps from the start of a layout lead to, which is settled in it
(`Settled.step`, `settled_afterAll`). Its steps fail for their operands and for nothing else
(`Settled.step_error`).
-/

namespace WordMachine

open Text

variable {source : String} {l : Layout}

theorem isWritable_of_fits {v : Int} (h : Word.Fits v) : Numeral.isWritable v = true := by
  have hlimit : 2147483648 ≤ numberBound := by decide +kernel
  unfold Word.Fits Word.least Word.greatest at h
  exact isWritable_of_natAbs_le (by omega)

/-- The label of a line stands where the cells before the line end. -/
theorem Layout.label_within {program : List Statement} (h : build program = .ok l) :
    ∀ label ∈ l.symbols.labels, 0 ≤ label.address ∧ label.address ≤ l.memory.size := by
  obtain ⟨d, ⟨-, hd⟩, rfl⟩ := build_induct
    (P := fun _ d => d.address = d.memory.size
      ∧ ∀ label ∈ d.symbols.labels, 0 ≤ label.address ∧ label.address ≤ d.memory.size)
    ⟨rfl, by simp⟩ (fun done d s d' hP ha => by
      refine ⟨Draft.address_add ha hP.1, ?_⟩
      rcases Draft.add_cases ha with ⟨-, rfl⟩ | ⟨l, d₁, c, -, hdef, -, rfl⟩
      · simpa [Draft.push] using hP.2
      · have hlabels : ∀ label ∈ d₁.symbols.labels, 0 ≤ label.address
            ∧ label.address ≤ d.memory.size := by
          rcases Draft.define_cases hdef with ⟨-, rfl⟩ | ⟨name, -, -, -, rfl⟩
          · exact hP.2
          · simpa [or_imp, forall_and, hP.1] using hP.2
        have hsize : ((d₁.holding c).push s c.size).memory.size = d.memory.size + c.size := by
          simp [Draft.push, Draft.holding, Draft.memory_define hdef]
        rw [hsize]
        intro label hlabel
        have := hlabels label hlabel
        omega) h
  exact hd

namespace Machine

variable {m m' : Machine} {f : Failure}

/-- The machine runs the program of a layout, in which names mean what they mean to it. Its
registers hold words, and its memory is as large as the image. -/
structure Settled (l : Layout) (m : Machine) : Prop where
  positioned : m.Positioned l
  symbols : m.symbols = l.symbols
  registers : m.registers.Sound m.registers.count
  size : m.memory.size = l.memory.size

theorem settled_restart (h : m.registers.Sound m.registers.count) (l : Layout) :
    Settled l (m.restart l) :=
  ⟨positioned_restart m l, rfl, h, rfl⟩

theorem settled_fresh (config : Config) (program : List Statement) (l : Layout) :
    Settled l ((Machine.fresh config program).restart l) := by
  refine settled_restart ?_ l
  simp only [fresh, Registers.count_fresh]
  exact Registers.sound_fresh _

namespace Settled

theorem tick (hm : Settled l m) : Settled l m.tick :=
  ⟨hm.positioned.tick, hm.symbols, hm.registers, hm.size⟩

theorem step (hm : Settled l m) (h : m.step = .ok m') : Settled l m' := by
  have hchange := step_change h
  have hregisters := hm.registers.change hchange.registers
  exact ⟨hm.positioned.step h, (frame_step h).2.trans hm.symbols,
    ⟨rfl, hregisters.fits, hregisters.flags⟩, hchange.memory.size.trans hm.size⟩

/-- Every address that an operand can mean is in the image or short. -/
theorem isWritable (hm : Settled l m) (h : Layout.build (statements source) = .ok l) {a : Address}
    {line address : Int} (ha : a.InBounds m.registers.count)
    (hresolve : m.resolve a line = .ok address) :
    (Cause.memoryAccess address m.memory.size).isWritable = true := by
  rw [Cause.isWritable_memoryAccess]
  cases a with
  | absolute n =>
    cases hresolve
    exact .inl ha
  | indirect r =>
    cases hresolve
    exact .inl (isWritable_of_fits (hm.registers.fits_get r))
  | label name =>
    right
    simp only [resolve, Symbols.addressOf?, hm.symbols] at hresolve
    rcases hf : l.symbols.find? name with _ | label
    · simp [hf] at hresolve
    · simp only [hf, Option.map_some, Except.ok.injEq] at hresolve
      rw [← hresolve, hm.size]
      exact Layout.label_within h label (List.mem_of_find?_eq_some hf)

end Settled

/-- In a layout the position is on a line, and a line with code names a known instruction, so that
only its operands can be at fault. -/
theorem step_error_of_positioned (h : Layout.build (statements source) = .ok l)
    (hpos : Positioned l m) (hf : m.step = .error f) :
    (∃ cause, f = .atLine (m.line + 1) cause ∧ cause.isOperational = true)
      ∨ (∃ s code, m.current? = some s ∧ CodeLine.parse? s.text = some code
        ∧ Overlong code.operands f)
      ∨ m.GoesAstray (m.line + 1) f := by
  obtain ⟨he, hcases⟩ := step_error hf
  obtain ⟨s, hs, hget, -⟩ := hpos.next (Layout.build_placed h) he
  obtain ⟨n, hn, -, -⟩ := hpos.place
  rw [hn, Int.toNat_natCast, hpos.program] at hget
  obtain ⟨-, hindex, cells, hcells, -⟩ := statement_of_build h hget
  rcases hcases with ⟨hnone, -⟩ | ⟨s', hs', hx⟩
  · rw [hs] at hnone
    cases hnone
  · rw [hs] at hs'
    cases hs'
    have hline : s.line = m.line + 1 := by rw [Statement.line, hindex, hn]
    obtain ⟨code, hcode, ⟨hunknown, -⟩ | hcause | hlong | hastray⟩ := execute_error hx
    · obtain ⟨mnemonic, hm⟩ := mnemonic_of_lineCells hcells hcode
      rw [hm] at hunknown
      cases hunknown
    · rw [hline] at hcause
      exact .inl hcause
    · exact .inr (.inl ⟨s, code, hs, hcode, hlong⟩)
    · rw [hline] at hastray
      exact .inr (.inr hastray)

theorem Settled.step_error (hm : Settled l m) (h : Layout.build (statements source) = .ok l)
    (hf : m.step = .error f) :
    (∃ cause, f = .atLine (m.line + 1) cause ∧ cause.isOperational = true)
      ∨ ∃ s code, m.current? = some s ∧ CodeLine.parse? s.text = some code
        ∧ Overlong code.operands f := by
  rcases step_error_of_positioned h hm.positioned hf with
    hcause | hlong | ⟨a, address, ha, hresolve, hw, -⟩
  · exact .inl hcause
  · exact .inr hlong
  · rw [hm.isWritable h ha hresolve] at hw
    cases hw

theorem Settled.step_refusal (hm : Settled l m) (h : Layout.build (statements source) = .ok l)
    {r : Refusal} (hf : m.step = .error (.refusal r)) : ∃ fault, r = .numeral fault := by
  rcases hm.step_error h hf with ⟨cause, hf, -⟩ | ⟨s, code, -, -, token, -, digits, -, -, hf⟩
  · cases hf
  · cases hf
    exact ⟨_, rfl⟩

end Machine

namespace Engine

/-- Once there is a layout, the machine is settled in it, whatever is asked of the engine. -/
theorem settled_afterAll (h : Layout.build (statements source) = .ok l) (config : Config)
    (calls : List Call) (hlaid : ((load config source).afterAll calls).laidOut = true) :
    ((load config source).afterAll calls).machine.Settled l := by
  refine (afterAll_induct (P := fun e => e.source = statements source
    ∧ e.machine.registers.Sound e.machine.registers.count
    ∧ (e.laidOut = true → e.machine.Settled l)) (fun e e' he hp => ?_)
    (fun e m he hlaid hs => ?_) (fun e he hlaid => ?_) calls
    ⟨rfl, ?_, fun h => by cases h⟩).2.2 hlaid
  · obtain ⟨l', hl', rfl⟩ := prepare_ok hp
    rw [he.1, h] at hl'
    cases hl'
    exact ⟨he.1, he.2.1, fun _ => Machine.settled_restart he.2.1 _⟩
  · have hm := (he.2.2 hlaid).step hs
    exact ⟨he.1, hm.registers, fun _ => hm⟩
  · have hm := (he.2.2 hlaid).tick
    exact ⟨he.1, hm.registers, fun _ => hm⟩
  · simp only [load, Machine.fresh, Registers.count_fresh]
    exact Registers.sound_fresh _

end Engine

end WordMachine
