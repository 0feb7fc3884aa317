import WordMachine.Proofs.Calls
import WordMachine.Proofs.Fault

/-!
# What a statement does

A machine faces an instruction when the statement at its position holds it. A step then succeeds
exactly when the operands name registers that exist and, where there is one, an address that means
something; and what it does is said by kind of instruction (`step_register_iff`, `step_memory_iff`,
`step_jump_iff`). With the steps that face none, these are all (`effect_of_step`). Statements that
do not work on registers leave registers and memory alone (`step_of_not_operates`).
-/

namespace WordMachine

open Text

/-- A token that names one of the given number of registers. -/
structure NamesRegister (count : Nat) (token : String) (i : Nat) : Prop where
  digits : isDigits token.toList = true
  numeral : IsNumeral token.toList i
  lt : i < count

theorem readRegister_eq_ok_iff {count : Nat} {token : String} {line : Int} {i : Nat} :
    readRegister count token.toList line = .ok i ↔ NamesRegister count token i := by
  constructor
  · intro h
    have hdigits : isDigits token.toList = true := by
      by_contra hno
      simp [readRegister, hno] at h
    unfold readRegister at h
    simp only [hdigits, if_true] at h
    obtain ⟨n, hn, h⟩ := bind_eq_ok.1 h
    split_ifs at h with hlt
    cases h
    exact ⟨hdigits, readNumber_eq_ok_iff.1 hn, hlt⟩
  · rintro ⟨hdigits, hn, hlt⟩
    unfold readRegister
    simp only [hdigits, if_true, readNumber_eq_ok_iff.2 hn, bind, Except.bind, hlt]
    rfl

/-- Whether an instruction works on registers. -/
def Mnemonic.isOperation : Mnemonic → Bool
  | .register _ | .memory _ => true
  | .jump _ | .data _ => false

section Decode

variable {count : Nat} {operands : List String} {line : Int} {i : Instruction}

theorem readPair_eq_ok_iff {m : Mnemonic} {a : Nat} {u : String} :
    readPair count m operands line = .ok (a, u) ↔
      ∃ t, operands = [t, ",", u] ∧ NamesRegister count t a := by
  constructor
  · intro h
    unfold readPair at h
    split at h
    · rename_i t comma u'
      split_ifs at h with hcomma
      obtain ⟨r, hr, h⟩ := bind_eq_ok.1 h
      cases h
      exact ⟨t, by rw [hcomma], readRegister_eq_ok_iff.1 hr⟩
    · cases h
  · rintro ⟨t, rfl, ht⟩
    simp only [readPair, if_true, readRegister_eq_ok_iff.2 ht, bind, Except.bind, pure, Except.pure]

theorem decode_register_iff {op : RegisterOp} :
    Instruction.decode count (.register op) operands line = .ok i ↔
      ∃ t u a b, operands = [t, ",", u] ∧ NamesRegister count t a ∧ NamesRegister count u b
        ∧ i = .register op a b := by
  unfold Instruction.decode
  constructor
  · intro h
    obtain ⟨⟨a, u⟩, hpair, h⟩ := bind_eq_ok.1 h
    obtain ⟨b, hb, h⟩ := bind_eq_ok.1 h
    obtain ⟨t, ht, ha⟩ := readPair_eq_ok_iff.1 hpair
    exact ⟨t, u, a, b, ht, ha, readRegister_eq_ok_iff.1 hb, (Except.ok.inj h).symm⟩
  · rintro ⟨t, u, a, b, ht, ha, hb, rfl⟩
    exact bind_eq_ok.2 ⟨(a, u), readPair_eq_ok_iff.2 ⟨t, ht, ha⟩,
      bind_eq_ok.2 ⟨b, readRegister_eq_ok_iff.2 hb, rfl⟩⟩

theorem decode_memory_iff {op : MemoryOp} :
    Instruction.decode count (.memory op) operands line = .ok i ↔
      ∃ t u a b, operands = [t, ",", u] ∧ NamesRegister count t a
        ∧ Address.read count u line = .ok b ∧ i = .memory op a b := by
  unfold Instruction.decode
  constructor
  · intro h
    obtain ⟨⟨a, u⟩, hpair, h⟩ := bind_eq_ok.1 h
    obtain ⟨b, hb, h⟩ := bind_eq_ok.1 h
    obtain ⟨t, ht, ha⟩ := readPair_eq_ok_iff.1 hpair
    exact ⟨t, u, a, b, ht, ha, hb, (Except.ok.inj h).symm⟩
  · rintro ⟨t, u, a, b, ht, ha, hb, rfl⟩
    exact bind_eq_ok.2 ⟨(a, u), readPair_eq_ok_iff.2 ⟨t, ht, ha⟩, bind_eq_ok.2 ⟨b, hb, rfl⟩⟩

theorem decode_jump_iff {when : Condition} :
    Instruction.decode count (.jump when) operands line = .ok i ↔
      ∃ t a, operands = [t] ∧ Address.read count t line = .ok a ∧ i = .jump when a := by
  unfold Instruction.decode
  constructor
  · intro h
    simp only [] at h
    split at h
    · rename_i t
      obtain ⟨a, ha, h⟩ := bind_eq_ok.1 h
      exact ⟨t, a, rfl, ha, (Except.ok.inj h).symm⟩
    · cases h
  · rintro ⟨t, a, rfl, ha, rfl⟩
    exact bind_eq_ok.2 ⟨a, ha, rfl⟩

end Decode

/-- A statement holds an instruction with the given operands. -/
def Statement.Holds (s : Statement) (mnemonic : Mnemonic) (operands : List String) : Prop :=
  ∃ l, CodeLine.parse? s.text = some l ∧ l.mnemonic? = some mnemonic ∧ l.operands = operands

namespace Machine

variable {m m' : Machine} {s : Statement} {mnemonic : Mnemonic} {operands : List String}

/-- The statement at the position holds an instruction with the given operands. -/
def Faces (m : Machine) (s : Statement) (mnemonic : Mnemonic) (operands : List String) : Prop :=
  m.current? = some s ∧ ∃ l, CodeLine.parse? s.text = some l ∧ l.mnemonic? = some mnemonic
    ∧ l.operands = operands

/-- Whether the statement at the position works on registers. -/
def operates (m : Machine) : Bool :=
  (m.current?.bind fun s => (CodeLine.parse? s.text).bind CodeLine.mnemonic?).any
    Mnemonic.isOperation

/-- The mnemonic of the statement at the position, if there is one and it holds an instruction. -/
def mnemonic? (m : Machine) : Option Mnemonic :=
  m.current?.bind fun s => (CodeLine.parse? s.text).bind CodeLine.mnemonic?

/-- A token means an address, on a given line. -/
def Means (m : Machine) (token : String) (line address : Int) : Prop :=
  ∃ a, Address.read m.registers.count token line = .ok a ∧ m.resolve a line = .ok address

theorem atEnd_of_current? (h : m.current? = some s) : m.atEnd = false := by
  obtain ⟨n, hn, -⟩ := Option.bind_eq_some_iff.1 h
  simp only [place?, Option.ite_none_right_eq_some] at hn
  unfold atEnd
  simp only [ge_iff_le, decide_eq_false_iff_not]
  split_ifs at hn <;> omega

theorem mnemonic?_eq_some_iff :
    m.mnemonic? = some mnemonic ↔ ∃ s operands, m.Faces s mnemonic operands := by
  simp only [mnemonic?, Option.bind_eq_some_iff]
  constructor
  · rintro ⟨s, hs, l, hl, hm⟩
    exact ⟨s, l.operands, hs, l, hl, hm, rfl⟩
  · rintro ⟨s, operands, hs, l, hl, hm, -⟩
    exact ⟨s, hs, l, hl, hm⟩

theorem Faces.mnemonic?_eq (h : m.Faces s mnemonic operands) : m.mnemonic? = some mnemonic :=
  mnemonic?_eq_some_iff.2 ⟨s, operands, h⟩

theorem faces_of_any {p : Mnemonic → Bool} (h : m.mnemonic?.any p = true) :
    ∃ s mnemonic operands, m.Faces s mnemonic operands ∧ p mnemonic = true := by
  rcases hm : m.mnemonic? with _ | mnemonic <;> rw [hm] at h
  · cases h
  · obtain ⟨s, operands, hfaces⟩ := mnemonic?_eq_some_iff.1 hm
    exact ⟨s, mnemonic, operands, hfaces, h⟩

theorem Faces.operates_eq (h : m.Faces s mnemonic operands) :
    m.operates = mnemonic.isOperation := by
  show m.mnemonic?.any Mnemonic.isOperation = _
  rw [h.mnemonic?_eq]
  rfl

theorem step_of_current? (h : m.current? = some s) : m.step = (m.execute s).map tick := by
  unfold step
  rw [if_neg (by simp [atEnd_of_current? h]), h]

theorem execute_of_holds (m : Machine) (h : s.Holds mnemonic operands) :
    m.execute s
      = Instruction.decode m.registers.count mnemonic operands s.line >>= m.perform s := by
  obtain ⟨l, hl, hm, rfl⟩ := h
  unfold execute decode
  rw [hl]
  simp only [hm]

theorem step_eq_ok_iff (h : m.Faces s mnemonic operands) :
    m.step = .ok m' ↔ ∃ i m₁, Instruction.decode m.registers.count mnemonic operands s.line = .ok i
      ∧ m.perform s i = .ok m₁ ∧ m' = m₁.tick := by
  simp only [step_of_current? h.1, execute_of_holds m h.2, map_eq_ok, bind_eq_ok]
  constructor
  · rintro ⟨m₁, ⟨i, hi, hp⟩, rfl⟩
    exact ⟨i, m₁, hi, hp, rfl⟩
  · rintro ⟨i, m₁, hi, hp, rfl⟩
    exact ⟨m₁, ⟨i, hi, hp⟩, rfl⟩

theorem step_register_iff {op : RegisterOp} (h : m.Faces s (.register op) operands) :
    m.step = .ok m' ↔ ∃ t u i j, operands = [t, ",", u] ∧ NamesRegister m.registers.count t i
      ∧ NamesRegister m.registers.count u j
      ∧ m' = ({ m with registers := m.registers.operate op i j }.advance s).tick := by
  rw [step_eq_ok_iff h]
  constructor
  · rintro ⟨_, m₁, hd, hp, rfl⟩
    obtain ⟨t, u, i, j, hoperands, hi, hj, rfl⟩ := decode_register_iff.1 hd
    cases hp
    exact ⟨t, u, i, j, hoperands, hi, hj, rfl⟩
  · rintro ⟨t, u, i, j, hoperands, hi, hj, rfl⟩
    exact ⟨_, _, decode_register_iff.2 ⟨t, u, i, j, hoperands, hi, hj, rfl⟩, rfl, rfl⟩

theorem step_memory_iff {op : MemoryOp} (h : m.Faces s (.memory op) operands) :
    m.step = .ok m' ↔ ∃ t u i address m₁, operands = [t, ",", u]
      ∧ NamesRegister m.registers.count t i ∧ m.Means u s.line address
      ∧ m.access op i address s.line = .ok m₁ ∧ m' = (m₁.advance s).tick := by
  rw [step_eq_ok_iff h]
  constructor
  · rintro ⟨_, _, hd, hp, rfl⟩
    obtain ⟨t, u, i, a, hoperands, hi, ha, rfl⟩ := decode_memory_iff.1 hd
    obtain ⟨address, haddress, hp⟩ := bind_eq_ok.1 hp
    obtain ⟨m₁, hm₁, hp⟩ := bind_eq_ok.1 hp
    cases hp
    exact ⟨t, u, i, address, m₁, hoperands, hi, ⟨a, ha, haddress⟩, hm₁, rfl⟩
  · rintro ⟨t, u, i, address, m₁, hoperands, hi, ⟨a, ha, haddress⟩, hm₁, rfl⟩
    refine ⟨_, m₁.advance s, decode_memory_iff.2 ⟨t, u, i, a, hoperands, hi, ha, rfl⟩, ?_, rfl⟩
    exact bind_eq_ok.2 ⟨address, haddress, bind_eq_ok.2 ⟨m₁, hm₁, rfl⟩⟩

theorem step_jump_iff {when : Condition} (h : m.Faces s (.jump when) operands) :
    m.step = .ok m' ↔ ∃ t address k, operands = [t] ∧ m.Means t s.line address
      ∧ jumpTarget m.program address s.line = .ok k
      ∧ m' = (if when.holds m.registers.flags then { m with line := k, address }
        else m.advance s).tick := by
  rw [step_eq_ok_iff h]
  constructor
  · rintro ⟨_, m₁, hd, hp, rfl⟩
    obtain ⟨t, a, hoperands, ha, rfl⟩ := decode_jump_iff.1 hd
    obtain ⟨address, haddress, hp⟩ := bind_eq_ok.1 hp
    obtain ⟨k, hk, hp⟩ := bind_eq_ok.1 hp
    refine ⟨t, address, k, hoperands, ⟨a, ha, haddress⟩, mapError_eq_ok.1 hk, ?_⟩
    split_ifs at hp ⊢ <;> cases hp <;> rfl
  · rintro ⟨t, address, k, hoperands, ⟨a, ha, haddress⟩, hk, rfl⟩
    refine ⟨_, _, decode_jump_iff.2 ⟨t, a, hoperands, ha, rfl⟩, ?_, rfl⟩
    refine bind_eq_ok.2 ⟨address, haddress, bind_eq_ok.2 ⟨k, mapError_eq_ok.2 hk, ?_⟩⟩
    split_ifs <;> rfl

/-- What a step that succeeds does: past the end it only counts, a line without code is passed over,
and an instruction is carried out. -/
inductive Effect (m : Machine) : Machine → Prop
  | past (h : m.atEnd = true) : Effect m m.tick
  | blank {s : Statement} (hs : m.current? = some s) (h : CodeLine.parse? s.text = none) :
    Effect m (m.advance s).tick
  | register {s : Statement} {op : RegisterOp} {t u : String} {i j : Nat}
    (h : m.Faces s (.register op) [t, ",", u]) (hi : NamesRegister m.registers.count t i)
    (hj : NamesRegister m.registers.count u j) :
    Effect m ({ m with registers := m.registers.operate op i j }.advance s).tick
  | memory {s : Statement} {op : MemoryOp} {t u : String} {i : Nat} {address : Int} {m₁ : Machine}
    (h : m.Faces s (.memory op) [t, ",", u]) (hi : NamesRegister m.registers.count t i)
    (haddress : m.Means u s.line address) (h₁ : m.access op i address s.line = .ok m₁) :
    Effect m (m₁.advance s).tick
  | jump {s : Statement} {when : Condition} {t : String} {address : Int} {place : Nat}
    (h : m.Faces s (.jump when) [t]) (haddress : m.Means t s.line address)
    (hplace : jumpTarget m.program address s.line = .ok place) :
    Effect m (if when.holds m.registers.flags then { m with line := place, address }
      else m.advance s).tick
  | data {s : Statement} {op : DataOp} {operands : List String}
    (h : m.Faces s (.data op) operands) : Effect m (m.advance s).tick

theorem effect_of_step (h : m.step = .ok m') : m.Effect m' := by
  rcases hc : m.current? with _ | s
  · unfold step at h
    rw [hc] at h
    split_ifs at h with he
    cases h
    exact .past he
  rcases hl : CodeLine.parse? s.text with _ | l
  · rw [step_of_current? hc, execute, hl] at h
    cases h
    exact .blank hc hl
  rcases hm : l.mnemonic? with _ | mnemonic
  · simp only [step_of_current? hc, execute, decode, hl, hm] at h
    cases h
  have hfaces : m.Faces s mnemonic l.operands := ⟨hc, l, hl, hm, rfl⟩
  rcases mnemonic with op | op | when | op
  · obtain ⟨t, u, i, j, hoperands, hi, hj, rfl⟩ := (step_register_iff hfaces).1 h
    exact .register (hoperands ▸ hfaces) hi hj
  · obtain ⟨t, u, i, address, m₁, hoperands, hi, haddress, h₁, rfl⟩ := (step_memory_iff hfaces).1 h
    exact .memory (hoperands ▸ hfaces) hi haddress h₁
  · obtain ⟨t, address, place, hoperands, haddress, hplace, rfl⟩ := (step_jump_iff hfaces).1 h
    exact .jump (hoperands ▸ hfaces) haddress hplace
  · obtain ⟨i, m₁, hd, hp, rfl⟩ := (step_eq_ok_iff hfaces).1 h
    cases hd
    cases hp
    exact .data hfaces

theorem step_of_not_operates (hno : m.operates = false) (h : m.step = .ok m') :
    m'.registers = m.registers ∧ m'.memory = m.memory := by
  cases effect_of_step h with
  | past => exact ⟨rfl, rfl⟩
  | blank => exact ⟨rfl, rfl⟩
  | register hfaces =>
    rw [hfaces.operates_eq] at hno
    cases hno
  | memory hfaces =>
    rw [hfaces.operates_eq] at hno
    cases hno
  | jump => split_ifs <;> exact ⟨rfl, rfl⟩
  | data => exact ⟨rfl, rfl⟩

end Machine

namespace Engine

variable {e : Engine}

theorem resolve_eq_ok_iff {token : String} {line address : Int} :
    e.resolve token line = .ok address ↔ e.machine.Means token line address := by
  simp only [resolve, Machine.Means, bind_eq_ok]

/-- A step of an engine that succeeds is one of its machine. -/
theorem machine_step_of_success (hlaid : e.laidOut = true) (h : e.step.failure = none) :
    e.machine.step = .ok e.step.engine.machine := by
  rcases ha : e.machine.attempt with f | m
  · rw [step_of_attempt_error hlaid ha] at h
    cases h
  · rw [step_of_attempt_ok hlaid ha]
    exact Machine.step_of_attempt ha

end Engine

end WordMachine
