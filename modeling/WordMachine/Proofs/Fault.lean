import WordMachine.Proofs.Operand
import WordMachine.Proofs.Step

/-!
# How a step fails

An operand that does not decode is an error of its line, or a numeral in it has too many digits to
be converted (`decode_error`); what decodes names registers that exist (`decode_inBounds`). A
decoded instruction fails only for a label, a jump or an address that leads nowhere
(`perform_error`). So a step has few ways to fail (`step_error`), and the ceiling of a run is none
of them (`step_error_ne_limit`).
-/

namespace WordMachine

open Text

/-- Whether a cause is one that the operands of a known instruction can give. -/
def Cause.isOperational : Cause → Bool
  | .operand _ | .undefinedLabel _ | .invalidJumpTarget _ | .memoryAccess .. => true
  | _ => false

/-- A token that writes digits, by themselves or as the register of an indirect address. -/
def WritesDigits (token : String) (digits : List Char) : Prop :=
  isDigits digits = true ∧ (token.toList = digits ∨ token.toList = ['0', '('] ++ digits ++ [')'])

/-- The refusal of a numeral in an operand that has more digits than are converted. -/
def Overlong (operands : List String) (f : Failure) : Prop :=
  ∃ token ∈ operands, ∃ digits, WritesDigits token digits ∧ Numeral.maxDigits < digits.length
    ∧ f = .refusal (.numeral (.tooManyDigits digits.length))

/-- The register that an address names exists, and a number in its place can be written out. -/
def Address.InBounds (count : Nat) : Address → Prop
  | .absolute n => Numeral.isWritable n = true
  | .indirect r => r < count
  | .label _ => True

/-- Every register that an instruction names exists, and its address is in bounds. -/
def Instruction.InBounds (count : Nat) : Instruction → Prop
  | .register _ i j => i < count ∧ j < count
  | .memory _ i a => i < count ∧ a.InBounds count
  | .jump _ a => a.InBounds count
  | .data => True

section Decode

variable {count : Nat} {line : Int} {f : Failure}

theorem readNumber_eq_ok_iff {cs : List Char} {n : Nat} :
    readNumber cs = .ok n ↔ IsNumeral cs n := by
  rw [← read_eq_ok_iff]
  unfold readNumber
  rcases Numeral.read cs with e | k
  · simp
  · simp

theorem readNumber_error {cs : List Char} (hd : isDigits cs = true) (h : readNumber cs = .error f) :
    Numeral.maxDigits < cs.length ∧ f = .refusal (.numeral (.tooManyDigits cs.length)) := by
  simp only [isDigits, Bool.and_eq_true, Bool.not_eq_true', List.isEmpty_eq_false_iff,
    List.all_eq_true] at hd
  have hdec : ∀ c ∈ cs, isDecimal c = true := fun c hc => isDecimal_of_isDigit (hd.2 c hc)
  have htake : cs.takeWhile isDecimal = cs := List.takeWhile_eq_self_iff.2 hdec
  have hall : (cs.all isDecimal && !cs.isEmpty) = true := by simpa [hd.1] using hdec
  unfold readNumber Numeral.read at h
  simp only [htake, hall] at h
  by_cases hlen : Numeral.maxDigits < cs.length
  · simp only [hlen, if_true] at h
    cases h
    exact ⟨hlen, rfl⟩
  · simp [hlen] at h

theorem readRegister_lt {cs : List Char} {n : Nat} (h : readRegister count cs line = .ok n) :
    n < count := by
  unfold readRegister at h
  simp only [] at h
  split_ifs at h with hd
  obtain ⟨k, -, h⟩ := bind_eq_ok.1 h
  split_ifs at h with hk
  cases h
  exact hk

theorem readRegister_error {cs : List Char} (h : readRegister count cs line = .error f) :
    (∃ e, f = .atLine line (.operand e))
      ∨ isDigits cs = true ∧ Numeral.maxDigits < cs.length
        ∧ f = .refusal (.numeral (.tooManyDigits cs.length)) := by
  unfold readRegister at h
  simp only [] at h
  split_ifs at h with hd
  · rcases bind_eq_error.1 h with h | ⟨k, -, h⟩
    · exact .inr ⟨hd, readNumber_error hd h⟩
    · split_ifs at h
      · cases h
      · cases h
        exact .inl ⟨_, rfl⟩
  · cases h
    exact .inl ⟨_, rfl⟩

theorem indirectDigits?_some {cs digits : List Char} (h : indirectDigits? cs = some digits) :
    cs = ['0', '('] ++ digits ++ [')'] ∧ isDigits digits = true := by
  unfold indirectDigits? at h
  split at h
  · rename_i rest
    split_ifs at h with hr
    cases h
    obtain ⟨body, rfl⟩ := List.getLast?_eq_some_iff.1 hr.1
    exact ⟨by simp, hr.2⟩
  · cases h

theorem Address.read_inBounds {token : String} {a : Address}
    (h : Address.read count token line = .ok a) : a.InBounds count := by
  unfold Address.read at h
  split_ifs at h
  · obtain ⟨n, hn, h⟩ := bind_eq_ok.1 h
    cases h
    exact (readNumber_eq_ok_iff.1 hn).isWritable
  · split at h
    · obtain ⟨r, hr, h⟩ := bind_eq_ok.1 h
      cases h
      exact readRegister_lt hr
    · cases h
      trivial

theorem Address.read_error {token : String} (h : Address.read count token line = .error f) :
    (∃ e, f = .atLine line (.operand e)) ∨ Overlong [token] f := by
  unfold Address.read at h
  split_ifs at h with hd
  · rcases bind_eq_error.1 h with h | ⟨n, -, h⟩
    · obtain ⟨hlen, hf⟩ := readNumber_error hd h
      exact .inr ⟨token, by simp, token.toList, ⟨hd, .inl rfl⟩, hlen, hf⟩
    · cases h
  · split at h
    · rename_i digits hi
      obtain ⟨htoken, hdigits⟩ := indirectDigits?_some hi
      rcases bind_eq_error.1 h with h | ⟨r, -, h⟩
      · rcases readRegister_error h with he | ⟨-, hlen, hf⟩
        · exact .inl he
        · exact .inr ⟨token, by simp, digits, ⟨hdigits, .inr htoken⟩, hlen, hf⟩
      · cases h
    · cases h

theorem Overlong.mono {operands operands' : List String} (h : Overlong operands f)
    (hs : ∀ t ∈ operands, t ∈ operands') : Overlong operands' f := by
  obtain ⟨token, ht, rest⟩ := h
  exact ⟨token, hs token ht, rest⟩

theorem readRegister_error_token {token : String}
    (h : readRegister count token.toList line = .error f) :
    (∃ e, f = .atLine line (.operand e)) ∨ Overlong [token] f := by
  rcases readRegister_error h with he | ⟨hd, hlen, hf⟩
  · exact .inl he
  · exact .inr ⟨token, by simp, token.toList, ⟨hd, .inl rfl⟩, hlen, hf⟩

theorem readPair_ok {m : Mnemonic} {operands : List String} {i : Nat} {second : String}
    (h : readPair count m operands line = .ok (i, second)) :
    i < count ∧ second ∈ operands := by
  unfold readPair at h
  split at h
  · split_ifs at h
    obtain ⟨r, hr, h⟩ := bind_eq_ok.1 h
    cases h
    exact ⟨readRegister_lt hr, by simp⟩
  · cases h

theorem readPair_error {m : Mnemonic} {operands : List String}
    (h : readPair count m operands line = .error f) :
    (∃ e, f = .atLine line (.operand e)) ∨ Overlong operands f := by
  unfold readPair at h
  split at h
  · split_ifs at h
    · rcases bind_eq_error.1 h with h | ⟨r, -, h⟩
      · exact (readRegister_error_token h).imp_right fun ho => ho.mono (by simp)
      · cases h
    · cases h
      exact .inl ⟨_, rfl⟩
  · cases h
    exact .inl ⟨_, rfl⟩

namespace Instruction

variable {m : Mnemonic} {operands : List String}

theorem decode_inBounds {i : Instruction} (h : decode count m operands line = .ok i) :
    i.InBounds count := by
  unfold decode at h
  split at h
  · obtain ⟨⟨target, second⟩, hp, h⟩ := bind_eq_ok.1 h
    obtain ⟨source, hs, h⟩ := bind_eq_ok.1 h
    cases h
    exact ⟨(readPair_ok hp).1, readRegister_lt hs⟩
  · obtain ⟨⟨target, second⟩, hp, h⟩ := bind_eq_ok.1 h
    obtain ⟨source, hs, h⟩ := bind_eq_ok.1 h
    cases h
    exact ⟨(readPair_ok hp).1, Address.read_inBounds hs⟩
  · split at h
    · obtain ⟨target, ht, h⟩ := bind_eq_ok.1 h
      cases h
      exact Address.read_inBounds ht
    · cases h
  · cases h
    trivial

theorem decode_error (h : decode count m operands line = .error f) :
    (∃ e, f = .atLine line (.operand e)) ∨ Overlong operands f := by
  have hsecond : ∀ {i : Nat} {second : String}, readPair count m operands line = .ok (i, second) →
      Overlong [second] f → Overlong operands f := by
    intro i second hp ho
    exact ho.mono (by simpa using (readPair_ok hp).2)
  unfold decode at h
  split at h
  · rcases bind_eq_error.1 h with h | ⟨⟨target, second⟩, hp, h⟩
    · exact readPair_error h
    rcases bind_eq_error.1 h with h | ⟨source, -, h⟩
    · exact (readRegister_error_token h).imp_right (hsecond hp)
    · cases h
  · rcases bind_eq_error.1 h with h | ⟨⟨target, second⟩, hp, h⟩
    · exact readPair_error h
    rcases bind_eq_error.1 h with h | ⟨source, -, h⟩
    · exact (Address.read_error h).imp_right (hsecond hp)
    · cases h
  · split at h
    · rcases bind_eq_error.1 h with h | ⟨target, -, h⟩
      · exact Address.read_error h
      · cases h
    · cases h
      exact .inl ⟨_, rfl⟩
  · cases h

end Instruction

end Decode

namespace Machine

variable {m : Machine} {s : Statement} {f : Failure}

/-- An operand in bounds means an address outside memory, which is too long to be shown. -/
def GoesAstray (m : Machine) (line : Int) (f : Failure) : Prop :=
  ∃ a address, a.InBounds m.registers.count ∧ m.resolve a line = .ok address
    ∧ (Cause.memoryAccess address m.memory.size).isWritable = false ∧ f = .refusal .numberTooLong

theorem decode_inBounds {l : CodeLine} {i : Instruction} (h : m.decode s l = .ok i) :
    i.InBounds m.registers.count := by
  unfold decode at h
  split at h
  · cases h
  · exact Instruction.decode_inBounds h

theorem readWord_error {memory : Memory} {address line : Int}
    (h : memory.readWord address line = .error f) : f = memory.outside address line := by
  unfold Memory.readWord at h
  split_ifs at h
  cases h
  rfl

theorem access_error {op : MemoryOp} {i : Nat} {address line : Int}
    (h : m.access op i address line = .error f) : f = m.memory.outside address line := by
  unfold access at h
  split at h
  · rcases bind_eq_error.1 h with h | ⟨word, -, h⟩
    · exact readWord_error h
    · cases h
  · rcases bind_eq_error.1 h with h | ⟨word, -, h⟩
    · exact readWord_error h
    · cases h
  · rcases bind_eq_error.1 h with h | ⟨word, -, h⟩
    · exact readWord_error h
    · cases h
  · rcases bind_eq_error.1 h with h | ⟨memory, -, h⟩
    · unfold Memory.writeWord at h
      split_ifs at h
      cases h
      rfl
    · cases h
  · cases h

theorem resolve_error {a : Address} {line : Int} (h : m.resolve a line = .error f) :
    ∃ name, f = .atLine line (.undefinedLabel name) := by
  unfold resolve at h
  split at h
  · cases h
  · cases h
  · rename_i name
    split at h
    · cases h
    · cases h
      exact ⟨name, rfl⟩

/-- An instruction that fails has an operand at fault, or it goes to an address outside memory that
is too long to be shown. -/
theorem perform_error {i : Instruction} (hi : i.InBounds m.registers.count)
    (h : m.perform s i = .error f) :
    (∃ cause, f = .atLine s.line cause ∧ cause.isOperational = true) ∨ m.GoesAstray s.line f := by
  unfold perform at h
  split at h
  · cases h
  · rename_i op j a
    rcases bind_eq_error.1 h with h | ⟨address, ha, h⟩
    · obtain ⟨name, rfl⟩ := resolve_error h
      exact .inl ⟨_, rfl, rfl⟩
    rcases bind_eq_error.1 h with h | ⟨m₁, -, h⟩
    · obtain rfl := access_error h
      rcases hw : (Cause.memoryAccess address m.memory.size).isWritable with _ | _
      · exact .inr ⟨a, address, hi.2, ha, hw, m.memory.outside_of_not_isWritable hw s.line⟩
      · exact .inl ⟨_, m.memory.outside_of_isWritable hw s.line, rfl⟩
    · cases h
  · rcases bind_eq_error.1 h with h | ⟨address, -, h⟩
    · obtain ⟨name, rfl⟩ := resolve_error h
      exact .inl ⟨_, rfl, rfl⟩
    rcases bind_eq_error.1 h with h | ⟨place, -, h⟩
    · unfold jumpTarget at h
      split at h
      · cases h
      · cases h
        exact .inl ⟨_, rfl, rfl⟩
    · split_ifs at h <;> cases h
  · cases h

theorem execute_error (h : m.execute s = .error f) :
    ∃ l, CodeLine.parse? s.text = some l
      ∧ ((l.mnemonic? = none ∧ f = .atLine s.line (.invalidInstruction l.name))
        ∨ (∃ cause, f = .atLine s.line cause ∧ cause.isOperational = true)
        ∨ Overlong l.operands f ∨ m.GoesAstray s.line f) := by
  unfold execute at h
  split at h
  · cases h
  · rename_i l hl
    refine ⟨l, hl, ?_⟩
    rcases bind_eq_error.1 h with h | ⟨i, hi, h⟩
    · unfold decode at h
      split at h
      · rename_i hm
        cases h
        exact .inl ⟨hm, rfl⟩
      · rcases Instruction.decode_error h with ⟨e, rfl⟩ | ho
        · exact .inr (.inl ⟨_, rfl, rfl⟩)
        · exact .inr (.inr (.inl ho))
    · rcases perform_error (decode_inBounds hi) h with hcause | hastray
      · exact .inr (.inl hcause)
      · exact .inr (.inr (.inr hastray))

theorem step_error (h : m.step = .error f) :
    m.atEnd = false
      ∧ ((m.current? = none ∧ f = .refusal (refusePosition m.line .noStatement))
        ∨ ∃ s, m.current? = some s ∧ m.execute s = .error f) := by
  unfold step at h
  split_ifs at h with he
  refine ⟨by simpa using he, ?_⟩
  rcases hc : m.current? with _ | s <;> rw [hc] at h
  · cases h
    exact .inl ⟨rfl, rfl⟩
  · refine .inr ⟨s, rfl, ?_⟩
    rcases hx : m.execute s with g | m₁
    · simp only [hx] at h
      cases h
      rfl
    · simp only [hx] at h
      cases h

theorem step_error_ne_limit {d : Diagnostic} (h : m.step = .error (.diagnostic d)) (limit : Int) :
    d.cause ≠ .executionLimit limit := by
  intro hd
  obtain ⟨-, ⟨-, hf⟩ | ⟨s, -, hx⟩⟩ := step_error h
  · cases hf
  · obtain ⟨l, -, ⟨-, hf⟩ | ⟨cause, hf, hc⟩ | ⟨token, -, digits, -, -, hf⟩ |
      ⟨a, address, -, -, -, hf⟩⟩ := execute_error hx
    · cases hf
      cases hd
    · cases hf
      rw [show cause = .executionLimit limit from hd] at hc
      cases hc
    · cases hf
    · cases hf

end Machine

end WordMachine
