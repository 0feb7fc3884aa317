import Mathlib.Data.Rat.Floor
import WordMachine.Proofs.Execution
import WordMachine.Proofs.Invariant

/-!
# Arithmetic on words

Results are worked out exactly and wrap when a register is written. On words that is arithmetic in
32 bits: the sum, difference and product of the bit patterns, and the quotient rounded down
(`leaves_wrap`). A quotient fits without wrapping except that of the least word by minus one
(`fits_fdiv`). Words come from registers, which hold nothing else (`Registers.Sound.fits_get`), and
from memory, where four bytes are always a word (`Word.fits_decode`), so loading changes nothing.
-/

namespace WordMachine

/-! ## Words -/

namespace Word

theorem toInt_ofInt (v : Int) : (BitVec.ofInt 32 v).toInt = wrap v := by
  rw [BitVec.toInt_ofInt]
  rfl

theorem toInt_ofInt_of_fits {v : Int} (h : Fits v) : (BitVec.ofInt 32 v).toInt = v := by
  rw [toInt_ofInt, wrap_of_fits h]

theorem fits_decode (bs : List UInt8) : Fits (decode bs) := by
  have hlen : (bs.take bytes).length ≤ 4 := by
    rw [List.length_take, bytes]
    omega
  have hpos : 0 < Nat.pow 256 (bs.take bytes).length := Nat.pow_pos (by decide)
  have hmax : Nat.pow 256 (bs.take bytes).length ≤ modulus := Nat.pow_le_pow_right (by decide) hlen
  have hlo := Int.le_bmod (x := ofBytes (bs.take bytes)) hpos
  have hhi := Int.bmod_lt (x := ofBytes (bs.take bytes)) hpos
  simp only [modulus] at hmax
  simp only [Fits, decode, least, greatest]
  omega

theorem fdiv_eq_floor (x y : Int) : x.fdiv y = ⌊(x : ℚ) / y⌋ := by
  have hnonneg : ∀ x : Int, ∀ y : Nat, x.fdiv y = ⌊(x : ℚ) / (y : Int)⌋ := by
    intro x y
    rw [Int.fdiv_eq_ediv_of_nonneg x (Int.natCast_nonneg y)]
    exact (Rat.floor_intCast_div_natCast x y).symm
  rcases Int.le_total 0 y with hy | hy
  · obtain ⟨n, rfl⟩ := Int.eq_ofNat_of_zero_le hy
    exact hnonneg x n
  · -- both signs turned leave the quotient as it is
    obtain ⟨n, hn⟩ := Int.eq_ofNat_of_zero_le (Int.neg_nonneg_of_nonpos hy)
    obtain rfl : y = -(n : Int) := by omega
    rw [← Int.neg_fdiv_neg, Int.neg_neg, hnonneg]
    congr 1
    push_cast
    rw [div_neg, neg_div]

/-- The only quotient of words that is no word is that of the least by minus one. -/
theorem fits_fdiv {x y : Int} (hx : Fits x) (hy : y ≠ 0) (hne : ¬ (x = least ∧ y = -1)) :
    Fits (x.fdiv y) := by
  have hbounds : ∀ a b : Int, 0 < b → least * b ≤ a → a ≤ greatest * b → Fits (a / b) := by
    intro a b hb hlo hhi
    exact ⟨(Int.le_ediv_iff_mul_le hb).2 hlo, Int.ediv_le_of_le_mul hb hhi⟩
  simp only [Fits, least, greatest] at hx hne hbounds ⊢
  rcases Int.lt_or_gt_of_ne hy with hneg | hpos
  · rw [← Int.neg_fdiv_neg, Int.fdiv_eq_ediv_of_nonneg _ (by omega)]
    exact hbounds (-x) (-y) (by omega) (by omega) (by omega)
  · rw [Int.fdiv_eq_ediv_of_nonneg _ (by omega)]
    exact hbounds x y hpos (by omega) (by omega)

end Word

/-- What arithmetic on two words leaves: their sum, difference or product in two's complement, or
their quotient rounded down and wrapped, which is zero where there is none. Only the least word by
minus one has to wrap; that quotient is the least word again. -/
def Arith.Leaves : Arith → Int → Int → Int → Prop
  | .add, x, y, v => v = (BitVec.ofInt 32 x + BitVec.ofInt 32 y).toInt
  | .sub, x, y, v => v = (BitVec.ofInt 32 x - BitVec.ofInt 32 y).toInt
  | .mul, x, y, v => v = (BitVec.ofInt 32 x * BitVec.ofInt 32 y).toInt
  | .div, x, y, v =>
    (y = 0 → v = 0)
      ∧ (y ≠ 0 → v = (BitVec.ofInt 32 ⌊(x : ℚ) / y⌋).toInt)
      ∧ (x = -2147483648 → y = -1 → v = -2147483648)
      ∧ (y ≠ 0 → ¬ (x = -2147483648 ∧ y = -1) → (v : ℚ) ≤ x / y ∧ (x : ℚ) / y < v + 1)

theorem Arith.leaves_wrap {op : Arith} {x y : Int} (hx : Word.Fits x) (hy : Word.Fits y) :
    op.Leaves x y (Word.wrap (op.apply x y)) := by
  cases op with
  | add =>
    rw [Leaves, apply, BitVec.toInt_add, Word.toInt_ofInt_of_fits hx,
      Word.toInt_ofInt_of_fits hy]
    rfl
  | sub =>
    rw [Leaves, apply, BitVec.toInt_sub, Word.toInt_ofInt_of_fits hx,
      Word.toInt_ofInt_of_fits hy]
    rfl
  | mul =>
    rw [Leaves, apply, BitVec.toInt_mul, Word.toInt_ofInt_of_fits hx,
      Word.toInt_ofInt_of_fits hy]
    rfl
  | div =>
    refine ⟨?_, fun _ => ?_, ?_, fun hne hmin => ?_⟩
    · rintro rfl
      rw [apply, Int.fdiv_zero]
      rfl
    · rw [apply, Word.fdiv_eq_floor, Word.toInt_ofInt]
    · rintro rfl rfl
      decide
    · rw [apply, Word.wrap_of_fits (Word.fits_fdiv hx hne hmin), Word.fdiv_eq_floor]
      exact ⟨Int.floor_le _, Int.lt_floor_add_one _⟩

/-! ## Registers and memory -/

theorem Registers.get_assign {r : Registers} {i : Nat} (h : i < r.count) (v : Int) :
    (r.assign i v).get i = Word.wrap v := by
  unfold Registers.assign
  rw [Registers.get_describe, Registers.get_set_self r h]

theorem Memory.fits_readWord {m : Memory} {address v : Int} {line : Option Int}
    (h : m.readWord address line = .ok v) : Word.Fits v := by
  unfold readWord at h
  split_ifs at h
  cases h
  exact Word.fits_decode _

namespace Machine

variable {m m' : Machine} {s : Statement} {operands : List String}

section Leaves

variable (hfits : ∀ i, Word.Fits (m.registers.get i)) (hs : m.step = .ok m')
include hfits hs

theorem leaves_of_register {op : Arith} (h : m.Faces s (.register (.arith op)) operands) :
    ∃ t u i j, operands = [t, ",", u] ∧ NamesRegister m.registers.count t i
      ∧ NamesRegister m.registers.count u j
      ∧ op.Leaves (m.registers.get i) (m.registers.get j) (m'.registers.get i) := by
  obtain ⟨t, u, i, j, hoperands, hi, hj, rfl⟩ := (step_register_iff h).1 hs
  refine ⟨t, u, i, j, hoperands, hi, hj, ?_⟩
  show op.Leaves _ _ ((m.registers.assign i _).get i)
  rw [Registers.get_assign hi.lt]
  exact Arith.leaves_wrap (hfits i) (hfits j)

theorem leaves_of_memory {op : Arith} (h : m.Faces s (.memory (.arith op)) operands) :
    ∃ t u i address word, operands = [t, ",", u] ∧ NamesRegister m.registers.count t i
      ∧ m.Means u s.line address ∧ m.memory.readWord address (some s.line) = .ok word
      ∧ op.Leaves (m.registers.get i) word (m'.registers.get i) := by
  obtain ⟨t, u, i, address, m₁, hoperands, hi, haddress, ha, rfl⟩ := (step_memory_iff h).1 hs
  obtain ⟨word, hword, ha⟩ := bind_eq_ok.1 ha
  cases ha
  refine ⟨t, u, i, address, word, hoperands, hi, haddress, hword, ?_⟩
  show op.Leaves _ _ ((m.registers.assign i _).get i)
  rw [Registers.get_assign hi.lt]
  exact Arith.leaves_wrap (hfits i) (Memory.fits_readWord hword)

theorem get_of_load_register (h : m.Faces s (.register .load) operands) :
    ∃ t u i j, operands = [t, ",", u] ∧ NamesRegister m.registers.count t i
      ∧ NamesRegister m.registers.count u j ∧ m'.registers.get i = m.registers.get j := by
  obtain ⟨t, u, i, j, hoperands, hi, hj, rfl⟩ := (step_register_iff h).1 hs
  refine ⟨t, u, i, j, hoperands, hi, hj, ?_⟩
  exact (Registers.get_assign hi.lt _).trans (Word.wrap_of_fits (hfits j))

end Leaves

section Load

variable (hs : m.step = .ok m')
include hs

theorem get_of_load (h : m.Faces s (.memory .load) operands) :
    ∃ t u i address word, operands = [t, ",", u] ∧ NamesRegister m.registers.count t i
      ∧ m.Means u s.line address ∧ m.memory.readWord address (some s.line) = .ok word
      ∧ m'.registers.get i = word := by
  obtain ⟨t, u, i, address, m₁, hoperands, hi, haddress, ha, rfl⟩ := (step_memory_iff h).1 hs
  obtain ⟨word, hword, ha⟩ := bind_eq_ok.1 ha
  cases ha
  refine ⟨t, u, i, address, word, hoperands, hi, haddress, hword, ?_⟩
  exact (Registers.get_assign hi.lt _).trans (Word.wrap_of_fits (Memory.fits_readWord hword))

theorem get_of_loadAddress (h : m.Faces s (.memory .loadAddress) operands) :
    ∃ t u i address, operands = [t, ",", u] ∧ NamesRegister m.registers.count t i
      ∧ m.Means u s.line address ∧ m'.registers.get i = Word.wrap address := by
  obtain ⟨t, u, i, address, m₁, hoperands, hi, haddress, ha, rfl⟩ := (step_memory_iff h).1 hs
  cases ha
  exact ⟨t, u, i, address, hoperands, hi, haddress, Registers.get_assign hi.lt _⟩

end Load

end Machine

namespace Engine

/-- A step that succeeds leaves in its first register what arithmetic on words gives for it and the
second operand, be that a register, the same one or another, or a word of memory; loading leaves the
operand as it is, and loading an address leaves the one word that differs from it by a multiple of
their number. -/
theorem arithmetic_of_step (config : Config) (source : String) (calls : List Call)
    (hlaid : ((load config source).afterAll calls).laidOut = true)
    (hstep : ((load config source).afterAll calls).step.failure = none) (s : Statement)
    (operands : List String) :
    let e := (load config source).afterAll calls
    let m := e.machine
    let r := m.registers
    let r' := e.step.engine.machine.registers
    (∀ op, m.Faces s (.register (.arith op)) operands →
        ∃ t u i j, operands = [t, ",", u] ∧ NamesRegister r.count t i ∧ NamesRegister r.count u j
          ∧ op.Leaves (r.get i) (r.get j) (r'.get i))
      ∧ (∀ op, m.Faces s (.memory (.arith op)) operands →
        ∃ t u i address word, operands = [t, ",", u] ∧ NamesRegister r.count t i
          ∧ e.resolve u s.line = .ok address ∧ m.memory.readWord address (some s.line) = .ok word
          ∧ op.Leaves (r.get i) word (r'.get i))
      ∧ (m.Faces s (.register .load) operands →
        ∃ t u i j, operands = [t, ",", u] ∧ NamesRegister r.count t i ∧ NamesRegister r.count u j
          ∧ r'.get i = r.get j)
      ∧ (m.Faces s (.memory .load) operands →
        ∃ t u i address word, operands = [t, ",", u] ∧ NamesRegister r.count t i
          ∧ e.resolve u s.line = .ok address ∧ m.memory.readWord address (some s.line) = .ok word
          ∧ r'.get i = word)
      ∧ (m.Faces s (.memory .loadAddress) operands →
        ∃ t u i address, operands = [t, ",", u] ∧ NamesRegister r.count t i
          ∧ e.resolve u s.line = .ok address ∧ -2147483648 ≤ r'.get i ∧ r'.get i ≤ 2147483647
          ∧ 4294967296 ∣ address - r'.get i) := by
  intro e m r r'
  have hs : m.step = .ok e.step.engine.machine := machine_step_of_success hlaid hstep
  have hfits : ∀ i, Word.Fits (m.registers.get i) :=
    (sound_afterAll config source calls).registers.fits_get
  simp only [resolve_eq_ok_iff]
  refine ⟨fun op => Machine.leaves_of_register hfits hs,
    fun op => Machine.leaves_of_memory hfits hs, Machine.get_of_load_register hfits hs,
    Machine.get_of_load hs, fun h => ?_⟩
  obtain ⟨t, u, i, address, hoperands, hi, haddress, hget⟩ := Machine.get_of_loadAddress hs h
  refine ⟨t, u, i, address, hoperands, hi, haddress, ?_⟩
  have hwrap := Word.fits_wrap address
  rw [← hget] at hwrap
  exact ⟨hwrap.1, hwrap.2, hget ▸ Int.dvd_self_sub_bmod⟩

/-- The least word divided by minus one, which stands in memory. -/
theorem arithmetic_of_step_least :
    ∃ e, e = (load ⟨1000, 2⟩ "K DC -2147483648\nN DC -1\nL 1,K\nD 1,N").afterAll
        [.step, .step, .step]
      ∧ e.laidOut = true ∧ e.step.failure = none
      ∧ e.machine.Faces ⟨"D 1,N", 3, 12, 4⟩ (.memory (.arith .div)) ["1", ",", "N"]
      ∧ e.machine.registers.get 1 = -2147483648
      ∧ e.step.engine.machine.registers.get 1 = -2147483648 := by
  obtain ⟨e, he⟩ : ∃ e, e = (load ⟨1000, 2⟩
      "K DC -2147483648\nN DC -1\nL 1,K\nD 1,N").afterAll [.step, .step, .step] := ⟨_, rfl⟩
  have hrun : e.laidOut = true ∧ e.step.failure = none
      ∧ e.machine.current? = some ⟨"D 1,N", 3, 12, 4⟩ ∧ e.machine.registers.get 1 = -2147483648
      ∧ readRegister e.machine.registers.count "1".toList 4 = .ok 1 ∧ e.resolve "N" 4 = .ok 4
      ∧ e.machine.memory.readWord 4 (some 4) = .ok (-1) := by
    rw [he]
    decide +kernel
  obtain ⟨hlaid, hstep, hcurrent, hget, hone, hresolve, hword⟩ := hrun
  have hfaces : e.machine.Faces ⟨"D 1,N", 3, 12, 4⟩ (.memory (.arith .div)) ["1", ",", "N"] :=
    ⟨hcurrent, ⟨"D", none, "D", ["1", ",", "N"]⟩, by decide +kernel, by decide +kernel, rfl⟩
  have hafter := arithmetic_of_step ⟨1000, 2⟩ _ _ (he ▸ hlaid) (he ▸ hstep) ⟨"D 1,N", 3, 12, 4⟩
    ["1", ",", "N"]
  rw [← he] at hafter
  obtain ⟨t, u, i, address, word, hoperands, hi, haddress, hread, hleaves⟩ := hafter.2.1 .div hfaces
  obtain ⟨rfl, -, rfl⟩ : "1" = t ∧ "," = "," ∧ "N" = u := by simpa using hoperands
  obtain rfl : 1 = i := Except.ok.inj (hone.symm.trans (readRegister_eq_ok_iff.2 hi))
  obtain rfl : 4 = address := Except.ok.inj (hresolve.symm.trans haddress)
  obtain rfl : -1 = word := Except.ok.inj (hword.symm.trans hread)
  exact ⟨e, he, hlaid, hstep, hfaces, hget, hleaves.2.2.1 hget rfl⟩

end Engine

end WordMachine
