import WordMachine.Proofs.Arithmetic
import WordMachine.Proofs.Stutter

/-!
# Operands by way of a register

What an instruction does to a word of memory can be done in two: the word is loaded into another
register, which finds it where the instruction does (`arith_alike_load`), and then the two registers
are combined (`execute_after_load`). Likewise an address, however it is written, can be loaded first
and then be meant indirectly (`Address.read_inRegister`), by a jump or by an instruction that works
on another register (`access_agree`). The detour leaves the same behind but for the register that it
goes by (`AgreeBut`), and where the direct way fails the detour fails too, of the same cause.
-/

namespace WordMachine

open Text

namespace Statement

/-- A statement is an operation between a register and an address. -/
def IsAccess (s : Statement) (count : Nat) (op : MemoryOp) (i : Nat) (u : String) : Prop :=
  ∃ t, s.Holds (.memory op) [t, ",", u] ∧ NamesRegister count t i

/-- A statement is an operation between two registers. -/
def IsOperation (s : Statement) (count : Nat) (op : RegisterOp) (i j : Nat) : Prop :=
  ∃ t u, s.Holds (.register op) [t, ",", u] ∧ NamesRegister count t i ∧ NamesRegister count u j

end Statement

/-! ## One register aside -/

/-- The registers are equally many and hold the same, one of them aside. -/
structure Registers.AgreeBut (j : Nat) (r r' : Registers) : Prop where
  count : r'.count = r.count
  others : ∀ k, k ≠ j → r'.get k = r.get k

/-- The machines have the same flags, memory and registers, one register aside. -/
structure Machine.AgreeBut (j : Nat) (m m' : Machine) : Prop where
  registers : m.registers.AgreeBut j m'.registers
  flags : m'.registers.flags = m.registers.flags
  memory : m'.memory = m.memory

namespace Registers

variable {r r' : Registers} {i j k : Nat}

theorem count_assign (r : Registers) (i : Nat) (v : Int) : (r.assign i v).count = r.count := by
  simp [assign]

theorem get_assign_of_ne (r : Registers) (h : i ≠ k) (v : Int) :
    (r.assign i v).get k = r.get k := by
  unfold assign
  rw [get_describe, get_set_of_ne r h]

theorem agreeBut_assign (r : Registers) (j : Nat) (v : Int) : AgreeBut j r (r.assign j v) :=
  ⟨count_assign r j v, fun _ hk => get_assign_of_ne r hk.symm v⟩

theorem AgreeBut.assign (h : AgreeBut j r r') (hi : i < r.count) (v : Int) :
    AgreeBut j (r.assign i v) (r'.assign i v)
      ∧ (r'.assign i v).flags = (r.assign i v).flags := by
  have hi' : i < r'.count := h.count ▸ hi
  have hself : (r'.assign i v).get i = (r.assign i v).get i := by
    rw [get_assign hi', get_assign hi]
  refine ⟨⟨by rw [count_assign, count_assign, h.count], fun k hk => ?_⟩,
    congrArg Flags.ofResult hself⟩
  by_cases hik : i = k
  · exact hik ▸ hself
  · rw [get_assign_of_ne r' hik, get_assign_of_ne r hik, h.others k hk]

end Registers

/-- The token for the address that a register holds. -/
def Address.inRegister (register : String) : String := "0(" ++ register ++ ")"

theorem Address.read_inRegister {count i : Nat} {q : String} (h : NamesRegister count q i)
    (line : Int) : Address.read count (inRegister q) line = .ok (.indirect i) := by
  have hlist : (inRegister q).toList = '0' :: '(' :: (q.toList ++ [')']) := by
    simp [inRegister]
  have hindirect : indirectDigits? ('0' :: '(' :: (q.toList ++ [')'])) = some q.toList := by
    simp [indirectDigits?, h.digits]
  unfold Address.read
  rw [hlist, if_neg (by simp [isDigits, show '('.isDigit = false from rfl]), hindirect]
  simp only [readRegister_eq_ok_iff.2 h]
  rfl

namespace Machine

variable {m m₁ : Machine} {s s₁ s₂ : Statement} {i j k : Nat} {u q : String}

/-! ## Statements as they are executed -/

/-- The address that a token means on a given line, or why it means none. -/
def locate (m : Machine) (token : String) (line : Int) : Except Failure Int :=
  Address.read m.registers.count token line >>= fun a => m.resolve a line

theorem locate_eq_ok_iff {line address : Int} :
    m.locate u line = .ok address ↔ m.Means u line address := by
  simp only [locate, Means, bind_eq_ok]

theorem locate_alike (m : Machine) (u : String) (line line' : Int) :
    Alike (Failure.Recharged line line') Eq (m.locate u line) (m.locate u line') := by
  refine (Address.read_alike _ line line' u).bind_eq fun a => ?_
  cases a with
  | absolute n => exact .ok rfl
  | indirect r => exact .ok rfl
  | label name =>
    simp only [resolve]
    split
    · exact .ok rfl
    · exact .error (.atLine _)

theorem execute_access {op : MemoryOp} (h : s.IsAccess m.registers.count op i u) :
    m.execute s = m.locate u s.line >>= fun address =>
      m.access op i address s.line >>= fun m₁ => pure (m₁.advance s) := by
  obtain ⟨t, hs, hi⟩ := h
  have hpair : readPair m.registers.count (.memory op) [t, ",", u] s.line = .ok (i, u) :=
    readPair_eq_ok_iff.2 ⟨t, rfl, hi⟩
  have hdecode : Instruction.decode m.registers.count (.memory op) [t, ",", u] s.line
      = Address.read m.registers.count u s.line >>= fun a => pure (.memory op i a) := by
    simp only [Instruction.decode, hpair]
    rfl
  rw [execute_of_holds m hs, hdecode]
  simp only [locate, perform, bind_assoc, pure_bind]

theorem execute_jump_of_holds {when : Condition} (h : s.Holds (.jump when) [u]) :
    m.execute s = m.locate u s.line >>= fun address =>
      (jumpTarget m.program address s.line).mapError .diagnostic >>= fun place =>
        if when.holds m.registers.flags then pure { m with line := place, address }
        else pure (m.advance s) := by
  rw [execute_of_holds m h]
  simp only [Instruction.decode, locate, perform, bind_assoc, pure_bind]

theorem execute_operation {op : RegisterOp} (h : s.IsOperation m.registers.count op i j) :
    m.execute s = .ok ({ m with registers := m.registers.operate op i j }.advance s) := by
  obtain ⟨t, u, hs, hi, hj⟩ := h
  rw [execute_of_holds m hs, decode_register_iff.2 ⟨t, u, i, j, rfl, hi, hj, rfl⟩]
  rfl

/-! ## Words -/

/-- A register written and described by the flags, nothing else changed. -/
def assign (m : Machine) (i : Nat) (v : Int) : Machine :=
  { m with registers := m.registers.assign i v }

/-- Arithmetic on a word of memory and a load find the same word, or both fail. -/
theorem arith_alike_load {op : Arith} (hs : s.IsAccess m.registers.count (.arith op) i u)
    (hs₁ : s₁.IsAccess m.registers.count .load j u) :
    Alike (Failure.Recharged s.line s₁.line)
      (fun m' m₁ => ∃ word, Word.Fits word
        ∧ m' = (m.assign i (op.apply (m.registers.get i) word)).advance s
        ∧ m₁ = (m.assign j word).advance s₁)
      (m.execute s) (m.execute s₁) := by
  rw [execute_access hs, execute_access hs₁]
  refine (locate_alike m u s.line s₁.line).bind_eq fun address => ?_
  -- all that can still fail is reading the word, and nothing has been written before that
  by_cases hc : m.memory.Covers address
  · simp only [access, Memory.readWord, if_pos hc]
    exact .ok ⟨_, Word.fits_decode _, rfl, rfl⟩
  · simp only [access, Memory.readWord, if_neg hc]
    exact .error (.report _)

/-- Once a word is in a register, arithmetic on that register is arithmetic on the word. -/
theorem execute_after_load (s s₁ : Statement) {op : Arith} {word : Int} (hij : i ≠ j)
    (hword : Word.Fits word) (hs₂ : s₂.IsOperation m.registers.count (.arith op) i j) :
    ∃ m₂, ((m.assign j word).advance s₁).execute s₂ = .ok m₂
      ∧ AgreeBut j ((m.assign i (op.apply (m.registers.get i) word)).advance s) m₂ := by
  obtain ⟨t, v, hholds, hi, hj⟩ := hs₂
  have hagree := Registers.agreeBut_assign m.registers j word
  have hfirst : (m.registers.assign j word).get i = m.registers.get i := hagree.others i hij
  have hsecond : (m.registers.assign j word).get j = word :=
    (Registers.get_assign hj.lt word).trans (Word.wrap_of_fits hword)
  have hs₂ : s₂.IsOperation ((m.assign j word).advance s₁).registers.count (.arith op) i j :=
    ⟨t, v, hholds, hagree.count.symm ▸ hi, hagree.count.symm ▸ hj⟩
  refine ⟨_, execute_operation hs₂, ?_⟩
  have hoperate : ((m.assign j word).advance s₁).registers.operate (.arith op) i j
      = (m.registers.assign j word).assign i (op.apply (m.registers.get i) word) := by
    show (m.registers.assign j word).operate (.arith op) i j = _
    rw [Registers.operate, hfirst, hsecond]
  obtain ⟨hregisters, hflags⟩ := hagree.assign hi.lt (op.apply (m.registers.get i) word)
  rw [hoperate]
  exact ⟨hregisters, hflags, rfl⟩

/-- Arithmetic on a word of memory is arithmetic on a register that the word was loaded into, on any
machine and wherever the word is found, also by way of that very register. Both ways find the word
or both fail, on one line with the same failure. -/
theorem arith_by_way_of_register (m : Machine) (op : Arith) {i j : Nat} (hij : i ≠ j) {u : String}
    {s s₁ s₂ : Statement} (hs : s.IsAccess m.registers.count (.arith op) i u)
    (hs₁ : s₁.IsAccess m.registers.count .load j u)
    (hs₂ : s₂.IsOperation m.registers.count (.arith op) i j) :
    ((∃ m', m.execute s = .ok m') ↔ ∃ m₁, m.execute s₁ = .ok m₁)
      ∧ (s₁.line = s.line → ∀ f, m.execute s = .error f ↔ m.execute s₁ = .error f)
      ∧ ∀ m' m₁, m.execute s = .ok m' → m.execute s₁ = .ok m₁ →
        ∃ m₂, m₁.execute s₂ = .ok m₂ ∧ m₂.registers.get i = m'.registers.get i
          ∧ AgreeBut j m' m₂ := by
  have halike := arith_alike_load hs hs₁
  refine ⟨halike.exists_ok_iff, fun hline f => ?_, fun m' m₁ hm' hm₁ => ?_⟩
  · rw [hline] at halike
    exact halike.error_iff Failure.Recharged.eq f
  · obtain ⟨m₁', hm₁', word, hword, rfl, rfl⟩ := halike.of_ok hm'
    cases hm₁.symm.trans hm₁'
    obtain ⟨m₂, hm₂, hagree⟩ := execute_after_load s s₁ hij hword hs₂
    exact ⟨m₂, hm₂, hagree.registers.others i hij, hagree⟩

/-- The address of the word is in the register that the word is loaded into. -/
theorem arith_by_way_of_register_own :
    ∃ m m' m₁ m₂, m = ((Engine.load ⟨1000, 3⟩ "Z DS 1\nK DC -7\nLA 1,50\nLA 2,K").afterAll
        [.step, .step, .step, .step]).machine
      ∧ execute m ⟨"D 1,0(2)", 4, 16, 4⟩ = .ok m' ∧ execute m ⟨"L 2,0(2)", 4, 16, 4⟩ = .ok m₁
      ∧ execute m₁ ⟨"DR 1,2", 5, 20, 2⟩ = .ok m₂ ∧ m'.registers.get 1 = -8
      ∧ m₂.registers.get 1 = -8 ∧ AgreeBut 2 m' m₂ := by
  obtain ⟨m, hm⟩ : ∃ m, m = ((Engine.load ⟨1000, 3⟩ "Z DS 1\nK DC -7\nLA 1,50\nLA 2,K").afterAll
    [.step, .step, .step, .step]).machine := ⟨_, rfl⟩
  have hrun : m.registers.count = 3
      ∧ (m.execute ⟨"D 1,0(2)", 4, 16, 4⟩).map (·.registers.get 1) = .ok (-8) := by
    rw [hm]
    decide +kernel
  obtain ⟨hcount, hrun⟩ := hrun
  obtain ⟨m', hm', hget⟩ := map_eq_ok.1 hrun
  have hone : NamesRegister m.registers.count "1" 1 :=
    hcount ▸ readRegister_eq_ok_iff.1 (by decide +kernel : readRegister 3 _ 0 = _)
  have htwo : NamesRegister m.registers.count "2" 2 :=
    hcount ▸ readRegister_eq_ok_iff.1 (by decide +kernel : readRegister 3 _ 0 = _)
  have hs : Statement.IsAccess ⟨"D 1,0(2)", 4, 16, 4⟩ m.registers.count (.arith .div) 1 "0(2)" :=
    ⟨"1", ⟨⟨"D", none, "D", ["1", ",", "0(2)"]⟩, by decide +kernel, by decide +kernel, rfl⟩, hone⟩
  have hs₁ : Statement.IsAccess ⟨"L 2,0(2)", 4, 16, 4⟩ m.registers.count .load 2 "0(2)" :=
    ⟨"2", ⟨⟨"L", none, "L", ["2", ",", "0(2)"]⟩, by decide +kernel, by decide +kernel, rfl⟩, htwo⟩
  have hs₂ : Statement.IsOperation ⟨"DR 1,2", 5, 20, 2⟩ m.registers.count (.arith .div) 1 2 :=
    ⟨"1", "2", ⟨⟨"DR", none, "DR", ["1", ",", "2"]⟩, by decide +kernel, by decide +kernel, rfl⟩,
      hone, htwo⟩
  obtain ⟨hiff, -, hthen⟩ := arith_by_way_of_register m .div (by decide) hs hs₁ hs₂
  obtain ⟨m₁, hm₁⟩ := hiff.1 ⟨m', hm'⟩
  obtain ⟨m₂, hm₂, hsame, hagree⟩ := hthen m' m₁ hm' hm₁
  exact ⟨m, m', m₁, m₂, hm, hm', hm₁, hm₂, hget, hsame.trans hget, hagree⟩

/-! ## Addresses -/

theorem locate_of_means {line a : Int} (h : m.Means u line a) (line' : Int) :
    m.locate u line' = .ok a := by
  obtain ⟨a', ha', rfl⟩ := (locate_alike m u line line').of_ok (locate_eq_ok_iff.2 h)
  exact ha'

theorem jumpTarget_recharged (program : List Statement) (address line line' : Int) :
    Alike (Failure.Recharged line line') Eq
      ((jumpTarget program address line).mapError .diagnostic)
      ((jumpTarget program address line').mapError .diagnostic) := by
  unfold jumpTarget
  split
  · exact .ok rfl
  · exact .error (.atLine _)

/-- An access does the same whatever the register aside holds, unless that is the register it
works on. -/
theorem access_agree (h : m.registers.AgreeBut j m₁.registers) (hmemory : m₁.memory = m.memory)
    (hk : k ≠ j) (hlt : k < m.registers.count) (op : MemoryOp) (address line line' : Int) :
    Alike (Failure.Recharged line line') (AgreeBut j) (m.access op k address line)
      (m₁.access op k address line') := by
  have hassign : ∀ v, AgreeBut j (m.assign k v) { m₁.assign k v with memory := m.memory } :=
    fun v => ⟨(h.assign hlt v).1, (h.assign hlt v).2, rfl⟩
  have hdescribe : ∀ v, (m.registers.describe v).AgreeBut j (m₁.registers.describe v) := fun _ =>
    ⟨h.count, h.others⟩
  unfold access
  -- the register aside is not read, so both compute the same value and write it in the same place
  rw [hmemory, h.others k hk]
  cases op with
  | arith op => exact (readWord_alike line line' _ address).bind_eq fun word => .ok (hassign _)
  | compare =>
    exact (readWord_alike line line' _ address).bind_eq fun _ => .ok ⟨hdescribe _, rfl, rfl⟩
  | load => exact (readWord_alike line line' _ address).bind_eq fun word => .ok (hassign word)
  | store =>
    exact (writeWord_alike line line' _ address _).bind_eq fun _ => .ok ⟨hdescribe _, rfl, rfl⟩
  | loadAddress => exact .ok (hassign address)

theorem execute_loadAddress {line a : Int} (hs : s.IsAccess m.registers.count .loadAddress i u)
    (hu : m.Means u line a) : m.execute s = .ok ((m.assign i a).advance s) := by
  rw [execute_access hs, locate_of_means hu]
  rfl

/-- A register holds the address that was written to it, unless that has wrapped. -/
theorem means_inRegister {a : Int} (s : Statement) (hq : NamesRegister m.registers.count q i)
    (ha : Word.Fits a) (line : Int) :
    ((m.assign i a).advance s).Means (Address.inRegister q) line a := by
  have hcount := Registers.count_assign m.registers i a
  refine ⟨.indirect i, Address.read_inRegister (hcount.symm ▸ hq) line, ?_⟩
  show Except.ok ((m.registers.assign i a).get i) = _
  rw [Registers.get_assign hq.lt, Word.wrap_of_fits ha]

/-- An address loaded into a register can be meant by way of it, whatever token meant it first and
whether or not there is memory or a statement at it. An access that works on another register and a
jump do the same either way, and where they fail they fail of the same cause. -/
theorem address_by_way_of_register (m : Machine) {i : Nat} {u q : String} {s : Statement}
    {line a : Int} (hs : s.IsAccess m.registers.count .loadAddress i u)
    (hq : NamesRegister m.registers.count q i) (hu : m.Means u line a) (ha : Word.Fits a) :
    ∃ m₁, m.execute s = .ok m₁ ∧ (∀ line', m₁.Means (Address.inRegister q) line' a)
      ∧ (∀ op k s₁ s₂, k ≠ i → Statement.IsAccess s₁ m.registers.count op k u →
        Statement.IsAccess s₂ m.registers.count op k (Address.inRegister q) →
          Alike (Failure.Recharged s₁.line s₂.line) (AgreeBut i) (m.execute s₁) (m₁.execute s₂))
      ∧ ∀ s₁ s₂, Statement.Holds s₁ (.jump .always) [u] →
        Statement.Holds s₂ (.jump .always) [Address.inRegister q] →
          Alike (Failure.Recharged s₁.line s₂.line)
            (fun m' m₂ => m₂.line = m'.line ∧ m₂.address = m'.address)
            (m.execute s₁) (m₁.execute s₂) := by
  have hmeans := means_inRegister s hq ha
  have hagree : m.registers.AgreeBut i ((m.assign i a).advance s).registers :=
    Registers.agreeBut_assign m.registers i a
  refine ⟨(m.assign i a).advance s, execute_loadAddress hs hu, hmeans, ?_, ?_⟩
  · intro op k s₁ s₂ hk hs₁ hs₂
    obtain ⟨t, hholds, ht⟩ := hs₂
    have haccess := access_agree hagree rfl hk ht.lt op a s₁.line s₂.line
    rw [execute_access hs₁, locate_of_means hu, execute_access (m := (m.assign i a).advance s)
      ⟨t, hholds, hagree.count.symm ▸ ht⟩, locate_of_means (hmeans 0)]
    exact haccess.bind fun _ _ h => .ok ⟨h.registers, h.flags, h.memory⟩
  · intro s₁ s₂ hs₁ hs₂
    have htarget := jumpTarget_recharged m.program a s₁.line s₂.line
    rw [execute_jump_of_holds hs₁, locate_of_means hu, execute_jump_of_holds hs₂,
      locate_of_means (hmeans 0)]
    exact htarget.bind_eq fun place => .ok ⟨rfl, rfl⟩

/-- An address in the register that the access writes, and a jump to it. -/
theorem address_by_way_of_register_own :
    ∃ m m₁ m' m₂ m₃, m = ((Engine.load ⟨1000, 3⟩ "K DC 8\nL 2,K\nLR 0,0\nLR 0,0").afterAll
        [.step, .step]).machine
      ∧ execute m ⟨"LA 1,0(2)", 2, 8, 4⟩ = .ok m₁ ∧ m₁.Means "0(1)" 4 8
      ∧ execute m ⟨"A 2,0(2)", 2, 8, 4⟩ = .ok m' ∧ execute m₁ ⟨"A 2,0(1)", 3, 12, 4⟩ = .ok m₂
      ∧ AgreeBut 1 m' m₂ ∧ execute m₁ ⟨"J 0(1)", 3, 12, 4⟩ = .ok m₃ ∧ m₃.line = 2
      ∧ m₃.address = 8 := by
  obtain ⟨m, hm⟩ : ∃ m, m = ((Engine.load ⟨1000, 3⟩ "K DC 8\nL 2,K\nLR 0,0\nLR 0,0").afterAll
    [.step, .step]).machine := ⟨_, rfl⟩
  have hrun : m.registers.count = 3 ∧ m.locate "0(2)" 0 = .ok 8
      ∧ (m.execute ⟨"A 2,0(2)", 2, 8, 4⟩).map (fun _ => ()) = .ok ()
      ∧ (m.execute ⟨"J 0(2)", 2, 8, 4⟩).map (fun m' => (m'.line, m'.address)) = .ok (2, 8) := by
    rw [hm]
    decide +kernel
  obtain ⟨hcount, hlocate, hadd, hjump⟩ := hrun
  obtain ⟨m', hm', -⟩ := map_eq_ok.1 hadd
  obtain ⟨m₀, hm₀, hplace⟩ := map_eq_ok.1 hjump
  obtain ⟨hline, haddress⟩ : m₀.line = 2 ∧ m₀.address = 8 := by simpa using hplace
  have hone : NamesRegister m.registers.count "1" 1 :=
    hcount ▸ readRegister_eq_ok_iff.1 (by decide +kernel : readRegister 3 _ 0 = _)
  have htwo : NamesRegister m.registers.count "2" 2 :=
    hcount ▸ readRegister_eq_ok_iff.1 (by decide +kernel : readRegister 3 _ 0 = _)
  obtain ⟨m₁, hm₁, hmeans, haccess, hjumps⟩ := address_by_way_of_register m (i := 1) (u := "0(2)")
    (q := "1") (s := ⟨"LA 1,0(2)", 2, 8, 4⟩)
    ⟨"1", ⟨⟨"LA", none, "LA", ["1", ",", "0(2)"]⟩, by decide +kernel, by decide +kernel, rfl⟩, hone⟩
    hone (locate_eq_ok_iff.1 hlocate) (by decide)
  obtain ⟨m₂, hm₂, hagree⟩ := (haccess (.arith .add) 2 ⟨"A 2,0(2)", 2, 8, 4⟩
    ⟨"A 2,0(1)", 3, 12, 4⟩ (by decide)
    ⟨"2", ⟨⟨"A", none, "A", ["2", ",", "0(2)"]⟩, by decide +kernel, by decide +kernel, rfl⟩, htwo⟩
    ⟨"2", ⟨⟨"A", none, "A", ["2", ",", "0(1)"]⟩, by decide +kernel, by decide +kernel, rfl⟩,
      htwo⟩).of_ok hm'
  obtain ⟨m₃, hm₃, hline₃, haddress₃⟩ := (hjumps ⟨"J 0(2)", 2, 8, 4⟩ ⟨"J 0(1)", 3, 12, 4⟩
    ⟨⟨"J", none, "J", ["0(2)"]⟩, by decide +kernel, by decide +kernel, rfl⟩
    ⟨⟨"J", none, "J", ["0(1)"]⟩, by decide +kernel, by decide +kernel, rfl⟩).of_ok hm₀
  exact ⟨m, m₁, m', m₂, m₃, hm, hm₁, hmeans 4, hm', hm₂, hagree, hm₃, hline₃.trans hline,
    haddress₃.trans haddress⟩

end Machine

end WordMachine
