import WordMachine.Proofs.Comparison
import WordMachine.Proofs.Frame
import WordMachine.Proofs.Stutter

/-!
# What the flags tell

Every instruction that works on registers tests one value and sets both flags from it
(`tests_of_step`): what it leaves in its first register, which has wrapped if the instruction wrote
it, or, for a comparison of registers, their exact difference. No other step touches the flags, so
along a run they tell the value tested last, however long ago that was (`idles_of_stepped`), and
nothing before the first.
-/

namespace WordMachine

namespace Machine

variable {m m' : Machine}

/-- The value that an instruction tests, from the machine before it and the machine after it. -/
inductive Tests (m m' : Machine) : Int → Prop
  | result {s : Statement} {mnemonic : Mnemonic} {t u : String} {i : Nat}
    (h : m.Faces s mnemonic [t, ",", u]) (hop : mnemonic.isOperation = true)
    (hne : mnemonic ≠ .register .compare) (hi : NamesRegister m.registers.count t i)
    (hkept : mnemonic = .memory .store ∨ mnemonic = .memory .compare →
      m'.registers.get i = m.registers.get i) : Tests m m' (m'.registers.get i)
  | difference {s : Statement} {t u : String} {i j : Nat}
    (h : m.Faces s (.register .compare) [t, ",", u]) (hi : NamesRegister m.registers.count t i)
    (hj : NamesRegister m.registers.count u j) :
    Tests m m' (m.registers.get i - m.registers.get j)

theorem tests_of_step (h : m.step = .ok m') (hop : m.operates = true) :
    ∃ v, m.Tests m' v ∧ m'.registers.flags = Flags.ofResult v := by
  obtain ⟨s, mnemonic, operands, hfaces, hop⟩ := faces_of_any hop
  rcases mnemonic with op | op | when | op
  · obtain ⟨t, u, i, j, rfl, hi, hj, rfl⟩ := (step_register_iff hfaces).1 h
    cases op with
    | arith op => exact ⟨_, .result hfaces rfl (by simp) hi (by simp), rfl⟩
    | compare => exact ⟨_, .difference hfaces hi hj, rfl⟩
    | load => exact ⟨_, .result hfaces rfl (by simp) hi (by simp), rfl⟩
  · obtain ⟨t, u, i, address, m₁, rfl, hi, -, haccess, rfl⟩ := (step_memory_iff hfaces).1 h
    refine ⟨_, .result hfaces rfl (by simp) hi fun hkept => ?_, ?_⟩
    · rcases access_cases haccess with ⟨hw, -⟩ | ⟨-, rfl⟩ | ⟨-, memory, -, rfl⟩
      · rcases hkept with hkept | hkept <;> cases hkept <;> cases hw
      · rfl
      · rfl
    · rcases access_cases haccess with ⟨-, v, rfl⟩ | ⟨-, rfl⟩ | ⟨-, memory, -, rfl⟩ <;> rfl
  · cases hop
  · cases hop

end Machine

namespace Engine

variable {source : String} {l : Layout} {config : Config} {k n : Nat}

theorem registers_stepped_zero (h : Layout.build (statements source) = .ok l) (config : Config) :
    (stepped config source 0).machine.registers = .fresh config.registerCount := by
  rw [stepped, List.replicate_zero, afterAll_cons, after_prepare (e := load config source) h]
  rfl

theorem stepped_succ (config : Config) (source : String) (k : Nat) :
    stepped config source (k + 1) = (stepped config source k).step.engine := by
  rw [stepped, List.replicate_succ', ← List.cons_append, afterAll, List.foldl_append]
  rfl

theorem idles_of_stepped (hkn : k ≤ n)
    (hrun : ∀ j < n, (stepped config source j).step.failure = none)
    (hno : ∀ j, k ≤ j → j < n → (stepped config source j).machine.operates = false) :
    (stepped config source k).Idles (stepped config source n) := by
  induction n, hkn using Nat.le_induction with
  | base => exact .refl
  | succ n hkn ih =>
    rw [stepped_succ]
    exact (ih (fun j hj => hrun j (by omega)) fun j hk hj => hno j hk (by omega)).step
      (hno n hkn (Nat.lt_succ_self n)) (hrun n (Nat.lt_succ_self n))

/-- Along a run without failures the flags are empty until an instruction works on registers, and
then tell the value that the last such instruction has tested, whatever came after it. -/
theorem flags_of_last_test (h : Layout.build (statements source) = .ok l) (config : Config)
    (n : Nat) (hrun : ∀ k < n, (stepped config source k).step.failure = none) :
    let m := fun k => (stepped config source k).machine
    let flags := (m n).registers.flags
    ((∀ k < n, (m k).operates = false) → flags = {})
      ∧ ∀ k < n, (m k).operates = true → (∀ j, k < j → j < n → (m j).operates = false) →
        ∃ v, (m k).Tests (m (k + 1)) v ∧ (flags.zero = true ↔ v = 0) ∧ (flags.sign = true ↔ v < 0)
          ∧ flags.spare = 0 := by
  intro m flags
  have hlaid : ∀ k, (stepped config source k).laidOut = true := fun k =>
    laidOut_afterAll_prepare h config _
  refine ⟨fun hno => ?_, fun k hk hop hno => ?_⟩
  · have hidles := idles_of_stepped (Nat.zero_le n) hrun fun j _ hj => hno j hj
    simp only [flags, m, (hidles.keeps (hlaid 0)).1, registers_stepped_zero h]
    rfl
  · have hstep : (m k).step = .ok (m (k + 1)) := by
      simp only [m, stepped_succ]
      exact machine_step_of_success (hlaid k) (hrun k hk)
    obtain ⟨v, htests, hflags⟩ := Machine.tests_of_step hstep hop
    -- the flags it has set stay, since all steps after it idle
    have hidles := idles_of_stepped (Nat.succ_le_of_lt hk) hrun hno
    have hkept : flags = Flags.ofResult v := by
      simp only [flags, m, (hidles.keeps (hlaid (k + 1))).1]
      exact hflags
    rw [hkept]
    exact ⟨v, htests, by simp [Flags.ofResult], by simp [Flags.ofResult], rfl⟩

/-- A sum wraps and is negative. After that come a comment, a jump that is not taken, one that is,
another that is not, and a step past the end. -/
theorem flags_of_last_test_wrapped :
    ∃ e, e = stepped ⟨1000, 2⟩
        "B DC 2147483647\nO DC 1\nL 1,B\nA 1,O\n#\nJP 0\nJN X\nLR 0,0\nX JZ 0"
      ∧ (∀ k < 9, (e k).step.failure = none) ∧ (e 3).machine.operates = true
      ∧ (∀ j, 3 < j → j < 9 → (e j).machine.operates = false)
      ∧ (e 4).machine.registers.get 1 = -2147483648 ∧ (e 8).machine.atEnd = true
      ∧ (e 9).machine.registers.flags.sign = true
      ∧ ∃ v, (e 3).machine.Tests (e 4).machine v ∧ v < 0 := by
  have hbuild : (Layout.build (statements
      "B DC 2147483647\nO DC 1\nL 1,B\nA 1,O\n#\nJP 0\nJN X\nLR 0,0\nX JZ 0")).map Layout.size
      = .ok 30 := by
    decide +kernel
  obtain ⟨l, hl, -⟩ := map_eq_ok.1 hbuild
  have hflags := flags_of_last_test hl ⟨1000, 2⟩ 9
  generalize he : stepped ⟨1000, 2⟩
    "B DC 2147483647\nO DC 1\nL 1,B\nA 1,O\n#\nJP 0\nJN X\nLR 0,0\nX JZ 0" = e at hflags
  have hsteps : (∀ k < 9, (e k).step.failure = none ∧ (3 < k → (e k).machine.operates = false))
      ∧ (e 3).machine.operates = true ∧ (e 4).machine.registers.get 1 = -2147483648
      ∧ (e 8).machine.atEnd = true ∧ (e 9).machine.registers.flags.sign = true := by
    rw [← he]
    decide +kernel
  obtain ⟨hrun, hop, hget, hend, hsign⟩ := hsteps
  have hidle : ∀ j, 3 < j → j < 9 → (e j).machine.operates = false := fun j hlow hhigh =>
    (hrun j hhigh).2 hlow
  obtain ⟨-, hlast⟩ := hflags fun k hk => (hrun k hk).1
  obtain ⟨v, htests, -, hnegative, -⟩ := hlast 3 (by decide) hop hidle
  exact ⟨e, rfl, fun k hk => (hrun k hk).1, hop, hidle, hget, hend, hsign, v, htests,
    hnegative.1 hsign⟩

end Engine

end WordMachine
