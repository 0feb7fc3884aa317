import WordMachine.Proofs.Bare
import WordMachine.Proofs.Execution

/-!
# Comparing and then jumping

A comparison of two registers sets the flags from their exact difference, which need not be a word,
so a jump on those flags goes by the order of the two numbers (`Condition.holds_ofResult_iff`). A
comparison with memory reads the word but leaves the flags of the register alone, that is of its
comparison with zero. Jumps, declarations and blank lines keep registers, flags and memory
(`Idles.keeps`), so one comparison serves all the jumps that follow it (`decidesJumps_of_flags`).
-/

namespace WordMachine

/-- What a condition says of two numbers that were compared. -/
def Condition.Compares : Condition → Int → Int → Prop
  | .always, _, _ => True
  | .zero, x, y => x = y
  | .negative, x, y => x < y
  | .notNegative, x, y => y ≤ x

instance (when : Condition) (x y : Int) : Decidable (when.Compares x y) :=
  match when with
  | .always => inferInstanceAs (Decidable True)
  | .zero => inferInstanceAs (Decidable (x = y))
  | .negative => inferInstanceAs (Decidable (x < y))
  | .notNegative => inferInstanceAs (Decidable (y ≤ x))

theorem Condition.holds_ofResult_iff (when : Condition) (x y : Int) :
    when.holds (Flags.ofResult (x - y)) = true ↔ when.Compares x y := by
  cases when with
  | always => simp [holds, Compares]
  | notNegative =>
    simp only [holds, Flags.ofResult, Compares, Bool.not_eq_true', decide_eq_false_iff_not]
    omega
  | zero =>
    simp only [holds, Flags.ofResult, Compares, beq_iff_eq]
    omega
  | negative =>
    simp only [holds, Flags.ofResult, Compares, decide_eq_true_eq]
    omega

namespace Machine

variable {m m' : Machine} {s : Statement}

/-- What a jump makes of a machine. Taken, it leads to a place and the address of that; otherwise it
goes on with the next statement. Registers, flags and memory stay as they are. -/
structure Jumps (taken : Prop) (s : Statement) (address : Int) (place : Nat) (m m' : Machine) :
    Prop where
  registers : m'.registers = m.registers
  memory : m'.memory = m.memory
  leads : taken → m'.line = place ∧ m'.address = address
  passes : ¬ taken → m'.line = m.line + 1 ∧ m'.address = m.address + s.size

theorem jumps_of_flags {when : Condition} {t : String} {x y address : Int} {place : Nat}
    (hfaces : m.Faces s (.jump when) [t]) (hmeans : m.Means t s.line address)
    (htarget : jumpTarget m.program address s.line = .ok place)
    (hflags : m.registers.flags = Flags.ofResult (x - y)) :
    ∃ m', m.step = .ok m' ∧ Jumps (when.Compares x y) s address place m m' := by
  refine ⟨_, (step_jump_iff hfaces).2 ⟨t, address, place, rfl, hmeans, htarget, rfl⟩, ?_⟩
  have hholds : when.holds m.registers.flags = true ↔ when.Compares x y := by
    rw [hflags, Condition.holds_ofResult_iff]
  by_cases htaken : when.Compares x y
  · rw [if_pos (hholds.2 htaken)]
    exact ⟨rfl, rfl, fun _ => ⟨rfl, rfl⟩, fun hnot => absurd htaken hnot⟩
  · rw [if_neg (mt hholds.1 htaken)]
    exact ⟨rfl, rfl, fun h => absurd h htaken, fun _ => ⟨rfl, rfl⟩⟩

/-- A comparison of registers writes none of them, and its flags tell the difference. -/
theorem step_compare {t u : String} {i j : Nat}
    (hfaces : m.Faces s (.register .compare) [t, ",", u])
    (hi : NamesRegister m.registers.count t i) (hj : NamesRegister m.registers.count u j) :
    ∃ m', m.step = .ok m' ∧ m'.registers.values = m.registers.values ∧ m'.memory = m.memory
      ∧ m'.registers.flags = Flags.ofResult (m.registers.get i - m.registers.get j) :=
  ⟨_, (step_register_iff hfaces).2 ⟨t, u, i, j, rfl, hi, hj, rfl⟩, rfl, rfl, rfl⟩

/-- A comparison with memory leaves the flags that comparing the register with zero would. -/
theorem step_compare_memory {operands : List String}
    (hfaces : m.Faces s (.memory .compare) operands) (h : m.step = .ok m') :
    ∃ t u i, operands = [t, ",", u] ∧ NamesRegister m.registers.count t i
      ∧ m'.registers.values = m.registers.values ∧ m'.memory = m.memory
      ∧ m'.registers.flags = Flags.ofResult (m.registers.get i - 0) := by
  obtain ⟨t, u, i, address, m₁, hoperands, hi, -, ha, rfl⟩ := (step_memory_iff hfaces).1 h
  obtain ⟨word, -, ha⟩ := bind_eq_ok.1 ha
  cases ha
  exact ⟨t, u, i, hoperands, hi, rfl, rfl, by rw [Int.sub_zero]; rfl⟩

end Machine

namespace Engine

/-- One engine comes from another by steps that succeed and do not work on registers. -/
inductive Idles (e : Engine) : Engine → Prop
  | refl : Idles e e
  | step {e' : Engine} (h : Idles e e') (hno : e'.machine.operates = false)
    (hok : e'.step.failure = none) : Idles e e'.step.engine

/-- From an engine on, as long as nothing works on registers, every jump to a statement is taken as
the comparison of two numbers says, and, in a text that can be counted, succeeds. -/
def DecidesJumps (source : String) (e : Engine) (x y : Int) : Prop :=
  ∀ (e' : Engine) (s : Statement) (when : Condition) (t : String) (address : Int) (place : Nat),
    e.Idles e' → e'.machine.Faces s (.jump when) [t] → e'.resolve t s.line = .ok address →
    jumpTarget e'.machine.program address s.line = .ok place →
      (source.length < indexLimit → e'.step.failure = none)
        ∧ (e'.step.failure = none → Machine.Jumps (when.Compares x y) s address place e'.machine
          e'.step.engine.machine)

variable {e e' : Engine}

theorem Idles.exists_calls (h : Idles e e') : ∃ calls, e' = e.afterAll calls := by
  induction h with
  | refl => exact ⟨[], rfl⟩
  | step _ _ _ ih =>
    obtain ⟨calls, rfl⟩ := ih
    exact ⟨calls ++ [.step], by rw [afterAll, afterAll, List.foldl_append]; rfl⟩

theorem Idles.keeps (h : Idles e e') (hlaid : e.laidOut = true) :
    e'.machine.registers = e.machine.registers ∧ e'.machine.memory = e.machine.memory := by
  induction h with
  | refl => exact ⟨rfl, rfl⟩
  | step h hno hok ih =>
    obtain ⟨calls, rfl⟩ := h.exists_calls
    have hstep := machine_step_of_success (laidOut_afterAll hlaid calls) hok
    obtain ⟨hregisters, hmemory⟩ := Machine.step_of_not_operates hno hstep
    exact ⟨hregisters.trans ih.1, hmemory.trans ih.2⟩

section Reached

variable {config : Config} {source : String} {calls : List Call} {m : Machine}

theorem success_of_step (he : e = (load config source).afterAll calls) (hlaid : e.laidOut = true)
    (hlen : source.length < indexLimit) (hs : e.machine.step = .ok m) : e.step.failure = none := by
  subst he
  obtain ⟨l, hl, hpos⟩ := (consistent_afterAll config source calls).2 hlaid
  rw [step_of_attempt_ok hlaid (by rw [Machine.attempt_eq_step hl hlen hpos, hs])]

theorem decidesJumps_of_flags {x y : Int} (he : e = (load config source).afterAll calls)
    (hlaid : e.laidOut = true) (hflags : e.machine.registers.flags = Flags.ofResult (x - y)) :
    e.DecidesJumps source x y := by
  intro e' s when t address place hidles hfaces hresolve htarget
  rw [← (hidles.keeps hlaid).1] at hflags
  obtain ⟨more, hmore⟩ := hidles.exists_calls
  have hlaid' : e'.laidOut = true := hmore ▸ laidOut_afterAll hlaid more
  have he' : e' = (load config source).afterAll (calls ++ more) := by
    rw [hmore, he, afterAll, afterAll, afterAll, List.foldl_append]
  obtain ⟨m', hs, hjumps⟩ :=
    Machine.jumps_of_flags hfaces (resolve_eq_ok_iff.1 hresolve) htarget hflags
  refine ⟨fun hlen => success_of_step he' hlaid' hlen hs, fun hok => ?_⟩
  have hsame := hs.symm.trans (machine_step_of_success hlaid' hok)
  exact Except.ok.inj hsame ▸ hjumps

end Reached

/-- After a comparison of two registers, which changes neither registers nor memory, jumps are taken
as the numbers in them compare, also where their difference is no word; after a comparison with
memory as the number in the register compares with zero, whatever the word. -/
theorem jump_after_compare (config : Config) (source : String) (calls : List Call)
    (hlaid : ((load config source).afterAll calls).laidOut = true) (s : Statement) :
    let e := (load config source).afterAll calls
    let m := e.machine
    let m' := e.step.engine.machine
    (∀ t u i j, m.Faces s (.register .compare) [t, ",", u] →
        NamesRegister m.registers.count t i → NamesRegister m.registers.count u j →
          (source.length < indexLimit → e.step.failure = none)
            ∧ (e.step.failure = none →
              m'.registers.values = m.registers.values ∧ m'.memory = m.memory
                ∧ e.step.engine.DecidesJumps source (m.registers.get i) (m.registers.get j)))
      ∧ ∀ operands, m.Faces s (.memory .compare) operands → e.step.failure = none →
        ∃ t u i, operands = [t, ",", u] ∧ NamesRegister m.registers.count t i
          ∧ m'.registers.values = m.registers.values ∧ m'.memory = m.memory
          ∧ e.step.engine.DecidesJumps source (m.registers.get i) 0 := by
  intro e m m'
  have hnext : e.step.engine = (load config source).afterAll (calls ++ [.step]) := by
    rw [afterAll, List.foldl_append]
    rfl
  have hlaid' : e.step.engine.laidOut = true := laidOut_afterAll hlaid [.step]
  refine ⟨fun t u i j hfaces hi hj => ?_, fun operands hfaces hok => ?_⟩
  · obtain ⟨m₁, hs, hvalues, hmemory, hflags⟩ := Machine.step_compare hfaces hi hj
    refine ⟨fun hlen => success_of_step rfl hlaid hlen hs, fun hok => ?_⟩
    obtain rfl : m₁ = m' := Except.ok.inj (hs.symm.trans (machine_step_of_success hlaid hok))
    exact ⟨hvalues, hmemory, decidesJumps_of_flags hnext hlaid' hflags⟩
  · obtain ⟨t, u, i, hoperands, hi, hvalues, hmemory, hflags⟩ :=
      Machine.step_compare_memory hfaces (machine_step_of_success hlaid hok)
    exact ⟨t, u, i, hoperands, hi, hvalues, hmemory, decidesJumps_of_flags hnext hlaid' hflags⟩

/-- The greatest word is compared with minus one, and their difference is no word. After that come a
comment, a jump that is not taken because the greatest is not the lesser, and one that is taken. -/
theorem jump_after_compare_overflow :
    ∃ source e e₁,
      source = "B DC 2147483647\nN DC -1\nL 1,B\nL 2,N\nCR 1,2\n#\nJN X\nJP X\nLR 0,0\nX LR 0,1"
      ∧ e = (load ⟨1000, 3⟩ source).afterAll [.step, .step, .step, .step]
      ∧ e.machine.Faces ⟨"CR 1,2", 4, 16, 2⟩ (.register .compare) ["1", ",", "2"]
      ∧ e.machine.registers.get 1 = 2147483647 ∧ e.machine.registers.get 2 = -1
      ∧ e.step.engine.Idles e₁ ∧ e₁.machine.line = 7
      ∧ e₁.machine.Faces ⟨"JP X", 7, 22, 4⟩ (.jump .notNegative) ["X"]
      ∧ e₁.step.engine.machine.line = 9 ∧ e₁.step.engine.machine.address = 28 := by
  obtain ⟨e, he⟩ : ∃ e, e = (load ⟨1000, 3⟩
      "B DC 2147483647\nN DC -1\nL 1,B\nL 2,N\nCR 1,2\n#\nJN X\nJP X\nLR 0,0\nX LR 0,1").afterAll
      [.step, .step, .step, .step] := ⟨_, rfl⟩
  obtain ⟨e₁, he₁⟩ : ∃ e₁, e₁ = e.step.engine.step.engine.step.engine := ⟨_, rfl⟩
  have hrun : (e.laidOut = true ∧ e.machine.current? = some ⟨"CR 1,2", 4, 16, 2⟩
        ∧ e.machine.registers.get 1 = 2147483647 ∧ e.machine.registers.get 2 = -1
        ∧ readRegister e.machine.registers.count "1".toList 5 = .ok 1
        ∧ readRegister e.machine.registers.count "2".toList 5 = .ok 2 ∧ e.step.failure = none)
      ∧ (e.step.engine.machine.operates = false ∧ e.step.engine.step.failure = none
        ∧ e.step.engine.step.engine.machine.operates = false
        ∧ e.step.engine.step.engine.step.failure = none)
      ∧ e₁.machine.line = 7 ∧ e₁.machine.current? = some ⟨"JP X", 7, 22, 4⟩
        ∧ e₁.resolve "X" 8 = .ok 28 ∧ jumpTarget e₁.machine.program 28 8 = .ok 9
        ∧ e₁.step.failure = none := by
    rw [he₁, he]
    decide +kernel
  obtain ⟨⟨hlaid, hcurrent, hone, htwo, hfirst, hsecond, hok⟩,
    ⟨hcomment, hcommentOk, hpassed, hpassedOk⟩, hline, hcurrent₁, hresolve, htarget, hok₁⟩ := hrun
  have hidles : e.step.engine.Idles e₁ :=
    he₁ ▸ (Idles.refl.step hcomment hcommentOk).step hpassed hpassedOk
  have hfaces : e.machine.Faces ⟨"CR 1,2", 4, 16, 2⟩ (.register .compare) ["1", ",", "2"] :=
    ⟨hcurrent, ⟨"CR", none, "CR", ["1", ",", "2"]⟩, by decide +kernel, by decide +kernel, rfl⟩
  have hfaces₁ : e₁.machine.Faces ⟨"JP X", 7, 22, 4⟩ (.jump .notNegative) ["X"] :=
    ⟨hcurrent₁, ⟨"JP", none, "JP", ["X"]⟩, by decide +kernel, by decide +kernel, rfl⟩
  have hafter := jump_after_compare ⟨1000, 3⟩ _ _ (he ▸ hlaid) ⟨"CR 1,2", 4, 16, 2⟩
  rw [← he] at hafter
  obtain ⟨-, -, hdecides⟩ := (hafter.1 "1" "2" 1 2 hfaces (readRegister_eq_ok_iff.1 hfirst)
    (readRegister_eq_ok_iff.1 hsecond)).2 hok
  have hjumps := (hdecides e₁ _ _ "X" 28 9 hidles hfaces₁ hresolve htarget).2 hok₁
  obtain ⟨hled, haddress⟩ := hjumps.leads (by rw [hone, htwo]; decide)
  exact ⟨_, e, e₁, rfl, he, hfaces, hone, htwo, hidles, hline, hfaces₁, hled, haddress⟩

end Engine

end WordMachine
