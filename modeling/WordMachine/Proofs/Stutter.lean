import WordMachine.Proofs.Padding
import WordMachine.Proofs.Runs

/-!
# Lines without code in a run

A program and the same program with lines without code put in run side by side (`Beside`): the
second stands where the next line of the first has gone, with the same registers, memory and
address. A statement does the same in both and fails in both, charged to its own line
(`execute_alike`). Where the first moves on by one line the second still has to pass the lines put
in there, one step each (`catch_up`); where it jumps, both land at once. So for every step of the
first the second takes one or more (`Beside.step`), and a run of the first is matched by one that is
no shorter (`Beside.stepN`).
-/

namespace WordMachine

open Text

/-- The same failure, charged to the second line where the first is charged. -/
inductive Failure.Recharged (line line' : Int) : Failure → Failure → Prop
  | atLine (cause : Cause) : Recharged line line' (.atLine line cause) (.atLine line' cause)
  | refusal (r : Refusal) : Recharged line line' (.refusal r) (.refusal r)

theorem Failure.Recharged.report {line line' : Int} (cause : Cause) :
    Recharged line line' (.report ⟨cause, some line⟩) (.report ⟨cause, some line'⟩) := by
  unfold Failure.report
  split_ifs
  · exact .atLine cause
  · exact .refusal _

/-- Charged to one line, the same failure is the same. -/
theorem Failure.Recharged.eq {line : Int} (f f' : Failure) (h : Recharged line line f f') :
    f = f' := by
  cases h <;> rfl

section Decode

variable (count : Nat) (line line' : Int)

theorem readNumber_alike (cs : List Char) :
    Alike (Failure.Recharged line line') Eq (readNumber cs) (readNumber cs) := by
  unfold readNumber
  split
  · exact .ok rfl
  · exact .error (.refusal _)

theorem readRegister_alike (cs : List Char) :
    Alike (Failure.Recharged line line') Eq (readRegister count cs line)
      (readRegister count cs line') := by
  simp only [readRegister]
  split_ifs
  · refine (readNumber_alike line line' cs).bind_eq fun n => ?_
    split_ifs
    · exact .ok rfl
    · exact .error (.atLine _)
  · exact .error (.atLine _)

theorem Address.read_alike (token : String) :
    Alike (Failure.Recharged line line') Eq (Address.read count token line)
      (Address.read count token line') := by
  unfold Address.read
  split_ifs
  · refine (readNumber_alike line line' _).bind_eq fun n => ?_
    exact .ok rfl
  · split
    · refine (readRegister_alike count line line' _).bind_eq fun r => ?_
      exact .ok rfl
    · exact .ok rfl

theorem readPair_alike (m : Mnemonic) (operands : List String) :
    Alike (Failure.Recharged line line') Eq (readPair count m operands line)
      (readPair count m operands line') := by
  unfold readPair
  split
  · split_ifs
    · refine (readRegister_alike count line line' _).bind_eq fun r => ?_
      exact .ok rfl
    · exact .error (.atLine _)
  · exact .error (.atLine _)

theorem Instruction.decode_alike (m : Mnemonic) (operands : List String) :
    Alike (Failure.Recharged line line') Eq (Instruction.decode count m operands line)
      (Instruction.decode count m operands line') := by
  unfold Instruction.decode
  split
  · refine (readPair_alike count line line' _ operands).bind_eq fun pair => ?_
    refine (readRegister_alike count line line' _).bind_eq fun source => ?_
    exact .ok rfl
  · refine (readPair_alike count line line' _ operands).bind_eq fun pair => ?_
    refine (Address.read_alike count line line' _).bind_eq fun source => ?_
    exact .ok rfl
  · split
    · refine (Address.read_alike count line line' _).bind_eq fun target => ?_
      exact .ok rfl
    · exact .error (.atLine _)
  · exact .ok rfl

end Decode

/-- A program in another, with statements that carry their places. -/
structure Embedding (f : Nat → Nat) (p p' : List Statement) : Prop where
  spread : Spread f p p'
  numbered : NumberedFrom 0 p
  numbered' : NumberedFrom 0 p'
  mono : ∀ i j, i < j → j < p.length → f i < f j

/-- Where the second program stands when the first stands at a place: at the line to which that has
gone, or at its own end. -/
def landing (f : Nat → Nat) (p p' : List Statement) (n : Nat) : Nat :=
  if n < p.length then f n else p'.length

namespace Embedding

variable {f : Nat → Nat} {p p' : List Statement} {n j : Nat} {s t : Statement}

theorem kept (h : Embedding f p p') (hs : p[n]? = some s) : p'[f n]? = some (s.moved f) := by
  obtain ⟨j, hj⟩ := List.getElem?_of_mem (h.spread.moved_mem (List.mem_of_getElem? hs))
  have hn := Statement.index_moved (by simpa using h.numbered n s hs) f
  have hj' := h.numbered' j _ hj
  rwa [show f n = j by omega]

theorem blank (h : Embedding f p p') (ht : p'[j]? = some t) (hne : ∀ i < p.length, f i ≠ j) :
    CodeLine.parse? t.text = none ∧ t.size = 0 := by
  rcases h.spread.mem_cases (List.mem_of_getElem? ht) with ⟨s, hs, rfl⟩ | hblank
  · obtain ⟨n, hn⟩ := List.getElem?_of_mem hs
    have hmoved := Statement.index_moved (by simpa using h.numbered n s hn) f
    have hj := h.numbered' j _ ht
    exact absurd (by omega) (hne n (List.getElem?_eq_some_iff.1 hn).1)
  · exact hblank

theorem landing_le (h : Embedding f p p') (n : Nat) : landing f p p' n ≤ p'.length := by
  unfold landing
  split_ifs with hn
  · exact Nat.le_of_lt (List.getElem?_eq_some_iff.1 (h.kept (List.getElem?_eq_getElem hn))).1
  · exact le_rfl

theorem lt_landing_succ (h : Embedding f p p') (hn : n < p.length) :
    f n < landing f p p' (n + 1) := by
  unfold landing
  split_ifs with hn'
  · exact h.mono n (n + 1) (Nat.lt_succ_self n) hn'
  · exact (List.getElem?_eq_some_iff.1 (h.kept (List.getElem?_eq_getElem hn))).1

/-- Between the lines before a place and the line at it there are only lines put in. -/
theorem gap (h : Embedding f p p') (hbefore : ∀ i < n, f i < j) (hj : j < landing f p p' n) :
    ∀ i < p.length, f i ≠ j := by
  intro i hi hfi
  rcases Nat.lt_or_ge i n with hin | hin
  · have := hbefore i hin
    omega
  · rw [landing, if_pos (by omega)] at hj
    rcases Nat.eq_or_lt_of_le hin with rfl | hlt
    · omega
    · have := h.mono n i hlt hi
      omega

end Embedding

namespace Machine

variable {f : Nat → Nat} {m m' m₁ : Machine} {s : Statement}

/-- The machines differ in the program that they run, in where they stand in it and in how many
steps they have taken, and in nothing else. -/
structure Twin (f : Nat → Nat) (m m' : Machine) : Prop where
  program : Embedding f m.program m'.program
  symbols : m'.symbols = m.symbols.moved f
  registers : m'.registers = m.registers
  memory : m'.memory = m.memory
  address : m'.address = m.address

/-- Two machines after one statement: both went on with the same registers and memory, or both
jumped. -/
inductive Together (f : Nat → Nat) (m m' : Machine) (s : Statement) : Machine → Machine → Prop
  | onward (registers : Registers) (memory : Memory) :
    Together f m m' s ({ m with registers, memory }.advance s)
      ({ m' with registers, memory }.advance (s.moved f))
  | jump {place : Nat} {address : Int} (h : target? m.program address = some place) :
    Together f m m' s { m with line := place, address }
      { m' with line := (f place : Nat), address }

section Execute

variable (line line' : Int)

theorem resolve_alike (h : Twin f m m') (a : Address) :
    Alike (Failure.Recharged line line') Eq (m.resolve a line) (m'.resolve a line') := by
  cases a with
  | absolute n => exact .ok rfl
  | indirect r =>
    simp only [resolve, h.registers]
    exact .ok rfl
  | label name =>
    simp only [resolve, h.symbols, Symbols.addressOf?_moved]
    split
    · exact .ok rfl
    · exact .error (.atLine _)

theorem readWord_alike (memory : Memory) (address : Int) :
    Alike (Failure.Recharged line line') Eq (memory.readWord address line)
      (memory.readWord address line') := by
  unfold Memory.readWord
  split_ifs
  · exact .ok rfl
  · exact .error (.report _)

theorem writeWord_alike (memory : Memory) (address value : Int) :
    Alike (Failure.Recharged line line') Eq (memory.writeWord address value line)
      (memory.writeWord address value line') := by
  unfold Memory.writeWord
  split_ifs
  · exact .ok rfl
  · exact .error (.report _)

theorem access_alike (h : Twin f m m') (op : MemoryOp) (i : Nat) (address : Int) :
    Alike (Failure.Recharged line line')
      (fun m₁ m₁' => ∃ registers memory, m₁ = { m with registers, memory }
        ∧ m₁' = { m' with registers, memory })
      (m.access op i address line) (m'.access op i address line') := by
  unfold access
  rw [h.registers, h.memory]
  cases op with
  | arith op =>
    refine (readWord_alike line line' m.memory address).bind_eq fun word => ?_
    exact .ok ⟨_, m.memory, rfl, by rw [← h.memory]⟩
  | compare =>
    refine (readWord_alike line line' m.memory address).bind_eq fun _ => ?_
    exact .ok ⟨_, m.memory, rfl, by rw [← h.memory]⟩
  | load =>
    refine (readWord_alike line line' m.memory address).bind_eq fun word => ?_
    exact .ok ⟨_, m.memory, rfl, by rw [← h.memory]⟩
  | store =>
    refine (writeWord_alike line line' m.memory address _).bind_eq fun memory => ?_
    exact .ok ⟨_, memory, rfl, rfl⟩
  | loadAddress => exact .ok ⟨_, m.memory, rfl, by rw [← h.memory]⟩

theorem jumpTarget_alike (h : Twin f m m') (address : Int) :
    Alike (Failure.Recharged line line')
      (fun place place' => target? m.program address = some place ∧ place' = f place)
      ((jumpTarget m.program address line).mapError .diagnostic)
      ((jumpTarget m'.program address line').mapError .diagnostic) := by
  unfold jumpTarget
  rw [target?_spread h.program.spread h.program.numbered h.program.numbered']
  rcases target? m.program address with _ | place
  · exact .error (.atLine _)
  · exact .ok ⟨rfl, rfl⟩

/-- What leaves memory alone leaves the machines together. -/
theorem Twin.onward (h : Twin f m m') (s : Statement) (registers : Registers) :
    Together f m m' s ({ m with registers }.advance s)
      ({ m' with registers }.advance (s.moved f)) := by
  have hboth : Together f m m' s _ _ := .onward registers m.memory
  rwa [show ({ m' with registers, memory := m.memory } : Machine) = { m' with registers } by
    rw [← h.memory]] at hboth

theorem Twin.unchanged (h : Twin f m m') (s : Statement) :
    Together f m m' s (m.advance s) (m'.advance (s.moved f)) := by
  have hboth := h.onward s m.registers
  rwa [show ({ m' with registers := m.registers } : Machine) = m' by rw [← h.registers]] at hboth

theorem perform_alike (h : Twin f m m') (i : Instruction) :
    Alike (Failure.Recharged s.line (s.moved f).line) (Together f m m' s) (m.perform s i)
      (m'.perform (s.moved f) i) := by
  cases i with
  | register op i j =>
    simp only [perform, h.registers]
    exact .ok (h.onward s _)
  | memory op i a =>
    refine (resolve_alike _ _ h a).bind_eq fun address => ?_
    refine (access_alike _ _ h op i address).bind fun m₁ m₁' hm => ?_
    obtain ⟨registers, memory, rfl, rfl⟩ := hm
    exact .ok (.onward registers memory)
  | jump when a =>
    refine (resolve_alike _ _ h a).bind_eq fun address => ?_
    refine (jumpTarget_alike _ _ h address).bind fun place _ hp => ?_
    obtain ⟨hp, rfl⟩ := hp
    rw [show when.holds m'.registers.flags = when.holds m.registers.flags by rw [h.registers]]
    split_ifs
    · exact .ok (.jump hp)
    · exact .ok (h.unchanged s)
  | data => exact .ok (h.unchanged s)

theorem execute_alike (h : Twin f m m') (s : Statement) :
    Alike (Failure.Recharged s.line (s.moved f).line) (Together f m m' s) (m.execute s)
      (m'.execute (s.moved f)) := by
  have hdecode : ∀ l, Alike (Failure.Recharged s.line (s.moved f).line) Eq (m.decode s l)
      (m'.decode (s.moved f) l) := by
    intro l
    unfold decode
    rw [h.registers]
    split
    · exact .error (.atLine _)
    · exact Instruction.decode_alike _ _ _ _ _
  unfold execute
  rw [show (s.moved f).text = s.text from rfl]
  split
  · exact .ok (h.unchanged s)
  · rename_i l _
    refine (hdecode l).bind_eq fun i => ?_
    exact perform_alike h i

end Execute

section Step

theorem step_of_getElem? {n : Nat} (hline : m.line = n) (hs : m.program[n]? = some s) :
    m.step = (m.execute s).map tick := by
  have hn := (List.getElem?_eq_some_iff.1 hs).1
  have he : ¬ m.atEnd = true := fun he => by
    have := (atEnd_of_line hline).1 he
    omega
  unfold step
  rw [if_neg he, current?_of_line hline, hs]

/-- A line put in is passed over in one step. -/
theorem Twin.pass {j : Nat} {t : Statement} (h : Twin f m m') (hline : m'.line = j)
    (ht : m'.program[j]? = some t) (hcode : CodeLine.parse? t.text = none) (hsize : t.size = 0) :
    ∃ m'', m'.step = .ok m'' ∧ Twin f m m'' ∧ m''.line = (j + 1 : Nat) := by
  have hx : m'.execute t = .ok (m'.advance t) := by
    unfold execute
    rw [hcode]
  refine ⟨(m'.advance t).tick, by rw [step_of_getElem? hline ht, hx]; rfl, ?_, ?_⟩
  · exact ⟨h.program, h.symbols, h.registers, h.memory, by simp [tick, advance, hsize, h.address]⟩
  · simp [tick, advance, hline]

/-- The first machine stands at a line or at the end, and the second where that has gone. -/
structure Beside (f : Nat → Nat) (m m' : Machine) : Prop extends Twin f m m' where
  position : ∃ n : Nat, n ≤ m.program.length ∧ m.line = n
    ∧ m'.line = landing f m.program m'.program n

/-- The second machine passes the lines put in before the place at which the first stands. -/
theorem Twin.catch_up {n : Nat} : ∀ {d j : Nat} {m' : Machine}, Twin f m m' →
    n ≤ m.program.length → m.line = n → m'.line = j →
      landing f m.program m'.program n = j + d → (∀ i < n, f i < j) →
      ∃ m'', m'.stepN d = .ok m'' ∧ Beside f m m''
  | 0, j, m', h, hn, hline, hj, hland, _ => ⟨m', rfl, h, n, hn, hline, by rw [hj, hland]; simp⟩
  | d + 1, j, m', h, hn, hline, hj, hland, hbefore => by
    -- no line of the first program has gone here, so this one was put in
    have hlt : j < m'.program.length := by
      have := h.program.landing_le n
      omega
    have hget := List.getElem?_eq_getElem hlt
    obtain ⟨hcode, hsize⟩ := h.program.blank hget (h.program.gap hbefore (by omega))
    obtain ⟨m₁, hstep, h₁, hline₁⟩ := h.pass hj hget hcode hsize
    have hprog := program_step hstep
    obtain ⟨m'', hm'', hbeside⟩ := Twin.catch_up (d := d) h₁ hn hline hline₁ (by rw [hprog]; omega)
      fun i hi => Nat.lt_succ_of_lt (hbefore i hi)
    exact ⟨m'', by rw [stepN_succ_of_step hstep, hm''], hbeside⟩

namespace Beside

theorem before_end (h : Beside f m m') (he : m.atEnd = false) :
    ∃ n : Nat, n < m.program.length ∧ m.line = n ∧ m'.line = f n := by
  obtain ⟨n, -, hline, hline'⟩ := h.position
  have hn : n < m.program.length := by
    have := mt (atEnd_of_line hline).2 (by simp [he])
    omega
  rw [landing, if_pos hn] at hline'
  exact ⟨n, hn, hline, hline'⟩

theorem at_end (h : Beside f m m') (he : m.atEnd = true) : m'.atEnd = true := by
  obtain ⟨n, -, hline, hline'⟩ := h.position
  have hn := (atEnd_of_line hline).1 he
  rw [landing, if_neg (by omega)] at hline'
  exact (atEnd_of_line hline').2 le_rfl

/-- When both go on by one line, the lines put in after it are still ahead of the second machine. -/
theorem onward {n : Nat} (h : Beside f m m') (hline : m.line = n) (hline' : m'.line = f n)
    (hs : m.program[n]? = some s) (registers : Registers) (memory : Memory) :
    ∃ d m₁', ({ m' with registers, memory }.advance (s.moved f)).tick.stepN d = .ok m₁'
      ∧ Beside f ({ m with registers, memory }.advance s).tick m₁' := by
  have hlt := (List.getElem?_eq_some_iff.1 hs).1
  have hland := h.program.lt_landing_succ hlt
  have hbefore : ∀ i < n + 1, f i < f n + 1 := fun i hi => by
    rcases Nat.eq_or_lt_of_le (Nat.lt_succ_iff.1 hi) with rfl | hin
    · omega
    · have := h.program.mono i n hin hlt
      omega
  have htwin : Twin f ({ m with registers, memory }.advance s).tick
      ({ m' with registers, memory }.advance (s.moved f)).tick :=
    ⟨h.program, h.symbols, rfl, rfl, congrArg (· + s.size) h.address⟩
  refine ⟨landing f m.program m'.program (n + 1) - (f n + 1), htwin.catch_up (n := n + 1)
    (j := f n + 1) hlt ?_ ?_ ?_ hbefore⟩
  · simp [tick, advance, hline]
  · simp [tick, advance, hline']
  · show landing f m.program m'.program (n + 1) = _
    omega

/-- For a step of the first machine the second takes one or more. -/
theorem step (h : Beside f m m') (hs : m.step = .ok m₁) :
    ∃ k m₁', m'.stepN (k + 1) = .ok m₁' ∧ Beside f m₁ m₁' := by
  rcases he : m.atEnd with _ | _
  · obtain ⟨n, hlt, hline, hline'⟩ := h.before_end he
    have hget := List.getElem?_eq_getElem hlt
    rw [step_of_getElem? hline hget] at hs
    obtain ⟨a, ha, rfl⟩ := map_eq_ok.1 hs
    obtain ⟨a', ha', htogether⟩ := (execute_alike h.toTwin _).of_ok ha
    have hstep' : m'.step = .ok a'.tick := by
      rw [step_of_getElem? hline' (h.program.kept hget), ha']
      rfl
    cases htogether with
    | onward registers memory =>
      obtain ⟨d, m₁', hd, hbeside⟩ := h.onward hline hline' hget registers memory
      exact ⟨d, m₁', by rw [stepN_succ_of_step hstep', hd], hbeside⟩
    | jump htarget =>
      rename_i place address
      obtain ⟨t, ht, -, -⟩ := target?_some htarget
      have hplace := (List.getElem?_eq_some_iff.1 ht).1
      refine ⟨0, _, by rw [stepN_succ_of_step hstep', stepN_zero], ?_⟩
      refine ⟨⟨h.program, h.symbols, h.registers, h.memory, rfl⟩, place, Nat.le_of_lt hplace, rfl,
        ?_⟩
      show ((f place : Nat) : Int) = (landing f m.program m'.program place : Nat)
      rw [landing, if_pos hplace]
  · have he' := h.at_end he
    have hm₁ : m₁ = m.tick := by
      rcases step_cases hs with ⟨-, hm⟩ | ⟨hne, -⟩
      · exact hm
      · rw [he] at hne
        cases hne
    subst hm₁
    have hstep' : m'.step = .ok m'.tick := by simp [Machine.step, he']
    refine ⟨0, m'.tick, by rw [stepN_succ_of_step hstep', stepN_zero], ?_⟩
    exact ⟨⟨h.program, h.symbols, h.registers, h.memory, h.address⟩, h.position⟩

theorem stepN : ∀ {k : Nat} {m m' m₁ : Machine}, Beside f m m' → m.stepN k = .ok m₁ →
    ∃ k' ≥ k, ∃ m₁', m'.stepN k' = .ok m₁' ∧ Beside f m₁ m₁'
  | 0, m, m', m₁, h, hk => by
    cases hk
    exact ⟨0, le_rfl, m', rfl, h⟩
  | k + 1, m, m', m₁, h, hk => by
    obtain ⟨m₂, h₂, hk⟩ := bind_eq_ok.1 hk
    obtain ⟨j, m₂', hj, hbeside⟩ := h.step h₂
    obtain ⟨k', hk', m₁', hm₁', hlast⟩ := stepN hbeside hk
    refine ⟨j + 1 + k', by omega, m₁', ?_, hlast⟩
    rw [stepN_add, hj]
    exact hm₁'

/-- Where the first machine fails the second fails too, on the line to which the statement has
gone. -/
theorem fault (h : Beside f m m') {e : Failure} (hs : m.step = .error e) :
    ∃ (n : Nat) (e' : Failure), m.line = n ∧ m'.step = .error e'
      ∧ Failure.Recharged (n + 1) (f n + 1) e e' := by
  obtain ⟨n, hlt, hline, hline'⟩ := h.before_end (step_error hs).1
  have hget := List.getElem?_eq_getElem hlt
  have hx : m.execute m.program[n] = .error e := by
    rw [step_of_getElem? hline hget] at hs
    rcases hx : m.execute m.program[n] with g | a <;> rw [hx] at hs <;> cases hs
    rfl
  obtain ⟨e', he', hcharged⟩ := (execute_alike h.toTwin _).of_error hx
  have hindex := h.program.numbered n _ hget
  refine ⟨n, e', hline, by rw [step_of_getElem? hline' (h.program.kept hget), he']; rfl, ?_⟩
  simpa [Statement.line, Statement.moved, hindex] using hcharged

end Beside

end Step

end Machine

section Source

variable {source source' : String} {f : Nat → Nat} {l l' : Layout}

theorem Padding.build (h : Padding f (lines source) (lines source')) :
    Alike (fun _ _ => True) (Layout.SpreadTo f) (Layout.build (statements source))
      (Layout.build (statements source')) :=
  Layout.build_spread (h.spread (a := 0) (b := 0) fun i _ => by simp)

theorem numbered_of_build (h : Layout.build (statements source) = .ok l) :
    NumberedFrom 0 l.statements := by
  intro n s hs
  simpa using (statement_of_build h hs).2.1

theorem Padding.embedding (h : Padding f (lines source) (lines source'))
    (hl : Layout.build (statements source) = .ok l)
    (hl' : Layout.build (statements source') = .ok l') (hspread : Layout.SpreadTo f l l') :
    Embedding f l.statements l'.statements :=
  ⟨hspread.statements, numbered_of_build hl, numbered_of_build hl', fun i j hij hj =>
    h.mono i j hij (by rwa [length_of_build hl] at hj)⟩

/-- At the start the second machine may have lines to pass before it stands beside the first. -/
theorem Embedding.beside_restart (h : Embedding f l.statements l'.statements)
    (hspread : Layout.SpreadTo f l l') (m m' : Machine) (hm : m'.registers = m.registers) :
    ∃ k m₁', (m'.restart l').stepN k = .ok m₁' ∧ Machine.Beside f (m.restart l) m₁' := by
  have htwin : Machine.Twin f (m.restart l) (m'.restart l') :=
    ⟨h, hspread.symbols, hm, hspread.memory, rfl⟩
  exact ⟨landing f l.statements l'.statements 0, htwin.catch_up (n := 0) (j := 0) (Nat.zero_le _)
    rfl rfl (Nat.zero_add _).symm fun i hi => absurd hi (Nat.not_lt_zero i)⟩

namespace Engine

/-- The engine after a layout and calls for the given number of steps. -/
def stepped (config : Config) (source : String) (k : Nat) : Engine :=
  (load config source).afterAll (.prepare :: List.replicate k .step)

/-- Calls for a step, after a layout, do what the steps of a machine do: without a failure they lead
to the same machine, and the next call fails as the next step does. -/
def StepsAs (config : Config) (source : String) (start : Machine) : Prop :=
  ∀ k m, (start.stepN k = .ok m
      ↔ (∀ j < k, (stepped config source j).step.failure = none)
        ∧ (stepped config source k).machine = m)
    ∧ (start.stepN k = .ok m →
      ∀ e, (stepped config source k).step.failure = some e ↔ m.step = .error e)

theorem afterAll_steps (h : Layout.build (statements source) = .ok l)
    (hlen : source.length < indexLimit) : ∀ {k : Nat} {e : Engine} {m : Machine},
      e.laidOut = true → Machine.Positioned l e.machine → e.machine.stepN k = .ok m →
        e.afterAll (List.replicate k .step) = { e with machine := m }
  | 0, e, m, _, _, hk => by
    cases hk
    rfl
  | k + 1, e, m, hlaid, hpos, hk => by
    obtain ⟨m₁, h₁, hk⟩ := bind_eq_ok.1 hk
    rw [List.replicate_succ, afterAll_cons, after_step_of_ok h hlen hlaid hpos h₁]
    exact afterAll_steps h hlen (e := { e with machine := m₁ }) hlaid (hpos.step h₁) hk

theorem stepped_eq (h : Layout.build (statements source) = .ok l)
    (hlen : source.length < indexLimit) {config : Config} {k : Nat} {m : Machine}
    (hk : ((Machine.fresh config (statements source)).restart l).stepN k = .ok m) :
    stepped config source k = { load config source with laidOut := true, machine := m } := by
  rw [stepped, afterAll_cons, after_prepare (e := load config source) h]
  exact afterAll_steps h hlen rfl (Machine.positioned_restart _ _) hk

theorem failure_stepped (h : Layout.build (statements source) = .ok l)
    (hlen : source.length < indexLimit) {config : Config} {k : Nat} {m : Machine}
    (hk : ((Machine.fresh config (statements source)).restart l).stepN k = .ok m) (e : Failure) :
    (stepped config source k).step.failure = some e ↔ m.step = .error e := by
  have hpos := Machine.positioned_stepN (Machine.positioned_restart _ _) hk
  have hattempt := Machine.attempt_eq_step h hlen hpos
  rw [stepped_eq h hlen hk]
  rcases hs : m.step with e' | m₁ <;> rw [hs] at hattempt
  · rw [step_of_attempt_error rfl hattempt]
    simp
  · rw [step_of_attempt_ok rfl hattempt]
    simp

theorem stepsAs_of_build (h : Layout.build (statements source) = .ok l)
    (hlen : source.length < indexLimit) (config : Config) :
    StepsAs config source ((Machine.fresh config (statements source)).restart l) := by
  intro k m
  refine ⟨⟨fun hk => ⟨fun j hj => ?_, by rw [stepped_eq h hlen hk]⟩, fun ⟨hnone, hm⟩ => ?_⟩,
    failure_stepped h hlen⟩
  · rw [show k = j + (k - j - 1 + 1) by omega, Machine.stepN_add] at hk
    obtain ⟨mⱼ, hj, hk⟩ := bind_eq_ok.1 hk
    obtain ⟨m₁, h₁, -⟩ := bind_eq_ok.1 hk
    rcases hf : (stepped config source j).step.failure with _ | e
    · rfl
    · rw [failure_stepped h hlen hj, h₁] at hf
      cases hf
  · -- as long as no call has failed, the machine has not either
    have hsome : ∀ j ≤ k, ∃ mⱼ, ((Machine.fresh config (statements source)).restart l).stepN j
        = .ok mⱼ := by
      intro j
      induction j with
      | zero => exact fun _ => ⟨_, rfl⟩
      | succ j ih =>
        intro hj
        obtain ⟨mⱼ, hmⱼ⟩ := ih (by omega)
        rcases hs : mⱼ.step with e | m₁
        · rw [← failure_stepped h hlen hmⱼ, hnone j (by omega)] at hs
          cases hs
        · refine ⟨m₁, ?_⟩
          rw [Machine.stepN_add, hmⱼ]
          exact (Machine.stepN_succ_of_step hs 0).trans rfl
    obtain ⟨mₖ, hmₖ⟩ := hsome k le_rfl
    rw [stepped_eq h hlen hmₖ] at hm
    rw [hmₖ, ← hm]

end Engine

/-- Lines without code change nothing but where the others stand. The program lays out as it did,
with the same memory and the same labels on the lines to which they have gone. Whatever its run
leads to, failing steps included, the other run leads to as well, in as many steps or more; and in a
text that can be counted, the steps are what an engine does when it is asked for them. -/
theorem Padding.same_meaning (h : Padding f (lines source) (lines source')) (config : Config) :
    ((∃ l, Layout.build (statements source) = .ok l)
        ↔ ∃ l', Layout.build (statements source') = .ok l')
      ∧ ∀ l l', Layout.build (statements source) = .ok l →
        Layout.build (statements source') = .ok l' →
          l'.memory = l.memory ∧ l'.symbols.labels = l.symbols.labels.map (Label.moved f) ∧
          let start := (Machine.fresh config (statements source)).restart l
          let start' := (Machine.fresh config (statements source')).restart l'
          (source.length < indexLimit → Engine.StepsAs config source start)
            ∧ (source'.length < indexLimit → Engine.StepsAs config source' start')
            ∧ ∀ k m, start.stepN k = .ok m → ∃ k' ≥ k, ∃ m', start'.stepN k' = .ok m'
              ∧ m'.registers = m.registers ∧ m'.memory = m.memory ∧ m'.address = m.address
              ∧ (m.atEnd = false → ∃ n : Nat, m.line = n ∧ m'.line = f n)
              ∧ (m.atEnd = true → m'.atEnd = true)
              ∧ ∀ e, m.step = .error e → ∃ (n : Nat) (e' : Failure), m.line = n
                ∧ m'.step = .error e' ∧ Failure.Recharged (n + 1) (f n + 1) e e' := by
  refine ⟨h.build.exists_ok_iff, fun l l' hl hl' => ?_⟩
  obtain ⟨l'', hl'', hspread⟩ := h.build.of_ok hl
  obtain rfl : l' = l'' := by
    rw [hl'] at hl''
    exact Except.ok.inj hl''
  refine ⟨hspread.memory, by rw [hspread.symbols]; rfl, ?_⟩
  intro start start'
  refine ⟨fun hlen => Engine.stepsAs_of_build hl hlen config,
    fun hlen => Engine.stepsAs_of_build hl' hlen config, fun k m hk => ?_⟩
  obtain ⟨k₀, m₀', hm₀', hstart⟩ := (h.embedding hl hl' hspread).beside_restart hspread
    (.fresh config (statements source)) (.fresh config (statements source')) rfl
  obtain ⟨k', hk', m', hm', hbeside⟩ := hstart.stepN hk
  have hrun : start'.stepN (k₀ + k') = .ok m' := by
    rw [Machine.stepN_add, show start'.stepN k₀ = .ok m₀' from hm₀']
    exact hm'
  refine ⟨k₀ + k', by omega, m', hrun, hbeside.registers, hbeside.memory, hbeside.address,
    fun he => ?_, hbeside.at_end, fun e he => hbeside.fault he⟩
  obtain ⟨n, -, hline⟩ := hbeside.before_end he
  exact ⟨n, hline⟩

/-- A jump to a line with another put in before it, and after that a jump that fails. -/
theorem Padding.same_meaning_jump :
    ∃ f source source', source = "X DC 5\nJ Z\nA 1,X\nZ S 1,X\nJ 3"
      ∧ source' = "# top\nX DC 5\nJ Z\nA 1,X\n\nZ S 1,X\nJ 3"
      ∧ Padding f (lines source) (lines source') ∧ ∃ l l' k m m',
        Layout.build (statements source) = .ok l ∧ Layout.build (statements source') = .ok l'
        ∧ ((Machine.fresh ⟨1000, 2⟩ (statements source)).restart l).stepN 3 = .ok m
        ∧ ((Machine.fresh ⟨1000, 2⟩ (statements source')).restart l').stepN k = .ok m'
        ∧ m.line = 4 ∧ m.step = .error (.atLine 5 (.invalidJumpTarget 3))
        ∧ m'.line = 6 ∧ m'.step = .error (.atLine 7 (.invalidJumpTarget 3))
        ∧ m'.registers = m.registers := by
  have hpad : Padding _ (lines "X DC 5\nJ Z\nA 1,X\nZ S 1,X\nJ 3")
      (lines "# top\nX DC 5\nJ Z\nA 1,X\n\nZ S 1,X\nJ 3") :=
    (Padding.insert [] _ (.refl _) (by decide +kernel)).insert ["# top", "X DC 5", "J Z", "A 1,X"]
      ["Z S 1,X", "J 3"] (by decide +kernel)
  have hrun : ((Layout.build (statements "X DC 5\nJ Z\nA 1,X\nZ S 1,X\nJ 3") >>= fun l =>
      ((Machine.fresh ⟨1000, 2⟩ (statements "X DC 5\nJ Z\nA 1,X\nZ S 1,X\nJ 3")).restart
        l).stepN 3).map fun m => (m.line, m.step.map fun _ => ()))
      = .ok (4, .error (.atLine 5 (.invalidJumpTarget 3))) := by
    decide +kernel
  obtain ⟨m, hm, hstop⟩ := map_eq_ok.1 hrun
  obtain ⟨l, hl, hm⟩ := bind_eq_ok.1 hm
  have hline : m.line = 4 := congrArg Prod.fst hstop
  have hfault : m.step = .error (.atLine 5 (.invalidJumpTarget 3)) := by
    have hsnd := congrArg Prod.snd hstop
    rcases hs : m.step with e | m₁ <;> simp only [hs] at hsnd <;> cases hsnd
    rfl
  obtain ⟨hiff, hboth⟩ := Padding.same_meaning hpad ⟨1000, 2⟩
  obtain ⟨l', hl'⟩ := hiff.1 ⟨l, hl⟩
  obtain ⟨-, -, -, -, hmatch⟩ := hboth l l' hl hl'
  obtain ⟨k, -, m', hm', hregisters, -, -, hplace, -, hcharged⟩ := hmatch 3 m hm
  obtain ⟨n, e', hn, he', hmoved⟩ := hcharged _ hfault
  obtain ⟨n', hn', hplace⟩ := hplace (Machine.step_error hfault).1
  obtain rfl : n = 4 := by omega
  obtain rfl : n' = 4 := by omega
  have hfault' : m'.step = .error (.atLine 7 (.invalidJumpTarget 3)) := by
    rw [he']
    cases hmoved
    rfl
  exact ⟨_, _, _, rfl, rfl, hpad, l, l', k, m, m', hl, hl', hm, hm', hline, hfault, hplace, hfault',
    hregisters⟩

end Source

end WordMachine
