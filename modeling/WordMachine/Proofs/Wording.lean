import WordMachine.Proofs.Calls
import WordMachine.Proofs.Operand
import WordMachine.Proofs.Tokens

/-!
# The wording of a program

Of the text of a line only its tokens matter. A program is reworded when its lines get other texts
with the same tokens. It is then laid out as before (`build_reworded`), the machine takes the same
steps (`step_reworded`), and calls on an engine come to the same and fail in the same way
(`afterAll_reworded`). The tokens of a line with a space between any two are such a text, so a
program behaves as its canonical form does.
-/

namespace WordMachine

open Text

/-- The same statement with another text. -/
def Statement.reworded (g : String → String) (s : Statement) : Statement :=
  { s with text := g s.text }

def Layout.reworded (g : String → String) (l : Layout) : Layout :=
  { l with statements := l.statements.map (Statement.reworded g) }

def Layout.Draft.reworded (g : String → String) (d : Draft) : Draft :=
  { d with statements := d.statements.map (Statement.reworded g) }

def Machine.reworded (g : String → String) (m : Machine) : Machine :=
  { m with program := m.program.map (Statement.reworded g) }

def Run.reworded (g : String → String) (r : Run) : Run :=
  { r with machine := r.machine.reworded g, executed := r.executed.map (Statement.reworded g) }

def Engine.reworded (g : String → String) (e : Engine) : Engine :=
  { e with source := e.source.map (Statement.reworded g), machine := e.machine.reworded g }

def Engine.Turn.reworded (g : String → String) (t : Turn) : Turn :=
  { t with engine := t.engine.reworded g, executed := t.executed.map (Statement.reworded g) }

section Wording

variable {g : String → String} (hg : ∀ t, tokens (g t) = tokens t)

include hg in
theorem parse?_reworded (t : String) : CodeLine.parse? (g t) = CodeLine.parse? t := by
  unfold CodeLine.parse?
  rw [hg]

namespace Layout

namespace Draft

theorem define_reworded (d : Draft) (s : Statement) (label : Option String) :
    (d.reworded g).define (s.reworded g) label = (d.define s label).map (reworded g) := by
  cases label with
  | none => rfl
  | some name =>
    simp only [define, show (d.reworded g).symbols = d.symbols from rfl,
      show (d.reworded g).address = d.address from rfl,
      show (s.reworded g).index = s.index from rfl]
    rcases d.symbols.define ⟨name, s.index, d.address⟩ with e | symbols
    · rfl
    · by_cases hn : isLabelName name = true
      · simp only [hn, if_true]
        rfl
      · simp only [hn]
        rfl

@[simp] theorem reworded_empty : reworded g {} = {} := by
  simp [reworded]

theorem store_reworded (d : Draft) (c : Chunk) :
    (d.reworded g).store c = (d.store c).map (reworded g) := by
  unfold store
  rw [show (d.reworded g).memory = d.memory from rfl]
  rcases c.addTo d.memory with r | memory <;> rfl

theorem push_reworded (d : Draft) (s : Statement) (size : Int) :
    (d.reworded g).push (s.reworded g) size = (d.push s size).reworded g := by
  simp [push, reworded, Statement.reworded]

include hg in
theorem add_reworded (d : Draft) (s : Statement) :
    (d.reworded g).add (s.reworded g) = (d.add s).map (reworded g) := by
  unfold add
  rw [show (s.reworded g).text = g s.text from rfl, parse?_reworded hg]
  rcases CodeLine.parse? s.text with _ | l
  · simp only [push_reworded]
    rfl
  · simp only [define_reworded]
    rcases d.define s l.label with f | d₁
    · rfl
    · have hchunk : (d₁.reworded g).chunk (s.reworded g) l = d₁.chunk s l := rfl
      simp only [Except.map, bind, Except.bind, hchunk]
      rcases d₁.chunk s l with f | c
      · rfl
      · simp only [store_reworded]
        rcases d₁.store c with f | d₂
        · rfl
        · simp only [Except.map, push_reworded]
          rfl

end Draft

include hg in
theorem foldlM_reworded : ∀ (program : List Statement) (d : Draft),
    (program.map (Statement.reworded g)).foldlM Draft.add (d.reworded g)
      = (program.foldlM Draft.add d).map (Draft.reworded g)
  | [], d => rfl
  | s :: program, d => by
    rw [List.map_cons, List.foldlM_cons, List.foldlM_cons, Draft.add_reworded hg]
    rcases d.add s with f | d'
    · rfl
    · exact foldlM_reworded program d'

include hg in
theorem build_reworded (program : List Statement) :
    build (program.map (Statement.reworded g)) = (build program).map (reworded g) := by
  have hfold := foldlM_reworded hg program {}
  rw [Draft.reworded_empty] at hfold
  unfold build
  rw [hfold]
  rcases program.foldlM Draft.add {} with f | d
  · rfl
  · simp [Except.map, bind, Except.bind, pure, Except.pure, reworded, Draft.reworded]

end Layout

namespace Machine

theorem targetFrom?_reworded (address : Int) : ∀ (program : List Statement) (boundary : Int)
    (place : Nat), targetFrom? address boundary place (program.map (Statement.reworded g))
      = targetFrom? address boundary place program
  | [], boundary, place => rfl
  | s :: program, boundary, place => by
    simp only [List.map_cons, targetFrom?, targetFrom?_reworded address program]
    rfl

theorem jumpTarget_reworded (program : List Statement) (address line : Int) :
    jumpTarget (program.map (Statement.reworded g)) address line
      = jumpTarget program address line := by
  simp only [jumpTarget, target?, targetFrom?_reworded]

theorem access_reworded (m : Machine) (op : MemoryOp) (i : Nat) (address line : Int) :
    (m.reworded g).access op i address line
      = (m.access op i address line).map (reworded g) := by
  unfold access
  rw [show (m.reworded g).memory = m.memory from rfl,
    show (m.reworded g).registers = m.registers from rfl]
  cases op with
  | arith op => rcases m.memory.readWord address line with e | word <;> rfl
  | compare => rcases m.memory.readWord address line with e | word <;> rfl
  | load => rcases m.memory.readWord address line with e | word <;> rfl
  | store =>
    rcases m.memory.writeWord address (m.registers.get i) line with e | memory <;> rfl
  | loadAddress => rfl

theorem perform_reworded (m : Machine) (s : Statement) (i : Instruction) :
    (m.reworded g).perform (s.reworded g) i = (m.perform s i).map (reworded g) := by
  unfold perform
  rw [show (s.reworded g).line = s.line from rfl]
  cases i with
  | register op i j => rfl
  | memory op i a =>
    simp only [show (m.reworded g).resolve a s.line = m.resolve a s.line from rfl, access_reworded]
    rcases m.resolve a s.line with e | address
    · rfl
    · simp only [bind, Except.bind]
      rcases m.access op i address s.line with e | m₁ <;> rfl
  | jump when a =>
    simp only [show (m.reworded g).resolve a s.line = m.resolve a s.line from rfl,
      show (m.reworded g).program = m.program.map (Statement.reworded g) from rfl,
      jumpTarget_reworded]
    rcases m.resolve a s.line with e | address
    · rfl
    · simp only [bind, Except.bind]
      rcases jumpTarget m.program address s.line with e | place
      · rfl
      · rw [show (m.reworded g).registers = m.registers from rfl]
        by_cases hw : when.holds m.registers.flags = true
        · simp only [hw, if_true]
          rfl
        · simp only [hw]
          rfl
  | data => rfl

include hg in
theorem execute_reworded (m : Machine) (s : Statement) :
    (m.reworded g).execute (s.reworded g) = (m.execute s).map (reworded g) := by
  unfold execute
  rw [show (s.reworded g).text = g s.text from rfl, parse?_reworded hg]
  rcases CodeLine.parse? s.text with _ | l
  · rfl
  · simp only [show (m.reworded g).decode (s.reworded g) l = m.decode s l from rfl]
    rcases m.decode s l with e | i
    · rfl
    · simp only [bind, Except.bind, perform_reworded]

@[simp] theorem atEnd_reworded (m : Machine) : (m.reworded g).atEnd = m.atEnd := by
  simp [atEnd, reworded]

theorem current?_reworded (m : Machine) :
    (m.reworded g).current? = m.current?.map (Statement.reworded g) := by
  unfold current?
  rw [show (m.reworded g).program = m.program.map (Statement.reworded g) from rfl,
    show (m.reworded g).line = m.line from rfl, List.length_map]
  rcases place? m.program.length m.line with _ | n
  · rfl
  · simp

include hg

theorem step_reworded (m : Machine) : (m.reworded g).step = m.step.map (reworded g) := by
  unfold step
  rw [atEnd_reworded, current?_reworded]
  split
  · rfl
  · rcases m.current? with _ | s
    · rfl
    · simp only [Option.map_some, execute_reworded hg]
      rcases m.execute s with f | m₁ <;> rfl

theorem attempt_reworded (m : Machine) : (m.reworded g).attempt = m.attempt.map (reworded g) := by
  have hann : ∀ s, (m.reworded g).announces (s.reworded g) = m.announces s := by
    intro s
    unfold announces
    rw [show (s.reworded g).text = g s.text from rfl, parse?_reworded hg]
    rfl
  have hcan : (m.reworded g).canAnnounce = m.canAnnounce := by
    unfold canAnnounce
    rw [atEnd_reworded, current?_reworded]
    rcases m.current? with _ | s
    · rfl
    · simp [hann]
  unfold attempt
  rw [hcan, step_reworded hg]
  split <;> rfl

theorem finished?_reworded (m : Machine) :
    (m.reworded g).finished? = m.finished?.map (Statement.reworded g) := by
  unfold finished?
  rw [atEnd_reworded, step_reworded hg, current?_reworded]
  split
  · rfl
  · rcases m.step with f | m' <;> rfl

theorem runFor_reworded : ∀ (n : Nat) (m : Machine) (executed : Array Statement),
    (m.reworded g).runFor n (executed.map (Statement.reworded g))
      = (m.runFor n executed).reworded g
  | 0, m, executed => rfl
  | n + 1, m, executed => by
    unfold runFor
    rw [atEnd_reworded, step_reworded hg, current?_reworded]
    split
    · rfl
    · rcases m.step with f | m'
      · rfl
      · simp only [Except.map]
        rw [← runFor_reworded n m']
        congr 1
        rcases m.current? with _ | s <;> simp

end Machine

namespace Engine

include hg

theorem prepare_reworded (e : Engine) : (e.reworded g).prepare = e.prepare.map (reworded g) := by
  unfold prepare
  rw [show (e.reworded g).source = e.source.map (Statement.reworded g) from rfl,
    Layout.build_reworded hg]
  rcases Layout.build e.source with f | l <;> rfl

theorem step_reworded (e : Engine) : (e.reworded g).step = e.step.reworded g := by
  -- a program that is not laid out yet is laid out first, and then this case applies to it
  have hlaid : ∀ e : Engine, e.laidOut = true → (e.reworded g).step = e.step.reworded g := by
    intro e hl
    have ha := Machine.attempt_reworded hg e.machine
    have hf := Machine.finished?_reworded hg e.machine
    rcases hm : e.machine.attempt with f | m <;> rw [hm] at ha
    · rw [step_of_attempt_error hl hm, step_of_attempt_error (e := e.reworded g) hl ha]
      simp [Turn.reworded, reworded, Machine.reworded, Machine.tick]
    · rw [step_of_attempt_ok hl hm, step_of_attempt_ok (e := e.reworded g) hl ha]
      rcases hs : e.machine.finished? with _ | s <;> rw [hs] at hf <;>
        simp [Turn.reworded, reworded, hf]
  have hp := prepare_reworded hg e
  rcases hl : e.laidOut with _ | _
  · rcases he : e.prepare with f | e' <;> rw [he] at hp
    · rw [step_of_prepare_error hl he, step_of_prepare_error (e := e.reworded g) hl hp]
      simp [Turn.reworded]
    · rw [step_of_prepare_ok hl he, step_of_prepare_ok (e := e.reworded g) hl hp]
      obtain ⟨l, -, rfl⟩ := prepare_ok he
      exact hlaid _ rfl
  · exact hlaid e hl

theorem run_reworded (e : Engine) : (e.reworded g).run = e.run.reworded g := by
  have hp := prepare_reworded hg e
  unfold run
  rcases he : e.prepare with f | e' <;> rw [he] at hp <;> rw [hp] <;> simp only [Except.map]
  · simp [Turn.reworded]
  · have hr := Machine.runFor_reworded hg (fuel e'.limit e'.machine) e'.machine #[]
    have hover : ∀ m : Machine, overLimit e'.limit (m.reworded g) = overLimit e'.limit m := by
      intro m
      unfold overLimit Machine.nextLine?
      rw [Machine.atEnd_reworded]
      rfl
    have hclosing : ∀ m : Machine, closing e'.limit (m.reworded g) = closing e'.limit m := by
      intro m
      simp only [closing, hover, show (m.reworded g).steps = m.steps from rfl]
    rw [Array.map_empty] at hr
    rw [show (e'.reworded g).machine = e'.machine.reworded g from rfl,
      show (e'.reworded g).limit = e'.limit from rfl,
      show fuel e'.limit (e'.machine.reworded g) = fuel e'.limit e'.machine from rfl, hr]
    simp only [Run.reworded, Turn.reworded, reworded, hclosing]

theorem after_reworded (e : Engine) (c : Call) :
    (e.reworded g).after c = (e.after c).reworded g := by
  cases c with
  | prepare =>
    unfold after
    rw [prepare_reworded hg]
    rcases e.prepare with f | e' <;> rfl
  | run => exact congrArg Turn.engine (run_reworded hg e)
  | step => exact congrArg Turn.engine (step_reworded hg e)

theorem afterAll_reworded : ∀ (calls : List Call) (e : Engine),
    (e.reworded g).afterAll calls = (e.afterAll calls).reworded g
  | [], e => rfl
  | c :: calls, e => by
    rw [afterAll_cons, afterAll_cons, after_reworded hg, afterAll_reworded calls]

end Engine

end Wording

/-- The tokens of a line with a space between any two. -/
def canonicalLine (line : String) : String := " ".intercalate (tokens line)

/-- A program with every line in its canonical form. -/
def canonical (source : String) : String :=
  "\n".intercalate ((lines source).map canonicalLine)

@[simp] theorem tokens_canonicalLine (line : String) : tokens (canonicalLine line) = tokens line :=
  tokens_intercalate fun _ ht => isToken_of_mem_tokens ht

theorem newline_notMem_canonicalLine (line : String) : '\n' ∉ (canonicalLine line).toList := by
  unfold canonicalLine
  rw [String.toList_intercalate]
  intro h
  rcases mem_of_mem_intercalate h with h | ⟨w, hw, h⟩
  · simp at h
  · obtain ⟨t, ht, rfl⟩ := List.mem_map.1 hw
    rcases (isToken_of_mem_tokens ht).1 with heq | hword
    · simp [heq] at h
    · -- a line feed is a blank
      have := (hword.plain _ h).1
      revert this
      decide

theorem lines_canonical (source : String) :
    lines (canonical source) = (lines source).map canonicalLine := by
  have hne : (lines source).map canonicalLine ≠ [] := by
    simp [lines, splitAtChar_ne_nil]
  have hsplit : splitAtChar '\n'
      (['\n'].intercalate (((lines source).map canonicalLine).map String.toList))
      = ((lines source).map canonicalLine).map String.toList := by
    refine splitAtChar_intercalate (by simpa using hne) ?_
    simpa using fun line _ => newline_notMem_canonicalLine line
  unfold canonical
  rw [lines, String.toList_intercalate]
  show ((splitAtChar '\n' (['\n'].intercalate _)).map String.ofList) = _
  rw [hsplit]
  simp [Function.comp_def]

theorem statements_canonical (source : String) :
    statements (canonical source) = (statements source).map (Statement.reworded canonicalLine) := by
  unfold statements
  rw [lines_canonical, List.zipIdx_map, List.map_map, List.map_map]
  rfl

theorem load_canonical (config : Config) (source : String) :
    Engine.load config (canonical source)
      = (Engine.load config source).reworded canonicalLine := by
  unfold Engine.load
  rw [statements_canonical]
  rfl

/-- A program and its canonical form have the same tokens, are laid out in the same way but for the
texts, and after any calls have led to the same state and fail alike from there. -/
theorem behaviour_of_tokens (source : String) :
    (lines (canonical source)).length = (lines source).length
      ∧ (lines (canonical source)).map tokens = (lines source).map tokens
      ∧ Layout.build (statements (canonical source))
          = (Layout.build (statements source)).map (Layout.reworded canonicalLine)
      ∧ ∀ (config : Config) (calls : List Call),
          let e := (Engine.load config source).afterAll calls
          let e' := (Engine.load config (canonical source)).afterAll calls
          e'.laidOut = e.laidOut
            ∧ e'.machine.registers = e.machine.registers
            ∧ e'.machine.memory = e.machine.memory
            ∧ e'.machine.line = e.machine.line
            ∧ e'.machine.address = e.machine.address
            ∧ e'.machine.steps = e.machine.steps
            ∧ e'.step.failure = e.step.failure
            ∧ e'.run.failure = e.run.failure := by
  refine ⟨by rw [lines_canonical, List.length_map], ?_, ?_, fun config calls => ?_⟩
  · rw [lines_canonical, List.map_map]
    simp [Function.comp_def]
  · rw [statements_canonical]
    exact Layout.build_reworded tokens_canonicalLine _
  · have he := Engine.afterAll_reworded tokens_canonicalLine calls (Engine.load config source)
    intro e e'
    rw [show e' = e.reworded canonicalLine from (by rw [← he, ← load_canonical])]
    refine ⟨rfl, rfl, rfl, rfl, rfl, rfl, ?_, ?_⟩
    · rw [Engine.step_reworded tokens_canonicalLine]
      rfl
    · rw [Engine.run_reworded tokens_canonicalLine]
      rfl

end WordMachine
