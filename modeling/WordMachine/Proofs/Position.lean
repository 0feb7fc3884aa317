import WordMachine.Proofs.Calls
import WordMachine.Proofs.Draft
import WordMachine.Proofs.Step

/-!
# Where the machine stands

The machine keeps its position twice, as a line and as an address, and the two move separately: a
statement passed adds its size, a jump takes the address from its operand and the line from a
search. Still the address is always the room taken by the lines before the position
(`consistent_afterAll`), so it is the address that the layout gave the next statement, and the size
of the whole program at the end (`Positioned.next`, `Positioned.finish`).
-/

namespace WordMachine

namespace Machine

variable {l : Layout} {m m' : Machine}

/-- The machine runs the program of a layout and stands before one of its lines, or at the end,
with the address that the lines before it lead to. -/
structure Positioned (l : Layout) (m : Machine) : Prop where
  program : m.program = l.statements
  place : ∃ n : Nat, m.line = n ∧ n ≤ l.statements.length
    ∧ m.address = extent (l.statements.take n)

theorem current?_of_line {n : Nat} (h : m.line = n) : m.current? = m.program[n]? := by
  unfold current?
  rw [h]
  rcases Nat.lt_or_ge n m.program.length with hn | hn
  · rw [place?_natCast hn]
    rfl
  · rw [place?_natCast_of_le hn, List.getElem?_eq_none hn]
    rfl

theorem atEnd_of_line {n : Nat} (h : m.line = n) :
    m.atEnd = true ↔ m.program.length ≤ n := by
  unfold atEnd
  rw [h]
  simp

theorem positioned_restart (m : Machine) (l : Layout) : Positioned l (m.restart l) :=
  ⟨rfl, 0, rfl, Nat.zero_le _, rfl⟩

theorem Positioned.tick (h : Positioned l m) : Positioned l m.tick := ⟨h.program, h.place⟩

theorem Positioned.step (hp : Positioned l m) (h : m.step = .ok m') : Positioned l m' := by
  refine ⟨(program_step h).trans hp.program, ?_⟩
  obtain ⟨n, hn, hle, ha⟩ := hp.place
  rcases step_cases h with ⟨-, rfl⟩ |
    ⟨-, s, hc, ⟨registers, memory, rfl⟩ | ⟨address, place, ht, rfl⟩⟩
  · exact ⟨n, hn, hle, ha⟩
  · rw [current?_of_line hn, hp.program] at hc
    have hlt := (List.getElem?_eq_some_iff.1 hc).1
    refine ⟨n + 1, ?_, hlt, ?_⟩
    · simp [advance, hn]
    · rw [extent_take_succ hc, ← ha]
      rfl
  · rw [hp.program] at ht
    obtain ⟨s', hs', -, ha'⟩ := target?_some ht
    have hlt := (List.getElem?_eq_some_iff.1 hs').1
    exact ⟨place, rfl, Nat.le_of_lt hlt, ha'⟩

theorem Positioned.address_eq (hp : Positioned l m) :
    0 ≤ m.line ∧ m.line ≤ m.program.length
      ∧ m.address = extent (m.program.take m.line.toNat) := by
  obtain ⟨n, hn, hle, ha⟩ := hp.place
  rw [hp.program, hn]
  exact ⟨by omega, by omega, ha⟩

/-- Before the end there is a next statement, and the position is where the layout put it. -/
theorem Positioned.next (hp : Positioned l m) (hl : Placed l.statements) (he : m.atEnd = false) :
    ∃ s, m.current? = some s ∧ m.program[m.line.toNat]? = some s ∧ m.address = s.address := by
  obtain ⟨n, hn, -, ha⟩ := hp.place
  have hlt : n < m.program.length := by
    have := mt (atEnd_of_line hn).2 (by simp [he])
    omega
  rw [current?_of_line hn, hn, Int.toNat_natCast, List.getElem?_eq_getElem hlt]
  refine ⟨_, rfl, rfl, ?_⟩
  rw [ha, hl n m.program[n] (by rw [← hp.program, List.getElem?_eq_getElem hlt])]

theorem Positioned.finish (hp : Positioned l m) (he : m.atEnd = true) : m.address = l.size := by
  obtain ⟨n, hn, hle, ha⟩ := hp.place
  have hge := (atEnd_of_line hn).1 he
  rw [hp.program] at hge
  rw [ha, List.take_of_length_le hge, Layout.size_eq_extent]

end Machine

namespace Engine

/-- The program of an engine stays the one it was loaded with, and once it is laid out the machine
is positioned in its layout. -/
def Consistent (source : String) (e : Engine) : Prop :=
  e.source = statements source ∧ (e.laidOut = true →
    ∃ l, Layout.build (statements source) = .ok l ∧ Machine.Positioned l e.machine)

theorem consistent_afterAll (config : Config) (source : String) (calls : List Call) :
    Consistent source ((load config source).afterAll calls) := by
  refine afterAll_induct (fun e e' he hp => ?_) (fun e m he hlaid hs => ?_)
    (fun e he hlaid => ?_) calls ⟨rfl, fun h => by cases h⟩
  · obtain ⟨l, hl, rfl⟩ := prepare_ok hp
    rw [he.1] at hl
    exact ⟨he.1, fun _ => ⟨l, hl, Machine.positioned_restart _ _⟩⟩
  · obtain ⟨l, hl, hpos⟩ := he.2 hlaid
    exact ⟨he.1, fun _ => ⟨l, hl, hpos.step hs⟩⟩
  · obtain ⟨l, hl, hpos⟩ := he.2 hlaid
    exact ⟨he.1, fun _ => ⟨l, hl, hpos.tick⟩⟩

/-- After any calls, failing ones included, the machine of a program that is laid out stands where
its line and its address agree. -/
theorem position_afterAll (config : Config) (source : String) (calls : List Call)
    (h : ((load config source).afterAll calls).laidOut = true) :
    let m := ((load config source).afterAll calls).machine
    ∃ l, Layout.build (statements source) = .ok l ∧ m.program = l.statements
      ∧ (0 ≤ m.line ∧ m.line ≤ m.program.length
        ∧ m.address = extent (m.program.take m.line.toNat))
      ∧ (m.atEnd = false →
        ∃ s, m.current? = some s ∧ m.program[m.line.toNat]? = some s ∧ m.address = s.address)
      ∧ (m.atEnd = true → m.address = l.size) := by
  intro m
  obtain ⟨l, hl, hpos⟩ := (consistent_afterAll config source calls).2 h
  exact ⟨l, hl, hpos.program, hpos.address_eq, hpos.next (Layout.build_placed hl), hpos.finish⟩

/-- A run that loops until the ceiling, and then a step into the loop again. -/
theorem position_afterAll_loop :
    let m := ((load ⟨6, 2⟩ "X DC 7\n\nL A 0, X\nJ L").afterAll [.run, .step]).machine
    (m.line = 3 ∧ m.address = 8) ∧ ∃ s, m.current? = some s ∧ m.address = s.address := by
  intro m
  have hm : m.line = 3 ∧ m.address = 8 ∧ m.atEnd = false := by decide +kernel
  obtain ⟨l, -, -, -, hnext, -⟩ := position_afterAll ⟨6, 2⟩ "X DC 7\n\nL A 0, X\nJ L" [.run, .step]
    (by decide +kernel)
  obtain ⟨s, hs, -, ha⟩ := hnext hm.2.2
  exact ⟨⟨hm.1, hm.2.1⟩, s, hs, ha⟩

end Engine

end WordMachine
