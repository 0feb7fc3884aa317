import Mathlib.Order.Bounds.Basic
import WordMachine.Proofs.Bare
import WordMachine.Proofs.History

/-!
# Where a stretch stops

A stretch executes statements until it has to stop: at the end of the program, when its steps are
used up, before a line with a breakpoint, or at a statement that fails. It goes through every
statement at which it does not have to (`exists_passage`) and so stops at the first at which it does
(`Passage.isLeast`). Why it stops, and what it says of the place, is then decided in this order
(`stopped_of_passage`).
-/

namespace WordMachine

namespace Machine

variable {source : String} {l : Layout} {m m' : Machine}

/-- The statement before which a machine stands. -/
theorem Positioned.statement (hpos : Positioned l m) (h : Layout.build (statements source) = .ok l)
    (he : m.atEnd = false) :
    ∃ x, l.statements[m.line.toNat]? = some x ∧ x.line = m.line + 1 ∧ x.address = m.address := by
  obtain ⟨x, -, hget, haddress⟩ := hpos.next (Layout.build_placed h) he
  obtain ⟨n, hn, -, -⟩ := hpos.place
  rw [hpos.program] at hget
  have hindex : x.index = n := by
    rw [hn, Int.toNat_natCast] at hget
    exact (statement_of_build h hget).2.1
  exact ⟨x, hget, by rw [Statement.line, hindex, hn], haddress.symm⟩

/-- An error is charged to the line of the statement that fails. -/
theorem Positioned.line_of_diagnostic {d : Diagnostic} (hpos : Positioned l m)
    (h : Layout.build (statements source) = .ok l) (hs : m.step = .error (.diagnostic d)) :
    d.line = some (m.line + 1) := by
  rcases step_error_of_positioned h hpos hs with ⟨cause, hf, -⟩ |
    ⟨x, code, -, -, token, -, digits, -, -, hf⟩ | ⟨a, address, -, -, -, hf⟩
  · cases hf
    rfl
  · cases hf
  · cases hf

/-- Statements executed one after the other, none of which fails. -/
inductive Executes (l : Layout) : Machine → List Statement → Machine → Prop
  | nil (m : Machine) : Executes l m [] m
  | cons {m m₁ m' : Machine} {x : Statement} {done : List Statement}
    (hx : l.statements[m.line.toNat]? = some x) (hs : m.step = .ok m₁)
    (rest : Executes l m₁ done m') : Executes l m (x :: done) m'

theorem Executes.stepN {done : List Statement} (h : Executes l m done m') :
    m.stepN done.length = .ok m' := by
  induction h with
  | nil => rfl
  | cons _ hs _ ih => rw [List.length_cons, stepN_succ_of_step hs, ih]

theorem step_of_stepN {j k : Nat} {m₁ : Machine} (h : m.stepN k = .ok m') (hj : j < k)
    (h₁ : m.stepN j = .ok m₁) : ∃ m₂, m₁.step = .ok m₂ := by
  obtain ⟨i, rfl⟩ : ∃ i, k = j + (i + 1) := ⟨k - j - 1, by omega⟩
  rw [stepN_add, h₁] at h
  obtain ⟨m₂, h₂, -⟩ := bind_eq_ok.1 (show (m₁.step >>= Machine.stepN i) = .ok m' from h)
  exact ⟨m₂, h₂⟩

end Machine

namespace Session

/-- After so many statements of a stretch its budget, or the ceiling, allows no other. -/
def UsedUp (s : Session) (budget : Option Int) (k : Nat) : Prop :=
  budget.getD s.config.maxSteps ≤ k ∨ s.config.maxSteps ≤ s.machine.steps + k

/-- Whether a stretch has to stop at the machine that it has reached after so many statements. -/
def HasToStop (s : Session) (budget : Option Int) (k : Nat) (m : Machine) : Prop :=
  m.atEnd = true ∨ s.UsedUp budget k ∨ (0 < k ∧ m.line + 1 ∈ s.breakpoints)
    ∨ ∃ f, m.step = .error f

/-- What comes of a stretch from a session that has to stop after so many statements: the machine
that it leaves, and the event or the refusal. Of several reasons to stop the first counts. -/
inductive Stopped (l : Layout) (s : Session) (budget : Option Int) (k : Nat) (m : Machine) :
    Machine → Except Failure Event → Prop
  | finish (he : m.atEnd = true) : Stopped l s budget k m m (.ok { reason := .finish })
  | limit {x : Statement} (he : m.atEnd = false) (hx : l.statements[m.line.toNat]? = some x)
    (hused : s.UsedUp budget k) :
    Stopped l s budget k m m (.ok
      { reason := .limit, line := some x.line, address := some x.address
        message := "Stopped after " ++ toString k ++ " steps (" ++ toString (s.machine.steps + k)
          ++ " in total)" })
  | breakpoint {x : Statement} (he : m.atEnd = false) (hx : l.statements[m.line.toNat]? = some x)
    (hused : ¬ s.UsedUp budget k) (hbreak : 0 < k ∧ x.line ∈ s.breakpoints) :
    Stopped l s budget k m m (.ok
      { reason := .breakpoint, line := some x.line, address := some x.address })
  | error {x : Statement} {d : Diagnostic} (he : m.atEnd = false)
    (hx : l.statements[m.line.toNat]? = some x) (hused : ¬ s.UsedUp budget k)
    (hbreak : ¬ (0 < k ∧ x.line ∈ s.breakpoints)) (hs : m.step = .error (.diagnostic d)) :
    Stopped l s budget k m m.tick (.ok
      { reason := .error, line := some x.line, address := some x.address, message := d.message
        cause := some d })
  | refusal {x : Statement} {e : Refusal} (he : m.atEnd = false)
    (hx : l.statements[m.line.toNat]? = some x) (hused : ¬ s.UsedUp budget k)
    (hbreak : ¬ (0 < k ∧ x.line ∈ s.breakpoints)) (hs : m.step = .error (.refusal e)) :
    Stopped l s budget k m m.tick (.error (.refusal e))

/-- A session that has executed statements and remembers them. -/
def moved (s : Session) (done : List Statement) (m : Machine) : Session :=
  { s with machine := m, history := s.history ++ (done.map Statement.line).toArray }

/-- A stretch that may execute `n` more statements after those it has taken, and executes some: it
does not stop before any of them, but it does after the last. -/
structure Passage (l : Layout) (s : Session) (taken n : Nat) (done : List Statement)
    (m : Machine) : Prop where
  le : done.length ≤ n
  executes : s.machine.Executes l done m
  passed : ∀ j < done.length, ∀ m', s.machine.stepN j = .ok m' →
    m'.atEnd = false ∧ ¬ (0 < taken + j ∧ m'.line + 1 ∈ s.breakpoints)
  halts : m.atEnd = true ∨ done.length = n
    ∨ (0 < taken + done.length ∧ m.line + 1 ∈ s.breakpoints) ∨ ∃ f, m.step = .error f
  rest : s.runFor taken n = (s.moved done m).runFor (taken + done.length) (n - done.length)

variable {source : String} {l : Layout} {s : Session} {m : Machine} {taken n : Nat}
  {done : List Statement} {budget : Option Int}

/-- One more statement before a passage, at which the stretch does not have to stop. -/
theorem Passage.record {m₁ : Machine} {x : Statement}
    (hx : l.statements[s.machine.line.toNat]? = some x) (hline : x.line = s.machine.line + 1)
    (he : s.machine.atEnd = false) (hb : ¬ (0 < taken ∧ s.machine.line + 1 ∈ s.breakpoints))
    (hs : s.machine.step = .ok m₁) (h : Passage l (s.record m₁) (taken + 1) n done m) :
    Passage l s taken (n + 1) (x :: done) m := by
  have hcount : taken + (x :: done).length = taken + 1 + done.length := by
    rw [List.length_cons]
    omega
  refine ⟨Nat.succ_le_succ h.le, .cons hx hs h.executes, fun j hj m' hm' => ?_, ?_, ?_⟩
  · cases j with
    | zero =>
      cases hm'
      exact ⟨he, hb⟩
    | succ j =>
      rw [Machine.stepN_succ_of_step hs] at hm'
      have := h.passed j (by simpa using hj) m' hm'
      rwa [show taken + 1 + j = taken + (j + 1) by omega] at this
  · rw [hcount, List.length_cons, Nat.succ_inj]
    exact h.halts
  · have hmoved : (s.record m₁).moved done m = s.moved (x :: done) m := by
      simp [moved, Session.record, hline]
    rw [runFor_of_ok he hb hs, h.rest, hmoved, hcount, List.length_cons, Nat.add_sub_add_right]

theorem exists_passage (h : Layout.build (statements source) = .ok l) :
    ∀ (n : Nat) (s : Session) (taken : Nat), s.machine.Positioned l →
      ∃ done m, Passage l s taken n done m := by
  have hnone : ∀ {n : Nat} {s : Session} {taken : Nat}, (s.machine.atEnd = true ∨ 0 = n
      ∨ (0 < taken ∧ s.machine.line + 1 ∈ s.breakpoints) ∨ ∃ f, s.machine.step = .error f) →
      Passage l s taken n [] s.machine := fun hhalts =>
    ⟨Nat.zero_le _, .nil _, by simp, hhalts, by simp [moved]⟩
  intro n
  induction n with
  | zero => exact fun s taken _ => ⟨[], s.machine, hnone (.inr (.inl rfl))⟩
  | succ n ih =>
    intro s taken hpos
    by_cases he : s.machine.atEnd = true
    · exact ⟨[], s.machine, hnone (.inl he)⟩
    by_cases hb : 0 < taken ∧ s.machine.line + 1 ∈ s.breakpoints
    · exact ⟨[], s.machine, hnone (.inr (.inr (.inl hb)))⟩
    rcases hs : s.machine.step with f | m₁
    · exact ⟨[], s.machine, hnone (.inr (.inr (.inr ⟨f, hs⟩)))⟩
    · have he := Bool.eq_false_iff.2 he
      obtain ⟨x, hx, hline, -⟩ := hpos.statement h he
      obtain ⟨done, m, hpassage⟩ := ih (s.record m₁) (taken + 1) (hpos.step hs)
      exact ⟨x :: done, m, hpassage.record hx hline he hb hs⟩

theorem allowance_le_iff {k : Nat} : s.allowance budget ≤ k ↔ s.UsedUp budget k := by
  unfold allowance UsedUp Engine.fuel
  omega

/-- A passage of all that a stretch may execute ends where the stretch first has to stop. -/
theorem Passage.isLeast (hp : Passage l s 0 (s.allowance budget) done m) :
    IsLeast {k | ∃ m, s.machine.stepN k = .ok m ∧ s.HasToStop budget k m} done.length := by
  have hm := hp.executes.stepN
  refine ⟨⟨m, hm, ?_⟩, fun k hk => ?_⟩
  · have hhalts := hp.halts
    rw [Nat.zero_add] at hhalts
    rcases hhalts with he | hn | hb | hf
    · exact .inl he
    · exact .inr (.inl (allowance_le_iff.1 hn.ge))
    · exact .inr (.inr (.inl hb))
    · exact .inr (.inr (.inr hf))
  · obtain ⟨m', hm', hstop⟩ := hk
    by_contra! hlt
    obtain ⟨hend, hbreak⟩ := hp.passed k hlt m' hm'
    rw [Nat.zero_add] at hbreak
    rcases hstop with he | hused | hb | ⟨f, hf⟩
    · simp [hend] at he
    · exact absurd (allowance_le_iff.2 hused) (by have := hp.le; omega)
    · exact hbreak hb
    · obtain ⟨m₂, h₂⟩ := Machine.step_of_stepN hm hlt hm'
      simp [hf] at h₂

theorem stop_of_atEnd (he : s.machine.atEnd = true) (reason : StopReason) (message : String) :
    s.stop reason message = { reason, message } := by
  simp [stop, Machine.nextLine?, he]

theorem stop_of_statement {x : Statement} (he : s.machine.atEnd = false)
    (hline : x.line = s.machine.line + 1) (haddress : x.address = s.machine.address)
    (reason : StopReason) (message : String) :
    s.stop reason message
      = { reason, line := some x.line, address := some x.address, message } := by
  simp [stop, Machine.nextLine?, he, hline, haddress]

/-- After the passage the outcome hangs on the next statement alone. -/
theorem stopped_of_passage (h : Layout.build (statements source) = .ok l)
    (hpos : s.machine.Positioned l) (hp : Passage l s 0 (s.allowance budget) done m) :
    ∃ m' outcome, s.run budget = (s.moved done m', outcome)
      ∧ Stopped l s budget done.length m m' outcome := by
  have hm := hp.executes.stepN
  have hposm := Machine.positioned_stepN hpos hm
  have hrun := hp.rest
  rw [Nat.zero_add] at hrun
  rw [run, hrun]
  by_cases he : (s.moved done m).machine.atEnd = true
  · rw [runFor_of_atEnd he, stop_of_atEnd he]
    exact ⟨m, _, rfl, .finish he⟩
  have he := Bool.eq_false_iff.2 he
  obtain ⟨x, hx, hline, haddress⟩ := hposm.statement h he
  rcases hn : s.allowance budget - done.length with _ | n
  · refine ⟨m, _, ?_, .limit he hx (allowance_le_iff.1 (by omega))⟩
    have hsteps : (s.moved done m).machine.steps = s.machine.steps + done.length :=
      Machine.steps_stepN hm
    rw [runFor, if_neg (by simp [he]), stop_of_statement he hline haddress, hsteps]
  have hused : ¬ s.UsedUp budget done.length := fun hused => by
    have := allowance_le_iff.2 hused
    omega
  by_cases hb : 0 < done.length ∧ m.line + 1 ∈ s.breakpoints
  · rw [runFor_of_breakpoint he hb, stop_of_statement he hline haddress]
    exact ⟨m, _, rfl, .breakpoint he hx hused (hline ▸ hb)⟩
  rcases hs : m.step with f | m₁
  · have hb' : ¬ (0 < done.length ∧ x.line ∈ s.breakpoints) := hline ▸ hb
    rcases f with d | e
    · refine ⟨m.tick, _, ?_, .error he hx hused hb' hs⟩
      rw [runFor_of_diagnostic he hb hs, fault, hposm.line_of_diagnostic h hs, hline, haddress]
      rfl
    · rw [runFor_of_refusal he hb hs]
      exact ⟨m.tick, _, rfl, .refusal he hx hused hb' hs⟩
  · -- the passage would have gone on
    rcases hp.halts with hend | hall | hbreak | ⟨f, hf⟩
    · simp [show m.atEnd = false from he] at hend
    · omega
    · rw [Nat.zero_add] at hbreak
      exact absurd hbreak hb
    · simp [hs] at hf

theorem Stopped.line_eq {k : Nat} {m m' : Machine} {outcome : Except Failure Event} {ev : Event}
    (hstopped : Stopped l s budget k m m' outcome) (hpos : m.Positioned l)
    (h : Layout.build (statements source) = .ok l) (hev : outcome = .ok ev) :
    ev.line = m'.nextLine? := by
  have hnext : ∀ x, m.atEnd = false → l.statements[m.line.toNat]? = some x →
      some x.line = m.nextLine? := by
    intro x he hx
    obtain ⟨y, hy, hline, -⟩ := hpos.statement h he
    rw [hx] at hy
    cases hy
    simp [Machine.nextLine?, he, hline]
  cases hstopped with
  | finish he =>
    cases hev
    simp [Machine.nextLine?, he]
  | limit he hx | breakpoint he hx | error he hx =>
    cases hev
    exact hnext _ he hx
  | refusal => cases hev

/-- A stretch from any session that acts lead to, with any breakpoints, executes the statements up
to the first at which it has to stop and remembers their lines. What it says of the place is what
the session then says of the line to come. -/
theorem run_stops_first {config : Config} {source : String} {fresh : Session}
    (h : load config source = .ok fresh) (acts : List Act) (breakpoints : List Int)
    (budget : Option Int) :
    let s : Session := { fresh.afterAll acts with breakpoints }
    let r := s.run budget
    s.config = config ∧ ∃ l done m,
      Layout.build (statements (currentSource source acts)) = .ok l
        ∧ s.machine.Executes l done m
        ∧ IsLeast {k | ∃ m, s.machine.stepN k = .ok m ∧ s.HasToStop budget k m} done.length
        ∧ Stopped l s budget done.length m r.1.machine r.2
        ∧ r.1 = { s with
            machine := r.1.machine
            history := s.history ++ (done.map Statement.line).toArray }
        ∧ ∀ ev, r.2 = .ok ev → ev.line = r.1.machine.nextLine? := by
  intro s r
  have hsound := (sound_of_load h).afterAll acts
  obtain ⟨l, hl, htraced⟩ := hsound.traced
  have hpos : s.machine.Positioned l := by
    rw [show s.machine = _ from htraced.machine]
    exact (Machine.positioned_restart _ l).iterate _
  obtain ⟨done, m, hp⟩ := exists_passage hl (s.allowance budget) s 0 hpos
  obtain ⟨m', outcome, hrun, hstopped⟩ := stopped_of_passage hl hpos hp
  have hr : r = (s.moved done m', outcome) := hrun
  have hposm := Machine.positioned_stepN hpos hp.executes.stepN
  rw [hr]
  exact ⟨hsound.configured, l, done, m, hl, hp.executes, hp.isLeast, hstopped, rfl,
    fun ev hev => hstopped.line_eq hposm hl hev⟩

/-- A loop that has one step left below the ceiling: it stops on account of that before the line
with a breakpoint, to which the step leads. -/
theorem run_stops_first_ceiling :
    ∃ fresh s, load ⟨5, 2⟩ "K AR 1,1\nJ K" = .ok fresh
      ∧ s = { fresh.afterAll [.step, .step, .step, .step] with breakpoints := [2] }
      ∧ IsLeast {k | ∃ m, s.machine.stepN k = .ok m ∧ s.HasToStop none k m} 1
      ∧ (s.run none).2 = .ok
        { reason := .limit, line := some 2, address := some 2
          message := "Stopped after 1 steps (5 in total)" } := by
  have hload : (load ⟨5, 2⟩ "K AR 1,1\nJ K").map (fun fresh =>
      let s : Session :=
        { fresh.afterAll [.step, .step, .step, .step] with breakpoints := [2] }
      (s.history.size, (s.run none).1.history.size, (s.run none).2))
      = .ok (4, 5, .ok
        { reason := .limit, line := some 2, address := some 2
          message := "Stopped after 1 steps (5 in total)" }) := by
    decide +kernel
  obtain ⟨fresh, hfresh, hruns⟩ := map_eq_ok.1 hload
  simp only [Prod.mk.injEq] at hruns
  obtain ⟨hbefore, hafter, houtcome⟩ := hruns
  obtain ⟨-, l, done, m, -, -, hleast, -, hr, -⟩ :=
    run_stops_first hfresh [.step, .step, .step, .step] [2] none
  have hsize := congrArg (·.history.size) hr
  simp only [Array.size_append, List.size_toArray, List.length_map, hbefore, hafter] at hsize
  have hone : done.length = 1 := by omega
  rw [hone] at hleast
  exact ⟨fresh, _, hfresh, rfl, hleast, houtcome⟩

end Session

end WordMachine
