import WordMachine.Proofs.Settled
import WordMachine.Session

/-!
# Two ways to run a program

An engine runs a program to its end and then looks at the ceiling; a session looks at the ceiling
before every statement. Both take the same steps: a run stops at the first machine at the end, the
first that fails, or when the ceiling leaves no more (`runFor_cases`), and a session without
breakpoints goes along with it (`runFor_reports`). They differ in what they call a program that ends
on the last step allowed, and in nothing else (`run_agrees`).
-/

namespace WordMachine

open Text

namespace Machine

/-- The machine after the given number of steps, none of which fails. -/
def stepN : Nat → Machine → Except Failure Machine
  | 0, m => .ok m
  | n + 1, m => m.step >>= stepN n

/-- The end of the program is reached on the step of the given number. -/
def EndsOn (m : Machine) (n : Nat) : Prop :=
  (∃ m', m.stepN n = .ok m' ∧ m'.atEnd = true)
    ∧ ∀ k < n, ∀ m', m.stepN k = .ok m' → m'.atEnd = false

variable {m m' : Machine}

@[simp] theorem stepN_zero (m : Machine) : m.stepN 0 = .ok m := rfl

theorem stepN_succ_of_step (h : m.step = .ok m') (n : Nat) : m.stepN (n + 1) = m'.stepN n := by
  show (m.step >>= stepN n) = _
  rw [h]
  rfl

theorem stepN_add : ∀ (a b : Nat) (m : Machine), m.stepN (a + b) = m.stepN a >>= stepN b
  | 0, b, m => by
    rw [Nat.zero_add]
    rfl
  | a + 1, b, m => by
    rcases hs : m.step with f | m'
    · rw [Nat.add_right_comm]
      show (m.step >>= stepN (a + b)) = (m.step >>= stepN a) >>= stepN b
      rw [hs]
      rfl
    · rw [Nat.add_right_comm, stepN_succ_of_step hs, stepN_succ_of_step hs, stepN_add a b m']

theorem steps_step (h : m.step = .ok m') : m'.steps = m.steps + 1 := by
  have hn : m.next = m' := by
    unfold next
    rw [h]
  rw [← hn, steps_next]

theorem steps_stepN : ∀ {n : Nat} {m m' : Machine}, m.stepN n = .ok m' → m'.steps = m.steps + n
  | 0, m, m', h => by
    cases h
    rfl
  | n + 1, m, m', h => by
    obtain ⟨m₁, h₁, h⟩ := bind_eq_ok.1 h
    have := steps_step h₁
    have := steps_stepN h
    omega

theorem positioned_stepN {l : Layout} : ∀ {n : Nat} {m m' : Machine}, Positioned l m →
    m.stepN n = .ok m' → Positioned l m'
  | 0, m, m', hp, h => by
    cases h
    exact hp
  | n + 1, m, m', hp, h => by
    obtain ⟨m₁, h₁, h⟩ := bind_eq_ok.1 h
    exact positioned_stepN (hp.step h₁) h

theorem settled_stepN {l : Layout} : ∀ {n : Nat} {m m' : Machine}, Settled l m →
    m.stepN n = .ok m' → Settled l m'
  | 0, m, m', hm, h => by
    cases h
    exact hm
  | n + 1, m, m', hm, h => by
    obtain ⟨m₁, h₁, h⟩ := bind_eq_ok.1 h
    exact settled_stepN (hm.step h₁) h

section RunFor

variable (executed : Array Statement)

theorem runFor_of_atEnd (h : m.atEnd = true) (n : Nat) :
    m.runFor n executed = { machine := m, executed } := by
  cases n with
  | zero => rfl
  | succ n => simp [runFor, h]

theorem runFor_of_error {f : Failure} (he : m.atEnd = false) (h : m.step = .error f) (n : Nat) :
    m.runFor (n + 1) executed = { machine := m.tick, executed, failure := some f } := by
  simp [runFor, he, h]

theorem runFor_of_ok (he : m.atEnd = false) (h : m.step = .ok m') (n : Nat) :
    m.runFor (n + 1) executed = m'.runFor n (executed ++ m.current?.toArray) := by
  simp [runFor, he, h]

end RunFor

/-- A run takes steps until the end, a failure, or as many as it may. -/
theorem runFor_cases : ∀ (n : Nat) (m : Machine) (executed : Array Statement),
    ∃ k ≤ n, ∃ m', m.stepN k = .ok m'
      ∧ (∀ j < k, ∀ m₁, m.stepN j = .ok m₁ → m₁.atEnd = false)
      ∧ (((m.runFor n executed).failure = none ∧ (m.runFor n executed).machine = m'
          ∧ (m'.atEnd = true ∨ k = n))
        ∨ ∃ f, (m.runFor n executed).failure = some f ∧ (m.runFor n executed).machine = m'.tick
          ∧ k < n ∧ m'.step = .error f)
  | 0, m, executed => ⟨0, le_rfl, m, rfl, by simp, .inl ⟨rfl, rfl, .inr rfl⟩⟩
  | n + 1, m, executed => by
    rcases he : m.atEnd with _ | _
    · rcases hs : m.step with f | m₁
      · rw [runFor_of_error _ he hs]
        exact ⟨0, by omega, m, rfl, by simp, .inr ⟨f, rfl, rfl, by omega, hs⟩⟩
      · rw [runFor_of_ok _ he hs]
        obtain ⟨k, hk, m', hm', hbefore, hcases⟩ :=
          runFor_cases n m₁ (executed ++ m.current?.toArray)
        refine ⟨k + 1, by omega, m', by rw [stepN_succ_of_step hs, hm'], ?_, ?_⟩
        · intro j hj m₂ hm₂
          cases j with
          | zero =>
            cases hm₂
            exact he
          | succ j =>
            rw [stepN_succ_of_step hs] at hm₂
            exact hbefore j (by omega) m₂ hm₂
        · rcases hcases with ⟨hf, hmach, hstop⟩ | ⟨f, hf, hmach, hlt, hfail⟩
          · exact .inl ⟨hf, hmach, hstop.imp_right (by omega)⟩
          · exact .inr ⟨f, hf, hmach, by omega, hfail⟩
    · rw [runFor_of_atEnd _ he]
      exact ⟨0, by omega, m, rfl, by simp, .inl ⟨rfl, rfl, .inl he⟩⟩

theorem runFor_of_endsOn {n : Nat} (h : m.EndsOn n) (executed : Array Statement) :
    (m.runFor n executed).failure = none ∧ (m.runFor n executed).machine.atEnd = true
      ∧ (m.runFor n executed).machine.steps = m.steps + n := by
  obtain ⟨⟨last, hlast, hend⟩, hbefore⟩ := h
  obtain ⟨k, hk, m', hm', -, ⟨hf, hmach, hstop⟩ | ⟨f, -, -, hlt, hfail⟩⟩ :=
    runFor_cases n m executed
  · have hkn : k = n := by
      by_contra hne
      have hno := hbefore k (by omega) m' hm'
      rcases hstop with hstop | hstop
      · rw [hno] at hstop
        cases hstop
      · exact hne hstop
    rw [hkn, hlast] at hm'
    cases hm'
    exact ⟨hf, by rw [hmach, hend], by rw [hmach, steps_stepN hlast]⟩
  · -- a step that fails cannot be followed by another
    obtain ⟨j, rfl⟩ : ∃ j, n = k + (j + 1) := ⟨n - k - 1, by omega⟩
    rw [stepN_add, hm'] at hlast
    have hnext : (m'.step >>= stepN j) = .ok last := hlast
    rw [hfail] at hnext
    cases hnext

/-- A program has a line, so that it does not start at its end. -/
theorem atEnd_restart {source : String} {l : Layout} (h : Layout.build (statements source) = .ok l)
    (m : Machine) : (m.restart l).atEnd = false := by
  have hlen := length_of_build h
  have hne : lines source ≠ [] := by simp [lines, splitAtChar_ne_nil]
  have hpos := List.length_pos_iff.2 hne
  have hend := (atEnd_of_line (m := m.restart l) (n := 0) rfl).not
  rw [show (m.restart l).program = l.statements from rfl, hlen] at hend
  simpa using hend.2 (by omega)

end Machine

/-- What a session says of a run that it went along with. -/
def Run.Reported (r : Run) (outcome : Except Failure Event) : Prop :=
  match r.failure with
  | none => ∃ ev, outcome = .ok ev ∧ ev.reason = (if r.machine.atEnd then .finish else .limit)
      ∧ ev.line = r.machine.nextLine?
  | some (.diagnostic d) => ∃ ev, outcome = .ok ev ∧ ev.reason = .error ∧ ev.cause = some d
  | some (.refusal e) => outcome = .error (.refusal e)

namespace Session

variable {source : String} {l : Layout}

theorem allowance_none (s : Session) :
    s.allowance none = Engine.fuel s.config.maxSteps s.machine := by
  unfold allowance Engine.fuel
  simp only [Option.getD_none]
  omega

section RunFor

variable {s : Session} {m : Machine}

theorem runFor_of_atEnd (h : s.machine.atEnd = true) (taken n : Nat) :
    s.runFor taken n = (s, .ok (s.stop .finish "")) := by
  cases n with
  | zero => simp [runFor, h]
  | succ n => simp [runFor, h]

theorem runFor_zero (h : s.machine.atEnd = false) (taken : Nat) :
    ∃ message, s.runFor taken 0 = (s, .ok (s.stop .limit message)) := by
  simp [runFor, h]

theorem runFor_of_breakpoint {taken : Nat} (he : s.machine.atEnd = false)
    (hb : 0 < taken ∧ s.machine.line + 1 ∈ s.breakpoints) (n : Nat) :
    s.runFor taken (n + 1) = (s, .ok (s.stop .breakpoint "")) := by
  simp [runFor, he, hb]

variable {taken : Nat} (he : s.machine.atEnd = false)
  (hb : ¬ (0 < taken ∧ s.machine.line + 1 ∈ s.breakpoints))
include he hb

theorem runFor_of_ok (h : s.machine.step = .ok m) (n : Nat) :
    s.runFor taken (n + 1) = (s.record m).runFor (taken + 1) n := by
  simp only [runFor, he, hb, if_false, h]
  rfl

theorem runFor_of_diagnostic {d : Diagnostic} (h : s.machine.step = .error (.diagnostic d))
    (n : Nat) :
    s.runFor taken (n + 1) = ({ s with machine := s.machine.tick }, .ok (s.fault d)) := by
  simp only [runFor, he, hb, if_false, h]
  rfl

theorem runFor_of_refusal {r : Refusal} (h : s.machine.step = .error (.refusal r)) (n : Nat) :
    s.runFor taken (n + 1) = ({ s with machine := s.machine.tick }, .error (.refusal r)) := by
  simp only [runFor, he, hb, if_false, h]
  rfl

end RunFor

/-- Without breakpoints a session executes what a run executes, and remembers the same lines. -/
theorem runFor_reports (h : Layout.build (statements source) = .ok l) :
    ∀ (n : Nat) (s : Session) (taken : Nat) (executed : Array Statement), s.breakpoints = [] →
      s.machine.Positioned l →
      (s.runFor taken n).1.machine = (s.machine.runFor n executed).machine
        ∧ (∃ ys : List Statement, (s.machine.runFor n executed).executed.toList
            = executed.toList ++ ys
          ∧ (s.runFor taken n).1.history.toList = s.history.toList ++ ys.map Statement.line)
        ∧ (s.machine.runFor n executed).Reported (s.runFor taken n).2 := by
  intro n
  induction n with
  | zero =>
    intro s taken executed hb hp
    rcases he : s.machine.atEnd with _ | _
    · obtain ⟨message, hr⟩ := runFor_zero he taken
      rw [hr]
      exact ⟨rfl, ⟨[], by simp [Machine.runFor], by simp⟩, _, rfl,
        by simp [Machine.runFor, he, stop], rfl⟩
    · rw [runFor_of_atEnd he, Machine.runFor_of_atEnd _ he]
      exact ⟨rfl, ⟨[], by simp, by simp⟩, _, rfl, by simp [he, stop], rfl⟩
  | succ n ih =>
    intro s taken executed hb hp
    rcases he : s.machine.atEnd with _ | _
    · have hfree : ¬ (0 < taken ∧ s.machine.line + 1 ∈ s.breakpoints) := by simp [hb]
      rcases hs : s.machine.step with (d | e) | m
      · rw [runFor_of_diagnostic he hfree hs, Machine.runFor_of_error _ he hs]
        exact ⟨rfl, ⟨[], by simp, by simp⟩, _, rfl, rfl, rfl⟩
      · rw [runFor_of_refusal he hfree hs, Machine.runFor_of_error _ he hs]
        exact ⟨rfl, ⟨[], by simp, by simp⟩, rfl⟩
      · obtain ⟨x, hx, hget, -⟩ := hp.next (Layout.build_placed h) he
        have hline : x.line = s.machine.line + 1 := by
          obtain ⟨k, hk, -, -⟩ := hp.place
          rw [hk, Int.toNat_natCast, hp.program] at hget
          rw [Statement.line, (statement_of_build h hget).2.1, hk]
        rw [runFor_of_ok he hfree hs, Machine.runFor_of_ok _ he hs]
        obtain ⟨hm, ⟨ys, hys, hhist⟩, hrep⟩ := ih (s.record m) (taken + 1)
          (executed ++ s.machine.current?.toArray) hb (hp.step hs)
        refine ⟨hm, ⟨x :: ys, ?_, ?_⟩, hrep⟩
        · refine hys.trans ?_
          simp [hx]
        · rw [hhist]
          simp [record, hline]
    · rw [runFor_of_atEnd he, Machine.runFor_of_atEnd _ he]
      exact ⟨rfl, ⟨[], by simp, by simp⟩, _, rfl, by simp [he, stop], rfl⟩

theorem load_eq (h : Layout.build (statements source) = .ok l) (config : Config) :
    load config source
      = .ok { config, machine := (Machine.fresh config (statements source)).restart l } := by
  simp only [load, start, h]
  rfl

end Session

namespace Engine

variable {source : String} {l : Layout}

section Closing

variable {limit : Int}

/-- A ceiling that can be written out is reported where it is reached, and nothing else is. -/
theorem closing_of_isWritable (hw : Numeral.isWritable limit = true) (m : Machine) :
    closing limit m
      = if limit ≤ m.steps then some (.diagnostic (overLimit limit m)) else none := by
  have hreport : Failure.report (overLimit limit m) = .diagnostic (overLimit limit m) :=
    if_pos (by simpa [overLimit, Cause.isWritable, Cause.numbers] using hw)
  unfold closing
  rw [hreport]
  split_ifs with hlimit hsteps
  · rfl
  · rfl
  · exact absurd (Numeral.isWritable_mono (by omega) hw) hsteps

/-- A ceiling that cannot be written out is refused where it is reached. -/
theorem closing_of_not_isWritable (hw : Numeral.isWritable limit = false) (m : Machine) :
    closing limit m
      = if m.steps < limit ∧ Numeral.isWritable m.steps = true then none
        else some (.refusal .numberTooLong) := by
  have hreport : Failure.report (overLimit limit m) = .refusal .numberTooLong :=
    if_neg (by simpa [overLimit, Cause.isWritable, Cause.numbers] using hw)
  unfold closing
  rw [hreport]
  by_cases hlimit : limit ≤ m.steps
  · rw [if_pos hlimit, if_neg (by omega)]
  · simp [hlimit, Int.not_le.1 hlimit]

theorem closing_cases (limit : Int) (m : Machine) :
    closing limit m = none
      ∨ closing limit m = some (.diagnostic ⟨.executionLimit limit, m.nextLine?⟩)
      ∨ closing limit m = some (.refusal .numberTooLong) := by
  unfold closing Failure.report overLimit
  split_ifs <;> simp

theorem lt_of_closing_eq_none {m : Machine} (h : closing limit m = none) : m.steps < limit := by
  unfold closing at h
  split_ifs at h with hlimit
  omega

end Closing

/-- How a run ends that may have failed: if it did not, the ceiling is looked at. -/
def verdict (limit : Int) (r : Run) : Option Failure := r.failure.or (closing limit r.machine)

theorem run_load (h : Layout.build (statements source) = .ok l) (config : Config) :
    let m := (Machine.fresh config (statements source)).restart l
    let r := m.runFor config.maxSteps.toNat #[]
    (load config source).run.engine.machine = r.machine
      ∧ (load config source).run.executed = r.executed
      ∧ (load config source).run.failure = verdict config.maxSteps r := by
  intro m r
  have hp : (load config source).prepare
      = .ok { load config source with laidOut := true, machine := m } := prepare_of_build h
  have hfuel : fuel config.maxSteps m = config.maxSteps.toNat := by
    simp only [fuel, show m.steps = 0 from rfl]
    omega
  have hr : m.runFor (fuel config.maxSteps m) #[] = r := by rw [hfuel]
  unfold run
  simp only [hp, show (load config source).limit = config.maxSteps from rfl, hr, true_and]
  rfl

/-- A call failed because a step did, after others that did not. -/
def Turn.RaisedByStep (t : Turn) (start : Machine) (f : Failure) : Prop :=
  t.failure = some f
    ∧ ∃ k m, start.stepN k = .ok m ∧ m.step = .error f ∧ t.engine.machine = m.tick

/-- No step reports the ceiling, and none is refused for a number too long to be written out. -/
theorem Turn.RaisedByStep.ne_closing {t : Turn} {start : Machine} {f : Failure}
    (hf : t.RaisedByStep start f) (h : Layout.build (statements source) = .ok l)
    (hstart : start.Settled l) :
    (∀ limit line, f ≠ .diagnostic ⟨.executionLimit limit, line⟩)
      ∧ f ≠ .refusal .numberTooLong := by
  obtain ⟨-, k, m, hm, hfault, -⟩ := hf
  constructor
  · rintro limit line rfl
    exact Machine.step_error_ne_limit hfault limit rfl
  · rintro rfl
    obtain ⟨fault, hfault⟩ := (Machine.settled_stepN hstart hm).step_refusal h hfault
    cases hfault

theorem failure_run_of_endsOn (h : Layout.build (statements source) = .ok l) {config : Config}
    {n : Nat} (hn : config.maxSteps = n)
    (hends : ((Machine.fresh config (statements source)).restart l).EndsOn n)
    (hw : Numeral.isWritable config.maxSteps = true) :
    (load config source).run.failure
      = some (.diagnostic ⟨.executionLimit config.maxSteps, none⟩) := by
  obtain ⟨hf, hend, hsteps⟩ := Machine.runFor_of_endsOn hends #[]
  rw [(run_load h config).2.2, show config.maxSteps.toNat = n by omega, verdict, hf, Option.none_or,
    closing_of_isWritable hw]
  have hlimit : config.maxSteps
      ≤ (((Machine.fresh config (statements source)).restart l).runFor n #[]).machine.steps := by
    rw [hsteps]
    simp [Machine.restart, Machine.fresh, hn]
  simp only [if_pos hlimit, overLimit, Machine.nextLine?, if_pos hend]

/-- The four ways in which a run from the start of a program ends together with a session without
breakpoints. -/
inductive Turn.Matches (t : Turn) (start : Machine) (limit : Int) : Except Failure Event → Prop
  | finish {ev : Event} (hreason : ev.reason = .finish)
    (hnext : t.engine.machine.nextLine? = none) (hf : t.failure = closing limit t.engine.machine)
    (hend : limit ≤ t.engine.machine.steps → ∃ n : Nat, limit = n ∧ start.EndsOn n) :
    Matches t start limit (.ok ev)
  | limit {ev : Event} {n : Int} (hreason : ev.reason = .limit) (hline : ev.line = some n)
    (hnext : t.engine.machine.nextLine? = some n)
    (hf : t.failure = closing limit t.engine.machine)
    (hlimit : limit ≤ t.engine.machine.steps) : Matches t start limit (.ok ev)
  | error {ev : Event} {d : Diagnostic} (hreason : ev.reason = .error) (hcause : ev.cause = some d)
    (hf : t.RaisedByStep start (.diagnostic d)) : Matches t start limit (.ok ev)
  | refusal {e : Refusal} (hf : t.RaisedByStep start (.refusal e)) :
    Matches t start limit (.error (.refusal e))

theorem matches_of_reported (h : Layout.build (statements source) = .ok l) (config : Config)
    {outcome : Except Failure Event} {start : Machine}
    (hstart : (Machine.fresh config (statements source)).restart l = start)
    (hrep : (start.runFor config.maxSteps.toNat #[]).Reported outcome)
    {t : Turn} (ht : (load config source).run = t) :
    t.Matches start config.maxSteps outcome := by
  have hnotEnd : start.atEnd = false := by rw [← hstart, Machine.atEnd_restart h]
  have hzero : start.steps = 0 := by rw [← hstart]; rfl
  obtain ⟨hmach, -, hfail⟩ := run_load h config
  rw [ht, hstart] at hmach hfail
  obtain ⟨k, hk, m', hm', hbefore, ⟨hf, hm, hstop⟩ | ⟨f, hf, hm, -, hfault⟩⟩ :=
    Machine.runFor_cases config.maxSteps.toNat start #[]
  · have hlast : t.engine.machine = m' := hmach.trans hm
    have hsteps : m'.steps = k := by
      have := Machine.steps_stepN hm'
      omega
    have htfail : t.failure = closing config.maxSteps t.engine.machine := by
      rw [hfail, verdict, hf, Option.none_or, hmach]
    unfold Run.Reported at hrep
    rw [hf, hm] at hrep
    obtain ⟨ev, rfl, hreason, hline⟩ := hrep
    rcases he : m'.atEnd with _ | _
    · have hkn : k = config.maxSteps.toNat := by
        rcases hstop with hstop | hstop
        · rw [he] at hstop
          cases hstop
        · exact hstop
      have hnext : m'.nextLine? = some (m'.line + 1) := by simp [Machine.nextLine?, he]
      exact .limit (by simpa [he] using hreason) (hline.trans hnext) (hlast ▸ hnext) htfail
        (by rw [hlast]; omega)
    · have hnext : m'.nextLine? = none := by simp [Machine.nextLine?, he]
      refine .finish (by simpa [he] using hreason) (hlast ▸ hnext) htfail fun hlimit => ?_
      have hpos : 0 < k := by
        rcases Nat.eq_zero_or_pos k with rfl | hpos
        · cases hm'
          rw [hnotEnd] at he
          cases he
        · exact hpos
      rw [hlast] at hlimit
      exact ⟨k, by omega, ⟨m', hm', he⟩, hbefore⟩
  · have hraised : t.RaisedByStep start f :=
      ⟨by rw [hfail, verdict, hf, Option.some_or], k, m', hm', hfault, by rw [hmach, hm]⟩
    unfold Run.Reported at hrep
    rw [hf] at hrep
    cases f with
    | diagnostic d =>
      obtain ⟨ev, rfl, hreason, hcause⟩ := hrep
      exact .error hreason hcause hraised
    | refusal e =>
      rw [show outcome = _ from hrep]
      exact .refusal hraised

namespace Turn.Matches

variable {t : Turn} {start : Machine} {limit : Int} {outcome : Except Failure Event}
  (hm : t.Matches start limit outcome)

/-!
What a step raises is neither the report of a ceiling nor a refusal to write one
(`Turn.RaisedByStep.ne_closing`). The failure of the run therefore tells the four ways apart, and
each statement below is read off in each of them.
-/

section Steps

variable (h : Layout.build (statements source) = .ok l) (hstart : start.Settled l)
include hm h hstart

theorem error_iff (d : Diagnostic) :
    (∃ ev, outcome = .ok ev ∧ ev.reason = .error ∧ ev.cause = some d)
      ↔ t.RaisedByStep start (.diagnostic d) := by
  have hclosing := closing_cases limit t.engine.machine
  have hraised := fun hf : t.RaisedByStep start (.diagnostic d) =>
    And.intro hf.1 (hf.ne_closing h hstart)
  cases hm with
  | finish => grind
  | limit => grind
  | error _ _ hf => grind [hf.1]
  | refusal hf => grind [hf.1]

theorem refusal_iff (f : Failure) :
    outcome = .error f ↔ (∃ e, f = .refusal e) ∧ t.RaisedByStep start f := by
  have hclosing := closing_cases limit t.engine.machine
  have hraised := fun hf : t.RaisedByStep start f =>
    And.intro hf.1 (hf.ne_closing h hstart)
  cases hm with
  | finish => grind
  | limit => grind
  | error _ _ hf => grind [hf.1]
  | refusal hf => grind [hf.1]

variable (hw : Numeral.isWritable limit = true)
include hw

theorem limit_iff (line : Option Int) :
    (∃ ev, outcome = .ok ev ∧ ev.reason = .limit ∧ ev.line = line)
      ↔ ∃ n, line = some n ∧ t.failure = some (.diagnostic ⟨.executionLimit limit, some n⟩) := by
  have hclosing := closing_of_isWritable hw t.engine.machine
  unfold overLimit at hclosing
  cases hm with
  | finish => grind
  | limit => grind
  | error _ _ hf => grind [hf.1, hf.ne_closing h hstart]
  | refusal hf => grind [hf.1]

theorem finish_iff :
    (∃ ev, outcome = .ok ev ∧ ev.reason = .finish)
      ↔ t.failure = none
        ∨ t.failure = some (.diagnostic ⟨.executionLimit limit, none⟩) := by
  have hclosing := closing_of_isWritable hw t.engine.machine
  unfold overLimit at hclosing
  cases hm with
  | finish => grind
  | limit => grind
  | error _ _ hf => grind [hf.1, hf.ne_closing h hstart]
  | refusal hf => grind [hf.1]

theorem endsOn_of_failure (hf : t.failure = some (.diagnostic ⟨.executionLimit limit, none⟩)) :
    ∃ n : Nat, limit = n ∧ start.EndsOn n := by
  have hclosing := closing_of_isWritable hw t.engine.machine
  unfold overLimit at hclosing
  cases hm with
  | finish => grind
  | limit => grind
  | error _ _ hraised => grind [hraised.1, hraised.ne_closing h hstart]
  | refusal hraised => grind [hraised.1]

end Steps

/-- A ceiling that cannot be written out is not reported, whether the session stops at it or not. -/
theorem failure_of_not_isWritable {ev : Event} (hm : t.Matches start limit (.ok ev))
    (hw : Numeral.isWritable limit = false) (hreason : ev.reason = .limit ∨ ev.reason = .finish) :
    t.failure = if t.engine.machine.steps < limit
        ∧ Numeral.isWritable t.engine.machine.steps = true then none
      else some (.refusal .numberTooLong) := by
  rw [← closing_of_not_isWritable hw]
  cases hm with
  | finish _ _ hf => exact hf
  | limit _ _ _ hf => exact hf
  | error herror =>
    rw [herror] at hreason
    rcases hreason with hreason | hreason <;> cases hreason

end Turn.Matches

/-- A fresh engine run to its end and a fresh session without breakpoints run once leave the same
machine and have executed the same lines. An error of a step is the error of both, and a refusal
escapes from both. The session is stopped by the ceiling where the run reports it with a line, and
finishes where the run does, or where the run reports the ceiling with no line because the program
ended on the last step allowed. The session does not write the ceiling out; a run refuses to report
one that cannot be. -/
theorem run_agrees (h : Layout.build (statements source) = .ok l) (config : Config) :
    ∃ s, Session.load config source = .ok s ∧ s.breakpoints = [] ∧
      let t := (load config source).run
      let r := s.run none
      r.1.machine = t.engine.machine
        ∧ r.1.history.toList = t.executed.toList.map Statement.line
        ∧ (∀ d, (∃ ev, r.2 = .ok ev ∧ ev.reason = .error ∧ ev.cause = some d)
          ↔ t.RaisedByStep s.machine (.diagnostic d))
        ∧ (Numeral.isWritable config.maxSteps = true →
          (∀ line, (∃ ev, r.2 = .ok ev ∧ ev.reason = .limit ∧ ev.line = line)
              ↔ ∃ n, line = some n
                ∧ t.failure = some (.diagnostic ⟨.executionLimit config.maxSteps, some n⟩))
            ∧ ((∃ ev, r.2 = .ok ev ∧ ev.reason = .finish)
              ↔ t.failure = none
                ∨ t.failure = some (.diagnostic ⟨.executionLimit config.maxSteps, none⟩))
            ∧ (t.failure = some (.diagnostic ⟨.executionLimit config.maxSteps, none⟩)
              ↔ ∃ n : Nat, config.maxSteps = n ∧ s.machine.EndsOn n))
        ∧ (Numeral.isWritable config.maxSteps = false →
          ∀ ev, r.2 = .ok ev → ev.reason = .limit ∨ ev.reason = .finish →
            t.failure
              = if t.engine.machine.steps < config.maxSteps
                  ∧ Numeral.isWritable t.engine.machine.steps = true then none
                else some (.refusal .numberTooLong))
        ∧ ∀ f, r.2 = .error f ↔ (∃ e, f = .refusal e) ∧ t.RaisedByStep s.machine f := by
  refine ⟨_, Session.load_eq h config, rfl, ?_⟩
  generalize hstart : (Machine.fresh config (statements source)).restart l = start
  generalize ht : (load config source).run = t
  intro _ r
  have hrun : r = Session.runFor { config, machine := start } 0 config.maxSteps.toNat := by
    show Session.runFor _ 0 _ = _
    rw [Session.allowance_none]
    show Session.runFor _ 0 (config.maxSteps - start.steps).toNat = _
    rw [← hstart]
    simp [Machine.restart, Machine.fresh]
  obtain ⟨hm, ⟨ys, hys, hhist⟩, hrep⟩ := Session.runFor_reports h config.maxSteps.toNat
    { config, machine := start } 0 #[] rfl (hstart ▸ Machine.positioned_restart _ _)
  rw [← hrun] at hm hhist hrep
  have hmatches : t.Matches start config.maxSteps r.2 :=
    matches_of_reported h config hstart hrep ht
  have hsettled : start.Settled l := hstart ▸ Machine.settled_fresh config _ l
  obtain ⟨hmach, hexec, -⟩ := run_load h config
  rw [ht, hstart] at hmach hexec
  refine ⟨by rw [hm, hmach], ?_, hmatches.error_iff h hsettled, fun hw => ?_,
    fun hw ev hev hreason => ?_, hmatches.refusal_iff h hsettled⟩
  · simp only [List.nil_append] at hys hhist
    rw [hhist, hexec, hys]
  · refine ⟨hmatches.limit_iff h hsettled hw, hmatches.finish_iff h hsettled hw,
      hmatches.endsOn_of_failure h hsettled hw, ?_⟩
    rintro ⟨n, hn, hends⟩
    have hfailure := failure_run_of_endsOn h hn (hstart ▸ hends) hw
    rw [ht] at hfailure
    exact hfailure
  · exact (hev ▸ hmatches).failure_of_not_isWritable hw hreason

/-- The second of two steps allowed is the last of the program. -/
theorem run_agrees_boundary :
    (load ⟨2, 4⟩ "LA 1,5\nLR 2,1").run.failure
        = some (.diagnostic ⟨.executionLimit 2, none⟩)
      ∧ ∃ s, Session.load ⟨2, 4⟩ "LA 1,5\nLR 2,1" = .ok s
        ∧ (∃ ev, (s.run none).2 = .ok ev ∧ ev.reason = .finish)
        ∧ (s.run none).1.history.toList
          = (load ⟨2, 4⟩ "LA 1,5\nLR 2,1").run.executed.toList.map Statement.line
        ∧ s.machine.EndsOn 2 := by
  have hbuild : (Layout.build (statements "LA 1,5\nLR 2,1")).map Layout.size = .ok 6 := by
    decide +kernel
  obtain ⟨l, hl, -⟩ := map_eq_ok.1 hbuild
  have hf : (load ⟨2, 4⟩ "LA 1,5\nLR 2,1").run.failure
      = some (.diagnostic ⟨.executionLimit 2, none⟩) := by
    decide +kernel
  obtain ⟨s, hs, -, -, hhist, -, hwritten, -, -⟩ := run_agrees hl ⟨2, 4⟩
  obtain ⟨-, hfinish, hends⟩ := hwritten (by decide +kernel)
  obtain ⟨n, hn, hend⟩ := hends.1 hf
  cases Int.ofNat.inj hn
  exact ⟨hf, s, hs, hfinish.2 (.inr hf), hhist, hend⟩

/-- Under a ceiling that is negative and too long to be written out the session stops, and the run
is refused. -/
theorem run_agrees_unwritten :
    let limit : Int := -(Nat.pow 10 Numeral.maxDigits : Nat)
    (load ⟨limit, 4⟩ "LR 2,1").run.failure = some (.refusal .numberTooLong)
      ∧ (Session.load ⟨limit, 4⟩ "LR 2,1").map (fun s => (s.run none).2.map Event.reason)
        = .ok (.ok .limit) := by
  decide +kernel

end Engine

end WordMachine
