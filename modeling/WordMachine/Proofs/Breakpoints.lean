import WordMachine.Proofs.Runs

/-!
# Breakpoints

A stretch that stops at a breakpoint is the first part of the stretch that the same session would
make without breakpoints, and it has executed something; one that stops otherwise is that stretch
whole (`runFor_split`). Every stretch of a debugging loop therefore leaves less below the ceiling
for the next, so the loop ends, and it ends where a single stretch without breakpoints ends
(`Loops.exists_of_fuel`).
-/

namespace WordMachine

/-- An event without its wording. -/
def Event.mute (ev : Event) : Event := { ev with message := "" }

/-- A stretch that stopped before a line with a breakpoint. -/
def AtBreakpoint (outcome : Except Failure Event) : Prop :=
  ∃ ev, outcome = .ok ev ∧ ev.reason = .breakpoint

namespace Session

/-- The debugging loop: stretches are run as long as they stop at breakpoints. The number is how
many were run, the session and the outcome are those of the last. -/
inductive Loops : Session → Nat → Session → Except Failure Event → Prop
  | last {s : Session} (h : ¬ AtBreakpoint (s.run none).2) : Loops s 1 (s.run none).1 (s.run none).2
  | again {s s' : Session} {calls : Nat} {outcome : Except Failure Event}
    (h : AtBreakpoint (s.run none).2) (rest : Loops (s.run none).1 calls s' outcome) :
    Loops s (calls + 1) s' outcome

theorem not_atBreakpoint_stop {s : Session} {reason : StopReason} {message : String}
    (h : reason ≠ .breakpoint) : ¬ AtBreakpoint (.ok (s.stop reason message)) := by
  rintro ⟨ev, hev, hreason⟩
  cases hev
  exact h hreason

theorem not_mem_clearBreakpoints (s : Session) (taken : Nat) :
    ¬ (0 < taken ∧ s.clearBreakpoints.machine.line + 1 ∈ s.clearBreakpoints.breakpoints) := by
  simp [clearBreakpoints]

theorem run_none (s : Session) :
    s.run none = s.runFor 0 (Engine.fuel s.config.maxSteps s.machine) := by
  unfold run
  rw [allowance_none]

/-- What a stretch has done when it stops at a breakpoint: `k` statements are executed, and the
stretch without breakpoints goes on from there with what is left of its allowance. -/
structure Pauses (s paused : Session) (free n k : Nat) : Prop where
  le : k ≤ n
  config : paused.config = s.config
  steps : paused.machine.steps = s.machine.steps + k
  history : paused.history.size = s.history.size + k
  rest : s.clearBreakpoints.runFor free n = paused.clearBreakpoints.runFor (free + k) (n - k)

theorem Pauses.record {s paused : Session} {m : Machine} {free n k : Nat}
    (he : s.machine.atEnd = false) (hs : s.machine.step = .ok m)
    (h : Pauses (s.record m) paused (free + 1) n k) : Pauses s paused free (n + 1) (k + 1) := by
  have hfree := s.not_mem_clearBreakpoints free
  have hsteps : (s.record m).machine.steps = s.machine.steps + 1 := Machine.steps_step hs
  have hhist : (s.record m).history.size = s.history.size + 1 := by simp [Session.record]
  refine ⟨by have := h.le; omega, h.config, ?_, ?_, ?_⟩
  · rw [h.steps, hsteps]
    omega
  · rw [h.history, hhist]
    omega
  · rw [runFor_of_ok (s := s.clearBreakpoints) he hfree hs, Nat.add_sub_add_right,
      show free + (k + 1) = free + 1 + k by omega]
    exact h.rest

/-- A stretch stops at a breakpoint on its way, or it is the stretch without breakpoints. -/
theorem runFor_split (n : Nat) : ∀ (s : Session) (taken free : Nat),
    (AtBreakpoint (s.runFor taken n).2
        ∧ ∃ k, (taken = 0 → 0 < k) ∧ Pauses s (s.runFor taken n).1 free n k)
      ∨ (¬ AtBreakpoint (s.runFor taken n).2
        ∧ (s.clearBreakpoints.runFor free n).1 = (s.runFor taken n).1.clearBreakpoints
        ∧ (s.clearBreakpoints.runFor free n).2.map Event.mute
          = (s.runFor taken n).2.map Event.mute) := by
  induction n with
  | zero =>
    intro s taken free
    rcases he : s.machine.atEnd with _ | _
    · obtain ⟨text, hr⟩ := runFor_zero he taken
      obtain ⟨text', hr'⟩ := runFor_zero (s := s.clearBreakpoints) he free
      rw [hr, hr']
      exact .inr ⟨not_atBreakpoint_stop (by simp), rfl, rfl⟩
    · rw [runFor_of_atEnd he, runFor_of_atEnd (s := s.clearBreakpoints) he]
      exact .inr ⟨not_atBreakpoint_stop (by simp), rfl, rfl⟩
  | succ n ih =>
    intro s taken free
    rcases he : s.machine.atEnd with _ | _
    · have hfree := s.not_mem_clearBreakpoints free
      by_cases hb : 0 < taken ∧ s.machine.line + 1 ∈ s.breakpoints
      · rw [runFor_of_breakpoint he hb]
        exact .inl ⟨⟨_, rfl, rfl⟩, 0, by omega, by omega, rfl, rfl, rfl, rfl⟩
      · rcases hs : s.machine.step with (d | r) | m
        · rw [runFor_of_diagnostic he hb hs,
            runFor_of_diagnostic (s := s.clearBreakpoints) he hfree hs]
          refine .inr ⟨?_, rfl, rfl⟩
          rintro ⟨ev, hev, hreason⟩
          cases hev
          cases hreason
        · rw [runFor_of_refusal he hb hs, runFor_of_refusal (s := s.clearBreakpoints) he hfree hs]
          refine .inr ⟨?_, rfl, rfl⟩
          rintro ⟨ev, hev, -⟩
          cases hev
        · rw [runFor_of_ok he hb hs]
          rcases ih (s.record m) (taken + 1) (free + 1) with ⟨hat, k, -, hp⟩ | ⟨hat, hs', ho⟩
          · exact .inl ⟨hat, k + 1, by omega, hp.record he hs⟩
          · rw [runFor_of_ok (s := s.clearBreakpoints) he hfree hs]
            exact .inr ⟨hat, hs', ho⟩
    · rw [runFor_of_atEnd he, runFor_of_atEnd (s := s.clearBreakpoints) he]
      exact .inr ⟨not_atBreakpoint_stop (by simp), rfl, rfl⟩

/-- The loop ends within what the ceiling leaves, where a stretch without breakpoints ends. -/
theorem Loops.exists_of_fuel (n : Nat) : ∀ (s : Session) (free : Nat),
    Engine.fuel s.config.maxSteps s.machine = n →
    ∃ calls s' outcome, Loops s calls s' outcome ∧ calls ≤ n + 1
      ∧ (s.clearBreakpoints.runFor free n).1 = s'.clearBreakpoints
      ∧ (s.clearBreakpoints.runFor free n).2.map Event.mute = outcome.map Event.mute := by
  induction n using Nat.strong_induction_on with
  | _ n ih =>
    intro s free hn
    have hrun : s.run none = s.runFor 0 n := by rw [run_none, hn]
    rcases runFor_split n s 0 free with ⟨hat, k, hk, hp⟩ | ⟨hat, hs', ho⟩
    · rw [← hrun] at hat hp
      have hpos : 0 < k := hk rfl
      have hle := hp.le
      have hfuel : Engine.fuel (s.run none).1.config.maxSteps (s.run none).1.machine = n - k := by
        unfold Engine.fuel at hn ⊢
        rw [hp.config, hp.steps]
        omega
      obtain ⟨calls, s', outcome, hloops, hcalls, hs', ho⟩ :=
        ih (n - k) (by omega) (s.run none).1 (free + k) hfuel
      rw [← hp.rest] at hs' ho
      exact ⟨calls + 1, s', outcome, .again hat hloops, by omega, hs', ho⟩
    · rw [← hrun] at hat hs' ho
      exact ⟨1, _, _, .last hat, by omega, hs', ho⟩

theorem stretches_of_atBreakpoint {s : Session} (h : AtBreakpoint (s.run none).2) (n : Nat) :
    s.stretches (n + 1) = (s, s.run none) :: (s.run none).1.stretches n := by
  obtain ⟨ev, hev, hreason⟩ := h
  rcases hr : s.run none with ⟨s', outcome⟩
  rw [hr] at hev
  simp only at hev
  simp [stretches, hr, hev, hreason]

theorem stretches_of_not_atBreakpoint {s : Session} (h : ¬ AtBreakpoint (s.run none).2) (n : Nat) :
    s.stretches (n + 1) = [(s, s.run none)] := by
  rcases hr : s.run none with ⟨s', f | ev⟩
  · simp [stretches, hr]
  · have hreason : ev.reason ≠ .breakpoint := fun he => h ⟨ev, by rw [hr], he⟩
    simp [stretches, hr, hreason]

/-- The stretches that are listed are those of the loop. -/
theorem Loops.stretches {s s' : Session} {calls : Nat} {outcome : Except Failure Event}
    (h : Loops s calls s' outcome) : ∀ n, calls ≤ n →
      (s.stretches n).length = calls
        ∧ (s.stretches n).getLast?.map Prod.snd = some (s', outcome) := by
  induction h with
  | last hnot =>
    intro n hn
    obtain ⟨n, rfl⟩ : ∃ k, n = k + 1 := ⟨n - 1, by omega⟩
    rw [stretches_of_not_atBreakpoint hnot]
    exact ⟨rfl, rfl⟩
  | again hat _ ih =>
    intro n hn
    obtain ⟨n, rfl⟩ : ∃ k, n = k + 1 := ⟨n - 1, by omega⟩
    obtain ⟨hlen, hlast⟩ := ih n (by omega)
    rw [stretches_of_atBreakpoint hat, List.length_cons, hlen, List.getLast?_cons]
    refine ⟨rfl, ?_⟩
    rcases hl : ((Session.run _ none).1.stretches n).getLast? with _ | x <;> rw [hl] at hlast
    · cases hlast
    · exact hlast

/-- A debugging loop has one outcome. -/
theorem Loops.unique {s s' : Session} {calls : Nat} {outcome : Except Failure Event}
    (h : Loops s calls s' outcome) : ∀ {calls' : Nat} {s'' : Session}
      {outcome' : Except Failure Event}, Loops s calls' s'' outcome' →
        calls' = calls ∧ s'' = s' ∧ outcome' = outcome := by
  induction h with
  | last hnot =>
    intro calls' s'' outcome' h'
    cases h' with
    | last => exact ⟨rfl, rfl, rfl⟩
    | again hat _ => exact absurd hat hnot
  | again hat _ ih =>
    intro calls' s'' outcome' h'
    cases h' with
    | last hnot => exact absurd hat hnot
    | again _ hrest =>
      obtain ⟨rfl, rfl, rfl⟩ := ih hrest
      exact ⟨rfl, rfl, rfl⟩

theorem Loops.getLast?_finish {s s' : Session} {calls : Nat} {outcome : Except Failure Event}
    (h : Loops s calls s' outcome) :
    s.finish.getLast?.map Prod.snd = some (s', outcome) := by
  -- the loop that is known to stay within the ceiling is the only one
  obtain ⟨calls', s'', outcome', hloops, hle, -, -⟩ := Loops.exists_of_fuel _ s 0 rfl
  obtain ⟨rfl, rfl, rfl⟩ := h.unique hloops
  exact (h.stretches _ hle).2

/-- Nothing is executed at or above the ceiling. -/
theorem run_of_limit {s : Session} (h : s.config.maxSteps ≤ s.machine.steps)
    (budget : Option Int) : (s.run budget).1 = s := by
  have hzero : s.allowance budget = 0 := by
    unfold allowance Engine.fuel
    omega
  unfold run
  rw [hzero]
  rcases he : s.machine.atEnd with _ | _
  · obtain ⟨text, hr⟩ := runFor_zero he 0
    rw [hr]
  · rw [runFor_of_atEnd he]

/-- A debugging loop ends, after no more stretches than the ceiling leaves steps and one. Each that
stops at a breakpoint has executed a statement, and none executes one at the ceiling. The last stops
for the reason and at the place for which a single stretch without breakpoints stops, and leaves the
same machine and history. -/
theorem breakpoints_transparent (s : Session) :
    (∀ budget, AtBreakpoint (s.run budget).2 →
        s.history.size < (s.run budget).1.history.size
          ∧ s.machine.steps < (s.run budget).1.machine.steps)
      ∧ (s.config.maxSteps ≤ s.machine.steps → ∀ budget, (s.run budget).1 = s)
      ∧ ∃ calls s' outcome, Loops s calls s' outcome
        ∧ (calls : Int) ≤ max 0 (s.config.maxSteps - s.machine.steps) + 1
        ∧ s.finish.length = calls ∧ s.finish.getLast?.map Prod.snd = some (s', outcome)
        ∧ s'.machine = (s.clearBreakpoints.run none).1.machine
        ∧ s'.history = (s.clearBreakpoints.run none).1.history
        ∧ outcome.map Event.mute = (s.clearBreakpoints.run none).2.map Event.mute := by
  refine ⟨fun budget hat => ?_, run_of_limit, ?_⟩
  · rcases runFor_split (s.allowance budget) s 0 0 with ⟨-, k, hk, hp⟩ | ⟨hnot, -⟩
    · have hpos := hk rfl
      have hsteps := hp.steps
      have hhist := hp.history
      unfold run
      omega
    · exact absurd hat hnot
  · obtain ⟨calls, s', outcome, hloops, hcalls, hs', ho⟩ :=
      Loops.exists_of_fuel _ s 0 rfl
    have hrun : s.clearBreakpoints.run none
        = s.clearBreakpoints.runFor 0 (Engine.fuel s.config.maxSteps s.machine) :=
      run_none s.clearBreakpoints
    obtain ⟨hlen, hlast⟩ := hloops.stretches _ hcalls
    rw [← hrun] at hs' ho
    refine ⟨calls, s', outcome, hloops, ?_, hlen, hlast, ?_, ?_, ho.symm⟩
    · unfold Engine.fuel at hcalls
      omega
    · rw [hs']
      rfl
    · rw [hs']
      rfl

/-- Two rounds of a loop that begins with a breakpoint, and half a third up to the ceiling. -/
theorem breakpoints_transparent_loop :
    ∃ fresh s s' outcome, load ⟨5, 2⟩ "K AR 1,1\nJ K" = .ok fresh
      ∧ s = { fresh with breakpoints := [1] } ∧ AtBreakpoint (s.run none).2
      ∧ s.machine.steps < (s.run none).1.machine.steps ∧ Loops s 3 s' outcome
      ∧ outcome.map Event.mute = (s.clearBreakpoints.run none).2.map Event.mute := by
  have hload : (load ⟨5, 2⟩ "K AR 1,1\nJ K").map (fun fresh =>
      ((Session.run { fresh with breakpoints := [1] } none).2.map Event.reason,
        (Session.finish { fresh with breakpoints := [1] }).length)) = .ok (.ok .breakpoint, 3) := by
    decide +kernel
  obtain ⟨fresh, hfresh, hruns⟩ := map_eq_ok.1 hload
  generalize hs : ({ fresh with breakpoints := [1] } : Session) = s at hruns
  obtain ⟨hreason, hthree⟩ := Prod.mk.inj hruns
  have hat : AtBreakpoint (s.run none).2 := by
    obtain ⟨ev, hev, hreason⟩ := map_eq_ok.1 hreason
    exact ⟨ev, hev, hreason⟩
  obtain ⟨hprogress, -, calls, s', outcome, hloops, -, hlength, -, -, -, hsame⟩ :=
    breakpoints_transparent s
  obtain rfl : calls = 3 := hlength.symm.trans hthree
  exact ⟨fresh, s, s', outcome, hfresh, hs.symm, hat, (hprogress none hat).2, hloops, hsame⟩

end Session

end WordMachine
