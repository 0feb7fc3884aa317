import WordMachine.Proofs.Runs

/-!
# The ceiling of a run

A run goes on while it is neither at the end of the program nor at its ceiling. `Loop` says what
that means without a bound on the number of steps; that there always is one, and that it is what the
ceiling leaves of the steps counted before, is `Loop.exists_of_runFor`. The failure of a run tells
how its loop stopped: at a step that failed, at the ceiling, or else at the end
(`verdict_eq_none_iff`, `verdict_eq_limit_iff`), provided that the ceiling can be written out where
it has to be reported. Since no call takes steps back and a run that succeeds takes at least one,
the ceiling also bounds how many runs of one engine can succeed (`completions_le`).
-/

namespace WordMachine

namespace Machine

/-- A run takes another step. -/
def GoesOn (limit : Int) (m : Machine) : Prop := m.atEnd = false ∧ m.steps < limit

/-- The steps that are taken as long as a run goes on: how many, the machine they lead to, and the
failure of the last one if it fails. -/
inductive Loop (limit : Int) : Machine → Nat → Machine → Option Failure → Prop
  | stop {m : Machine} (h : ¬ m.GoesOn limit) : Loop limit m 0 m none
  | fail {m : Machine} {f : Failure} (h : m.GoesOn limit) (hs : m.step = .error f) :
    Loop limit m 1 m.tick (some f)
  | next {m m' last : Machine} {n : Nat} {fault : Option Failure} (h : m.GoesOn limit)
    (hs : m.step = .ok m') (rest : Loop limit m' n last fault) : Loop limit m (n + 1) last fault

namespace Loop

variable {limit : Int} {m last : Machine} {n : Nat} {fault : Option Failure}

/-- Running for as long as the ceiling allows is the loop, so the loop ends. -/
theorem exists_of_runFor : ∀ (fuel : Nat) (m : Machine) (executed : Array Statement),
    Engine.fuel limit m = fuel →
      ∃ n ≤ fuel, Loop limit m n (m.runFor fuel executed).machine (m.runFor fuel executed).failure
  | 0, m, executed, hfuel => by
    unfold Engine.fuel at hfuel
    exact ⟨0, le_rfl, .stop fun h => by have := h.2; omega⟩
  | fuel + 1, m, executed, hfuel => by
    unfold Engine.fuel at hfuel
    rcases he : m.atEnd with _ | _
    · have hgoes : m.GoesOn limit := ⟨he, by omega⟩
      rcases hs : m.step with f | m'
      · rw [runFor_of_error _ he hs]
        exact ⟨1, by omega, .fail hgoes hs⟩
      · have hfuel' : Engine.fuel limit m' = fuel := by
          unfold Engine.fuel
          rw [steps_step hs]
          omega
        rw [runFor_of_ok _ he hs]
        obtain ⟨n, hn, hloop⟩ :=
          exists_of_runFor fuel m' (executed ++ m.current?.toArray) hfuel'
        exact ⟨n + 1, by omega, .next hgoes hs hloop⟩
    · rw [runFor_of_atEnd _ he]
      exact ⟨0, by omega, .stop fun h => by simp [GoesOn, he] at h⟩

theorem steps_eq (h : Loop limit m n last fault) : last.steps = m.steps + n := by
  induction h with
  | stop => rfl
  | fail => rfl
  | next _ hs _ ih =>
    rw [ih, steps_step hs]
    omega

theorem eq_of_zero (h : Loop limit m 0 last fault) : last = m := by
  cases h
  rfl

/-- A loop without a failure stops at the end or at the ceiling. -/
theorem not_goesOn (h : Loop limit m n last none) : ¬ last.GoesOn limit := by
  generalize hf : (none : Option Failure) = fault at h
  induction h with
  | stop h => exact h
  | fail => cases hf
  | next _ _ _ ih => exact ih hf

/-- No step is taken above the ceiling, so from below it no loop goes past it. -/
theorem steps_le (h : Loop limit m n last fault) (hm : m.steps ≤ limit) : last.steps ≤ limit := by
  induction h with
  | stop => exact hm
  | fail h =>
    have := h.2
    simp only [tick]
    omega
  | next h hs _ ih =>
    have := h.2
    exact ih (by rw [steps_step hs]; omega)

theorem fault_ne_limit (h : Loop limit m n last fault) (ceiling : Int) (line : Option Int) :
    fault ≠ some (.diagnostic ⟨.executionLimit ceiling, line⟩) := by
  induction h with
  | stop => simp
  | fail _ hs =>
    rintro hf
    cases hf
    exact step_error_ne_limit hs ceiling rfl
  | next _ _ _ ih => exact ih

end Loop

end Machine

namespace Engine

variable {source : String} {l : Layout} {e : Engine}

/-- A run of a program that is laid out is a loop, and its failure is the verdict on that loop. -/
theorem run_of_build (h : Layout.build e.source = .ok l) :
    ∃ n ≤ fuel e.limit e.machine, ∃ r : Run,
      Machine.Loop e.limit (e.machine.restart l) n r.machine r.failure
        ∧ e.run.engine = { e with laidOut := true, machine := r.machine }
        ∧ e.run.failure = verdict e.limit r := by
  obtain ⟨n, hn, hloop⟩ := Machine.Loop.exists_of_runFor (fuel e.limit e.machine)
    (e.machine.restart l) #[] rfl
  refine ⟨n, hn, _, hloop, ?_⟩
  unfold run
  rw [prepare_of_build h]
  exact ⟨rfl, rfl⟩

section Verdict

variable {limit : Int} {m : Machine} {r : Run} {n : Nat}
  (h : Machine.Loop limit m n r.machine r.failure)
include h

theorem of_verdict_eq_none (hv : verdict limit r = none) :
    r.failure = none ∧ r.machine.atEnd = true ∧ r.machine.steps < limit := by
  obtain ⟨hf, hclosing⟩ := Option.or_eq_none_iff.1 hv
  have hlimit := lt_of_closing_eq_none hclosing
  rw [hf] at h
  refine ⟨hf, ?_, hlimit⟩
  by_contra he
  exact h.not_goesOn ⟨by simpa using he, hlimit⟩

/-- The ceiling is reported only where it was reached. -/
theorem le_of_verdict_eq_limit {line : Option Int}
    (hv : verdict limit r = some (.diagnostic ⟨.executionLimit limit, line⟩)) :
    limit ≤ r.machine.steps := by
  rcases Option.or_eq_some_iff.1 hv with hf | ⟨-, hclosing⟩
  · exact absurd hf (h.fault_ne_limit limit line)
  · unfold closing at hclosing
    split_ifs at hclosing with hlimit
    · exact hlimit
    · cases hclosing

variable (hw : Text.Numeral.isWritable limit = true)
include hw

theorem verdict_eq_none_iff : verdict limit r = none
    ↔ r.failure = none ∧ r.machine.atEnd = true ∧ r.machine.steps < limit := by
  refine ⟨of_verdict_eq_none h, ?_⟩
  rintro ⟨hf, -, hlimit⟩
  rw [verdict, hf, Option.none_or, closing_of_isWritable hw, if_neg (by omega)]

theorem verdict_eq_limit_iff (line : Option Int) :
    verdict limit r = some (.diagnostic ⟨.executionLimit limit, line⟩)
      ↔ r.failure = none ∧ limit ≤ r.machine.steps ∧ line = r.machine.nextLine? := by
  unfold verdict
  rcases hf : r.failure with _ | f
  · rw [Option.none_or, closing_of_isWritable hw]
    by_cases hlimit : limit ≤ r.machine.steps
    · simp [hlimit, overLimit, eq_comm]
    · simp [hlimit]
  · have hne := h.fault_ne_limit limit line
    rw [hf] at hne
    simpa using hne

end Verdict

/-- A loop is as many calls for a step, the last of which may fail. -/
theorem afterAll_of_loop (h : Layout.build (statements source) = .ok l)
    (hlen : source.length < indexLimit) {limit : Int} {m last : Machine} {n : Nat}
    {fault : Option Failure} (hloop : Machine.Loop limit m n last fault) :
    ∀ e : Engine, e.laidOut = true → e.machine = m → Machine.Positioned l m →
      e.afterAll (List.replicate n .step) = { e with machine := last } := by
  induction hloop with
  | stop =>
    rintro e - rfl -
    rfl
  | fail _ hs =>
    rintro e hlaid rfl hpos
    exact after_step_of_error h hlen hlaid hpos hs
  | @next m m' last n fault _ hs _ ih =>
    rintro e hlaid rfl hpos
    rw [List.replicate_succ, afterAll_cons, after_step_of_ok h hlen hlaid hpos hs]
    exact ih { e with machine := m' } hlaid rfl (hpos.step hs)

/-- How many of some calls, made one after the other, are runs that succeed. -/
def completions (e : Engine) : List Call → Nat
  | [] => 0
  | c :: calls =>
    (if c = .run ∧ e.run.failure = none then 1 else 0) + (e.after c).completions calls

/-- A call keeps the ceiling and the program, and takes no steps back. -/
theorem after_frame (e : Engine) (c : Call) :
    (e.after c).limit = e.limit ∧ (e.after c).source = e.source
      ∧ e.machine.steps ≤ (e.after c).machine.steps := by
  refine afterAll_induct (P := fun e' => e'.limit = e.limit ∧ e'.source = e.source
    ∧ e.machine.steps ≤ e'.machine.steps) ?_ ?_ ?_ [c] ⟨rfl, rfl, le_rfl⟩
  · rintro e₁ e₂ he hp
    obtain ⟨l, -, rfl⟩ := prepare_ok hp
    exact he
  · rintro e₁ m ⟨hlimit, hsource, hsteps⟩ - hs
    exact ⟨hlimit, hsource, by simp only [Machine.steps_step hs]; omega⟩
  · rintro e₁ ⟨hlimit, hsource, hsteps⟩ -
    exact ⟨hlimit, hsource, by simp only [Machine.tick]; omega⟩

/-- A run that succeeds has taken a step, and there is still one left below the ceiling. -/
theorem steps_run_of_success (h : Layout.build (statements source) = .ok l)
    (hsource : e.source = statements source) (hrun : e.run.failure = none) :
    e.machine.steps < e.run.engine.machine.steps ∧ e.run.engine.machine.steps < e.limit := by
  obtain ⟨n, -, r, hloop, hengine, hfailure⟩ := run_of_build (hsource ▸ h)
  rw [hfailure] at hrun
  obtain ⟨-, hend, hbelow⟩ := of_verdict_eq_none hloop hrun
  rw [hengine]
  refine ⟨?_, hbelow⟩
  have hsteps := hloop.steps_eq
  have hstart : (e.machine.restart l).steps = e.machine.steps := rfl
  have hpos : n ≠ 0 := by
    rintro rfl
    rw [hloop.eq_of_zero, Machine.atEnd_restart h] at hend
    cases hend
  simp only
  omega

theorem completions_le (h : Layout.build (statements source) = .ok l) :
    ∀ (calls : List Call) {e : Engine}, e.source = statements source →
      (e.completions calls : Int) ≤ max 0 (e.limit - 1 - e.machine.steps)
  | [], e, _ => by
    simp only [completions]
    omega
  | c :: calls, e, hsource => by
    obtain ⟨hlimit, hsource', hsteps⟩ := after_frame e c
    have ih := completions_le h calls (hsource'.trans hsource)
    rw [hlimit] at ih
    unfold completions
    by_cases hc : c = .run ∧ e.run.failure = none
    · obtain ⟨rfl, hrun⟩ := hc
      obtain ⟨hmore, hbelow⟩ := steps_run_of_success h hsource hrun
      rw [if_pos ⟨rfl, hrun⟩]
      simp only [after] at ih ⊢
      omega
    · rw [if_neg hc]
      omega

/-- A run from any state ends after as many steps as the ceiling leaves, or before; for a text that
can be counted it is a layout and then that many calls for a step. It succeeds when no step fails
and the end is reached below the ceiling, and reports the ceiling when no step fails and it is
reached; if it was not passed before the run, it is reached exactly. A ceiling too long to be
written out is not reported: the run is refused instead. One engine can be run successfully no more
often than the ceiling allows steps, less one. -/
theorem run_within_ceiling (h : Layout.build (statements source) = .ok l) (e : Engine)
    (hsource : e.source = statements source) :
    let t := e.run
    let last := t.engine.machine
    (∃ (n : Nat) (fault : Option Failure),
        Machine.Loop e.limit (e.machine.restart l) n last fault
          ∧ (n : Int) ≤ max 0 (e.limit - e.machine.steps)
          ∧ (source.length < indexLimit →
            t.engine = e.afterAll (.prepare :: List.replicate n .step))
          ∧ (t.failure = none → fault = none ∧ last.atEnd = true ∧ last.steps < e.limit)
          ∧ (Text.Numeral.isWritable e.limit = true →
            (t.failure = none ↔ fault = none ∧ last.atEnd = true ∧ last.steps < e.limit)
              ∧ ∀ line, t.failure = some (.diagnostic ⟨.executionLimit e.limit, line⟩)
                ↔ fault = none ∧ e.limit ≤ last.steps ∧ line = last.nextLine?)
          ∧ (Text.Numeral.isWritable e.limit = false → fault = none →
            t.failure
              = if last.steps < e.limit ∧ Text.Numeral.isWritable last.steps = true then none
                else some (.refusal .numberTooLong))
          ∧ ∀ f, fault = some f → t.failure = some f)
      ∧ (e.machine.steps ≤ e.limit →
        ∀ line, t.failure = some (.diagnostic ⟨.executionLimit e.limit, line⟩) →
          last.steps = e.limit)
      ∧ ∀ calls, (e.completions calls : Int) ≤ max 0 (e.limit - 1 - e.machine.steps) := by
  intro t last
  obtain ⟨n, hn, r, hloop, hengine, hfailure⟩ := run_of_build (hsource ▸ h)
  have hlast : last = r.machine := congrArg Engine.machine hengine
  have hfailure : t.failure = verdict e.limit r := hfailure
  rw [hlast, hfailure]
  refine ⟨⟨n, r.failure, hloop, ?_, fun hlen => ?_, of_verdict_eq_none hloop,
    fun hw => ⟨verdict_eq_none_iff hloop hw, verdict_eq_limit_iff hloop hw⟩, fun hw hf => ?_,
    fun f hf => by rw [verdict, hf, Option.some_or]⟩, fun hsteps line hlimit => ?_,
    fun calls => completions_le h calls hsource⟩
  · unfold fuel at hn
    omega
  · rw [afterAll_cons, after_prepare (hsource ▸ h),
      afterAll_of_loop h hlen hloop _ rfl rfl (Machine.positioned_restart _ _)]
    exact hengine
  · rw [verdict, hf, Option.none_or, closing_of_not_isWritable hw]
  · have hbelow := hloop.steps_le hsteps
    have hreached := le_of_verdict_eq_limit hloop hlimit
    omega

/-- Of a program of two steps under a ceiling of four, the first run succeeds and the second reaches
the ceiling at the end; no other can succeed. -/
theorem run_within_ceiling_second :
    let e := (load ⟨4, 2⟩ "LA 1,5\nLR 0,1").after .run
    (load ⟨4, 2⟩ "LA 1,5\nLR 0,1").run.failure = none ∧ e.machine.steps = 2
      ∧ e.run.failure = some (.diagnostic ⟨.executionLimit 4, none⟩)
      ∧ (e.run.engine.machine.steps : Int) = 4 ∧ ∀ calls, e.completions calls ≤ 1 := by
  intro e
  have hbuild : (Layout.build (statements "LA 1,5\nLR 0,1")).map Layout.size = .ok 6 := by
    decide +kernel
  obtain ⟨l, hl, -⟩ := map_eq_ok.1 hbuild
  have hruns : (load ⟨4, 2⟩ "LA 1,5\nLR 0,1").run.failure = none ∧ e.machine.steps = 2
      ∧ e.run.failure = some (.diagnostic ⟨.executionLimit 4, none⟩) := by
    decide +kernel
  obtain ⟨hfirst, hsteps, hsecond⟩ := hruns
  obtain ⟨hlimit, hsource, -⟩ := after_frame (load ⟨4, 2⟩ "LA 1,5\nLR 0,1") .run
  have hlimit : e.limit = 4 := hlimit
  obtain ⟨-, hexact, hcompletions⟩ := run_within_ceiling hl e hsource
  rw [hlimit, hsteps] at hexact hcompletions
  refine ⟨hfirst, hsteps, hsecond, hexact (by decide) none hsecond, fun calls => ?_⟩
  have := hcompletions calls
  omega

/-- A negative ceiling that is too long to be written out is reached before any step; it is not
reported. -/
theorem run_within_ceiling_unwritten :
    let limit : Int := -(Nat.pow 10 Text.Numeral.maxDigits : Nat)
    let t := (load ⟨limit, 4⟩ "LR 2,1").run
    limit ≤ t.engine.machine.steps ∧ t.engine.machine.steps = 0
      ∧ t.engine.machine.nextLine? = some 1 ∧ t.failure = some (.refusal .numberTooLong) := by
  decide +kernel

end Engine

end WordMachine
