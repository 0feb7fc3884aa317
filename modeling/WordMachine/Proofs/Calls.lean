import WordMachine.Engine
import WordMachine.Proofs.Outcome

/-!
# Calls on an engine

An engine can be asked to lay its program out, to run it and to take one step, in any order and as
often as one likes, and every call leaves an engine behind, also one that fails. Whatever a
successful layout, a successful step of the machine and a step that only counts all keep holds after
any sequence of calls (`afterAll_induct`).
-/

namespace WordMachine

/-- What can be asked of an engine. -/
inductive Call where
  | prepare
  | run
  | step
  deriving DecidableEq, Repr

namespace Engine

/-- The engine that a call leaves behind, whether it succeeds or not. -/
def after (e : Engine) : Call → Engine
  | .prepare =>
    match e.prepare with
    | .ok e' => e'
    | .error _ => e
  | .run => e.run.engine
  | .step => e.step.engine

/-- The engine after calls made one after the other. -/
def afterAll (e : Engine) (calls : List Call) : Engine := calls.foldl after e

@[simp] theorem afterAll_cons (e : Engine) (c : Call) (calls : List Call) :
    e.afterAll (c :: calls) = (e.after c).afterAll calls := rfl

theorem prepare_ok {e e' : Engine} (h : e.prepare = .ok e') :
    ∃ l, Layout.build e.source = .ok l
      ∧ e' = { e with laidOut := true, machine := e.machine.restart l } := by
  obtain ⟨l, hl, h⟩ := bind_eq_ok.1 h
  cases h
  exact ⟨l, hl, rfl⟩

theorem prepare_of_build {e : Engine} {l : Layout} (h : Layout.build e.source = .ok l) :
    e.prepare = .ok { e with laidOut := true, machine := e.machine.restart l } := by
  unfold prepare
  rw [h]
  rfl

theorem prepare_of_build_error {e : Engine} {f : Failure} (h : Layout.build e.source = .error f) :
    e.prepare = .error f := by
  unfold prepare
  rw [h]
  rfl

theorem after_prepare {e : Engine} {l : Layout} (h : Layout.build e.source = .ok l) :
    e.after .prepare = { e with laidOut := true, machine := e.machine.restart l } := by
  unfold after
  rw [prepare_of_build h]

section Step

variable {e e' : Engine} {f : Failure}

theorem step_of_attempt_ok {m : Machine} (hl : e.laidOut = true)
    (h : e.machine.attempt = .ok m) :
    e.step = { engine := { e with machine := m }, executed := e.machine.finished?.toArray } := by
  unfold step
  rw [if_pos hl]
  simp only [h]

theorem step_of_attempt_error (hl : e.laidOut = true) (h : e.machine.attempt = .error f) :
    e.step = { engine := { e with machine := e.machine.tick }, failure := some f } := by
  unfold step
  rw [if_pos hl]
  simp only [h]

theorem step_of_prepare_ok (hl : e.laidOut = false) (hp : e.prepare = .ok e') :
    e.step = e'.step := by
  have hl' : e'.laidOut = true := by
    obtain ⟨l, -, rfl⟩ := prepare_ok hp
    rfl
  unfold step
  rw [if_neg (by simp [hl]), if_pos hl', hp]

theorem step_of_prepare_error (hl : e.laidOut = false) (hp : e.prepare = .error f) :
    e.step = { engine := e, failure := some f } := by
  unfold step
  rw [if_neg (by simp [hl]), hp]

end Step

end Engine

theorem Machine.step_of_attempt {m m' : Machine} (h : m.attempt = .ok m') : m.step = .ok m' := by
  unfold attempt at h
  split at h
  · exact h
  · cases h

/-- Running for a while keeps what a step keeps that succeeds, and what counting one that fails
keeps. -/
theorem Machine.runFor_induct {P : Machine → Prop}
    (hstep : ∀ m m' : Machine, P m → m.step = .ok m' → P m')
    (htick : ∀ m : Machine, P m → P m.tick) :
    ∀ (n : Nat) (m : Machine) (executed : Array Statement), P m → P (m.runFor n executed).machine
  | 0, m, executed, hm => hm
  | n + 1, m, executed, hm => by
    unfold runFor
    split
    · exact hm
    · rcases hs : m.step with f | m'
      · exact htick m hm
      · exact runFor_induct hstep htick n m' _ (hstep m m' hm hs)

namespace Engine

section Induct

variable {P : Engine → Prop}
  (hprepare : ∀ e e' : Engine, P e → e.prepare = .ok e' → P e')
  (hstep : ∀ (e : Engine) (m : Machine), P e → e.laidOut = true → e.machine.step = .ok m →
    P { e with machine := m })
  (htick : ∀ e : Engine, P e → e.laidOut = true → P { e with machine := e.machine.tick })

include hprepare hstep htick

theorem step_induct {e : Engine} (he : P e) : P e.step.engine := by
  have hlaid : ∀ e' : Engine, P e' → e'.laidOut = true → P e'.step.engine := by
    intro e' he' hl
    rcases hm : e'.machine.attempt with f | m
    · rw [step_of_attempt_error hl hm]
      exact htick e' he' hl
    · rw [step_of_attempt_ok hl hm]
      exact hstep e' m he' hl (Machine.step_of_attempt hm)
  rcases hl : e.laidOut with _ | _
  · rcases hp : e.prepare with f | e'
    · rw [step_of_prepare_error hl hp]
      exact he
    · rw [step_of_prepare_ok hl hp]
      obtain ⟨l, -, rfl⟩ := prepare_ok hp
      exact hlaid _ (hprepare e _ he hp) rfl
  · exact hlaid e he hl

theorem run_induct {e : Engine} (he : P e) : P e.run.engine := by
  unfold run
  rcases hp : e.prepare with f | e'
  · exact he
  · have he' := hprepare e e' he hp
    obtain ⟨l, -, rfl⟩ := prepare_ok hp
    exact Machine.runFor_induct
      (P := fun m => P { e with laidOut := true, machine := m })
      (fun m m' hm hs => hstep { e with laidOut := true, machine := m } m' hm rfl hs)
      (fun m hm => htick { e with laidOut := true, machine := m } hm rfl) _ _ _ he'

theorem afterAll_induct : ∀ (calls : List Call) {e : Engine}, P e → P (e.afterAll calls)
  | [], e, he => he
  | c :: calls, e, he => by
    refine afterAll_induct calls ?_
    cases c with
    | prepare =>
      unfold after
      rcases hp : e.prepare with f | e'
      · exact he
      · exact hprepare e e' he hp
    | run => exact run_induct hprepare hstep htick he
    | step => exact step_induct hprepare hstep htick he

end Induct

end Engine

end WordMachine
