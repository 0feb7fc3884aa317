import Mathlib.Data.List.Basic
import Mathlib.Data.List.Iterate
import WordMachine.Proofs.Announced
import WordMachine.Proofs.Runs

/-!
# The history of a session

A session can be asked for a step or a stretch, for breakpoints and for another program, in any
order, and it is left in some state by every request, also by one that fails. Whatever it was asked
for, its machine is what the current program leads to in as many steps as are counted, those that
fail included, and its history lists the lines of those that do not (`Traced`). Both a step and a
stretch keep that, since all they do is to record a step or to count one that failed
(`runFor_induct`); a new program starts it over.
-/

namespace WordMachine

open Text

namespace Machine

variable {l : Layout} {m m' : Machine} {f : Failure}

theorem next_of_ok (h : m.step = .ok m') : m.next = m' := by
  unfold next
  rw [h]

theorem next_of_error (h : m.step = .error f) : m.next = m.tick := by
  unfold next
  rw [h]

theorem Positioned.after_step (h : Positioned l m) : Positioned l m.next := by
  rcases hs : m.step with f | m'
  · rw [next_of_error hs]
    exact h.tick
  · rw [next_of_ok hs]
    exact h.step hs

theorem Positioned.iterate (h : Positioned l m) : ∀ n, Positioned l (Machine.next^[n] m)
  | 0 => h
  | n + 1 => by
    rw [Function.iterate_succ_apply']
    exact (h.iterate n).after_step

theorem iterate_next_succ (m : Machine) (n : Nat) :
    List.iterate next m (n + 1) = List.iterate next m n ++ [next^[n] m] := by
  rw [List.iterate_add]
  rfl

end Machine

namespace Session

/-- What can be asked of a session. -/
inductive Act where
  | step
  | run (budget : Option Int)
  | add (line : Int)
  | remove (line : Int)
  | clear
  | reload (source : String)
  deriving DecidableEq, Repr

/-- The session that an act leaves behind, whether it succeeds or not. -/
def after (s : Session) : Act → Session
  | .step => s.step.1
  | .run budget => (s.run budget).1
  | .add line => (s.addBreakpoint line).toOption.getD s
  | .remove line => s.removeBreakpoint line
  | .clear => s.clearBreakpoints
  | .reload source => (s.reload source).toOption.getD s

/-- The session after acts one after the other. -/
def afterAll (s : Session) (acts : List Act) : Session := acts.foldl after s

/-- The program that is current after an act: another one if it can be laid out. -/
def Act.source (current : String) : Act → String
  | .reload source => if (Layout.build (statements source)).isOk then source else current
  | _ => current

/-- The program that is current after acts one after the other. -/
def currentSource (source : String) (acts : List Act) : String := acts.foldl Act.source source

variable {s : Session} {origin m : Machine}

/-- The session has come from the start through the steps it counts, those that fail included, and
remembers the lines of the others. -/
structure Traced (origin : Machine) (s : Session) : Prop where
  machine : s.machine = Machine.next^[s.machine.steps] origin
  history : s.history.toList
    = ((List.iterate Machine.next origin s.machine.steps).filter (·.step.isOk)).map (·.line + 1)

theorem Traced.record (h : Traced origin s) (hs : s.machine.step = .ok m) :
    Traced origin (s.record m) := by
  have hsteps : (s.record m).machine.steps = s.machine.steps + 1 := Machine.steps_step hs
  have hmachine : m = s.machine.next := (Machine.next_of_ok hs).symm
  have hok : s.machine.step.isOk = true := by rw [hs]; rfl
  constructor
  · rw [hsteps, Function.iterate_succ_apply', ← h.machine]
    exact hmachine
  · rw [hsteps, Machine.iterate_next_succ, ← h.machine]
    simp [Session.record, h.history, hok]

theorem Traced.tick {f : Failure} (h : Traced origin s) (hs : s.machine.step = .error f) :
    Traced origin { s with machine := s.machine.tick } := by
  have hfail : s.machine.step.isOk = false := by rw [hs]; rfl
  constructor
  · show s.machine.tick = Machine.next^[s.machine.steps + 1] origin
    rw [Function.iterate_succ_apply', ← h.machine, Machine.next_of_error hs]
  · show s.history.toList
      = ((List.iterate Machine.next origin (s.machine.steps + 1)).filter _).map _
    rw [Machine.iterate_next_succ, ← h.machine]
    simp [h.history, hfail]

/-- Every step that the session counts is remembered or has failed. -/
theorem Traced.size_add (h : Traced origin s) :
    s.history.size + ((List.iterate Machine.next origin s.machine.steps).filter
      (!·.step.isOk)).length = s.machine.steps := by
  have hsize := congrArg List.length h.history
  have hsplit := (List.iterate Machine.next origin s.machine.steps).length_eq_length_filter_add
    (·.step.isOk)
  rw [List.length_iterate] at hsplit
  rw [List.length_map, Array.length_toList] at hsize
  omega

section Induct

variable {P : Session → Prop}
  (hrecord : ∀ (s : Session) (m : Machine), P s → s.machine.step = .ok m → P (s.record m))
  (htick : ∀ (s : Session) (f : Failure), P s → s.machine.step = .error f →
    P { s with machine := s.machine.tick })

include hrecord htick

theorem runFor_induct : ∀ (n : Nat) (s : Session) (taken : Nat), P s → P (s.runFor taken n).1 := by
  intro n
  induction n with
  | zero =>
    intro s taken hs
    unfold runFor
    split <;> exact hs
  | succ n ih =>
    intro s taken hs
    unfold runFor
    split_ifs with hend hbreak
    · exact hs
    · exact hs
    · rcases hm : s.machine.step with (d | r) | m
      · exact htick s _ hs hm
      · exact htick s _ hs hm
      · exact ih (s.record m) (taken + 1) (hrecord s m hs hm)

theorem step_induct (hs : P s) : P s.step.1 := by
  unfold step
  split_ifs with hend
  · exact hs
  · rcases hm : s.machine.step with f | m
    · exact htick s f hs hm
    · exact hrecord s m hs hm

end Induct

section Breakpoints

theorem mem_insertLine {line b : Int} : ∀ {bs : List Int},
    b ∈ insertLine line bs ↔ b = line ∨ b ∈ bs
  | [] => by simp [insertLine]
  | c :: bs => by
    unfold insertLine
    split_ifs with hlt heq
    · simp
    · simp [heq]
    · rw [List.mem_cons, mem_insertLine, List.mem_cons, or_left_comm]

theorem pairwise_insertLine {line : Int} : ∀ {bs : List Int}, bs.Pairwise (· < ·) →
    (insertLine line bs).Pairwise (· < ·)
  | [], _ => by simp [insertLine]
  | c :: bs, h => by
    obtain ⟨hc, hbs⟩ := List.pairwise_cons.1 h
    unfold insertLine
    split_ifs with hlt heq
    · refine List.pairwise_cons.2 ⟨List.forall_mem_cons.2 ⟨hlt, fun b hb => ?_⟩, h⟩
      have := hc b hb
      omega
    · exact h
    · refine List.pairwise_cons.2 ⟨fun b hb => ?_, pairwise_insertLine hbs⟩
      rcases mem_insertLine.1 hb with rfl | hb
      · omega
      · exact hc b hb

end Breakpoints

/-- The session runs a program under a configuration: its breakpoints are lines of the program, and
it has come from the start of the layout. -/
structure Sound (config : Config) (source : String) (s : Session) : Prop where
  configured : s.config = config
  bounded : ∀ b ∈ s.breakpoints, 1 ≤ b ∧ b ≤ (lines source).length
  increasing : s.breakpoints.Pairwise (· < ·)
  traced : ∃ l, Layout.build (statements source) = .ok l
    ∧ Traced ((Machine.fresh config (statements source)).restart l) s

section Sound

variable {config : Config} {source : String}

theorem Sound.length_program (h : Sound config source s) :
    s.machine.program.length = (lines source).length := by
  obtain ⟨l, hl, htraced⟩ := h.traced
  rw [htraced.machine, ((Machine.positioned_restart _ l).iterate _).program, length_of_build hl]

theorem Sound.record (h : Sound config source s) (hs : s.machine.step = .ok m) :
    Sound config source (s.record m) := by
  obtain ⟨l, hl, htraced⟩ := h.traced
  exact ⟨h.configured, h.bounded, h.increasing, l, hl, htraced.record hs⟩

theorem Sound.tick {f : Failure} (h : Sound config source s) (hs : s.machine.step = .error f) :
    Sound config source { s with machine := s.machine.tick } := by
  obtain ⟨l, hl, htraced⟩ := h.traced
  exact ⟨h.configured, h.bounded, h.increasing, l, hl, htraced.tick hs⟩

theorem Sound.breakpoints (h : Sound config source s) {bs : List Int}
    (hbounded : ∀ b ∈ bs, 1 ≤ b ∧ b ≤ (lines source).length) (hbs : bs.Pairwise (· < ·)) :
    Sound config source { s with breakpoints := bs } := by
  obtain ⟨l, hl, htraced⟩ := h.traced
  exact ⟨h.configured, hbounded, hbs, l, hl, htraced.machine, htraced.history⟩

theorem sound_of_build {l : Layout} (h : Layout.build (statements source) = .ok l)
    {breakpoints : List Int} (hbounded : ∀ b ∈ breakpoints, 1 ≤ b ∧ b ≤ (lines source).length)
    (hbs : breakpoints.Pairwise (· < ·)) :
    Sound config source
      { config, machine := (Machine.fresh config (statements source)).restart l, breakpoints } :=
  ⟨rfl, hbounded, hbs, l, h, rfl, rfl⟩

theorem sound_of_load {fresh : Session} (h : load config source = .ok fresh) :
    Sound config source fresh := by
  obtain ⟨machine, hm, hfresh⟩ := bind_eq_ok.1 h
  obtain ⟨l, hl, hmachine⟩ := bind_eq_ok.1 hm
  cases hmachine
  cases hfresh
  exact sound_of_build hl (by simp) .nil

theorem start_of_build {l : Layout} (h : Layout.build (statements source) = .ok l) :
    start config source = .ok ((Machine.fresh config (statements source)).restart l) := by
  simp only [Session.start, h]
  rfl

theorem start_of_build_error {f : Failure} (h : Layout.build (statements source) = .error f) :
    start config source = .error f := by
  simp only [Session.start, h]
  rfl

theorem load_of_build_error {f : Failure} (h : Layout.build (statements source) = .error f) :
    load config source = .error f := by
  unfold load
  rw [start_of_build_error h]
  rfl

theorem reload_of_build {l : Layout} (h : Layout.build (statements source) = .ok l)
    (s : Session) :
    s.reload source = .ok
      { config := s.config
        machine := (Machine.fresh s.config (statements source)).restart l
        breakpoints := s.breakpoints.filter (· ≤ (lines source).length) } := by
  have hlen : ((Machine.fresh s.config (statements source)).restart l).program.length
      = (lines source).length := length_of_build h
  unfold reload
  rw [start_of_build h, ← hlen]
  rfl

theorem reload_of_build_error {f : Failure} (h : Layout.build (statements source) = .error f)
    (s : Session) : s.reload source = .error f := by
  unfold reload
  rw [start_of_build_error h]
  rfl

theorem after_reload_of_build {l : Layout} (h : Layout.build (statements source) = .ok l)
    (s : Session) :
    s.after (.reload source) =
      { config := s.config
        machine := (Machine.fresh s.config (statements source)).restart l
        breakpoints := s.breakpoints.filter (· ≤ (lines source).length) } := by
  simp only [Session.after, reload_of_build h]
  rfl

theorem after_reload_of_build_error {f : Failure}
    (h : Layout.build (statements source) = .error f) (s : Session) :
    s.after (.reload source) = s := by
  simp only [Session.after, reload_of_build_error h]
  rfl

theorem source_of_build {l : Layout} (h : Layout.build (statements source) = .ok l)
    (current : String) : Act.source current (.reload source) = source := by
  simp only [Act.source, h]
  rfl

theorem source_of_build_error {f : Failure} (h : Layout.build (statements source) = .error f)
    (current : String) : Act.source current (.reload source) = current := by
  simp only [Act.source, h]
  rfl

theorem Sound.after (h : Sound config source s) (act : Act) :
    Sound config (act.source source) (s.after act) := by
  cases act with
  | step => exact step_induct (fun s m h => h.record) (fun s f h => h.tick) h
  | run budget => exact runFor_induct (fun s m h => h.record) (fun s f h => h.tick) _ s 0 h
  | add line =>
    -- the limit is read off the machine, whose program has as many lines as the source
    unfold Session.after addBreakpoint
    by_cases hline : 1 ≤ line ∧ line ≤ s.machine.program.length
    · simp only [if_pos hline]
      refine h.breakpoints (fun b hb => ?_) (pairwise_insertLine h.increasing)
      rcases mem_insertLine.1 hb with rfl | hb
      · rwa [h.length_program] at hline
      · exact h.bounded b hb
    · simp only [if_neg hline]
      exact h
  | remove line =>
    exact h.breakpoints (fun b hb => h.bounded b (List.mem_filter.1 hb).1) (h.increasing.filter _)
  | clear => exact h.breakpoints (by simp) .nil
  | reload new =>
    rcases hl : Layout.build (statements new) with f | l
    · rw [source_of_build_error hl, after_reload_of_build_error hl]
      exact h
    · have hkept : ∀ b ∈ s.breakpoints.filter (· ≤ ((lines new).length : Int)),
          1 ≤ b ∧ b ≤ (lines new).length := by
        intro b hb
        obtain ⟨hb, hle⟩ := List.mem_filter.1 hb
        exact ⟨(h.bounded b hb).1, by simpa using hle⟩
      rw [source_of_build hl, after_reload_of_build hl, h.configured]
      exact sound_of_build hl hkept (h.increasing.filter _)

theorem Sound.afterAll : ∀ (acts : List Act) {source : String} {s : Session},
    Sound config source s → Sound config (currentSource source acts) (s.afterAll acts)
  | [], _, _, h => h
  | act :: acts, _, _, h => Sound.afterAll acts (h.after act)

end Sound

end Session

namespace Engine

section Step

variable {source : String} {l : Layout} {e : Engine}
  (h : Layout.build (statements source) = .ok l) (hlen : source.length < indexLimit)

include h hlen

theorem after_step_eq (hlaid : e.laidOut = true) (hpos : Machine.Positioned l e.machine) :
    e.after .step = { e with machine := e.machine.next } := by
  rcases hs : e.machine.step with f | m
  · rw [after_step_of_error h hlen hlaid hpos hs, Machine.next_of_error hs]
  · rw [after_step_of_ok h hlen hlaid hpos hs, Machine.next_of_ok hs]

theorem afterAll_replicate_step : ∀ (n : Nat) {e : Engine}, e.laidOut = true →
    Machine.Positioned l e.machine →
      e.afterAll (List.replicate n .step) = { e with machine := Machine.next^[n] e.machine }
  | 0, _, _, _ => rfl
  | n + 1, e, hlaid, hpos => by
    rw [List.replicate_succ, afterAll_cons, after_step_eq h hlen hlaid hpos,
      afterAll_replicate_step n (e := { e with machine := e.machine.next }) hlaid hpos.after_step]
    rfl

theorem failure_step_eq_none_iff (hlaid : e.laidOut = true)
    (hpos : Machine.Positioned l e.machine) :
    e.step.failure = none ↔ e.machine.step.isOk = true := by
  have hattempt := Machine.attempt_eq_step h hlen hpos
  rcases hs : e.machine.step with f | m <;> rw [hs] at hattempt
  · rw [step_of_attempt_error hlaid hattempt]
    simp [Except.isOk, Except.toBool]
  · rw [step_of_attempt_ok hlaid hattempt]
    simp [Except.isOk, Except.toBool]

end Step

end Engine

namespace Session

/-- After any acts, failing ones included, the breakpoints are lines of the current program, the
machine is what as many calls for a step lead to from its layout, and the history holds the lines of
those calls that do not fail. A program that cannot be laid out changes nothing when it is asked
for; any other is started afresh, and of the breakpoints those are kept that it has a line for. -/
theorem replay_afterAll {config : Config} {source : String} {fresh : Session}
    (h : load config source = .ok fresh) (acts : List Act) :
    let s := fresh.afterAll acts
    let current := currentSource source acts
    s.machine.program.length = (lines current).length
      ∧ (∀ b ∈ s.breakpoints, 1 ≤ b ∧ b ≤ s.machine.program.length)
      ∧ s.breakpoints.Pairwise (· < ·)
      ∧ (∃ l, Layout.build (statements current) = .ok l ∧
        let origin := (Machine.fresh config (statements current)).restart l
        let calls := List.iterate Machine.next origin s.machine.steps
        s.machine = Machine.next^[s.machine.steps] origin
          ∧ s.history.toList = (calls.filter (·.step.isOk)).map (·.line + 1)
          ∧ s.history.size + (calls.filter (!·.step.isOk)).length = s.machine.steps
          ∧ (current.length < indexLimit → ∀ k,
            let e := (Engine.load config current).afterAll (.prepare :: List.replicate k .step)
            e.machine = Machine.next^[k] origin
              ∧ (e.step.failure = none ↔ e.machine.step.isOk = true)))
      ∧ (∀ new f, Layout.build (statements new) = .error f →
        s.reload new = .error f ∧ s.after (.reload new) = s
          ∧ currentSource source (acts ++ [.reload new]) = current)
      ∧ ∀ new l, Layout.build (statements new) = .ok l →
        ∃ fresh' s', load config new = .ok fresh' ∧ s.reload new = .ok s'
          ∧ s.after (.reload new) = s' ∧ s' = { fresh' with breakpoints := s'.breakpoints }
          ∧ (∀ b, b ∈ s'.breakpoints ↔ b ∈ s.breakpoints ∧ b ≤ (lines new).length)
          ∧ currentSource source (acts ++ [.reload new]) = new := by
  intro s current
  have hsound : Sound config current s := (sound_of_load h).afterAll acts
  have hlast : ∀ new, currentSource source (acts ++ [.reload new])
      = Act.source current (.reload new) := by
    intro new
    simp [currentSource, current]
  refine ⟨hsound.length_program, fun b hb => ?_, hsound.increasing, ?_, fun new f hf => ?_,
    fun new l hl => ?_⟩
  · rw [hsound.length_program]
    exact hsound.bounded b hb
  · obtain ⟨l, hl, htraced⟩ := hsound.traced
    refine ⟨l, hl, htraced.machine, htraced.history, htraced.size_add, fun hlen k => ?_⟩
    have horigin := Machine.positioned_restart (Machine.fresh config (statements current)) l
    intro e
    have he : e = { Engine.load config current with
        laidOut := true
        machine := Machine.next^[k] ((Machine.fresh config (statements current)).restart l) } := by
      show Engine.afterAll _ _ = _
      rw [Engine.afterAll_cons, Engine.after_prepare (e := Engine.load config current) hl]
      exact Engine.afterAll_replicate_step hl hlen k rfl horigin
    rw [he]
    exact ⟨rfl, Engine.failure_step_eq_none_iff hl hlen rfl (horigin.iterate k)⟩
  · exact ⟨reload_of_build_error hf s, after_reload_of_build_error hf s,
      (hlast new).trans (source_of_build_error hf current)⟩
  · refine ⟨_, _, load_eq hl config, reload_of_build hl s, after_reload_of_build hl s, ?_, ?_,
      (hlast new).trans (source_of_build hl current)⟩
    · rw [hsound.configured]
    · simp

/-- A stretch up to a breakpoint, a step that fails, a program that cannot be laid out, and the step
that fails once more. -/
theorem replay_afterAll_faults :
    ∃ fresh s, load ⟨10, 4⟩ "LA 1,5\nL 0,99\nLR 2,1" = .ok fresh
      ∧ s = fresh.afterAll [.add 2, .add 4, .run none, .step, .reload "DC", .step]
      ∧ s.machine.steps = 3 ∧ s.history = #[1] ∧ s.breakpoints = [2]
      ∧ ∃ l origin, Layout.build (statements "LA 1,5\nL 0,99\nLR 2,1") = .ok l
        ∧ origin = (Machine.fresh ⟨10, 4⟩ (statements "LA 1,5\nL 0,99\nLR 2,1")).restart l
        ∧ ((List.iterate Machine.next origin 3).filter (!·.step.isOk)).length = 2 := by
  have hload : (load ⟨10, 4⟩ "LA 1,5\nL 0,99\nLR 2,1").map (fun fresh =>
      let s := fresh.afterAll [.add 2, .add 4, .run none, .step, .reload "DC", .step]
      (s.machine.steps, s.history, s.breakpoints)) = .ok (3, #[1], [2]) := by
    decide +kernel
  have hcurrent : currentSource "LA 1,5\nL 0,99\nLR 2,1"
      [.add 2, .add 4, .run none, .step, .reload "DC", .step] = "LA 1,5\nL 0,99\nLR 2,1" := by
    decide +kernel
  obtain ⟨fresh, hfresh, hs⟩ := map_eq_ok.1 hload
  obtain ⟨-, -, -, ⟨l, hl, -, -, hsize, -⟩, -⟩ := replay_afterAll hfresh
    [.add 2, .add 4, .run none, .step, .reload "DC", .step]
  simp only [Prod.mk.injEq] at hs
  obtain ⟨hsteps, hhistory, hbreakpoints⟩ := hs
  rw [hcurrent] at hl
  rw [hcurrent, hsteps, hhistory] at hsize
  refine ⟨fresh, _, hfresh, rfl, hsteps, hhistory, hbreakpoints, l, _, hl, rfl, ?_⟩
  rw [show (#[1] : Array Int).size = 1 from rfl] at hsize
  omega

end Session

end WordMachine
