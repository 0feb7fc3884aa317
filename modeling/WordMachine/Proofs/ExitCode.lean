import WordMachine.Command
import WordMachine.Proofs.Bare
import WordMachine.Proofs.Breakpoints
import WordMachine.Proofs.History
import WordMachine.Proofs.Request
import WordMachine.Proofs.Unreadable

/-!
# Exit codes

The work of a command ends in one of four ways: it is done, the program has an error, a breakpoint
is outside the program, or something else is refused. `Ends` tells how, stage by stage: the file is
read as text, the program is laid out, and then it is listed, run or debugged. The exit code follows
from the ending (`code_of_ends`), but a command that sets breakpoints takes every value that is
refused for one of them, wherever it comes from. What can be refused at all is a byte, a numeral, a
count or a size that is too large, or a ceiling too long to be written out (`refusal_of_ends`), and
no command line asks for such a ceiling (`ceiling_of_read`).
-/

namespace WordMachine

open Text

namespace Session

variable {s s' : Session} {calls : Nat} {outcome : Except Failure Event} {l : Layout}

/-- What can come of running a program that is laid out: a stop for one of some reasons, the event
of an error of a step, or the refusal of a step. -/
inductive Outcome (l : Layout) (reasons : List StopReason) : Except Failure Event → Prop
  | stop (s : Session) {reason : StopReason} (message : String) (h : reason ∈ reasons) :
    Outcome l reasons (.ok (s.stop reason message))
  | fault (s : Session) (d : Diagnostic) : Outcome l reasons (.ok (s.fault d))
  | refusal {m : Machine} {r : Refusal} (hm : m.Settled l)
    (h : m.step = .error (.refusal r)) : Outcome l reasons (.error (.refusal r))

theorem runFor_outcome : ∀ (n : Nat) (s : Session) (taken : Nat),
    s.machine.Settled l → Outcome l [.finish, .limit, .breakpoint] (s.runFor taken n).2 := by
  intro n
  induction n with
  | zero =>
    intro s taken _
    unfold runFor
    split_ifs with hend
    · exact .stop _ _ (by simp)
    · exact .stop _ _ (by simp)
  | succ n ih =>
    intro s taken hm
    unfold runFor
    split_ifs with hend hbreak
    · exact .stop _ _ (by simp)
    · exact .stop _ _ (by simp)
    · rcases hs : s.machine.step with (d | r) | m
      · exact .fault _ _
      · exact .refusal hm hs
      · exact ih (s.record m) (taken + 1) (hm.step hs)

/-- A debugging loop does not end at a breakpoint. -/
theorem Loops.ending (h : Loops s calls s' outcome) (hm : s.machine.Settled l) :
    Outcome l [.finish, .limit] outcome := by
  induction h with
  | @last s hnot =>
    have hrun : Outcome l [.finish, .limit, .breakpoint] (s.run none).2 :=
      runFor_outcome _ s 0 hm
    generalize (s.run none).2 = outcome at hrun hnot
    cases hrun with
    | stop s₁ message hreason =>
      simp only [List.mem_cons, List.not_mem_nil, or_false] at hreason
      rcases hreason with rfl | rfl | rfl
      · exact .stop _ _ (by simp)
      · exact .stop _ _ (by simp)
      · exact absurd ⟨_, rfl, rfl⟩ hnot
    | fault s₁ d => exact .fault s₁ d
    | refusal hm hs => exact .refusal hm hs
  | again _ _ ih =>
    exact ih (runFor_induct (P := fun s => s.machine.Settled l) (fun _ _ hm hs => hm.step hs)
      (fun _ _ hm _ => hm.tick) _ _ 0 hm)

/-- Breakpoints are set one after the other up to the first that is outside the program. -/
theorem foldlM_addBreakpoint : ∀ (breakpoints : List Int) (s : Session),
    (∃ s', breakpoints.foldlM addBreakpoint s = .ok s' ∧ s'.machine = s.machine
        ∧ ∀ b ∈ breakpoints, 1 ≤ b ∧ b ≤ s.machine.program.length)
      ∨ ∃ b ∈ breakpoints, ¬ (1 ≤ b ∧ b ≤ s.machine.program.length)
        ∧ breakpoints.foldlM addBreakpoint s
          = .error (.lineOutside b s.machine.program.length)
  | [], s => .inl ⟨s, rfl, rfl, by simp⟩
  | b :: breakpoints, s => by
    rw [List.foldlM_cons, addBreakpoint]
    split_ifs with hb
    · rcases foldlM_addBreakpoint breakpoints { s with breakpoints := insertLine b s.breakpoints }
        with ⟨s', hs', hm, hall⟩ | ⟨b', hb', hout, herr⟩
      · exact .inl ⟨s', hs', hm, List.forall_mem_cons.2 ⟨hb, hall⟩⟩
      · exact .inr ⟨b', List.mem_cons_of_mem b hb', hout, herr⟩
    · exact .inr ⟨b, List.mem_cons_self, hb, rfl⟩

theorem foldlM_of_load {config : Config} {source : String} {fresh : Session}
    (h : load config source = .ok fresh) (breakpoints : List Int) :
    (∃ s, breakpoints.foldlM addBreakpoint fresh = .ok s ∧ s.machine = fresh.machine
        ∧ ∀ b ∈ breakpoints, 1 ≤ b ∧ b ≤ (lines source).length)
      ∨ ∃ b ∈ breakpoints, ¬ (1 ≤ b ∧ b ≤ (lines source).length)
        ∧ breakpoints.foldlM addBreakpoint fresh
          = .error (.lineOutside b (lines source).length) := by
  rw [← (sound_of_load h).length_program]
  exact foldlM_addBreakpoint breakpoints fresh

end Session

section Refusal

variable {r : Refusal}

theorem refusal_of_build {source : String}
    (h : Layout.build (statements source) = .error (.refusal r)) : Literal.Refused r := by
  obtain ⟨n, s, d, rule, -, hadd, -, htells⟩ := failure_of_build h
  obtain rfl : rule = .operandsDeclare := by
    rcases htells with ⟨cause, hf, -⟩ | ⟨hrule, -⟩
    · cases hf
    · exact hrule
  obtain ⟨l, op, -, -, hgrant⟩ := Layout.Draft.grant_of_tells hadd htells
  rcases DataOp.grant_error hgrant with ⟨e, hf⟩ | ⟨r', hf, hr⟩ <;> cases hf
  exact hr

/-- A ceiling that is too long to be written out. -/
def IsUnwritten (limit : Int) (r : Refusal) : Prop :=
  r = .numberTooLong ∧ Numeral.isWritable limit = false

theorem Engine.isUnwritten_of_closing {limit : Int} {m : Machine}
    (h : closing limit m = some (.refusal r)) : IsUnwritten limit r := by
  rcases hw : Numeral.isWritable limit with _ | _
  · rw [closing_of_not_isWritable hw] at h
    split_ifs at h
    cases h
    exact ⟨rfl, hw⟩
  · rw [closing_of_isWritable hw] at h
    split_ifs at h
    cases h

theorem Engine.isUnwritten_of_overLimit {limit : Int} {m : Machine}
    (h : Failure.report (overLimit limit m) = .refusal r) : IsUnwritten limit r := by
  unfold Failure.report at h
  split_ifs at h with hw
  cases h
  exact ⟨rfl, by simpa [overLimit, Cause.isWritable, Cause.numbers] using hw⟩

theorem Engine.run_refusal {source : String} {l : Layout}
    (h : Layout.build (statements source) = .ok l) {config : Config}
    (hf : (load config source).run.failure = some (.refusal r)) :
    (∃ e, r = .numeral e) ∨ IsUnwritten config.maxSteps r := by
  rw [(run_load h config).2.2] at hf
  rcases Option.or_eq_some_iff.1 hf with hfailed | ⟨-, hclosing⟩
  · obtain ⟨k, -, m, hm, -, ⟨hnone, -⟩ | ⟨f, hsome, -, -, hs⟩⟩ := Machine.runFor_cases
      config.maxSteps.toNat ((Machine.fresh config (statements source)).restart l) #[]
    · rw [hfailed] at hnone
      cases hnone
    · rw [hfailed, Option.some.injEq] at hsome
      rw [← hsome] at hs
      have hm := Machine.settled_stepN (Machine.settled_fresh config _ l) hm
      exact .inl (hm.step_refusal h hs)
  · exact .inr (isUnwritten_of_closing hclosing)

end Refusal

namespace Command

/-- How the work of a command ends. -/
inductive Ending where
  | done
  | failed (f : Failure)
  | misplaced
  deriving DecidableEq, Repr

def Action.isDebug : Action → Bool
  | .debug .. => true
  | _ => false

/-- Why a file cannot be loaded: it is no text, or its text has no layout. -/
def FailsToLoad (bytes : List UInt8) (f : Failure) : Prop :=
  (∃ r, sourceText bytes = .error r ∧ f = .refusal r)
    ∨ ∃ source, sourceText bytes = .ok source ∧ Layout.build (statements source) = .error f

/-- The program is debugged from its start, and the loop leaves a session and an outcome. -/
def Debugs (source : String) (maxSteps : Int) (breakpoints : List Int) (last : Session)
    (outcome : Except Failure Event) : Prop :=
  ∃ fresh s calls, Session.load { maxSteps } source = .ok fresh
    ∧ breakpoints.foldlM Session.addBreakpoint fresh = .ok s
    ∧ Session.Loops s calls last outcome

/-- How an action on a program that has a layout ends. -/
inductive Works (source : String) : Action → Ending → Prop
  | listed : Works source .layout .done
  | ran {maxSteps : Int} {trace memory : Bool}
    (h : (Engine.load { maxSteps } source).run.failure = none) :
    Works source (.run maxSteps trace memory) .done
  | broken {maxSteps : Int} {trace memory : Bool} {f : Failure}
    (h : (Engine.load { maxSteps } source).run.failure = some f) :
    Works source (.run maxSteps trace memory) (.failed f)
  | misplaced {maxSteps : Int} {breakpoints : List Int} {b : Int} (hb : b ∈ breakpoints)
    (h : ¬ (1 ≤ b ∧ b ≤ (Text.lines source).length)) :
    Works source (.debug maxSteps breakpoints) .misplaced
  | finished {maxSteps : Int} {breakpoints : List Int} {last : Session} {ev : Event}
    (hd : Debugs source maxSteps breakpoints last (.ok ev)) (h : ev.reason = .finish) :
    Works source (.debug maxSteps breakpoints) .done
  | faulted {maxSteps : Int} {breakpoints : List Int} {last : Session} {ev : Event}
    {d : Diagnostic} (hd : Debugs source maxSteps breakpoints last (.ok ev))
    (h : ev.reason = .error) (hc : ev.cause = some d) :
    Works source (.debug maxSteps breakpoints) (.failed (.diagnostic d))
  | limited {maxSteps : Int} {breakpoints : List Int} {last : Session} {ev : Event}
    (hd : Debugs source maxSteps breakpoints last (.ok ev)) (h : ev.reason = .limit) :
    Works source (.debug maxSteps breakpoints)
      (.failed (.report (Engine.overLimit maxSteps last.machine)))
  -- an error of the program is an event, so what escapes is something else
  | escaped {maxSteps : Int} {breakpoints : List Int} {last : Session} {f : Failure}
    (hd : Debugs source maxSteps breakpoints last (.error f)) :
    Works source (.debug maxSteps breakpoints) (.failed f)

/-- How an action on a file ends. -/
inductive Ends (bytes : List UInt8) (action : Action) : Ending → Prop
  | unloaded {f : Failure} (h : FailsToLoad bytes f) : Ends bytes action (.failed f)
  | loaded {source : String} {l : Layout} {e : Ending} (hs : sourceText bytes = .ok source)
    (hl : Layout.build (statements source) = .ok l) (h : Works source action e) :
    Ends bytes action e

section Account

variable {source : String} {l : Layout} {f : Failure}

/-- The code of a reply to an account with the given failure. -/
def codeOf (blamesArgument : Bool) : Option Failure → Nat
  | none => 0
  | some (.diagnostic _) => 1
  | some (.refusal r) => if blamesArgument ∧ r.kind = .value then 2 else 3

theorem code_reply (a : Account) (verbose blamesArgument : Bool) :
    (a.reply verbose blamesArgument).code = codeOf blamesArgument a.failure := by
  unfold Account.reply codeOf
  rcases a.failure with _ | d | r
  · rfl
  · rfl
  · simp only
    split_ifs <;> rfl

theorem failure_runAccount (verbose : Bool) (maxSteps : Int) (trace memory : Bool)
    (source : String) :
    (runAccount verbose maxSteps trace memory source).failure
      = (Engine.load { maxSteps } source).run.failure := by
  -- with the engine a variable nothing of the program is evaluated
  unfold runAccount
  generalize Engine.load { maxSteps } source = engine
  rcases hp : engine.prepare with f | e
  · simp only [Engine.run, hp]
  · simp only [hp]

theorem failure_layoutAccount_of_build (h : Layout.build (statements source) = .ok l)
    (verbose : Bool) : (layoutAccount verbose source).failure = none := by
  unfold layoutAccount
  generalize statements source = program at h ⊢
  simp only [h]

theorem failure_layoutAccount_of_error (h : Layout.build (statements source) = .error f)
    (verbose : Bool) : (layoutAccount verbose source).failure = some f := by
  unfold layoutAccount
  generalize statements source = program at h ⊢
  simp only [h]

section Debug

variable {maxSteps : Int} {breakpoints : List Int} {fresh s last : Session} {calls : Nat}
  {outcome : Except Failure Event}

theorem failure_debugAccount_of_error (h : Session.load { maxSteps } source = .error f) :
    (debugAccount maxSteps breakpoints source).failure = some f := by
  unfold debugAccount
  rw [h]

theorem failure_debugAccount_of_misplaced {r : Refusal}
    (h : Session.load { maxSteps } source = .ok fresh)
    (hb : breakpoints.foldlM Session.addBreakpoint fresh = .error r) :
    (debugAccount maxSteps breakpoints source).failure = some (.refusal r) := by
  unfold debugAccount
  rw [h]
  simp only [hb]

theorem failure_debugAccount (h : Session.load { maxSteps } source = .ok fresh)
    (hb : breakpoints.foldlM Session.addBreakpoint fresh = .ok s)
    (hloops : Session.Loops s calls last outcome) :
    (debugAccount maxSteps breakpoints source).failure
      = stretchFailure maxSteps last outcome := by
  have hlast := hloops.getLast?_finish
  unfold debugAccount
  rw [h]
  simp only [hb]
  rcases hs : s.finish.getLast? with _ | ⟨before, after, outcome'⟩ <;> rw [hs] at hlast
  · cases hlast
  · cases hlast
    rfl

end Debug

section Reply

variable {t : Task} {bytes : List UInt8} {maxSteps : Int}

theorem code_of_unread {r : Refusal} (h : sourceText bytes = .error r) :
    (t.reply bytes).code = codeOf t.action.isDebug (some (.refusal r)) := by
  unfold Task.reply
  rw [h]
  exact code_reply _ _ _

theorem code_run {trace memory : Bool} (h : sourceText bytes = .ok source)
    (ha : t.action = .run maxSteps trace memory) :
    (t.reply bytes).code = codeOf false (Engine.load { maxSteps } source).run.failure := by
  unfold Task.reply
  rw [h, ha, ← failure_runAccount t.verbose maxSteps trace memory]
  exact code_reply _ _ _

theorem code_layout (h : sourceText bytes = .ok source) (ha : t.action = .layout) :
    (t.reply bytes).code = codeOf false (layoutAccount t.verbose source).failure := by
  unfold Task.reply
  rw [h, ha]
  exact code_reply _ _ _

theorem code_debug {breakpoints : List Int} (h : sourceText bytes = .ok source)
    (ha : t.action = .debug maxSteps breakpoints) :
    (t.reply bytes).code = codeOf true (debugAccount maxSteps breakpoints source).failure := by
  unfold Task.reply
  rw [h, ha]
  exact code_reply _ _ _

end Reply

end Account

section Ends

variable {t : Task} {bytes : List UInt8} {action : Action} {e : Ending} {source : String}
  {l : Layout}

/-- The exit code that an ending has. -/
def Ending.reported (blamesArgument : Bool) : Ending → Nat
  | .done => 0
  | .failed f => codeOf blamesArgument (some f)
  | .misplaced => 2

theorem code_of_failsToLoad {f : Failure} (h : FailsToLoad bytes f) :
    (t.reply bytes).code = codeOf t.action.isDebug (some f) := by
  rcases h with ⟨r, hr, rfl⟩ | ⟨source, hs, hl⟩
  · exact code_of_unread hr
  · rcases ha : t.action with ⟨maxSteps, trace, memory⟩ | _ | ⟨maxSteps, breakpoints⟩
    · have hp : (Engine.load { maxSteps } source).prepare = .error f :=
        Engine.prepare_of_build_error hl
      rw [code_run hs ha, Engine.run, hp]
      rfl
    · rw [code_layout hs ha, failure_layoutAccount_of_error hl]
      rfl
    · rw [code_debug hs ha, failure_debugAccount_of_error (Session.load_of_build_error hl)]
      rfl

section Debugs

variable {maxSteps : Int} {breakpoints : List Int} {last : Session}
  {outcome : Except Failure Event}

theorem code_of_debugs (hs : sourceText bytes = .ok source)
    (ha : t.action = .debug maxSteps breakpoints)
    (hd : Debugs source maxSteps breakpoints last outcome) :
    (t.reply bytes).code = codeOf true (stretchFailure maxSteps last outcome) := by
  obtain ⟨fresh, s, calls, hfresh, hb, hloops⟩ := hd
  rw [code_debug hs ha, failure_debugAccount hfresh hb hloops]

theorem stretchFailure_stop (maxSteps : Int) (last s : Session) (reason : StopReason)
    (message : String) :
    stretchFailure maxSteps last (.ok (s.stop reason message))
      = if reason = .limit then some (.report (Engine.overLimit maxSteps last.machine))
        else none := rfl

theorem Debugs.ending (hl : Layout.build (statements source) = .ok l)
    (hd : Debugs source maxSteps breakpoints last outcome) :
    Session.Outcome l [.finish, .limit] outcome := by
  obtain ⟨fresh, s, calls, hfresh, hs, hloops⟩ := hd
  rcases Session.foldlM_of_load hfresh breakpoints with ⟨s', hs', hm, -⟩ | ⟨b, -, -, herr⟩
  · rw [hs] at hs'
    cases hs'
    rw [Session.load_eq hl] at hfresh
    cases hfresh
    refine hloops.ending ?_
    rw [hm]
    exact Machine.settled_fresh _ _ l
  · rw [hs] at herr
    cases herr

end Debugs

theorem code_of_works (hs : sourceText bytes = .ok source)
    (hl : Layout.build (statements source) = .ok l) (h : Works source t.action e) :
    (t.reply bytes).code = e.reported t.action.isDebug := by
  generalize ha : t.action = action at h
  cases h with
  | listed =>
    rw [code_layout hs ha, failure_layoutAccount_of_build hl]
    rfl
  | ran h =>
    rw [code_run hs ha, h]
    rfl
  | broken h =>
    rw [code_run hs ha, h]
    rfl
  | @misplaced maxSteps breakpoints b hb h =>
    have hfresh := Session.load_eq hl { maxSteps }
    rcases Session.foldlM_of_load hfresh breakpoints with ⟨s, -, -, hall⟩ | ⟨b', -, -, herr⟩
    · exact absurd (hall b hb) h
    · rw [code_debug hs ha, failure_debugAccount_of_misplaced hfresh herr]
      rfl
  | finished hd h =>
    rw [code_of_debugs hs ha hd]
    -- the code looks at the cause first, and only the event of an error has one
    cases hd.ending hl with
    | @stop s reason message =>
      rw [stretchFailure_stop, show reason = .finish from h]
      rfl
    | fault => cases h
  | faulted hd h hc =>
    rw [code_of_debugs hs ha hd, stretchFailure, hc]
    rfl
  | limited hd h =>
    rw [code_of_debugs hs ha hd]
    cases hd.ending hl with
    | @stop s reason message =>
      rw [stretchFailure_stop, show reason = .limit from h]
      rfl
    | fault => cases h
  | escaped hd =>
    rw [code_of_debugs hs ha hd]
    rfl

theorem code_of_ends (h : Ends bytes t.action e) :
    (t.reply bytes).code = e.reported t.action.isDebug := by
  cases h with
  | unloaded h => exact code_of_failsToLoad h
  | loaded hs hl h => exact code_of_works hs hl h

theorem exists_works (hl : Layout.build (statements source) = .ok l) (action : Action) :
    ∃ e, Works source action e := by
  cases action with
  | run maxSteps trace memory =>
    rcases hf : (Engine.load { maxSteps } source).run.failure with _ | f
    · exact ⟨_, .ran hf⟩
    · exact ⟨_, .broken hf⟩
  | layout => exact ⟨_, .listed⟩
  | debug maxSteps breakpoints =>
    have hfresh := Session.load_eq hl { maxSteps }
    rcases Session.foldlM_of_load hfresh breakpoints with ⟨s, hb, -, -⟩ | ⟨b, hb, hout, -⟩
    · obtain ⟨calls, last, outcome, hloops, -⟩ := Session.Loops.exists_of_fuel _ s 0 rfl
      have hd : Debugs source maxSteps breakpoints last outcome :=
        ⟨_, s, calls, hfresh, hb, hloops⟩
      cases hd.ending hl with
      | @stop s₁ reason message hreason =>
        simp only [List.mem_cons, List.not_mem_nil, or_false] at hreason
        rcases hreason with rfl | rfl
        · exact ⟨_, .finished hd rfl⟩
        · exact ⟨_, .limited hd rfl⟩
      | fault s₁ d => exact ⟨_, .faulted hd rfl rfl⟩
      | refusal => exact ⟨_, .escaped hd⟩
    · exact ⟨_, .misplaced hb hout⟩

theorem exists_ends (bytes : List UInt8) (action : Action) : ∃ e, Ends bytes action e := by
  rcases hs : sourceText bytes with r | source
  · exact ⟨_, .unloaded (.inl ⟨r, hs, rfl⟩)⟩
  · rcases hl : Layout.build (statements source) with f | l
    · exact ⟨_, .unloaded (.inr ⟨source, hs, hl⟩)⟩
    · obtain ⟨e, he⟩ := exists_works hl action
      exact ⟨e, .loaded hs hl he⟩

/-- Only bytes, numerals, counts and sizes are refused, and while a program runs only numerals; when
it is over, the ceiling. -/
theorem refusal_of_ends {r : Refusal} (h : Ends bytes action (.failed (.refusal r))) :
    (∃ fault, r = .notText fault) ∨ Literal.Refused r
      ∨ ∃ limit, action.ceiling? = some limit ∧ IsUnwritten limit r := by
  cases h with
  | unloaded h =>
    rcases h with ⟨r', hr, hf⟩ | ⟨source, -, hl⟩
    · cases hf
      unfold sourceText at hr
      split at hr <;> cases hr
      exact .inl ⟨_, rfl⟩
    · exact .inr (.inl (refusal_of_build hl))
  | loaded _ hl h =>
    generalize he : Ending.failed (.refusal r) = e at h
    cases h with
    | broken h =>
      cases he
      rcases Engine.run_refusal hl h with hnumeral | hlimit
      · exact .inr (.inl (.inl hnumeral))
      · exact .inr (.inr ⟨_, rfl, hlimit⟩)
    | limited =>
      exact .inr (.inr ⟨_, rfl, Engine.isUnwritten_of_overLimit (Ending.failed.inj he).symm⟩)
    | escaped hd =>
      cases he
      cases hd.ending hl with
      | refusal hm hs => exact .inr (.inl (.inl (hm.step_refusal hl hs)))
    | _ => cases he

theorem code_eq_iff (t : Task) (bytes : List UInt8) (n : Nat) :
    (t.reply bytes).code = n
      ↔ ∃ e, Ends bytes t.action e ∧ e.reported t.action.isDebug = n := by
  constructor
  · intro h
    obtain ⟨e, he⟩ := exists_ends bytes t.action
    exact ⟨e, he, (code_of_ends he).symm.trans h⟩
  · rintro ⟨e, he, hn⟩
    exact (code_of_ends he).trans hn

theorem Ending.exists_iff {P : Ending → Prop} :
    (∃ e, P e) ↔ P .done ∨ (∃ d, P (.failed (.diagnostic d))) ∨ P .misplaced
      ∨ ∃ r, P (.failed (.refusal r)) := by
  constructor
  · rintro ⟨_ | ⟨d | r⟩ | _, h⟩
    · exact .inl h
    · exact .inr (.inl ⟨d, h⟩)
    · exact .inr (.inr (.inr ⟨r, h⟩))
    · exact .inr (.inr (.inl h))
  · rintro (h | ⟨d, h⟩ | h | ⟨r, h⟩) <;> exact ⟨_, h⟩

end Ends

/-- The exit code tells how the work of a command ends: zero that it is done, one that the program
has an error, two that a breakpoint is outside the program, and three that something else is
refused. But where breakpoints can be set, a value that is refused is reported as if it were one of
them, whether it is a byte of the file or a numeral of the program; only a count or a size that is
too large is not. So when a file cannot be loaded, commands of both kinds agree unless that is for a
value. A ceiling is refused only if it is too long to be written out, and then no command line asks
for it. -/
theorem exit_code_iff (t : Task) (bytes : List UInt8) :
    (∃ e, Ends bytes t.action e)
      ∧ ((t.reply bytes).code = 0 ↔ Ends bytes t.action .done)
      ∧ ((t.reply bytes).code = 1 ↔ ∃ d, Ends bytes t.action (.failed (.diagnostic d)))
      ∧ ((t.reply bytes).code = 2 ↔ Ends bytes t.action .misplaced
        ∨ ∃ r, Ends bytes t.action (.failed (.refusal r))
          ∧ t.action.isDebug = true ∧ r.kind = .value)
      ∧ ((t.reply bytes).code = 3 ↔ ∃ r, Ends bytes t.action (.failed (.refusal r))
        ∧ ¬ (t.action.isDebug = true ∧ r.kind = .value))
      ∧ (∀ r, Ends bytes t.action (.failed (.refusal r)) →
        (∃ fault, r = .notText fault)
          ∨ ((∃ fault, r = .numeral fault) ∨ r = .countTooLarge ∨ r = .roomTooLarge)
          ∨ ∃ limit, t.action.ceiling? = some limit ∧ IsUnwritten limit r)
      ∧ (∀ args, Request.read? args = some (.task t) → ∀ limit, t.action.ceiling? = some limit →
        1 ≤ limit ∧ Numeral.isWritable limit = true)
      ∧ ∀ f, FailsToLoad bytes f → ∀ t' : Task, (t.reply bytes).code = (t'.reply bytes).code
        ↔ t.action.isDebug = t'.action.isDebug ∨ ∀ r, f = .refusal r → r.kind ≠ .value := by
  refine ⟨exists_ends bytes t.action, ?_, ?_, ?_, ?_, fun r => refusal_of_ends,
    fun args h limit => ceiling_of_read h, fun f hf t' => ?_⟩
  · rw [code_eq_iff, Ending.exists_iff]
    simp [Ending.reported, codeOf, ite_eq_iff]
  · rw [code_eq_iff, Ending.exists_iff]
    simp [Ending.reported, codeOf, ite_eq_iff]
  · rw [code_eq_iff, Ending.exists_iff]
    simp [Ending.reported, codeOf]
  · rw [code_eq_iff, Ending.exists_iff]
    simp [Ending.reported, codeOf]
  · rw [code_of_failsToLoad hf, code_of_failsToLoad hf]
    rcases f with d | r
    · simp [codeOf]
    · by_cases hv : r.kind = .value
      · rcases t.action.isDebug <;> rcases t'.action.isDebug <;> simp [codeOf, hv]
      · simp [codeOf, hv]

/-- A breakpoint after the only line of a program. -/
theorem exit_code_iff_misplaced :
    let t : Task := ⟨false, "", .debug 10 [2]⟩
    Ends [76, 65, 32, 49, 44, 53] t.action .misplaced
      ∧ (t.reply [76, 65, 32, 49, 44, 53]).code = 2 := by
  intro t
  have hs : sourceText [76, 65, 32, 49, 44, 53] = .ok "LA 1,5" := by decide +kernel
  have hl : (Layout.build (statements "LA 1,5")).map Layout.size = .ok 4 := by decide +kernel
  obtain ⟨l, hl, -⟩ := map_eq_ok.1 hl
  have h : Ends [76, 65, 32, 49, 44, 53] t.action .misplaced :=
    .loaded hs hl (.misplaced List.mem_cons_self (by decide +kernel))
  exact ⟨h, (exit_code_iff t _).2.2.2.1.2 (.inl h)⟩

/-- A byte that is no text is taken for a bad breakpoint, though there is none. -/
theorem exit_code_iff_unreadable_byte :
    let debug : Task := ⟨false, "", .debug 1000 []⟩
    let run : Task := ⟨false, "", .run 1000 false false⟩
    let layout : Task := ⟨false, "", .layout⟩
    (∃ r, FailsToLoad [0xff] (.refusal r)) ∧ ¬ Ends [0xff] debug.action .misplaced
      ∧ (debug.reply [0xff]).code = 2 ∧ (run.reply [0xff]).code = 3
      ∧ (layout.reply [0xff]).code = 3 := by
  intro debug run layout
  have hs : sourceText [0xff] = .error (.notText ⟨0, 1, 0xff, .invalidStart⟩) := by decide +kernel
  refine ⟨⟨_, .inl ⟨_, hs, rfl⟩⟩, fun h => ?_, ?_, ?_, ?_⟩
  · cases h with
    | loaded hs' => cases hs.symm.trans hs'
  · exact code_of_unread hs
  · exact code_of_unread hs
  · exact code_of_unread hs

end Command

end WordMachine
