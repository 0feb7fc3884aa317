import WordMachine.Command.Request
import WordMachine.Proofs.Operand

/-!
# The ceiling on a command line

A number given on the command line is converted from a text of no more digits than are written out
again, so the ceiling of a task that a command line asks for can be reported when it is reached
(`ceiling_of_read`).
-/

namespace WordMachine.Command

open Text

/-- The ceiling under which an action runs a program, if it does. -/
def Action.ceiling? : Action → Option Int
  | .run maxSteps .. | .debug maxSteps _ => some maxSteps
  | .layout => none

variable {limit : Int}

theorem isWritable_of_readSigned? {text : String} (h : Numeral.readSigned? text = some limit) :
    Numeral.isWritable limit = true := by
  unfold Numeral.readSigned? at h
  extract_lets body at h
  split at h
  rename_i negative digits _
  split at h
  · rename_i n hread
    obtain ⟨cs, -, hn⟩ := Option.map_eq_some_iff.1 hread
    have hw := (read_eq_ok_iff.1 hn).isWritable
    cases h
    refine Numeral.isWritable_mono ?_ hw
    split_ifs <;> simp
  · cases h

theorem isWritable_of_maxSteps? {given : List (Key × String)} (h : maxSteps? given = some limit) :
    1 ≤ limit ∧ Numeral.isWritable limit = true := by
  unfold maxSteps? at h
  split at h
  · cases h
    decide +kernel
  · obtain ⟨n, hn, hlimit⟩ := Option.bind_eq_some_iff.1 h
    split_ifs at hlimit with hone
    cases hlimit
    exact ⟨hone, isWritable_of_readSigned? hn⟩

theorem isWritable_of_action? {given : List (Key × String)} {topic : Topic} {action : Action}
    (h : action? given topic = some action) (hlimit : action.ceiling? = some limit) :
    1 ≤ limit ∧ Numeral.isWritable limit = true := by
  cases topic with
  | run =>
    obtain ⟨maxSteps, hmax, rfl⟩ := Option.map_eq_some_iff.1 h
    cases hlimit
    exact isWritable_of_maxSteps? hmax
  | layout =>
    cases h
    cases hlimit
  | debug =>
    obtain ⟨maxSteps, hmax, h⟩ := Option.bind_eq_some_iff.1 h
    obtain ⟨breakpoints, -, h⟩ := Option.bind_eq_some_iff.1 h
    cases h
    cases hlimit
    exact isWritable_of_maxSteps? hmax
  | commands => cases h

/-- A task is what a command does under the options given to it. -/
theorem exists_action_of_readCommand {verbose : Bool} {command : Topic} {rest : List String}
    {t : Task} (h : readCommand verbose command rest = some (.task t)) :
    ∃ given, action? given command = some t.action := by
  obtain ⟨⟨given, words⟩, -, h⟩ := Option.bind_eq_some_iff.1 h
  simp only [Option.pure_def, Option.bind_eq_bind] at h
  split_ifs at h
  · cases h
  · split at h
    · obtain ⟨action, haction, h⟩ := Option.bind_eq_some_iff.1 h
      cases h
      exact ⟨given, haction⟩
    · cases h

theorem exists_action_of_read {args : List String} {t : Task}
    (h : Request.read? args = some (.task t)) :
    ∃ given topic, action? given topic = some t.action := by
  unfold Request.read? at h
  simp only [Option.pure_def, Option.bind_eq_bind] at h
  split_ifs at h
  · cases h
  · obtain ⟨⟨given, words⟩, -, h⟩ := Option.bind_eq_some_iff.1 h
    simp only at h
    split at h
    · cases h
    · cases h
    · split at h
      · split at h
        · rename_i command _
          obtain ⟨given, haction⟩ := exists_action_of_readCommand h
          exact ⟨given, command, haction⟩
        · split_ifs at h
          cases h
      · cases h

/-- A command line asks for a ceiling of at least one, and for none that cannot be written out. -/
theorem ceiling_of_read {args : List String} {t : Task} (h : Request.read? args = some (.task t))
    (hlimit : t.action.ceiling? = some limit) : 1 ≤ limit ∧ Numeral.isWritable limit = true := by
  obtain ⟨given, topic, haction⟩ := exists_action_of_read h
  exact isWritable_of_action? haction hlimit

end WordMachine.Command
