import Mathlib.Data.Nat.Find
import Mathlib.Order.Bounds.Basic
import WordMachine.Proofs.Labels

/-!
# Where a jump leads

A jump leads to the one statement that takes room and starts at the address (`jumpTarget_ok_iff`,
`Starts.unique`). Where there is none, the address lies before the program, inside of a statement,
or so far on that no statement after it takes room (`not_starts_iff`). The address reached before a
line is where the first statement starts that takes room from that line on, however many lines
without room stand between (`starts_iff_isLeast`), so a jump to a label leads there.
-/

namespace WordMachine

/-- A statement that takes room starts at an address when the sizes before it add up to that. -/
def Starts (program : List Statement) (address : Int) (i : Nat) : Prop :=
  ∃ s, program[i]? = some s ∧ 0 < s.size ∧ extent (program.take i) = address

/-- Where an address lies at which no statement that takes room starts. -/
inductive Misses (program : List Statement) (address : Int) : Prop
  | before (h : address < 0)
  | inside {i : Nat} (hi : i < program.length) (hlo : extent (program.take i) < address)
    (hhi : address < extent (program.take (i + 1)))
  | past (h : extent program ≤ address)
  | trailing {i : Nat} (hi : extent (program.take i) = address)
    (h : ∀ s ∈ program.drop i, s.size = 0)

/-- The places from a given one on whose statements take room. -/
def occupiedFrom (program : List Statement) (n : Nat) : Set Nat :=
  {j | n ≤ j ∧ ∃ s, program[j]? = some s ∧ s.size ≠ 0}

section Exact

variable {program : List Statement} {address line : Int} {i j : Nat}

/-- Statements without room leave the address where it is. -/
theorem extent_take_of_empty {n : Nat}
    (h : ∀ i s, n ≤ i → i < j → program[i]? = some s → s.size = 0) (hnj : n ≤ j) :
    extent (program.take j) = extent (program.take n) := by
  induction j, hnj using Nat.le_induction with
  | base => rfl
  | succ j hnj ih =>
    have hbefore := ih fun i s hi hij => h i s hi (Nat.lt_succ_of_lt hij)
    rcases hs : program[j]? with _ | s
    · rw [List.take_add_one, hs, ← hbefore]
      simp
    · have hsize := h j s hnj (Nat.lt_succ_self j) hs
      rw [extent_take_succ hs, hsize, hbefore]
      omega

theorem extent_eq_zero : ∀ {program : List Statement}, (∀ s ∈ program, s.size = 0) →
    extent program = 0
  | [], _ => rfl
  | s :: program, h => by
    have hrest := extent_eq_zero fun t ht => h t (List.mem_cons_of_mem s ht)
    rw [extent_cons, h s List.mem_cons_self, hrest]
    rfl

theorem extent_of_trailing (h : ∀ s ∈ program.drop i, s.size = 0) :
    extent program = extent (program.take i) := by
  have hsplit := congrArg extent (List.take_append_drop i program)
  rw [extent_append, extent_eq_zero h] at hsplit
  omega

/-- An address within the program lies in a statement, at its start or after that. -/
theorem exists_around : ∀ (program : List Statement) (address : Int), 0 ≤ address →
    address < extent program →
      ∃ i s, program[i]? = some s ∧ extent (program.take i) ≤ address
        ∧ address < extent (program.take (i + 1))
  | [], address, h₀, h => by
    rw [extent_nil] at h
    omega
  | s :: rest, address, h₀, h => by
    rw [extent_cons] at h
    by_cases hs : address < s.size
    · exact ⟨0, s, rfl, by simpa using h₀, by simpa using hs⟩
    · obtain ⟨i, t, ht, hlo, hhi⟩ :=
        exists_around rest (address - s.size) (by omega) (by omega)
      refine ⟨i + 1, t, by simpa using ht, ?_, ?_⟩
      · rw [List.take_succ_cons, extent_cons]
        omega
      · rw [List.take_succ_cons, extent_cons]
        omega

variable (hsizes : ∀ s ∈ program, 0 ≤ s.size)
include hsizes

theorem jumpTarget_ok_iff : jumpTarget program address line = .ok i ↔ Starts program address i := by
  constructor
  · intro h
    obtain ⟨s, hs, hpos, ha⟩ := target?_some (Machine.jumpTarget_ok h)
    exact ⟨s, hs, hpos, ha.symm⟩
  · rintro ⟨s, hs, hpos, rfl⟩
    unfold jumpTarget
    rw [target?_of_getElem? hsizes hs hpos]

theorem Starts.unique (hi : Starts program address i) (hj : Starts program address j) : i = j := by
  have hfirst : jumpTarget program address 0 = .ok i := (jumpTarget_ok_iff hsizes).2 hi
  have hsecond : jumpTarget program address 0 = .ok j := (jumpTarget_ok_iff hsizes).2 hj
  exact Except.ok.inj (hfirst.symm.trans hsecond)

theorem jumpTarget_error_iff {d : Diagnostic} :
    jumpTarget program address line = .error d ↔
      d = ⟨.invalidJumpTarget address, some line⟩ ∧ ∀ i, ¬ Starts program address i := by
  constructor
  · intro h
    refine ⟨?_, fun i hi => ?_⟩
    · unfold jumpTarget at h
      split at h
      · cases h
      · exact (Except.error.inj h).symm
    · rw [(jumpTarget_ok_iff hsizes).2 hi] at h
      cases h
  · rintro ⟨rfl, hnone⟩
    rcases ht : target? program address with _ | place
    · unfold jumpTarget
      rw [ht]
    · have hok : jumpTarget program address line = .ok place := by
        unfold jumpTarget
        rw [ht]
      exact absurd ((jumpTarget_ok_iff hsizes).1 hok) (hnone place)

/-- The room of a statement lies between its start and the end of the program. -/
theorem Starts.lt_extent (h : Starts program address i) : address < extent program := by
  obtain ⟨s, hs, hpos, rfl⟩ := h
  have hle := extent_take_mono hsizes (Nat.succ_le_of_lt (List.getElem?_eq_some_iff.1 hs).1)
  rw [Nat.succ_eq_add_one, extent_take_succ hs, List.take_length] at hle
  omega

theorem not_starts_iff : (∀ i, ¬ Starts program address i) ↔ Misses program address := by
  constructor
  · intro hnone
    by_cases h₀ : address < 0
    · exact .before h₀
    by_cases hend : extent program ≤ address
    · exact .past hend
    obtain ⟨i, s, hs, hlo, hhi⟩ := exists_around program address (by omega) (by omega)
    refine .inside (List.getElem?_eq_some_iff.1 hs).1 ?_ hhi
    -- a statement around the address that starts at it would be a target
    rcases Int.lt_or_eq_of_le hlo with hlt | heq
    · exact hlt
    · rw [extent_take_succ hs] at hhi
      exact absurd ⟨s, hs, by omega, heq⟩ (hnone i)
  · intro hmiss j hj
    have hpast := hj.lt_extent hsizes
    obtain ⟨s, hs, hpos, rfl⟩ := hj
    cases hmiss with
    | before h =>
      have := extent_nonneg fun t ht => hsizes t (List.mem_of_mem_take (i := j) ht)
      omega
    | @inside i hi hlo hhi =>
      rcases Nat.lt_or_ge i j with hij | hij
      · have := extent_take_mono hsizes (show i + 1 ≤ j from hij)
        omega
      · have := extent_take_mono hsizes hij
        omega
    | past h => omega
    | @trailing i hi h =>
      have := extent_of_trailing h
      omega

/-- The first statement that takes room from a line on starts at the address reached before the
line. -/
theorem starts_iff_isLeast {n : Nat} :
    Starts program (extent (program.take n)) j ↔ IsLeast (occupiedFrom program n) j := by
  constructor
  · rintro ⟨s, hs, hpos, ha⟩
    have hend := extent_take_succ hs
    refine ⟨⟨?_, s, hs, by omega⟩, ?_⟩
    · by_contra hlt
      have := extent_take_mono hsizes (show j + 1 ≤ n by omega)
      omega
    · rintro i ⟨hni, t, ht, hne⟩
      by_contra hlt
      -- the room of a statement before it would keep the two addresses apart
      have hfrom := extent_take_mono hsizes hni
      have hto := extent_take_mono hsizes (show i + 1 ≤ j by omega)
      have htpos := hsizes t (List.mem_of_getElem? ht)
      rw [extent_take_succ ht] at hto
      omega
  · rintro ⟨⟨hnj, s, hs, hne⟩, hleast⟩
    have hspos := hsizes s (List.mem_of_getElem? hs)
    refine ⟨s, hs, by omega, extent_take_of_empty (fun i t hni hij ht => ?_) hnj⟩
    by_contra htne
    have := hleast ⟨hni, t, ht, htne⟩
    omega

theorem not_starts_iff_occupiedFrom {n : Nat} :
    (∀ j, ¬ Starts program (extent (program.take n)) j) ↔ occupiedFrom program n = ∅ := by
  constructor
  · intro hnone
    by_contra hne
    obtain ⟨j, hj⟩ := Set.nonempty_iff_ne_empty.2 hne
    classical
    have hleast : IsLeast (occupiedFrom program n) (Nat.find ⟨j, hj⟩) :=
      ⟨Nat.find_spec ⟨j, hj⟩, fun i hi => Nat.find_min' ⟨j, hj⟩ hi⟩
    exact hnone _ ((starts_iff_isLeast hsizes).2 hleast)
  · intro hempty j hj
    have hmem := ((starts_iff_isLeast hsizes).1 hj).1
    rw [hempty] at hmem
    exact hmem

end Exact

/-- A jump to an address leads to a statement that takes room and starts there. There is at most
one; the jump fails, with the address and its own line, when there is none, and then the address is
negative, inside of a statement, at the end or past it, or has only statements without room after
it. -/
theorem jumpTarget_exact (program : List Statement) (hsizes : ∀ s ∈ program, 0 ≤ s.size)
    (address line : Int) :
    (∀ i, jumpTarget program address line = .ok i ↔ Starts program address i)
      ∧ (∀ i j, Starts program address i → Starts program address j → i = j)
      ∧ (∀ d, jumpTarget program address line = .error d ↔
        d = ⟨.invalidJumpTarget address, some line⟩ ∧ ∀ i, ¬ Starts program address i)
      ∧ ((∀ i, ¬ Starts program address i) ↔ Misses program address) :=
  ⟨fun _ => jumpTarget_ok_iff hsizes, fun _ _ hi hj => hi.unique hsizes hj,
    fun _ => jumpTarget_error_iff hsizes, not_starts_iff hsizes⟩

/-- Two lines without room stand before the second statement and one after it: the address between
the statements leads to the second, and the one after it nowhere. -/
theorem jumpTarget_exact_blanks :
    ∃ program : List Statement, program.map Statement.size = [4, 0, 0, 2, 0]
      ∧ jumpTarget program 4 9 = .ok 3
      ∧ jumpTarget program 6 9 = .error ⟨.invalidJumpTarget 6, some 9⟩
      ∧ jumpTarget program 5 9 = .error ⟨.invalidJumpTarget 5, some 9⟩ := by
  have hsizes : ∀ s ∈ [4, 0, 0, 2, 0].map fun n => (⟨"", 0, 0, n⟩ : Statement), 0 ≤ s.size := by
    decide
  refine ⟨[4, 0, 0, 2, 0].map fun n => ⟨"", 0, 0, n⟩, rfl, ?_, ?_, ?_⟩
  · exact ((jumpTarget_exact _ hsizes 4 9).1 3).2 ⟨⟨"", 0, 0, 2⟩, rfl, by decide, rfl⟩
  · obtain ⟨-, -, herror, hmiss⟩ := jumpTarget_exact _ hsizes 6 9
    exact (herror _).2 ⟨rfl, hmiss.2 (.trailing (i := 4) rfl (by decide))⟩
  · obtain ⟨-, -, herror, hmiss⟩ := jumpTarget_exact _ hsizes 5 9
    exact (herror _).2 ⟨rfl, hmiss.2 (.inside (i := 3) (by decide) (by decide) (by decide))⟩

section Label

open Literal

variable {source : String} {l : Layout} {st : Statement} {k : Nat}

/-- The room of a line with code: as many words as a declaration asks for, or what its instruction
takes. -/
theorem length_of_lineCells {text : String} {cells : List Cell} {code : CodeLine} {m : Mnemonic}
    (h : LineCells text cells) (hcode : CodeLine.parse? text = some code)
    (hm : code.mnemonic? = some m) :
    (∃ op n counted, m = .data op ∧ Repeats code.operand n counted ∧ cells.length = 4 * n)
      ∨ (∀ op, m ≠ .data op) ∧ cells.length = m.size ∧ 0 < m.size := by
  cases h with
  | blank hblank =>
    rw [CodeLine.parse?, hblank] at hcode
    cases hcode
  | @constant _ n _ hcode' hm' hd =>
    rw [hcode'] at hcode
    cases hcode
    cases hm.symm.trans hm'
    obtain ⟨hrep, -, -, -⟩ := hd
    exact .inl ⟨_, n, _, rfl, hrep, by simp [Nat.mul_comm]⟩
  | @space _ n hcode' hm' hd =>
    rw [hcode'] at hcode
    cases hcode
    cases hm.symm.trans hm'
    obtain ⟨⟩ | ⟨hrep, -⟩ := hd
    exact .inl ⟨_, n, _, rfl, hrep, by simp⟩
  | register hcode' hm' =>
    rw [hcode'] at hcode
    cases hcode
    cases hm.symm.trans hm'
    exact .inr ⟨by simp, rfl, Nat.succ_pos _⟩
  | memory hcode' hm' =>
    rw [hcode'] at hcode
    cases hcode
    cases hm.symm.trans hm'
    exact .inr ⟨by simp, rfl, Nat.succ_pos _⟩
  | jump hcode' hm' =>
    rw [hcode'] at hcode
    cases hcode
    cases hm.symm.trans hm'
    exact .inr ⟨by simp, rfl, Nat.succ_pos _⟩

variable (h : Layout.build (statements source) = .ok l) (hst : l.statements[k]? = some st)
include h hst

theorem size_of_instruction (hi : IsInstruction st.text) : 0 < st.size := by
  obtain ⟨code, m, hcode, hm, hdata⟩ := hi
  obtain ⟨-, -, cells, hcells, hsize⟩ := statement_of_build h hst
  rcases length_of_lineCells hcells hcode hm with ⟨op, -, -, rfl, -⟩ | ⟨-, hlength, hpos⟩
  · exact absurd rfl (hdata op)
  · omega

theorem size_of_declaration {code : CodeLine} {op : DataOp} {n : Nat} {counted : List Char}
    (hcode : CodeLine.parse? st.text = some code) (hm : code.mnemonic? = some (.data op))
    (hrep : Repeats code.operand n counted) : st.size = 4 * n := by
  obtain ⟨-, -, cells, hcells, hsize⟩ := statement_of_build h hst
  rcases length_of_lineCells hcells hcode hm with ⟨_, n', _, -, hrep', hlength⟩ | ⟨hdata, -⟩
  · rw [hrep.unique hrep']
    omega
  · exact absurd rfl (hdata op)

end Label

/-- A jump to the address of a label leads to the first statement that takes room from the line of
the label on, and fails when there is none. That is the line of the label itself if it holds an
instruction or declares something, and a later one if it declares nothing. -/
theorem jumpTarget_label {source : String} {l : Layout}
    (h : Layout.build (statements source) = .ok l) (label : Label)
    (hlabel : label ∈ l.symbols.labels) (line : Int) :
    ∃ (k : Nat) (st : Statement), label.line = k ∧ l.statements[k]? = some st
      ∧ (∀ j, jumpTarget l.statements label.address line = .ok j
        ↔ IsLeast (occupiedFrom l.statements k) j)
      ∧ (∀ d, jumpTarget l.statements label.address line = .error d
        ↔ d = ⟨.invalidJumpTarget label.address, some line⟩ ∧ occupiedFrom l.statements k = ∅)
      ∧ (IsInstruction st.text → jumpTarget l.statements label.address line = .ok k)
      ∧ ∀ code op n counted, CodeLine.parse? st.text = some code →
        code.mnemonic? = some (.data op) → Literal.Repeats code.operand n counted →
          (n ≠ 0 → jumpTarget l.statements label.address line = .ok k)
          ∧ (n = 0 → ∀ j, jumpTarget l.statements label.address line = .ok j
            ↔ IsLeast (occupiedFrom l.statements (k + 1)) j) := by
  have hsizes := size_nonneg_of_build h
  obtain ⟨k, st, hst, hline, -, haddress⟩ := line_of_label h hlabel
  have hstart : label.address = extent (l.statements.take k) := by
    rw [← haddress, Layout.build_placed h k st hst]
  have hown : 0 < st.size → jumpTarget l.statements label.address line = .ok k := fun hpos =>
    (jumpTarget_ok_iff hsizes).2 ⟨st, hst, hpos, hstart.symm⟩
  refine ⟨k, st, hline, hst, fun j => ?_, fun d => ?_,
    fun hi => hown (size_of_instruction h hst hi),
    fun code op n counted hcode hm hrep => ⟨fun hn => ?_, fun hn j => ?_⟩⟩
  · rw [jumpTarget_ok_iff hsizes, hstart, starts_iff_isLeast hsizes]
  · rw [jumpTarget_error_iff hsizes, hstart, not_starts_iff_occupiedFrom hsizes]
  · have hsize := size_of_declaration h hst hcode hm hrep
    exact hown (by omega)
  · have hsize := size_of_declaration h hst hcode hm hrep
    have hnext : label.address = extent (l.statements.take (k + 1)) := by
      rw [extent_take_succ hst, hsize, hn, hstart]
      simp
    rw [jumpTarget_ok_iff hsizes, hnext, starts_iff_isLeast hsizes]

/-- Two labels that declare nothing and a blank line stand before an instruction, to which a jump to
the first label leads; where nothing takes room a jump to a label fails. -/
theorem jumpTarget_label_shared :
    (∃ l, Layout.build (statements "K DC 0*1\nZ DS 0*X\n\nB LR 0,0") = .ok l
        ∧ l.symbols.labels = [⟨"K", 0, 0⟩, ⟨"Z", 1, 0⟩, ⟨"B", 3, 0⟩]
        ∧ jumpTarget l.statements 0 7 = .ok 3)
      ∧ ∃ l, Layout.build (statements "E DS 0*X\n") = .ok l ∧ l.symbols.labels = [⟨"E", 0, 0⟩]
        ∧ jumpTarget l.statements 0 7 = .error ⟨.invalidJumpTarget 0, some 7⟩ := by
  have hfirst : (Layout.build (statements "K DC 0*1\nZ DS 0*X\n\nB LR 0,0")).map
      (fun l => (l.symbols.labels, l.statements))
      = .ok ([⟨"K", 0, 0⟩, ⟨"Z", 1, 0⟩, ⟨"B", 3, 0⟩],
        [⟨"K DC 0*1", 0, 0, 0⟩, ⟨"Z DS 0*X", 1, 0, 0⟩, ⟨"", 2, 0, 0⟩, ⟨"B LR 0,0", 3, 0, 2⟩]) := by
    decide +kernel
  have hsecond : (Layout.build (statements "E DS 0*X\n")).map
      (fun l => (l.symbols.labels, l.statements))
      = .ok ([⟨"E", 0, 0⟩], [⟨"E DS 0*X", 0, 0, 0⟩, ⟨"", 1, 0, 0⟩]) := by
    decide +kernel
  obtain ⟨l, hl, hparts⟩ := map_eq_ok.1 hfirst
  obtain ⟨hlabels, hstatements⟩ := Prod.mk.inj hparts
  obtain ⟨l', hl', hparts'⟩ := map_eq_ok.1 hsecond
  obtain ⟨hlabels', hstatements'⟩ := Prod.mk.inj hparts'
  refine ⟨⟨l, hl, hlabels, ?_⟩, l', hl', hlabels', ?_⟩
  · obtain ⟨k, st, hline, -, hok, -⟩ := jumpTarget_label hl ⟨"K", 0, 0⟩
      (by simp [hlabels]) 7
    obtain rfl : 0 = k := Int.ofNat.inj hline
    refine (hok 3).2 ?_
    rw [hstatements]
    refine ⟨⟨Nat.zero_le 3, _, rfl, by decide⟩, ?_⟩
    rintro (_ | _ | _ | j) ⟨-, s, hs, hne⟩
    · exact absurd (by cases hs; rfl) hne
    · exact absurd (by cases hs; rfl) hne
    · exact absurd (by cases hs; rfl) hne
    · omega
  · obtain ⟨k, st, hline, -, -, herror, -⟩ := jumpTarget_label hl' ⟨"E", 0, 0⟩
      (by simp [hlabels']) 7
    obtain rfl : 0 = k := Int.ofNat.inj hline
    refine (herror _).2 ⟨rfl, Set.eq_empty_iff_forall_notMem.2 ?_⟩
    rw [hstatements']
    rintro (_ | _ | j) ⟨-, s, hs, hne⟩
    · exact hne (by cases hs; rfl)
    · exact hne (by cases hs; rfl)
    · simp at hs

end WordMachine
