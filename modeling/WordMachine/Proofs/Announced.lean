import WordMachine.Proofs.Acceptance
import WordMachine.Proofs.Image
import WordMachine.Proofs.Position

/-!
# The numbers of a program can be written out

A statement is announced by its line and its address before it is executed. The lines of a text are
at most one more than its characters, and no line takes more room than four times the largest count
(`length_le_of_lineCells`), so in a text that can be counted at all both numbers are far too small
to be refused (`announces_of_length`). A step of an engine that runs such a text is a step of its
machine (`attempt_eq_step`).
-/

namespace WordMachine

open Text

theorem length_splitAtChar_le (sep : Char) :
    ∀ cs : List Char, (splitAtChar sep cs).length ≤ cs.length + 1
  | [] => by simp
  | c :: cs => by
    have ih := length_splitAtChar_le sep cs
    by_cases hc : c = sep
    · rw [hc, splitAtChar_cons_self]
      simp only [List.length_cons]
      omega
    · obtain ⟨p, ps, hs, hcs⟩ := splitAtChar_cons_of_ne hc cs
      rw [hs] at ih
      rw [hcs]
      simp only [List.length_cons] at ih ⊢
      omega

theorem length_lines_le (source : String) : (lines source).length ≤ source.length + 1 := by
  have := length_splitAtChar_le '\n' source.toList
  simpa [lines, String.length_toList] using this

section Line

variable {text : String} {cells : List Cell}

/-- A line that takes its place in memory names a known instruction, if it holds code at all. -/
theorem mnemonic_of_lineCells (h : LineCells text cells) {l : CodeLine}
    (hl : CodeLine.parse? text = some l) : ∃ m, l.mnemonic? = some m := by
  cases h with
  | blank ht =>
    rw [CodeLine.parse?, ht] at hl
    cases hl
  | constant hl' hm =>
    rw [hl'] at hl
    cases hl
    exact ⟨_, hm⟩
  | space hl' hm =>
    rw [hl'] at hl
    cases hl
    exact ⟨_, hm⟩
  | register hl' hm =>
    rw [hl'] at hl
    cases hl
    exact ⟨_, hm⟩
  | memory hl' hm =>
    rw [hl'] at hl
    cases hl
    exact ⟨_, hm⟩
  | jump hl' hm =>
    rw [hl'] at hl
    cases hl
    exact ⟨_, hm⟩

theorem length_le_of_lineCells (h : LineCells text cells) : cells.length ≤ 4 * indexLimit := by
  cases h with
  | blank => simp
  | constant _ _ hd =>
    cases hd with
    | constant _ hn _ _ =>
      simp only [List.length_flatten, List.map_replicate, Memory.length_ofWord,
        List.sum_replicate_nat]
      omega
  | space _ _ hd =>
    cases hd with
    | space _ hn =>
      have hmax : Memory.maxRoom < indexLimit := by decide
      simp only [Word.bytes, List.length_replicate] at hn ⊢
      omega
  | register => decide
  | memory => decide
  | jump => decide

end Line

section Source

variable {source : String} {l : Layout}

theorem getElem?_statements (source : String) (n : Nat) :
    (statements source)[n]? = ((lines source)[n]?).map fun text => { text, index := n } := by
  simp [statements, List.getElem?_zipIdx, Function.comp_def]

/-- A statement of a layout stands where its line stands in the text. -/
theorem statement_of_build (h : Layout.build (statements source) = .ok l) {n : Nat} {s : Statement}
    (hs : l.statements[n]? = some s) :
    (lines source)[n]? = some s.text ∧ s.index = n
      ∧ ∃ cells, LineCells s.text cells ∧ s.size = cells.length := by
  obtain ⟨htext, hindex⟩ := Layout.build_lines h
  have ht := congrArg (·[n]?) htext
  have hi := congrArg (·[n]?) hindex
  simp only [List.getElem?_map, hs, getElem?_statements] at ht hi
  rcases hn : (lines source)[n]? with _ | text <;> rw [hn] at ht hi
  · cases ht
  · simp only [Option.map_some, Option.some.injEq] at ht hi
    refine ⟨by rw [ht], hi, ?_⟩
    obtain ⟨rows, hrows, hstatements, -⟩ := Layout.build_rows h
    rw [hstatements, List.getElem?_map, Option.map_eq_some_iff] at hs
    obtain ⟨⟨s', cells⟩, hr, rfl⟩ := hs
    exact ⟨cells, hrows _ (List.mem_of_getElem? hr)⟩

theorem size_nonneg_of_build (h : Layout.build (statements source) = .ok l) :
    ∀ s ∈ l.statements, 0 ≤ s.size := by
  intro s hs
  obtain ⟨i, hi⟩ := List.getElem?_of_mem hs
  obtain ⟨-, -, cells, -, hsize⟩ := statement_of_build h hi
  omega

theorem length_of_build (h : Layout.build (statements source) = .ok l) :
    l.statements.length = (lines source).length := by
  have := congrArg List.length (Layout.build_lines h).1
  simpa [statements] using this

end Source

theorem extent_bounds {bound : Nat} : ∀ {program : List Statement},
    (∀ s ∈ program, 0 ≤ s.size ∧ s.size ≤ bound) →
      0 ≤ extent program ∧ extent program ≤ (program.length * bound : Nat)
  | [], _ => by simp
  | s :: program, h => by
    have ih := extent_bounds fun s' hs' => h s' (List.mem_cons_of_mem _ hs')
    have hs := h s List.mem_cons_self
    rw [extent_cons, List.length_cons, Nat.succ_mul]
    omega

/-- More than the lines of a countable text and the room that they take together. -/
def numberBound : Nat := indexLimit * (4 * indexLimit)

theorem isWritable_of_natAbs_le {i : Int} (h : i.natAbs ≤ numberBound) :
    Numeral.isWritable i = true := by
  have hlimit : numberBound < Numeral.writeLimit := by decide +kernel
  exact decide_eq_true (h.trans_lt hlimit)

namespace Machine

variable {source : String} {l : Layout} {m : Machine}

theorem announces_of_length (h : Layout.build (statements source) = .ok l)
    (hlen : source.length < indexLimit) (hpos : Positioned l m) {s : Statement}
    (hs : m.current? = some s) : m.announces s = true := by
  obtain ⟨n, hn, hle, ha⟩ := hpos.place
  rw [current?_of_line hn, hpos.program] at hs
  have hlt := (List.getElem?_eq_some_iff.1 hs).1
  have hcount : l.statements.length ≤ indexLimit := by
    have := length_lines_le source
    rw [length_of_build h]
    omega
  have hline : Numeral.isWritable s.line = true := by
    have hsmall : indexLimit ≤ numberBound := by decide +kernel
    have hi := (statement_of_build h hs).2.1
    unfold Statement.line
    exact isWritable_of_natAbs_le (by omega)
  have haddress : Numeral.isWritable m.address = true := by
    have hsizes : ∀ t ∈ l.statements.take n, 0 ≤ t.size ∧ t.size ≤ (4 * indexLimit : Nat) := by
      intro t ht
      obtain ⟨k, hk⟩ := List.getElem?_of_mem (List.mem_of_mem_take ht)
      obtain ⟨-, -, cells, hcells, hsize⟩ := statement_of_build h hk
      have := length_le_of_lineCells hcells
      omega
    obtain ⟨h₀, hmax⟩ := extent_bounds hsizes
    have htake : (l.statements.take n).length * (4 * indexLimit) ≤ numberBound :=
      Nat.mul_le_mul_right _ (by simp only [List.length_take]; omega)
    rw [ha]
    exact isWritable_of_natAbs_le (by omega)
  unfold announces
  split
  · rfl
  · simp [hline, haddress]

theorem attempt_eq_step (h : Layout.build (statements source) = .ok l)
    (hlen : source.length < indexLimit) (hpos : Positioned l m) : m.attempt = m.step := by
  have hann : m.canAnnounce = true := by
    unfold canAnnounce
    rcases hc : m.current? with _ | s
    · simp
    · simp [announces_of_length h hlen hpos hc]
  unfold attempt
  rw [if_pos hann]

end Machine

namespace Engine

variable {source : String} {l : Layout} {e : Engine} {m : Machine} {f : Failure}

theorem after_step_of_ok (h : Layout.build (statements source) = .ok l)
    (hlen : source.length < indexLimit) (hlaid : e.laidOut = true)
    (hpos : Machine.Positioned l e.machine) (hs : e.machine.step = .ok m) :
    e.after .step = { e with machine := m } := by
  rw [after, step_of_attempt_ok hlaid (by rw [Machine.attempt_eq_step h hlen hpos, hs])]

theorem after_step_of_error (h : Layout.build (statements source) = .ok l)
    (hlen : source.length < indexLimit) (hlaid : e.laidOut = true)
    (hpos : Machine.Positioned l e.machine) (hs : e.machine.step = .error f) :
    e.after .step = { e with machine := e.machine.tick } := by
  rw [after, step_of_attempt_error hlaid (by rw [Machine.attempt_eq_step h hlen hpos, hs])]

end Engine

end WordMachine
