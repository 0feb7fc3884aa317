import Mathlib.Algebra.Order.Floor.Div
import WordMachine.Proofs.Hexadecimal
import WordMachine.Proofs.Operand
import WordMachine.Proofs.Overlay
import WordMachine.Proofs.Tokens
import WordMachine.View

/-!
# What a dump shows

A row of a dump has fixed columns: after the address and two blanks every cell takes two characters
and a blank, and the tags come two blanks after the column of values, which is as wide in a short
row as in a full one. So each cell is found in its row by its number (`shownIn_dumpRow`). Rows hold
no line feed and come back from the text (`rowsOf_dump`), and where cells kept for instructions hold
nothing, the cells come back from what is shown of them (`readDump_dump`).
-/

namespace WordMachine

open Text

/-! ## Rows of a text -/

namespace Text

/-- The rows in a text; an empty text has none. -/
def rowsOf (text : String) : List String := if text = "" then [] else lines text

theorem lines_rows {ls : List String} (hne : ls ≠ []) (h : ∀ l ∈ ls, '\n' ∉ l.toList) :
    lines (rows ls) = ls := by
  have hsplit : splitAtChar '\n' (['\n'].intercalate (ls.map String.toList))
      = ls.map String.toList :=
    splitAtChar_intercalate (by simpa using hne) (by simpa using h)
  rw [lines, rows, String.toList_intercalate]
  show (splitAtChar '\n' (['\n'].intercalate _)).map String.ofList = _
  rw [hsplit]
  simp [Function.comp_def]

theorem rowsOf_rows {ls : List String} (h : ∀ l ∈ ls, '\n' ∉ l.toList) (hne : "" ∉ ls) :
    rowsOf (rows ls) = ls := by
  by_cases hls : ls = []
  · subst hls
    rfl
  · have hlines := lines_rows hls h
    rw [rowsOf, if_neg, hlines]
    -- the only line of an empty text is empty
    intro hempty
    rw [hempty] at hlines
    exact hne (hlines ▸ List.mem_singleton_self "")

theorem newline_notMem_alignLeft {text : String} (h : '\n' ∉ text.toList) (width : Nat) :
    '\n' ∉ (alignLeft width text).toList := by
  simpa [alignLeft] using h

theorem newline_notMem_alignRight {text : String} (h : '\n' ∉ text.toList) (width : Nat) :
    '\n' ∉ (alignRight width text).toList := by
  simpa [alignRight] using h

end Text

/-! ## Columns -/

section Columns

variable {α : Type} {sep : α}

theorem length_intercalate_pairs : ∀ {ps : List (List α)}, (∀ p ∈ ps, p.length = 2) →
    ([sep].intercalate ps).length = 3 * ps.length - 1
  | [], _ => rfl
  | [p], h => by simp [h p List.mem_cons_self]
  | p :: q :: ps, h => by
    have ih : ([sep].intercalate (q :: ps)).length = 3 * (q :: ps).length - 1 :=
      length_intercalate_pairs fun r hr => h r (List.mem_cons_of_mem p hr)
    rw [List.intercalate_cons_cons, List.length_append, ih, List.length_append,
      h p List.mem_cons_self]
    simp only [List.length_cons, List.length_nil]
    omega

/-- Pairs joined by one character start at every third. -/
theorem take_drop_intercalate_pairs : ∀ {ps : List (List α)}, (∀ p ∈ ps, p.length = 2) →
    ∀ {j : Nat} {p : List α}, ps[j]? = some p → ∀ rest : List α,
      (([sep].intercalate ps ++ rest).drop (3 * j)).take 2 = p
  | [], _, j, p, hp, rest => by simp at hp
  | [q], h, j, p, hp, rest => by
    obtain ⟨rfl, rfl⟩ : j = 0 ∧ q = p := by
      rcases j with _ | j <;> simp_all
    rw [List.intercalate_singleton]
    exact List.take_left' (h q List.mem_cons_self)
  | q :: r :: ps, h, j, p, hp, rest => by
    have hq := h q List.mem_cons_self
    rw [List.intercalate_cons_cons, List.append_assoc, List.append_assoc]
    rcases j with _ | j
    · cases hp
      exact List.take_left' hq
    · have ih : (([sep].intercalate (r :: ps) ++ rest).drop (3 * j)).take 2 = p :=
        take_drop_intercalate_pairs (fun p hp => h p (List.mem_cons_of_mem q hp)) hp rest
      have hskip : 3 * (j + 1) = (q ++ [sep]).length + 3 * j := by
        rw [List.length_append, hq, List.length_singleton]
        omega
      -- a pair goes with the character after it
      rw [← List.append_assoc, hskip, List.drop_length_add_append]
      exact ih

end Columns

/-- No cell kept for an instruction holds a value. -/
def Memory.HoldsNoCode (m : Memory) : Prop := ∀ c ∈ m.cells.toList, c.kind = .code → c.value = 0

instance (m : Memory) : Decidable m.HoldsNoCode :=
  inferInstanceAs (Decidable (∀ c ∈ m.cells.toList, c.kind = .code → c.value = 0))

namespace View

/-! ## A row -/

/-- What a row shows of a cell: two characters in its column, and a tag. -/
def shown (c : Cell) : List Char × Char := ((cell c).toList, tag c)

/-- What stands in a row before the first blank. -/
def lead (row : String) : List Char := row.toList.takeWhile (· ≠ ' ')

/-- What comes in a row after its lead and two blanks. -/
def body (row : String) : List Char := row.toList.drop ((lead row).length + 2)

/-- The two characters in the column of the cell of the given number. -/
def cellIn (row : String) (j : Nat) : List Char := ((body row).drop (3 * j)).take 2

/-- The tags of a row, after the column of values and two blanks. -/
def tagsIn (width : Nat) (row : String) : List Char := (body row).drop (columnWidth width + 2)

/-- What a row shows of its cells, one after the other. -/
def shownIn (width : Nat) (row : String) : List (List Char × Char) :=
  (tagsIn width row).mapIdx fun j t => (cellIn row j, t)

section Row

variable {width start : Nat} {cells : List Cell}

theorem length_cell (c : Cell) : (cell c).toList.length = 2 := by
  unfold cell
  split
  · rw [toList_hexColumn, zeroFill_byte]
    rfl
  · rfl

/-- The column of values of a row. -/
def valueColumn (width : Nat) (cells : List Cell) : List Char :=
  (alignLeft (columnWidth width) (" ".intercalate (cells.map cell))).toList

theorem toList_values (cells : List Cell) :
    (" ".intercalate (cells.map cell)).toList
      = [' '].intercalate (cells.map fun c => (cell c).toList) := by
  rw [String.toList_intercalate, List.map_map]
  rfl

theorem length_valueColumn (h : cells.length ≤ width) :
    (valueColumn width cells).length = columnWidth width := by
  have hlen : (" ".intercalate (cells.map cell)).length = 3 * cells.length - 1 := by
    rw [← String.length_toList, toList_values, length_intercalate_pairs (by simp [length_cell]),
      List.length_map]
  rw [valueColumn, alignLeft, String.toList_append, List.length_append, String.length_toList, hlen,
    String.toList_ofList, List.length_replicate, columnWidth]
  omega

theorem toList_dumpRow (width start : Nat) (cells : List Cell) :
    (dumpRow width start cells).toList
      = zeroFill 4 (upperHex start)
        ++ ' ' :: ' ' :: (valueColumn width cells ++ ' ' :: ' ' :: cells.map tag) := by
  simp only [dumpRow, String.toList_append, toList_hexColumn, String.toList_ofList, valueColumn,
    List.append_assoc]
  rfl

theorem lead_dumpRow : lead (dumpRow width start cells) = zeroFill 4 (upperHex start) := by
  have hdigits : ∀ c ∈ zeroFill 4 (upperHex start), decide (c ≠ ' ') = true := by
    intro c hc
    have halnum := isAlphanum_of_mem_zeroFill hc
    rw [decide_eq_true_eq]
    rintro rfl
    revert halnum
    decide
  rw [lead, toList_dumpRow, List.takeWhile_append_of_pos hdigits]
  simp

theorem body_dumpRow :
    body (dumpRow width start cells) = valueColumn width cells ++ ' ' :: ' ' :: cells.map tag := by
  rw [body, lead_dumpRow, toList_dumpRow, List.drop_length_add_append]
  rfl

theorem cellIn_dumpRow {j : Nat} {c : Cell} (h : cells[j]? = some c) :
    cellIn (dumpRow width start cells) j = (cell c).toList := by
  rw [cellIn, body_dumpRow, valueColumn, alignLeft, String.toList_append, toList_values,
    List.append_assoc]
  exact take_drop_intercalate_pairs (by simp [length_cell]) (by simp [h]) _

theorem tagsIn_dumpRow (h : cells.length ≤ width) :
    tagsIn width (dumpRow width start cells) = cells.map tag := by
  rw [tagsIn, body_dumpRow, ← length_valueColumn h, List.drop_length_add_append]
  rfl

theorem shownIn_dumpRow (h : cells.length ≤ width) :
    shownIn width (dumpRow width start cells) = cells.map shown := by
  apply List.ext_getElem?
  intro j
  rw [shownIn, tagsIn_dumpRow h, List.getElem?_mapIdx, List.getElem?_map, List.getElem?_map]
  rcases hc : cells[j]? with _ | c
  · rfl
  · simp [cellIn_dumpRow hc, shown]

theorem newline_notMem_cell (c : Cell) : '\n' ∉ (cell c).toList := by
  unfold cell
  split
  · rw [toList_hexColumn]
    exact newline_notMem_zeroFill _ _
  · decide

theorem newline_ne_tag (c : Cell) : '\n' ≠ tag c := by
  unfold tag
  split <;> decide

theorem newline_notMem_valueColumn : '\n' ∉ valueColumn width cells := by
  apply newline_notMem_alignLeft
  intro h
  rw [toList_values] at h
  rcases mem_of_mem_intercalate h with h | ⟨s, hs, h⟩
  · simp at h
  · obtain ⟨c, -, rfl⟩ := List.mem_map.1 hs
    exact newline_notMem_cell c h

theorem newline_notMem_dumpRow : '\n' ∉ (dumpRow width start cells).toList := by
  simp [toList_dumpRow, newline_notMem_zeroFill, newline_notMem_valueColumn, newline_ne_tag,
    eq_comm]

theorem dumpRow_ne_empty : dumpRow width start cells ≠ "" := by
  intro h
  have hlist := toList_dumpRow width start cells
  rw [h] at hlist
  simp at hlist

end Row

/-! ## Cells read back -/

/-- The cell of which this is shown, a cell kept for an instruction taken to hold nothing. -/
def readCell (s : List Char × Char) : Cell :=
  if s.2 = 'D' then ⟨UInt8.ofNat (ofHex s.1), .data⟩ else .room

/-- The cells that a dump shows. -/
def readDump (width : Nat) (text : String) : List Cell :=
  (rowsOf text).flatMap fun row => (shownIn width row).map readCell

theorem readCell_shown {c : Cell} (h : c.kind = .code → c.value = 0) : readCell (shown c) = c := by
  obtain ⟨value, kind⟩ := c
  cases kind with
  | data =>
    have hcell : cell ⟨value, .data⟩ = hexColumn 2 value.toNat := rfl
    rw [readCell, if_pos (by rfl), shown, hcell, toList_hexColumn, ofHex_zeroFill,
      UInt8.ofNat_toNat]
  | code =>
    obtain rfl : value = 0 := h rfl
    rfl

section Dump

variable {m : Memory} {width : Nat} {text : String}

/-- The cells of the row of the given number: as many as the width, or those up to the end. -/
def rowCells (width : Nat) (m : Memory) (k : Nat) : List Cell :=
  m.cells.toList.extract (k * width) (min ((k + 1) * width) m.size)

theorem length_rowCells_le (width : Nat) (m : Memory) (k : Nat) :
    (rowCells width m k).length ≤ width := by
  rw [rowCells, List.extract_eq_take_drop, List.length_take, Nat.add_mul]
  omega

theorem mem_of_mem_rowCells {k : Nat} {c : Cell} (h : c ∈ rowCells width m k) :
    c ∈ m.cells.toList := by
  rw [rowCells, List.extract_eq_take_drop] at h
  exact List.mem_of_mem_drop (List.mem_of_mem_take h)

theorem refuseColumn?_of_lt {n : Nat} (h : n < indexLimit) : refuseColumn? n = none := by
  have hwrite : indexLimit ≤ Numeral.writeLimit := by decide +kernel
  rw [refuseColumn?, if_neg, if_neg (by omega)]
  simp only [Numeral.isWritable, Int.natAbs_natCast, Bool.not_eq_true', decide_eq_false_iff_not]
  omega

theorem dump_of_room (hw : 1 ≤ width) (hroom : m.size = 0 ∨ columnWidth width < indexLimit) :
    dump m width = .ok (rows (dumpRows width m)) := by
  have hnone : (if m.size = 0 then none else refuseColumn? (columnWidth width)) = none := by
    rcases hroom with hm | hroom
    · rw [if_pos hm]
    · rw [refuseColumn?_of_lt hroom, ite_self]
  rw [dump, if_neg (by omega), if_neg (by omega), Int.toNat_natCast, hnone]

theorem eq_of_dump (hw : 1 ≤ width) (h : dump m width = .ok text) :
    text = rows (dumpRows width m) := by
  rw [dump, if_neg (by omega), if_neg (by omega), Int.toNat_natCast] at h
  split at h
  · cases h
  · exact (Except.ok.inj h).symm

theorem dumpRows_eq (width : Nat) (m : Memory) :
    dumpRows width m = (List.range (m.size ⌈/⌉ width)).map fun k =>
      dumpRow width (k * width) (rowCells width m k) := by
  rw [dumpRows, pieces, List.map_map, Nat.ceilDiv_eq_add_pred_div]
  apply List.map_congr_left
  intro k _
  have hcells : (m.cells.extract (k * width) (k * width + width)).toList = rowCells width m k := by
    rw [Array.toList_extract, rowCells, List.extract_eq_take_drop, List.extract_eq_take_drop,
      List.take_eq_take_iff, List.length_drop, Array.length_toList, Nat.add_mul, Memory.size]
    omega
  show dumpRow _ _ _ = _
  rw [hcells]

theorem eq_of_getElem?_dumpRows {k : Nat} {row : String} (h : (dumpRows width m)[k]? = some row) :
    row = dumpRow width (k * width) (rowCells width m k) := by
  rw [dumpRows_eq, List.getElem?_map, Option.map_eq_some_iff] at h
  obtain ⟨i, hi, rfl⟩ := h
  obtain ⟨_, hki⟩ := List.getElem?_eq_some_iff.1 hi
  rw [List.getElem_range] at hki
  rw [hki]

theorem rowsOf_dump (hw : 1 ≤ width) (h : dump m width = .ok text) :
    rowsOf text = dumpRows width m := by
  rw [eq_of_dump hw h, rowsOf_rows]
  · intro l hl
    obtain ⟨p, -, rfl⟩ := List.mem_map.1 hl
    exact newline_notMem_dumpRow
  · intro hl
    obtain ⟨p, -, hp⟩ := List.mem_map.1 hl
    exact dumpRow_ne_empty hp

/-- The first rows together hold the first cells. -/
theorem flatMap_rowCells (width : Nat) (m : Memory) (n : Nat) :
    (List.range n).flatMap (rowCells width m) = m.cells.toList.take (n * width) := by
  induction n with
  | zero => simp
  | succ n ih =>
    rw [List.range_succ, List.flatMap_append, ih, List.flatMap_singleton, Nat.add_mul, Nat.one_mul,
      List.take_add, rowCells, List.extract_eq_take_drop]
    congr 1
    rw [List.take_eq_take_iff, List.length_drop, Array.length_toList, Memory.size, Nat.add_mul]
    omega

theorem size_le_ceilDiv_mul (hw : 1 ≤ width) : m.size ≤ m.size ⌈/⌉ width * width := by
  have := le_smul_ceilDiv (a := width) (b := m.size) hw
  rwa [smul_eq_mul, Nat.mul_comm] at this

theorem readDump_dump (hw : 1 ≤ width) (hm : m.HoldsNoCode) (h : dump m width = .ok text) :
    readDump width text = m.cells.toList := by
  have hrow : ∀ k, (shownIn width (dumpRow width (k * width) (rowCells width m k))).map readCell
      = rowCells width m k := by
    intro k
    rw [shownIn_dumpRow (length_rowCells_le width m k), List.map_map]
    exact (List.map_congr_left fun c hc => readCell_shown (hm c (mem_of_mem_rowCells hc))).trans
      (List.map_id _)
  rw [readDump, rowsOf_dump hw h, dumpRows_eq, List.flatMap_map]
  simp only [hrow]
  rw [flatMap_rowCells, List.take_of_length_le (size_le_ceilDiv_mul hw)]

end Dump

/-- A dump has as many rows as the cells fill, the last one perhaps in part. Each starts with the
address of its first cell and shows its cells in order. Where cells kept for instructions hold
nothing, the text tells the values and the kinds of all cells. -/
theorem dump_loses_nothing (m : Memory) (width : Nat) (hw : 1 ≤ width)
    (hroom : m.size = 0 ∨ columnWidth width < indexLimit) :
    ∃ text, dump m width = .ok text
      ∧ (rowsOf text).length = m.size ⌈/⌉ width
      ∧ (∀ k row, (rowsOf text)[k]? = some row →
          lead row = (hexColumn 4 (k * width)).toList ∧ ofHex (lead row) = k * width
          ∧ shownIn width row = (rowCells width m k).map shown)
      ∧ ∀ m' : Memory, m.HoldsNoCode → m'.HoldsNoCode → dump m' width = .ok text →
          m'.values = m.values ∧ m'.kinds = m.kinds := by
  have hdump := dump_of_room hw hroom
  have hrows := rowsOf_dump hw hdump
  refine ⟨_, hdump, ?_, ?_, ?_⟩
  · rw [hrows, dumpRows_eq, List.length_map, List.length_range]
  · intro k row hrow
    rw [hrows] at hrow
    obtain rfl := eq_of_getElem?_dumpRows hrow
    rw [lead_dumpRow, toList_hexColumn, ofHex_zeroFill]
    exact ⟨rfl, rfl, shownIn_dumpRow (length_rowCells_le width m k)⟩
  · intro m' hm hm' hdump'
    have hcells : m'.cells.toList = m.cells.toList := by
      rw [← readDump_dump hw hm' hdump', readDump_dump hw hm hdump]
    simp only [Memory.values, Memory.kinds, hcells, and_self]

theorem dump_loses_nothing_short_row :
    ∃ text row, dump ((({} : Memory).appendWords [-2]).append [.room, .room]) (4 : Nat) = .ok text
      ∧ (rowsOf text).length = 2 ∧ (rowsOf text)[1]? = some row ∧ lead row = ['0', '0', '0', '4']
      ∧ shownIn 4 row = [(['.', '.'], 'I'), (['.', '.'], 'I')]
      ∧ ∀ m' : Memory, m'.HoldsNoCode → dump m' (4 : Nat) = .ok text →
          m'.values = [0xFF, 0xFF, 0xFF, 0xFE, 0, 0] := by
  obtain ⟨text, hdump, hlen, hrows, hcells⟩ :=
    dump_loses_nothing ((({} : Memory).appendWords [-2]).append [.room, .room]) 4 (by decide)
      (.inr (by decide))
  have hlen : (rowsOf text).length = 2 := hlen
  have hrow : (rowsOf text)[1]? = some ((rowsOf text)[1]) := List.getElem?_eq_getElem _
  obtain ⟨hlead, -, hshown⟩ := hrows 1 _ hrow
  exact ⟨text, _, hdump, hlen, hrow, hlead, hshown,
    fun m' hm' h => (hcells m' (by decide) hm' h).1⟩

/-- A row can be so wide that its column is refused. -/
theorem dump_too_wide :
    (({} : Memory).appendWords [1]).HoldsNoCode
      ∧ dump (({} : Memory).appendWords [1]) (0x4000000000000000 : Nat) = .error .widthTooLarge
      ∧ ¬ ∃ text, dump (({} : Memory).appendWords [1]) (0x4000000000000000 : Nat) = .ok text
        ∧ (rowsOf text).length
          = (({} : Memory).appendWords [1]).size ⌈/⌉ (0x4000000000000000 : Nat) := by
  have hdump : dump (({} : Memory).appendWords [1]) (0x4000000000000000 : Nat)
      = .error .widthTooLarge := by
    decide +kernel
  refine ⟨by decide, hdump, ?_⟩
  rintro ⟨text, h, -⟩
  rw [hdump] at h
  cases h

end View

end WordMachine
