import WordMachine.Proofs.Constant
import WordMachine.Proofs.Dump

/-!
# Registers and memory side by side

A word has eight places in base sixteen, two for each of its bytes (`zeroFill_unsigned`). So the row
of a register ends with what a dump shows of the four cells of the same word in memory, wherever the
rows of the dump end (`shownAt_writeWord`), and its number is the one read from there.
-/

namespace WordMachine.View

open Text

/-! ## Words -/

theorem zeroFill_unsigned (v : Int) :
    zeroFill 8 (upperHex (Word.unsigned v))
      = (Word.encode v).flatMap fun b => zeroFill 2 (upperHex b.toNat) := by
  have hne : Word.encode v ≠ [] := List.cons_ne_nil _ _
  rw [← Word.bigEndian_encode, ← zeroFill_bigEndian hne, Word.length_encode]

theorem length_zeroFill_unsigned (v : Int) :
    (zeroFill 8 (upperHex (Word.unsigned v))).length = 8 := by
  simp [zeroFill_unsigned, zeroFill_byte, Word.encode]

/-! ## Registers -/

/-- The word at the end of the row of a register, in base sixteen. -/
def wordIn (row : String) : List Char := row.toList.drop (row.length - 8)

/-- The number in the row of a register: the column of eleven characters before the mark of the
base and the word, less the blanks in front. -/
def numberIn (row : String) : List Char :=
  ((row.toList.drop (row.length - 23)).take 11).dropWhile (· = ' ')

section Register

variable {values : List Int} {i : Nat} {v : Int}

/-- What stands in the row of a register before its number. -/
def registerLead (i : Nat) : List Char := ("R" ++ alignLeft 2 (toString i) ++ " = ").toList

theorem toList_register (i : Nat) (v : Int) :
    (register i v).toList = registerLead i ++ (alignRight 11 (toString v)).toList
      ++ [' ', ' ', '0', 'x'] ++ zeroFill 8 (upperHex (Word.unsigned v)) := by
  simp only [register, registerLead, String.toList_append, toList_hexColumn]
  rfl

theorem notMem_toString {c : Char} (hdigit : c.isDigit = false) (hminus : c ≠ '-') (v : Int) :
    c ∉ (toString v).toList := by
  intro h
  rw [Literal.toList_toString_int, List.mem_append, Literal.signOf] at h
  rcases h with h | h
  · split at h
    · exact hminus (List.mem_singleton.1 h)
    · simp at h
  · rw [isDigit_of_mem_toString h] at hdigit
    cases hdigit

theorem length_toString_of_fits (h : Word.Fits v) : (toString v).length ≤ 11 := by
  have hsign : (Literal.signOf v).length ≤ 1 := by
    unfold Literal.signOf
    split <;> simp
  have hdigits : (toString v.natAbs).length ≤ 10 := by
    apply length_toString_le (by decide)
    simp only [Word.Fits, Word.least, Word.greatest] at h
    omega
  rw [← String.length_toList, Literal.toList_toString_int, List.length_append, String.length_toList]
  omega

theorem wordIn_register (i : Nat) (v : Int) :
    wordIn (register i v) = zeroFill 8 (upperHex (Word.unsigned v)) := by
  rw [wordIn, ← String.length_toList, toList_register]
  apply List.drop_left'
  simp only [List.length_append, length_zeroFill_unsigned, Nat.add_sub_cancel]

theorem numberIn_register (hv : Word.Fits v) (i : Nat) :
    numberIn (register i v) = (toString v).toList := by
  have hcolumn : (alignRight 11 (toString v)).toList.length = 11 := by
    have := length_toString_of_fits hv
    simp only [alignRight, String.toList_append, String.toList_ofList, List.length_append,
      List.length_replicate, String.length_toList]
    omega
  have hplace : (register i v).length - 23 = (registerLead i).length := by
    rw [← String.length_toList, toList_register, List.length_append, List.length_append,
      List.length_append, hcolumn, length_zeroFill_unsigned]
    rfl
  have hblanks : ∀ c ∈ List.replicate (11 - (toString v).length) ' ', decide (c = ' ') = true := by
    intro c hc
    rw [(List.mem_replicate.1 hc).2]
    rfl
  have hnumber : (toString v).toList.dropWhile (· = ' ') = (toString v).toList := by
    rw [List.dropWhile_eq_self_iff]
    intro hne hblank
    rw [decide_eq_true_eq] at hblank
    exact notMem_toString (by decide) (by decide) v (hblank ▸ List.getElem_mem hne)
  rw [numberIn, hplace, toList_register, List.append_assoc, List.append_assoc, List.drop_left,
    List.take_left' hcolumn, alignRight, String.toList_append, String.toList_ofList,
    List.dropWhile_append_of_pos hblanks, hnumber]

theorem newline_notMem_register : '\n' ∉ (register i v).toList := by
  have hindex : '\n' ∉ (toString i).toList := by
    intro h
    have := isDigit_of_mem_toString h
    revert this
    decide
  have hlead : '\n' ∉ registerLead i := by
    simp only [registerLead, String.toList_append, List.mem_append, not_or]
    exact ⟨⟨by decide, newline_notMem_alignLeft hindex 2⟩, by decide⟩
  have hcolumn : '\n' ∉ (alignRight 11 (toString v)).toList :=
    newline_notMem_alignRight (notMem_toString (by decide) (by decide) v) 11
  simp only [toList_register, List.mem_append, not_or]
  exact ⟨⟨⟨hlead, hcolumn⟩, by decide⟩, newline_notMem_zeroFill 8 _⟩

theorem getElem?_rowsOf_registers (h : values[i]? = some v) :
    (rowsOf (registers values))[i]? = some (register i v) := by
  rw [registers, rowsOf_rows, List.getElem?_map, List.getElem?_zipIdx, h, Nat.zero_add]
  · rfl
  · intro l hl
    obtain ⟨p, -, rfl⟩ := List.mem_map.1 hl
    exact newline_notMem_register
  · intro hl
    obtain ⟨p, -, hp⟩ := List.mem_map.1 hl
    have := congrArg String.toList hp
    simp [toList_register] at this

end Register

/-! ## Memory -/

/-- The two characters that a dump shows for an address. -/
def shownAt (width : Nat) (text : String) (address : Nat) : List Char :=
  ((rowsOf text)[address / width]?).elim [] fun row => cellIn row (address % width)

section Memory

variable {m m' : Memory} {width : Nat} {text : String} {a v : Int} {line : Option Int}

theorem getElem?_rowCells {k j : Nat} (hj : j < width) :
    (rowCells width m k)[j]? = m.cells.toList[k * width + j]? := by
  rw [rowCells, List.extract_eq_take_drop, List.getElem?_take, List.getElem?_drop]
  split_ifs with h
  · rfl
  · rw [List.getElem?_eq_none]
    rw [Array.length_toList, ← Memory.size]
    rw [Nat.add_mul] at h
    omega

/-- A dump shows each cell in the row that its address lies in. -/
theorem shownAt_dump (hw : 1 ≤ width) (hdump : dump m width = .ok text) {address : Nat} {c : Cell}
    (hc : m.cells.toList[address]? = some c) : shownAt width text address = (cell c).toList := by
  have hlt : address < m.size := by
    obtain ⟨h, -⟩ := List.getElem?_eq_some_iff.1 hc
    rwa [Array.length_toList] at h
  have hrow : address / width < (dumpRows width m).length := by
    rw [dumpRows_eq, List.length_map, List.length_range, Nat.div_lt_iff_lt_mul hw]
    exact hlt.trans_le (size_le_ceilDiv_mul hw)
  have hcell : (rowCells width m (address / width))[address % width]? = some c := by
    rw [getElem?_rowCells (Nat.mod_lt _ hw), Nat.div_add_mod', hc]
  have hget := List.getElem?_eq_getElem hrow
  rw [shownAt, rowsOf_dump hw hdump, hget, eq_of_getElem?_dumpRows hget]
  exact cellIn_dumpRow hcell

/-- A dump shows the bytes of a word where the word has been written. -/
theorem shownAt_writeWord (h : m.writeWord a v line = .ok m') (hw : 1 ≤ width)
    (hdump : dump m' width = .ok text) {j : Nat} {b : UInt8} (hb : (Word.encode v)[j]? = some b) :
    shownAt width text (a.toNat + j) = zeroFill 2 (upperHex b.toNat) := by
  have hcell : m'.cells.toList[a.toNat + j]? = some ⟨b, .data⟩ := by
    obtain ⟨hsize, hcells⟩ := Memory.cells_of_writeWord h
    obtain ⟨hj, -⟩ := List.getElem?_eq_some_iff.1 hb
    rw [Word.length_encode] at hj
    rw [hcells, getElem?_overlay_inside (by simpa [Memory.size] using hsize) (by omega)
      (by simpa using hj), Nat.add_sub_cancel_left, Cell.ofWord, List.getElem?_map, hb]
    rfl
  rw [shownAt_dump hw hdump hcell]
  exact toList_hexColumn 2 b.toNat

end Memory

/-- The row of a register ends with what a dump shows for the four cells where its value has been
written, two digits each, and its number is the one read from there. -/
theorem views_agree {values : List Int} {i : Nat} {v : Int} (hi : values[i]? = some v)
    (hv : Word.Fits v) {m m' : Memory} {a : Int} {line : Option Int}
    (h : m.writeWord a v line = .ok m') {width : Nat} (hw : 1 ≤ width)
    (hroom : columnWidth width < indexLimit) :
    ∃ row text x, (rowsOf (registers values))[i]? = some row ∧ dump m' width = .ok text
      ∧ (∀ j < 4, (shownAt width text (a.toNat + j)).length = 2)
      ∧ wordIn row = (List.range 4).flatMap (fun j => shownAt width text (a.toNat + j))
      ∧ (∀ line', m'.readWord a line' = .ok x) ∧ numberIn row = (toString x).toList := by
  have hdump : dump m' width = .ok _ := dump_of_room hw (.inr hroom)
  have hshown : ∀ j (hj : j < 4), shownAt width _ (a.toNat + j)
      = zeroFill 2 (upperHex ((Word.encode v)[j]).toNat) := fun j hj =>
    shownAt_writeWord h hw hdump (List.getElem?_eq_getElem _)
  refine ⟨_, _, v, getElem?_rowsOf_registers hi, hdump, ?_, ?_, ?_, numberIn_register hv i⟩
  · intro j hj
    rw [hshown j hj, zeroFill_byte]
    rfl
  · rw [wordIn_register, zeroFill_unsigned]
    show _ = List.flatMap _ [0, 1, 2, 3]
    simp only [List.flatMap_cons, List.flatMap_nil]
    rw [hshown 0 (by decide), hshown 1 (by decide), hshown 2 (by decide), hshown 3 (by decide)]
    rfl
  · intro line'
    rw [Memory.readWord_writeWord_self h, Word.wrap_of_fits hv]

theorem views_agree_across_rows :
    ∃ m' row text x, (({} : Memory).appendWords [0, 0]).writeWord 1 (-2147483648) none = .ok m'
      ∧ (rowsOf (registers [7, -2147483648]))[1]? = some row ∧ dump m' (3 : Nat) = .ok text
      ∧ wordIn row = (List.range 4).flatMap (fun j => shownAt 3 text (1 + j))
      ∧ m'.readWord 1 none = .ok x ∧ numberIn row = (toString x).toList := by
  have hcovers : (({} : Memory).appendWords [0, 0]).Covers 1 := by decide
  obtain ⟨m', h⟩ := Memory.writeWord_of_covers hcovers (-2147483648) none
  have hi : [7, -2147483648][1]? = some (-2147483648 : Int) := rfl
  obtain ⟨row, text, x, hrow, hdump, -, hword, hread, hnumber⟩ :=
    views_agree hi (by decide) h (show 1 ≤ 3 by decide) (by decide)
  exact ⟨m', row, text, x, h, hrow, hdump, hword, hread none, hnumber⟩

/-- A word can be in memory while a dump of some width shows nothing. -/
theorem word_not_shown :
    Word.Fits (-2)
      ∧ (({} : Memory).appendWords [0]).writeWord 0 (-2) none = .ok (({} : Memory).appendWords [-2])
      ∧ dump (({} : Memory).appendWords [-2]) (0x4000000000000000 : Nat) = .error .widthTooLarge
      ∧ ¬ ∃ text, dump (({} : Memory).appendWords [-2]) (0x4000000000000000 : Nat) = .ok text
        ∧ wordIn (register 0 (-2))
          = (List.range 4).flatMap (fun j => shownAt 0x4000000000000000 text j) := by
  have hdump : dump (({} : Memory).appendWords [-2]) (0x4000000000000000 : Nat)
      = .error .widthTooLarge := by
    decide +kernel
  refine ⟨by decide, by decide, hdump, ?_⟩
  rintro ⟨text, h, -⟩
  rw [hdump] at h
  cases h

end WordMachine.View
