import WordMachine.Proofs.Draft

/-!
# The memory image of a layout

`LineCells` tells the cells that a line stands for by its text alone. The image of a layout is the
cells of its lines one after the other, and the cells of a line lie where the layout says it begins
and take as much room as it says (`build_rows`, `slice_rows`). Since declarations come before
instructions, so do data cells before code cells (`build_sorted`).
-/

namespace WordMachine

/-- The cells that a line puts into memory. -/
inductive LineCells (text : String) : List Cell → Prop
  | blank (h : tokens text = []) : LineCells text []
  | constant {l : CodeLine} {n : Nat} {v : Int} (hl : CodeLine.parse? text = some l)
    (hm : l.mnemonic? = some (.data .constant))
    (h : Literal.Declares .constant l.operand (.words n v)) :
    LineCells text (List.replicate n (Cell.ofWord v)).flatten
  | space {l : CodeLine} {n : Nat} (hl : CodeLine.parse? text = some l)
    (hm : l.mnemonic? = some (.data .space)) (h : Literal.Declares .space l.operand (.zeros n)) :
    LineCells text (List.replicate (4 * n) ⟨0, .data⟩)
  | register {l : CodeLine} {op : RegisterOp} (hl : CodeLine.parse? text = some l)
    (hm : l.mnemonic? = some (.register op)) : LineCells text (List.replicate 2 ⟨0, .code⟩)
  | memory {l : CodeLine} {op : MemoryOp} (hl : CodeLine.parse? text = some l)
    (hm : l.mnemonic? = some (.memory op)) : LineCells text (List.replicate 4 ⟨0, .code⟩)
  | jump {l : CodeLine} {when : Condition} (hl : CodeLine.parse? text = some l)
    (hm : l.mnemonic? = some (.jump when)) : LineCells text (List.replicate 4 ⟨0, .code⟩)

theorem lineCells_of_declares {text : String} {l : CodeLine} {op : DataOp} {c : Chunk}
    (hl : CodeLine.parse? text = some l) (hm : l.mnemonic? = some (.data op))
    (h : Literal.Declares op l.operand c) : LineCells text c.cells := by
  cases h with
  | constant hrep hn hv hfits => exact .constant hl hm (.constant hrep hn hv hfits)
  | space hrep hn =>
    have := LineCells.space hl hm (.space hrep hn)
    rwa [Nat.mul_comm] at this

theorem lineCells_of_code {text : String} {l : CodeLine} {m : Mnemonic}
    (hl : CodeLine.parse? text = some l) (hm : l.mnemonic? = some m) (hdata : ∀ op, m ≠ .data op) :
    LineCells text (Chunk.code m.size).cells := by
  cases m with
  | register op => exact .register hl hm
  | memory op => exact .memory hl hm
  | jump when => exact .jump hl hm
  | data op => exact absurd rfl (hdata op)

/-- Statements beside the cells they put into memory, whose number is their size. -/
def Rows (rows : List (Statement × List Cell)) : Prop :=
  ∀ r ∈ rows, LineCells r.1.text r.2 ∧ r.1.size = r.2.length

theorem extent_rows : ∀ {rows : List (Statement × List Cell)}, Rows rows →
    extent (rows.map Prod.fst) = (rows.flatMap Prod.snd).length
  | [], _ => rfl
  | r :: rows, h => by
    have ih := extent_rows fun r' hr' => h r' (List.mem_cons_of_mem _ hr')
    have hr := (h r List.mem_cons_self).2
    simp only [List.map_cons, extent_cons, List.flatMap_cons, List.length_append, ih, hr]
    omega

/-- The cells of a statement begin at the room taken before it. -/
theorem slice_rows {rows : List (Statement × List Cell)} (h : Rows rows) {i : Nat} {s : Statement}
    {cells : List Cell} (hi : rows[i]? = some (s, cells)) :
    ((rows.flatMap Prod.snd).drop (extent ((rows.map Prod.fst).take i)).toNat).take s.size.toNat
      = cells := by
  obtain ⟨hlt, hget⟩ := List.getElem?_eq_some_iff.1 hi
  have hsplit : rows = rows.take i ++ (s, cells) :: rows.drop (i + 1) := by
    rw [← hget, ← List.drop_eq_getElem_cons hlt, List.take_append_drop]
  have hbefore : extent ((rows.map Prod.fst).take i)
      = ((rows.take i).flatMap Prod.snd).length := by
    rw [← List.map_take]
    exact extent_rows fun r hr => h r (List.mem_of_mem_take hr)
  have hsize : s.size = cells.length := (h (s, cells) (List.mem_of_getElem? hi)).2
  have hcells : rows.flatMap Prod.snd = (rows.take i).flatMap Prod.snd
      ++ (cells ++ (rows.drop (i + 1)).flatMap Prod.snd) := by
    have := congrArg (List.flatMap Prod.snd) hsplit
    rwa [List.flatMap_append, List.flatMap_cons] at this
  rw [hbefore, hsize, hcells, Int.toNat_natCast, Int.toNat_natCast, List.drop_left, List.take_left]

theorem kind_of_declares {op : DataOp} {operand : List Char} {c : Chunk}
    (h : Literal.Declares op operand c) : ∀ x ∈ c.cells, x.kind = .data := by
  intro x hx
  cases h with
  | constant hrep hn hv hfits =>
    simp only [Chunk.cells, List.mem_flatten, List.mem_replicate] at hx
    obtain ⟨word, ⟨-, rfl⟩, hx⟩ := hx
    obtain ⟨b, -, rfl⟩ := List.mem_map.1 hx
    rfl
  | space hrep hn =>
    simp only [Chunk.cells, List.mem_replicate] at hx
    rw [hx.2]

theorem kind_of_code {size : Nat} : ∀ x ∈ (Chunk.code size).cells, x.kind = .code := by
  intro x hx
  simp only [Chunk.cells, List.mem_replicate] at hx
  rw [hx.2]
  rfl

namespace Layout

namespace Draft

variable {d d' : Draft} {s : Statement}

/-- A statement taken in adds its cells to the image and their number to the address. -/
theorem add_cells (h : d.add s = .ok d') :
    ∃ cells, LineCells s.text cells
      ∧ d'.statements = d.statements.push { s with address := d.address, size := cells.length }
      ∧ d'.memory.cells.toList = d.memory.cells.toList ++ cells := by
  rcases add_cases h with ⟨hp, rfl⟩ | ⟨l, d₁, c, hp, hd, hc, rfl⟩
  · exact ⟨[], .blank (CodeLine.ofTokens?_eq_none_iff.1 hp), rfl, by simp [push]⟩
  · have hcells : LineCells s.text c.cells := by
      rcases grant_cases hc with ⟨op, hm, -, hdecl⟩ | ⟨m, hm, hdata, rfl⟩
      · exact lineCells_of_declares hp hm hdecl
      · exact lineCells_of_code hp hm hdata
    refine ⟨c.cells, hcells, ?_⟩
    rcases define_cases hd with ⟨-, rfl⟩ | ⟨name, -, -, -, rfl⟩
    · simp [push, holding]
    · simp [push, holding]

/-- The image is data and then code, and there is no code before the first instruction. -/
def Sorted (d : Draft) : Prop :=
  ∃ data code, d.memory.cells.toList = data ++ code ∧ (∀ x ∈ data, x.kind = .data)
    ∧ (∀ x ∈ code, x.kind = .code) ∧ (d.inCode = false → code = [])

theorem Sorted.add (hd : d.Sorted) (h : d.add s = .ok d') : d'.Sorted := by
  obtain ⟨data, code, hm, hdata, hcode, hnone⟩ := hd
  rcases add_cases h with ⟨-, rfl⟩ | ⟨l, d₁, c, -, hdef, hc, rfl⟩
  · exact ⟨data, code, hm, hdata, hcode, hnone⟩
  have hmem : ((d₁.holding c).push s c.size).memory.cells.toList = data ++ code ++ c.cells := by
    rw [← hm, ← memory_define hdef]
    simp [push, holding]
  rcases grant_cases hc with ⟨op, -, hin, hdecl⟩ | ⟨m, -, -, rfl⟩
  · have hnil : code = [] := hnone (inCode_define hdef ▸ hin)
    refine ⟨data ++ c.cells, [], ?_, ?_, by simp, fun _ => rfl⟩
    · rw [hmem, hnil]
      simp
    · intro x hx
      rcases List.mem_append.1 hx with hx | hx
      · exact hdata x hx
      · exact kind_of_declares hdecl x hx
  · refine ⟨data, code ++ (Chunk.code m.size).cells, ?_, hdata, ?_, ?_⟩
    · rw [hmem, List.append_assoc]
    · intro x hx
      rcases List.mem_append.1 hx with hx | hx
      · exact hcode x hx
      · exact kind_of_code x hx
    · simp [push, holding, Chunk.isCode]

end Draft

theorem build_rows {program : List Statement} {l : Layout} (h : build program = .ok l) :
    ∃ rows, Rows rows ∧ l.statements = rows.map Prod.fst
      ∧ l.memory.cells.toList = rows.flatMap Prod.snd := by
  obtain ⟨d, hd, rfl⟩ := build_induct
    (P := fun _ d => ∃ rows, Rows rows ∧ d.statements.toList = rows.map Prod.fst
      ∧ d.memory.cells.toList = rows.flatMap Prod.snd)
    ⟨[], by simp [Rows], rfl, rfl⟩
    (fun done d s d' hP ha => by
      obtain ⟨rows, hrows, hs, hc⟩ := hP
      obtain ⟨cells, hcells, hs', hc'⟩ := Draft.add_cells ha
      refine ⟨rows ++ [({ s with address := d.address, size := cells.length }, cells)], ?_, ?_, ?_⟩
      · intro r hr
        rcases List.mem_append.1 hr with hr | hr
        · exact hrows r hr
        · rw [List.mem_singleton.1 hr]
          exact ⟨hcells, rfl⟩
      · simp [hs', hs]
      · simp [hc', hc]) h
  exact hd

/-- Data cells come before code cells. -/
theorem build_sorted {program : List Statement} {l : Layout} (h : build program = .ok l)
    {i j : Nat} {a b : Cell} (ha : l.memory.cells.toList[i]? = some a)
    (hb : l.memory.cells.toList[j]? = some b) (hdata : a.kind = .data) (hcode : b.kind = .code) :
    i < j := by
  obtain ⟨d, ⟨data, code, hm, hd, hc, -⟩, rfl⟩ := build_induct (P := fun _ d => d.Sorted)
    ⟨[], [], rfl, by simp, by simp, fun _ => rfl⟩ (fun _ d s d' hP ha => hP.add ha) h
  rw [hm] at ha hb
  by_contra hle
  rcases Nat.lt_or_ge i data.length with hi | hi
  · rw [List.getElem?_append_left (by omega)] at hb
    have := hd b (List.mem_of_getElem? hb)
    rw [this] at hcode
    cases hcode
  · rw [List.getElem?_append_right hi] at ha
    have := hc a (List.mem_of_getElem? ha)
    rw [this] at hdata
    cases hdata

theorem size_memory {program : List Statement} {l : Layout} (h : build program = .ok l) :
    (l.memory.size : Int) = l.size := by
  obtain ⟨rows, hrows, hs, hc⟩ := build_rows h
  rw [size_eq_extent, hs, extent_rows hrows, ← hc]
  rfl

end Layout

/-- The statements of a layout are the lines of the text, each at the sum of the sizes before it;
the image is the cells of the lines in order, the cells of each between its address and its end,
and data comes before code. -/
theorem image_of_build {source : String} {l : Layout}
    (h : Layout.build (statements source) = .ok l) :
    (l.statements.map Statement.text = (statements source).map Statement.text
        ∧ l.statements.map Statement.index = (statements source).map Statement.index)
      ∧ (∃ rows : List (Statement × List Cell), l.statements = rows.map Prod.fst
        ∧ l.memory.cells.toList = rows.flatMap Prod.snd
        ∧ ∀ (i : Nat) (s : Statement) (cells : List Cell), rows[i]? = some (s, cells) →
          LineCells s.text cells ∧ s.address = extent (l.statements.take i)
          ∧ s.size = (cells.length : Int)
          ∧ (l.memory.cells.toList.drop s.address.toNat).take s.size.toNat = cells)
      ∧ (l.memory.size : Int) = l.size
      ∧ ∀ (i j : Nat) (a b : Cell), l.memory.cells.toList[i]? = some a →
        l.memory.cells.toList[j]? = some b → a.kind = .data → b.kind = .code → i < j := by
  refine ⟨Layout.build_lines h, ?_, Layout.size_memory h, fun i j a b => Layout.build_sorted h⟩
  obtain ⟨rows, hrows, hs, hc⟩ := Layout.build_rows h
  refine ⟨rows, hs, hc, fun i s cells hi => ?_⟩
  obtain ⟨hcells, hsize⟩ := hrows (s, cells) (List.mem_of_getElem? hi)
  have haddr : s.address = extent (l.statements.take i) :=
    Layout.build_placed h i s (by rw [hs, List.getElem?_map, hi]; rfl)
  refine ⟨hcells, haddr, hsize, ?_⟩
  rw [haddr, hs, hc]
  exact slice_rows hrows hi

/-- Two constants, a blank line, no space at all, and instructions of both sizes. -/
theorem image_of_build_mixed :
    ∃ l, Layout.build (statements "K DC 2*INTEGER(-1)\n\nZ DS 0*INTEGER\nLR 1,2\nJ 8") = .ok l
      ∧ l.memory.values = [255, 255, 255, 255, 255, 255, 255, 255, 0, 0, 0, 0, 0, 0]
      ∧ (l.memory.size : Int) = l.size ∧ l.size = 14 := by
  have hvalues : (Layout.build (statements
      "K DC 2*INTEGER(-1)\n\nZ DS 0*INTEGER\nLR 1,2\nJ 8")).map (fun l => (l.memory.values, l.size))
      = .ok ([255, 255, 255, 255, 255, 255, 255, 255, 0, 0, 0, 0, 0, 0], 14) := by
    decide +kernel
  obtain ⟨l, hl, hv⟩ := map_eq_ok.1 hvalues
  simp only [Prod.mk.injEq] at hv
  exact ⟨l, hl, hv.1, (image_of_build hl).2.2.1, hv.2⟩

end WordMachine
