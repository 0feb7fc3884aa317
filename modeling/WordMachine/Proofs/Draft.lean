import WordMachine.Proofs.Extent
import WordMachine.Proofs.Operand

/-!
# A layout, line by line

A draft takes a statement in without code as it is, or defines its label, finds a chunk for which
there is room and takes that in (`add_cases`). What every statement taken in keeps holds of the
whole layout (`build_induct`). So the statements of a layout are those of the program, each with the
address reached before it (`build_lines`, `build_placed`).
-/

namespace WordMachine.Layout

namespace Draft

variable {d d' : Draft} {s : Statement}

/-- A draft that has taken a chunk in. -/
def holding (d : Draft) (c : Chunk) : Draft :=
  { d with memory := d.memory.append c.cells, inCode := d.inCode || c.isCode }

theorem store_push (d : Draft) (s : Statement) (c : Chunk) :
    (do let d ← d.store c; return d.push s c.size)
      = do let c ← c.granted; return (d.holding c).push s c.size := by
  unfold store Chunk.granted
  rw [Chunk.addTo_eq]
  cases c.refusal? <;> rfl

/-- The chunk of a line of code for which there is room. -/
def grant (d : Draft) (s : Statement) (l : CodeLine) : Except Failure Chunk :=
  d.chunk s l >>= Chunk.granted

theorem add_of_blank (hp : CodeLine.parse? s.text = none) : d.add s = .ok (d.push s 0) := by
  unfold add
  rw [hp]

/-- Whether there is room for a chunk is settled before the image is looked at. -/
theorem add_of_parse {l : CodeLine} (hp : CodeLine.parse? s.text = some l) :
    d.add s = do
      let d₁ ← d.define s l.label
      let c ← d₁.grant s l
      return (d₁.holding c).push s c.size := by
  unfold add
  simp only [hp, grant, store_push, bind_assoc]

/-- Defining a label changes the table and nothing else. -/
theorem define_cases {label : Option String} (h : d.define s label = .ok d') :
    (label = none ∧ d' = d)
      ∨ ∃ name, label = some name ∧ d.symbols.find? name = none ∧ isLabelName name = true
        ∧ d' = { d with symbols := ⟨d.symbols.labels ++ [⟨name, s.index, d.address⟩]⟩ } := by
  unfold define at h
  split at h
  · cases h
    exact .inl ⟨rfl, rfl⟩
  · rename_i name
    unfold Symbols.define at h
    rcases hf : d.symbols.find? name with _ | first <;> rw [hf] at h
    · simp only [] at h
      split at h
      · rename_i hn
        cases h
        exact .inr ⟨name, rfl, hf, hn, rfl⟩
      · cases h
    · cases h

theorem inCode_define {label : Option String} (h : d.define s label = .ok d') :
    d'.inCode = d.inCode := by
  rcases define_cases h with ⟨-, rfl⟩ | ⟨name, -, -, -, rfl⟩ <;> rfl

theorem memory_define {label : Option String} (h : d.define s label = .ok d') :
    d'.memory = d.memory := by
  rcases define_cases h with ⟨-, rfl⟩ | ⟨name, -, -, -, rfl⟩ <;> rfl

/-- A label is refused when its name is taken, and else when it is no name. -/
theorem define_error {label : Option String} {f : Failure} (h : d.define s label = .error f) :
    ∃ name, label = some name
      ∧ ((∃ first, d.symbols.find? name = some first
          ∧ f = .atLine s.line (.duplicateLabel name (some (first.line + 1))))
        ∨ d.symbols.find? name = none ∧ isLabelName name = false
          ∧ f = .atLine s.line (.invalidLabel name)) := by
  unfold define at h
  split at h
  · cases h
  · rename_i name
    refine ⟨name, rfl, ?_⟩
    unfold Symbols.define at h
    rcases hf : d.symbols.find? name with _ | first <;> rw [hf] at h
    · simp only [] at h
      split_ifs at h with hn
      cases h
      exact .inr ⟨rfl, by simpa using hn, rfl⟩
    · cases h
      exact .inl ⟨first, rfl, rfl⟩

/-- There is always room for an instruction. -/
theorem granted_code (m : Mnemonic) : (Chunk.code m.size).granted = .ok (.code m.size) := by
  cases m <;> rfl

/-- What a line of code puts into memory is what its operand declares, before the first instruction,
or the room of an instruction. -/
theorem grant_cases {l : CodeLine} {c : Chunk} (h : d.grant s l = .ok c) :
    (∃ op, l.mnemonic? = some (.data op) ∧ d.inCode = false ∧ Literal.Declares op l.operand c)
      ∨ ∃ m, l.mnemonic? = some m ∧ (∀ op, m ≠ .data op) ∧ c = .code m.size := by
  obtain ⟨c', h, hroom⟩ := bind_eq_ok.1 h
  unfold chunk at h
  split at h
  · cases h
  · rename_i op hm
    split_ifs at h with hcode
    exact .inl ⟨op, hm, by simpa using hcode,
      DataOp.grant_eq_ok_iff.1 (bind_eq_ok.2 ⟨c', h, hroom⟩)⟩
  · rename_i m hdata hm
    cases h
    rw [granted_code, Except.ok.injEq] at hroom
    exact .inr ⟨m, hm, hdata, hroom.symm⟩

theorem grant_error {l : CodeLine} {f : Failure} (h : d.grant s l = .error f) :
    (l.mnemonic? = none ∧ f = .atLine s.line (.unknownInstruction l.name))
      ∨ ∃ op, l.mnemonic? = some (.data op)
        ∧ ((d.inCode = true ∧ f = .atLine s.line (.dataAfterCode l.first))
          ∨ d.inCode = false ∧ op.grant l.operands s.line = .error f) := by
  unfold grant chunk at h
  split at h
  · rename_i hm
    cases h
    exact .inl ⟨hm, rfl⟩
  · rename_i op hm
    refine .inr ⟨op, hm, ?_⟩
    split_ifs at h with hcode
    · cases h
      exact .inl ⟨hcode, rfl⟩
    · exact .inr ⟨by simpa using hcode, h⟩
  · rename_i m _ _
    cases (granted_code m).symm.trans h

theorem inCode_holding_of_declares {op : DataOp} {operand : List Char} {c : Chunk}
    (h : Literal.Declares op operand c) : (d.holding c).inCode = d.inCode := by
  cases h <;> simp [holding, Chunk.isCode]

theorem add_cases (h : d.add s = .ok d') :
    (CodeLine.parse? s.text = none ∧ d' = d.push s 0)
      ∨ ∃ l d₁ c, CodeLine.parse? s.text = some l ∧ d.define s l.label = .ok d₁
        ∧ d₁.grant s l = .ok c ∧ d' = (d₁.holding c).push s c.size := by
  rcases hp : CodeLine.parse? s.text with _ | l
  · rw [add_of_blank hp] at h
    cases h
    exact .inl ⟨rfl, rfl⟩
  · rw [add_of_parse hp] at h
    obtain ⟨d₁, hd, h⟩ := bind_eq_ok.1 h
    obtain ⟨c, hc, h⟩ := bind_eq_ok.1 h
    cases h
    exact .inr ⟨l, d₁, c, rfl, hd, hc, rfl⟩

theorem add_error {f : Failure} (h : d.add s = .error f) :
    ∃ l, CodeLine.parse? s.text = some l
      ∧ (d.define s l.label = .error f
        ∨ ∃ d₁, d.define s l.label = .ok d₁ ∧ d₁.grant s l = .error f) := by
  rcases hp : CodeLine.parse? s.text with _ | l
  · rw [add_of_blank hp] at h
    cases h
  · rw [add_of_parse hp] at h
    refine ⟨l, rfl, ?_⟩
    rcases bind_eq_error.1 h with h | ⟨d₁, hd, h⟩
    · exact .inl h
    rcases bind_eq_error.1 h with h | ⟨c, -, h⟩
    · exact .inr ⟨d₁, hd, h⟩
    · cases h

/-- The address at which a statement is placed is the one reached, and its size is added to that. -/
theorem add_place (h : d.add s = .ok d') :
    ∃ size, d'.statements = d.statements.push { s with address := d.address, size }
      ∧ d'.address = d.address + size := by
  rcases add_cases h with ⟨-, rfl⟩ | ⟨l, d₁, c, -, hd, -, rfl⟩
  · exact ⟨0, rfl, rfl⟩
  · refine ⟨c.size, ?_⟩
    rcases define_cases hd with ⟨-, rfl⟩ | ⟨name, -, -, -, rfl⟩
    · simp [push, holding]
    · simp [push, holding]

/-- A draft goes on at the end of its image. -/
theorem address_add (h : d.add s = .ok d') (hd : d.address = d.memory.size) :
    d'.address = d'.memory.size := by
  rcases add_cases h with ⟨-, rfl⟩ | ⟨l, d₁, c, -, hdef, -, rfl⟩
  · simpa [push] using hd
  · rcases define_cases hdef with ⟨-, rfl⟩ | ⟨name, -, -, -, rfl⟩ <;> simp [push, holding, hd]

end Draft

/-- What holds before the first statement and is kept by every statement taken in holds of a
layout's last draft. -/
theorem build_induct {P : List Statement → Draft → Prop} (hnil : P [] {})
    (hadd : ∀ done d s d', P done d → d.add s = .ok d' → P (done ++ [s]) d')
    {program : List Statement} {l : Layout} (h : build program = .ok l) :
    ∃ d, P program d ∧ l = ⟨d.statements.toList, d.symbols, d.memory⟩ := by
  unfold build at h
  obtain ⟨d, hd, h⟩ := bind_eq_ok.1 h
  cases h
  exact ⟨d, by simpa using foldlM_induct hadd program [] hnil hd, rfl⟩

theorem build_lines {program : List Statement} {l : Layout} (h : build program = .ok l) :
    l.statements.map Statement.text = program.map Statement.text
      ∧ l.statements.map Statement.index = program.map Statement.index := by
  obtain ⟨d, hd, rfl⟩ := build_induct
    (P := fun done d => d.statements.toList.map Statement.text = done.map Statement.text
      ∧ d.statements.toList.map Statement.index = done.map Statement.index) ⟨rfl, rfl⟩
    (fun done d s d' hP ha => by
      obtain ⟨size, hs, -⟩ := Draft.add_place ha
      simp [hs, hP.1, hP.2]) h
  exact hd

theorem build_placed {program : List Statement} {l : Layout} (h : build program = .ok l) :
    Placed l.statements := by
  obtain ⟨d, hd, rfl⟩ := build_induct
    (P := fun _ d => Placed d.statements.toList ∧ d.address = extent d.statements.toList)
    ⟨placed_nil, rfl⟩
    (fun done d s d' hP ha => by
      obtain ⟨hp, hr⟩ := hP
      obtain ⟨size, hs, ha'⟩ := Draft.add_place ha
      rw [hs, ha', Array.toList_push]
      refine ⟨hp.push hr, ?_⟩
      simp [hr]) h
  exact hd.1

end WordMachine.Layout
