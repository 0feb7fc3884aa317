import WordMachine.Proofs.Draft
import WordMachine.Proofs.WordAccess

/-!
# Memory that grows in two rows

Values and kinds kept in two rows are added to and written one after the other, and nothing but the
operations themselves keeps the rows in step. Each adds to both rows as many elements, or puts as
many in the place of as many, so rows that come to be in this way are equally long, and where a kind
is that of code the value is still the zero that was added with it (`Reached.parallel`). The rows of
an image come to be in this way, while a program is laid out (`reached_of_build`) and afterwards
(`Reached.write`).
-/

namespace WordMachine

namespace Memory.Rows

variable {r r' : Rows} {address value : Int} {line : Option Int}

/-- A word added at the end as data. -/
def appendWord (r : Rows) (value : Int) : Rows :=
  ⟨r.values ++ Word.encode value, r.kinds ++ List.replicate 4 .data⟩

/-- Zeros of one kind added at the end. -/
def reserve (r : Rows) (size : Nat) (kind : CellKind) : Rows :=
  ⟨r.values ++ List.replicate size 0, r.kinds ++ List.replicate size kind⟩

/-- Rows that come to be when words and zeros are added to empty ones and words are stored. -/
inductive Reached : Rows → Prop
  | empty : Reached ⟨[], []⟩
  | word {r : Rows} (h : Reached r) (value : Int) : Reached (r.appendWord value)
  | room {r : Rows} (h : Reached r) (size : Nat) (kind : CellKind) : Reached (r.reserve size kind)
  | store {r r' : Rows} (h : Reached r) {address value : Int} {line : Option Int}
    (hs : (InPlace.storeWord address value line).run r = .ok () r') : Reached r'

/-- The rows are equally long, and a place of code holds no value. -/
structure Parallel (r : Rows) : Prop where
  length_eq : r.values.length = r.kinds.length
  room : ∀ i : Nat, r.kinds[i]? = some .code → r.values[i]? = some 0

theorem parallel_word (value : Int) : Parallel ⟨Word.encode value, List.replicate 4 .data⟩ := by
  refine ⟨Word.length_encode value, fun i hi => ?_⟩
  have := List.eq_of_mem_replicate (List.mem_of_getElem? hi)
  cases this

theorem parallel_room (size : Nat) (kind : CellKind) :
    Parallel ⟨List.replicate size 0, List.replicate size kind⟩ := by
  refine ⟨by simp, fun i hi => List.getElem?_replicate_of_lt ?_⟩
  simpa using (List.getElem?_eq_some_iff.1 hi).1

namespace Parallel

theorem append (h : r.Parallel) (h' : r'.Parallel) :
    Parallel ⟨r.values ++ r'.values, r.kinds ++ r'.kinds⟩ := by
  refine ⟨by simp only [List.length_append, h.length_eq, h'.length_eq], fun i hi => ?_⟩
  simp only [List.getElem?_append, h.length_eq] at hi ⊢
  split_ifs at hi ⊢
  · exact h.room i hi
  · exact h'.room _ hi

theorem overlay (h : r.Parallel) (h' : r'.Parallel) {place : Nat}
    (hplace : place + r'.values.length ≤ r.values.length) :
    Parallel ⟨WordMachine.overlay r.values place r'.values,
      WordMachine.overlay r.kinds place r'.kinds⟩ := by
  have hkinds : place + r'.kinds.length ≤ r.kinds.length := by
    rwa [← h.length_eq, ← h'.length_eq]
  refine ⟨?_, fun i hi => ?_⟩
  · rw [length_overlay hplace, length_overlay hkinds, h.length_eq]
  · rw [getElem?_overlay hkinds, ← h'.length_eq] at hi
    rw [getElem?_overlay hplace]
    split_ifs at hi ⊢
    · exact h'.room _ hi
    · exact h.room i hi

end Parallel

/-- A word that is stored lies within the first row, and takes the place of four in both. -/
theorem storeWord_ok (h : (InPlace.storeWord address value line).run r = .ok () r') :
    ∃ place : Nat, place + 4 ≤ r.values.length
      ∧ r' = ⟨splice r.values place (place + 4) (Word.encode value),
        splice r.kinds place (place + 4) (List.replicate 4 .data)⟩ := by
  by_cases hout : address < 0 ∨ (r.values.length : Int) < address + 4
  · simp [InPlace.storeWord, InPlace.checkWord, hout] at h
  · obtain ⟨place, rfl⟩ := Int.eq_ofNat_of_zero_le (by omega : 0 ≤ address)
    refine ⟨place, by omega, ?_⟩
    simpa [InPlace.storeWord, InPlace.checkWord, hout] using h.symm

theorem Parallel.store (h : r.Parallel)
    (hs : (InPlace.storeWord address value line).run r = .ok () r') : r'.Parallel := by
  obtain ⟨place, hplace, rfl⟩ := storeWord_ok hs
  rw [splice_word hplace (Word.length_encode value),
    splice_word (h.length_eq ▸ hplace) (List.length_replicate ..)]
  exact h.overlay (parallel_word value) hplace

theorem Reached.parallel (h : r.Reached) : r.Parallel := by
  induction h with
  | empty => exact ⟨rfl, by simp⟩
  | word _ value ih => exact ih.append (parallel_word value)
  | room _ size kind ih => exact ih.append (parallel_room size kind)
  | store _ hs ih => exact ih.store hs

end Memory.Rows

namespace Memory

variable {m m' : Memory}

theorem rows_append (m : Memory) (cells : List Cell) :
    (m.append cells).rows = ⟨m.rows.values ++ cells.map Cell.value,
      m.rows.kinds ++ cells.map Cell.kind⟩ := by
  simp [rows, values, kinds]

theorem rows_append_ofWord (m : Memory) (value : Int) :
    (m.append (Cell.ofWord value)).rows = m.rows.appendWord value := by
  rw [rows_append]
  simp [Rows.appendWord, Cell.ofWord, Function.comp_def]

theorem append_append (m : Memory) (cells cells' : List Cell) :
    m.append (cells ++ cells') = (m.append cells).append cells' := by
  simp [append]

theorem reached_append_words (value : Int) : ∀ (count : Nat) {m : Memory}, m.rows.Reached →
    (m.append (List.replicate count (Cell.ofWord value)).flatten).rows.Reached
  | 0, m, h => by simpa [append] using h
  | count + 1, m, h => by
    rw [List.replicate_succ, List.flatten_cons, append_append]
    exact reached_append_words value count (rows_append_ofWord m value ▸ h.word value)

theorem reached_append_chunk (h : m.rows.Reached) (c : Chunk) :
    (m.append c.cells).rows.Reached := by
  cases c with
  | words count value => exact reached_append_words value count h
  | zeros count =>
    rw [rows_append]
    simpa [Chunk.cells, Rows.reserve] using h.room (count * Word.bytes) .data
  | code size =>
    rw [rows_append]
    simpa [Chunk.cells, Rows.reserve, Cell.room] using h.room size .code

/-- A word written into an image is a word stored in its rows. -/
theorem Rows.Reached.write (h : m.rows.Reached) {address value : Int} {line : Option Int}
    (hw : m.writeWord address value line = .ok m') : m'.rows.Reached := by
  have hs := InPlace.run_storeWord m address value line
  rw [hw] at hs
  exact h.store hs

end Memory

theorem Layout.reached_of_build {program : List Statement} {l : Layout}
    (h : build program = .ok l) : l.memory.rows.Reached := by
  obtain ⟨d, hd, rfl⟩ := build_induct (P := fun _ d => d.memory.rows.Reached) .empty
    (fun done d s d' hP ha => by
      rcases Draft.add_cases ha with ⟨-, rfl⟩ | ⟨l, d₁, c, -, hdef, -, rfl⟩
      · exact hP
      · show (d₁.memory.append c.cells).rows.Reached
        rw [Draft.memory_define hdef]
        exact Memory.reached_append_chunk hP c) h
  exact hd

end WordMachine
