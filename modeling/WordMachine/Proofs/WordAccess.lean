import Mathlib.Algebra.Order.Group.Int
import WordMachine.Proofs.Codec
import WordMachine.Proofs.InPlace
import WordMachine.Proofs.Overlay

/-!
# Reading and writing words

A word that is written is read back wrapped, other words are read as the bytes that lie where they
lie now, and writes at places apart can be made in either order (`Written`). Values and kinds can
also be kept in two rows, each cut and joined in place, where a position below zero would count from
the back. Since the whole word is looked for first, nothing is ever cut from the back, both rows
stay as long as they were, and they are changed together or not at all (`InPlace.run_storeWord`).
-/

namespace WordMachine

open Text

/-! ## Rows cut in place -/

section Cut

variable {α : Type} {xs new : List α} {n : Nat}

/-- Where a position cuts a row of the given length: below zero it counts from the back, and it
never lies outside of the row. -/
def cutAt (length : Nat) (i : Int) : Nat :=
  (if i < 0 then max 0 (i + length) else min i length).toNat

/-- What lies between two cuts. -/
def slice (xs : List α) (i j : Int) : List α :=
  (xs.take (cutAt xs.length j)).drop (cutAt xs.length i)

/-- New elements in the place of what lies between two cuts. -/
def splice (xs : List α) (i j : Int) (new : List α) : List α :=
  xs.take (cutAt xs.length i) ++ new ++ xs.drop (max (cutAt xs.length i) (cutAt xs.length j))

theorem cutAt_natCast (h : n ≤ xs.length) : cutAt xs.length (n : Int) = n := by
  unfold cutAt
  rw [if_neg (by omega)]
  omega

theorem slice_word (h : n + 4 ≤ xs.length) :
    slice xs (n : Int) ((n : Int) + 4) = (xs.drop n).take 4 := by
  unfold slice
  rw [cutAt_natCast (by omega), show (n : Int) + 4 = ((n + 4 : Nat) : Int) from rfl,
    cutAt_natCast h, List.drop_take, Nat.add_sub_cancel_left]

theorem splice_word (h : n + 4 ≤ xs.length) (hnew : new.length = 4) :
    splice xs (n : Int) ((n : Int) + 4) new = overlay xs n new := by
  unfold splice overlay
  rw [cutAt_natCast (by omega), show (n : Int) + 4 = ((n + 4 : Nat) : Int) from rfl,
    cutAt_natCast h, hnew, Nat.max_eq_right (by omega)]

end Cut

/-- Memory as two rows, side by side. -/
structure Memory.Rows where
  values : List UInt8
  kinds : List CellKind
  deriving DecidableEq, Repr

def Memory.rows (m : Memory) : Memory.Rows := ⟨m.values, m.kinds⟩

@[simp] theorem Memory.values_rows (m : Memory) : m.rows.values = m.values := rfl

@[simp] theorem Memory.kinds_rows (m : Memory) : m.rows.kinds = m.kinds := rfl

namespace Memory

variable {m m' : Memory} {address value : Int} {line : Option Int}

/-! ## Success and failure -/

theorem covers_iff : m.Covers address ↔ 0 ≤ address ∧ address + 4 ≤ m.size := Iff.rfl

/-- The error of an access outside memory tells the address, if that can be written out. -/
theorem outside_eq (m : Memory) (address : Int) (line : Option Int) :
    m.outside address line
      = if Numeral.isWritable address = true ∨ 0 ≤ address ∧ address ≤ m.size then
          .diagnostic ⟨.memoryAccess address m.size, line⟩
        else .refusal .numberTooLong := by
  simp only [outside, Failure.report, Cause.isWritable_memoryAccess]

theorem readWord_of_not_covers (h : ¬ m.Covers address) (line : Option Int) :
    m.readWord address line = .error (m.outside address line) := by
  rw [readWord, if_neg h]

theorem writeWord_of_not_covers (h : ¬ m.Covers address) (value : Int) (line : Option Int) :
    m.writeWord address value line = .error (m.outside address line) := by
  rw [writeWord, if_neg h]

theorem readWord_of_covers (h : m.Covers address) (line : Option Int) :
    m.readWord address line = .ok (Word.decode (m.bytesAt address.toNat)) := by
  rw [readWord, if_pos h]

theorem writeWord_of_covers (h : m.Covers address) (value : Int) (line : Option Int) :
    ∃ m', m.writeWord address value line = .ok m' := by
  rw [writeWord, if_pos h]
  exact ⟨_, rfl⟩

theorem exists_readWord_iff : (∃ w, m.readWord address line = .ok w) ↔ m.Covers address := by
  constructor
  · rintro ⟨w, hw⟩
    by_contra h
    rw [readWord_of_not_covers h] at hw
    cases hw
  · exact fun h => ⟨_, readWord_of_covers h line⟩

theorem exists_writeWord_iff :
    (∃ m', m.writeWord address value line = .ok m') ↔ m.Covers address :=
  ⟨fun ⟨_, h⟩ => covers_of_writeWord h, fun h => writeWord_of_covers h value line⟩

/-! ## Bytes -/

theorem eq_of_cells (h : m.cells.toList = m'.cells.toList) : m = m' :=
  congrArg Memory.mk (Array.toList_inj.1 h)

theorem bytesAt_eq (m : Memory) (place : Nat) : m.bytesAt place = (m.values.drop place).take 4 := by
  simp [bytesAt, values, Word.bytes, List.extract_eq_take_drop]

theorem getElem?_bytesAt {i : Nat} (hi : i < 4) (m : Memory) (place : Nat) :
    (m.bytesAt place)[i]? = m.values[place + i]? := by
  rw [bytesAt_eq, List.getElem?_take_of_lt hi, List.getElem?_drop]

theorem length_bytesAt (h : m.Covers address) : (m.bytesAt address.toNat).length = 4 := by
  rw [covers_iff] at h
  rw [bytesAt_eq, List.length_take, List.length_drop, length_values]
  omega

section Write

variable (h : m.writeWord address value line = .ok m')
include h

theorem covers_writeWord_iff {b : Int} : m'.Covers b ↔ m.Covers b := by
  rw [covers_iff, covers_iff, size_writeWord h]

theorem getElem?_values_writeWord (i : Nat) :
    m'.values[i]? = if address ≤ i ∧ i < address + 4 then (Word.encode value)[(i - address).toNat]?
      else m.values[i]? := by
  have hcovers := covers_iff.1 (covers_of_writeWord h)
  have hsize : address.toNat + (Word.encode value).length ≤ m.values.length := by
    rw [length_values, Word.length_encode]
    omega
  rw [values_writeWord h, getElem?_overlay hsize, Word.length_encode]
  by_cases hi : address ≤ i ∧ i < address + 4
  · rw [if_pos (by omega), if_pos hi, show i - address.toNat = ((i : Int) - address).toNat by omega]
  · rw [if_neg (by omega), if_neg hi]

theorem getElem?_kinds_writeWord (i : Nat) :
    m'.kinds[i]? = if address ≤ i ∧ i < address + 4 then some .data else m.kinds[i]? := by
  have hcovers := covers_iff.1 (covers_of_writeWord h)
  have hsize : address.toNat + (List.replicate 4 CellKind.data).length ≤ m.kinds.length := by
    rw [length_kinds, List.length_replicate]
    omega
  rw [kinds_writeWord h, getElem?_overlay hsize, List.length_replicate]
  by_cases hi : address ≤ i ∧ i < address + 4
  · rw [if_pos (by omega), if_pos hi, List.getElem?_replicate_of_lt (by omega)]
  · rw [if_neg (by omega), if_neg hi]

/-- A byte of a word that is read after the write is a new one where the write has been. -/
theorem getElem?_bytesAt_writeWord {b : Int} (hb : 0 ≤ b) {i : Nat} (hi : i < 4) :
    (m'.bytesAt b.toNat)[i]? = if address ≤ b + i ∧ b + i < address + 4
      then (Word.encode value)[(b + i - address).toNat]? else m.values[(b + i).toNat]? := by
  rw [getElem?_bytesAt hi, getElem?_values_writeWord h,
    show ((b.toNat + i : Nat) : Int) = b + i by omega, show b.toNat + i = (b + i).toNat by omega]

theorem readWord_writeWord_self (line : Option Int) :
    m'.readWord address line = .ok (Word.wrap value) := by
  have hcovers := covers_of_writeWord h
  have hbytes : m'.bytesAt address.toNat = Word.encode value := by
    have hlen := length_bytesAt ((covers_writeWord_iff h).2 hcovers)
    apply List.ext_getElem?
    intro i
    rcases Nat.lt_or_ge i 4 with hi | hi
    · rw [getElem?_bytesAt_writeWord h hcovers.1 hi, if_pos (by omega),
        show (address + i - address).toNat = i by omega]
    · rw [List.getElem?_eq_none (by omega), List.getElem?_eq_none hi]
  rw [readWord_of_covers ((covers_writeWord_iff h).2 hcovers), hbytes, Word.decode_encode]

theorem readWord_writeWord_apart {b : Int} (hapart : 4 ≤ |address - b|) (line : Option Int) :
    m'.readWord b line = m.readWord b line := by
  rw [le_abs] at hapart
  by_cases hb : m.Covers b
  · have hb' := (covers_writeWord_iff h).2 hb
    have hbytes : m'.bytesAt b.toNat = m.bytesAt b.toNat := by
      apply List.ext_getElem?
      intro i
      rcases Nat.lt_or_ge i 4 with hi | hi
      · rw [getElem?_bytesAt_writeWord h hb.1 hi, if_neg (by omega), getElem?_bytesAt hi,
          show b.toNat + i = (b + i).toNat by have := hb.1; omega]
      · rw [List.getElem?_eq_none (by rw [length_bytesAt hb']; exact hi),
          List.getElem?_eq_none (by rw [length_bytesAt hb]; exact hi)]
    rw [readWord_of_covers hb', readWord_of_covers hb, hbytes]
  · rw [readWord_of_not_covers (mt (covers_writeWord_iff h).1 hb), readWord_of_not_covers hb,
      outside, outside, size_writeWord h]

/-! ## Two writes -/

theorem writeWord_again (v : Int) (line : Option Int) :
    m'.writeWord address v line = m.writeWord address v line := by
  have hcovers := covers_of_writeWord h
  obtain ⟨m₁, h₁⟩ := writeWord_of_covers ((covers_writeWord_iff h).2 hcovers) v line
  obtain ⟨m₂, h₂⟩ := writeWord_of_covers hcovers v line
  obtain ⟨hsize, hcells⟩ := cells_of_writeWord h
  rw [h₁, h₂, Except.ok.injEq]
  apply eq_of_cells
  rw [(cells_of_writeWord h₁).2, hcells, (cells_of_writeWord h₂).2]
  exact overlay_overlay_self (by simpa [size] using hsize) (by simp)

theorem writeWord_comm {b : Int} (hapart : 4 ≤ |address - b|) (w : Int) (line' : Option Int) :
    m'.writeWord b w line'
      = m.writeWord b w line' >>= fun m₁ => m₁.writeWord address value line := by
  rw [le_abs] at hapart
  have hcovers := covers_of_writeWord h
  by_cases hb : m.Covers b
  · obtain ⟨m₁, h₁⟩ := writeWord_of_covers hb w line'
    obtain ⟨m₂, h₂⟩ := writeWord_of_covers ((covers_writeWord_iff h₁).2 hcovers) value line
    obtain ⟨m₃, h₃⟩ := writeWord_of_covers ((covers_writeWord_iff h).2 hb) w line'
    obtain ⟨hsize, hcells⟩ := cells_of_writeWord h
    obtain ⟨hsize₁, hcells₁⟩ := cells_of_writeWord h₁
    have hb₀ := hb.1
    have ha₀ := hcovers.1
    rw [h₁, h₃]
    show Except.ok m₃ = m₁.writeWord address value line
    rw [h₂, Except.ok.injEq]
    apply eq_of_cells
    rw [(cells_of_writeWord h₃).2, hcells, (cells_of_writeWord h₂).2, hcells₁]
    exact overlay_comm (by simpa [size] using hsize) (by simpa [size] using hsize₁)
      (by simp only [length_ofWord]; omega)
  · rw [writeWord_of_not_covers (mt (covers_writeWord_iff h).1 hb), writeWord_of_not_covers hb,
      outside, outside, size_writeWord h]
    rfl

end Write

/-- What holds after a word is written at an address. -/
structure Written (m : Memory) (address value : Int) (m' : Memory) : Prop where
  size : m'.size = m.size
  read : ∀ line, m'.readWord address line = .ok (Word.wrap value)
  /-- What is apart from the word is read as before. -/
  apart : ∀ b line, 4 ≤ |address - b| → m'.readWord b line = m.readWord b line
  /-- What overlaps the word is read from new bytes where it does and from old ones elsewhere. -/
  overlap : ∀ b line, |address - b| < 4 → 0 ≤ b → b + 4 ≤ m.size →
    ∃ bytes : List UInt8, bytes.length = 4 ∧ m'.readWord b line = .ok (Word.decode bytes)
      ∧ ∀ i : Nat, i < 4 → bytes[i]? = if address ≤ b + i ∧ b + i < address + 4
        then (Word.encode value)[(b + i - address).toNat]? else m.values[(b + i).toNat]?
  kinds : ∀ i : Nat,
    m'.kinds[i]? = if address ≤ i ∧ i < address + 4 then some .data else m.kinds[i]?
  again : ∀ v line, m'.writeWord address v line = m.writeWord address v line
  commute : ∀ b w line line', 4 ≤ |address - b| →
    m'.writeWord b w line'
      = m.writeWord b w line' >>= fun m₁ => m₁.writeWord address value line

theorem written_of_writeWord (h : m.writeWord address value line = .ok m') :
    Written m address value m' where
  size := size_writeWord h
  read := readWord_writeWord_self h
  apart _ line hapart := readWord_writeWord_apart h hapart line
  overlap b line _ hb₀ hb := by
    have hcovers : m'.Covers b := (covers_writeWord_iff h).2 ⟨hb₀, hb⟩
    exact ⟨m'.bytesAt b.toNat, length_bytesAt hcovers, readWord_of_covers hcovers line,
      fun i hi => getElem?_bytesAt_writeWord h hb₀ hi⟩
  kinds := getElem?_kinds_writeWord h
  again := writeWord_again h
  commute b w line₁ line' hapart := by
    -- the line is only used when a write fails, and here none does
    have hsame : m.writeWord address value line₁ = .ok m' := by
      rw [← h, writeWord, writeWord, if_pos (covers_of_writeWord h),
        if_pos (covers_of_writeWord h)]
    exact writeWord_comm hsame hapart w line'

end Memory

/-! ## Rows changed in place -/

namespace InPlace

/-- Looks whether a whole word lies at an address. -/
def checkWord (address : Int) (line : Option Int) : InPlace Memory.Rows Unit :=
  look fun r =>
    if address < 0 ∨ r.values.length < address + 4 then
      .error (.report ⟨.memoryAccess address r.values.length, line⟩)
    else .ok ()

def fetchWord (address : Int) (line : Option Int) : InPlace Memory.Rows Int := do
  checkWord address line
  return Word.decode (slice (← get).values address (address + 4))

def storeWord (address value : Int) (line : Option Int) : InPlace Memory.Rows Unit := do
  checkWord address line
  modify fun r => { r with values := splice r.values address (address + 4) (Word.encode value) }
  modify fun r => { r with
    kinds := splice r.kinds address (address + 4) (List.replicate 4 CellKind.data) }

section Run

variable {m : Memory} {address : Int}

theorem run_checkWord_of_covers (h : m.Covers address) (line : Option Int) :
    (checkWord address line).run m.rows = .ok () m.rows := by
  rw [Memory.covers_iff] at h
  have hno : ¬ (address < 0 ∨ (m.rows.values.length : Int) < address + 4) := by
    rw [Memory.values_rows, Memory.length_values]
    omega
  rw [checkWord, run_look, if_neg hno]

theorem run_checkWord_of_not_covers (h : ¬ m.Covers address) (line : Option Int) :
    (checkWord address line).run m.rows = .error (m.outside address line) m.rows := by
  rw [Memory.covers_iff] at h
  have hyes : address < 0 ∨ (m.rows.values.length : Int) < address + 4 := by
    rw [Memory.values_rows, Memory.length_values]
    omega
  rw [checkWord, run_look, if_pos hyes, Memory.values_rows, Memory.length_values, Memory.outside]

theorem run_fetchWord (m : Memory) (address : Int) (line : Option Int) :
    (fetchWord address line).run m.rows = match m.readWord address line with
      | .ok w => .ok w m.rows
      | .error f => .error f m.rows := by
  by_cases h : m.Covers address
  · obtain ⟨n, rfl⟩ := Int.eq_ofNat_of_zero_le h.1
    have hn : n + 4 ≤ m.values.length := by
      have := (Memory.covers_iff.1 h).2
      rw [Memory.length_values]
      omega
    rw [Memory.readWord_of_covers h, Memory.bytesAt_eq, Int.toNat_natCast, ← slice_word hn]
    simp only [fetchWord, EStateM.run_bind, run_checkWord_of_covers h]
    rfl
  · simp [fetchWord, run_checkWord_of_not_covers h, Memory.readWord_of_not_covers h]

theorem run_storeWord (m : Memory) (address value : Int) (line : Option Int) :
    (storeWord address value line).run m.rows = match m.writeWord address value line with
      | .ok m' => .ok () m'.rows
      | .error f => .error f m.rows := by
  by_cases h : m.Covers address
  · obtain ⟨m', hm⟩ := Memory.writeWord_of_covers h value line
    obtain ⟨n, rfl⟩ := Int.eq_ofNat_of_zero_le h.1
    have hn : n + 4 ≤ m.size := by
      have := (Memory.covers_iff.1 h).2
      omega
    have hrows : m'.rows = ⟨splice m.values n (n + 4) (Word.encode value),
        splice m.kinds n (n + 4) (List.replicate 4 .data)⟩ := by
      rw [Memory.rows, Memory.values_writeWord hm, Memory.kinds_writeWord hm, Int.toNat_natCast,
        splice_word (by rwa [Memory.length_values]) (Word.length_encode value),
        splice_word (by rwa [Memory.length_kinds]) (List.length_replicate ..)]
    rw [hm]
    simp [storeWord, run_checkWord_of_covers h, hrows]
  · simp [storeWord, run_checkWord_of_not_covers h, Memory.writeWord_of_not_covers h]

end Run

end InPlace

/-- A word can be read or written where all of it lies in memory. Elsewhere both fail with an error
that tells the address and the size, or, for an address too long to be written out, with the refusal
of that, and change nothing, also when the rows of memory are changed in place; a word that can be
written is then `Written`. -/
theorem word_access_laws (m : Memory) (address value : Int) (line : Option Int) :
    ((∃ w, m.readWord address line = .ok w) ↔ 0 ≤ address ∧ address + 4 ≤ m.size)
      ∧ ((∃ m', m.writeWord address value line = .ok m') ↔ 0 ≤ address ∧ address + 4 ≤ m.size)
      ∧ (¬ (0 ≤ address ∧ address + 4 ≤ m.size) →
        let f : Failure :=
          if Numeral.isWritable address = true ∨ 0 ≤ address ∧ address ≤ m.size then
            .diagnostic ⟨.memoryAccess address m.size, line⟩
          else .refusal .numberTooLong
        m.readWord address line = .error f ∧ m.writeWord address value line = .error f
          ∧ (InPlace.fetchWord address line).run m.rows = .error f m.rows
          ∧ (InPlace.storeWord address value line).run m.rows = .error f m.rows)
      ∧ (∀ w, m.readWord address line = .ok w →
        (InPlace.fetchWord address line).run m.rows = .ok w m.rows)
      ∧ ∀ m', m.writeWord address value line = .ok m' →
        (InPlace.storeWord address value line).run m.rows = .ok () m'.rows
          ∧ Memory.Written m address value m' := by
  refine ⟨Memory.exists_readWord_iff, Memory.exists_writeWord_iff, fun h => ?_, fun w hw => ?_,
    fun m' hm => ⟨?_, Memory.written_of_writeWord hm⟩⟩
  · rw [← m.outside_eq address line]
    have hread := Memory.readWord_of_not_covers h line
    have hwrite := Memory.writeWord_of_not_covers h value line
    refine ⟨hread, hwrite, ?_, ?_⟩
    · rw [InPlace.run_fetchWord, hread]
    · rw [InPlace.run_storeWord, hwrite]
  · rw [InPlace.run_fetchWord, hw]
  · rw [InPlace.run_storeWord, hm]

/-- A word over the last two bytes of one word and the first two of the next, and addresses just
outside of memory. -/
theorem word_access_laws_across :
    ∃ m m' : Memory, m = Memory.appendWords {} [0x01020304, 0x05060708]
      ∧ m.writeWord 2 (-2) none = .ok m' ∧ m'.readWord 2 none = .ok (-2)
      ∧ m'.readWord 0 none = .ok (Word.decode [1, 2, 0xFF, 0xFF])
      ∧ m.readWord 5 none = .error (.diagnostic ⟨.memoryAccess 5 8, none⟩)
      ∧ m.readWord (-4) none = .error (.diagnostic ⟨.memoryAccess (-4) 8, none⟩) := by
  obtain ⟨m, hm⟩ : ∃ m, m = Memory.appendWords {} [0x01020304, 0x05060708] := ⟨_, rfl⟩
  have hsize : m.size = 8 := by
    rw [hm]
    decide
  have hvalues : m.values = [1, 2, 3, 4, 5, 6, 7, 8] := by
    rw [hm]
    decide
  obtain ⟨-, hcan, -, -, hafter⟩ := word_access_laws m 2 (-2) none
  obtain ⟨m', hm'⟩ := hcan.2 (by rw [hsize]; decide)
  have hwritten := (hafter m' hm').2
  obtain ⟨bytes, hlen, hread, hbytes⟩ :=
    hwritten.overlap 0 none (by decide) (by decide) (by rw [hsize]; decide)
  have hmixed : bytes = [1, 2, 0xFF, 0xFF] := by
    apply List.ext_getElem?
    intro i
    rcases Nat.lt_or_ge i 4 with hi | hi
    · rw [hbytes i hi, hvalues]
      interval_cases i <;> decide
    · rw [List.getElem?_eq_none (by omega), List.getElem?_eq_none hi]
  have hoff := (word_access_laws m 5 0 none).2.2.1 (by rw [hsize]; decide)
  have hbelow := (word_access_laws m (-4) 0 none).2.2.1 (by rw [hsize]; decide)
  rw [hsize, if_pos (.inl (by decide +kernel))] at hoff hbelow
  exact ⟨m, m', hm, hm', hwritten.read none, hmixed ▸ hread, hoff.1, hbelow.1⟩

/-- An address with one digit too many is refused when its error would tell it. -/
theorem word_access_too_far :
    let far : Int := Nat.pow 10 Numeral.maxDigits
    ¬ (0 ≤ far ∧ far + 4 ≤ ({} : Memory).size)
      ∧ Memory.readWord {} far none = .error (.refusal .numberTooLong)
      ∧ Memory.writeWord {} far 0 none = .error (.refusal .numberTooLong) := by
  decide +kernel

end WordMachine
