import WordMachine.Memory

/-!
# Words laid over memory

Memory can be seen as two lists that run side by side, the values of its cells and their kinds. A
word written into it takes the place of four values and of four kinds, at the same address
(`values_writeWord`, `kinds_writeWord`), and outside of the word both lists are what they were
(`getElem?_overlay_outside`). What is laid over the same place hides what was there
(`overlay_overlay_self`), and what is laid over places apart can be laid in either order
(`overlay_comm`).
-/

namespace WordMachine

variable {α β : Type}

/-- A list with new elements in the place of as many of its own. -/
def overlay (xs : List α) (place : Nat) (new : List α) : List α :=
  xs.take place ++ new ++ xs.drop (place + new.length)

section Overlay

variable {xs new : List α} {place i : Nat}

theorem map_overlay (f : α → β) (xs new : List α) (place : Nat) :
    (overlay xs place new).map f = overlay (xs.map f) place (new.map f) := by
  simp [overlay]

variable (h : place + new.length ≤ xs.length)
include h

theorem getElem?_overlay_inside (hle : place ≤ i) (hlt : i < place + new.length) :
    (overlay xs place new)[i]? = new[i - place]? := by
  have htake : (xs.take place).length = place := by simp; omega
  rw [overlay, List.getElem?_append_left (by simp only [List.length_append]; omega),
    List.getElem?_append_right (by omega), htake]

theorem getElem?_overlay_outside (hi : i < place ∨ place + new.length ≤ i) :
    (overlay xs place new)[i]? = xs[i]? := by
  have htake : (xs.take place).length = place := by simp; omega
  rcases hi with hi | hi
  · rw [overlay, List.getElem?_append_left (by simp only [List.length_append]; omega),
      List.getElem?_append_left (by omega), List.getElem?_take_of_lt hi]
  · rw [overlay, List.getElem?_append_right (by simp only [List.length_append]; omega),
      List.getElem?_drop, List.length_append, htake]
    congr 1
    omega

theorem getElem?_overlay (i : Nat) :
    (overlay xs place new)[i]?
      = if place ≤ i ∧ i < place + new.length then new[i - place]? else xs[i]? := by
  by_cases hi : place ≤ i ∧ i < place + new.length
  · rw [if_pos hi, getElem?_overlay_inside h hi.1 hi.2]
  · rw [if_neg hi, getElem?_overlay_outside h (by omega)]

theorem length_overlay : (overlay xs place new).length = xs.length := by
  simp only [overlay, List.length_append, List.length_take, List.length_drop]
  omega

/-- Of two lists laid over the same place, the later one is seen. -/
theorem overlay_overlay_self {new' : List α} (hlen : new'.length = new.length) :
    overlay (overlay xs place new) place new' = overlay xs place new' := by
  apply List.ext_getElem?
  intro i
  rw [getElem?_overlay (by rw [length_overlay h, hlen]; exact h), getElem?_overlay h,
    getElem?_overlay (by rw [hlen]; exact h), hlen]
  by_cases hi : place ≤ i ∧ i < place + new.length <;> simp [hi]

/-- Lists laid over places apart from each other are seen both, whichever comes first. -/
theorem overlay_comm {new' : List α} {place' : Nat} (h' : place' + new'.length ≤ xs.length)
    (hapart : place + new.length ≤ place' ∨ place' + new'.length ≤ place) :
    overlay (overlay xs place new) place' new' = overlay (overlay xs place' new') place new := by
  apply List.ext_getElem?
  intro i
  rw [getElem?_overlay (by rw [length_overlay h]; exact h'), getElem?_overlay h,
    getElem?_overlay (by rw [length_overlay h']; exact h), getElem?_overlay h']
  by_cases hi : place' ≤ i ∧ i < place' + new'.length
  · have hno : ¬ (place ≤ i ∧ i < place + new.length) := by omega
    rw [if_pos hi, if_neg hno, if_pos hi]
  · rw [if_neg hi, if_neg hi]

end Overlay

namespace Memory

variable {m m' : Memory} {address value : Int} {line : Option Int}

theorem toList_overwrite : ∀ (new : List Cell) (cells : Array Cell) (place : Nat),
    place + new.length ≤ cells.size →
      (overwrite cells place new).toList = overlay cells.toList place new
  | [], cells, place, _ => by simp [overwrite, overlay]
  | c :: new, cells, place, h => by
    rw [List.length_cons] at h
    have hlt : place < cells.toList.length := by simp only [Array.length_toList]; omega
    rw [overwrite, toList_overwrite new _ _ (by simp only [Array.size_setIfInBounds]; omega),
      Array.toList_setIfInBounds]
    -- the element just set is the last of those before the place reached
    have htake : (cells.toList.set place c).take (place + 1) = cells.toList.take place ++ [c] := by
      rw [List.take_add_one, List.take_set_of_le (Nat.le_refl place), List.getElem?_set_self hlt]
      rfl
    have hdrop : (cells.toList.set place c).drop (place + 1 + new.length)
        = cells.toList.drop (place + (c :: new).length) := by
      rw [List.drop_set_of_lt (by omega), List.length_cons]
      congr 1
      omega
    rw [overlay, overlay, htake, hdrop]
    simp

theorem length_values (m : Memory) : m.values.length = m.size := by simp [values, size]

theorem length_kinds (m : Memory) : m.kinds.length = m.size := by simp [kinds, size]

theorem covers_of_writeWord (h : m.writeWord address value line = .ok m') : m.Covers address := by
  unfold writeWord at h
  split at h
  · assumption
  · cases h

theorem cells_of_writeWord (h : m.writeWord address value line = .ok m') :
    address.toNat + 4 ≤ m.size
      ∧ m'.cells.toList = overlay m.cells.toList address.toNat (Cell.ofWord value) := by
  unfold writeWord at h
  split at h
  · rename_i hc
    cases h
    simp only [Covers, Word.bytes] at hc
    have hsize : address.toNat + (Cell.ofWord value).length ≤ m.cells.size := by
      rw [length_ofWord]
      unfold size at hc
      omega
    exact ⟨by omega, toList_overwrite _ _ _ hsize⟩
  · cases h

theorem values_writeWord (h : m.writeWord address value line = .ok m') :
    m'.values = overlay m.values address.toNat (Word.encode value) := by
  unfold values
  rw [(cells_of_writeWord h).2, map_overlay]
  simp [Cell.ofWord, Function.comp_def]

theorem kinds_writeWord (h : m.writeWord address value line = .ok m') :
    m'.kinds = overlay m.kinds address.toNat (List.replicate 4 .data) := by
  have hdata : (Cell.ofWord value).map Cell.kind = List.replicate 4 .data := rfl
  unfold kinds
  rw [(cells_of_writeWord h).2, map_overlay, hdata]

end Memory

end WordMachine
