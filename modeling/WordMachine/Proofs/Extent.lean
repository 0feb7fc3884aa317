import WordMachine.Layout

/-!
# Addresses as sums of sizes

The extent of a list of statements is the room they take together. A program is placed when every
statement's address is the extent of the statements before it. The search for a jump's target gives
the place of a statement that takes room, and the address is the extent of those before it
(`target?_some`); every statement that takes room is found in this way (`target?_of_getElem?`).
-/

namespace WordMachine

/-- The room that statements take together. -/
def extent (program : List Statement) : Int := program.foldr (fun s n => s.size + n) 0

@[simp] theorem extent_nil : extent [] = 0 := rfl

@[simp] theorem extent_cons (s : Statement) (program : List Statement) :
    extent (s :: program) = s.size + extent program := rfl

theorem Layout.size_eq_extent (l : Layout) : l.size = extent l.statements := rfl

@[simp] theorem extent_append : ∀ p q : List Statement, extent (p ++ q) = extent p + extent q
  | [], q => by simp
  | s :: p, q => by
    simp only [List.cons_append, extent_cons, extent_append p q]
    omega

theorem extent_take_succ {program : List Statement} {n : Nat} {s : Statement}
    (h : program[n]? = some s) :
    extent (program.take (n + 1)) = extent (program.take n) + s.size := by
  rw [List.take_add_one, h]
  simp

/-- Every statement's address is the room taken by those before it. -/
def Placed (program : List Statement) : Prop :=
  ∀ i s, program[i]? = some s → s.address = extent (program.take i)

theorem placed_nil : Placed [] := by
  intro i s h
  simp at h

/-- A program stays placed when its next statement is given the address reached. -/
theorem Placed.push {program : List Statement} (h : Placed program) {s : Statement}
    (hs : s.address = extent program) : Placed (program ++ [s]) := by
  intro i t ht
  rcases Nat.lt_or_ge i program.length with hi | hi
  · rw [List.getElem?_append_left hi] at ht
    rw [List.take_append_of_le_length (Nat.le_of_lt hi)]
    exact h i t ht
  · rw [List.getElem?_append_right hi] at ht
    obtain ⟨hi', rfl⟩ : i = program.length ∧ s = t := by
      rcases hk : i - program.length with _ | k <;> rw [hk] at ht <;> simp at ht
      exact ⟨by omega, ht⟩
    rw [hi', List.take_left]
    exact hs

/-- What the search finds takes room, and the address is where it starts. -/
theorem targetFrom?_some {address : Int} :
    ∀ {program : List Statement} {boundary : Int} {place i : Nat},
      targetFrom? address boundary place program = some i →
      ∃ k s, i = place + k ∧ program[k]? = some s ∧ 0 < s.size
        ∧ address = boundary + extent (program.take k)
  | [], boundary, place, i, h => by simp [targetFrom?] at h
  | s :: rest, boundary, place, i, h => by
    unfold targetFrom? at h
    split at h
    · rename_i hs
      cases h
      exact ⟨0, s, rfl, rfl, hs.1, by simp [hs.2]⟩
    · split at h
      · cases h
      · obtain ⟨k, t, hi, ht, hpos, ha⟩ := targetFrom?_some h
        refine ⟨k + 1, t, by omega, by simpa using ht, hpos, ?_⟩
        rw [List.take_succ_cons, extent_cons]
        omega

theorem target?_some {program : List Statement} {address : Int} {place : Nat}
    (h : target? program address = some place) :
    ∃ s, program[place]? = some s ∧ 0 < s.size ∧ address = extent (program.take place) := by
  obtain ⟨k, s, hk, hs, hpos, ha⟩ := targetFrom?_some h
  rw [Nat.zero_add] at hk
  subst hk
  exact ⟨s, hs, hpos, by omega⟩

theorem extent_nonneg : ∀ {program : List Statement}, (∀ s ∈ program, 0 ≤ s.size) →
    0 ≤ extent program
  | [], _ => Int.le_refl 0
  | s :: program, h => by
    have := extent_nonneg fun s' hs' => h s' (List.mem_cons_of_mem s hs')
    have := h s List.mem_cons_self
    rw [extent_cons]
    omega

theorem extent_take_mono {program : List Statement} (h : ∀ s ∈ program, 0 ≤ s.size) {i j : Nat}
    (hij : i ≤ j) : extent (program.take i) ≤ extent (program.take j) := by
  have hrest : 0 ≤ extent ((program.drop i).take (j - i)) :=
    extent_nonneg fun s hs => h s (List.mem_of_mem_drop (List.mem_of_mem_take hs))
  rw [show j = i + (j - i) by omega, List.take_add, extent_append]
  omega

/-- A statement that takes room is found where it starts. -/
theorem targetFrom?_of_getElem? : ∀ {program : List Statement} {boundary : Int} {place k : Nat}
    {s : Statement}, (∀ s ∈ program, 0 ≤ s.size) → program[k]? = some s → 0 < s.size →
      targetFrom? (boundary + extent (program.take k)) boundary place program = some (place + k)
  | s₀ :: rest, boundary, place, 0, s, _, hs, hpos => by
    cases hs
    simp [targetFrom?, hpos]
  | s₀ :: rest, boundary, place, k + 1, s, hsizes, hs, hpos => by
    have hrest : ∀ s ∈ rest, 0 ≤ s.size := fun s' hs' => hsizes s' (List.mem_cons_of_mem s₀ hs')
    have hnonneg : 0 ≤ extent (rest.take k) :=
      extent_nonneg fun s' hs' => hrest s' (List.mem_of_mem_take hs')
    have hfirst := hsizes s₀ List.mem_cons_self
    rw [List.take_succ_cons, extent_cons, ← Int.add_assoc]
    unfold targetFrom?
    rw [if_neg (by omega), if_neg (by omega),
      targetFrom?_of_getElem? (k := k) hrest (by simpa using hs) hpos]
    congr 1
    omega

theorem target?_of_getElem? {program : List Statement} {k : Nat} {s : Statement}
    (hsizes : ∀ s ∈ program, 0 ≤ s.size) (hs : program[k]? = some s) (hpos : 0 < s.size) :
    target? program (extent (program.take k)) = some k := by
  have hfrom : targetFrom? (0 + extent (program.take k)) 0 0 program = some (0 + k) :=
    targetFrom?_of_getElem? hsizes hs hpos
  rwa [Int.zero_add, Nat.zero_add] at hfrom

end WordMachine
