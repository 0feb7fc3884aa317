/-!
# Lines of a text

A text is cut into lines at line feeds only, and there is always one line more than there are line
feeds. Carriage returns are turned into line feeds beforehand where a file is read.
-/

namespace WordMachine.Text

/-- The pieces between the occurrences of a separator: one more than there are separators. -/
def splitAtChar (sep : Char) (cs : List Char) : List (List Char) :=
  let pieces := cs.foldr
    (fun c p => if c = sep then ([], p.1 :: p.2) else (c :: p.1, p.2)) ([], [])
  pieces.1 :: pieces.2

/-- The lines of a text. -/
def lines (text : String) : List String :=
  (splitAtChar '\n' text.toList).map String.ofList

/-- Every line ending, be it a line feed, a carriage return or the two together, as a line feed. -/
def unifyLineEnds (cs : List Char) : List Char :=
  (cs.foldr
    (fun c p =>
      if c = '\n' then ('\n' :: p.1, true)
      else if c = '\r' then (if p.2 then p.1 else '\n' :: p.1, false)
      else (c :: p.1, false))
    (([], false) : List Char × Bool)).1

theorem splitAtChar_ne_nil (sep : Char) (cs : List Char) : splitAtChar sep cs ≠ [] := by
  simp [splitAtChar]

@[simp] theorem splitAtChar_nil (sep : Char) : splitAtChar sep [] = [[]] := rfl

theorem splitAtChar_cons_self (sep : Char) (cs : List Char) :
    splitAtChar sep (sep :: cs) = [] :: splitAtChar sep cs := by
  simp [splitAtChar]

/-- No piece holds the separator. -/
theorem not_mem_of_mem_splitAtChar {sep : Char} {cs piece : List Char}
    (h : piece ∈ splitAtChar sep cs) : sep ∉ piece := by
  induction cs generalizing piece with
  | nil =>
    simp only [splitAtChar_nil, List.mem_singleton] at h
    simp [h]
  | cons c cs ih =>
    by_cases hc : c = sep
    · subst hc
      rw [splitAtChar_cons_self] at h
      rcases List.mem_cons.1 h with rfl | h
      · simp
      · exact ih h
    · simp only [splitAtChar, List.foldr_cons, if_neg hc, List.mem_cons] at h ih
      rcases h with rfl | h
      · have := ih (Or.inl rfl)
        simp [this, Ne.symm hc]
      · exact ih (Or.inr h)

end WordMachine.Text
