import Mathlib.Data.List.TakeWhile
import Mathlib.Data.Nat.Digits.Defs
import WordMachine.Chunk
import WordMachine.Proofs.Outcome
import WordMachine.Statement

/-!
# What a declaration says

`Declares` tells what the operand of a declaration stands for without saying how it is read: a star
divides a count from what is counted, a count is a numeral, and the value of a constant is the first
number of its text. Whether there is room for a chunk does not depend on the image it is added to
(`addTo_eq`), so an operand is granted a chunk exactly when it declares one (`grant_eq_ok_iff`), and
otherwise the fault is charged to its line, or a number in it or the room it asks for is refused
(`grant_error`).
-/

namespace WordMachine

open Text

namespace Text

section Pieces

variable {sep : Char}

theorem splitAtChar_cons_of_ne {c : Char} (h : c ≠ sep) (cs : List Char) :
    ∃ p ps, splitAtChar sep cs = p :: ps ∧ splitAtChar sep (c :: cs) = (c :: p) :: ps := by
  refine ⟨_, _, rfl, ?_⟩
  simp [splitAtChar, h]

/-- Pieces joined by the separator give the text back. -/
theorem eq_of_splitAtChar : ∀ {cs a : List Char} {rest : List (List Char)},
    splitAtChar sep cs = a :: rest → cs = a ++ rest.flatMap (sep :: ·)
  | [], a, rest, h => by
    rw [splitAtChar_nil] at h
    cases h
    rfl
  | c :: cs, a, rest, h => by
    by_cases hc : c = sep
    · rw [hc, splitAtChar_cons_self] at h
      cases h
      rcases hs : splitAtChar sep cs with _ | ⟨p, ps⟩
      · exact absurd hs (splitAtChar_ne_nil sep cs)
      · rw [eq_of_splitAtChar hs, hc]
        simp
    · obtain ⟨p, ps, hs, hcs⟩ := splitAtChar_cons_of_ne hc cs
      rw [hcs] at h
      cases h
      rw [eq_of_splitAtChar hs]
      rfl

theorem splitAtChar_append : ∀ {a : List Char}, sep ∉ a → ∀ b : List Char,
    splitAtChar sep (a ++ sep :: b) = a :: splitAtChar sep b
  | [], _, b => splitAtChar_cons_self sep b
  | c :: a, h, b => by
    rw [List.mem_cons, not_or] at h
    obtain ⟨p, ps, hs, hcs⟩ := splitAtChar_cons_of_ne (Ne.symm h.1) (a ++ sep :: b)
    rw [splitAtChar_append h.2 b] at hs
    cases hs
    exact hcs

theorem splitAtChar_of_not_mem : ∀ {cs : List Char}, sep ∉ cs → splitAtChar sep cs = [cs]
  | [], _ => rfl
  | c :: cs, h => by
    rw [List.mem_cons, not_or] at h
    obtain ⟨p, ps, hs, hcs⟩ := splitAtChar_cons_of_ne (Ne.symm h.1) cs
    rw [splitAtChar_of_not_mem h.2] at hs
    cases hs
    exact hcs

/-- Pieces without the separator come back when they are joined by it. -/
theorem splitAtChar_intercalate : ∀ {ps : List (List Char)}, ps ≠ [] → (∀ p ∈ ps, sep ∉ p) →
    splitAtChar sep ([sep].intercalate ps) = ps
  | [p], _, h => by
    rw [List.intercalate_singleton, splitAtChar_of_not_mem (h p List.mem_cons_self)]
  | p :: q :: ps, _, h => by
    rw [List.intercalate_cons_cons, List.append_assoc, List.singleton_append,
      splitAtChar_append (h p List.mem_cons_self),
      splitAtChar_intercalate (List.cons_ne_nil q ps) fun r hr => h r (List.mem_cons_of_mem p hr)]

end Pieces

/-- Decimal digits, at least one and no more than are converted, and the number they stand for. -/
structure IsNumeral (text : List Char) (n : Nat) : Prop where
  ne_nil : text ≠ []
  decimal : ∀ c ∈ text, isDecimal c = true
  length_le : text.length ≤ Numeral.maxDigits
  value : n = Numeral.ofDigits (text.filterMap decimalDigit?)

theorem read_eq_ok_iff {text : List Char} {n : Nat} :
    Numeral.read text = .ok n ↔ IsNumeral text n := by
  have hall : (text.all isDecimal && !text.isEmpty) = true
      ↔ (∀ c ∈ text, isDecimal c = true) ∧ text ≠ [] := by
    simp
  unfold Numeral.read
  simp only [hall]
  constructor
  · intro h
    split_ifs at h with hlen hdec
    cases h
    rw [List.takeWhile_eq_self_iff.2 hdec.1] at hlen ⊢
    exact ⟨hdec.2, hdec.1, by omega, rfl⟩
  · rintro ⟨hne, hdec, hlen, rfl⟩
    rw [List.takeWhile_eq_self_iff.2 hdec, if_neg (by omega), if_pos ⟨hdec, hne⟩]

theorem ofDigits_eq (digits : List Nat) :
    Numeral.ofDigits digits = Nat.ofDigits 10 digits.reverse := by
  rw [Nat.ofDigits_eq_foldr, List.foldr_reverse]
  unfold Numeral.ofDigits
  congr 1
  funext n d
  simp only [Nat.cast_id]
  omega

/-- A numeral has no more digits than can be written out. -/
theorem IsNumeral.isWritable {text : List Char} {n : Nat} (h : IsNumeral text n) :
    Numeral.isWritable n = true := by
  have hdigits : ∀ d ∈ (text.filterMap decimalDigit?).reverse, d < 10 := by
    intro d hd
    obtain ⟨c, -, hc⟩ := List.mem_filterMap.1 (List.mem_reverse.1 hd)
    exact decimalDigit?_lt hc
  have hlt : n < 10 ^ (text.filterMap decimalDigit?).length := by
    rw [h.value, ofDigits_eq, ← List.length_reverse]
    exact Nat.ofDigits_lt_base_pow_length (by decide) hdigits
  have hlen := (List.length_filterMap_le decimalDigit? text).trans h.length_le
  have hpow : ∀ j k : Nat, j ≤ k → 10 ^ j ≤ Nat.pow 10 k := fun _ _ =>
    Nat.pow_le_pow_right (by decide)
  unfold Numeral.isWritable Numeral.writeLimit
  rw [Int.natAbs_natCast]
  exact decide_eq_true (hlt.trans_le (hpow _ _ hlen))

end Text

/-! ## Room -/

/-- Why room for so many cells is refused. -/
def Memory.refusal? (size : Nat) : Option Refusal :=
  if indexLimit ≤ size then some .countTooLarge
  else if maxRoom < size then some .roomTooLarge
  else none

theorem Memory.reserve_natCast (m : Memory) (size : Nat) (cell : Cell) :
    m.reserve size cell
      = match refusal? size with
        | some r => .error r
        | none => .ok (m.append (List.replicate size cell)) := by
  have hsized : isIndexSized (size : Int) = decide (size < indexLimit) := by
    simp only [isIndexSized, Bool.and_eq_decide, decide_eq_true_eq, decide_eq_decide]
    omega
  unfold reserve refusal?
  rw [hsized]
  by_cases hcount : indexLimit ≤ size
  · simp [hcount]
  · by_cases hroom : maxRoom < size
    · simp [hcount, hroom]
    · simp [hcount, hroom]

namespace Chunk

/-- Why an image refuses a chunk. -/
def refusal? : Chunk → Option Refusal
  | words count _ => if indexLimit ≤ count then some .countTooLarge else none
  | zeros count => Memory.refusal? (count * Word.bytes)
  | code size => Memory.refusal? size

/-- A chunk for which there is room. -/
def granted (c : Chunk) : Except Failure Chunk :=
  match c.refusal? with
  | some r => .error (.refusal r)
  | none => .ok c

/-- An image refuses a chunk for its size alone, and else the cells of the chunk come at its end. -/
theorem addTo_eq (m : Memory) (c : Chunk) :
    c.addTo m
      = match c.refusal? with
        | some r => .error r
        | none => .ok (m.append c.cells) := by
  cases c with
  | words count value =>
    simp only [addTo, refusal?, cells, Memory.appendWords, List.flatMap_replicate]
    split_ifs <;> rfl
  | zeros count => exact m.reserve_natCast (count * Word.bytes) ⟨0, .data⟩
  | code size => exact m.reserve_natCast size .room

theorem granted_eq_ok_iff {c c' : Chunk} : c.granted = .ok c' ↔ c.refusal? = none ∧ c' = c := by
  unfold granted
  cases c.refusal? <;> simp [eq_comm]

theorem granted_eq_error_iff {c : Chunk} {f : Failure} :
    c.granted = .error f ↔ ∃ r, c.refusal? = some r ∧ f = .refusal r := by
  unfold granted
  cases c.refusal? <;> simp [eq_comm]

theorem granted_refusal_iff {c : Chunk} :
    (∃ r, c.granted = .error (.refusal r)) ↔ c.refusal? ≠ none := by
  unfold granted
  cases c.refusal? <;> simp

theorem refusal?_cases {c : Chunk} {r : Refusal} (h : c.refusal? = some r) :
    r = .countTooLarge ∨ r = .roomTooLarge := by
  cases c <;> simp only [refusal?, Memory.refusal?] at h <;> split_ifs at h <;> cases h <;> simp

theorem refusal?_words {n : Nat} {v : Int} : (words n v).refusal? = none ↔ n < indexLimit := by
  simp [refusal?]

theorem refusal?_zeros {n : Nat} :
    (zeros n).refusal? = none ↔ n * Word.bytes ≤ Memory.maxRoom := by
  have hmax : Memory.maxRoom < indexLimit := by decide
  simp only [refusal?, Memory.refusal?]
  split_ifs <;> simp <;> omega

end Chunk

namespace Literal

/-- The first number of a text: a run of digits with no digit before it and none right after it,
negative when the character before it is a minus sign. -/
def FirstNumber (text : List Char) (v : Int) : Prop :=
  ∃ before digits rest n, text = before ++ digits ++ rest
    ∧ (∀ c ∈ before, isDecimal c = false) ∧ (∀ c ∈ rest.head?, isDecimal c = false)
    ∧ IsNumeral digits n ∧ v = if before.getLast? = some '-' then -(n : Int) else n

/-- How often an operand asks for what it names: once, or as often as the numeral before its star
says. -/
inductive Repeats : List Char → Nat → List Char → Prop
  | once {text : List Char} (htext : '*' ∉ text) : Repeats text 1 text
  | times {count text : List Char} {n : Nat} (hcount : '*' ∉ count) (htext : '*' ∉ text)
    (hn : IsNumeral count n) : Repeats (count ++ '*' :: text) n text

/-- The chunk that the operand of a declaration asks for, whether or not there is room for it. -/
inductive AsksFor : DataOp → List Char → Chunk → Prop
  | constant {operand text : List Char} {n : Nat} {v : Int} (hrep : Repeats operand n text)
    (hv : FirstNumber text v) (hfits : Word.Fits v) : AsksFor .constant operand (.words n v)
  | space {operand text : List Char} {n : Nat} (hrep : Repeats operand n text) :
    AsksFor .space operand (.zeros n)

/-- The chunk that the operand of a declaration stands for. -/
inductive Declares : DataOp → List Char → Chunk → Prop
  | constant {operand text : List Char} {n : Nat} {v : Int} (hrep : Repeats operand n text)
    (hn : n < indexLimit) (hv : FirstNumber text v) (hfits : Word.Fits v) :
    Declares .constant operand (.words n v)
  | space {operand text : List Char} {n : Nat} (hrep : Repeats operand n text)
    (hn : n * Word.bytes ≤ Memory.maxRoom) : Declares .space operand (.zeros n)

theorem Repeats.splitAtChar_eq {operand text : List Char} {n : Nat} (h : Repeats operand n text) :
    (splitAtChar '*' operand = [text] ∧ n = 1)
      ∨ ∃ count, splitAtChar '*' operand = [count, text] ∧ IsNumeral count n := by
  cases h with
  | once htext => exact .inl ⟨splitAtChar_of_not_mem htext, rfl⟩
  | @times count _ _ hcount htext hn =>
    refine .inr ⟨count, ?_, hn⟩
    rw [splitAtChar_append hcount, splitAtChar_of_not_mem htext]

/-- An operand says in one way only how often it asks for what it names. -/
theorem Repeats.unique {operand text text' : List Char} {n n' : Nat} (h : Repeats operand n text)
    (h' : Repeats operand n' text') : n = n' := by
  rcases h.splitAtChar_eq with ⟨hs, rfl⟩ | ⟨count, hs, hn⟩ <;>
    rcases h'.splitAtChar_eq with ⟨hs', rfl⟩ | ⟨count', hs', hn'⟩
  · rfl
  · simp [hs] at hs'
  · simp [hs] at hs'
  · obtain ⟨rfl, -⟩ : count = count' ∧ text = text' := by simpa [hs] using hs'
    rw [hn.value, hn'.value]

section Number

variable {text : List Char} {line : Int}

theorem find?_eq_some_iff {negative : Bool} {digits : List Char} :
    find? text = some (negative, digits) ↔ ∃ before rest, text = before ++ digits ++ rest
      ∧ (∀ c ∈ before, isDecimal c = false) ∧ (∀ c ∈ rest.head?, isDecimal c = false)
      ∧ digits ≠ [] ∧ (∀ c ∈ digits, isDecimal c = true)
      ∧ negative = (before.getLast? == some '-') := by
  unfold find?
  constructor
  · intro h
    simp only [Option.ite_none_left_eq_some, Option.some.injEq, Prod.mk.injEq] at h
    obtain ⟨hne, rfl, rfl⟩ := h
    refine ⟨text.takeWhile (!isDecimal ·), (text.dropWhile (!isDecimal ·)).dropWhile isDecimal,
      ?_, ?_, ?_, by simpa using hne, ?_, rfl⟩
    · rw [List.append_assoc, List.takeWhile_append_dropWhile, List.takeWhile_append_dropWhile]
    · intro c hc
      simpa using List.mem_takeWhile_imp hc
    · intro c hc
      have := List.head?_dropWhile_not isDecimal (text.dropWhile (!isDecimal ·))
      rw [Option.mem_def.1 hc] at this
      exact this
    · intro c hc
      exact List.mem_takeWhile_imp hc
  · rintro ⟨before, rest, rfl, hbefore, hrest, hne, hdigits, rfl⟩
    obtain ⟨d, ds, rfl⟩ := List.exists_cons_of_ne_nil hne
    have hd : isDecimal d = true := hdigits d List.mem_cons_self
    have hskip : ∀ c ∈ before, (!isDecimal c) = true := fun c hc => by simp [hbefore c hc]
    have hstop : rest.takeWhile isDecimal = [] := by
      rcases rest with _ | ⟨c, rest⟩
      · rfl
      · simp [hrest c rfl]
    rw [List.append_assoc, List.takeWhile_append_of_pos hskip, List.dropWhile_append_of_pos hskip,
      List.cons_append, List.takeWhile_cons_of_neg (by simp [hd]),
      List.dropWhile_cons_of_neg (by simp [hd]), ← List.cons_append,
      List.takeWhile_append_of_pos hdigits, hstop]
    simp

theorem value_eq_ok_iff {v : Int} :
    value text line = .ok v ↔ FirstNumber text v ∧ Word.Fits v := by
  unfold value
  constructor
  · intro h
    rcases hf : find? text with _ | ⟨negative, digits⟩ <;> rw [hf] at h
    · cases h
    · obtain ⟨before, rest, htext, hbefore, hrest, -, -, rfl⟩ := find?_eq_some_iff.1 hf
      rcases hr : Numeral.read digits with e | n
      · simp [hr] at h
      · simp only [hr] at h
        split_ifs at h with hneg hfits hfits <;> cases h
        · exact ⟨⟨before, digits, rest, n, htext, hbefore, hrest, read_eq_ok_iff.1 hr,
            by rw [if_pos (by simpa using hneg)]⟩, hfits⟩
        · exact ⟨⟨before, digits, rest, n, htext, hbefore, hrest, read_eq_ok_iff.1 hr,
            by rw [if_neg (by simpa using hneg)]⟩, hfits⟩
  · rintro ⟨⟨before, digits, rest, n, htext, hbefore, hrest, hn, rfl⟩, hfits⟩
    have hf := find?_eq_some_iff.2
      ⟨before, rest, htext, hbefore, hrest, hn.ne_nil, hn.decimal, rfl⟩
    simp only [hf, read_eq_ok_iff.2 hn, beq_iff_eq]
    rw [if_pos hfits]

theorem count_eq_ok_iff {n : Nat} : count text line = .ok n ↔ IsNumeral text n := by
  unfold count
  constructor
  · intro h
    split_ifs at h
    rcases hr : Numeral.read text with e | n' <;> rw [hr] at h <;> cases h
    exact read_eq_ok_iff.1 hr
  · intro hn
    have hlike : ¬ (text.isEmpty || !text.all isDigitLike) = true := by
      simp only [Bool.or_eq_true, List.isEmpty_iff, Bool.not_eq_true', List.all_eq_false, not_or]
      refine ⟨hn.ne_nil, ?_⟩
      rintro ⟨c, hc, hno⟩
      exact hno (isDigitLike_of_isDecimal (hn.decimal c hc))
    rw [if_neg hlike, read_eq_ok_iff.2 hn]

end Number

section Parts

variable {operand : List Char} {line : Int}

theorem FirstNumber.ne_nil {v : Int} (h : FirstNumber operand v) : operand ≠ [] := by
  obtain ⟨before, digits, rest, n, rfl, -, -, hn, -⟩ := h
  simp [hn.ne_nil]

theorem parts_of_not_mem (hne : operand ≠ []) (h : '*' ∉ operand) : parts operand = [operand] := by
  unfold parts
  rw [if_neg (by simpa using hne), splitAtChar_of_not_mem h]

theorem parts_append {count text : List Char} (hcount : '*' ∉ count) (htext : '*' ∉ text) :
    parts (count ++ '*' :: text) = [count, text] := by
  unfold parts
  rw [if_neg (by simp), splitAtChar_append hcount, splitAtChar_of_not_mem htext]

/-- No part holds a star, and the parts joined by stars are the operand. -/
theorem eq_of_parts {a : List Char} {rest : List (List Char)} (h : parts operand = a :: rest) :
    operand = a ++ rest.flatMap ('*' :: ·) ∧ ∀ part ∈ a :: rest, '*' ∉ part := by
  unfold parts at h
  split_ifs at h
  refine ⟨eq_of_splitAtChar h, fun part hpart => ?_⟩
  rw [← h] at hpart
  exact not_mem_of_mem_splitAtChar hpart

theorem constant_eq_ok_iff {c : Chunk} :
    constant operand line = .ok c ↔ AsksFor .constant operand c := by
  unfold constant
  constructor
  · intro h
    split at h
    · cases h
    · rename_i text hparts
      obtain ⟨rfl, hstar⟩ := eq_of_parts hparts
      obtain ⟨v, hv, h⟩ := bind_eq_ok.1 h
      cases h
      obtain ⟨hnum, hfits⟩ := value_eq_ok_iff.1 hv
      simp only [List.flatMap_nil, List.append_nil]
      exact .constant (.once (hstar text (by simp))) hnum hfits
    · rename_i times text hparts
      obtain ⟨rfl, hstar⟩ := eq_of_parts hparts
      obtain ⟨n, hn, h⟩ := bind_eq_ok.1 h
      obtain ⟨v, hv, h⟩ := bind_eq_ok.1 h
      obtain ⟨hnum, hfits⟩ := value_eq_ok_iff.1 hv
      cases h
      simp only [List.flatMap_cons, List.flatMap_nil, List.append_nil]
      exact .constant (.times (hstar times (by simp)) (hstar text (by simp)) (count_eq_ok_iff.1 hn))
        hnum hfits
    · cases h
  · intro h
    cases h with
    | constant hrep hv hfits =>
      cases hrep with
      | once htext =>
        simp only [parts_of_not_mem hv.ne_nil htext, value_eq_ok_iff.2 ⟨hv, hfits⟩]
        rfl
      | times hcount htext hnum =>
        simp only [parts_append hcount htext, count_eq_ok_iff.2 hnum,
          value_eq_ok_iff.2 ⟨hv, hfits⟩]
        rfl

theorem space_eq_ok_iff {c : Chunk} :
    space operand line = .ok c ↔ AsksFor .space operand c := by
  unfold space
  constructor
  · intro h
    split at h
    · rename_i hparts
      cases h
      refine @AsksFor.space operand operand 1 (.once ?_)
      unfold parts at hparts
      split_ifs at hparts with hempty
      · rw [List.isEmpty_iff.1 hempty]
        simp
      · exact absurd hparts (splitAtChar_ne_nil '*' operand)
    · rename_i text hparts
      obtain ⟨rfl, hstar⟩ := eq_of_parts hparts
      cases h
      simp only [List.flatMap_nil, List.append_nil]
      exact .space (.once (hstar text (by simp)))
    · rename_i times text hparts
      obtain ⟨rfl, hstar⟩ := eq_of_parts hparts
      obtain ⟨n, hn, h⟩ := bind_eq_ok.1 h
      cases h
      simp only [List.flatMap_cons, List.flatMap_nil, List.append_nil]
      exact .space (.times (hstar times (by simp)) (hstar text (by simp)) (count_eq_ok_iff.1 hn))
    · cases h
  · intro h
    cases h with
    | space hrep =>
      cases hrep with
      | once htext =>
        by_cases hne : operand = []
        · subst hne
          rfl
        · rw [parts_of_not_mem hne htext]
      | times hcount htext hnum =>
        simp only [parts_append hcount htext, count_eq_ok_iff.2 hnum]
        rfl

/-- An operand declares what it asks for when there is room. -/
theorem declares_iff {op : DataOp} {c : Chunk} :
    Declares op operand c ↔ AsksFor op operand c ∧ c.refusal? = none := by
  constructor
  · intro h
    cases h with
    | constant hrep hn hv hfits => exact ⟨.constant hrep hv hfits, Chunk.refusal?_words.2 hn⟩
    | space hrep hn => exact ⟨.space hrep, Chunk.refusal?_zeros.2 hn⟩
  · rintro ⟨h, hroom⟩
    cases h with
    | constant hrep hv hfits => exact .constant hrep (Chunk.refusal?_words.1 hroom) hv hfits
    | space hrep => exact .space hrep (Chunk.refusal?_zeros.1 hroom)

end Parts

section Fault

variable {text operand : List Char} {line : Int} {f : Failure}

/-- What can be refused in an operand: a numeral, a count that is too large, or too much room. -/
def Refused (r : Refusal) : Prop := (∃ e, r = .numeral e) ∨ r = .countTooLarge ∨ r = .roomTooLarge

/-- What goes wrong with an operand is a fault of its line, or a number in it is refused. -/
def Faulty (line : Int) (f : Failure) : Prop :=
  (∃ e, f = fault line e) ∨ ∃ r, f = .refusal r ∧ Refused r

theorem value_error (h : value text line = .error f) : Faulty line f := by
  unfold value at h
  split at h
  · cases h
    exact .inl ⟨_, rfl⟩
  · split at h
    · cases h
      exact .inr ⟨_, rfl, .inl ⟨_, rfl⟩⟩
    · simp only [] at h
      split_ifs at h <;> cases h <;> exact .inl ⟨_, rfl⟩

theorem count_error (h : count text line = .error f) : Faulty line f := by
  unfold count at h
  split_ifs at h
  · cases h
    exact .inl ⟨_, rfl⟩
  · split at h
    · cases h
      exact .inr ⟨_, rfl, .inl ⟨_, rfl⟩⟩
    · cases h

theorem constant_error (h : constant operand line = .error f) : Faulty line f := by
  unfold constant at h
  split at h
  · cases h
    exact .inl ⟨_, rfl⟩
  · rcases bind_eq_error.1 h with h | ⟨v, -, h⟩
    · exact value_error h
    · cases h
  · rcases bind_eq_error.1 h with h | ⟨n, -, h⟩
    · exact count_error h
    rcases bind_eq_error.1 h with h | ⟨v, -, h⟩
    · exact value_error h
    · cases h
  · cases h
    exact .inl ⟨_, rfl⟩

theorem space_error (h : space operand line = .error f) : Faulty line f := by
  unfold space at h
  split at h
  · cases h
  · cases h
  · rcases bind_eq_error.1 h with h | ⟨n, -, h⟩
    · exact count_error h
    · cases h
  · cases h
    exact .inl ⟨_, rfl⟩

theorem granted_error {c : Chunk} (h : c.granted = .error f) : Faulty line f := by
  obtain ⟨r, hr, rfl⟩ := Chunk.granted_eq_error_iff.1 h
  exact .inr ⟨r, rfl, .inr (Chunk.refusal?_cases hr)⟩

end Fault

end Literal

/-- The operand of a line of code: its tokens run together. -/
def CodeLine.operand (l : CodeLine) : List Char := l.operands.flatMap String.toList

namespace DataOp

variable {op : DataOp} {l : CodeLine} {line : Int}

theorem chunk_eq_ok_iff {c : Chunk} :
    op.chunk l.operands line = .ok c ↔ Literal.AsksFor op l.operand c := by
  cases op with
  | constant => exact Literal.constant_eq_ok_iff
  | space => exact Literal.space_eq_ok_iff

/-- The chunk of a declaration for which there is room. -/
def grant (op : DataOp) (operands : List String) (line : Int) : Except Failure Chunk :=
  op.chunk operands line >>= Chunk.granted

theorem grant_eq_ok_iff {c : Chunk} :
    op.grant l.operands line = .ok c ↔ Literal.Declares op l.operand c := by
  rw [grant, bind_eq_ok, Literal.declares_iff]
  simp [chunk_eq_ok_iff, Chunk.granted_eq_ok_iff]

theorem grant_error {f : Failure} (h : op.grant l.operands line = .error f) :
    Literal.Faulty line f := by
  rcases bind_eq_error.1 h with h | ⟨c, -, h⟩
  · cases op with
    | constant => exact Literal.constant_error h
    | space => exact Literal.space_error h
  · exact Literal.granted_error h

end DataOp

end WordMachine
