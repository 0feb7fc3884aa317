import WordMachine.Proofs.Codec
import WordMachine.Text.Column

/-!
# Numbers in base sixteen

A number with its zeros in front is read back (`ofHex_zeroFill`), and one more place at the right is
one more digit (`zeroFill_push`), so two places are a byte (`zeroFill_byte`), and the places of a
number in base 256 are those of its bytes, one byte after the other (`zeroFill_bigEndian`).
-/

namespace WordMachine.Text

/-- The digit of a number below sixteen. -/
def hexDigit (d : Nat) : Char := d.digitChar.toUpper

/-- The number that a digit stands for. -/
def hexDigitValue (c : Char) : Nat := if c.isDigit then c.toNat - 48 else c.toNat - 55

/-- The number that digits stand for, the most significant first. -/
def ofHex (digits : List Char) : Nat := digits.foldl (fun n c => 16 * n + hexDigitValue c) 0

theorem toList_hexColumn (width n : Nat) :
    (hexColumn width n).toList = zeroFill width (upperHex n) := by
  rw [hexColumn, String.toList_ofList]

section Digits

variable {n d k width : Nat}

theorem hexDigitValue_hexDigit (h : d < 16) : hexDigitValue (hexDigit d) = d := by
  interval_cases d <;> decide

theorem upperHex_of_lt (h : d < 16) : upperHex d = [hexDigit d] := by
  rw [upperHex, Nat.toDigits_of_lt_base h]
  rfl

theorem upperHex_push (hn : 0 < n) (hd : d < 16) :
    upperHex (16 * n + d) = upperHex n ++ [hexDigit d] := by
  rw [← upperHex_of_lt hd, upperHex, ← Nat.toDigits_append_toDigits (by decide) hn hd,
    List.map_append]
  rfl

/-- Every number comes from one below sixteen by digits put at its right. -/
theorem hex_induct {motive : Nat → Prop} (small : ∀ d < 16, motive d)
    (push : ∀ n d, 0 < n → d < 16 → motive n → motive (16 * n + d)) : ∀ n, motive n := by
  intro n
  induction n using Nat.strong_induction_on with
  | h n ih =>
    rcases Nat.lt_or_ge n 16 with hn | hn
    · exact small n hn
    · rw [← Nat.div_add_mod n 16]
      exact push _ _ (by omega) (by omega) (ih _ (by omega))

theorem isAlphanum_hexDigit (h : d < 16) : (hexDigit d).isAlphanum = true := by
  interval_cases d <;> decide

theorem isAlphanum_of_mem_upperHex {c : Char} : c ∈ upperHex n → c.isAlphanum = true := by
  induction n using hex_induct with
  | small d hd =>
    intro h
    rw [upperHex_of_lt hd, List.mem_singleton] at h
    exact h ▸ isAlphanum_hexDigit hd
  | push n d hn hd ih =>
    intro h
    rw [upperHex_push hn hd, List.mem_append, List.mem_singleton] at h
    exact h.elim ih fun h => h ▸ isAlphanum_hexDigit hd

theorem isAlphanum_of_mem_zeroFill {c : Char} (h : c ∈ zeroFill width (upperHex n)) :
    c.isAlphanum = true := by
  rw [zeroFill, List.mem_append] at h
  rcases h with h | h
  · rw [(List.mem_replicate.1 h).2]
    decide
  · exact isAlphanum_of_mem_upperHex h

theorem newline_notMem_zeroFill (width n : Nat) : '\n' ∉ zeroFill width (upperHex n) := by
  intro h
  have := isAlphanum_of_mem_zeroFill h
  revert this
  decide

theorem ofHex_concat (digits : List Char) (c : Char) :
    ofHex (digits ++ [c]) = 16 * ofHex digits + hexDigitValue c := by
  simp [ofHex]

theorem ofHex_upperHex (n : Nat) : ofHex (upperHex n) = n := by
  induction n using hex_induct with
  | small d hd =>
    rw [upperHex_of_lt hd]
    simpa [ofHex] using hexDigitValue_hexDigit hd
  | push n d hn hd ih => rw [upperHex_push hn hd, ofHex_concat, ih, hexDigitValue_hexDigit hd]

theorem ofHex_zeroFill (width n : Nat) : ofHex (zeroFill width (upperHex n)) = n := by
  have hzeros : ∀ k, (List.replicate k '0').foldl (fun n c => 16 * n + hexDigitValue c) 0 = 0 := by
    intro k
    induction k with
    | zero => rfl
    | succ k ih => simpa [List.replicate_succ, hexDigitValue] using ih
  rw [zeroFill, ofHex, List.foldl_append, hzeros]
  exact ofHex_upperHex n

/-! ## Places -/

theorem zeroFill_one (h : d < 16) : zeroFill 1 (upperHex d) = [hexDigit d] := by
  rw [upperHex_of_lt h]
  rfl

theorem zeroFill_push (hk : 0 < k) (hd : d < 16) :
    zeroFill (k + 1) (upperHex (16 * n + d)) = zeroFill k (upperHex n) ++ [hexDigit d] := by
  rcases Nat.eq_zero_or_pos n with rfl | hn
  · -- a zero has a digit of its own, so that one zero less is filled in
    obtain ⟨k, rfl⟩ := Nat.exists_eq_succ_of_ne_zero hk.ne'
    rw [Nat.mul_zero, Nat.zero_add, upperHex_of_lt hd, upperHex_of_lt (by decide)]
    show List.replicate (k + 1) '0' ++ _ = (List.replicate k '0' ++ ['0']) ++ _
    rw [List.replicate_succ']
  · rw [upperHex_push hn hd, zeroFill, zeroFill, List.length_append, List.length_singleton,
      Nat.add_sub_add_right, List.append_assoc]

theorem zeroFill_byte (b : UInt8) :
    zeroFill 2 (upperHex b.toNat) = [hexDigit (b.toNat / 16), hexDigit (b.toNat % 16)] := by
  have hb := b.toNat_lt
  conv_lhs => rw [← Nat.div_add_mod b.toNat 16]
  rw [zeroFill_push (by decide) (by omega), zeroFill_one (by omega)]
  rfl

end Digits

theorem zeroFill_bigEndian {bs : List UInt8} (hne : bs ≠ []) :
    zeroFill (2 * bs.length) (upperHex (Word.bigEndian bs))
      = bs.flatMap fun b => zeroFill 2 (upperHex b.toNat) := by
  induction bs using List.reverseRecOn with
  | nil => exact absurd rfl hne
  | append_singleton bs b ih =>
    have hb := b.toNat_lt
    by_cases hbs : bs = []
    · subst hbs
      simp [Word.bigEndian]
    · have hlen : 0 < bs.length := List.length_pos_iff.2 hbs
      have hnum : Word.bigEndian (bs ++ [b])
          = 16 * (16 * Word.bigEndian bs + b.toNat / 16) + b.toNat % 16 := by
        rw [Word.bigEndian, List.reverse_append, List.reverse_singleton, List.singleton_append,
          List.map_cons, Nat.ofDigits_cons, ← Word.bigEndian]
        omega
      rw [hnum, List.length_append, List.length_singleton,
        show 2 * (bs.length + 1) = 2 * bs.length + 1 + 1 from rfl, zeroFill_push (by omega)
          (by omega), zeroFill_push (by omega) (by omega), ih hbs, List.flatMap_append,
        List.flatMap_singleton, zeroFill_byte, List.append_assoc]
      rfl

end WordMachine.Text
