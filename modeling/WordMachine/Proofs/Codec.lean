import Mathlib.Data.Int.Bitwise
import Mathlib.Data.Int.ModEq
import Mathlib.Data.Nat.Bitwise
import Mathlib.Data.Nat.Digits.Lemmas
import WordMachine.Word

/-!
# Words as bytes

Bytes stand for a number in base 256, the most significant first, and with a sign for the number in
two's complement (`signed`). Decoding gives the signed number of the first four bytes
(`decode_eq_signed`), so it undoes encoding (`decode_encode`), encoding undoes it (`encode_decode`),
and bytes that repeat the sign in front change nothing (`decode_extend`). Wrapping can be done with
masks on the bits of an integer, be it negative or not (`masked_eq_wrap`); it picks the one word in
the class of the integer (`eq_wrap_iff`) and can be done early in sums, differences and products.
-/

namespace WordMachine.Word

/-! ## Bytes in base 256 -/

/-- The number that bytes stand for in base 256, the most significant first. -/
def bigEndian (bs : List UInt8) : Nat := Nat.ofDigits 256 (bs.reverse.map UInt8.toNat)

/-- Whether the highest bit is set. -/
def isNegative (bs : List UInt8) : Bool := bs.head?.any (0x80 ≤ ·)

/-- The number that bytes stand for in two's complement. -/
def signed (bs : List UInt8) : Int :=
  if isNegative bs then (bigEndian bs : Int) - 256 ^ bs.length else bigEndian bs

/-- A byte of the bits that repeat the highest. -/
def filler (bs : List UInt8) : UInt8 := if isNegative bs then 0xFF else 0

section Bytes

variable {b : UInt8} {bs : List UInt8}

@[simp] theorem bigEndian_nil : bigEndian [] = 0 := rfl

theorem bigEndian_cons (b : UInt8) (bs : List UInt8) :
    bigEndian (b :: bs) = bigEndian bs + 256 ^ bs.length * b.toNat := by
  simp [bigEndian, Nat.ofDigits_append]

theorem bigEndian_lt (bs : List UInt8) : bigEndian bs < 256 ^ bs.length := by
  have hdigits : ∀ d ∈ bs.reverse.map UInt8.toNat, d < 256 := by
    intro d hd
    obtain ⟨b, -, rfl⟩ := List.mem_map.1 hd
    exact b.toNat_lt
  simpa [bigEndian] using Nat.ofDigits_lt_base_pow_length (by decide) hdigits

theorem foldl_bytes (bs : List UInt8) (n : Nat) :
    bs.foldl (fun n b => 256 * n + b.toNat) n = 256 ^ bs.length * n + bigEndian bs := by
  induction bs generalizing n with
  | nil => simp
  | cons b bs ih =>
    rw [List.foldl_cons, ih, bigEndian_cons, List.length_cons]
    ring

theorem ofBytes_eq_bigEndian (bs : List UInt8) : ofBytes bs = bigEndian bs := by
  rw [ofBytes, foldl_bytes, Nat.mul_zero, Nat.zero_add]

@[simp] theorem isNegative_cons (b : UInt8) (bs : List UInt8) :
    isNegative (b :: bs) = decide (0x80 ≤ b.toNat) := by
  simp [isNegative, UInt8.le_iff_toNat_le]

/-- The highest bit is set in the upper half of the numbers of a length. -/
theorem isNegative_iff (hne : bs ≠ []) :
    isNegative bs = true ↔ 256 ^ bs.length ≤ 2 * bigEndian bs := by
  obtain ⟨b, bs, rfl⟩ := List.exists_cons_of_ne_nil hne
  have hlt := bigEndian_lt bs
  rw [isNegative_cons, decide_eq_true_iff, bigEndian_cons, List.length_cons, Nat.pow_succ]
  constructor
  · intro hb
    have := Nat.mul_le_mul_left (256 ^ bs.length) hb
    omega
  · intro h
    by_contra hb
    have := Nat.mul_le_mul_left (256 ^ bs.length) (show b.toNat ≤ 127 by omega)
    omega

theorem bmod_ofBytes (bs : List UInt8) :
    (ofBytes bs : Int).bmod (Nat.pow 256 bs.length) = signed bs := by
  have hlt := bigEndian_lt bs
  have hmod : (bigEndian bs : Int) % (256 ^ bs.length : Nat) = bigEndian bs :=
    Int.emod_eq_of_lt (by omega) (by omega)
  rw [ofBytes_eq_bigEndian, Nat.pow_eq, Int.bmod_def, hmod, signed]
  rcases eq_or_ne bs [] with rfl | hne
  · rfl
  · have hsign := isNegative_iff hne
    have heven : 2 ∣ 256 ^ bs.length :=
      dvd_pow (by decide) (List.length_pos_iff.2 hne).ne'
    by_cases hneg : isNegative bs = true
    · have hhalf := hsign.1 hneg
      rw [if_pos hneg, if_neg (by omega)]
      push_cast
      rfl
    · have hhalf := hsign.not.1 hneg
      rw [if_neg hneg, if_pos (by omega)]

/-- The first four bytes decide, and fewer are a shorter number. -/
theorem decode_eq_signed (bs : List UInt8) : decode bs = signed (bs.take bytes) :=
  bmod_ofBytes (bs.take bytes)

theorem decode_of_length_le (h : bs.length ≤ bytes) : decode bs = signed bs := by
  rw [decode_eq_signed, List.take_of_length_le h]

theorem decode_append (h : bytes ≤ bs.length) (rest : List UInt8) :
    decode (bs ++ rest) = decode bs := by
  rw [decode_eq_signed, decode_eq_signed, List.take_append_of_le_length h]

@[simp] theorem isNegative_filler_cons (bs : List UInt8) :
    isNegative (filler bs :: bs) = isNegative bs := by
  by_cases h : isNegative bs = true <;> simp [filler, h]

theorem signed_filler_cons (bs : List UInt8) : signed (filler bs :: bs) = signed bs := by
  rw [signed, signed, isNegative_filler_cons, bigEndian_cons, List.length_cons]
  by_cases h : isNegative bs = true
  · simp only [filler, h, if_true]
    push_cast
    ring
  · simp [filler, h]

theorem signed_fillers (bs : List UInt8) :
    ∀ n, isNegative (List.replicate n (filler bs) ++ bs) = isNegative bs
      ∧ signed (List.replicate n (filler bs) ++ bs) = signed bs
  | 0 => ⟨rfl, rfl⟩
  | n + 1 => by
    obtain ⟨hneg, hsigned⟩ := signed_fillers bs n
    have hfiller : filler (List.replicate n (filler bs) ++ bs) = filler bs := by
      rw [filler, hneg, filler]
    have hneg' := isNegative_filler_cons (List.replicate n (filler bs) ++ bs)
    have hsigned' := signed_filler_cons (List.replicate n (filler bs) ++ bs)
    rw [hfiller] at hneg' hsigned'
    rw [List.replicate_succ, List.cons_append]
    exact ⟨hneg'.trans hneg, hsigned'.trans hsigned⟩

end Bytes

/-- Bytes made a whole word by repeating the sign in front. -/
def extend (bs : List UInt8) : List UInt8 := bs.leftpad bytes (filler bs)

theorem length_extend {bs : List UInt8} (h : bs.length ≤ bytes) : (extend bs).length = bytes := by
  rw [extend, List.length_leftpad, Nat.max_eq_left h]

theorem decode_extend {bs : List UInt8} (h : bs.length ≤ bytes) :
    decode (extend bs) = decode bs := by
  rw [decode_of_length_le (length_extend h).le, decode_of_length_le h]
  exact (signed_fillers bs _).2

/-! ## Round trips -/

theorem pow_bytes : Nat.pow 256 4 = modulus := rfl

theorem unsigned_lt (v : Int) : unsigned v < modulus := by
  have hpos : (0 : Int) < modulus := by decide
  have hlt := Int.emod_lt_of_pos v hpos
  unfold unsigned
  omega

theorem natCast_unsigned (v : Int) : (unsigned v : Int) = v % modulus :=
  Int.toNat_of_nonneg (Int.emod_nonneg v (by decide))

theorem bigEndian_encode (v : Int) : bigEndian (encode v) = unsigned v := by
  have hlt := unsigned_lt v
  simp only [modulus] at hlt
  simp only [encode, bigEndian_cons, bigEndian_nil, List.length_cons, List.length_nil,
    UInt8.toNat_ofNat']
  omega

theorem decode_encode (v : Int) : decode (encode v) = wrap v := by
  have hbmod := bmod_ofBytes (encode v)
  rw [ofBytes_eq_bigEndian, bigEndian_encode, length_encode, pow_bytes] at hbmod
  rw [decode_of_length_le (length_encode v).le, ← hbmod, natCast_unsigned, Int.emod_bmod, wrap]

theorem unsigned_decode {bs : List UInt8} (h : bs.length = bytes) :
    unsigned (decode bs) = bigEndian bs := by
  have hlt : bigEndian bs < modulus := by
    have := bigEndian_lt bs
    rwa [h] at this
  rw [decode_of_length_le h.le, ← bmod_ofBytes, ofBytes_eq_bigEndian, h, bytes, pow_bytes, unsigned,
    Int.bmod_emod, ← Int.natCast_emod, Int.toNat_natCast, Nat.mod_eq_of_lt hlt]

/-- As many bytes that stand for the same number are the same. -/
theorem bigEndian_injective {bs cs : List UInt8} (hlen : bs.length = cs.length)
    (h : bigEndian bs = bigEndian cs) : bs = cs := by
  have hdigits := Nat.ofDigits_inj_of_len_eq (b := 256) (by decide) (by simpa using hlen)
    (by simpa using fun b _ => b.toNat_lt) (by simpa using fun b _ => b.toNat_lt) h
  exact List.reverse_injective
    (List.map_injective_iff.2 (fun _ _ => UInt8.toNat_inj.1) hdigits)

theorem encode_decode {bs : List UInt8} (h : bs.length = bytes) : encode (decode bs) = bs :=
  bigEndian_injective (by rw [length_encode, h]; rfl) (by rw [bigEndian_encode, unsigned_decode h])

/-! ## Wrapping -/

/-- Wrapping with masks: the low 32 bits, taken below zero where the highest of them is set. -/
def masked (v : Int) : Int :=
  let low := v.land 0xFFFFFFFF
  if low.land 0x80000000 ≠ 0 then low - 0x100000000 else low

section Masks

theorem ldiff_low (n : Nat) : Nat.ldiff (2 ^ 32 - 1) n = 2 ^ 32 - (n % 2 ^ 32 + 1) := by
  apply Nat.eq_of_testBit_eq
  intro i
  rw [Nat.testBit_ldiff, Nat.testBit_two_pow_sub_one,
    Nat.testBit_two_pow_sub_succ (Nat.mod_lt n (by decide)), Nat.testBit_mod_two_pow]
  by_cases hi : i < 32 <;> simp [hi]

theorem land_low (v : Int) : v.land 0xFFFFFFFF = v % modulus := by
  cases v with
  | ofNat n =>
    show ((n &&& 2 ^ 32 - 1 : Nat) : Int) = (n : Int) % modulus
    rw [Nat.and_two_pow_sub_one_eq_mod]
    rfl
  | negSucc n =>
    -- the bits of a negative integer are those that the number before its negation lacks
    show ((Nat.ldiff (2 ^ 32 - 1) n : Nat) : Int) = _
    rw [ldiff_low, modulus]
    omega

theorem land_high_ne_zero_iff {n : Nat} (h : n < 2 ^ 32) :
    (n : Int).land 0x80000000 ≠ 0 ↔ 2 ^ 31 ≤ n := by
  have hbit : n / 2 ^ 31 % 2 = 1 ↔ 2 ^ 31 ≤ n := by omega
  show ((n &&& 2 ^ 31 : Nat) : Int) ≠ 0 ↔ _
  rw [Nat.and_two_pow, Nat.testBit_eq_decide_div_mod_eq]
  simpa using hbit

theorem masked_eq_wrap (v : Int) : masked v = wrap v := by
  have hlt := unsigned_lt v
  have hwrap : wrap v = (unsigned v : Int).bmod modulus := by
    rw [natCast_unsigned, Int.emod_bmod, wrap]
  have hmod : (unsigned v : Int) % modulus = unsigned v :=
    Int.emod_eq_of_lt (by omega) (by omega)
  simp only [masked, land_low, ← natCast_unsigned, land_high_ne_zero_iff hlt]
  rw [hwrap, Int.bmod_def, hmod, modulus]
  split_ifs <;> omega

end Masks

theorem wrap_eq_wrap_iff {x y : Int} : wrap x = wrap y ↔ x ≡ y [ZMOD modulus] := by
  constructor
  · intro h
    have := congrArg (· % (modulus : Int)) h
    simpa [wrap, Int.bmod_emod, Int.ModEq] using this
  · intro h
    unfold wrap
    rw [← Int.emod_bmod (x := x), ← Int.emod_bmod (x := y), h]

theorem wrap_modEq (v : Int) : wrap v ≡ v [ZMOD modulus] := wrap_eq_wrap_iff.1 (wrap_wrap v)

/-- An integer wraps to the one word that is congruent to it. -/
theorem eq_wrap_iff {v w : Int} : w = wrap v ↔ Fits w ∧ w ≡ v [ZMOD modulus] := by
  constructor
  · rintro rfl
    exact ⟨fits_wrap v, wrap_modEq v⟩
  · rintro ⟨hfits, hmod⟩
    rw [← wrap_of_fits hfits, wrap_eq_wrap_iff.2 hmod]

/-- Wrapping is what masks make of an integer, gives the one word in its class, and can be done
before sums, differences and products. A word is encoded in four bytes; those decode to it again,
and any four bytes decode to a word that they encode. Decoding heeds the first four bytes alone, and
makes of fewer the number that they stand for in two's complement, which is that of four with the
sign repeated in front. -/
theorem codec_round_trip :
    (∀ v, masked v = wrap v)
      ∧ (∀ v w : Int, w = wrap v ↔ (-2 ^ 31 ≤ w ∧ w ≤ 2 ^ 31 - 1) ∧ w ≡ v [ZMOD 2 ^ 32])
      ∧ (∀ v, (encode v).length = 4 ∧ decode (encode v) = wrap v)
      ∧ (∀ bs, bs.length = 4 → encode (decode bs) = bs)
      ∧ (∀ bs rest, bs.length = 4 → decode (bs ++ rest) = decode bs)
      ∧ (∀ bs, bs.length ≤ 4 → decode bs = signed bs
        ∧ (extend bs).length = 4 ∧ decode (extend bs) = decode bs)
      ∧ decode [] = 0
      ∧ ∀ x y, wrap (wrap x + wrap y) = wrap (x + y) ∧ wrap (wrap x - wrap y) = wrap (x - y)
        ∧ wrap (wrap x * wrap y) = wrap (x * y) := by
  refine ⟨masked_eq_wrap, fun v w => eq_wrap_iff, fun v => ⟨length_encode v, decode_encode v⟩,
    fun bs => encode_decode, fun bs rest hbs => decode_append hbs.ge rest,
    fun bs hbs => ⟨decode_of_length_le hbs, length_extend hbs, decode_extend hbs⟩, rfl,
    fun x y => ⟨?_, ?_, ?_⟩⟩
  · exact wrap_eq_wrap_iff.2 ((wrap_modEq x).add (wrap_modEq y))
  · exact wrap_eq_wrap_iff.2 ((wrap_modEq x).sub (wrap_modEq y))
  · exact wrap_eq_wrap_iff.2 ((wrap_modEq x).mul (wrap_modEq y))

/-- The least word, and what is left of it when bytes are missing at the end. -/
theorem codec_round_trip_least :
    encode (decode [0x80, 0, 0, 0]) = [0x80, 0, 0, 0]
      ∧ decode ([0x80, 0, 0, 0] ++ [1]) = decode [0x80, 0, 0, 0]
      ∧ signed [0x80, 0] = -32768 ∧ decode [0x80, 0] = -32768
      ∧ extend [0x80, 0] = [0xFF, 0xFF, 0x80, 0]
      ∧ decode (extend [0x80, 0]) = decode [0x80, 0] := by
  obtain ⟨-, -, -, hencode, hrest, hshort, -⟩ := codec_round_trip
  have hsigned : signed [0x80, 0] = -32768 := by decide
  obtain ⟨hvalue, -, hextend⟩ := hshort [0x80, 0] (by decide)
  exact ⟨hencode _ rfl, hrest _ _ rfl, hsigned, hvalue.trans hsigned, by decide, hextend⟩

end WordMachine.Word
