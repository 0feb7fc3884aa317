/-!
# Signed words of 32 bits

A word is an integer between the least and the greatest, and any integer wraps to the one word
that differs from it by a multiple of the modulus, which is the number of words. In memory a word
takes four bytes, the most significant first.
-/

namespace WordMachine.Word

/-- Bytes in a word. -/
def bytes : Nat := 4

/-- How many words there are. -/
def modulus : Nat := 0x100000000

def least : Int := -0x80000000

def greatest : Int := 0x7FFFFFFF

/-- Whether an integer is a word without wrapping. -/
def Fits (v : Int) : Prop := least ≤ v ∧ v ≤ greatest

instance (v : Int) : Decidable (Fits v) := inferInstanceAs (Decidable (_ ∧ _))

/-- The word that differs from an integer by a multiple of the modulus. -/
def wrap (v : Int) : Int := v.bmod modulus

/-- The remainder of an integer by the modulus: a word seen without its sign. -/
def unsigned (v : Int) : Nat := (v % modulus).toNat

/-- The four bytes of a word, the most significant first; an integer wraps beforehand. -/
def encode (v : Int) : List UInt8 :=
  let n := unsigned v
  [UInt8.ofNat (n / 0x1000000), UInt8.ofNat (n / 0x10000), UInt8.ofNat (n / 0x100), UInt8.ofNat n]

/-- The number that bytes stand for without a sign, the most significant first. -/
def ofBytes (bs : List UInt8) : Nat := bs.foldl (fun n b => 256 * n + b.toNat) 0

/-- The signed number in the first four bytes; of fewer bytes, the signed number of that length. -/
def decode (bs : List UInt8) : Int :=
  let w := bs.take bytes
  (ofBytes w : Int).bmod (Nat.pow 256 w.length)

@[simp] theorem length_encode (v : Int) : (encode v).length = 4 := rfl

theorem fits_wrap (v : Int) : Fits (wrap v) := by
  have h₁ := Int.le_bmod (x := v) (m := modulus) (by decide)
  have h₂ := Int.bmod_lt (x := v) (m := modulus) (by decide)
  simp only [modulus] at h₁ h₂
  simp only [Fits, wrap, least, greatest, modulus]
  omega

theorem wrap_of_fits {v : Int} (h : Fits v) : wrap v = v := by
  simp only [Fits, least, greatest] at h
  apply Int.bmod_eq_of_le_mul_two <;> simp only [modulus] <;> omega

@[simp] theorem wrap_wrap (v : Int) : wrap (wrap v) = wrap v := wrap_of_fits (fits_wrap v)

end WordMachine.Word
