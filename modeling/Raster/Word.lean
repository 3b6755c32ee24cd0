/-!
Words of 64 bits: the sizes and indices that buffers are described with, and the signed numbers that
words are read as.
-/

namespace Raster

/-- Sizes and indices are words of 64 bits, and so below this limit. -/
def wordLimit : Nat := 0x10000000000000000

/-- A size, or the largest word when the size is beyond it. -/
def saturate (size : Nat) : Nat := min size (wordLimit - 1)

namespace Word

/-- A number, if it is a word. -/
def ofNat? (number : Nat) : Option Nat := if number < wordLimit then some number else none

/-- The product of two words, if it is a word. -/
def product? (a b : Nat) : Option Nat := ofNat? (a * b)

/-- The sum of two words, if it is a word. -/
def sum? (a b : Nat) : Option Nat := ofNat? (a + b)

/-- The word that is left of a number when its digits beyond those of a word are lost. -/
def wrap (number : Nat) : Nat := number % wordLimit

/-- Signed numbers lie below this limit and not below its negative. -/
def signedLimit : Int := 0x8000000000000000

/-- Whether a number is a signed word. -/
def isSigned (number : Int) : Bool := -signedLimit ≤ number ∧ number < signedLimit

/-- The signed number with the same bits; words from the signed limit on are negative. -/
def signed (word : Nat) : Int :=
  if (word : Int) < signedLimit then word else word - wordLimit

/-- The word with the same bits as a signed number. -/
def unsigned (number : Int) : Nat := (number % wordLimit).toNat

/-- A word has no digits to lose. -/
theorem wrap_of_lt {number : Nat} (word : number < wordLimit) : wrap number = number :=
  Nat.mod_eq_of_lt word

/-- Losing digits makes no number larger. -/
theorem wrap_le (number : Nat) : wrap number ≤ number := Nat.mod_le number wordLimit

/-- The signed words are the numbers between the signed limits. -/
theorem isSigned_iff {number : Int} :
    isSigned number ↔ -signedLimit ≤ number ∧ number < signedLimit := by
  simp [isSigned]

/-- A word below the signed limit is its own signed reading. -/
theorem signed_of_lt {word : Nat} (small : (word : Int) < signedLimit) : signed word = word :=
  if_pos small

/-- A number that is a word is kept as itself. -/
theorem unsigned_natCast {word : Nat} (small : word < wordLimit) : unsigned word = word := by
  -- A word is its own remainder.
  rw [unsigned, Int.emod_eq_of_lt (by omega) (by omega)]
  exact Int.toNat_natCast word

end Word

end Raster
