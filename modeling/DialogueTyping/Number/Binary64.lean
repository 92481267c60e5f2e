set_option autoImplicit false

/-
Numbers of the double format: 64 bits, of which the highest is the sign, the next eleven the
exponent and the rest the fraction. Ratios of natural numbers are rounded to the nearest of them,
a tie to the one with an even fraction.
-/

namespace DialogueTyping

/-- A number of the double format, by its bits. -/
structure Binary64 where
  bits : UInt64
  deriving DecidableEq, Repr

namespace Binary64

/-- The bits of infinity, above those of every positive finite number. -/
def infinityBits : Nat := 0x7FF0000000000000

def signBit : UInt64 := 0x8000000000000000

def zero : Binary64 := ⟨0⟩

def infinity : Binary64 := ⟨UInt64.ofNat infinityBits⟩

def nan : Binary64 := ⟨0x7FF8000000000000⟩

def negate (x : Binary64) : Binary64 := ⟨x.bits ^^^ signBit⟩

def magnitude (x : Binary64) : Nat := (x.bits &&& ~~~signBit).toNat

def isNaN (x : Binary64) : Bool := infinityBits < x.magnitude

/-- Equality of numbers: the two zeros are equal, and a number that is not a number equals none. -/
def equal (x y : Binary64) : Bool :=
  !x.isNaN && !y.isNaN && (x.bits == y.bits || (x.magnitude == 0 && y.magnitude == 0))

/-- The natural number nearest to `num / den`, of two the even one. -/
def nearestQuotient (num den : Nat) : Nat :=
  let quotient := num / den
  let rest := num % den
  if 2 * rest < den then quotient
  else if den < 2 * rest then quotient + 1
  else quotient + quotient % 2

/-- The greatest `k` with `2 ^ k ≤ num / den`, for positive `num` and `den`. -/
def floorLog2 (num den : Nat) : Int :=
  let k : Int := (Nat.log2 num : Int) - (Nat.log2 den : Int)
  if den * Nat.pow 2 k.toNat ≤ num * Nat.pow 2 (-k).toNat then k else k - 1

/-- The number nearest to `num / den`, for positive `den`. The fraction and the exponent are added
up, so that a fraction rounded up to the next power of two moves the exponent by one. -/
def ofRatio (num den : Nat) : Binary64 :=
  if num = 0 then zero
  else
    let unit : Int := max (-1074) (floorLog2 num den - 52)
    let steps := nearestQuotient (num * Nat.pow 2 (-unit).toNat) (den * Nat.pow 2 unit.toNat)
    let bits := (unit + 1074).toNat * Nat.pow 2 52 + steps
    if infinityBits ≤ bits then infinity else ⟨UInt64.ofNat bits⟩

end Binary64

end DialogueTyping
