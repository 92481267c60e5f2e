import DialogueTyping.Number.Binary64

set_option autoImplicit false

namespace DialogueTyping.Numeral

/-- The value `significand · 10 ^ exponent`. -/
structure Decimal where
  significand : Nat
  exponent : Int
  deriving DecidableEq, Repr

/-- The nearest number of the double format. -/
def Decimal.toBinary64 (decimal : Decimal) : Binary64 :=
  Binary64.ofRatio (decimal.significand * Nat.pow 10 decimal.exponent.toNat)
    (Nat.pow 10 (-decimal.exponent).toNat)

def digitValue (c : Char) : Nat := c.toNat - '0'.toNat

def digitsValue (digits : List Char) : Nat :=
  digits.foldl (fun value c => 10 * value + digitValue c) 0

/-- Exponents from this one on take no further digit: no numeral of a practical length needs a
larger one to leave the range of the format. -/
def exponentLimit : Nat := 65536

/-- The value of the digits of an exponent, digits past the limit left out. -/
def exponentValue (digits : List Char) : Nat :=
  digits.foldl
    (fun value c => if value < exponentLimit then 10 * value + digitValue c else value) 0

/-- Reads the digits of an exponent; there has to be one, and nothing may follow them. -/
def exponentDigits? (text : List Char) : Option Nat :=
  if !text.isEmpty && text.all Char.isDigit then some (exponentValue text) else none

/-- Reads what follows the digits of a decimal: nothing, or an exponent. -/
def exponent? : List Char → Option Int
  | [] => some 0
  | c :: text =>
    if c = 'e' || c = 'E' then
      match text with
      | '-' :: digits => (exponentDigits? digits).map fun value => -(value : Int)
      | '+' :: digits => (exponentDigits? digits).map fun value => (value : Int)
      | digits => (exponentDigits? digits).map fun value => (value : Int)
    else none

/-- The digits after a point at the start of `text`, and what follows them. -/
def fractionOf : List Char → List Char × List Char
  | '.' :: text => (text.takeWhile Char.isDigit, text.dropWhile Char.isDigit)
  | text => ([], text)

/-- Reads a decimal without sign. At least one digit stands before or after the point. -/
def decimal? (text : List Char) : Option Decimal :=
  let whole := text.takeWhile Char.isDigit
  let (fraction, rest) := fractionOf (text.dropWhile Char.isDigit)
  if whole.isEmpty && fraction.isEmpty then none
  else (exponent? rest).map fun exponent =>
    ⟨digitsValue (whole ++ fraction), exponent - fraction.length⟩

/-- Reads a numeral without sign. Words are taken in upper or lower case. -/
def unsigned? (text : List Char) : Option Binary64 :=
  match decimal? text with
  | some decimal => some decimal.toBinary64
  | none =>
    let word := String.ofList (text.map Char.toLower)
    if word = "inf" || word = "infinity" then some .infinity
    else if word = "nan" then some .nan
    else none

def read? : List Char → Option Binary64
  | '-' :: text => (unsigned? text).map Binary64.negate
  | '+' :: text => unsigned? text
  | text => unsigned? text

end DialogueTyping.Numeral
