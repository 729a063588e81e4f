/-!
# Decimal numbers of 64 bits

Numbers are written without leading zeros.  A word is read as a number if it
consists of digits, after a plus sign perhaps, and its value fits into 64
bits; leading zeros do not matter then.
-/

namespace LiveHeap.Text

def isDigit (c : Char) : Bool := '0' ≤ c && c ≤ '9'

def decimal (n : Nat) : List Char := Nat.toDigits 10 n

def digitsValue (digits : List Char) : Nat := Nat.ofDigitChars 10 digits 0

def readDigits? (text : List Char) : Option UInt64 :=
  if text.isEmpty || !text.all isDigit then none
  else
    let n := digitsValue text
    if n < UInt64.size then some (UInt64.ofNat n) else none

def readWord64? : List Char → Option UInt64
  | '+' :: digits => readDigits? digits
  | digits => readDigits? digits

end LiveHeap.Text
