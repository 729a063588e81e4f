import LiveHeap.Text.Decimal

/-!
# The shortest decimal that reads back

A finite binary floating point number lies in an interval of reals that round
to it.  Its text has the fewest decimal digits that lie in this interval, and
of the candidates with that many digits the one nearest to the number.  Exact
arithmetic on naturals decides all comparisons.
-/

namespace LiveHeap.Text

/-- A positive real `mantissa * 2 ^ (exponent - 1074 - 2)`, in quarters of the
last binary place, with the half-way points to its neighbours. -/
structure Binary where
  mantissa : Nat
  below : Nat
  above : Nat
  /-- Whether the half-way points themselves round to the number. -/
  closed : Bool
  exponent : Nat

def Binary.ofBits (bits : Nat) : Binary :=
  let fraction := bits % Nat.pow 2 52
  let biased := bits / Nat.pow 2 52 % Nat.pow 2 11
  let m := if biased = 0 then fraction else fraction + Nat.pow 2 52
  let gap := if fraction = 0 && 1 < biased then 1 else 2
  { mantissa := 4 * m
    below := 4 * m - gap
    above := 4 * m + 2
    closed := m % 2 = 0
    exponent := biased - 1 }

/-- Digits `d₁d₂…` with the exponent of the first one: `d₁.d₂… * 10 ^ e`. -/
structure Digits where
  digits : List Char
  exponent : Int

/-- The power of ten of the first digit of `num / den`. -/
def leadingExponent (num den : Nat) : Int :=
  if den ≤ num then ((decimal (num / den)).length : Int) - 1
  else
    let zeros := ((List.range 400).find? fun j => den ≤ num * Nat.pow 10 (j + 1))
    Int.negSucc (zeros.getD 0)

/-- The nearest decimal with a number of digits, if one rounds to `x`. -/
def Binary.grid? (x : Binary) (first : Int) (count : Nat) : Option Digits :=
  let shift : Int := (x.exponent : Int) - 1076
  let place : Int := first - (count - 1 : Nat)
  let unit := Nat.pow 10 place.toNat * Nat.pow 2 (-shift).toNat
  let scale := Nat.pow 10 (-place).toNat * Nat.pow 2 shift.toNat
  let low := x.mantissa * scale / unit
  let fits := fun d =>
    let point := d * unit
    if x.closed then x.below * scale ≤ point && point ≤ x.above * scale
    else x.below * scale < point && point < x.above * scale
  let pick := fun d =>
    let ds := decimal d
    some
      { digits := (ds.reverse.dropWhile (· = '0')).reverse
        exponent := place + ((ds.length : Int) - 1) : Digits }
  let offset := x.mantissa * scale - low * unit
  match fits low, fits (low + 1) with
  | false, false => none
  | true, false => pick low
  | false, true => pick (low + 1)
  | true, true =>
      if 2 * offset < unit then pick low
      else if unit < 2 * offset then pick (low + 1)
      else pick (if low % 2 = 0 then low else low + 1)

/-- The digits of a positive number.  Seventeen are always enough. -/
def Binary.shortest (x : Binary) : Digits :=
  let shift : Int := (x.exponent : Int) - 1076
  let first :=
    leadingExponent (x.mantissa * Nat.pow 2 shift.toNat)
      (Nat.pow 2 (-shift).toNat)
  ((List.range 17).findSome? fun i => x.grid? first (i + 1)).getD ⟨['0'], 0⟩

/-- Positional between `10 ^ -5` and `10 ^ 16`, with a fraction in any case;
otherwise scientific, with a sign on the exponent. -/
def Digits.text (d : Digits) : List Char :=
  if -5 ≤ d.exponent && d.exponent < 0 then
    ['0', '.'] ++ List.replicate ((-d.exponent).toNat - 1) '0' ++ d.digits
  else if 0 ≤ d.exponent && d.exponent ≤ 15 then
    let whole := d.exponent.toNat + 1
    let fraction := d.digits.drop whole
    d.digits.take whole ++ List.replicate (whole - d.digits.length) '0' ++
      '.' :: if fraction.isEmpty then ['0'] else fraction
  else
    let fraction := d.digits.drop 1
    let mantissa := d.digits.take 1 ++
      if fraction.isEmpty then [] else '.' :: fraction
    let sign := if d.exponent < 0 then '-' else '+'
    mantissa ++ 'e' :: sign :: decimal d.exponent.natAbs

/-- The text of a finite number; zero keeps its sign. -/
def floatText (x : Float) : List Char :=
  let bits := x.toBits.toNat
  let sign := if Nat.pow 2 63 ≤ bits then ['-'] else []
  let magnitude := bits % Nat.pow 2 63
  if magnitude = 0 then sign ++ ['0', '.', '0']
  else sign ++ (Binary.ofBits magnitude).shortest.text

end LiveHeap.Text
