import LiveHeap.Json.Fault

/-!
# Reading scalars

Readers take the unread text and give back what they read with the text that
is then unread.  This file reads strings, numbers and the three named values.
-/

namespace LiveHeap.Json

abbrev Reader (α : Type) := List Char → Except Fault (α × List Char)

def isBlank (c : Char) : Bool :=
  c = ' ' || c = '\n' || c = '\t' || c = '\r'

def skipBlanks (text : List Char) : List Char := text.dropWhile isBlank

def expectWord : List Char → List Char → Except Fault (List Char)
  | [], text => .ok text
  | _ :: _, [] => .error (.atEnd .endInValue)
  | w :: ws, c :: cs =>
      if c = w then expectWord ws cs
      else .error (.atNext .expectedIdentifier (c :: cs))

def hexValue? (c : Char) : Option Nat :=
  if '0' ≤ c && c ≤ '9' then some (c.toNat - '0'.toNat)
  else if 'a' ≤ c && c ≤ 'f' then some (c.toNat - 'a'.toNat + 10)
  else if 'A' ≤ c && c ≤ 'F' then some (c.toNat - 'A'.toNat + 10)
  else none

/-- The fault of a hex escape: four bytes are read, whatever they are. -/
def hexFault (text : List Char) : Fault :=
  if byteLength text < 4 then .atEnd .endInString
  else .placed .invalidEscape (byteLength text - 4)

def hexEscape : Reader Nat
  | a :: b :: c :: d :: rest =>
      match hexValue? a, hexValue? b, hexValue? c, hexValue? d with
      | some a, some b, some c, some d =>
          .ok (((a * 16 + b) * 16 + c) * 16 + d, rest)
      | _, _, _, _ => .error (hexFault (a :: b :: c :: d :: rest))
  | text => .error (hexFault text)

def surrogatePair (high low : Nat) : Char :=
  Char.ofNat ((high - 0xd800) * 0x400 + (low - 0xdc00) + 0x10000)

def lowSurrogate (high : Nat) : Reader Char
  | [] => .error (.atEnd .endInString)
  | c :: cs =>
      if c ≠ '\\' then .error (.atNext .unexpectedEndOfHexEscape (c :: cs))
      else
        match cs with
        | [] => .error (.atEnd .endInString)
        | d :: ds =>
            if d ≠ 'u' then
              .error (.atNext .unexpectedEndOfHexEscape (d :: ds))
            else do
              let (low, rest) ← hexEscape ds
              if 0xdc00 ≤ low && low ≤ 0xdfff then
                return (surrogatePair high low, rest)
              else throw (.here .loneSurrogate rest)

/-- Reads a hex escape, or two of them that form a surrogate pair. -/
def unicodeEscape (text : List Char) : Except Fault (Char × List Char) := do
  let (n, rest) ← hexEscape text
  if 0xdc00 ≤ n && n ≤ 0xdfff then throw (.here .loneSurrogate rest)
  else if 0xd800 ≤ n && n ≤ 0xdbff then lowSurrogate n rest
  else return (Char.ofNat n, rest)

/-- What a letter behind a backslash stands for. -/
def simpleEscape? (c : Char) : Option Char :=
  if c = '"' || c = '\\' || c = '/' then some c
  else if c = 'b' then some '\x08'
  else if c = 'f' then some '\x0c'
  else if c = 'n' then some '\n'
  else if c = 'r' then some '\r'
  else if c = 't' then some '\t'
  else none

def escape : Reader Char
  | [] => .error (.atEnd .endInString)
  | c :: cs =>
      match simpleEscape? c with
      | some x => .ok (x, cs)
      | none =>
          if c = 'u' then unicodeEscape cs
          else .error (.atNext .invalidEscape (c :: cs))

theorem length_hexEscape {text rest : List Char} {n : Nat}
    (h : hexEscape text = .ok (n, rest)) : rest.length < text.length := by
  unfold hexEscape at h
  split at h
  · split at h
    · cases h
      simp only [List.length_cons]
      omega
    · cases h
  · cases h

theorem length_lowSurrogate {high : Nat} {text rest : List Char} {c : Char}
    (h : lowSurrogate high text = .ok (c, rest)) :
    rest.length < text.length := by
  unfold lowSurrogate at h
  split at h
  · cases h
  · split at h
    · cases h
    · split at h
      · cases h
      · rename_i ds
        split at h
        · cases h
        · cases hx : hexEscape ds with
          | error e => simp [hx, bind, Except.bind] at h
          | ok r =>
              obtain ⟨low, rest'⟩ := r
              have hlen := length_hexEscape hx
              simp only [hx, bind, Except.bind] at h
              by_cases hl : (0xdc00 ≤ low && low ≤ 0xdfff) = true
              · rw [if_pos hl] at h
                obtain rfl : rest' = rest :=
                  congrArg Prod.snd (Except.ok.inj h)
                simp only [List.length_cons]
                omega
              · rw [if_neg hl] at h
                cases h

theorem length_escape {text rest : List Char} {c : Char}
    (h : escape text = .ok (c, rest)) : rest.length < text.length := by
  unfold escape at h
  split at h
  · cases h
  · split at h
    · cases h
      simp
    · split at h
      · rename_i cs _ _ _
        unfold unicodeEscape at h
        cases hx : hexEscape cs with
        | error e => simp [hx, bind, Except.bind] at h
        | ok r =>
            obtain ⟨n, rest'⟩ := r
            have hlen := length_hexEscape hx
            simp only [hx, bind, Except.bind] at h
            split at h
            · cases h
            · split at h
              · have hlow := length_lowSurrogate h
                simp only [List.length_cons]
                omega
              · cases h
                simp only [List.length_cons]
                omega
      · cases h

/-- Reads the characters of a string and its closing quote. -/
def stringBody (text : List Char) : Except Fault (List Char × List Char) :=
  match text with
  | [] => .error (.atEnd .endInString)
  | c :: cs =>
      if c = '"' then .ok ([], cs)
      else if c = '\\' then
        match _h : escape cs with
        | .error e => .error e
        | .ok (x, rest) =>
            match stringBody rest with
            | .error e => .error e
            | .ok (xs, rest) => .ok (x :: xs, rest)
      else if c.toNat < 0x20 then .error (.atNext .controlCharacter (c :: cs))
      else
        match stringBody cs with
        | .error e => .error e
        | .ok (xs, rest) => .ok (c :: xs, rest)
termination_by text.length
decreasing_by
  · have := length_escape _h
    simp only [List.length_cons]
    omega
  · simp

def stringRest (text : List Char) : Except Fault (String × List Char) := do
  let (cs, rest) ← stringBody text
  return (String.ofList cs, rest)

/-- Takes digits into a number for as long as it fits into 64 bits.  Answers
the number and how many digits were taken. -/
def absorbDigits : Nat → List Char → Nat × Nat
  | n, [] => (n, 0)
  | n, d :: ds =>
      let n' := n * 10 + (d.toNat - '0'.toNat)
      if n' < UInt64.size then
        let (m, taken) := absorbDigits n' ds
        (m, taken + 1)
      else (n, 0)

/-- `10 ^ e` as a floating point number, for `e` up to 308. -/
def powerOfTen (e : Nat) : Float := Float.ofScientific 1 false e

/-- Scales by a power of ten with one rounding for each 308 places.  No number
means that the result is too large.  Three rounds bring every significand of
64 bits down to zero. -/
def scaled : Nat → Float → Int → Option Float
  | rounds, x, e =>
      if e.natAbs ≤ 308 then
        if 0 ≤ e then
          let y := x * powerOfTen e.toNat
          if y.isInf then none else some y
        else some (x / powerOfTen e.natAbs)
      else if x == 0 then some x
      else if 0 ≤ e then none
      else
        match rounds with
        | 0 => some x
        | rounds + 1 => scaled rounds (x / powerOfTen 308) (e + 308)

def signed (positive : Bool) (x : Float) : Float := if positive then x else -x

/-- The largest exponent that is told apart from larger ones. -/
def maxExponent : Nat := 2147483647

/-- Takes exponent digits up to the one that exceeds `maxExponent`.  Answers
the exponent and the text behind the digits, or the text behind that digit. -/
def exponentDigits : Nat → List Char → Except (List Char) (Nat × List Char)
  | e, [] => .ok (e, [])
  | e, c :: cs =>
      if Text.isDigit c then
        let e' := e * 10 + (c.toNat - '0'.toNat)
        if e' ≤ maxExponent then exponentDigits e' cs else .error cs
      else .ok (e, c :: cs)

def realNumber (positive : Bool) (significand : Nat) (exponent : Int)
    (rest : List Char) : Except Fault (JsonNumber × List Char) :=
  let start := (UInt64.ofNat significand).toFloat
  match scaled 3 start exponent with
  | some x => .ok (.real (signed positive x), rest)
  | none => .error (.here .numberOutOfRange rest)

def exponentPart (positive : Bool) (significand : Nat) (exponent : Int)
    (text : List Char) : Except Fault (JsonNumber × List Char) :=
  let (negative, text) :=
    match text with
    | '+' :: text => (false, text)
    | '-' :: text => (true, text)
    | text => (false, text)
  match text with
  | [] => .error (.atEnd .endInValue)
  | c :: cs =>
      if Text.isDigit c then
        match exponentDigits (c.toNat - '0'.toNat) cs with
        | .ok (e, rest) =>
            let exponent : Int :=
              if negative then exponent - e else exponent + e
            realNumber positive significand exponent rest
        | .error rest =>
            if significand ≠ 0 && !negative then
              .error (.here .numberOutOfRange rest)
            else .ok (.real (signed positive 0), rest.dropWhile Text.isDigit)
      else .error (.atNext .invalidNumber (c :: cs))

/-- Reads a fraction behind its point.  Digits that no longer fit into the
significand are dropped. -/
def fractionPart (positive : Bool) (significand : Nat) (exponent : Int)
    (text : List Char) : Except Fault (JsonNumber × List Char) :=
  let digits := text.takeWhile Text.isDigit
  let rest := text.dropWhile Text.isDigit
  if digits.isEmpty then
    match text with
    | [] => .error (.atEnd .endInValue)
    | _ :: _ => .error (.atNext .invalidNumber text)
  else
    let (significand, taken) := absorbDigits significand digits
    let exponent := exponent - taken
    match rest with
    | 'e' :: rest => exponentPart positive significand exponent rest
    | 'E' :: rest => exponentPart positive significand exponent rest
    | rest => realNumber positive significand exponent rest

/-- The magnitude of the least signed integer of 64 bits. -/
def maxMagnitude : Nat := 9223372036854775808

def wholeNumber (positive : Bool) (n : Nat) : JsonNumber :=
  if positive then .natural (UInt64.ofNat n)
  else if 1 ≤ n && n ≤ maxMagnitude then .negative (UInt64.ofNat n)
  else .real (-(UInt64.ofNat n).toFloat)

def numberRest (positive : Bool) (text : List Char) :
    Except Fault (JsonNumber × List Char) :=
  let digits := text.takeWhile Text.isDigit
  let rest := text.dropWhile Text.isDigit
  match digits with
  | [] =>
      match text with
      | [] => .error (.atEnd .endInValue)
      | _ :: _ => .error (.atNext .invalidNumber text)
  | '0' :: d :: more => .error (.atNext .invalidNumber (d :: more ++ rest))
  | digits =>
      let (significand, taken) := absorbDigits 0 digits
      let dropped := digits.length - taken
      match rest with
      | '.' :: rest => fractionPart positive significand dropped rest
      | 'e' :: rest => exponentPart positive significand dropped rest
      | 'E' :: rest => exponentPart positive significand dropped rest
      | rest =>
          if dropped = 0 then .ok (wholeNumber positive significand, rest)
          else realNumber positive significand dropped rest

/-- Reads a value that is neither a list nor an object. -/
def scalar : Reader Json
  | [] => .error (.atEnd .endInValue)
  | c :: cs =>
      if c = 'n' then do
        let rest ← expectWord ['u', 'l', 'l'] cs
        return (.null, rest)
      else if c = 't' then do
        let rest ← expectWord ['r', 'u', 'e'] cs
        return (.bool true, rest)
      else if c = 'f' then do
        let rest ← expectWord ['a', 'l', 's', 'e'] cs
        return (.bool false, rest)
      else if c = '-' then do
        let (n, rest) ← numberRest false cs
        return (.number n, rest)
      else if Text.isDigit c then do
        let (n, rest) ← numberRest true (c :: cs)
        return (.number n, rest)
      else if c = '"' then do
        let (s, rest) ← stringRest cs
        return (.string s, rest)
      else .error (.atNext .expectedValue (c :: cs))

end LiveHeap.Json
