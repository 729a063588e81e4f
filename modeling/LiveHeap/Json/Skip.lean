import LiveHeap.Json.Reader

/-!
# Passing over values

The value of an unknown field is passed over.  It has to be well formed, but
it may nest without a limit, numbers in it may have any size, and strings in
it may hold lone surrogates.
-/

namespace LiveHeap.Json

def skipString (text : List Char) : Except Fault (List Char) :=
  match text with
  | [] => .error (.atEnd .endInString)
  | c :: cs =>
      if c = '"' then .ok cs
      else if c = '\\' then
        match cs with
        | [] => .error (.atEnd .endInString)
        | d :: ds =>
            if (simpleEscape? d).isSome then skipString ds
            else if d = 'u' then
              match _h : hexEscape ds with
              | .error e => .error e
              | .ok (_, rest) => skipString rest
            else .error (.atNext .invalidEscape (d :: ds))
      else if c.toNat < 0x20 then .error (.here .controlCharacter (c :: cs))
      else skipString cs
termination_by text.length
decreasing_by
  · simp only [List.length_cons]
    omega
  · have := length_hexEscape _h
    simp only [List.length_cons]
    omega
  · simp

def skipExponent (text : List Char) : Except Fault (List Char) :=
  let text :=
    match text with
    | '+' :: text => text
    | '-' :: text => text
    | text => text
  match text with
  | [] => .error (.atEnd .invalidNumber)
  | c :: cs =>
      if Text.isDigit c then .ok (cs.dropWhile Text.isDigit)
      else .error (.atNext .invalidNumber (c :: cs))

def skipNumberEnd : List Char → Except Fault (List Char)
  | 'e' :: text => skipExponent text
  | 'E' :: text => skipExponent text
  | text => .ok text

def skipNumber (text : List Char) : Except Fault (List Char) :=
  let digits := text.takeWhile Text.isDigit
  let rest := text.dropWhile Text.isDigit
  match digits with
  | [] => .error (.atNext .invalidNumber text)
  | '0' :: d :: more => .error (.atNext .invalidNumber (d :: more ++ rest))
  | _ =>
      match rest with
      | '.' :: text =>
          if (text.takeWhile Text.isDigit).isEmpty then
            .error (.atNext .invalidNumber text)
          else skipNumberEnd (text.dropWhile Text.isDigit)
      | text => skipNumberEnd text

def skipScalar : List Char → Except Fault (List Char)
  | [] => .error (.atEnd .endInValue)
  | c :: cs =>
      if c = 'n' then expectWord ['u', 'l', 'l'] cs
      else if c = 't' then expectWord ['r', 'u', 'e'] cs
      else if c = 'f' then expectWord ['a', 'l', 's', 'e'] cs
      else if c = '-' then skipNumber cs
      else if Text.isDigit c then skipNumber (c :: cs)
      else if c = '"' then skipString cs
      else .error (.atNext .expectedValue (c :: cs))

inductive Bracket where
  | list
  | object
  deriving DecidableEq

/-- Passes over a key and its colon, with the text in front of the key. -/
def skipKey (text : List Char) : Except Fault (List Char) :=
  match skipBlanks text with
  | [] => .error (.atEnd .endInObject)
  | c :: cs =>
      if c = '"' then do
        let rest ← skipString cs
        colon rest
      else .error (.atNext .keyMustBeString (c :: cs))

mutual

/-- Passes over a value inside some open brackets, and over all that follows
up to the last of the closing brackets. -/
def skipOpen : Nat → List Bracket → List Char → Except Fault (List Char)
  | 0, _, _ => .error (.atEnd .endInValue)
  | rounds + 1, brackets, text =>
      match skipBlanks text with
      | [] => .error (.atEnd .endInValue)
      | c :: cs =>
          if c = '[' then skipClosing rounds (.list :: brackets) true cs
          else if c = '\x7b' then
            skipClosing rounds (.object :: brackets) true cs
          else
            match skipScalar (c :: cs) with
            | .error e => .error e
            | .ok rest => skipClosing rounds brackets false rest

/-- Goes on behind a value, or behind a bracket that was just opened. -/
def skipClosing : Nat → List Bracket → Bool → List Char →
    Except Fault (List Char)
  | 0, _, _, _ => .error (.atEnd .endInValue)
  | _ + 1, [], _, text => .ok text
  | rounds + 1, .list :: brackets, opened, text =>
      match skipBlanks text with
      | [] => .error (.atEnd .endInList)
      | c :: cs =>
          if c = ']' then skipClosing rounds brackets false cs
          else if opened then
            skipOpen rounds (.list :: brackets) (c :: cs)
          else if c = ',' then skipOpen rounds (.list :: brackets) cs
          else .error (.atNext .expectedListCommaOrEnd (c :: cs))
  | rounds + 1, .object :: brackets, opened, text =>
      match skipBlanks text with
      | [] => .error (.atEnd .endInObject)
      | c :: cs =>
          if c = '\x7d' then skipClosing rounds brackets false cs
          else if opened then
            match skipKey (c :: cs) with
            | .error e => .error e
            | .ok rest => skipOpen rounds (.object :: brackets) rest
          else if c = ',' then
            match skipKey cs with
            | .error e => .error e
            | .ok rest => skipOpen rounds (.object :: brackets) rest
          else .error (.atNext .expectedObjectCommaOrEnd (c :: cs))

end

def skipValue (text : List Char) : Except Fault (List Char) :=
  skipOpen (2 * text.length + 2) [] text

/-- Passes over the value of an unknown field, behind its key. -/
def skipField (text : List Char) : Except Fault (List Char) := do
  let text ← colon text
  skipValue text

end LiveHeap.Json
