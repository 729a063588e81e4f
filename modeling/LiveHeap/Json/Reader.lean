import LiveHeap.Json.Scalar

/-!
# Reading lists, objects and values

Lists and objects are read by handing the text to a reader for each element.
The number of rounds is bounded by the length of the text, since every element
takes a character at least.  A value may nest up to a number of lists and
objects, and recursion on that number reads it.
-/

namespace LiveHeap.Json

/-- What comes next in a list or object: an element, or the closing bracket.
The text of a key begins behind its opening quote. -/
inductive Next where
  | element (text : List Char)
  | close (text : List Char)

def nextItem (first : Bool) (text : List Char) : Except Fault Next :=
  match skipBlanks text with
  | [] => .error (.atEnd .endInList)
  | c :: cs =>
      if c = ']' then .ok (.close (c :: cs))
      else if first then .ok (.element (c :: cs))
      else if c = ',' then
        match skipBlanks cs with
        | [] => .error (.atEnd .endInValue)
        | d :: ds =>
            if d = ']' then .error (.atNext .trailingComma (d :: ds))
            else .ok (.element (d :: ds))
      else .error (.atNext .expectedListCommaOrEnd (c :: cs))

def nextKey (first : Bool) (text : List Char) : Except Fault Next :=
  match skipBlanks text with
  | [] => .error (.atEnd .endInObject)
  | c :: cs =>
      if c = '\x7d' then .ok (.close (c :: cs))
      else if first then
        if c = '"' then .ok (.element cs)
        else .error (.atNext .keyMustBeString (c :: cs))
      else if c = ',' then
        match skipBlanks cs with
        | [] => .error (.atEnd .endInValue)
        | d :: ds =>
            if d = '"' then .ok (.element ds)
            else if d = '\x7d' then .error (.atNext .trailingComma (d :: ds))
            else .error (.atNext .keyMustBeString (d :: ds))
      else .error (.atNext .expectedObjectCommaOrEnd (c :: cs))

def colon (text : List Char) : Except Fault (List Char) :=
  match skipBlanks text with
  | [] => .error (.atEnd .endInObject)
  | c :: cs =>
      if c = ':' then .ok cs else .error (.atNext .expectedColon (c :: cs))

def closeList (text : List Char) : Except Fault (List Char) :=
  match skipBlanks text with
  | [] => .error (.atEnd .endInList)
  | c :: cs =>
      if c = ']' then .ok cs
      else if c = ',' then
        match skipBlanks cs with
        | [] => .error (.atEnd .trailingCharacters)
        | d :: ds =>
            if d = ']' then .error (.atNext .trailingComma (d :: ds))
            else .error (.atNext .trailingCharacters (d :: ds))
      else .error (.atNext .trailingCharacters (c :: cs))

def closeObject (text : List Char) : Except Fault (List Char) :=
  match skipBlanks text with
  | [] => .error (.atEnd .endInObject)
  | c :: cs =>
      if c = '\x7d' then .ok cs
      else if c = ',' then .error (.atNext .trailingComma (c :: cs))
      else .error (.atNext .trailingCharacters (c :: cs))

/-- How far reading gets when it tries to close a list: behind the bracket, or
behind a comma and the blanks after it. -/
def settleList (text : List Char) : List Char :=
  match skipBlanks text with
  | [] => []
  | c :: cs =>
      if c = ']' then cs
      else if c = ',' then skipBlanks cs
      else c :: cs

def settleObject (text : List Char) : List Char :=
  match skipBlanks text with
  | [] => []
  | c :: cs => if c = '\x7d' then cs else c :: cs

/-- Reads the inside of a list and its closing bracket.  A fault without a
place gets one here. -/
def inList {α : Type} (inside : Reader α) : Reader α := fun text =>
  match inside text with
  | .ok (x, rest) =>
      match closeList rest with
      | .ok rest => .ok (x, rest)
      | .error e => .error e
  | .error (.unplaced cause rest) => .error (.here cause (settleList rest))
  | .error e => .error e

def inObject {α : Type} (inside : Reader α) : Reader α := fun text =>
  match inside text with
  | .ok (x, rest) =>
      match closeObject rest with
      | .ok rest => .ok (x, rest)
      | .error e => .error e
  | .error (.unplaced cause rest) => .error (.here cause (settleObject rest))
  | .error e => .error e

/-- Reads the items of a list up to its closing bracket. -/
def items {α : Type} (item : Reader α) : Nat → Bool → Reader (List α)
  | 0, _, _ => .error (.atEnd .endInList)
  | rounds + 1, first, text =>
      match nextItem first text with
      | .error e => .error e
      | .ok (.close rest) => .ok ([], rest)
      | .ok (.element text) => do
          let (x, rest) ← item text
          let (xs, rest) ← items item rounds false rest
          return (x :: xs, rest)

/-- Reads the members of an object up to its closing bracket.  The reader of a
member begins behind the key. -/
def members {σ : Type} (member : σ → String → Reader σ) :
    Nat → Bool → σ → Reader σ
  | 0, _, _, _ => .error (.atEnd .endInObject)
  | rounds + 1, first, state, text =>
      match nextKey first text with
      | .error e => .error e
      | .ok (.close rest) => .ok (state, rest)
      | .ok (.element text) => do
          let (key, rest) ← stringRest text
          let (state, rest) ← member state key rest
          members member rounds false state rest

def listRest {α : Type} (item : Reader α) : Reader (List α) :=
  inList fun text => items item (text.length + 1) true text

/-- Reads a value that nests at most a number of lists and objects. -/
def readValue (room : Nat) : Reader Json := fun text =>
  match skipBlanks text with
  | [] => .error (.atEnd .endInValue)
  | c :: cs =>
      if c = '[' then
        match room with
        | 0 => .error (.atNext .recursionLimit (c :: cs))
        | room + 1 => do
            let (xs, rest) ← listRest (readValue room) cs
            return (.list xs, rest)
      else if c = '\x7b' then
        match room with
        | 0 => .error (.atNext .recursionLimit (c :: cs))
        | room + 1 => do
            let member := fun ms key text => do
              let text ← colon text
              let (v, rest) ← readValue room text
              return (ms ++ [(key, v)], rest)
            let (ms, rest) ← inObject
              (fun text => members member (text.length + 1) true [] text) cs
            return (.object ms, rest)
      else scalar (c :: cs)

/-- The fault of a value that is not what was expected.  Lists and objects are
not read for it. -/
def wrongTypeFault (expected : String) : List Char → Fault
  | [] => .atEnd .endInValue
  | c :: cs =>
      if c = '[' then .here (.wrongType .sequence expected) (c :: cs)
      else if c = '\x7b' then .here (.wrongType .map expected) (c :: cs)
      else
        match scalar (c :: cs) with
        | .ok (j, rest) => .here (.wrongType j.found expected) rest
        | .error e => e

def readList {α : Type} (item : Reader α) : Reader (List α) := fun text =>
  match skipBlanks text with
  | [] => .error (.atEnd .endInValue)
  | c :: cs =>
      if c = '[' then listRest item cs
      else .error (wrongTypeFault "a sequence" (c :: cs))

def readString : Reader String := fun text =>
  match skipBlanks text with
  | [] => .error (.atEnd .endInValue)
  | c :: cs =>
      if c = '"' then stringRest cs
      else .error (wrongTypeFault "a string" (c :: cs))

def readNatural (bound : Nat) (expected : String) : Reader UInt64 := fun text =>
  match skipBlanks text with
  | [] => .error (.atEnd .endInValue)
  | c :: cs =>
      if c = '-' || Text.isDigit c then
        match scalar (c :: cs) with
        | .error e => .error e
        | .ok (.number (.natural n), rest) =>
            if n.toNat < bound then .ok (n, rest)
            else .error
              (.here (.wrongValue (.number (.natural n)) expected) rest)
        | .ok (.number (.negative n), rest) =>
            .error (.here (.wrongValue (.number (.negative n)) expected) rest)
        | .ok (j, rest) => .error (.here (.wrongType j.found expected) rest)
      else .error (wrongTypeFault expected (c :: cs))

def readNullable {α : Type} (reader : Reader α) : Reader (Option α) := fun text =>
  match skipBlanks text with
  | 'n' :: cs => do
      let rest ← expectWord ['u', 'l', 'l'] cs
      return (none, rest)
  | text => do
      let (x, rest) ← reader text
      return (some x, rest)

/-- Reads a record, which may be written as an object or as the list of its
fields. -/
def readRecord {α : Type} (expected : String) (fromList fromObject : Reader α) :
    Reader α := fun text =>
  match skipBlanks text with
  | [] => .error (.atEnd .endInValue)
  | c :: cs =>
      if c = '[' then inList fromList cs
      else if c = '\x7b' then inObject fromObject cs
      else .error (wrongTypeFault expected (c :: cs))

/-- Reads a field of a record that is written as a list.  A list that ends
before the field leaves it absent. -/
def positional {α : Type} (first : Bool) (absent : Except Cause α)
    (reader : Reader α) : Reader α := fun text =>
  match nextItem first text with
  | .error e => .error e
  | .ok (.element text) => reader text
  | .ok (.close rest) =>
      match absent with
      | .ok x => .ok (x, rest)
      | .error cause => .error (.unplaced cause rest)

/-- Reads a field of a record that is written as an object, behind its key.  A
field may not occur twice. -/
def named {α : Type} (name : String) (known : Option α) (reader : Reader α) :
    Reader α := fun text =>
  if known.isSome then .error (.unplaced (.duplicateField name) text)
  else do
    let text ← colon text
    reader text

/-- Reads a whole text, which ends behind one value. -/
def readDocument {α : Type} (reader : Reader α) (text : List Char) :
    Except Fault α := do
  let (x, rest) ← reader text
  match skipBlanks rest with
  | [] => return x
  | c :: cs => throw (.atNext .trailingCharacters (c :: cs))

end LiveHeap.Json
