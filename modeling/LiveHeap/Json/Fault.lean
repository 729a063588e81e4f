import LiveHeap.Json.Basic
import LiveHeap.Text.Quoted

/-!
# Faults in JSON texts

A fault has a cause and a place.  The cause is either in the syntax or in the
data that was found.  Some causes are noticed only after the value was read;
their place stays open until the enclosing list or object has tried to close,
and is then where reading stands.
-/

namespace LiveHeap.Json

inductive Found where
  | null
  | boolean (b : Bool)
  | number (n : JsonNumber)
  | string (s : String)
  | sequence
  | map

def Found.text : Found → String
  | null => "null"
  | boolean b => "boolean `" ++ toString b ++ "`"
  | number (.natural n) => "integer `" ++ String.ofList (Text.decimal n.toNat) ++ "`"
  | number (.negative n) => "integer `-" ++ String.ofList (Text.decimal n.toNat) ++ "`"
  | number (.real x) => "floating point `" ++ String.ofList (Text.floatText x) ++ "`"
  | string s => "string " ++ Text.quoted s
  | sequence => "sequence"
  | map => "map"

def found : Json → Found
  | null => .null
  | bool b => .boolean b
  | number n => .number n
  | string s => .string s
  | list _ => .sequence
  | object _ => .map

inductive Cause where
  | endInValue
  | endInList
  | endInObject
  | endInString
  | expectedValue
  | expectedIdentifier
  | expectedColon
  | expectedListCommaOrEnd
  | expectedObjectCommaOrEnd
  | keyMustBeString
  | trailingComma
  | trailingCharacters
  | invalidNumber
  | numberOutOfRange
  | invalidEscape
  | unexpectedEndOfHexEscape
  | loneSurrogate
  | controlCharacter
  | recursionLimit
  | wrongType (found : Found) (expected : String)
  | wrongValue (found : Found) (expected : String)
  | wrongLength (length : Nat) (expected : String)
  | missingField (name : String)
  | duplicateField (name : String)
  | unknownVariant (name : String) (known : List String)

def Cause.text : Cause → String
  | endInValue => "EOF while parsing a value"
  | endInList => "EOF while parsing a list"
  | endInObject => "EOF while parsing an object"
  | endInString => "EOF while parsing a string"
  | expectedValue => "expected value"
  | expectedIdentifier => "expected ident"
  | expectedColon => "expected `:`"
  | expectedListCommaOrEnd => "expected `,` or `]`"
  | expectedObjectCommaOrEnd => "expected `,` or `\x7d`"
  | keyMustBeString => "key must be a string"
  | trailingComma => "trailing comma"
  | trailingCharacters => "trailing characters"
  | invalidNumber => "invalid number"
  | numberOutOfRange => "number out of range"
  | invalidEscape => "invalid escape"
  | unexpectedEndOfHexEscape => "unexpected end of hex escape"
  | loneSurrogate => "lone leading surrogate in hex escape"
  | controlCharacter =>
      "control character (\\u0000-\\u001F) found while parsing a string"
  | recursionLimit => "recursion limit exceeded"
  | wrongType found expected =>
      "invalid type: " ++ found.text ++ ", expected " ++ expected
  | wrongValue found expected =>
      "invalid value: " ++ found.text ++ ", expected " ++ expected
  | wrongLength length expected =>
      "invalid length " ++ toString length ++ ", expected " ++ expected
  | missingField name => "missing field `" ++ name ++ "`"
  | duplicateField name => "duplicate field `" ++ name ++ "`"
  | unknownVariant name known =>
      "unknown variant `" ++ name ++ "`, expected one of " ++
        ", ".intercalate (known.map fun k => "`" ++ k ++ "`")

def byteLength (text : List Char) : Nat :=
  text.foldr (fun c n => c.utf8Size + n) 0

inductive Fault where
  /-- A fault at the place that has a number of unread bytes behind it. -/
  | placed (cause : Cause) (left : Nat)
  /-- A fault without a place, met with this much text unread. -/
  | unplaced (cause : Cause) (rest : List Char)

/-- A fault just behind the first byte of the unread text, or at its end. -/
def Fault.atNext (cause : Cause) (rest : List Char) : Fault :=
  .placed cause (byteLength rest - 1)

def Fault.here (cause : Cause) (rest : List Char) : Fault :=
  .placed cause (byteLength rest)

def Fault.atEnd (cause : Cause) : Fault := .placed cause 0

/-- The line and the column reached after a number of bytes.  Lines count from
one and columns in bytes from zero. -/
def placeAfter : Nat → Nat → Nat → List Char → Nat × Nat
  | line, column, _, [] => (line, column)
  | line, column, bytes, c :: cs =>
      if bytes = 0 then (line, column)
      else if c = '\n' then placeAfter (line + 1) 0 (bytes - 1) cs
      else
        let size := min c.utf8Size bytes
        placeAfter line (column + size) (bytes - size) cs

/-- A fault as its reader is told of it. -/
structure Diagnosis where
  cause : Cause
  line : Nat
  column : Nat

def Fault.diagnose (source : List Char) : Fault → Diagnosis
  | placed cause left =>
      let (line, column) := placeAfter 1 0 (byteLength source - left) source
      ⟨cause, line, column⟩
  | unplaced cause rest =>
      let (line, column) :=
        placeAfter 1 0 (byteLength source - byteLength rest) source
      ⟨cause, line, column⟩

def Diagnosis.text (d : Diagnosis) : String :=
  d.cause.text ++ " at line " ++ toString d.line ++ " column " ++
    toString d.column

end LiveHeap.Json
