import LiveHeap.Text.Decimal
import LiveHeap.Text.Shortest

/-!
# JSON values and their text

Whole numbers of 64 bits are kept exactly, all other numbers as floating point
numbers.  The members of an object keep their order.  The written form is
compact: no blank stands between two tokens, and a string escapes the double
quote, the backslash and the control characters, and nothing else.
-/

namespace LiveHeap

inductive JsonNumber where
  | natural (n : UInt64)
  /-- The number `-n`, where `n` lies between `1` and `2 ^ 63`. -/
  | negative (n : UInt64)
  | real (x : Float)
  deriving Inhabited

inductive Json where
  | null
  | bool (b : Bool)
  | number (n : JsonNumber)
  | string (s : String)
  | list (items : List Json)
  | object (members : List (String × Json))
  deriving Inhabited

def JsonNumber.text : JsonNumber → List Char
  | .natural n => Text.decimal n.toNat
  | .negative n => '-' :: Text.decimal n.toNat
  | .real x => Text.floatText x

namespace Json

def hexDigit (n : Nat) : Char := Nat.digitChar n

def escapedChar (c : Char) : List Char :=
  if c = '"' then ['\\', '"']
  else if c = '\\' then ['\\', '\\']
  else if c = '\n' then ['\\', 'n']
  else if c = '\r' then ['\\', 'r']
  else if c = '\t' then ['\\', 't']
  else if c = '\x08' then ['\\', 'b']
  else if c = '\x0c' then ['\\', 'f']
  else if c.toNat < 0x20 then
    ['\\', 'u', '0', '0', hexDigit (c.toNat / 16), hexDigit (c.toNat % 16)]
  else [c]

def stringText (s : String) : List Char :=
  '"' :: (s.toList.flatMap escapedChar ++ ['"'])

def commaSeparated : List (List Char) → List Char
  | [] => []
  | [piece] => piece
  | piece :: pieces => piece ++ ',' :: commaSeparated pieces

mutual

def text : Json → List Char
  | null => ['n', 'u', 'l', 'l']
  | bool true => ['t', 'r', 'u', 'e']
  | bool false => ['f', 'a', 'l', 's', 'e']
  | number n => n.text
  | string s => stringText s
  | list items => '[' :: (commaSeparated (itemTexts items) ++ [']'])
  | object members =>
      '\x7b' :: (commaSeparated (memberTexts members) ++ ['\x7d'])

def itemTexts : List Json → List (List Char)
  | [] => []
  | item :: items => item.text :: itemTexts items

def memberTexts : List (String × Json) → List (List Char)
  | [] => []
  | (key, value) :: members =>
      (stringText key ++ ':' :: value.text) :: memberTexts members

end

def render (j : Json) : String := String.ofList j.text

end Json

end LiveHeap
