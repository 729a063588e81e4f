import LiveHeap.Text.EscapedByNumber

/-!
# Quoted texts in diagnostics

Diagnostics show a text between double quotes.  The usual escapes stand for
the characters that have one, and a character that would not be seen is shown
by its number.
-/

namespace LiveHeap.Text

def hexDigits (n : Nat) : List Char := Nat.toDigits 16 n

def quotedChar (c : Char) : List Char :=
  if c = '"' then ['\\', '"']
  else if c = '\\' then ['\\', '\\']
  else if c = '\n' then ['\\', 'n']
  else if c = '\r' then ['\\', 'r']
  else if c = '\t' then ['\\', 't']
  else if c.toNat = 0 then ['\\', '0']
  else if c.toNat < 0x20 || (0x7e < c.toNat && isEscapedByNumber c) then
    ['\\', 'u', '\x7b'] ++ hexDigits c.toNat ++ ['\x7d']
  else [c]

def quoted (text : String) : String :=
  String.ofList ('"' :: text.toList.flatMap quotedChar ++ ['"'])

end LiveHeap.Text
