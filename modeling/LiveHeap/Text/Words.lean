/-!
# Lines and words

Texts are cut at line feeds into lines and at blanks into words.  A blank is
any character with the Unicode property `White_Space`.
-/

namespace LiveHeap.Text

/-- The property `White_Space`, 25 characters in all. -/
def isBlank (c : Char) : Bool :=
  let n := c.toNat
  (0x09 ≤ n && n ≤ 0x0d) || n = 0x20 || n = 0x85 || n = 0xa0 || n = 0x1680 ||
    (0x2000 ≤ n && n ≤ 0x200a) || n = 0x2028 || n = 0x2029 || n = 0x202f ||
    n = 0x205f || n = 0x3000

/-- Cuts a text at every character with a property.  The pieces lie before,
between and after those characters, and may be empty. -/
def cutAt (p : Char → Bool) : List Char → List (List Char)
  | [] => [[]]
  | c :: cs =>
      if p c then [] :: cutAt p cs
      else
        match cutAt p cs with
        | [] => [[c]]
        | piece :: pieces => (c :: piece) :: pieces

def lines (text : List Char) : List (List Char) := cutAt (· = '\n') text

def words (text : List Char) : List (List Char) :=
  (cutAt isBlank text).filter fun word => !word.isEmpty

def trim (text : List Char) : List Char :=
  ((text.dropWhile isBlank).reverse.dropWhile isBlank).reverse

end LiveHeap.Text
