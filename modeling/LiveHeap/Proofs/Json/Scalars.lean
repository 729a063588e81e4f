import LiveHeap.Json.Scalar
import Mathlib.Data.List.TakeWhile

/-!
# Written scalars are read back

The reader of a string undoes every escape of the writer, and stops at the
closing quote whatever follows.  A number has no end of its own.  It is read
back if a comma, a closing bracket or nothing follows (`Delimited`).
-/

namespace LiveHeap

namespace Text

variable {n : Nat} {c : Char}

theorem isDigit_of_mem_decimal (hc : c ∈ decimal n) : isDigit c = true := by
  have hdigit : c.isDigit = true :=
    Nat.isDigit_of_mem_toDigits (by decide) (by decide) hc
  simpa [isDigit, Char.isDigit, Char.le_def] using hdigit

theorem decimal_ne_nil (n : Nat) : decimal n ≠ [] := Nat.toDigits_ne_nil

theorem exists_decimal_eq_cons (n : Nat) :
    ∃ d ds, decimal n = d :: ds ∧ isDigit d = true := by
  cases hdecimal : decimal n with
  | nil => exact absurd hdecimal (decimal_ne_nil n)
  | cons d ds =>
      refine ⟨d, ds, rfl, isDigit_of_mem_decimal (n := n) ?_⟩
      rw [hdecimal]
      exact List.mem_cons_self

/-- No number but zero is written with a leading zero. -/
theorem head?_decimal (hn : n ≠ 0) : (decimal n).head? ≠ some '0' := by
  induction n using Nat.strongRecOn with
  | ind n ih =>
      rcases Nat.lt_or_ge n 10 with hlt | hge
      · have hdigit : ∀ m < 10, m ≠ 0 → Nat.digitChar m ≠ '0' := by decide
        rw [decimal, Nat.toDigits_of_lt_base hlt]
        simpa using hdigit n hlt hn
      · have hsmaller := ih (n / 10) (by omega) (by omega)
        rw [decimal, Nat.toDigits_of_base_le (by decide) hge,
          List.head?_append]
        simpa [decimal, List.head?_eq_some_head Nat.toDigits_ne_nil]
          using hsmaller

end Text

namespace Json

/-- Nothing follows, or something that ends a number. -/
def Delimited (rest : List Char) : Prop :=
  ∀ c ∈ rest.head?, c = ',' ∨ c = ']' ∨ c = '\x7d'

section Delimited

theorem delimited_nil : Delimited [] := nofun

theorem delimited_comma (rest : List Char) : Delimited (',' :: rest) := by
  simp [Delimited]

theorem delimited_bracket (rest : List Char) : Delimited (']' :: rest) := by
  simp [Delimited]

theorem delimited_brace (rest : List Char) : Delimited ('\x7d' :: rest) := by
  simp [Delimited]

end Delimited

/-- The reader takes the text for the value and leaves what follows unread. -/
def ReadsBack {α : Type} (reader : Reader α) (text : List Char) (x : α) :
    Prop :=
  ∀ rest, Delimited rest → reader (text ++ rest) = .ok (x, rest)

/-! ## Numbers -/

theorem ofDigitChars_ge (digits : List Char) (n : Nat) :
    n ≤ Nat.ofDigitChars 10 digits n := by
  rw [Nat.ofDigitChars_eq_ofDigitChars_zero]
  have hscaled : n ≤ 10 ^ digits.length * n :=
    Nat.le_mul_of_pos_left n (Nat.pow_pos (by decide))
  omega

/-- Digits are taken to the last one if they fit into 64 bits. -/
theorem absorbDigits_eq {digits : List Char} {n : Nat}
    (hfits : Nat.ofDigitChars 10 digits n < UInt64.size) :
    absorbDigits n digits = (Nat.ofDigitChars 10 digits n, digits.length) := by
  induction digits generalizing n with
  | nil => rfl
  | cons d digits ih =>
      rw [Nat.ofDigitChars_cons] at hfits ⊢
      have hfirst := (ofDigitChars_ge digits _).trans_lt hfits
      rw [Nat.mul_comm] at hfits hfirst ⊢
      rw [absorbDigits]
      simp only [if_pos hfirst, ih hfits, List.length_cons]

theorem numberRest_decimal {n : Nat} (hn : n < UInt64.size) {rest : List Char}
    (hrest : Delimited rest) :
    numberRest true (Text.decimal n ++ rest) =
      .ok (.natural (UInt64.ofNat n), rest) := by
  have hdigits : ∀ c ∈ Text.decimal n, Text.isDigit c = true :=
    fun c hc => Text.isDigit_of_mem_decimal hc
  have hend : ∀ c ∈ rest.head?, Text.isDigit c = false := by
    intro c hc
    rcases hrest c hc with rfl | rfl | rfl <;> rfl
  have htake : (Text.decimal n ++ rest).takeWhile Text.isDigit =
      Text.decimal n := by
    rw [List.takeWhile_append_of_pos hdigits]
    cases rest with
    | nil => simp
    | cons c rest => simp [hend c rfl]
  have hdrop : (Text.decimal n ++ rest).dropWhile Text.isDigit = rest := by
    rw [List.dropWhile_append_of_pos hdigits]
    cases rest with
    | nil => simp
    | cons c rest => simp [hend c rfl]
  have hvalue : Nat.ofDigitChars 10 (Text.decimal n) 0 = n :=
    Nat.ofDigitChars_ten_toDigits
  have habsorbed : absorbDigits 0 (Text.decimal n) =
      (n, (Text.decimal n).length) := by
    rw [absorbDigits_eq (by rwa [hvalue]), hvalue]
  unfold numberRest
  simp only [htake, hdrop]
  split
  next hnone => exact absurd hnone (Text.decimal_ne_nil n)
  next d more hzero =>
    -- Only zero begins with a zero, and no digit follows there.
    have hhead : (Text.decimal n).head? = some '0' := by rw [hzero]; rfl
    obtain rfl : n = 0 := by
      by_contra hn
      exact Text.head?_decimal hn hhead
    rw [Text.decimal, Nat.toDigits_zero] at hzero
    cases hzero
  next =>
    simp only [habsorbed, Nat.sub_self]
    split
    next => simpa using hrest '.' rfl
    next => simpa using hrest 'e' rfl
    next => simpa using hrest 'E' rfl
    next => rfl

/-! ## Strings -/

theorem hexValue?_hexDigit {n : Nat} (hn : n < 16) :
    hexValue? (hexDigit n) = some n := by
  have hall : ∀ m < 16, hexValue? (hexDigit m) = some m := by decide
  exact hall n hn

/-- A control character, written with its two low hex digits. -/
theorem escape_control {c : Char} (hc : c.toNat < 0x20) (rest : List Char) :
    escape ('u' :: '0' :: '0' :: hexDigit (c.toNat / 16) ::
      hexDigit (c.toNat % 16) :: rest) = .ok (c, rest) := by
  have hhigh := hexValue?_hexDigit (n := c.toNat / 16) (by omega)
  have hlow := hexValue?_hexDigit (n := c.toNat % 16) (by omega)
  have hzero : hexValue? '0' = some 0 := rfl
  have hvalue : ((0 * 16 + 0) * 16 + c.toNat / 16) * 16 + c.toNat % 16 =
      c.toNat := by omega
  have hread : hexEscape ('0' :: '0' :: hexDigit (c.toNat / 16) ::
      hexDigit (c.toNat % 16) :: rest) = .ok (c.toNat, rest) := by
    simp only [hexEscape, hzero, hhigh, hlow, hvalue]
  have hplain : unicodeEscape ('0' :: '0' :: hexDigit (c.toNat / 16) ::
      hexDigit (c.toNat % 16) :: rest) = .ok (c, rest) := by
    have hnotLow : (0xdc00 ≤ c.toNat && c.toNat ≤ 0xdfff) = false := by
      simp; omega
    have hnotHigh : (0xd800 ≤ c.toNat && c.toNat ≤ 0xdbff) = false := by
      simp; omega
    simp [unicodeEscape, hread, bind, Except.bind, hnotLow, hnotHigh, pure,
      Except.pure]
  exact hplain

section Body

variable {c e : Char} {text rest : List Char}

/-- Puts a character in front of what is read of the rest of a string. -/
def withFirst (c : Char) (body : Except Fault (List Char × List Char)) :
    Except Fault (List Char × List Char) :=
  body.map fun (cs, rest) => (c :: cs, rest)

theorem stringBody_of_escape (hescape : escape text = .ok (c, rest)) :
    stringBody ('\\' :: text) = withFirst c (stringBody rest) := by
  rw [stringBody, if_neg (by decide), if_pos rfl]
  split
  next hfailed => cases hfailed.symm.trans hescape
  next hread =>
    obtain ⟨rfl, rfl⟩ := Prod.mk.inj (Except.ok.inj (hread.symm.trans hescape))
    unfold withFirst
    split
    next hbody => rw [hbody]; rfl
    next hbody => rw [hbody]; rfl

theorem stringBody_of_plain (hquote : c ≠ '"') (hbackslash : c ≠ '\\')
    (hcontrol : ¬ c.toNat < 0x20) :
    stringBody (c :: text) = withFirst c (stringBody text) := by
  rw [stringBody]
  simp only [if_neg hquote, if_neg hbackslash, if_neg hcontrol]
  cases stringBody text <;> rfl

/-- The three ways to write a character. -/
inductive Written (c : Char) : List Char → Prop
  | simple {e : Char} (meaning : simpleEscape? e = some c) :
      Written c ['\\', e]
  | control (below : c.toNat < 0x20) : Written c
      ['\\', 'u', '0', '0', hexDigit (c.toNat / 16), hexDigit (c.toNat % 16)]
  | plain (quote : c ≠ '"') (backslash : c ≠ '\\')
      (above : ¬ c.toNat < 0x20) : Written c [c]

theorem written_escapedChar (c : Char) : Written c (escapedChar c) := by
  unfold escapedChar
  split_ifs with hquote hbackslash hfeed hreturn htab hback hpage hcontrol
  · exact .simple (by rw [hquote]; rfl)
  · exact .simple (by rw [hbackslash]; rfl)
  · exact .simple (hfeed ▸ rfl)
  · exact .simple (hreturn ▸ rfl)
  · exact .simple (htab ▸ rfl)
  · exact .simple (hback ▸ rfl)
  · exact .simple (hpage ▸ rfl)
  · exact .control hcontrol
  · exact .plain hquote hbackslash hcontrol

/-- The reader takes the written form of a character for this character. -/
theorem Written.stringBody {written : List Char} (h : Written c written)
    (text : List Char) :
    stringBody (written ++ text) = withFirst c (stringBody text) := by
  cases h with
  | simple hmeaning =>
      apply stringBody_of_escape
      simp [escape, hmeaning]
  | control hbelow => exact stringBody_of_escape (escape_control hbelow text)
  | plain hquote hbackslash habove =>
      exact stringBody_of_plain hquote hbackslash habove

theorem stringBody_flatMap (cs rest : List Char) :
    stringBody (cs.flatMap escapedChar ++ '"' :: rest) = .ok (cs, rest) := by
  induction cs with
  | nil => simp [stringBody]
  | cons c cs ih =>
      rw [List.flatMap_cons, List.append_assoc,
        (written_escapedChar c).stringBody, ih]
      rfl

end Body

theorem stringRest_flatMap (s : String) (rest : List Char) :
    stringRest (s.toList.flatMap escapedChar ++ '"' :: rest) =
      .ok (s, rest) := by
  simp [stringRest, stringBody_flatMap, bind, Except.bind, pure, Except.pure]

/-! ## Scalars -/

theorem text_string_append (s : String) (rest : List Char) :
    text (.string s) ++ rest =
      '"' :: (s.toList.flatMap escapedChar ++ '"' :: rest) := by
  simp [text, stringText]

theorem readsBack_null : ReadsBack scalar (text .null) .null := by
  intro rest _
  rfl

theorem readsBack_bool (b : Bool) :
    ReadsBack scalar (text (.bool b)) (.bool b) := by
  intro rest _
  cases b <;> rfl

theorem readsBack_natural (n : UInt64) :
    ReadsBack scalar (text (.number (.natural n))) (.number (.natural n)) := by
  intro rest hrest
  have hread := numberRest_decimal n.toNat_lt hrest
  rcases Text.exists_decimal_eq_cons n.toNat with ⟨d, ds, hdecimal, hdigit⟩
  have hletter : d ≠ 'n' ∧ d ≠ 't' ∧ d ≠ 'f' ∧ d ≠ '-' := by
    refine ⟨?_, ?_, ?_, ?_⟩ <;> rintro rfl <;> cases hdigit
  rw [hdecimal, UInt64.ofNat_toNat] at hread
  rw [text, JsonNumber.text, hdecimal]
  rw [List.cons_append] at hread ⊢
  simp only [scalar, hletter, hdigit, hread, if_true, if_false, bind,
    Except.bind, pure, Except.pure]

theorem readsBack_string (s : String) :
    ReadsBack scalar (text (.string s)) (.string s) := by
  intro rest _
  have hscalar (cs : List Char) : scalar ('"' :: cs) =
      stringRest cs >>= fun r => .ok (.string r.1, r.2) := rfl
  rw [text_string_append, hscalar, stringRest_flatMap]
  rfl

end Json

end LiveHeap
