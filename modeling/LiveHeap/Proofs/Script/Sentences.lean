import LiveHeap.Proofs.Script.Phrases
import Mathlib.Data.List.Forall2
import Mathlib.Tactic.SplitIfs

/-!
# Everything that is an event

The reader takes more than the phrases that events are written with.  An id may
have a plus sign and leading zeros, attributes may be repeated, and words that
an event has no use for are passed over.  Here are all the words that say an
event, and the reader understands them and no others.
-/

namespace LiveHeap.Script

/-! ## Ids and ends of links -/

/-- Decimal digits for the id, so that their value is below `2 ^ 64`. -/
structure Digits (id : ValueId) (digits : List Char) : Prop where
  nonempty : digits ≠ []
  decimal : ∀ c ∈ digits, Text.isDigit c = true
  value : Text.digitsValue digits = id.word.toNat

inductive Numeral : ValueId → List Char → Prop
  | plain {id : ValueId} {digits : List Char} (h : Digits id digits) :
      Numeral id digits
  | plus {id : ValueId} {digits : List Char} (h : Digits id digits) :
      Numeral id ('+' :: digits)

inductive EndOfLink : Option ValueId → List Char → Prop
  | root : EndOfLink none ['-']
  | value {id : ValueId} {word : List Char} (h : Numeral id word) :
      EndOfLink (some id) word

theorem bind_eq_ok_iff {ε α β : Type} {x : Except ε α} {f : α → Except ε β}
    {b : β} : x >>= f = .ok b ↔ ∃ a, x = .ok a ∧ f a = .ok b := by
  cases x with
  | error fault => simp [bind, Except.bind]
  | ok a => simp [bind, Except.bind]

section Ids

variable {id : ValueId} {word : List Char} {words : List (List Char)}

theorem Digits.not_plus {digits : List Char} :
    ¬ Digits id ('+' :: digits) := by
  intro h
  have hplus := h.decimal '+' List.mem_cons_self
  contradiction

theorem Numeral.ne_dash (h : Numeral id word) : word ≠ ['-'] := by
  rintro rfl
  cases h with
  | plain h =>
      have hdash := h.decimal '-' List.mem_cons_self
      contradiction

theorem readDigits?_eq_some_iff :
    Text.readDigits? word = some id.word ↔ Digits id word := by
  have hfits : id.word.toNat < UInt64.size := id.word.toNat_lt
  constructor
  · intro h
    simp only [Text.readDigits?] at h
    split_ifs at h with hdigits hsmall
    simp only [Bool.or_eq_true, List.isEmpty_iff, Bool.not_eq_true',
      Bool.not_eq_false, not_or, List.all_eq_true] at hdigits
    have hword := Option.some.inj h
    have hvalue : (UInt64.ofNat (Text.digitsValue word)).toNat =
        Text.digitsValue word := UInt64.toNat_ofNat_of_lt' hsmall
    exact ⟨hdigits.1, hdigits.2, by rw [← hword, hvalue]⟩
  · intro h
    have hall : word.all Text.isDigit = true := List.all_eq_true.mpr h.decimal
    have hsome := List.isEmpty_eq_false_iff.mpr h.nonempty
    simp [Text.readDigits?, hall, hsome, h.value, hfits]

theorem parseId_eq_ok_iff : parseId word = .ok id ↔ Numeral id word := by
  have hread : parseId word = .ok id ↔
      Text.readWord64? word = some id.word := by
    unfold parseId
    cases Text.readWord64? word with
    | none => simp
    | some n => cases id; simp
  rw [hread]
  constructor
  · intro h
    unfold Text.readWord64? at h
    split at h
    next => exact .plus (readDigits?_eq_some_iff.mp h)
    next => exact .plain (readDigits?_eq_some_iff.mp h)
  · intro h
    cases h with
    | plus hdigits => exact readDigits?_eq_some_iff.mpr hdigits
    | plain hdigits =>
        unfold Text.readWord64?
        split
        next => exact absurd hdigits Digits.not_plus
        next => exact readDigits?_eq_some_iff.mpr hdigits

theorem takeId_eq_ok_iff {r : ValueId × List (List Char)} :
    takeId words = .ok r ↔ ∃ word, words = word :: r.2 ∧ Numeral r.1 word := by
  cases words with
  | nil => simp [takeId]
  | cons word words =>
      have htake : takeId (word :: words) =
          parseId word >>= fun id => .ok (id, words) := rfl
      rw [htake, bind_eq_ok_iff]
      constructor
      · rintro ⟨id, hid, hr⟩
        rw [← Except.ok.inj hr]
        exact ⟨word, rfl, parseId_eq_ok_iff.mp hid⟩
      · rintro ⟨first, hwords, hid⟩
        obtain ⟨rfl, rfl⟩ := List.cons.inj hwords
        exact ⟨r.1, parseId_eq_ok_iff.mpr hid, rfl⟩

theorem takeEnd_of_ne (h : words.head? ≠ some ['-']) :
    takeEnd words = takeId words >>= fun r => .ok (some r.1, r.2) := by
  unfold takeEnd
  split
  next => contradiction
  next => rfl

theorem takeEnd_eq_ok_iff {r : Option ValueId × List (List Char)} :
    takeEnd words = .ok r ↔
      ∃ word, words = word :: r.2 ∧ EndOfLink r.1 word := by
  by_cases hdash : words.head? = some ['-']
  · obtain ⟨more, rfl⟩ := List.head?_eq_some_iff.mp hdash
    have htake : takeEnd (['-'] :: more) = .ok (none, more) := rfl
    rw [htake, Except.ok.injEq]
    constructor
    · rintro rfl
      exact ⟨_, rfl, .root⟩
    · rintro ⟨word, hwords, hend⟩
      obtain ⟨rfl, rfl⟩ := List.cons.inj hwords
      rcases r with ⟨stop, more⟩
      cases hend with
      | root => rfl
      | value h => exact absurd rfl h.ne_dash
  · rw [takeEnd_of_ne hdash, bind_eq_ok_iff]
    constructor
    · rintro ⟨s, hs, hr⟩
      obtain ⟨word, hwords, hid⟩ := takeId_eq_ok_iff.mp hs
      rw [← Except.ok.inj hr]
      exact ⟨word, hwords, .value hid⟩
    · rintro ⟨word, rfl, hend⟩
      rcases r with ⟨stop, more⟩
      cases hend with
      | root => exact absurd rfl hdash
      | @value id word h =>
          exact ⟨(id, more), takeId_eq_ok_iff.mpr ⟨word, rfl, h⟩, rfl⟩

theorem mapM_parseId_eq_ok_iff {ids : List ValueId} :
    words.mapM parseId = .ok ids ↔ List.Forall₂ Numeral ids words := by
  induction words generalizing ids with
  | nil => simp [pure, Except.pure, eq_comm]
  | cons word words ih =>
      rw [List.mapM_cons, bind_eq_ok_iff, List.forall₂_cons_right_iff]
      constructor
      · rintro ⟨id, hid, hmore⟩
        obtain ⟨more, hids, heq⟩ := bind_eq_ok_iff.mp hmore
        exact ⟨id, more, parseId_eq_ok_iff.mp hid, ih.mp hids,
          (Except.ok.inj heq).symm⟩
      · rintro ⟨id, more, hid, hmore, rfl⟩
        exact ⟨id, parseId_eq_ok_iff.mpr hid,
          bind_eq_ok_iff.mpr ⟨more, ih.mpr hmore, rfl⟩⟩

end Ids

/-! ## Attributes -/

theorem eq_append_of_afterPrefix? {start word text : List Char}
    (h : afterPrefix? start word = some text) : word = start ++ text := by
  induction start generalizing word with
  | nil => exact Option.some.inj h
  | cons p start ih =>
      cases word with
      | nil => contradiction
      | cons c word =>
          rw [afterPrefix?] at h
          split_ifs at h with hc
          rw [hc, ih h]
          rfl

theorem exists_attribute {v v' : Value} {word : List Char}
    (h : applyAttribute v word = .ok v') :
    ∃ a : Attribute, word = a.word ∧ v' = v.mapProfile a.describe := by
  have hback : ∀ text, (String.ofList text).toList = text :=
    fun _ => String.toList_ofList
  by_cases hobject : word = "object".toList
  · rw [hobject] at h
    exact ⟨.object, hobject, (Except.ok.inj h).symm⟩
  · rw [applyAttribute_of_ne hobject] at h
    split at h
    next text hclass =>
      have hword := eq_append_of_afterPrefix? hclass
      rw [← hback text] at hword
      exact ⟨.className (String.ofList text), hword, (Except.ok.inj h).symm⟩
    next =>
      split at h
      next text hname =>
        have hword := eq_append_of_afterPrefix? hname
        rw [← hback text] at hword
        exact ⟨.name (String.ofList text), hword, (Except.ok.inj h).symm⟩
      next => contradiction

theorem exists_attributes {about : Profile} {v : Value}
    {words : List (List Char)}
    (h : words.foldlM applyAttribute (.plain about) = .ok v) :
    ∃ as : List Attribute, words = as.map Attribute.word ∧
      v = .plain (as.foldl Attribute.describe about) := by
  induction words generalizing about with
  | nil => exact ⟨[], rfl, (Except.ok.inj h).symm⟩
  | cons word words ih =>
      rw [List.foldlM_cons, bind_eq_ok_iff] at h
      obtain ⟨next, hword, hwords⟩ := h
      obtain ⟨a, rfl, rfl⟩ := exists_attribute hword
      obtain ⟨as, rfl, rfl⟩ := ih hwords
      exact ⟨a :: as, rfl, rfl⟩

/-! ## Sentences -/

/-- The words say an event, or that the engine throws.  Later attributes
override earlier ones. -/
inductive Sentence : Entry → List (List Char) → Prop
  | create {id : ValueId} {word : List Char} (hid : Numeral id word)
      (as : List Attribute) :
      Sentence
        (.report (.create (.plain
          (as.foldl Attribute.describe (.unannounced id)))))
        ("create".toList :: word :: as.map Attribute.word)
  | either {id : ValueId} {word : List Char} (hid : Numeral id word)
      {outcomes : List ValueId} {words : List (List Char)}
      (houtcomes : List.Forall₂ Numeral outcomes words) :
      Sentence (.report (.create (.either id (outcomes.map .object))))
        ("either".toList :: word :: words)
  | push {id : ValueId} {word : List Char} (hid : Numeral id word)
      (more : List (List Char)) :
      Sentence (.report (.push id)) ("push".toList :: word :: more)
  | pop {id : ValueId} {word : List Char} (hid : Numeral id word)
      (more : List (List Char)) :
      Sentence (.report (.pop id)) ("pop".toList :: word :: more)
  | link {source target : Option ValueId} {first second : List Char}
      (hsource : EndOfLink source first) (htarget : EndOfLink target second)
      (label : List Char) (more : List (List Char)) :
      Sentence (.report (.link source target (String.ofList label)))
        ("link".toList :: first :: second :: label :: more)
  | unlink {source target : Option ValueId} {first second : List Char}
      (hsource : EndOfLink source first) (htarget : EndOfLink target second)
      (label : List Char) (more : List (List Char)) :
      Sentence (.report (.unlink source target (String.ofList label)))
        ("unlink".toList :: first :: second :: label :: more)
  | call (more : List (List Char)) :
      Sentence (.report .callBoundary) ("call".toList :: more)
  | throw (message : List (List Char)) :
      Sentence (.throw (String.ofList ([' '].intercalate message)))
        ("throw".toList :: message)

section Sentences

variable {entry : Entry} {words : List (List Char)}

variable {α : Type} (make : Option ValueId → Option ValueId → String → α)
  {source target : Option ValueId} {first second : List Char}

theorem parseLink_ok (hsource : EndOfLink source first)
    (htarget : EndOfLink target second) (label : List Char)
    (more : List (List Char)) :
    parseLink make (first :: second :: label :: more) =
      .ok (make source target (String.ofList label)) := by
  have hfirst : takeEnd (first :: second :: label :: more) =
      .ok (source, second :: label :: more) :=
    takeEnd_eq_ok_iff.mpr ⟨first, rfl, hsource⟩
  have hsecond : takeEnd (second :: label :: more) =
      .ok (target, label :: more) :=
    takeEnd_eq_ok_iff.mpr ⟨second, rfl, htarget⟩
  exact bind_eq_ok_iff.mpr ⟨_, hfirst, bind_eq_ok_iff.mpr ⟨_, hsecond, rfl⟩⟩

variable {make}

theorem exists_link {answer : α} (h : parseLink make words = .ok answer) :
    ∃ source target first second label more,
      words = first :: second :: label :: more ∧ EndOfLink source first ∧
        EndOfLink target second ∧
        answer = make source target (String.ofList label) := by
  obtain ⟨⟨source, words⟩, hfirst, hlater⟩ := bind_eq_ok_iff.mp h
  obtain ⟨⟨target, words⟩, hsecond, hlabel⟩ := bind_eq_ok_iff.mp hlater
  obtain ⟨first, rfl, hsource⟩ := takeEnd_eq_ok_iff.mp hfirst
  obtain ⟨second, rfl, htarget⟩ := takeEnd_eq_ok_iff.mp hsecond
  cases words with
  | nil => contradiction
  | cons label more =>
      have hanswer : make source target (String.ofList label) = answer :=
        Except.ok.inj hlabel
      exact ⟨source, target, first, second, label, more, rfl, hsource, htarget,
        hanswer.symm⟩

theorem eq_cons_of_headD {operation : List Char}
    (h : words.headD [] = operation) (hne : operation ≠ []) :
    words = operation :: words.tail := by
  cases words with
  | nil => exact absurd h.symm hne
  | cons word words => rw [← h]; rfl

theorem sentence_of_parseWords (h : parseWords words = .ok entry) :
    Sentence entry words := by
  simp only [parseWords] at h
  split_ifs at h with hcreate heither hpush hpop hlink hunlink hcall hthrow
  · obtain ⟨⟨id, attributes⟩, hid, h⟩ := bind_eq_ok_iff.mp h
    obtain ⟨value, hvalue, h⟩ := bind_eq_ok_iff.mp h
    obtain ⟨word, harguments, hword⟩ := takeId_eq_ok_iff.mp hid
    obtain ⟨as, hattributes, rfl⟩ := exists_attributes hvalue
    rw [eq_cons_of_headD hcreate (by decide), harguments, hattributes,
      ← Except.ok.inj h]
    exact .create hword as
  · obtain ⟨⟨id, outcomes⟩, hid, h⟩ := bind_eq_ok_iff.mp h
    obtain ⟨ids, hids, h⟩ := bind_eq_ok_iff.mp h
    obtain ⟨word, harguments, hword⟩ := takeId_eq_ok_iff.mp hid
    rw [eq_cons_of_headD heither (by decide), harguments, ← Except.ok.inj h]
    exact .either hword (mapM_parseId_eq_ok_iff.mp hids)
  · obtain ⟨⟨id, more⟩, hid, h⟩ := bind_eq_ok_iff.mp h
    obtain ⟨word, harguments, hword⟩ := takeId_eq_ok_iff.mp hid
    rw [eq_cons_of_headD hpush (by decide), harguments, ← Except.ok.inj h]
    exact .push hword more
  · obtain ⟨⟨id, more⟩, hid, h⟩ := bind_eq_ok_iff.mp h
    obtain ⟨word, harguments, hword⟩ := takeId_eq_ok_iff.mp hid
    rw [eq_cons_of_headD hpop (by decide), harguments, ← Except.ok.inj h]
    exact .pop hword more
  · obtain ⟨source, target, first, second, label, more, harguments, hsource,
      htarget, rfl⟩ := exists_link h
    rw [eq_cons_of_headD hlink (by decide), harguments]
    exact .link hsource htarget label more
  · obtain ⟨source, target, first, second, label, more, harguments, hsource,
      htarget, rfl⟩ := exists_link h
    rw [eq_cons_of_headD hunlink (by decide), harguments]
    exact .unlink hsource htarget label more
  · rw [eq_cons_of_headD hcall (by decide), ← Except.ok.inj h]
    exact .call words.tail
  · rw [eq_cons_of_headD hthrow (by decide), ← Except.ok.inj h,
      joinWords_eq_intercalate]
    exact .throw words.tail

theorem Sentence.parseWords (h : Sentence entry words) :
    parseWords words = .ok entry := by
  cases h with
  | @create id word hid as =>
      exact bind_eq_ok_iff.mpr ⟨(id, as.map Attribute.word),
        takeId_eq_ok_iff.mpr ⟨word, rfl, hid⟩,
        bind_eq_ok_iff.mpr ⟨_, foldlM_applyAttribute _ as, rfl⟩⟩
  | @either id word hid outcomes words houtcomes =>
      exact bind_eq_ok_iff.mpr ⟨(id, words),
        takeId_eq_ok_iff.mpr ⟨word, rfl, hid⟩,
        bind_eq_ok_iff.mpr ⟨_, mapM_parseId_eq_ok_iff.mpr houtcomes, rfl⟩⟩
  | @push id word hid more =>
      exact bind_eq_ok_iff.mpr ⟨(id, more),
        takeId_eq_ok_iff.mpr ⟨word, rfl, hid⟩, rfl⟩
  | @pop id word hid more =>
      exact bind_eq_ok_iff.mpr ⟨(id, more),
        takeId_eq_ok_iff.mpr ⟨word, rfl, hid⟩, rfl⟩
  | link hsource htarget label more =>
      exact parseLink_ok (fun s t l => Entry.report (.link s t l)) hsource
        htarget label more
  | unlink hsource htarget label more =>
      exact parseLink_ok (fun s t l => Entry.report (.unlink s t l)) hsource
        htarget label more
  | call more => rfl
  | throw message =>
      rw [← joinWords_eq_intercalate]
      rfl

/-- The reader understands the sentences and nothing else. -/
theorem parseWords_eq_ok_iff :
    parseWords words = .ok entry ↔ Sentence entry words :=
  ⟨sentence_of_parseWords, Sentence.parseWords⟩

end Sentences

end LiveHeap.Script
