import LiveHeap.Script.Reader
import LiveHeap.Proofs.Json.Scalars
import Mathlib.Data.List.Perm.Basic

/-!
# Events as words

The words that say an event: its operation, then value ids in decimal, ends of
links, and whatever else the operation takes.  The attributes of a created value
may come in any order.  Every event that can be said at all is understood.
-/

namespace LiveHeap

namespace Script

/-! ## Ids -/

def idWord (id : ValueId) : List Char := Text.decimal id.word.toNat

/-- The word for an end of a link, which is a dash for the root. -/
def endWord : Option ValueId → List Char
  | none => ['-']
  | some id => idWord id

variable (id : ValueId) (words : List (List Char))

theorem readDigits?_idWord : Text.readDigits? (idWord id) = some id.word := by
  have hdigits : (idWord id).all Text.isDigit = true := by
    rw [List.all_eq_true]
    exact fun c hc => Text.isDigit_of_mem_decimal hc
  have hvalue : Text.digitsValue (idWord id) = id.word.toNat :=
    Nat.ofDigitChars_ten_toDigits
  have hsome : (idWord id).isEmpty = false := by
    rw [List.isEmpty_eq_false_iff]
    exact Text.decimal_ne_nil _
  have hfits : id.word.toNat < UInt64.size := id.word.toNat_lt
  unfold Text.readDigits?
  simp only [hdigits, hsome, hvalue, hfits]
  simp

theorem exists_idWord_eq_cons :
    ∃ d ds, idWord id = d :: ds ∧ Text.isDigit d = true :=
  Text.exists_decimal_eq_cons id.word.toNat

theorem parseId_idWord : parseId (idWord id) = .ok id := by
  have hdigits := readDigits?_idWord id
  obtain ⟨d, ds, hword, hdigit⟩ := exists_idWord_eq_cons id
  rw [hword] at hdigits
  have hread : Text.readWord64? (d :: ds) = some id.word := by
    unfold Text.readWord64?
    split
    next hplus =>
      rw [(List.cons.inj hplus).1] at hdigit
      contradiction
    next => exact hdigits
  rw [hword, parseId, hread]

theorem takeId_idWord : takeId (idWord id :: words) = .ok (id, words) := by
  rw [takeId, parseId_idWord]
  rfl

theorem takeEnd_endWord (stop : Option ValueId) :
    takeEnd (endWord stop :: words) = .ok (stop, words) := by
  cases stop with
  | none => rfl
  | some id =>
      have hread := takeId_idWord id words
      obtain ⟨d, ds, hword, hdigit⟩ := exists_idWord_eq_cons id
      rw [hword] at hread
      rw [endWord, hword]
      unfold takeEnd
      split
      next hdash =>
        obtain ⟨hfirst, -⟩ := List.cons.inj hdash
        rw [(List.cons.inj hfirst).1] at hdigit
        contradiction
      next => rw [hread]; rfl

theorem mapM_parseId (ids : List ValueId) :
    (ids.map idWord).mapM parseId = .ok ids := by
  induction ids with
  | nil => rfl
  | cons id ids ih =>
      rw [List.map_cons, List.mapM_cons, parseId_idWord, ih]
      rfl

/-! ## Attributes -/

inductive Attribute where
  | object
  | className (text : String)
  | name (text : String)
  deriving DecidableEq

def Attribute.word : Attribute → List Char
  | object => "object".toList
  | className text => "class=".toList ++ text.toList
  | name text => "name=".toList ++ text.toList

def Attribute.describe (about : Profile) : Attribute → Profile
  | object => { about with enumerable := true }
  | className text => { about with className := some text }
  | name text => { about with name := some text }

/-- All attributes that a profile has. -/
def attributes (about : Profile) : List Attribute :=
  (if about.enumerable then [.object] else []) ++
    about.className.toList.map .className ++ about.name.toList.map .name

theorem afterPrefix?_append (start text : List Char) :
    afterPrefix? start (start ++ text) = some text := by
  induction start with
  | nil => rfl
  | cons c start ih => simpa [afterPrefix?] using ih

theorem applyAttribute_of_ne {word : List Char} (h : word ≠ "object".toList)
    (v : Value) :
    applyAttribute v word =
      match afterPrefix? "class=".toList word with
      | some text => .ok (v.withClass (String.ofList text))
      | none =>
          match afterPrefix? "name=".toList word with
          | some text => .ok (v.withName (String.ofList text))
          | none => .error (.unknownAttribute word) := if_neg h

theorem applyAttribute_word (v : Value) (a : Attribute) :
    applyAttribute v a.word = .ok (v.mapProfile a.describe) := by
  cases a with
  | object => rfl
  | className text =>
      have hobject : "class=".toList ++ text.toList ≠ "object".toList := by simp
      have hread := applyAttribute_of_ne hobject v
      simp only [afterPrefix?_append, String.ofList_toList] at hread
      exact hread
  | name text =>
      have hobject : "name=".toList ++ text.toList ≠ "object".toList := by simp
      have hclass : afterPrefix? "class=".toList
          ("name=".toList ++ text.toList) = none := rfl
      have hread := applyAttribute_of_ne hobject v
      simp only [hclass, afterPrefix?_append, String.ofList_toList] at hread
      exact hread

theorem foldlM_applyAttribute (about : Profile) (as : List Attribute) :
    (as.map Attribute.word).foldlM applyAttribute (.plain about) =
      .ok (.plain (as.foldl Attribute.describe about)) := by
  induction as generalizing about with
  | nil => rfl
  | cons a as ih =>
      rw [List.map_cons, List.foldlM_cons, applyAttribute_word]
      exact ih (a.describe about)

/-- Attributes of one kind are one attribute, and the others do not touch the
same field. -/
theorem describe_comm {about : Profile} {a b : Attribute}
    (ha : a ∈ attributes about) (hb : b ∈ attributes about) (p : Profile) :
    Attribute.describe (Attribute.describe p a) b =
      Attribute.describe (Attribute.describe p b) a := by
  cases a with
  | object => cases b <;> rfl
  | className text =>
      cases b with
      | className text' =>
          have htext : about.className = some text := by
            simpa [attributes] using ha
          have htext' : about.className = some text' := by
            simpa [attributes] using hb
          rw [htext] at htext'
          rw [Option.some.inj htext']
      | _ => rfl
  | name text =>
      cases b with
      | name text' =>
          have htext : about.name = some text := by
            simpa [attributes] using ha
          have htext' : about.name = some text' := by
            simpa [attributes] using hb
          rw [htext] at htext'
          rw [Option.some.inj htext']
      | _ => rfl

theorem foldl_attributes (about : Profile) :
    (attributes about).foldl Attribute.describe (.unannounced about.id) =
      about := by
  rcases about with ⟨id, className, name, enumerable⟩
  cases className <;> cases name <;> cases enumerable <;> rfl

theorem foldl_perm {about : Profile} {as : List Attribute}
    (h : (attributes about).Perm as) :
    as.foldl Attribute.describe (.unannounced about.id) = about := by
  have hsame := h.foldl_eq' (fun a ha b hb p => describe_comm ha hb p)
    (.unannounced about.id)
  rw [← hsame, foldl_attributes]

/-! ## Phrases -/

/-- The words that say an event, or that the engine throws. -/
inductive Phrase : Entry → List (List Char) → Prop
  | create {about : Profile} {as : List Attribute}
      (all : (attributes about).Perm as) :
      Phrase (.report (.create (.plain about)))
        ("create".toList :: idWord about.id :: as.map Attribute.word)
  | either (id : ValueId) (outcomes : List ValueId) :
      Phrase (.report (.create (.either id (outcomes.map .object))))
        ("either".toList :: idWord id :: outcomes.map idWord)
  | push (id : ValueId) :
      Phrase (.report (.push id)) ["push".toList, idWord id]
  | pop (id : ValueId) :
      Phrase (.report (.pop id)) ["pop".toList, idWord id]
  | link (source target : Option ValueId) (label : String) :
      Phrase (.report (.link source target label))
        ["link".toList, endWord source, endWord target, label.toList]
  | unlink (source target : Option ValueId) (label : String) :
      Phrase (.report (.unlink source target label))
        ["unlink".toList, endWord source, endWord target, label.toList]
  | call : Phrase (.report .callBoundary) ["call".toList]
  | throw (message : List (List Char)) :
      Phrase (.throw (String.ofList ([' '].intercalate message)))
        ("throw".toList :: message)

theorem joinWords_eq_intercalate (words : List (List Char)) :
    joinWords words = [' '].intercalate words := by
  induction words with
  | nil => rfl
  | cons word words ih =>
      cases words with
      | nil => simp [joinWords]
      | cons next words =>
          rw [joinWords, ih]
          · simp
          · exact List.cons_ne_nil _ _

theorem parseLink_ends {α : Type}
    (make : Option ValueId → Option ValueId → String → α)
    (source target : Option ValueId) (label : String) :
    parseLink make [endWord source, endWord target, label.toList] =
      .ok (make source target label) := by
  unfold parseLink
  rw [takeEnd_endWord]
  simp only [bind, Except.bind, takeEnd_endWord, String.ofList_toList]
  rfl

variable {words} {entry : Entry}

theorem Phrase.parseWords (h : Phrase entry words) :
    parseWords words = .ok entry := by
  cases h with
  | @create about as hall =>
      have hcreate : Script.parseWords
          ("create".toList :: idWord about.id :: as.map Attribute.word) = do
            let r ← takeId (idWord about.id :: as.map Attribute.word)
            let value ← r.2.foldlM applyAttribute (Value.primitive r.1)
            return .report (.create value) := rfl
      have hfold := foldlM_applyAttribute (.unannounced about.id) as
      rw [foldl_perm hall] at hfold
      rw [hcreate, takeId_idWord]
      simp only [bind, Except.bind, Value.primitive, hfold]
      rfl
  | either id outcomes =>
      have heither : Script.parseWords
          ("either".toList :: idWord id :: outcomes.map idWord) = do
            let r ← takeId (idWord id :: outcomes.map idWord)
            let ids ← r.2.mapM parseId
            return .report (.create (.either r.1 (ids.map .object))) := rfl
      rw [heither, takeId_idWord]
      simp only [bind, Except.bind, mapM_parseId]
      rfl
  | push id =>
      have hpush : Script.parseWords ["push".toList, idWord id] = do
          let r ← takeId [idWord id]
          return .report (.push r.1) := rfl
      rw [hpush, takeId_idWord]
      rfl
  | pop id =>
      have hpop : Script.parseWords ["pop".toList, idWord id] = do
          let r ← takeId [idWord id]
          return .report (.pop r.1) := rfl
      rw [hpop, takeId_idWord]
      rfl
  | link source target label =>
      exact parseLink_ends (fun s t l => Entry.report (.link s t l)) _ _ _
  | unlink source target label =>
      exact parseLink_ends (fun s t l => Entry.report (.unlink s t l)) _ _ _
  | call => rfl
  | throw message =>
      have hthrow : Script.parseWords ("throw".toList :: message) =
          .ok (.throw (String.ofList (joinWords message))) := rfl
      rw [hthrow, joinWords_eq_intercalate]

/-- An event begins with a letter, and so neither with the mark of the bootstrap
nor like a separator. -/
theorem Phrase.opens (h : Phrase entry words) :
    ∃ c cs rest, words = (c :: cs) :: rest ∧ c ≠ '@' ∧ c ≠ '-' := by
  cases h <;> exact ⟨_, _, _, rfl, by decide, by decide⟩

/-! ## What can be said -/

/-- No blank and no start of a comment is in the text. -/
def Solid (text : List Char) : Prop :=
  ∀ c ∈ text, Text.isBlank c = false ∧ c ≠ '#'

def IsWord (word : List Char) : Prop := word ≠ [] ∧ Solid word

instance (text : List Char) : Decidable (Solid text) :=
  List.decidableBAll (fun c => Text.isBlank c = false ∧ c ≠ '#') text

instance (word : List Char) : Decidable (IsWord word) :=
  inferInstanceAs (Decidable (word ≠ [] ∧ Solid word))

/-- The entry has a form in words.  A plain value may have a classification and
a name without blanks, and a union has nothing but its outcomes, which are bare
objects. -/
def Writable : Entry → Prop
  | .report (.create (.plain about)) =>
      (∀ text ∈ about.className, Solid text.toList) ∧
        ∀ text ∈ about.name, Solid text.toList
  | .report (.create (.union about outcomes)) =>
      about = .unannounced about.id ∧ ∀ v ∈ outcomes, ∃ id, v = .object id
  | .report (.link _ _ label) => IsWord label.toList
  | .report (.unlink _ _ label) => IsWord label.toList
  | .throw message => ∃ words, (∀ word ∈ words, IsWord word) ∧
      message = String.ofList ([' '].intercalate words)
  | _ => True

theorem Solid.append {left right : List Char} (h : Solid left)
    (h' : Solid right) : Solid (left ++ right) := by
  intro c hc
  exact (List.mem_append.mp hc).elim (h c) (h' c)

theorem solid_of_isDigit {c : Char} (h : Text.isDigit c = true) :
    Text.isBlank c = false ∧ c ≠ '#' := by
  have hrange : 48 ≤ c.toNat ∧ c.toNat ≤ 57 := by
    simpa [Text.isDigit, Char.le_def, UInt32.le_iff_toNat_le] using h
  constructor
  · simp [Text.isBlank]
    omega
  · rintro rfl
    contradiction

theorem isWord_idWord (id : ValueId) : IsWord (idWord id) :=
  ⟨Text.decimal_ne_nil _,
    fun _ hc => solid_of_isDigit (Text.isDigit_of_mem_decimal hc)⟩

theorem isWord_endWord (stop : Option ValueId) : IsWord (endWord stop) := by
  cases stop with
  | none => exact (by decide : IsWord ['-'])
  | some id => exact isWord_idWord id

theorem isWord_attribute {about : Profile}
    (h : Writable (.report (.create (.plain about)))) {a : Attribute}
    (ha : a ∈ attributes about) : IsWord a.word := by
  cases a with
  | object => exact (by decide : IsWord "object".toList)
  | className text =>
      have htext : about.className = some text := by
        simpa [attributes] using ha
      have hstart : Solid "class=".toList := by decide
      exact ⟨nofun, hstart.append (h.1 text htext)⟩
  | name text =>
      have htext : about.name = some text := by
        simpa [attributes] using ha
      have hstart : Solid "name=".toList := by decide
      exact ⟨nofun, hstart.append (h.2 text htext)⟩

theorem outcomes_eq_map {outcomes : List Value}
    (h : ∀ v ∈ outcomes, ∃ id, v = .object id) :
    (outcomes.map fun v => v.profile.id).map Value.object = outcomes := by
  rw [List.map_map]
  apply (List.map_congr_left _).trans (List.map_id outcomes)
  intro v hv
  obtain ⟨id, rfl⟩ := h v hv
  rfl

/-- There is a phrase of whole words for every entry that is writable. -/
theorem exists_phrase (h : Writable entry) :
    ∃ words, Phrase entry words ∧ ∀ word ∈ words, IsWord word := by
  cases entry with
  | report event =>
      cases event with
      | create value =>
          cases value with
          | plain about =>
              refine ⟨_, .create (.refl _), ?_⟩
              simp only [List.forall_mem_cons, List.forall_mem_map]
              exact ⟨by decide, isWord_idWord about.id,
                fun a ha => isWord_attribute h ha⟩
          | union about outcomes =>
              obtain ⟨hbare, hobjects⟩ := h
              have hphrase := Phrase.either about.id
                (outcomes.map fun v => v.profile.id)
              rw [outcomes_eq_map hobjects, Value.either, ← hbare] at hphrase
              refine ⟨_, hphrase, ?_⟩
              simp only [List.forall_mem_cons, List.forall_mem_map]
              exact ⟨by decide, isWord_idWord about.id,
                fun v _ => isWord_idWord v.profile.id⟩
      | push id =>
          refine ⟨_, .push id, ?_⟩
          simp only [List.forall_mem_cons]
          exact ⟨by decide, isWord_idWord id, nofun⟩
      | pop id =>
          refine ⟨_, .pop id, ?_⟩
          simp only [List.forall_mem_cons]
          exact ⟨by decide, isWord_idWord id, nofun⟩
      | link source target label =>
          refine ⟨_, .link source target label, ?_⟩
          simp only [List.forall_mem_cons]
          exact ⟨by decide, isWord_endWord source, isWord_endWord target, h,
            nofun⟩
      | unlink source target label =>
          refine ⟨_, .unlink source target label, ?_⟩
          simp only [List.forall_mem_cons]
          exact ⟨by decide, isWord_endWord source, isWord_endWord target, h,
            nofun⟩
      | callBoundary => exact ⟨_, .call, by decide⟩
  | throw message =>
      obtain ⟨words, hwords, rfl⟩ := h
      refine ⟨_, .throw words, ?_⟩
      rw [List.forall_mem_cons]
      exact ⟨by decide, hwords⟩

end Script

end LiveHeap
