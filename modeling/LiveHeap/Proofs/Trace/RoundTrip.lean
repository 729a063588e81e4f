import LiveHeap.Trace.Printer
import LiveHeap.Trace.Reader
import LiveHeap.Proofs.Json.Values

/-!
# Written traces are read back

The writer leaves out what a value does not have, and the reader takes what is
not there for absent, so decoding undoes the encoding of values and entries.
The members of an entry are collected behind its tag before it is decoded.
Four fields in a row then make the trace.  The text may nest as deep as the
reader has room, which is one list or object less at each level.
-/

namespace LiveHeap

open Json (Natural Opens ReadsBack ReadsMembers)

/-! ## What is written -/

theorem ValueId.natural_toJson (id : ValueId) : id.toJson.Natural := .number

theorem Profile.natural_members (about : Profile) :
    ∀ m ∈ about.members, m.2.Natural := by
  rcases about with ⟨id, className, name, enumerable⟩
  cases className <;> cases name <;>
    simp [Profile.members, Profile.nameMembers, id.natural_toJson,
      Natural.string, Natural.bool]

mutual

theorem Value.natural_toJson : (v : Value) → v.toJson.Natural
  | .plain about => .object about.natural_members
  | .union about outcomes => by
      apply Natural.object
      intro m hm
      rcases List.mem_append.mp hm with habout | houtcomes
      · exact about.natural_members m habout
      · obtain rfl := List.mem_singleton.mp houtcomes
        exact .list (Value.natural_toJsons outcomes)

theorem Value.natural_toJsons :
    (vs : List Value) → ∀ j ∈ Value.toJsons vs, j.Natural
  | [], _, hj => by cases hj
  | v :: vs, j, hj => by
      rcases List.mem_cons.mp hj with rfl | hlater
      · exact v.natural_toJson
      · exact Value.natural_toJsons vs j hlater

end

theorem natural_endJson (id : Option ValueId) : (endJson id).Natural := by
  cases id with
  | none => exact .null
  | some id => exact id.natural_toJson

theorem natural_linkMembers (source target : Option ValueId) (label : String) :
    ∀ m ∈ linkMembers source target label, m.2.Natural := by
  simp [linkMembers, natural_endJson, Natural.string]

theorem Entry.natural_members (e : Entry) :
    ∀ m ∈ e.members, m.2.Natural := by
  rcases e with e | message
  · cases e with
    | create v => simpa [Entry.members] using v.natural_toJson
    | push id => simpa [Entry.members] using id.natural_toJson
    | pop id => simpa [Entry.members] using id.natural_toJson
    | link source target label => exact natural_linkMembers source target label
    | unlink source target label =>
        exact natural_linkMembers source target label
    | callBoundary => nofun
  · simpa [Entry.members] using Natural.string

theorem Entry.natural_toJson (e : Entry) : e.toJson.Natural := by
  apply Natural.object
  rw [List.forall_mem_cons]
  exact ⟨.string, e.natural_members⟩

/-! ## Decoding -/

namespace Trace

theorem decodeMembers_profile (about : Profile)
    (later : List (String × Json)) :
    decodeMembers .empty (about.members ++ later) =
      decodeMembers ⟨some about.id, about.className.map some,
        about.name.map some, some about.enumerable, none⟩ later := by
  rcases about with ⟨id, className, name, enumerable⟩
  cases className <;> cases name <;> rfl

mutual

theorem decodeValue_toJson : (v : Value) → decodeValue v.toJson = .ok v
  | .plain about => by
      have hread := decodeMembers_profile about []
      rw [List.append_nil] at hread
      rw [Value.toJson, decodeValue, hread]
      rcases about with ⟨id, className, name, enumerable⟩
      cases className <;> cases name <;> rfl
  | .union about outcomes => by
      have hread := decodeMembers_profile about
        [("outcomes", .list (Value.toJsons outcomes))]
      have houtcomes : decodeOutcomes (.list (Value.toJsons outcomes)) =
          .ok (some outcomes) := by
        rw [decodeOutcomes, decodeValues_toJsons outcomes]
        rfl
      rw [Value.toJson, decodeValue, hread, decodeMembers, houtcomes]
      rcases about with ⟨id, className, name, enumerable⟩
      cases className <;> cases name <;> rfl

theorem decodeValues_toJsons :
    (vs : List Value) → decodeValues (Value.toJsons vs) = .ok vs
  | [] => rfl
  | v :: vs => by
      rw [Value.toJsons, decodeValues, decodeValue_toJson v,
        decodeValues_toJsons vs]
      rfl

end

end Trace

namespace Entry

open Trace (Tag)

/-- The tag of an entry, as it is read. -/
def kind : Entry → Tag
  | report (.create _) => .create
  | report (.push _) => .push
  | report (.pop _) => .pop
  | report (.link _ _ _) => .link
  | report (.unlink _ _ _) => .unlink
  | report .callBoundary => .callBoundary
  | throw _ => .throw

theorem untagged_members (e : Entry) : ∀ m ∈ e.members, m.1 ≠ "op" := by
  rcases e with e | message
  · cases e <;> simp [members, linkMembers]
  · simp [members]

theorem ofWord?_tag (e : Entry) : Tag.ofWord? e.tag = some e.kind := by
  rcases e with e | message
  · cases e <;> rfl
  · rfl

theorem decodeEntry_members (e : Entry) :
    Trace.decodeEntry e.kind (.object e.members) = .ok e := by
  rcases e with e | message
  · cases e with
    | create v =>
        have hread := Trace.decodeValue_toJson v
        have honly : Trace.decodeOnly "Create" "value" Trace.decodeValue
            (.object [("value", v.toJson)]) = .ok v := by
          simp [Trace.decodeOnly, Trace.decodeOnlyMember, Trace.once, hread,
            Except.map, bind, Except.bind]
        rw [kind, members, Trace.decodeEntry, honly]
        rfl
    | push id => rfl
    | pop id => rfl
    | link source target label => cases source <;> cases target <;> rfl
    | unlink source target label => cases source <;> cases target <;> rfl
    | callBoundary => rfl
  · rfl

end Entry

namespace Trace

/-! ## Entries -/

theorem readTag_quoted (cs : List Char) :
    readTag ('"' :: cs) = Json.stringRest cs >>= fun r =>
      match Tag.ofWord? r.1 with
      | some tag => .ok (tag, r.2)
      | none => .error
          (.here (.unknownVariant r.1 (Tag.all.map Tag.word)) r.2) := rfl

theorem readsBack_readTag (e : Entry) :
    ReadsBack readTag (Json.text (.string e.tag)) e.kind := by
  intro rest _
  rw [Json.text_string_append, readTag_quoted, Json.stringRest_flatMap]
  simp only [bind, Except.bind, e.ofWord?_tag]

theorem readsBack_entryMember {room : Nat} (tag : Tag)
    (before : List (String × Json)) {m : String × Json} (hkey : m.1 ≠ "op")
    (h : ReadsBack (Json.readValue room) m.2.text m.2) :
    ReadsBack (readEntryMember room (some tag, before) m.1) (':' :: m.2.text)
      (some tag, before ++ [m]) := by
  intro rest hrest
  have hcolon (cs : List Char) : Json.colon (':' :: cs) = .ok cs := rfl
  rw [List.cons_append, readEntryMember, if_neg hkey, hcolon]
  simp only [bind, Except.bind, h rest hrest]
  rfl

/-- The members of an entry are collected behind its tag. -/
theorem readsMembers_entry {room : Nat} {e : Entry}
    (hroom : e.toJson.nesting ≤ room + 1) :
    ReadsMembers (readEntryMember room) (none, [])
      (("op", .string e.tag) :: e.members) (some e.kind, e.members) := by
  rw [Entry.toJson, Json.nesting_object_le, List.forall_mem_cons] at hroom
  have htag := Json.readsBack_field (readEntryMember room) (none, []) "op"
    (readsBack_readTag e) (fun tag => (some tag, [])) fun _ => rfl
  have hmembers : ReadsMembers (readEntryMember room) (some e.kind, [])
      e.members (some e.kind, [] ++ e.members) := by
    apply Json.readsMembers_concat fun ms => (some e.kind, ms)
    intro before m hm
    exact readsBack_entryMember e.kind before (e.untagged_members m hm)
      ((e.natural_members m hm).readsBack (hroom.2 m hm))
  exact .cons htag hmembers

theorem readEntry_braced (room : Nat) (cs : List Char) :
    readEntry room ('\x7b' :: cs) =
      Json.inObject (readTaggedMembers room) cs >>= fun r =>
        match decodeEntry r.1.1 r.1.2 with
        | .ok entry => .ok (entry, r.2)
        | .error cause => .error (.unplaced cause r.2) := rfl

theorem readsBack_readEntry {room : Nat} {e : Entry}
    (hroom : e.toJson.nesting ≤ room + 1) :
    ReadsBack (readEntry room) e.toJson.text e := by
  intro rest _
  have hread := Json.members_commaSeparated (readsMembers_entry hroom) rest
  have htagged : readTaggedMembers room (Json.commaSeparated
      ((("op", .string e.tag) :: e.members).map Json.memberText) ++
        '\x7d' :: rest) =
          .ok ((e.kind, .object e.members), '\x7d' :: rest) := by
    rw [readTaggedMembers, hread]
    rfl
  rw [Entry.toJson, Json.text_object_append, readEntry_braced,
    Json.inObject_of_closed htagged]
  simp only [bind, Except.bind, e.decodeEntry_members]

/-! ## Fields of a trace -/

def fields (t : Trace) : List (String × Json) :=
  [("bootstrap", .list (t.bootstrap.map Entry.toJson)),
    ("steps", .list (t.steps.map fun step => .list (step.map Entry.toJson))),
    ("builtins", .list (t.builtins.map ValueId.toJson)),
    ("global", endJson t.global)]

theorem toJson_eq (t : Trace) : t.toJson = .object t.fields := rfl

theorem readsBack_entries {room : Nat} {es : List Entry}
    (hroom : (Json.list (es.map Entry.toJson)).nesting ≤ room + 2) :
    ReadsBack (Json.readList (readEntry room))
      (Json.text (.list (es.map Entry.toJson))) es := by
  rw [Json.nesting_list_le] at hroom
  apply Json.readsBack_readList
  · intro e _
    exact e.natural_toJson.opens
  · intro e he
    exact readsBack_readEntry (hroom _ (List.mem_map_of_mem he))

section Fields

variable {t : Trace} (hnesting : t.toJson.nesting ≤ nestingLimit)

include hnesting

theorem nesting_fields : ∀ m ∈ t.fields, m.2.nesting ≤ nestingLimit - 1 :=
  Json.nesting_object_le.mp hnesting

theorem readsBack_bootstrap :
    ReadsBack readBootstrap (Json.text (.list (t.bootstrap.map Entry.toJson)))
      t.bootstrap :=
  readsBack_entries (nesting_fields hnesting _ List.mem_cons_self)

theorem readsBack_steps :
    ReadsBack readSteps (Json.text (.list (t.steps.map fun step =>
      .list (step.map Entry.toJson)))) t.steps := by
  have hsteps := Json.nesting_list_le.mp (nesting_fields hnesting _
    (List.mem_cons_of_mem _ List.mem_cons_self))
  apply Json.readsBack_readList
  · intro step _
    exact ⟨_, _, rfl, rfl, by decide⟩
  · intro step hstep
    exact readsBack_entries (hsteps _ (List.mem_map_of_mem hstep))

end Fields

/-- An id begins with a digit, and so with no blank. -/
theorem exists_text_eq_cons (id : ValueId) : ∃ d ds, id.toJson.text = d :: ds ∧
    Text.isDigit d = true ∧ Json.isBlank d = false := by
  rcases Text.exists_decimal_eq_cons id.word.toNat with ⟨d, ds, htext, hdigit⟩
  exact ⟨d, ds, htext, hdigit, Json.not_isBlank_of_isDigit hdigit⟩

theorem readsBack_readId (id : ValueId) :
    ReadsBack readId id.toJson.text id := by
  intro rest hrest
  have hread := Json.readsBack_readNatural id.word.toNat_lt "u64" rest hrest
  rw [ValueId.toJson, readId, hread]
  rfl

theorem readsBack_builtins (ids : List ValueId) :
    ReadsBack readBuiltins (Json.text (.list (ids.map ValueId.toJson)))
      ids := by
  apply Json.readsBack_readList
  · intro id _
    exact id.natural_toJson.opens
  · intro id _
    exact readsBack_readId id

theorem readsBack_global (id : Option ValueId) :
    ReadsBack readGlobal (endJson id).text id := by
  cases id with
  | none =>
      intro rest _
      rfl
  | some id =>
      have hread := readsBack_readId id
      rcases exists_text_eq_cons id with ⟨d, ds, htext, hdigit, hblank⟩
      have hnull : d ≠ 'n' := by
        rintro rfl
        cases hdigit
      rw [htext] at hread
      rw [endJson, htext]
      exact Json.readsBack_readNullable hblank hnull hread

/-- The fields of a trace are read back one after the other. -/
theorem readsMembers_trace {t : Trace}
    (hnesting : t.toJson.nesting ≤ nestingLimit) :
    ReadsMembers readTraceMember ⟨none, none, none, none⟩ t.fields
      ⟨some t.bootstrap, some t.steps, some t.builtins, some t.global⟩ := by
  have hbootstrap := Json.readsBack_field readTraceMember
    ⟨none, none, none, none⟩ "bootstrap"
    (readsBack_bootstrap hnesting) (⟨some ·, none, none, none⟩) fun _ => rfl
  have hsteps := Json.readsBack_field readTraceMember
    ⟨some t.bootstrap, none, none, none⟩ "steps"
    (readsBack_steps hnesting) (⟨some t.bootstrap, some ·, none, none⟩)
    fun _ => rfl
  have hbuiltins := Json.readsBack_field readTraceMember
    ⟨some t.bootstrap, some t.steps, none, none⟩ "builtins"
    (readsBack_builtins t.builtins)
    (⟨some t.bootstrap, some t.steps, some ·, none⟩) fun _ => rfl
  have hglobal := Json.readsBack_field readTraceMember
    ⟨some t.bootstrap, some t.steps, some t.builtins, none⟩ "global"
    (readsBack_global t.global)
    (⟨some t.bootstrap, some t.steps, some t.builtins, some ·⟩) fun _ => rfl
  exact .cons hbootstrap (.cons hsteps (.cons hbuiltins (.cons hglobal .nil)))

theorem readsBack_readTrace {t : Trace}
    (hnesting : t.toJson.nesting ≤ nestingLimit) :
    ReadsBack readTrace t.toJson.text t := by
  intro rest _
  have hread := Json.members_commaSeparated (readsMembers_trace hnesting) rest
  have hfields : readTraceMembers (Json.commaSeparated
      (t.fields.map Json.memberText) ++ '\x7d' :: rest) =
        .ok (t, '\x7d' :: rest) := by
    rw [readTraceMembers, hread]
    rfl
  have hopen (cs : List Char) : readTrace ('\x7b' :: cs) =
      Json.inObject readTraceMembers cs := rfl
  rw [toJson_eq, Json.text_object_append, hopen]
  exact Json.inObject_of_closed hfields

/-- A trace whose text nests no deeper than a text may is read back from that
text, whatever its strings and ids are. -/
theorem parse_render (t : Trace) (hnesting : t.toJson.nesting ≤ nestingLimit) :
    parse t.render = .ok t := by
  have hread := readsBack_readTrace hnesting [] Json.delimited_nil
  rw [List.append_nil] at hread
  have htext : t.render.toList = t.toJson.text := String.toList_ofList
  have hdocument : Json.readDocument readTrace t.render.toList = .ok t := by
    rw [htext, Json.readDocument, hread]
    rfl
  rw [parse, diagnose, hdocument]

/-- A union inside a union, the least and the largest id, absent and empty
fields, and characters that are escaped in each of the three ways. -/
def intricate : Trace where
  bootstrap :=
    [.report (.create (.union ⟨⟨18446744073709551615⟩, some "\x1b", none, true⟩
      [.plain ⟨⟨0⟩, none, some "a\"b\\c\n☃", false⟩,
        .union ⟨⟨7⟩, some "", none, false⟩ []]))]
  steps :=
    [[.report (.link none (some ⟨0⟩) "x"), .report .callBoundary], [],
      [.report (.unlink (some ⟨7⟩) none "\x00\x7f"), .report (.push ⟨0⟩),
        .report (.pop ⟨0⟩), .throw "\t"]]
  builtins := [⟨0⟩, ⟨7⟩]
  global := none

theorem parse_render_intricate :
    intricate.toJson.nesting = 7 ∧ parse intricate.render = .ok intricate := by
  have hnesting : intricate.toJson.nesting = 7 := by decide
  exact ⟨hnesting, parse_render intricate (by rw [hnesting]; decide)⟩

end Trace

end LiveHeap
