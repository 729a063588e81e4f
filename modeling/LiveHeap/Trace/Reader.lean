import LiveHeap.Event
import LiveHeap.Error
import LiveHeap.Json.Skip

/-!
# Reading traces

The trace itself is read field by field.  An entry is first read whole, since
its tag may come behind its other members, and is then decoded; a fault of the
decoding has no place of its own.  A record may be written as an object, with
unknown members passed over, or as the list of its fields.
-/

namespace LiveHeap.Trace

open Json (Cause Fault Reader)

abbrev Decoded (α : Type) := Except Cause α

def wrongType {α : Type} (expected : String) (j : Json) : Decoded α :=
  .error (.wrongType j.found expected)

def decodeId : Json → Decoded ValueId
  | .number (.natural n) => .ok ⟨n⟩
  | .number (.negative n) =>
      .error (.wrongValue (.number (.negative n)) "u64")
  | j => wrongType "u64" j

def decodeString : Json → Decoded String
  | .string s => .ok s
  | j => wrongType "a string" j

def decodeBool : Json → Decoded Bool
  | .bool b => .ok b
  | j => wrongType "a boolean" j

def decodeNullable {α : Type} (decode : Json → Decoded α) :
    Json → Decoded (Option α)
  | .null => .ok none
  | j => (decode j).map some

/-- The elements that a list may hold, as a fault about its length says. -/
def elementsInList (n : Nat) : String :=
  toString n ++ if n = 1 then " element in sequence" else " elements in sequence"

/-- Refuses a list that goes on behind its last field. -/
def endOfList (fields : Nat) : List Json → Decoded Unit
  | [] => .ok ()
  | excess => .error (.wrongLength (fields + excess.length) (elementsInList fields))

/-- Decodes a field that may occur once. -/
def once {α : Type} (name : String) (known : Option α) (decoded : Decoded α) :
    Decoded (Option α) :=
  if known.isSome then .error (.duplicateField name) else decoded.map some

structure PartialValue where
  id : Option ValueId
  className : Option (Option String)
  name : Option (Option String)
  enumerable : Option Bool
  outcomes : Option (Option (List Value))

namespace PartialValue

def empty : PartialValue := ⟨none, none, none, none, none⟩

def fieldNames : List String := ["id", "class", "name", "enumerable", "outcomes"]

/-- Decodes one field; unknown fields are passed over.  The last argument is
what the field is when it is taken for the outcomes. -/
def set (p : PartialValue) (key : String) (j : Json)
    (outcomes : Decoded (Option (List Value))) : Decoded PartialValue :=
  if key = "id" then do
    let id ← once key p.id (decodeId j)
    return { p with id }
  else if key = "class" then do
    let className ← once key p.className (decodeNullable decodeString j)
    return { p with className }
  else if key = "name" then do
    let name ← once key p.name (decodeNullable decodeString j)
    return { p with name }
  else if key = "enumerable" then do
    let enumerable ← once key p.enumerable (decodeBool j)
    return { p with enumerable }
  else if key = "outcomes" then do
    let outcomes ← once key p.outcomes outcomes
    return { p with outcomes }
  else return p

/-- The value, if its id was given.  Every other field may be missing. -/
def finish (p : PartialValue) : Decoded Value :=
  match p.id with
  | none => .error (.missingField "id")
  | some id =>
      let about : Profile :=
        { id
          className := p.className.join
          name := p.name.join
          enumerable := p.enumerable.getD false }
      match p.outcomes.join with
      | none => .ok (.plain about)
      | some outcomes => .ok (.union about outcomes)

end PartialValue

mutual

def decodeValue : Json → Decoded Value
  | .object members => do
      let p ← decodeMembers PartialValue.empty members
      p.finish
  | .list [] => .error (.wrongLength 0 "struct AbstractValue with 5 elements")
  | .list (field :: fields) => do
      let p ← decodeFields PartialValue.empty PartialValue.fieldNames
        (field :: fields)
      p.finish
  | j => wrongType "struct AbstractValue" j

def decodeMembers (p : PartialValue) :
    List (String × Json) → Decoded PartialValue
  | [] => .ok p
  | (key, j) :: members => do
      let p ← p.set key j (decodeOutcomes j)
      decodeMembers p members

def decodeFields (p : PartialValue) :
    List String → List Json → Decoded PartialValue
  | _, [] => .ok p
  | [], j :: js => do
      endOfList PartialValue.fieldNames.length (j :: js)
      return p
  | key :: keys, j :: js => do
      let p ← p.set key j (decodeOutcomes j)
      decodeFields p keys js

def decodeOutcomes : Json → Decoded (Option (List Value))
  | .null => .ok none
  | .list items => do
      let values ← decodeValues items
      return some values
  | j => wrongType "a sequence" j

def decodeValues : List Json → Decoded (List Value)
  | [] => .ok []
  | j :: js => do
      let v ← decodeValue j
      let vs ← decodeValues js
      return v :: vs

end

/-- What an entry is called in a fault about its length. -/
def variantName (variant : String) (fields : Nat) : String :=
  "struct variant TraceEvent::" ++ variant ++ " with " ++ toString fields ++
    if fields = 1 then " element" else " elements"

/-- Decodes the only field of an entry from the members of the entry. -/
def decodeOnlyMember {α : Type} (name : String) (decode : Json → Decoded α) :
    Option α → List (String × Json) → Decoded α
  | known, [] =>
      match known with
      | some x => .ok x
      | none => .error (.missingField name)
  | known, (key, j) :: members =>
      if key = name then do
        let known ← once name known (decode j)
        decodeOnlyMember name decode known members
      else decodeOnlyMember name decode known members

def decodeOnly {α : Type} (variant name : String)
    (decode : Json → Decoded α) : Json → Decoded α
  | .object members => decodeOnlyMember name decode none members
  | .list [] => .error (.wrongLength 0 (variantName variant 1))
  | .list (j :: js) => do
      let x ← decode j
      endOfList 1 js
      return x
  | j => wrongType (variantName variant 1) j

structure PartialLink where
  source : Option (Option ValueId)
  target : Option (Option ValueId)
  label : Option String

def decodeLinkMembers (p : PartialLink) :
    List (String × Json) → Decoded PartialLink
  | [] => .ok p
  | (key, j) :: members => do
      let p ←
        if key = "from" then do
          let source ← once key p.source (decodeNullable decodeId j)
          pure { p with source }
        else if key = "to" then do
          let target ← once key p.target (decodeNullable decodeId j)
          pure { p with target }
        else if key = "label" then do
          let label ← once key p.label (decodeString j)
          pure { p with label }
        else pure p
      decodeLinkMembers p members

/-- Decodes the two ends and the label of a link.  In the form of an object
the ends may be missing. -/
def decodeLink {α : Type} (variant : String)
    (make : Option ValueId → Option ValueId → String → α) : Json → Decoded α
  | .object members => do
      let p ← decodeLinkMembers ⟨none, none, none⟩ members
      match p.label with
      | some label => return make p.source.join p.target.join label
      | none => .error (.missingField "label")
  | .list fields => do
      let source ← (fields[0]?).mapM (decodeNullable decodeId)
      let target ← (fields[1]?).mapM (decodeNullable decodeId)
      match fields[2]? with
      | none => .error (.wrongLength 2 (variantName variant 3))
      | some j =>
          let label ← decodeString j
          endOfList 3 (fields.drop 3)
          return make source.join target.join label
  | j => wrongType (variantName variant 3) j

inductive Tag where
  | create
  | push
  | pop
  | link
  | unlink
  | callBoundary
  | throw
  deriving DecidableEq

namespace Tag

def word : Tag → String
  | create => "create"
  | push => "push"
  | pop => "pop"
  | link => "link"
  | unlink => "unlink"
  | callBoundary => "call_boundary"
  | throw => "throw"

def all : List Tag := [create, push, pop, link, unlink, callBoundary, throw]

def ofWord? (word : String) : Option Tag := all.find? fun t => t.word = word

end Tag

def decodeEntry : Tag → Json → Decoded Entry
  | .create, j => do
      let v ← decodeOnly "Create" "value" decodeValue j
      return .report (.create v)
  | .push, j => do
      let id ← decodeOnly "Push" "value" decodeId j
      return .report (.push id)
  | .pop, j => do
      let id ← decodeOnly "Pop" "value" decodeId j
      return .report (.pop id)
  | .link, j => decodeLink "Link" (fun s t l => .report (.link s t l)) j
  | .unlink, j => decodeLink "Unlink" (fun s t l => .report (.unlink s t l)) j
  | .callBoundary, .list items => do
      endOfList 0 items
      return .report .callBoundary
  | .callBoundary, _ => return .report .callBoundary
  | .throw, j => do
      let message ← decodeOnly "Throw" "message" decodeString j
      return .throw message

def readTag : Reader Tag := fun text =>
  match Json.skipBlanks text with
  | [] => .error (.atEnd .endInValue)
  | c :: cs =>
      if c = '"' then do
        let (word, rest) ← Json.stringRest cs
        match Tag.ofWord? word with
        | some tag => return (tag, rest)
        | none => throw (.here (.unknownVariant word (Tag.all.map Tag.word)) rest)
      else .error (Json.wrongTypeFault "variant identifier" (c :: cs))

/-- Reads the tag and the rest of an entry that is written as a list. -/
def readTagged (room : Nat) : Reader (Tag × Json) := fun text => do
  let (tag, rest) ← Json.positional true (.error (.missingField "op")) readTag text
  let (fields, rest) ←
    Json.items (Json.readValue room) (rest.length + 1) false rest
  return ((tag, .list fields), rest)

def readEntryMember (room : Nat) (known : Option Tag × List (String × Json))
    (key : String) : Reader (Option Tag × List (String × Json)) := fun text => do
  if key = "op" then
    let (tag, rest) ← Json.named "op" known.1 readTag text
    return ((some tag, known.2), rest)
  else
    let text ← Json.colon text
    let (j, rest) ← Json.readValue room text
    return ((known.1, known.2 ++ [(key, j)]), rest)

def readTaggedMembers (room : Nat) : Reader (Tag × Json) := fun text => do
  let ((tag, members), rest) ←
    Json.members (readEntryMember room) (text.length + 1) true (none, []) text
  match tag with
  | some tag => return ((tag, .object members), rest)
  | none => throw (.unplaced (.missingField "op") rest)

/-- Reads an entry that nests at most a number of lists and objects inside its
own brackets. -/
def readEntry (room : Nat) : Reader Entry := fun text => do
  let ((tag, content), rest) ←
    Json.readRecord "internally tagged enum TraceEvent" (readTagged room)
      (readTaggedMembers room) text
  match decodeEntry tag content with
  | .ok entry => return (entry, rest)
  | .error cause => throw (.unplaced cause rest)

/-- How many lists and objects a text may nest. -/
def nestingLimit : Nat := 127

def readBootstrap : Reader (List Entry) := Json.readList (readEntry (nestingLimit - 3))

def readSteps : Reader (List (List Entry)) :=
  Json.readList (Json.readList (readEntry (nestingLimit - 4)))

def readId : Reader ValueId := fun text => do
  let (n, rest) ← Json.readNatural UInt64.size "u64" text
  return (⟨n⟩, rest)

def readBuiltins : Reader (List ValueId) := Json.readList readId

def readGlobal : Reader (Option ValueId) := Json.readNullable readId

structure PartialTrace where
  bootstrap : Option (List Entry)
  steps : Option (List (List Entry))
  builtins : Option (List ValueId)
  global : Option (Option ValueId)

/-- A field that was not given is empty. -/
def PartialTrace.finish (p : PartialTrace) : Trace where
  bootstrap := p.bootstrap.getD []
  steps := p.steps.getD []
  builtins := p.builtins.getD []
  global := p.global.join

def readTraceMember (p : PartialTrace) (key : String) : Reader PartialTrace :=
  fun text => do
    if key = "bootstrap" then
      let (x, rest) ← Json.named key p.bootstrap readBootstrap text
      return ({ p with bootstrap := some x }, rest)
    else if key = "steps" then
      let (x, rest) ← Json.named key p.steps readSteps text
      return ({ p with steps := some x }, rest)
    else if key = "builtins" then
      let (x, rest) ← Json.named key p.builtins readBuiltins text
      return ({ p with builtins := some x }, rest)
    else if key = "global" then
      let (x, rest) ← Json.named key p.global readGlobal text
      return ({ p with global := some x }, rest)
    else
      let rest ← Json.skipField text
      return (p, rest)

def readTraceMembers : Reader Trace := fun text => do
  let (p, rest) ←
    Json.members readTraceMember (text.length + 1) true
      ⟨none, none, none, none⟩ text
  return (p.finish, rest)

def readTraceFields : Reader Trace := fun text => do
  let (bootstrap, text) ← Json.positional true (.ok []) readBootstrap text
  let (steps, text) ← Json.positional false (.ok []) readSteps text
  let (builtins, text) ← Json.positional false (.ok []) readBuiltins text
  let (global, text) ← Json.positional false (.ok none) readGlobal text
  return ({ bootstrap, steps, builtins, global }, text)

def readTrace : Reader Trace :=
  Json.readRecord "struct Trace" readTraceFields readTraceMembers

def diagnose (source : String) : Except Json.Diagnosis Trace :=
  match Json.readDocument readTrace source.toList with
  | .ok t => .ok t
  | .error e => .error (e.diagnose source.toList)

def parse (source : String) : Except ParseError Trace :=
  match diagnose source with
  | .ok t => .ok t
  | .error d => .error ⟨d.text, d.line, d.column⟩

end LiveHeap.Trace
