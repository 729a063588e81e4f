import LiveHeap.Event
import LiveHeap.Error
import LiveHeap.Text.Words
import LiveHeap.Text.Decimal

/-!
# Scripts

A script is a session written by hand, one event a line.

```text
@create 1 object class=Object.prototype    # a bootstrap event
create 2 object class=Point
link - 2 p                                 # `-` is the root
---                                        # ends a step
either 3 4 5                               # the union 3 of the objects 4 and 5
push 3
pop 3
call
```

A number sign starts a comment.  Blank lines and comments count as lines and
nothing else.  Events behind the last separator form a step of their own.
-/

namespace LiveHeap

structure Script where
  bootstrap : List Entry
  steps : List (List Entry)
  deriving Inhabited

namespace Script

inductive LineFault where
  | unknownOperation (word : List Char)
  | unknownAttribute (word : List Char)
  | missingId
  | invalidId (word : List Char)
  | missingLabel
  deriving DecidableEq

def LineFault.text : LineFault → String
  | unknownOperation w => "unknown operation `" ++ String.ofList w ++ "`"
  | unknownAttribute w => "unknown attribute `" ++ String.ofList w ++ "`"
  | missingId => "missing value id"
  | invalidId w => "invalid value id `" ++ String.ofList w ++ "`"
  | missingLabel => "missing label"

def parseId (word : List Char) : Except LineFault ValueId :=
  match Text.readWord64? word with
  | some n => .ok ⟨n⟩
  | none => .error (.invalidId word)

/-- Takes the first word as a value id and answers the words behind it. -/
def takeId : List (List Char) → Except LineFault (ValueId × List (List Char))
  | [] => .error .missingId
  | word :: words => do
      let id ← parseId word
      return (id, words)

/-- Takes the first word as an end of a link; a dash is the root. -/
def takeEnd :
    List (List Char) → Except LineFault (Option ValueId × List (List Char))
  | ['-'] :: words => .ok (none, words)
  | words => do
      let (id, words) ← takeId words
      return (some id, words)

/-- What is left of a word behind the given characters. -/
def afterPrefix? : List Char → List Char → Option (List Char)
  | [], word => some word
  | _ :: _, [] => none
  | p :: ps, c :: cs => if c = p then afterPrefix? ps cs else none

def applyAttribute (v : Value) (word : List Char) : Except LineFault Value :=
  if word = "object".toList then
    .ok (v.mapProfile fun about => { about with enumerable := true })
  else
    match afterPrefix? "class=".toList word with
    | some text => .ok (v.withClass (String.ofList text))
    | none =>
        match afterPrefix? "name=".toList word with
        | some text => .ok (v.withName (String.ofList text))
        | none => .error (.unknownAttribute word)

def joinWords : List (List Char) → List Char
  | [] => []
  | [word] => word
  | word :: words => word ++ ' ' :: joinWords words

def parseLink {α : Type}
    (make : Option ValueId → Option ValueId → String → α)
    (words : List (List Char)) : Except LineFault α := do
  let (source, words) ← takeEnd words
  let (target, words) ← takeEnd words
  match words with
  | [] => throw .missingLabel
  | label :: _ => return make source target (String.ofList label)

/-- Reads an event from its words.  Words that an event has no use for are
passed over. -/
def parseWords (words : List (List Char)) : Except LineFault Entry :=
  let operation := words.headD []
  let arguments := words.tail
  if operation = "create".toList then do
    let (id, attributes) ← takeId arguments
    let value ← attributes.foldlM applyAttribute (Value.primitive id)
    return .report (.create value)
  else if operation = "either".toList then do
    let (id, outcomes) ← takeId arguments
    let outcomes ← outcomes.mapM parseId
    return .report (.create (Value.either id (outcomes.map Value.object)))
  else if operation = "push".toList then do
    let (id, _) ← takeId arguments
    return .report (.push id)
  else if operation = "pop".toList then do
    let (id, _) ← takeId arguments
    return .report (.pop id)
  else if operation = "link".toList then
    parseLink (fun s t l => .report (.link s t l)) arguments
  else if operation = "unlink".toList then
    parseLink (fun s t l => .report (.unlink s t l)) arguments
  else if operation = "call".toList then
    return .report .callBoundary
  else if operation = "throw".toList then
    return .throw (String.ofList (joinWords arguments))
  else throw (.unknownOperation operation)

/-- What a line says, without its comment and the blanks around it. -/
def statement (line : List Char) : List Char :=
  Text.trim (line.takeWhile fun c => c ≠ '#')

def separator : List Char := ['-', '-', '-']

/-- Reads numbered lines.  The script so far and the events of the step that
is not yet ended are carried along. -/
def parseLines (script : Script) (step : List Entry) :
    Nat → List (List Char) → Except ParseError Script
  | _, [] =>
      .ok (if step.isEmpty then script
        else { script with steps := script.steps ++ [step] })
  | number, line :: lines =>
      match statement line with
      | [] => parseLines script step (number + 1) lines
      | c :: cs =>
          if c :: cs = separator then
            parseLines { script with steps := script.steps ++ [step] } []
              (number + 1) lines
          else if c = '@' then
            match parseWords (Text.words cs) with
            | .error e => .error ⟨e.text, number, 1⟩
            | .ok entry =>
                parseLines
                  { script with bootstrap := script.bootstrap ++ [entry] }
                  step (number + 1) lines
          else
            match parseWords (Text.words (c :: cs)) with
            | .error e => .error ⟨e.text, number, 1⟩
            | .ok entry =>
                parseLines script (step ++ [entry]) (number + 1) lines

def parse (source : String) : Except ParseError Script :=
  parseLines ⟨[], []⟩ [] 1 (Text.lines source.toList)

end Script

end LiveHeap
