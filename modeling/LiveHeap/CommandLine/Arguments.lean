import LiveHeap.Options
import LiveHeap.Text.Decimal

/-!
# Arguments of the command line

Options may stand before, between and after the files, and a value may be
given as `--x v` or as `--x=v`.  Behind a lone double dash everything is a
file.  No option may be given twice.  An option that waits for its value, or
has it as the next argument, is settled when the next argument that is an
option or a file is looked at; an unknown option is noticed before that.
-/

namespace LiveHeap

structure Arguments where
  batchSize : Option Nat
  interval : Option Nat
  noCollection : Bool
  json : Bool
  verbose : Bool
  files : List String
  deriving DecidableEq, Inhabited

namespace Arguments

inductive Fault where
  | missingFile
  | unknownOption
  | missingValue
  | invalidNumber
  | givenTwice
  | unexpectedValue
  | helpRequested
  deriving DecidableEq

def Fault.message : Fault → String
  | .missingFile => "error: no file was given"
  | .unknownOption => "error: unknown option"
  | .missingValue => "error: an option has no value"
  | .invalidNumber => "error: a value is not a number"
  | .givenTwice => "error: an option was given twice"
  | .unexpectedValue => "error: an option takes no value"
  | .helpRequested =>
      "options: --batch-size N, --interval N, --no-gc, --json, --verbose"

/-- Asking for help is no failure. -/
def Fault.exitCode : Fault → UInt32
  | .helpRequested => 0
  | _ => 2

inductive Setting where
  | batchSize
  | interval
  deriving DecidableEq

inductive Switch where
  | noCollection
  | json
  | verbose
  | help
  deriving DecidableEq

/-- The arguments looked at so far, and the option that is not settled, with
its value if that was given. -/
structure Scan where
  arguments : Arguments
  open? : Option (Setting × Option String)

def Scan.start : Scan :=
  ⟨⟨none, none, false, false, false, []⟩, none⟩

def setting? (name : List Char) : Option Setting :=
  if name = "batch-size".toList then some .batchSize
  else if name = "interval".toList then some .interval
  else none

def switch? (name : List Char) : Option Switch :=
  if name = "no-gc".toList then some .noCollection
  else if name = "json".toList then some .json
  else if name = "verbose".toList then some .verbose
  else if name = "help".toList then some .help
  else none

def shortSwitch? (letter : Char) : Option Switch :=
  if letter = 'v' then some .verbose
  else if letter = 'h' then some .help
  else none

def assign (a : Arguments) (s : Setting) (value : String) :
    Except Fault Arguments := do
  let known :=
    match s with
    | .batchSize => a.batchSize
    | .interval => a.interval
  if known.isSome then throw .givenTwice
  match Text.readWord64? value.toList with
  | none => throw .invalidNumber
  | some n =>
      match s with
      | .batchSize => return { a with batchSize := some n.toNat }
      | .interval => return { a with interval := some n.toNat }

def Scan.settle (s : Scan) : Except Fault Scan :=
  match s.open? with
  | none => .ok s
  | some (_, none) => .error .missingValue
  | some (setting, some value) => do
      let arguments ← s.arguments.assign setting value
      return ⟨arguments, none⟩

def Scan.turnOn (s : Scan) (switch : Switch) : Except Fault Scan := do
  let s ← s.settle
  let a := s.arguments
  match switch with
  | .help => throw .helpRequested
  | .noCollection =>
      if a.noCollection then throw .givenTwice
      return { s with arguments := { a with noCollection := true } }
  | .json =>
      if a.json then throw .givenTwice
      return { s with arguments := { a with json := true } }
  | .verbose =>
      if a.verbose then throw .givenTwice
      return { s with arguments := { a with verbose := true } }

def Scan.long (s : Scan) (text : List Char) : Except Fault Scan :=
  let name := text.takeWhile fun c => c ≠ '='
  let value? :=
    match text.dropWhile fun c => c ≠ '=' with
    | [] => none
    | _ :: value => some (String.ofList value)
  match setting? name, switch? name with
  | some setting, _ => do
      let s ← s.settle
      match value? with
      | none => return { s with open? := some (setting, none) }
      | some value =>
          let arguments ← s.arguments.assign setting value
          return { s with arguments }
  | none, some switch =>
      if value?.isSome then .error .unexpectedValue else s.turnOn switch
  | none, none => .error .unknownOption

def Scan.short (s : Scan) : List Char → Except Fault Scan
  | [] => .ok s
  | letter :: letters =>
      match shortSwitch? letter with
      | none => .error .unknownOption
      | some switch => do
          let s ← s.turnOn switch
          s.short letters

def Scan.plain (s : Scan) (text : String) : Except Fault Scan :=
  match s.open? with
  | some (setting, none) =>
      .ok { s with open? := some (setting, some text) }
  | _ => do
      let s ← s.settle
      let a := s.arguments
      return { s with arguments := { a with files := a.files ++ [text] } }

/-- Takes an argument as a file, behind the lone double dash. -/
def Scan.file (s : Scan) (text : String) : Except Fault Scan := do
  let s ← s.settle
  let a := s.arguments
  return { s with arguments := { a with files := a.files ++ [text] } }

def Scan.all (s : Scan) : List String → Except Fault Scan
  | [] => .ok s
  | argument :: rest =>
      match argument.toList with
      | '-' :: '-' :: [] => rest.foldlM Scan.file s
      | '-' :: '-' :: text => do
          let s ← s.long text
          s.all rest
      | '-' :: letter :: letters => do
          let s ← s.short (letter :: letters)
          s.all rest
      | _ => do
          let s ← s.plain argument
          s.all rest

def parse (arguments : List String) : Except Fault Arguments := do
  let s ← Scan.start.all arguments
  let s ← s.settle
  if s.arguments.files.isEmpty then throw .missingFile
  return s.arguments

def options (a : Arguments) : Options :=
  ((Options.default.withBatchSize
    (a.batchSize.getD Options.defaultBatchSize)).withSnapshotInterval
    (a.interval.getD Options.defaultSnapshotInterval)).withCollectGarbage
    !a.noCollection

end Arguments

end LiveHeap
