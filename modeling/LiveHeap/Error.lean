/-!
# Errors

The engine fails to read its program or raises an error while it runs.  The
graph fails when the engine breaks the contract of pushes and pops, and that
counts as an internal error of the session.
-/

namespace LiveHeap

/-- The program text could not be read.  Lines count from one. -/
structure ParseError where
  message : String
  line : Nat
  column : Nat
  deriving DecidableEq, Inhabited

structure ExecutionError where
  message : String
  /-- Where the engine stood, if it is known. -/
  stackInfo : Option String
  deriving DecidableEq, Inhabited

inductive GraphError where
  /-- A pop was reported while no frame was on the stack. -/
  | stackUnderflow
  deriving DecidableEq, Inhabited

inductive EngineError where
  | execution (error : ExecutionError)
  | graph (error : GraphError)
  deriving DecidableEq, Inhabited

inductive SessionError where
  | parse (error : ParseError)
  | execution (error : ExecutionError)
  | internal (error : GraphError)
  deriving DecidableEq, Inhabited

def ParseError.text (e : ParseError) : String :=
  "parse error at " ++ toString e.line ++ ":" ++ toString e.column ++ ": " ++
    e.message

def ExecutionError.text (e : ExecutionError) : String :=
  "execution error: " ++ e.message

def GraphError.text : GraphError → String
  | .stackUnderflow => "stack underflow: pop with no frame on the stack"

def EngineError.text : EngineError → String
  | .execution e => e.text
  | .graph e => e.text

def EngineError.toSession : EngineError → SessionError
  | .execution e => .execution e
  | .graph e => .internal e

namespace SessionError

def text : SessionError → String
  | parse e => e.text
  | execution e => e.text
  | internal e => "internal error: " ++ e.text

def isInternal : SessionError → Bool
  | internal _ => true
  | _ => false

end SessionError

end LiveHeap
