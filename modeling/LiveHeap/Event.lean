import LiveHeap.Value

/-!
# Events and traces

Events are what an engine reports while it runs.  A trace is a recorded
session: the events of the bootstrap, then the events of every step.  Besides
reporting events, an entry of a trace may make the engine raise an error.
-/

namespace LiveHeap

/-- A report of the engine.  An absent end of a link is the root. -/
inductive Event where
  | create (value : Value)
  | push (value : ValueId)
  | pop (value : ValueId)
  | link (source target : Option ValueId) (label : String)
  | unlink (source target : Option ValueId) (label : String)
  /-- The program called into, or returned to, the host. -/
  | callBoundary
  deriving Inhabited

inductive Entry where
  | report (event : Event)
  | throw (message : String)
  deriving Inhabited

structure Trace where
  bootstrap : List Entry
  steps : List (List Entry)
  /-- The values of the root prototype collection. -/
  builtins : List ValueId
  /-- The root scope, if the engine has one apart from the root. -/
  global : Option ValueId
  deriving Inhabited

namespace Trace

def empty : Trace := ⟨[], [], [], none⟩

def addBootstrap (t : Trace) (entry : Entry) : Trace :=
  { t with bootstrap := t.bootstrap ++ [entry] }

def addStep (t : Trace) (entries : List Entry) : Trace :=
  { t with steps := t.steps ++ [entries] }

def addIdleSteps (t : Trace) (count : Nat) : Trace :=
  { t with steps := t.steps ++ List.replicate count [] }

end Trace

end LiveHeap
