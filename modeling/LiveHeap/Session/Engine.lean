import LiveHeap.Session.Observer
import LiveHeap.Trace.Reader
import LiveHeap.Script.Reader

/-!
# Engines and machines

An engine reads a program and builds a machine from it, which reports the
events of one step at a time.  All engines here play back a recording.  They
differ in the language of the recording, in whether they tell the builtins and
the root scope, and in what they say about the place where they stand.
-/

namespace LiveHeap

inductive Language where
  | trace
  | script
  deriving DecidableEq, Inhabited

/-- How a machine says where it stands. -/
inductive Whereabouts where
  /-- `replay step 0 of 3`, counted from zero. -/
  | replayStep
  /-- `at script step 1`, counted from one. -/
  | scriptStep
  | unstated
  deriving DecidableEq, Inhabited

structure Engine where
  language : Language
  /-- Whether the machine tells the builtins and the root scope. -/
  tellsBuiltins : Bool
  whereabouts : Whereabouts
  /-- What the engine itself puts on every execution error that it raises as
  the stack info, if it does. -/
  ownInfo : Option (Option String)
  deriving DecidableEq, Inhabited

namespace Engine

def replay : Engine := ⟨.trace, true, .replayStep, none⟩

def script : Engine := ⟨.script, false, .scriptStep, none⟩

/-- Plays back traces, tells nothing, and puts its own info on errors. -/
def bare (info : Option String) : Engine := ⟨.trace, false, .unstated, some info⟩

/-- Like `bare`, but says where it stands. -/
def annotated (info : Option String) : Engine :=
  ⟨.trace, false, .replayStep, some info⟩

def parse (engine : Engine) (source : String) : Except ParseError Trace :=
  match engine.language with
  | .trace => Trace.parse source
  | .script => do
      let s ← Script.parse source
      return { bootstrap := s.bootstrap, steps := s.steps
               builtins := [], global := none }

def raise (engine : Engine) : EngineError → EngineError
  | .execution e =>
      match engine.ownInfo with
      | some info => .execution { e with stackInfo := info }
      | none => .execution e
  | .graph e => .graph e

end Engine

structure Machine where
  engine : Engine
  steps : List (List Entry)
  position : Nat
  builtins : List ValueId
  global : Option ValueId
  deriving Inhabited

variable {σ : Type} [Observer σ]

def Entry.playBack (o : σ) : Entry → σ × Option EngineError
  | .report e =>
      let (o, refused) := Observer.deliver o e
      (o, refused.map EngineError.graph)
  | .throw message => (o, some (.execution ⟨message, none⟩))

def playBack (o : σ) : List Entry → σ × Option EngineError
  | [] => (o, none)
  | entry :: entries =>
      match entry.playBack o with
      | (o, none) => playBack o entries
      | (o, some e) => (o, some e)

/-- Builds a machine for a program, playing back the bootstrap. -/
def Engine.construct (engine : Engine) (program : Trace) (o : σ) :
    σ × Except EngineError Machine :=
  match playBack o program.bootstrap with
  | (o, some e) => (o, .error (engine.raise e))
  | (o, none) =>
      (o, .ok
        { engine
          steps := program.steps
          position := 0
          builtins := if engine.tellsBuiltins then program.builtins else []
          global := if engine.tellsBuiltins then program.global else none })

inductive Advance where
  | moved
  | exhausted
  | failed (error : EngineError)
  deriving DecidableEq

namespace Machine

/-- Plays back the next step.  A step that fails is not counted, and what it
reported before it failed stays reported. -/
def advance (m : Machine) (o : σ) : Machine × σ × Advance :=
  match m.steps[m.position]? with
  | none => (m, o, .exhausted)
  | some entries =>
      match playBack o entries with
      | (o, none) => ({ m with position := m.position + 1 }, o, .moved)
      | (o, some e) => (m, o, .failed (m.engine.raise e))

/-- The result of a machine is the number of steps that it played back. -/
def finish (m : Machine) : Nat := m.position

def stackInfo (m : Machine) : String :=
  match m.engine.whereabouts with
  | .replayStep =>
      "replay step " ++ toString m.position ++ " of " ++ toString m.steps.length
  | .scriptStep => "at script step " ++ toString (m.position + 1)
  | .unstated => ""

def remaining (m : Machine) : Nat := m.steps.length - m.position

theorem remaining_advance_lt {m : Machine} {o : σ}
    (h : (m.advance o).2.2 = .moved) :
    (m.advance o).1.remaining < m.remaining := by
  unfold advance at h ⊢
  cases hs : m.steps[m.position]? with
  | none => simp [hs] at h
  | some entries =>
      have hlt := (List.getElem?_eq_some_iff.1 hs).1
      cases hp : playBack o entries with
      | mk o' failed =>
          cases failed with
          | none =>
              simp only [hp, remaining]
              omega
          | some e => simp [hs, hp] at h

end Machine

end LiveHeap
