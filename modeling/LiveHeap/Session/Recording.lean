import LiveHeap.Session.Engine

/-!
# Recordings of what an engine reports

A recorder is an observer that writes every event down.  It can be told to
refuse one event, after it was written down.
-/

namespace LiveHeap

structure Recorder where
  /-- The events written down since the page was last turned. -/
  page : List Event
  delivered : Nat
  /-- The number of the event to refuse, counted from one. -/
  refuseAt : Option Nat
  deriving Inhabited

namespace Recorder

def new (refuseAt : Option Nat) : Recorder := ⟨[], 0, refuseAt⟩

def turnPage (r : Recorder) : Recorder := { r with page := [] }

def write (r : Recorder) (e : Event) : Recorder × Option GraphError :=
  let number := r.delivered + 1
  ({ r with page := r.page ++ [e], delivered := number },
    if r.refuseAt = some number then some .stackUnderflow else none)

instance : Observer Recorder where
  deliver := write
  enterBootstrap r := r
  leaveBootstrap r _ _ := r
  collectionPending _ := false
  collect r := r

end Recorder

/-- What a machine reported, step by step. -/
structure Recording where
  steps : List (List Event)
  machine : Machine
  failed : Option EngineError

def Recording.ofMachine (m : Machine) (r : Recorder) : Recording :=
  match _h : m.advance r.turnPage with
  | (m', _, .exhausted) => ⟨[], m', none⟩
  | (m', r', .failed e) => ⟨[r'.page], m', some e⟩
  | (m', r', .moved) =>
      let rest := Recording.ofMachine m' r'
      { rest with steps := r'.page :: rest.steps }
termination_by m.remaining
decreasing_by
  have hlt := Machine.remaining_advance_lt (m := m) (o := r.turnPage)
    (by rw [_h])
  rwa [_h] at hlt

/-- What came of recording a whole session. -/
inductive SessionRecord where
  | unreadable (error : ParseError)
  | unconstructed (bootstrap : List Event) (error : EngineError)
  /-- The bootstrap, the machine after it, and what the machine reported. -/
  | complete (bootstrap : List Event) (machine : Machine)
      (recording : Recording)

def Engine.record (engine : Engine) (source : String)
    (refuseAt : Option Nat) : SessionRecord :=
  match engine.parse source with
  | .error e => .unreadable e
  | .ok program =>
      match engine.construct program (Recorder.new refuseAt) with
      | (r, .error e) => .unconstructed r.page e
      | (r, .ok m) => .complete r.page m (Recording.ofMachine m r)

end LiveHeap
