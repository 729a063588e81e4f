import LiveHeap.Value
import LiveHeap.Graph.Edge

/-!
# Vertices of the object graph

Two sentinels, the frames of the stack, and the values of the engine.  A slot
of the arena holds a vertex with its membership in the live set and in the
builtins set.
-/

namespace LiveHeap

/-- A pushed value: the frame or sentinel below it and the value it wraps. -/
structure Frame where
  parent : Handle
  value : Handle
  deriving DecidableEq, Inhabited

namespace Frame

def parentEdge (f : Frame) (frame : Handle) : Edge :=
  ⟨frame, f.parent, .stackParent⟩

def valueEdge (f : Frame) (frame : Handle) : Edge :=
  ⟨frame, f.value, .stackValue⟩

end Frame

inductive Vertex where
  /-- What the program reaches without going through another value. -/
  | root
  /-- The bottom of the stack. -/
  | stack
  | frame (frame : Frame)
  | plain (about : Profile)
  | union (about : Profile) (outcomes : List Handle)
  deriving DecidableEq, Inhabited

namespace Vertex

def profile? : Vertex → Option Profile
  | plain about => some about
  | union about _ => some about
  | _ => none

def isFrame : Vertex → Bool
  | frame _ => true
  | _ => false

/-- Only the values of the engine may be released by a collection. -/
def isValue : Vertex → Bool
  | plain _ => true
  | union _ _ => true
  | _ => false

def outcomes? : Vertex → Option (List Handle)
  | union _ outcomes => some outcomes
  | _ => none

/-- Whether the walk follows the property edges of the vertex.  The root
always names its children. -/
def isEnumerable : Vertex → Bool
  | root => true
  | plain about => about.enumerable
  | union about _ => about.enumerable
  | _ => false

end Vertex

/-- A classification goes before a name, and a value may have neither. -/
def Profile.label (about : Profile) : String :=
  match about.className, about.name with
  | some className, _ => className
  | none, some name => "name: " ++ name
  | none, none => "???"

def Vertex.label : Vertex → String
  | root => "Root"
  | stack => "Stack Item"
  | frame _ => "Stack Item"
  | plain about => about.label
  | union about _ => about.label

/-- Membership of a vertex: part of the live set, part of the builtins. -/
structure Flags where
  live : Bool
  builtin : Bool
  deriving DecidableEq, Inhabited

structure Slot where
  vertex : Vertex
  flags : Flags
  deriving DecidableEq, Inhabited

end LiveHeap
