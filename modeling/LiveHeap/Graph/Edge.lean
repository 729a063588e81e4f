import LiveHeap.Handle

/-!
# Labelled edges

Property and maybe edges run between the values of the graph, and a vertex has
at most one of them under a label.  The two structural edges of a stack frame
belong to the frame.  Edges are ordered by source, target and label.
-/

namespace LiveHeap

inductive Label where
  | property (name : String)
  /-- From a union to the outcome at a position. -/
  | maybe (position : Nat)
  /-- From a frame to the frame below it, or to the stack sentinel. -/
  | stackParent
  /-- From a frame to the value that it wraps. -/
  | stackValue
  deriving DecidableEq, Inhabited

namespace Label

def isProperty : Label → Bool
  | property _ => true
  | _ => false

def isStructural : Label → Bool
  | stackParent | stackValue => true
  | _ => false

def text : Label → String
  | property name => name
  | maybe _ => "maybe"
  | stackParent => "parent"
  | stackValue => "value"

/-- Properties come first, in the order of their names, then maybes in the
order of their positions, then parent edges, then value edges. -/
def le : Label → Label → Bool
  | property a, property b => decide (a ≤ b)
  | property _, _ => true
  | maybe _, property _ => false
  | maybe a, maybe b => decide (a ≤ b)
  | maybe _, _ => true
  | stackParent, stackParent => true
  | stackParent, stackValue => true
  | stackParent, _ => false
  | stackValue, stackValue => true
  | stackValue, _ => false

end Label

structure Edge where
  source : Handle
  target : Handle
  label : Label
  deriving DecidableEq, Inhabited

def Edge.le (a b : Edge) : Bool :=
  if a.source = b.source then
    if a.target = b.target then a.label.le b.label
    else decide (a.target < b.target)
  else decide (a.source < b.source)

/-- The labels in order, each of them once. -/
def Label.sortDistinct (labels : List Label) : List Label :=
  (labels.mergeSort Label.le).eraseReps

def Edge.sortDistinct (edges : List Edge) : List Edge :=
  (edges.mergeSort Edge.le).eraseReps

end LiveHeap
