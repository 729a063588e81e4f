import LiveHeap.Event
import LiveHeap.Error
import LiveHeap.Graph.Vertex
import LiveHeap.Collection.Collector

/-!
# The object graph

The vertices live in an arena.  Values stay in their slot for good, and the
slots of popped frames are used again.  The edge set holds every edge; the
label index holds the property and maybe edges a second time, by source and
label.  The queries of this file only read.
-/

namespace LiveHeap

structure Graph where
  /-- The arena.  A slot of a popped frame is empty until it is used again. -/
  slots : List (Option Slot)
  /-- The empty slots, the one freed last in front. -/
  freeSlots : List Handle
  values : Table ValueId Handle
  edges : List Edge
  index : Table (Handle × Label) Handle
  stackTop : Handle
  stackDepth : Nat
  /-- The root scope, which a collection walks as one more root. -/
  global : Option Handle
  bootstrapping : Bool
  /-- Whether the graph changed since a snapshot was last taken. -/
  changed : Bool
  /-- Whether an event changed the graph since the last collection. -/
  mutated : Bool
  /-- Whether a call boundary was reported since the last collection. -/
  collectionDue : Bool
  collector : Collector
  deriving Inhabited

namespace Graph

def root : Handle := ⟨0⟩

def stack : Handle := ⟨1⟩

def new : Graph where
  slots := [some ⟨.root, ⟨true, false⟩⟩, some ⟨.stack, ⟨true, false⟩⟩]
  freeSlots := []
  values := Table.empty
  edges := []
  index := Table.empty
  stackTop := stack
  stackDepth := 0
  global := none
  bootstrapping := false
  changed := false
  mutated := false
  collectionDue := false
  collector := Collector.new

def slot? (g : Graph) (v : Handle) : Option Slot := (g.slots[v.index]?).join

def vertex? (g : Graph) (v : Handle) : Option Vertex :=
  (g.slot? v).map Slot.vertex

def vertexFor? (g : Graph) (id : ValueId) : Option Handle := g.values.get? id

def isLive (g : Graph) (v : Handle) : Bool :=
  match g.slot? v with
  | some s => s.flags.live
  | none => false

def isBuiltin (g : Graph) (v : Handle) : Bool :=
  match g.slot? v with
  | some s => s.flags.builtin
  | none => false

def label? (g : Graph) (v : Handle) : Option String :=
  (g.vertex? v).map Vertex.label

/-- Every place of the arena in ascending order, empty slots included. -/
def handles (g : Graph) : List Handle :=
  (List.range g.slots.length).map Handle.mk

instance (g : Graph) : Handle.Ascending g.handles :=
  inferInstanceAs (Handle.Ascending ((List.range _).map Handle.mk))

def liveVertices (g : Graph) : List Handle := g.handles.filter g.isLive

/-- The builtins in ascending order, whether they are live or hidden. -/
def builtins (g : Graph) : List Handle := g.handles.filter g.isBuiltin

def liveCount (g : Graph) : Nat :=
  g.slots.countP fun slot => slot.any fun s => s.flags.live

def edgeCount (g : Graph) : Nat := g.edges.length

def sortedEdges (g : Graph) : List Edge := g.edges.mergeSort Edge.le

def containsEdge (g : Graph) (e : Edge) : Bool := decide (e ∈ g.edges)

/-- The target of the property or maybe edge under a label. -/
def outgoing? (g : Graph) (source : Handle) (label : Label) : Option Handle :=
  g.index.get? (source, label)

/-- The targets of all property and maybe edges of a vertex. -/
def successors (g : Graph) (v : Handle) : List Handle :=
  (g.index.entries.filter fun e => e.1.1 = v).map Prod.snd

def namedChildren (g : Graph) (v : Handle) : List Handle :=
  (g.index.entries.filter fun e => e.1.1 = v && e.1.2.isProperty).map Prod.snd

/-- Follows parent links through at most a number of frames. -/
def framesFrom (g : Graph) : Nat → Handle → List (Handle × Frame)
  | 0, _ => []
  | limit + 1, v =>
      match g.vertex? v with
      | some (.frame f) => (v, f) :: g.framesFrom limit f.parent
      | _ => []

/-- The frames from the top of the stack down.  No chain is longer than the
arena. -/
def frames (g : Graph) : List (Handle × Frame) :=
  g.framesFrom g.slots.length g.stackTop

def collections (g : Graph) : Nat := g.collector.cycles

end Graph

end LiveHeap
