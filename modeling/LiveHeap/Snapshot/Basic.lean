import LiveHeap.Handle

/-!
# Snapshots

A snapshot shows the live vertices in ascending order and every edge by its
label text.  Only the last snapshot of a session tells the builtins and the
root.  An edge may end at a vertex that is no longer live; such an edge is not
visible.
-/

namespace LiveHeap

structure SeenVertex where
  id : Handle
  label : String
  deriving DecidableEq, Inhabited

structure SeenEdge where
  source : Handle
  target : Handle
  label : String
  deriving DecidableEq, Inhabited

structure Snapshot where
  vertices : List SeenVertex
  edges : List SeenEdge
  builtins : Option (List SeenVertex)
  root : Option SeenVertex
  deriving DecidableEq, Inhabited

/-- By source, then target, then the label as text. -/
def SeenEdge.le (a b : SeenEdge) : Bool :=
  if a.source = b.source then
    if a.target = b.target then decide (a.label ≤ b.label)
    else decide (a.target < b.target)
  else decide (a.source < b.source)

namespace Snapshot

/-- Looks a vertex up in a list that ascends by id, halving the list each
time. -/
def search (id : Handle) (vs : List SeenVertex) : Option SeenVertex :=
  let half := vs.length / 2
  match _h : vs.drop half with
  | [] => none
  | v :: after =>
      if v.id = id then some v
      else if id < v.id then search id (vs.take half)
      else search id after
termination_by vs.length
decreasing_by
  · have hlen := congrArg List.length _h
    simp only [List.length_drop, List.length_cons] at hlen
    simp only [List.length_take]
    omega
  · have hlen := congrArg List.length _h
    simp only [List.length_drop, List.length_cons] at hlen
    omega

def isFinal (s : Snapshot) : Bool := s.builtins.isSome

def vertex? (s : Snapshot) (id : Handle) : Option SeenVertex :=
  search id s.vertices

def containsVertex (s : Snapshot) (id : Handle) : Bool := (s.vertex? id).isSome

def labelled (s : Snapshot) (label : String) : List SeenVertex :=
  s.vertices.filter fun v => v.label = label

def visibleEdges (s : Snapshot) : List SeenEdge :=
  s.edges.filter fun e => s.containsVertex e.source && s.containsVertex e.target

def edgesFrom (s : Snapshot) (source : Handle) : List SeenEdge :=
  s.edges.filter fun e => e.source = source

/-- One line for a human reader: the counts, then the labels of all vertices.
Edges that are not visible do not count. -/
def summary (s : Snapshot) : String :=
  let counts := toString s.vertices.length ++ " vertices, " ++
    toString s.visibleEdges.length ++ " edges"
  let builtins :=
    match s.builtins with
    | some vs => ", " ++ toString vs.length ++ " builtins"
    | none => ""
  counts ++ builtins ++ ": [" ++
    ", ".intercalate (s.vertices.map SeenVertex.label) ++ "]"

end Snapshot

end LiveHeap
