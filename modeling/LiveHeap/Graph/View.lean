import LiveHeap.Graph.Basic
import LiveHeap.Snapshot.Basic

/-!
# Snapshots of the graph

A snapshot lists the live vertices in ascending order and all edges as texts.
Two edges that differ only in the position of a maybe give two equal entries.
-/

namespace LiveHeap.Graph

def seenVertex? (g : Graph) (v : Handle) : Option SeenVertex :=
  (g.label? v).map (SeenVertex.mk v)

def seenEdge (e : Edge) : SeenEdge := ⟨e.source, e.target, e.label.text⟩

def snapshot (g : Graph) : Snapshot where
  vertices := g.liveVertices.filterMap g.seenVertex?
  edges := (g.edges.map seenEdge).mergeSort SeenEdge.le
  builtins := none
  root := none

/-- A snapshot for a consumer who is then up to date. -/
def takeSnapshot (g : Graph) : Graph × Snapshot :=
  ({ g with changed := false }, g.snapshot)

/-- The last snapshot of a session, with all builtins and the root. -/
def finalSnapshot (g : Graph) : Snapshot :=
  { g.snapshot with
    builtins := some (g.builtins.filterMap g.seenVertex?)
    root := g.seenVertex? root }

end LiveHeap.Graph
