import LiveHeap.Graph.Arena

/-!
# Property and maybe edges

Installing an edge retires the one that was installed under the same source
and label, so that the edge set and the label index change together.
-/

namespace LiveHeap.Graph

def retire (g : Graph) (source : Handle) (label : Label) : Graph :=
  match g.outgoing? source label with
  | none => g
  | some target =>
      { g with
        index := g.index.erase (source, label)
        edges := g.edges.erase ⟨source, target, label⟩ }

def install (g : Graph) (e : Edge) : Graph :=
  let g := g.retire e.source e.label
  { g with
    index := g.index.insert (e.source, e.label) e.target
    edges := g.edges.insert e }

/-- Removes the maybe edges of a union, one for each outcome it holds. -/
def retireOutcomes (g : Graph) (v : Handle) : Graph :=
  let count := (((g.vertex? v).bind Vertex.outcomes?).getD []).length
  (List.range count).foldl (fun g i => g.retire v (.maybe i)) g

end LiveHeap.Graph
