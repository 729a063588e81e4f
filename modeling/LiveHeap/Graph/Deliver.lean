import LiveHeap.Graph.Register
import LiveHeap.Graph.Surface

/-!
# Events on the graph

What each event does to the graph.  Only a pop can fail, and a pop that fails
leaves the graph as it was.
-/

namespace LiveHeap.Graph

def create (g : Graph) (value : Value) : Graph :=
  (g.register value).1.markChanged

/-- Outside the bootstrap, a pushed builtin is surfaced. -/
def surfacePushed (g : Graph) (v : Handle) : Graph :=
  if !g.bootstrapping && g.isBuiltin v then g.surface v else g

def pushFrame (g : Graph) (value : Handle) : Graph :=
  let frame : Frame := ⟨g.stackTop, value⟩
  let (g, v) := g.allocFrame frame
  { g with
    edges := (g.edges.insert (frame.parentEdge v)).insert (frame.valueEdge v)
    stackTop := v
    stackDepth := g.stackDepth + 1 }

def push (g : Graph) (id : ValueId) : Graph :=
  let (g, v) := g.resolve id
  ((g.surfacePushed v).pushFrame v).markChanged

/-- Takes the top frame off the stack, whatever value it wraps. -/
def pop (g : Graph) : Except GraphError Graph :=
  match g.vertex? g.stackTop with
  | some (.frame f) =>
      let top := g.stackTop
      let g :=
        { g with
          edges := (g.edges.erase (f.parentEdge top)).erase (f.valueEdge top) }
      let g := g.freeSlot top
      .ok { g with
        stackTop := f.parent
        stackDepth := g.stackDepth - 1
        changed := true
        mutated := true }
  | _ => .error .stackUnderflow

/-- Whether a link surfaces its ends: in the bootstrap if one end is the root,
afterwards if one end is a builtin. -/
def linkSurfaces (g : Graph) (source target : Handle) : Bool :=
  if g.bootstrapping then decide (source = root) || decide (target = root)
  else g.isBuiltin source || g.isBuiltin target

def surfaceLinked (g : Graph) (source target : Handle) : Graph :=
  if g.linkSurfaces source target then (g.surface source).surface target
  else g

def link (g : Graph) (source target : Option ValueId) (label : String) :
    Graph :=
  let (g, s) := g.resolveEnd source
  let (g, t) := g.resolveEnd target
  ((g.surfaceLinked s t).install ⟨s, t, .property label⟩).markChanged

/-- Removes the edge under the label, whichever target it has. -/
def unlink (g : Graph) (source target : Option ValueId) (label : String) :
    Graph :=
  let (g, s) := g.resolveEnd source
  let (g, _) := g.resolveEnd target
  (g.retire s (.property label)).markChanged

/-- A call boundary asks for a collection and changes nothing else. -/
def callBoundary (g : Graph) : Graph := { g with collectionDue := true }

def deliver (g : Graph) : Event → Except GraphError Graph
  | .create value => .ok (g.create value)
  | .push id => .ok (g.push id)
  | .pop _ => g.pop
  | .link source target label => .ok (g.link source target label)
  | .unlink source target label => .ok (g.unlink source target label)
  | .callBoundary => .ok g.callBoundary

end LiveHeap.Graph
