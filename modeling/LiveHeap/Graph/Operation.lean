import LiveHeap.Graph.Deliver
import LiveHeap.Graph.Reach
import LiveHeap.Graph.View

/-!
# Operations on the graph

Everything that can change a graph, as values.  Statements about every graph
that a session can reach speak about lists of operations on a new graph.
-/

namespace LiveHeap.Graph

inductive Operation where
  | event (event : Event)
  | beginBootstrap
  | endBootstrap
  | registerBuiltins (ids : List ValueId)
  | setGlobal (id : Option ValueId)
  | collect
  | takeSnapshot
  deriving Inhabited

/-- An event that the graph refuses leaves it as it was. -/
def apply (g : Graph) : Operation → Graph
  | .event e =>
      match g.deliver e with
      | .ok g' => g'
      | .error _ => g
  | .beginBootstrap => g.beginBootstrap
  | .endBootstrap => g.endBootstrap
  | .registerBuiltins ids => g.registerBuiltins ids
  | .setGlobal id => g.setGlobal id
  | .collect => g.collect.1
  | .takeSnapshot => g.takeSnapshot.1

def run (g : Graph) (ops : List Operation) : Graph := ops.foldl apply g

end LiveHeap.Graph
