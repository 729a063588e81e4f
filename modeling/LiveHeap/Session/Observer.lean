import LiveHeap.Graph.Deliver
import LiveHeap.Graph.Reach

/-!
# Observers of an engine

An observer is told every event at once and may refuse it.  The driver of the
engine also tells it when the bootstrap begins and ends, and asks it to
collect between batches.  The object graph is an observer; the blind observer
takes no notice of anything.
-/

namespace LiveHeap

class Observer (σ : Type) where
  /-- What the observer is after an event, and whether it refused it. -/
  deliver : σ → Event → σ × Option GraphError
  enterBootstrap : σ → σ
  /-- The bootstrap is over, with the builtins and the root scope. -/
  leaveBootstrap : σ → List ValueId → Option ValueId → σ
  /-- Whether a collection should run at the end of this batch. -/
  collectionPending : σ → Bool
  collect : σ → σ

structure Blind where
  deriving DecidableEq, Inhabited

instance : Observer Blind where
  deliver o _ := (o, none)
  enterBootstrap o := o
  leaveBootstrap o _ _ := o
  collectionPending _ := false
  collect o := o

namespace Graph

/-- The graph when the bootstrap is over. -/
def leaveBootstrap (g : Graph) (builtins : List ValueId)
    (global : Option ValueId) : Graph :=
  (g.endBootstrap.registerBuiltins builtins).setGlobal global

/-- A collection waits for a call boundary and for something to do. -/
def collectionPending (g : Graph) : Bool := g.mutated && g.collectionDue

/-- The graph after an event, which it leaves unchanged when it refuses it. -/
def observe (g : Graph) (e : Event) : Graph × Option GraphError :=
  match g.deliver e with
  | .ok g' => (g', none)
  | .error err => (g, some err)

instance : Observer Graph where
  deliver := observe
  enterBootstrap := beginBootstrap
  leaveBootstrap := leaveBootstrap
  collectionPending := collectionPending
  collect g := g.collect.1

end Graph

end LiveHeap
