import LiveHeap.Collection.Collector

/-!
# Operations on a bench

The calls that a host makes on a collector, and the changes that it makes to
the scene between two of them, as values.  Statements about every history of
a collector speak about lists of operations.
-/

namespace LiveHeap.Bench

inductive Operation where
  | start
  | step
  | finish
  | collect
  | takeRemoved
  | addLive (v : Handle)
  | setChildren (v : Handle) (children : List Handle)
  | setRoots (roots : List RootCall)

inductive Answer where
  | nothing
  /-- Whether the cycle still runs, or whether a vertex was new. -/
  | flag (b : Bool)
  | steps (n : Nat)
  | vertices (vs : List Handle)
  deriving DecidableEq

def perform (b : Bench) : Operation → Bench × Answer
  | .start => (b.start, .nothing)
  | .step => let (b, running) := b.step; (b, .flag running)
  | .finish => let (b, n) := b.finish; (b, .steps n)
  | .collect => let (b, vs) := b.collect; (b, .vertices vs)
  | .takeRemoved => let (b, vs) := b.takeRemoved; (b, .vertices vs)
  | .addLive v =>
      ({ b with scene := b.scene.addLive v },
        .flag (decide (v ∉ b.scene.live)))
  | .setChildren v children =>
      ({ b with scene := b.scene.setChildren v children }, .nothing)
  | .setRoots roots => ({ b with scene := b.scene.setRoots roots }, .nothing)

/-- The bench after a list of operations, on one continuing log. -/
def run (b : Bench) (ops : List Operation) : Bench :=
  ops.foldl (fun b op => (b.perform op).1) b

end LiveHeap.Bench
