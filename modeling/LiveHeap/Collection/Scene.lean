import LiveHeap.Table
import LiveHeap.Handle

/-!
# The scene of a collection

All that a collection knows of the graph it works for: how to scan the roots,
the children of every vertex, and the live vertices that a sweep may release.
-/

namespace LiveHeap

inductive RootCall where
  /-- The vertex is reached, and its children will be. -/
  | visit (v : Handle)
  /-- The vertex is kept, and its children stay out of the walk. -/
  | pin (v : Handle)
  deriving DecidableEq

structure Scene where
  roots : List RootCall
  children : Table Handle (List Handle)
  /-- The vertices that a sweep may release. -/
  live : List Handle
  [ascending : Handle.Ascending live]

namespace Scene

attribute [instance] Scene.ascending

def empty : Scene := ⟨[], Table.empty, []⟩

instance : Inhabited Scene := ⟨empty⟩

def childrenOf (s : Scene) (v : Handle) : List Handle :=
  (s.children.get? v).getD []

/-- Every vertex that tracing may visit, once for each time it is a child. -/
def allChildren (s : Scene) : List Handle :=
  s.children.entries.flatMap Prod.snd

def release (s : Scene) (vs : List Handle) : Scene :=
  { s with
    live := s.live.filter fun v => v ∉ vs
    ascending := inferInstance }

def addLive (s : Scene) (v : Handle) : Scene :=
  { s with
    live := v.insertAscending s.live
    ascending := inferInstance }

def setRoots (s : Scene) (roots : List RootCall) : Scene :=
  { s with roots }

def setChildren (s : Scene) (v : Handle) (children : List Handle) : Scene :=
  { s with children := s.children.insert v children }

theorem childrenOf_subset (s : Scene) (v : Handle) :
    s.childrenOf v ⊆ s.allChildren := by
  intro w hw
  unfold childrenOf at hw
  cases h : s.children.get? v with
  | none => simp [h] at hw
  | some ws =>
      rw [h] at hw
      exact List.mem_flatMap.2
        ⟨(v, ws), (Table.get?_eq_some_iff _).1 h, hw⟩

end Scene

end LiveHeap
