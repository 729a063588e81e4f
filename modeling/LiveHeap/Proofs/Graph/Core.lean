import LiveHeap.Proofs.Graph.Flags
import LiveHeap.Proofs.Graph.Liveness

/-!
# The core of a graph

What is left of a graph without the live set, the flags and the collector.
Which vertices are live decides what surfacing and collecting do, but they do
nothing else than to change which vertices are live.  So what an event makes of
the core depends on the core alone, and a collection leaves the core alone.
-/

namespace LiveHeap

/-- The slot of a vertex that is not live. -/
def Slot.dim (s : Slot) : Slot :=
  { s with flags := { s.flags with live := false } }

namespace Graph

def dimSlots (slots : List (Option Slot)) : List (Option Slot) :=
  slots.map (Option.map Slot.dim)

def core (g : Graph) : Graph :=
  { g with
    slots := dimSlots g.slots
    changed := false
    mutated := false
    collectionDue := false
    collector := Collector.new }

variable {g g' : Graph} {v : Handle}

/-! ## What the core tells -/

section DimSlots

variable (slots : List (Option Slot)) (i : Nat) (o : Option Slot)

@[simp] theorem length_dimSlots : (dimSlots slots).length = slots.length :=
  List.length_map ..

@[simp] theorem dimSlots_concat :
    dimSlots (slots ++ [o]) = dimSlots slots ++ [o.map Slot.dim] := by
  simp [dimSlots]

@[simp] theorem dimSlots_set :
    dimSlots (slots.set i o) = (dimSlots slots).set i (o.map Slot.dim) := by
  simp [dimSlots]

@[simp] theorem dimSlots_dimSlots :
    dimSlots (dimSlots slots) = dimSlots slots := by
  have hdim : Option.map Slot.dim ∘ Option.map Slot.dim =
      Option.map Slot.dim := by
    funext o
    cases o <;> rfl
  unfold dimSlots
  rw [List.map_map, hdim]

end DimSlots

theorem slot?_core (g : Graph) (v : Handle) :
    g.core.slot? v = (g.slot? v).map Slot.dim := by
  have hslots : g.core.slots = g.slots.map (Option.map Slot.dim) := rfl
  unfold slot?
  rw [hslots, List.getElem?_map]
  rcases g.slots[v.index]? with _ | _ | s <;> rfl

theorem vertex?_core (g : Graph) (v : Handle) :
    g.core.vertex? v = g.vertex? v := by
  unfold vertex?
  rw [slot?_core]
  cases g.slot? v <;> rfl

theorem isBuiltin_core (g : Graph) (v : Handle) :
    g.core.isBuiltin v = g.isBuiltin v := by
  unfold isBuiltin
  rw [slot?_core]
  cases g.slot? v <;> rfl

theorem alike_of_core (h : g'.core = g.core) : g.Alike g' where
  length := by
    have hslots := congrArg (List.length ∘ Graph.slots) h
    simpa [core] using hslots
  vertex? v := by rw [← vertex?_core, h, vertex?_core]
  isBuiltin v := by rw [← isBuiltin_core, h, isBuiltin_core]
  values := by
    have hsame := congrArg Graph.values h
    exact hsame
  edges := by
    have hsame := congrArg Graph.edges h
    exact hsame
  index := by
    have hsame := congrArg Graph.index h
    exact hsame
  stackTop := by
    have hsame := congrArg Graph.stackTop h
    exact hsame
  bootstrapping := by
    have hsame := congrArg Graph.bootstrapping h
    exact hsame

/-! ## Elementary changes -/

theorem dimSlots_modify {f f' : Slot → Slot}
    (hf : ∀ s, (f s).dim = f' s.dim) (slots : List (Option Slot)) (i : Nat) :
    dimSlots (slots.modify i (Option.map f)) =
      (dimSlots slots).modify i (Option.map f') := by
  have hmap : ∀ o : Option Slot,
      (o.map f).map Slot.dim = (o.map Slot.dim).map f' := by
    intro o
    cases o with
    | none => rfl
    | some s => exact congrArg some (hf s)
  unfold dimSlots
  induction slots generalizing i with
  | nil => simp
  | cons o slots ih =>
      cases i with
      | zero => simp [hmap]
      | succ i => simp [ih]

theorem core_modifySlot {f : Slot → Slot} (hf : ∀ s, (f s).dim = f s.dim)
    (g : Graph) (v : Handle) :
    (g.modifySlot v f).core = g.core.modifySlot v f := by
  unfold core modifySlot
  simp only
  rw [dimSlots_modify hf]

theorem core_setLive (g : Graph) (v : Handle) (live : Bool) :
    (g.setLive v live).core = g.core := by
  have hdim : ∀ s : Slot,
      Slot.dim { s with flags := { s.flags with live } } = id s.dim :=
    fun _ => rfl
  unfold core setLive modifySlot
  simp only
  rw [dimSlots_modify hdim, Option.map_id]
  simp

theorem core_allocValue (g : Graph) (id : ValueId) (x : Vertex)
    (flags : Flags) :
    (g.allocValue id x flags).1.core =
      (g.core.allocValue id x { flags with live := false }).1 := by
  simp [core, allocValue, Slot.dim]

theorem core_pushFrame (g : Graph) (value : Handle) :
    (g.pushFrame value).core = (g.core.pushFrame value).core := by
  cases g with
  | mk slots freeSlots =>
      cases freeSlots with
      | nil => simp [core, pushFrame, allocFrame]
      | cons v free => simp [core, pushFrame, allocFrame]

theorem core_popFrame (g : Graph) (f : Frame) :
    (g.popFrame f).core = (g.core.popFrame f).core := by
  simp [core, popFrame]

theorem core_surface (g : Graph) (v : Handle) :
    (g.surface v).core = g.core := by
  apply revealPending_keeps (p := fun g' => g'.core = g.core)
  · exact fun g' w _ hsame => (core_setLive g' w true).trans hsame
  · exact core_setLive g v true

theorem congruence_core : Congruence fun g g' => g'.core = g.core where
  alike h := alike_of_core h
  setVertex {g g'} h v x := by
    have hdim : ∀ s : Slot,
        Slot.dim { s with vertex := x } = { s.dim with vertex := x } :=
      fun _ => rfl
    have hset : ∀ g : Graph, (g.setVertex v x).core = g.core.setVertex v x :=
      fun g => core_modifySlot hdim g v
    rw [hset, hset, h]
  setOutcomes {g g'} h v outcomes := by
    have hset : ∀ g : Graph,
        (g.setOutcomes v outcomes).core = g.core.setOutcomes v outcomes := by
      intro g
      apply core_modifySlot
      intro s
      cases s with
      | mk x flags => cases x <;> rfl
    rw [hset, hset, h]
  allocValue h id x flags := by
    rw [core_allocValue, core_allocValue, h]
  rewire {g g'} h index edges := by
    have hrewire : ∀ g : Graph, core { g with index, edges } =
        { g.core with index, edges } := fun _ => rfl
    rw [hrewire, hrewire, h]
  surface h v := by rw [core_surface, core_surface, h]
  pushFrame h value := by rw [core_pushFrame, h, ← core_pushFrame]
  popFrame h f := by rw [core_popFrame, h, ← core_popFrame]
  markChanged h := h

theorem core_observe (h : g'.core = g.core) (e : Event) :
    SameAnswer (fun g g' : Graph => g'.core = g.core) (g.observe e)
      (g'.observe e) := by
  by_cases he : e = .callBoundary
  · rw [he]
    exact ⟨h, rfl⟩
  · exact congruence_core.observe h he

theorem core_release (g : Graph) (vs : List Handle) :
    (g.release vs).core = g.core := by
  apply List.foldlRecOn (motive := fun g' : Graph => g'.core = g.core)
  · rfl
  · exact fun g' hsame v _ => (core_setLive g' v false).trans hsame

theorem WellFormed.core_collect (hg : g.WellFormed) :
    g.collect.1.core = g.core := by
  rw [(collect_released hg.idle).1]
  exact core_release g g.collect.2

/-! ## Graphs of one core -/

/-- The second graph differs from the first one in the liveness of values, in
the flags, in the counters of its collector and in the shades that the last
cycle left there, at most. -/
structure DiffersInLiveness (g g' : Graph) : Prop where
  rest : g' =
    { g with
      slots := g'.slots
      changed := g'.changed
      mutated := g'.mutated
      collectionDue := g'.collectionDue
      collector :=
        { g.collector with
          marks :=
            { g.collector.marks with
              shades := g'.collector.marks.shades
              highWater := g'.collector.marks.highWater }
          lastStats := g'.collector.lastStats
          cycles := g'.collector.cycles } }
  /-- The next cycle drops the shades before it looks at any. -/
  shades_dropped : ∀ b : Bench,
    Bench.start
        { b with
          collector :=
            { g'.collector with
              lastStats := g.collector.lastStats
              cycles := g.collector.cycles } } =
      Bench.start { b with collector := g.collector }
  length : g'.slots.length = g.slots.length
  vertex? : ∀ v, g'.vertex? v = g.vertex? v
  isBuiltin : ∀ v, g'.isBuiltin v = g.isBuiltin v
  structural : ∀ v x, g.vertex? v = some x → x.isValue = false →
    g'.isLive v = g.isLive v
  frames : g'.frames = g.frames

theorem WellFormed.isLive_of_structural (hg : g.WellFormed) {x : Vertex}
    (hx : g.vertex? v = some x) (hvalue : x.isValue = false) :
    g.isLive v = true := by
  obtain ⟨s, hs, rfl⟩ := vertex?_eq_some_iff.mp hx
  rw [isLive_of_slot? hs, hg.structural_flags v s hs hvalue]

theorem eq_of_core (h : g'.core = g.core) :
    g' =
      { g with
        slots := g'.slots
        changed := g'.changed
        mutated := g'.mutated
        collectionDue := g'.collectionDue
        collector := g'.collector } := by
  have hall := congrArg (fun c : Graph =>
    { c with
      slots := g'.slots
      changed := g'.changed
      mutated := g'.mutated
      collectionDue := g'.collectionDue
      collector := g'.collector }) h
  exact hall

theorem differsInLiveness_of_core (h : g'.core = g.core) (hg : g.WellFormed)
    (hg' : g'.WellFormed) (hrest : g.collector.AtRest)
    (hrest' : g'.collector.AtRest) : g.DiffersInLiveness g' := by
  have hsame := alike_of_core h
  have hcollector : g'.collector =
      { g.collector with
        marks :=
          { g.collector.marks with
            shades := g'.collector.marks.shades
            highWater := g'.collector.marks.highWater }
        lastStats := g'.collector.lastStats
        cycles := g'.collector.cycles } := by
    rw [hrest]
    exact hrest'
  constructor
  · rw [← hcollector]
    exact eq_of_core h
  · exact hrest.start_eq hrest'
  · exact hsame.length
  · exact hsame.vertex?
  · exact hsame.isBuiltin
  · intro v x hx hvalue
    rw [hg.isLive_of_structural hx hvalue]
    exact hg'.isLive_of_structural ((hsame.vertex? v).trans hx) hvalue
  · unfold frames
    rw [hsame.length, hsame.stackTop]
    exact framesFrom_congr hsame.vertex? _ _

end Graph

end LiveHeap
