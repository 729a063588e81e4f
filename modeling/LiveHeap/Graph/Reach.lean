import LiveHeap.Graph.Arena

/-!
# Reachability and collection

A collection walks from the root, the root scope and the values on the stack
through named children.  A named child that is a union is replaced by the
outcomes at the end of its outcome lists; a union that is itself a root is
traced like any other vertex.  Frames and the stack sentinel are pinned.
-/

namespace LiveHeap.Graph

def outcomes? (g : Graph) (v : Handle) : Option (List Handle) :=
  (g.vertex? v).bind Vertex.outcomes?

/-- What expanding a vertex may add to the pending list, plus one. -/
def expansionWeight (g : Graph) (v : Handle) : Nat :=
  ((g.outcomes? v).getD []).length + 1

def totalWeight (weight : Handle → Nat) (vs : List Handle) : Nat :=
  vs.foldr (fun v n => weight v + n) 0

theorem totalWeight_cons (weight : Handle → Nat) (v : Handle)
    (vs : List Handle) :
    totalWeight weight (v :: vs) = weight v + totalWeight weight vs := rfl

theorem totalWeight_append (weight : Handle → Nat) (vs ws : List Handle) :
    totalWeight weight (vs ++ ws) =
      totalWeight weight vs + totalWeight weight ws := by
  induction vs with
  | nil => exact (Nat.zero_add _).symm
  | cons v vs ih =>
      rw [List.cons_append, totalWeight_cons, totalWeight_cons, ih,
        Nat.add_assoc]

/-- The weight of all places of the arena that were not expanded yet. -/
def unexpandedWeight (g : Graph) (expanded : List Handle) : Nat :=
  totalWeight g.expansionWeight (g.handles.filter fun v => v ∉ expanded)

theorem totalWeight_filter_cons_le (weight : Handle → Nat) (v : Handle)
    (expanded vs : List Handle) :
    totalWeight weight (vs.filter fun w => w ∉ v :: expanded) ≤
      totalWeight weight (vs.filter fun w => w ∉ expanded) := by
  induction vs with
  | nil => exact Nat.le_refl _
  | cons w vs ih =>
      by_cases hw : w ∈ expanded
      · simpa [hw] using ih
      · by_cases hv : w = v
        · subst hv
          simp only [List.filter_cons, hw, List.mem_cons, true_or,
            not_true_eq_false, decide_false, not_false_eq_true, decide_true,
            Bool.false_eq_true, if_true, if_false,
            totalWeight_cons] at ih ⊢
          omega
        · simp only [List.filter_cons, hw, hv, List.mem_cons, or_self,
            not_false_eq_true, decide_true, if_true,
            totalWeight_cons] at ih ⊢
          omega

theorem totalWeight_filter_cons_add_le (weight : Handle → Nat) {v : Handle}
    {expanded vs : List Handle} (hv : v ∈ vs) (he : v ∉ expanded) :
    totalWeight weight (vs.filter fun w => w ∉ v :: expanded) + weight v ≤
      totalWeight weight (vs.filter fun w => w ∉ expanded) := by
  obtain ⟨before, after, rfl⟩ := List.append_of_mem hv
  have hb := totalWeight_filter_cons_le weight v expanded before
  have ha := totalWeight_filter_cons_le weight v expanded after
  simp only [List.filter_append, List.filter_cons, List.mem_cons, true_or,
    not_true_eq_false, decide_false, Bool.false_eq_true, if_false, he,
    not_false_eq_true, decide_true, if_true, totalWeight_append,
    totalWeight_cons] at hb ha ⊢
  omega

theorem mem_handles_of_outcomes? {g : Graph} {v : Handle} {vs : List Handle}
    (h : g.outcomes? v = some vs) : v ∈ g.handles := by
  obtain ⟨i⟩ := v
  refine List.mem_map.2 ⟨i, List.mem_range.2 ?_, rfl⟩
  refine Nat.lt_of_not_le fun hi => ?_
  simp [outcomes?, vertex?, slot?, List.getElem?_eq_none hi] at h

/-- The vertices at the end of the outcome lists of the pending vertices,
leaving out the vertices that were met before. -/
def leavesOf (g : Graph) : List Handle → List Handle → List Handle
  | [], _ => []
  | v :: pending, expanded =>
      if _h : v ∈ expanded then leavesOf g pending expanded
      else
        match _ho : g.outcomes? v with
        | some outcomes => leavesOf g (outcomes ++ pending) (v :: expanded)
        | none => v :: leavesOf g pending (v :: expanded)
termination_by pending expanded =>
  g.unexpandedWeight expanded + pending.length
decreasing_by
  · simp
  · have hw := totalWeight_filter_cons_add_le g.expansionWeight
      (mem_handles_of_outcomes? _ho) _h
    have hv : g.expansionWeight v = outcomes.length + 1 := by
      simp [expansionWeight, _ho]
    simp only [unexpandedWeight, List.length_append, List.length_cons] at hw ⊢
    omega
  · have hw := totalWeight_filter_cons_le g.expansionWeight v expanded
      g.handles
    simp only [unexpandedWeight, List.length_cons] at hw ⊢
    omega

/-- What stands for a named child: the child itself, or the outcomes that a
union may resolve to. -/
def leaves (g : Graph) (child : Handle) : List Handle := g.leavesOf [child] []

def walkFrom (g : Graph) (v : Handle) : List Handle :=
  match g.vertex? v with
  | none => []
  | some vertex =>
      (vertex.outcomes?.getD []).flatMap g.leaves ++
        if vertex.isEnumerable then (g.namedChildren v).flatMap g.leaves
        else []

/-- The root, the root scope, and the stack from the top down. -/
def rootCalls (g : Graph) : List RootCall :=
  .visit root :: (g.global.toList.map RootCall.visit ++
    .pin stack :: g.frames.flatMap fun (v, f) => [.pin v, .visit f.value])

/-- Whether a collection may take the vertex out of the live set. -/
def isCollectable (g : Graph) (v : Handle) : Bool :=
  match g.slot? v with
  | some s => s.flags.live && s.vertex.isValue
  | none => false

def walkTable (g : Graph) : Table Handle (List Handle) where
  entries := g.handles.map fun v => (v, g.walkFrom v)
  nodup := by
    have hnodup : g.handles.Nodup := Handle.Ascending.nodup inferInstance
    simpa [List.map_map, Function.comp_def] using hnodup

def scene (g : Graph) : Scene where
  roots := g.rootCalls
  children := g.walkTable
  live := g.handles.filter g.isCollectable

/-- Takes every value that the walk does not reach out of the live set, and
answers those values.  Edges stay, also at the ends of such values. -/
def collect (g : Graph) : Graph × List Handle :=
  let (b, removed) := Bench.collect ⟨g.collector, g.scene, [], []⟩
  let g := b.released.foldl (fun g v => g.setLive v false) g
  ({ g with
      collector := b.collector
      collectionDue := false
      mutated := false
      changed := g.changed || !removed.isEmpty },
    removed)

end LiveHeap.Graph
