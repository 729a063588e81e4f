import LiveHeap.Proofs.Graph.Walk

/-!
# What a collection releases

The answer of a collection is the list of the places of the arena, cut down to
the live values that the walk does not reach.  It is therefore ascending, and
the order in which the label index lists its entries has no part in it.
-/

namespace LiveHeap.Graph

variable {g g' : Graph}

/-! ## The answer -/

theorem isCollectable_iff {v : Handle} :
    g.isCollectable v = true ↔ g.HoldsValue v ∧ g.isLive v = true := by
  unfold isCollectable HoldsValue isLive
  cases hs : g.slot? v with
  | none => simp [vertex?, hs]
  | some s => simp [vertex?, hs, and_comm]

open scoped Classical in
theorem WellFormed.collect_eq_filter (hg : g.WellFormed) :
    g.collect.2 =
      g.handles.filter fun v => g.isCollectable v ∧ ¬ g.Walked v := by
  obtain ⟨_, hmarks, hremoved, _⟩ :=
    Bench.collect_of_idle ⟨g.collector, g.scene, [], []⟩ hg.idle
  have hwhites : g.collect.2 =
      Marks.whites _ (g.handles.filter g.isCollectable) := hremoved
  rw [hwhites, Marks.whites, List.filter_filter]
  refine List.filter_congr fun v _ => ?_
  cases hv : g.isCollectable v with
  | false => simp
  | true =>
      -- A value is not pinned, so that only the walk may have marked it.
      have hpin := hg.not_pinned (Or.inr (holdsValue_of_isCollectable hv))
      have hmark := (hmarks v).trans (or_iff_left hpin)
      rw [hg.traced_iff_walked] at hmark
      rw [Bool.eq_iff_iff]
      simp [← hmark, Collector.isMarked]

theorem WellFormed.mem_collect (hg : g.WellFormed) {v : Handle} :
    v ∈ g.collect.2 ↔
      g.HoldsValue v ∧ g.isLive v = true ∧ ¬ g.Walked v := by
  classical
  rw [hg.collect_eq_filter, List.mem_filter, decide_eq_true_eq,
    isCollectable_iff, and_assoc]
  constructor
  · exact And.right
  · intro hv
    have ⟨x, hx, _⟩ := hv.1
    exact ⟨mem_handles.mpr (lt_of_vertex? hx), hv⟩

theorem handles_ascending (g : Graph) : g.handles.Pairwise (· < ·) :=
  Handle.Ascending.pairwise

theorem WellFormed.collect_ascending (hg : g.WellFormed) :
    g.collect.2.Pairwise (· < ·) := by
  classical
  rw [hg.collect_eq_filter]
  exact g.handles_ascending.filter _

/-! ## The graph behind it -/

theorem slot?_setLive (g : Graph) (v w : Handle) (live : Bool) :
    (g.setLive v live).slot? w =
      if w = v then (g.slot? w).map fun s =>
        { s with flags := { s.flags with live } }
      else g.slot? w :=
  slot?_modifySlot g v w _

theorem vertex?_setLive (g : Graph) (v w : Handle) (live : Bool) :
    (g.setLive v live).vertex? w = g.vertex? w := by
  unfold vertex?
  rw [slot?_setLive]
  split
  · rw [Option.map_map]
    rfl
  · rfl

theorem isLive_setLive (g : Graph) (v w : Handle) (live : Bool) :
    (g.setLive v live).isLive w =
      if w = v then live && (g.slot? v).isSome else g.isLive w := by
  unfold isLive
  rw [slot?_setLive]
  by_cases hw : w = v
  · rw [if_pos hw, if_pos hw, hw]
    cases g.slot? v <;> simp
  · rw [if_neg hw, if_neg hw]

theorem isLive_hide (g : Graph) (v w : Handle) :
    (g.setLive v false).isLive w = true ↔ g.isLive w = true ∧ w ≠ v := by
  rw [isLive_setLive]
  by_cases hw : w = v <;> simp [hw]

theorem vertex?_release (g : Graph) (vs : List Handle) (w : Handle) :
    (g.release vs).vertex? w = g.vertex? w := by
  apply List.foldlRecOn
    (motive := fun g' : Graph => g'.vertex? w = g.vertex? w)
  · rfl
  · exact fun g' hsame v _ => (vertex?_setLive g' v w false).trans hsame

theorem isLive_release (g : Graph) (vs : List Handle) (w : Handle) :
    (g.release vs).isLive w = true ↔ g.isLive w = true ∧ w ∉ vs := by
  unfold release
  induction vs generalizing g with
  | nil => simp
  | cons v vs ih =>
      rw [List.foldl_cons, ih, isLive_hide, List.mem_cons, not_or, and_assoc]

theorem release_index (g : Graph) (vs : List Handle)
    (index : Table (Handle × Label) Handle) :
    Graph.release { g with index } vs = { g.release vs with index } := by
  unfold release
  induction vs generalizing g with
  | nil => rfl
  | cons v vs ih => exact ih (g.setLive v false)

theorem WellFormed.vertex?_collect (hg : g.WellFormed) (v : Handle) :
    g.collect.1.vertex? v = g.vertex? v := by
  rw [(collect_released hg.idle).1]
  exact vertex?_release g _ v

theorem WellFormed.isLive_collect (hg : g.WellFormed) (v : Handle) :
    g.collect.1.isLive v = true ↔ g.isLive v = true ∧ v ∉ g.collect.2 := by
  rw [(collect_released hg.idle).1]
  exact isLive_release g _ v

theorem WellFormed.isLive_collect_iff (hg : g.WellFormed) {v : Handle}
    (hv : g.HoldsValue v) :
    g.collect.1.isLive v = true ↔ g.isLive v = true ∧ g.Walked v := by
  rw [hg.isLive_collect, hg.mem_collect]
  constructor
  · rintro ⟨hlive, hkept⟩
    refine ⟨hlive, ?_⟩
    by_contra hwalked
    exact hkept ⟨hv, hlive, hwalked⟩
  · rintro ⟨hlive, hwalked⟩
    exact ⟨hlive, fun hremoved => hremoved.2.2 hwalked⟩

/-! ## The order of the index -/

theorem Leaf.of_outcomes? (hout : ∀ v, g'.outcomes? v = g.outcomes? v)
    {v leaf : Handle} (hleaf : g.Leaf v leaf) : g'.Leaf v leaf := by
  induction hleaf with
  | here hnone => exact .here ((hout _).trans hnone)
  | through hsome hw _ ih => exact .through ((hout _).trans hsome) hw ih

theorem Leaf.of_vertex? (hvertex : ∀ v, g'.vertex? v = g.vertex? v)
    {v leaf : Handle} (hleaf : g.Leaf v leaf) : g'.Leaf v leaf := by
  apply hleaf.of_outcomes?
  intro v
  unfold Graph.outcomes?
  rw [hvertex]

/-- The walk depends on the roots, the vertices and the lookups in the
index. -/
theorem Walked.of_views (hout : ∀ s l, g'.outgoing? s l = g.outgoing? s l)
    (hvertex : ∀ v, g'.vertex? v = g.vertex? v)
    (hframes : g'.frames = g.frames) (hglobal : g'.global = g.global)
    {v : Handle} (hv : g.Walked v) : g'.Walked v := by
  induction hv with
  | root => exact .root
  | global h => exact .global (hglobal.trans h)
  | frame hmem => exact .frame (hframes ▸ hmem)
  | outcome _ hsome hw hleaf ih =>
      refine .outcome ih ?_ hw (hleaf.of_vertex? hvertex)
      unfold Graph.outcomes?
      rw [hvertex]
      exact hsome
  | child _ hx henum hw hleaf ih =>
      exact .child ih ((hvertex _).trans hx) henum ((hout _ _).trans hw)
        (hleaf.of_vertex? hvertex)

section Reindex

variable {index : Table (Handle × Label) Handle}

theorem outgoing?_reindex (hperm : index.entries.Perm g.index.entries)
    (s : Handle) (l : Label) :
    outgoing? { g with index } s l = g.outgoing? s l := by
  refine Option.ext fun t => ?_
  unfold outgoing?
  rw [Table.get?_eq_some_iff, Table.get?_eq_some_iff]
  exact hperm.mem_iff

theorem WellFormed.reindex (hg : g.WellFormed)
    (hperm : index.entries.Perm g.index.entries) :
    WellFormed { g with index } := by
  have hgrow : g.Grows { g with index } := .of_slots rfl rfl rfl
  refine hg.rewire ⟨hg.edges_nodup, fun e => ?_, fun s l t ht => ?_⟩
  · rw [outgoing?_reindex hperm, hgrow.framing_iff hg.toStackSound]
    exact hg.mem_edges_iff e
  · rw [outgoing?_reindex hperm] at ht
    obtain ⟨hl, hs, ht⟩ := hg.index_ends s l t ht
    exact ⟨hl, hgrow.isEnd hs, hgrow.isEnd ht⟩

theorem WellFormed.walked_reindex (hg : g.WellFormed)
    (hperm : index.entries.Perm g.index.entries) (v : Handle) :
    Walked { g with index } v ↔ g.Walked v := by
  have hgrow : g.Grows { g with index } := .of_slots rfl rfl rfl
  have hframes := hgrow.frames_eq hg.toStackSound
  have hout := outgoing?_reindex hperm
  constructor
  · have hsame : ∀ s l, g.outgoing? s l = outgoing? { g with index } s l :=
      fun s l => (hout s l).symm
    exact .of_views hsame (fun _ => rfl) hframes.symm rfl
  · exact .of_views hout (fun _ => rfl) hframes rfl

theorem WellFormed.collect_reindex (hg : g.WellFormed)
    (hperm : index.entries.Perm g.index.entries) :
    (collect { g with index }).2 = g.collect.2 := by
  classical
  rw [hg.collect_eq_filter, (hg.reindex hperm).collect_eq_filter]
  refine List.filter_congr fun v _ => ?_
  rw [hg.walked_reindex hperm]
  rfl

theorem WellFormed.collect_reindex_graph (hg : g.WellFormed)
    (hperm : index.entries.Perm g.index.entries) :
    (collect { g with index }).1 =
      { g.collect.1 with
        index, collector := (collect { g with index }).1.collector } := by
  rw [(collect_released (hg.reindex hperm).idle).1,
    (collect_released hg.idle).1, hg.collect_reindex hperm, release_index]

end Reindex

/-- In every graph that operations make, a collection answers the live values
that the walk does not reach, in ascending order and each of them once.  It
leaves every vertex in its place, and of the values only the walked ones stay
live.  Another order of the entries of the index gives the same answer and the
same graph, up to the statistics of the collector. -/
theorem collect_exact (ops : List Operation) :
    let g := new.run ops
    (∀ v, v ∈ g.collect.2 ↔
      g.HoldsValue v ∧ g.isLive v = true ∧ ¬ g.Walked v) ∧
    g.collect.2.Pairwise (· < ·) ∧
    (∀ v, g.collect.1.vertex? v = g.vertex? v) ∧
    (∀ v, g.HoldsValue v →
      (g.collect.1.isLive v = true ↔ g.isLive v = true ∧ g.Walked v)) ∧
    ∀ index : Table (Handle × Label) Handle,
      index.entries.Perm g.index.entries →
      (collect { g with index }).2 = g.collect.2 ∧
        (collect { g with index }).1 =
          { g.collect.1 with
            index, collector := (collect { g with index }).1.collector } := by
  intro g
  have hg : g.WellFormed := wellFormed_run_new ops
  refine ⟨?_, hg.collect_ascending, hg.vertex?_collect, ?_, ?_⟩
  · exact fun v => hg.mem_collect
  · exact fun v hv => hg.isLive_collect_iff hv
  · intro index hperm
    exact ⟨hg.collect_reindex hperm, hg.collect_reindex_graph hperm⟩

end LiveHeap.Graph
