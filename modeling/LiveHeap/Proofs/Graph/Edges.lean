import LiveHeap.Proofs.Graph.Run

/-!
# The edge set beside the label index

The edges of a graph are the indexed edges and the two structural edges of
each frame, each of them once.  So the label of an edge and its source fix its
target, and the number of edges follows from the index and the stack.
-/

namespace LiveHeap.Graph

variable {g : Graph}

/-- The edges that the label index stands for. -/
def indexedEdges (g : Graph) : List Edge :=
  g.index.entries.map fun entry => ⟨entry.1.1, entry.2, entry.1.2⟩

/-- The structural edges of the frames on the stack. -/
def framingEdges (g : Graph) : List Edge :=
  g.frames.flatMap fun (v, f) => [f.parentEdge v, f.valueEdge v]

theorem mem_indexedEdges {e : Edge} :
    e ∈ g.indexedEdges ↔ g.outgoing? e.source e.label = some e.target := by
  unfold indexedEdges outgoing?
  rw [Table.get?_eq_some_iff, List.mem_map]
  constructor
  · rintro ⟨entry, hmem, rfl⟩
    exact hmem
  · exact fun hmem => ⟨_, hmem, rfl⟩

theorem mem_framingEdges {e : Edge} : e ∈ g.framingEdges ↔ g.Framing e := by
  unfold framingEdges Framing
  simp [List.mem_flatMap]

theorem nodup_indexedEdges (g : Graph) : g.indexedEdges.Nodup := by
  have hentries : g.index.entries.Nodup := g.index.nodup.of_map
  refine hentries.map fun entry entry' heq => ?_
  obtain ⟨⟨s, l⟩, t⟩ := entry
  obtain ⟨⟨s', l'⟩, t'⟩ := entry'
  simp_all

theorem StackSound.nodup_framingEdges (hs : g.StackSound) :
    g.framingEdges.Nodup := by
  unfold framingEdges
  rw [List.nodup_flatMap]
  constructor
  · rintro ⟨v, f⟩ _
    simp [Frame.parentEdge, Frame.valueEdge]
  · have hnodup := hs.chain.nodup
    rw [List.nodup_iff_pairwise_ne, List.pairwise_map] at hnodup
    refine hnodup.imp fun {e e'} hne => ?_
    -- Frames at different places share no edge, since edges know their source.
    intro edge hedge hedge'
    apply hne
    have hsource : edge.source = e.1 := by
      simp only [List.mem_cons, List.not_mem_nil, or_false] at hedge
      rcases hedge with rfl | rfl <;> rfl
    have hsource' : edge.source = e'.1 := by
      simp only [List.mem_cons, List.not_mem_nil, or_false] at hedge'
      rcases hedge' with rfl | rfl <;> rfl
    exact hsource.symm.trans hsource'

theorem WellFormed.edges_perm (hg : g.WellFormed) :
    g.edges.Perm (g.indexedEdges ++ g.framingEdges) := by
  have hnodup : (g.indexedEdges ++ g.framingEdges).Nodup := by
    refine List.nodup_append'.mpr
      ⟨g.nodup_indexedEdges, hg.nodup_framingEdges, ?_⟩
    intro e hindexed hframing
    have hlabel := (hg.index_ends _ _ _ (mem_indexedEdges.mp hindexed)).1
    rw [(mem_framingEdges.mp hframing).isStructural] at hlabel
    contradiction
  refine (List.perm_ext_iff_of_nodup hg.edges_nodup hnodup).mpr fun e => ?_
  rw [List.mem_append, mem_indexedEdges, mem_framingEdges]
  exact hg.mem_edges_iff e

theorem WellFormed.edgeCount_eq (hg : g.WellFormed) :
    g.edgeCount = g.index.size + 2 * g.stackDepth := by
  have hframing : g.framingEdges.length = 2 * g.frames.length := by
    unfold framingEdges
    induction g.frames with
    | nil => rfl
    | cons e frames ih =>
        simp only [List.flatMap_cons, List.length_append, List.length_cons, ih,
          List.length_nil]
        omega
  unfold edgeCount Table.size
  rw [hg.edges_perm.length_eq, List.length_append, hframing, hg.depth,
    indexedEdges, List.length_map]

/-- The source and the label of an edge fix the edge. -/
theorem WellFormed.edge_eq (hg : g.WellFormed) {e e' : Edge}
    (he : e ∈ g.edges) (he' : e' ∈ g.edges) (hsource : e.source = e'.source)
    (hlabel : e.label = e'.label) : e = e' := by
  have hstructural : ∀ {a b : Edge}, a.label = b.label →
      g.outgoing? a.source a.label = some a.target → ¬ g.Framing b := by
    intro a b hab ha hb
    have hl := (hg.index_ends _ _ _ ha).1
    rw [hab, hb.isStructural] at hl
    contradiction
  rcases (hg.mem_edges_iff e).mp he with hindexed | hframing
  · rcases (hg.mem_edges_iff e').mp he' with hindexed' | hframing'
    · rw [hsource, hlabel, hindexed'] at hindexed
      cases e
      cases e'
      simp_all
    · exact absurd hframing' (hstructural hlabel hindexed)
  · rcases (hg.mem_edges_iff e').mp he' with hindexed' | hframing'
    · exact absurd hframing (hstructural hlabel.symm hindexed')
    · obtain ⟨v, f, hmem, heq⟩ := hframing
      obtain ⟨v', f', hmem', heq'⟩ := hframing'
      have hv : v = v' := by
        rcases heq with rfl | rfl <;> rcases heq' with rfl | rfl <;>
          exact hsource
      subst hv
      have hf : f = f' := by
        have hvertex := (hg.mem_frames_iff v f).mp hmem
        rw [(hg.mem_frames_iff v f').mp hmem'] at hvertex
        simpa [eq_comm] using hvertex
      subst hf
      rcases heq with rfl | rfl <;> rcases heq' with rfl | rfl <;>
        first | rfl | simp [Frame.parentEdge, Frame.valueEdge] at hlabel

/-- An end of an indexed edge is none of the places that belong to the stack,
and not an empty place. -/
theorem WellFormed.isEnd_unstructural (hg : g.WellFormed) {v : Handle}
    (hv : g.IsEnd v) :
    v ≠ stack ∧ v ∉ g.frames.map Prod.fst ∧ v ∉ g.freeSlots := by
  obtain ⟨x, hx, hkind⟩ : ∃ x, g.vertex? v = some x ∧
      (x = .root ∨ x.isValue = true) := by
    rcases hv with rfl | ⟨x, hx, hvalue⟩
    · exact ⟨.root, (hg.root_iff root).mpr rfl, Or.inl rfl⟩
    · exact ⟨x, hx, Or.inr hvalue⟩
  refine ⟨?_, ?_, ?_⟩
  · intro hstack
    rw [(hg.stack_iff v).mpr hstack] at hx
    obtain rfl := Option.some.inj hx
    simp [Vertex.isValue] at hkind
  · intro hframe
    obtain ⟨⟨w, f⟩, hmem, rfl⟩ := List.mem_map.mp hframe
    rw [(hg.mem_frames_iff w f).mp hmem] at hx
    obtain rfl := Option.some.inj hx
    simp [Vertex.isValue] at hkind
  · intro hfree
    rw [vertex?, hg.slot?_of_mem_free hfree] at hx
    simp at hx

theorem label_of_not_isStructural {l : Label} (hl : l.isStructural = false) :
    (∃ name, l = .property name) ∨ ∃ position, l = .maybe position := by
  cases l with
  | property name => exact Or.inl ⟨name, rfl⟩
  | maybe position => exact Or.inr ⟨position, rfl⟩
  | stackParent => contradiction
  | stackValue => contradiction

/-- In every graph that operations make, the edge set holds the indexed edges
and the structural edges of the frames on the stack, and nothing else.  The
index has property and maybe labels only, between the root and values. -/
theorem edges_agree_with_index (ops : List Operation) :
    let g := new.run ops
    (∀ e, e ∈ g.edges ↔
      g.outgoing? e.source e.label = some e.target ∨
        ∃ v f, (v, f) ∈ g.frames ∧
          (e = f.parentEdge v ∨ e = f.valueEdge v)) ∧
    (∀ s l t, g.outgoing? s l = some t →
      ((∃ name, l = .property name) ∨ ∃ position, l = .maybe position) ∧
        ∀ v ∈ [s, t], g.IsEnd v ∧ v ≠ stack ∧
          v ∉ g.frames.map Prod.fst ∧ v ∉ g.freeSlots) ∧
    (∀ e ∈ g.edges, ∀ e' ∈ g.edges, e.source = e'.source →
      e.label = e'.label → e = e') ∧
    g.edges.Nodup ∧ g.edgeCount = g.index.size + 2 * g.stackDepth := by
  intro g
  have hg : g.WellFormed := wellFormed_run_new ops
  refine ⟨hg.mem_edges_iff, ?_, ?_, hg.edges_nodup, hg.edgeCount_eq⟩
  · intro s l t ht
    obtain ⟨hl, hs, ht⟩ := hg.index_ends s l t ht
    refine ⟨label_of_not_isStructural hl, fun v hv => ?_⟩
    have hend : g.IsEnd v := by
      rcases List.mem_pair.mp hv with rfl | rfl
      · exact hs
      · exact ht
    exact ⟨hend, hg.isEnd_unstructural hend⟩
  · intro e he e' he' hsource hlabel
    exact hg.edge_eq he he' hsource hlabel

end LiveHeap.Graph
