import LiveHeap.Proofs.Graph.Slots

/-!
# Well-formed graphs

The invariant of the object graph in four parts: the arena with its free list
and the table of values, the chain of frames, the edge set beside the label
index, and the places that other vertices refer to.

A change that leaves the stack alone and loses no value makes the graph grow
(`Grows`).  Growth alone keeps the chain of frames, and with it most of the
invariant; installing and retiring an edge keep the edge set beside the index.
-/

namespace LiveHeap.Graph

/-- What a property or maybe edge may start from or point at. -/
def IsEnd (g : Graph) (v : Handle) : Prop := v = root ∨ g.HoldsValue v

/-- The edge is one of the two structural edges of a frame on the stack. -/
def Framing (g : Graph) (e : Edge) : Prop :=
  ∃ v f, (v, f) ∈ g.frames ∧ (e = f.parentEdge v ∨ e = f.valueEdge v)

structure ArenaSound (g : Graph) : Prop where
  root_iff : ∀ v, g.vertex? v = some .root ↔ v = root
  stack_iff : ∀ v, g.vertex? v = some .stack ↔ v = stack
  free_nodup : g.freeSlots.Nodup
  mem_free_iff : ∀ v, v ∈ g.freeSlots ↔ v ∈ g.handles ∧ g.slot? v = none
  structural_flags : ∀ v s, g.slot? v = some s → s.vertex.isValue = false →
    s.flags = ⟨true, false⟩
  vertexFor?_iff : ∀ id v, g.vertexFor? id = some v ↔ g.valueAt? v = some id

structure StackSound (g : Graph) : Prop where
  chain : g.Chain g.stackTop g.frames
  mem_frames_iff : ∀ v f, (v, f) ∈ g.frames ↔ g.vertex? v = some (.frame f)
  depth : g.stackDepth = g.frames.length

structure EdgesSound (g : Graph) : Prop where
  edges_nodup : g.edges.Nodup
  mem_edges_iff : ∀ e, e ∈ g.edges ↔
    g.outgoing? e.source e.label = some e.target ∨ g.Framing e
  index_ends : ∀ s l t, g.outgoing? s l = some t →
    l.isStructural = false ∧ g.IsEnd s ∧ g.IsEnd t

structure ReferencesSound (g : Graph) : Prop where
  frame_value : ∀ v f, (v, f) ∈ g.frames → g.HoldsValue f.value
  outcome_value : ∀ v outcomes, g.outcomes? v = some outcomes →
    ∀ w ∈ outcomes, g.HoldsValue w
  global_value : ∀ v, g.global = some v → g.HoldsValue v

structure WellFormed (g : Graph) : Prop extends
    ArenaSound g, StackSound g, EdgesSound g, ReferencesSound g where
  idle : g.collector.phase = .idle

theorem WellFormed.vertex?_of_isEnd {g : Graph} (hg : g.WellFormed)
    {v : Handle} (hv : g.IsEnd v) : ∃ x, g.vertex? v = some x := by
  rcases hv with rfl | ⟨x, hx, _⟩
  · exact ⟨.root, (hg.root_iff root).mpr rfl⟩
  · exact ⟨x, hx⟩

/-- The second graph has the stack of the first and all its values, and
perhaps more values. -/
structure Grows (g g' : Graph) : Prop where
  stackTop : g'.stackTop = g.stackTop
  stackDepth : g'.stackDepth = g.stackDepth
  structural : ∀ v x, x.isValue = false →
    (g'.vertex? v = some x ↔ g.vertex? v = some x)
  valueAt : ∀ v id, g.valueAt? v = some id → g'.valueAt? v = some id

namespace Grows

variable {g g' g'' : Graph}

theorem refl (g : Graph) : g.Grows g :=
  ⟨rfl, rfl, fun _ _ _ => Iff.rfl, fun _ _ hv => hv⟩

theorem trans (h : g.Grows g') (h' : g'.Grows g'') : g.Grows g'' where
  stackTop := h'.stackTop.trans h.stackTop
  stackDepth := h'.stackDepth.trans h.stackDepth
  structural v x hx := (h'.structural v x hx).trans (h.structural v x hx)
  valueAt v id hv := h'.valueAt v id (h.valueAt v id hv)

theorem holdsValue (h : g.Grows g') {v : Handle} (hv : g.HoldsValue v) :
    g'.HoldsValue v := by
  obtain ⟨id, hid⟩ := holdsValue_iff.mp hv
  exact holdsValue_of_valueAt? (h.valueAt v id hid)

theorem isEnd (h : g.Grows g') {v : Handle} (hv : g.IsEnd v) : g'.IsEnd v :=
  hv.imp id h.holdsValue

theorem of_slots (hslots : g'.slots = g.slots)
    (htop : g'.stackTop = g.stackTop)
    (hdepth : g'.stackDepth = g.stackDepth) : g.Grows g' := by
  have hvertex : ∀ v, g'.vertex? v = g.vertex? v := by
    intro v
    simp [vertex?, slot?, hslots]
  constructor
  · exact htop
  · exact hdepth
  · intro v x _
    rw [hvertex]
  · intro v id hv
    rwa [valueAt?, hvertex]

theorem chain (h : g.Grows g') (hg : g.StackSound) :
    g'.Chain g'.stackTop g.frames := by
  rw [h.stackTop]
  refine hg.chain.transfer ?_ ?_
  · exact (h.structural stack .stack rfl).mpr
  · intro v f hmem
    exact (h.structural v (.frame f) rfl).mpr ((hg.mem_frames_iff v f).mp hmem)

theorem frames_eq (h : g.Grows g') (hg : g.StackSound) :
    g'.frames = g.frames := (h.chain hg).frames_eq

theorem framing_iff (h : g.Grows g') (hg : g.StackSound) (e : Edge) :
    g'.Framing e ↔ g.Framing e := by
  unfold Framing
  rw [h.frames_eq hg]

theorem stackSound (h : g.Grows g') (hg : g.StackSound) : g'.StackSound := by
  have hframes := h.frames_eq hg
  constructor
  · rw [hframes]
    exact h.chain hg
  · intro v f
    rw [hframes, h.structural v (.frame f) rfl]
    exact hg.mem_frames_iff v f
  · rw [hframes, h.stackDepth]
    exact hg.depth

/-- Without changes to the edges and the index, only growth matters. -/
theorem edgesSound (h : g.Grows g') (hg : g.StackSound) (he : g.EdgesSound)
    (hedges : g'.edges = g.edges) (hindex : g'.index = g.index) :
    g'.EdgesSound := by
  have hout : ∀ s l, g'.outgoing? s l = g.outgoing? s l := by
    intro s l
    rw [outgoing?, outgoing?, hindex]
  constructor
  · rw [hedges]
    exact he.edges_nodup
  · intro e
    rw [hedges, hout, h.framing_iff hg]
    exact he.mem_edges_iff e
  · intro s l t ht
    rw [hout] at ht
    obtain ⟨hl, hs, ht⟩ := he.index_ends s l t ht
    exact ⟨hl, h.isEnd hs, h.isEnd ht⟩

/-- Growth keeps the frames, so only outcomes and the root scope can go
wrong. -/
theorem referencesSound (h : g.Grows g') (hs : g.StackSound)
    (hr : g.ReferencesSound)
    (hout : ∀ v outcomes, g'.outcomes? v = some outcomes →
      ∀ w ∈ outcomes, g.HoldsValue w)
    (hglobal : ∀ v, g'.global = some v → g.HoldsValue v) :
    g'.ReferencesSound := by
  constructor
  · intro v f hmem
    rw [h.frames_eq hs] at hmem
    exact h.holdsValue (hr.frame_value v f hmem)
  · exact fun v outcomes hv w hw => h.holdsValue (hout v outcomes hv w hw)
  · exact fun v hv => h.holdsValue (hglobal v hv)

end Grows

theorem ArenaSound.of_slots {g g' : Graph} (hg : g.ArenaSound)
    (hslots : g'.slots = g.slots) (hfree : g'.freeSlots = g.freeSlots)
    (hvalues : g'.values = g.values) : g'.ArenaSound := by
  have hslot : ∀ v, g'.slot? v = g.slot? v := by
    intro v
    rw [slot?, slot?, hslots]
  have hvertex : ∀ v, g'.vertex? v = g.vertex? v := by
    intro v
    rw [vertex?, vertex?, hslot]
  constructor
  · intro v
    rw [hvertex]
    exact hg.root_iff v
  · intro v
    rw [hvertex]
    exact hg.stack_iff v
  · rw [hfree]
    exact hg.free_nodup
  · intro v
    rw [hfree, hslot, mem_handles, hslots, ← mem_handles]
    exact hg.mem_free_iff v
  · intro v s hs
    rw [hslot] at hs
    exact hg.structural_flags v s hs
  · intro id v
    rw [vertexFor?, hvalues, valueAt?, hvertex]
    exact hg.vertexFor?_iff id v

theorem ReferencesSound.of_slots {g g' : Graph} (hg : g.ReferencesSound)
    (hstack : g.StackSound) (hgrow : g.Grows g') (hslots : g'.slots = g.slots)
    (hglobal : ∀ v, g'.global = some v → g.HoldsValue v) :
    g'.ReferencesSound := by
  refine hgrow.referencesSound hstack hg ?_ hglobal
  intro v outcomes hv
  refine hg.outcome_value v outcomes ?_
  simpa [outcomes?, vertex?, slot?, hslots] using hv

/-! ## Property and maybe edges -/

/-- Retiring an edge touches the edge set and the label index only. -/
theorem retire_eq (g : Graph) (s : Handle) (l : Label) :
    g.retire s l =
      { g with
        index := (g.retire s l).index, edges := (g.retire s l).edges } := by
  unfold retire
  split <;> rfl

/-- Installing an edge touches the edge set and the label index only. -/
theorem install_eq (g : Graph) (e : Edge) :
    g.install e =
      { g with
        index := (g.install e).index, edges := (g.install e).edges } := by
  unfold install
  rw [retire_eq]

theorem outgoing?_retire (g : Graph) (s : Handle) (l : Label) (s' : Handle)
    (l' : Label) :
    (g.retire s l).outgoing? s' l' =
      if (s', l') = (s, l) then none else g.outgoing? s' l' := by
  unfold retire
  split
  next hnone =>
    split
    next heq =>
      obtain ⟨rfl, rfl⟩ := Prod.mk.inj heq
      exact hnone
    next => rfl
  next => exact Table.get?_erase _ _ _

theorem outgoing?_install (g : Graph) (e : Edge) (s : Handle) (l : Label) :
    (g.install e).outgoing? s l =
      if (s, l) = (e.source, e.label) then some e.target
      else g.outgoing? s l := by
  have hout : (g.install e).outgoing? s l =
      if (s, l) = (e.source, e.label) then some e.target
      else (g.retire e.source e.label).outgoing? s l :=
    Table.get?_insert _ _ _ _
  rw [hout, outgoing?_retire]
  split <;> rfl

theorem Grows.retire (g : Graph) (s : Handle) (l : Label) :
    g.Grows (g.retire s l) := by
  rw [retire_eq]
  exact .of_slots rfl rfl rfl

theorem Grows.install (g : Graph) (e : Edge) : g.Grows (g.install e) := by
  rw [install_eq]
  exact .of_slots rfl rfl rfl

theorem Framing.isStructural {g : Graph} {e : Edge} (he : g.Framing e) :
    e.label.isStructural = true := by
  obtain ⟨v, f, _, rfl | rfl⟩ := he <;> rfl

theorem EdgesSound.retire {g : Graph} (hg : g.EdgesSound) (hs : g.StackSound)
    (s : Handle) (l : Label) : (g.retire s l).EdgesSound := by
  have hgrow := Grows.retire g s l
  have hframing := hgrow.framing_iff hs
  constructor
  · unfold Graph.retire
    split
    next => exact hg.edges_nodup
    next => exact hg.edges_nodup.erase _
  · intro e
    rw [hframing, outgoing?_retire]
    cases hout : g.outgoing? s l with
    | none =>
        have hsame : g.retire s l = g := by simp [Graph.retire, hout]
        rw [hsame, hg.mem_edges_iff]
        split
        next heq =>
          obtain ⟨h₁, h₂⟩ := Prod.mk.inj heq
          simp [h₁, h₂, hout]
        next => rfl
    | some t =>
        have hedges : (g.retire s l).edges = g.edges.erase ⟨s, t, l⟩ := by
          simp [Graph.retire, hout]
        rw [hedges, hg.edges_nodup.mem_erase_iff, hg.mem_edges_iff]
        constructor
        · rintro ⟨hne, hindexed | hframe⟩
          · left
            rw [if_neg]
            · exact hindexed
            · intro heq
              obtain ⟨h₁, h₂⟩ := Prod.mk.inj heq
              rw [h₁, h₂, hout] at hindexed
              apply hne
              rw [← h₁, ← h₂, Option.some.inj hindexed]
          · exact Or.inr hframe
        · rintro (hindexed | hframe)
          · split at hindexed
            next => simp at hindexed
            next hkey =>
              exact ⟨fun he => hkey (by rw [he]), Or.inl hindexed⟩
          · refine ⟨fun he => ?_, Or.inr hframe⟩
            have hlabel := hframe.isStructural
            rw [he, (hg.index_ends s l t hout).1] at hlabel
            contradiction
  · intro s' l' t ht
    rw [outgoing?_retire] at ht
    split at ht
    next => simp at ht
    next =>
      obtain ⟨hl, hs', ht'⟩ := hg.index_ends s' l' t ht
      exact ⟨hl, hgrow.isEnd hs', hgrow.isEnd ht'⟩

theorem EdgesSound.install {g : Graph} (hg : g.EdgesSound) (hs : g.StackSound)
    {e : Edge} (hlabel : e.label.isStructural = false)
    (hsource : g.IsEnd e.source) (htarget : g.IsEnd e.target) :
    (g.install e).EdgesSound := by
  have hgrow := Grows.install g e
  have hold := hg.retire hs e.source e.label
  have hedges : (g.install e).edges =
      (g.retire e.source e.label).edges.insert e := rfl
  constructor
  · rw [hedges]
    exact hold.edges_nodup.insert
  · intro e'
    rw [hedges, List.mem_insert_iff, hold.mem_edges_iff, outgoing?_retire,
      outgoing?_install, hgrow.framing_iff hs,
      (Grows.retire g e.source e.label).framing_iff hs]
    split
    next heq =>
      obtain ⟨h₁, h₂⟩ := Prod.mk.inj heq
      simp only [reduceCtorEq, false_or, Option.some.injEq]
      refine or_congr_left ⟨fun he => by rw [he], fun ht => ?_⟩
      cases e
      cases e'
      simp_all
    next hkey =>
      have hne : e' ≠ e := fun he => hkey (by rw [he])
      simp [hne]
  · intro s l t ht
    rw [outgoing?_install] at ht
    split at ht
    next heq =>
      obtain ⟨rfl, rfl⟩ := Prod.mk.inj heq
      obtain rfl : e.target = t := by simpa using ht
      exact ⟨hlabel, hgrow.isEnd hsource, hgrow.isEnd htarget⟩
    next =>
      obtain ⟨hl, hs', ht'⟩ := hg.index_ends s l t ht
      exact ⟨hl, hgrow.isEnd hs', hgrow.isEnd ht'⟩

end LiveHeap.Graph
