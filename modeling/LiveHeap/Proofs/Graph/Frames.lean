import LiveHeap.Proofs.Graph.WellFormed

/-!
# Pushing and popping a frame

A frame goes into a place that was empty, so it disturbs no vertex and no edge.
Popping takes the head off the chain of frames and empties its place.  Both
keep the graph well formed.
-/

namespace LiveHeap.Graph

variable {g : Graph}

theorem ArenaSound.slot?_of_mem_free (hg : g.ArenaSound) {v : Handle}
    (hv : v ∈ g.freeSlots) : g.slot? v = none :=
  ((hg.mem_free_iff v).mp hv).2

/-! ## Pushing -/

/-- The place that the next frame takes. -/
def nextFrame (g : Graph) : Handle :=
  (g.freeSlots.head?).getD ⟨g.slots.length⟩

/-- A push writes one slot and leaves the values, the index and the flags of
the graph alone. -/
theorem pushFrame_eq (g : Graph) (value : Handle) :
    g.pushFrame value =
      { g with
        slots := (g.pushFrame value).slots
        freeSlots := g.freeSlots.tail
        edges :=
          (g.edges.insert (Frame.parentEdge ⟨g.stackTop, value⟩ g.nextFrame)
            ).insert (Frame.valueEdge ⟨g.stackTop, value⟩ g.nextFrame)
        stackTop := g.nextFrame
        stackDepth := g.stackDepth + 1 } := by
  unfold pushFrame allocFrame nextFrame
  cases g.freeSlots <;> rfl

theorem stackTop_pushFrame (g : Graph) (value : Handle) :
    (g.pushFrame value).stackTop = g.nextFrame := by
  rw [pushFrame_eq]

theorem freeSlots_pushFrame (g : Graph) (value : Handle) :
    (g.pushFrame value).freeSlots = g.freeSlots.tail := by
  rw [pushFrame_eq]

theorem ArenaSound.slot?_nextFrame (hg : g.ArenaSound) :
    g.slot? g.nextFrame = none := by
  unfold nextFrame
  cases hfree : g.freeSlots with
  | nil => exact slot?_fresh g
  | cons v free => exact hg.slot?_of_mem_free (by simp [hfree])

theorem ArenaSound.slot?_pushFrame (hg : g.ArenaSound) (value w : Handle) :
    (g.pushFrame value).slot? w =
      if w = g.nextFrame then some ⟨.frame ⟨g.stackTop, value⟩, ⟨true, false⟩⟩
      else g.slot? w := by
  unfold nextFrame
  cases hfree : g.freeSlots with
  | nil =>
      have hslots : (g.pushFrame value).slots = g.slots ++
          [some ⟨.frame ⟨g.stackTop, value⟩, ⟨true, false⟩⟩] := by
        simp [pushFrame, allocFrame, hfree]
      exact slot?_append hslots w
  | cons v free =>
      have hslots : (g.pushFrame value).slots = g.slots.set v.index
          (some ⟨.frame ⟨g.stackTop, value⟩, ⟨true, false⟩⟩) := by
        simp [pushFrame, allocFrame, hfree]
      have hv := ((hg.mem_free_iff v).mp (by simp [hfree])).1
      exact slot?_set (mem_handles.mp hv) hslots w

theorem ArenaSound.vertex?_pushFrame (hg : g.ArenaSound) (value w : Handle) :
    (g.pushFrame value).vertex? w =
      if w = g.nextFrame then some (.frame ⟨g.stackTop, value⟩)
      else g.vertex? w := by
  unfold vertex?
  rw [hg.slot?_pushFrame]
  split <;> rfl

theorem ArenaSound.vertex?_nextFrame (hg : g.ArenaSound) :
    g.vertex? g.nextFrame = none := by
  simp [vertex?, hg.slot?_nextFrame]

/-- What was in the arena stays there. -/
theorem ArenaSound.vertex?_pushFrame_of_some (hg : g.ArenaSound)
    (value : Handle) {w : Handle} {x : Vertex} (hx : g.vertex? w = some x) :
    (g.pushFrame value).vertex? w = some x := by
  rw [hg.vertex?_pushFrame, if_neg]
  · exact hx
  · rintro rfl
    rw [hg.vertex?_nextFrame] at hx
    simp at hx

theorem ArenaSound.valueAt?_pushFrame (hg : g.ArenaSound)
    (value w : Handle) : (g.pushFrame value).valueAt? w = g.valueAt? w := by
  unfold valueAt?
  rw [hg.vertex?_pushFrame]
  split
  next hw =>
    rw [hw, hg.vertex?_nextFrame]
    rfl
  next => rfl

theorem ArenaSound.holdsValue_pushFrame (hg : g.ArenaSound) {value w : Handle} :
    (g.pushFrame value).HoldsValue w ↔ g.HoldsValue w := by
  rw [holdsValue_iff, holdsValue_iff, hg.valueAt?_pushFrame]

theorem ArenaSound.vertex?_pushFrame_iff (hg : g.ArenaSound) (value w : Handle)
    {x : Vertex} (hx : x.isFrame = false) :
    (g.pushFrame value).vertex? w = some x ↔ g.vertex? w = some x := by
  rw [hg.vertex?_pushFrame]
  split
  next hw =>
    rw [hw, hg.vertex?_nextFrame]
    simp only [Option.some.injEq, reduceCtorEq, iff_false]
    rintro rfl
    simp [Vertex.isFrame] at hx
  next => rfl

theorem ArenaSound.mem_freeSlots_pushFrame (hg : g.ArenaSound)
    (value w : Handle) :
    w ∈ (g.pushFrame value).freeSlots ↔
      w ∈ g.freeSlots ∧ w ≠ g.nextFrame := by
  rw [freeSlots_pushFrame]
  unfold nextFrame
  cases hfree : g.freeSlots with
  | nil => simp
  | cons v free =>
      have hnew := (List.nodup_cons.mp (hfree ▸ hg.free_nodup)).1
      simp only [List.tail_cons, List.head?_cons, Option.getD_some,
        List.mem_cons]
      constructor
      · exact fun hw => ⟨Or.inr hw, fun heq => hnew (heq ▸ hw)⟩
      · exact fun hw => hw.1.resolve_left hw.2

theorem ArenaSound.mem_handles_pushFrame (hg : g.ArenaSound)
    (value w : Handle) :
    w ∈ (g.pushFrame value).handles ↔ w ∈ g.handles ∨ w = g.nextFrame := by
  rw [mem_handles, mem_handles]
  unfold Graph.pushFrame allocFrame nextFrame
  cases hfree : g.freeSlots with
  | nil =>
      obtain ⟨i⟩ := w
      simp only [List.length_append, List.length_singleton, List.head?_nil,
        Option.getD_none, Handle.mk.injEq]
      omega
  | cons v free =>
      have hv := ((hg.mem_free_iff v).mp (by simp [hfree])).1
      rw [mem_handles] at hv
      simp only [List.length_set, List.head?_cons, Option.getD_some]
      constructor
      · exact Or.inl
      · rintro (hw | rfl)
        · exact hw
        · exact hv

theorem ArenaSound.pushFrame (hg : g.ArenaSound) (value : Handle) :
    (g.pushFrame value).ArenaSound := by
  constructor
  · intro w
    rw [hg.vertex?_pushFrame_iff value w rfl]
    exact hg.root_iff w
  · intro w
    rw [hg.vertex?_pushFrame_iff value w rfl]
    exact hg.stack_iff w
  · rw [freeSlots_pushFrame]
    exact hg.free_nodup.sublist (List.tail_sublist _)
  · intro w
    rw [hg.mem_freeSlots_pushFrame, hg.mem_handles_pushFrame,
      hg.slot?_pushFrame, hg.mem_free_iff]
    by_cases hw : w = g.nextFrame
    · simp [hw]
    · simp [hw]
  · intro w s hs hvalue
    rw [hg.slot?_pushFrame] at hs
    split at hs
    next =>
      obtain rfl : _ = s := by simpa using hs
      rfl
    next => exact hg.structural_flags w s hs hvalue
  · intro id w
    have hsame : (g.pushFrame value).vertexFor? id = g.vertexFor? id := by
      rw [pushFrame_eq]
      rfl
    rw [hsame, hg.valueAt?_pushFrame]
    exact hg.vertexFor?_iff id w

theorem chain_pushFrame (hg : g.ArenaSound) (hs : g.StackSound)
    (value : Handle) :
    (g.pushFrame value).Chain (g.pushFrame value).stackTop
      ((g.nextFrame, ⟨g.stackTop, value⟩) :: g.frames) := by
  rw [stackTop_pushFrame]
  refine .frame ?_ ?_
  · rw [hg.vertex?_pushFrame, if_pos rfl]
  · refine hs.chain.transfer ?_ ?_
    · exact hg.vertex?_pushFrame_of_some value
    · intro w f hmem
      exact hg.vertex?_pushFrame_of_some value
        ((hs.mem_frames_iff w f).mp hmem)

theorem frames_pushFrame (hg : g.ArenaSound) (hs : g.StackSound)
    (value : Handle) :
    (g.pushFrame value).frames =
      (g.nextFrame, ⟨g.stackTop, value⟩) :: g.frames :=
  (chain_pushFrame hg hs value).frames_eq

theorem StackSound.pushFrame (hs : g.StackSound) (hg : g.ArenaSound)
    (value : Handle) : (g.pushFrame value).StackSound := by
  have hframes := frames_pushFrame hg hs value
  constructor
  · rw [hframes]
    exact chain_pushFrame hg hs value
  · intro w f
    rw [hframes, List.mem_cons, hs.mem_frames_iff, hg.vertex?_pushFrame]
    split
    next hw =>
      rw [hw, hg.vertex?_nextFrame]
      simp [eq_comm]
    next hw => simp [hw]
  · rw [hframes, List.length_cons, ← hs.depth, pushFrame_eq]

theorem mem_edges_pushFrame {value : Handle} {e : Edge} :
    e ∈ (g.pushFrame value).edges ↔
      e = Frame.valueEdge ⟨g.stackTop, value⟩ g.nextFrame ∨
        e = Frame.parentEdge ⟨g.stackTop, value⟩ g.nextFrame ∨
        e ∈ g.edges := by
  rw [pushFrame_eq]
  simp [List.mem_insert_iff]

theorem framing_pushFrame (hg : g.ArenaSound) (hs : g.StackSound)
    (value : Handle) (e : Edge) :
    (g.pushFrame value).Framing e ↔
      e = Frame.valueEdge ⟨g.stackTop, value⟩ g.nextFrame ∨
        e = Frame.parentEdge ⟨g.stackTop, value⟩ g.nextFrame ∨
        g.Framing e := by
  unfold Framing
  rw [frames_pushFrame hg hs]
  constructor
  · rintro ⟨v, f, hmem, heq⟩
    rcases List.mem_cons.mp hmem with hhead | htail
    · obtain ⟨rfl, rfl⟩ := Prod.mk.inj hhead
      exact heq.elim (fun h => Or.inr (Or.inl h)) Or.inl
    · exact Or.inr (Or.inr ⟨v, f, htail, heq⟩)
  · rintro (heq | heq | ⟨v, f, hmem, heq⟩)
    · exact ⟨_, _, List.mem_cons_self .., Or.inr heq⟩
    · exact ⟨_, _, List.mem_cons_self .., Or.inl heq⟩
    · exact ⟨v, f, List.mem_cons_of_mem _ hmem, heq⟩

theorem EdgesSound.pushFrame (he : g.EdgesSound) (hg : g.ArenaSound)
    (hs : g.StackSound) (value : Handle) :
    (g.pushFrame value).EdgesSound := by
  have hout : ∀ s l, (g.pushFrame value).outgoing? s l = g.outgoing? s l := by
    intro s l
    rw [pushFrame_eq]
    rfl
  constructor
  · rw [pushFrame_eq]
    exact he.edges_nodup.insert.insert
  · intro e
    rw [mem_edges_pushFrame, framing_pushFrame hg hs, hout, he.mem_edges_iff]
    tauto
  · intro s l t ht
    rw [hout] at ht
    obtain ⟨hl, hsource, htarget⟩ := he.index_ends s l t ht
    exact ⟨hl, hsource.imp id hg.holdsValue_pushFrame.mpr,
      htarget.imp id hg.holdsValue_pushFrame.mpr⟩

theorem ReferencesSound.pushFrame (hr : g.ReferencesSound)
    (hg : g.ArenaSound) (hs : g.StackSound) {value : Handle}
    (hvalue : g.HoldsValue value) : (g.pushFrame value).ReferencesSound := by
  have hglobal : (g.pushFrame value).global = g.global := by
    rw [pushFrame_eq]
  constructor
  · intro v f hmem
    rw [frames_pushFrame hg hs, List.mem_cons] at hmem
    rw [hg.holdsValue_pushFrame]
    rcases hmem with hhead | htail
    · obtain ⟨rfl, rfl⟩ := Prod.mk.inj hhead
      exact hvalue
    · exact hr.frame_value v f htail
  · intro v outcomes hv w hw
    rw [hg.holdsValue_pushFrame]
    obtain ⟨x, hx, hout⟩ := Option.bind_eq_some_iff.mp hv
    have hframe : x.isFrame = false := by
      cases x <;> simp_all [Vertex.outcomes?, Vertex.isFrame]
    rw [hg.vertex?_pushFrame_iff value v hframe] at hx
    refine hr.outcome_value v outcomes ?_ w hw
    rw [outcomes?, hx]
    exact hout
  · intro v hv
    rw [hglobal] at hv
    exact hg.holdsValue_pushFrame.mpr (hr.global_value v hv)

theorem WellFormed.pushFrame (hg : g.WellFormed) {value : Handle}
    (hvalue : g.HoldsValue value) : (g.pushFrame value).WellFormed := by
  have harena := hg.toArenaSound
  have hstack := hg.toStackSound
  exact {
    toArenaSound := harena.pushFrame value
    toStackSound := hstack.pushFrame harena value
    toEdgesSound := hg.toEdgesSound.pushFrame harena hstack value
    toReferencesSound := hg.toReferencesSound.pushFrame harena hstack hvalue
    idle := by
      rw [pushFrame_eq]
      exact hg.idle }

/-! ## Popping -/

/-- The graph without the frame on top. -/
def popFrame (g : Graph) (f : Frame) : Graph :=
  { g with
    slots := g.slots.set g.stackTop.index none
    freeSlots := g.stackTop :: g.freeSlots
    edges :=
      (g.edges.erase (f.parentEdge g.stackTop)).erase
        (f.valueEdge g.stackTop)
    stackTop := f.parent
    stackDepth := g.stackDepth - 1
    changed := true
    mutated := true }

theorem pop_eq_popFrame {f : Frame}
    (htop : g.vertex? g.stackTop = some (.frame f)) :
    g.pop = .ok (g.popFrame f) := by
  unfold pop
  rw [htop]
  rfl

theorem StackSound.top_of_nil (hs : g.StackSound) (hframes : g.frames = []) :
    g.vertex? g.stackTop = some .stack := by
  have hchain := hs.chain
  rw [hframes] at hchain
  generalize g.stackTop = top at hchain
  cases hchain with
  | bottom hstack => exact hstack

theorem StackSound.top_of_cons (hs : g.StackSound) {v : Handle} {f : Frame}
    {rest : List (Handle × Frame)} (hframes : g.frames = (v, f) :: rest) :
    g.stackTop = v ∧ g.vertex? g.stackTop = some (.frame f) ∧
      g.Chain f.parent rest := by
  have hchain := hs.chain
  rw [hframes] at hchain
  generalize g.stackTop = top at hchain ⊢
  cases hchain with
  | frame hv hrest => exact ⟨rfl, hv, hrest⟩

theorem mem_edges_popFrame (he : g.EdgesSound) (f : Frame) (e : Edge) :
    e ∈ (g.popFrame f).edges ↔
      e ≠ f.valueEdge g.stackTop ∧ e ≠ f.parentEdge g.stackTop ∧
        e ∈ g.edges := by
  unfold Graph.popFrame
  rw [(he.edges_nodup.erase _).mem_erase_iff, he.edges_nodup.mem_erase_iff]

section Pop

variable {f : Frame} (htop : g.vertex? g.stackTop = some (.frame f))

include htop

theorem slot?_popFrame (w : Handle) :
    (g.popFrame f).slot? w = if w = g.stackTop then none else g.slot? w :=
  slot?_set (lt_of_vertex? htop) rfl w

theorem vertex?_popFrame (w : Handle) :
    (g.popFrame f).vertex? w =
      if w = g.stackTop then none else g.vertex? w := by
  unfold vertex?
  rw [slot?_popFrame htop]
  split <;> rfl

/-- Only the frame on top is gone. -/
theorem vertex?_popFrame_iff (w : Handle) {x : Vertex}
    (hx : x.isFrame = false) :
    (g.popFrame f).vertex? w = some x ↔ g.vertex? w = some x := by
  rw [vertex?_popFrame htop]
  split
  next hw =>
    rw [hw, htop]
    simp only [reduceCtorEq, Option.some.injEq, false_iff]
    rintro rfl
    simp [Vertex.isFrame] at hx
  next => rfl

theorem valueAt?_popFrame (w : Handle) :
    (g.popFrame f).valueAt? w = g.valueAt? w := by
  unfold valueAt?
  rw [vertex?_popFrame htop]
  split
  next hw =>
    rw [hw, htop]
    rfl
  next => rfl

theorem holdsValue_popFrame {w : Handle} :
    (g.popFrame f).HoldsValue w ↔ g.HoldsValue w := by
  rw [holdsValue_iff, holdsValue_iff, valueAt?_popFrame htop]

theorem ArenaSound.popFrame (hg : g.ArenaSound) :
    (g.popFrame f).ArenaSound := by
  obtain ⟨s, hs, _⟩ := vertex?_eq_some_iff.mp htop
  constructor
  · intro w
    rw [vertex?_popFrame_iff htop w rfl]
    exact hg.root_iff w
  · intro w
    rw [vertex?_popFrame_iff htop w rfl]
    exact hg.stack_iff w
  · refine List.nodup_cons.mpr ⟨fun hmem => ?_, hg.free_nodup⟩
    rw [hg.slot?_of_mem_free hmem] at hs
    simp at hs
  · intro w
    have hlen : (g.popFrame f).slots.length = g.slots.length :=
      List.length_set
    have hold := hg.mem_free_iff w
    rw [mem_handles] at hold
    rw [slot?_popFrame htop, mem_handles, hlen]
    by_cases hw : w = g.stackTop
    · subst hw
      simp [Graph.popFrame, lt_of_vertex? htop]
    · simp [Graph.popFrame, hw, hold]
  · intro w s hs hvalue
    rw [slot?_popFrame htop] at hs
    split at hs
    next => simp at hs
    next => exact hg.structural_flags w s hs hvalue
  · intro id w
    rw [valueAt?_popFrame htop]
    exact hg.vertexFor?_iff id w

theorem StackSound.frames_eq_cons (hs : g.StackSound) :
    ∃ rest, g.frames = (g.stackTop, f) :: rest ∧ g.Chain f.parent rest := by
  cases hframes : g.frames with
  | nil =>
      rw [hs.top_of_nil hframes] at htop
      simp at htop
  | cons e rest =>
      obtain ⟨v, f'⟩ := e
      obtain ⟨rfl, hv, hrest⟩ := hs.top_of_cons hframes
      obtain rfl : f = f' := by simpa [htop] using hv
      exact ⟨rest, rfl, hrest⟩

theorem chain_popFrame (hs : g.StackSound) :
    (g.popFrame f).Chain (g.popFrame f).stackTop g.frames.tail := by
  obtain ⟨rest, hframes, hchain⟩ := hs.frames_eq_cons htop
  have hnodup := hs.chain.nodup
  rw [hframes, List.map_cons, List.nodup_cons] at hnodup
  rw [hframes]
  refine hchain.transfer ?_ ?_
  · exact (vertex?_popFrame_iff htop stack rfl).mpr
  · intro w e hmem
    rw [vertex?_popFrame htop, if_neg]
    · exact hchain.vertex?_of_mem hmem
    · rintro rfl
      exact hnodup.1 (List.mem_map.mpr ⟨_, hmem, rfl⟩)

theorem frames_popFrame (hs : g.StackSound) :
    (g.popFrame f).frames = g.frames.tail :=
  (chain_popFrame htop hs).frames_eq

/-- The frames that are left are those at another place than the old top. -/
theorem mem_frames_popFrame (hs : g.StackSound) {w : Handle} {e : Frame} :
    (w, e) ∈ (g.popFrame f).frames ↔
      w ≠ g.stackTop ∧ (w, e) ∈ g.frames := by
  obtain ⟨rest, hframes, _⟩ := hs.frames_eq_cons htop
  have hnodup := hs.chain.nodup
  rw [hframes, List.map_cons, List.nodup_cons] at hnodup
  rw [frames_popFrame htop hs, hframes, List.tail_cons, List.mem_cons]
  constructor
  · intro hmem
    refine ⟨?_, Or.inr hmem⟩
    rintro rfl
    exact hnodup.1 (List.mem_map.mpr ⟨_, hmem, rfl⟩)
  · rintro ⟨hne, heq | hmem⟩
    · exact absurd (Prod.mk.inj heq).1 hne
    · exact hmem

theorem StackSound.popFrame (hs : g.StackSound) :
    (g.popFrame f).StackSound := by
  obtain ⟨rest, hframes, _⟩ := hs.frames_eq_cons htop
  constructor
  · rw [frames_popFrame htop hs]
    exact chain_popFrame htop hs
  · intro w e
    rw [mem_frames_popFrame htop hs, hs.mem_frames_iff,
      vertex?_popFrame htop]
    by_cases hw : w = g.stackTop <;> simp [hw]
  · have hdepth := hs.depth
    rw [hframes, List.length_cons] at hdepth
    rw [frames_popFrame htop hs, hframes, List.tail_cons]
    simp [Graph.popFrame, hdepth]

theorem framing_popFrame (hs : g.StackSound) (e : Edge) :
    (g.popFrame f).Framing e ↔
      e ≠ f.valueEdge g.stackTop ∧ e ≠ f.parentEdge g.stackTop ∧
        g.Framing e := by
  unfold Framing
  constructor
  · rintro ⟨w, e', hmem, heq⟩
    obtain ⟨hne, hmem⟩ := (mem_frames_popFrame htop hs).mp hmem
    have hsource : e.source = w := by
      rcases heq with rfl | rfl <;> rfl
    refine ⟨?_, ?_, w, e', hmem, heq⟩
    · rintro rfl
      exact hne hsource.symm
    · rintro rfl
      exact hne hsource.symm
  · rintro ⟨hvalue, hparent, w, e', hmem, heq⟩
    refine ⟨w, e', (mem_frames_popFrame htop hs).mpr ⟨?_, hmem⟩, heq⟩
    rintro rfl
    have hsame : e' = f := by
      have hv := (hs.mem_frames_iff _ _).mp hmem
      simpa [htop, eq_comm] using hv
    rw [hsame] at heq
    exact heq.elim hparent hvalue

theorem EdgesSound.popFrame (he : g.EdgesSound) (hs : g.StackSound) :
    (g.popFrame f).EdgesSound := by
  have hstructural : ∀ e, g.outgoing? e.source e.label = some e.target →
      e ≠ f.valueEdge g.stackTop ∧ e ≠ f.parentEdge g.stackTop := by
    intro e hout
    have hlabel := (he.index_ends _ _ _ hout).1
    constructor <;>
      · rintro rfl
        simp [Frame.valueEdge, Frame.parentEdge, Label.isStructural] at hlabel
  constructor
  · exact (he.edges_nodup.erase _).erase _
  · intro e
    have hsame : (g.popFrame f).outgoing? e.source e.label =
        g.outgoing? e.source e.label := rfl
    rw [mem_edges_popFrame he f, framing_popFrame htop hs, hsame,
      he.mem_edges_iff]
    have := hstructural e
    tauto
  · intro s l t ht
    obtain ⟨hl, hsource, htarget⟩ := he.index_ends s l t ht
    exact ⟨hl, hsource.imp id (holdsValue_popFrame htop).mpr,
      htarget.imp id (holdsValue_popFrame htop).mpr⟩

theorem ReferencesSound.popFrame (hr : g.ReferencesSound)
    (hs : g.StackSound) : (g.popFrame f).ReferencesSound := by
  constructor
  · intro w e hmem
    rw [holdsValue_popFrame htop]
    exact hr.frame_value w e ((mem_frames_popFrame htop hs).mp hmem).2
  · intro v outcomes hv w hw
    rw [holdsValue_popFrame htop]
    refine hr.outcome_value v outcomes ?_ w hw
    unfold outcomes? at hv ⊢
    rw [vertex?_popFrame htop] at hv
    split at hv
    next => simp at hv
    next => exact hv
  · intro v hv
    exact (holdsValue_popFrame htop).mpr (hr.global_value v hv)

theorem WellFormed.popFrame (hg : g.WellFormed) :
    (g.popFrame f).WellFormed where
  toArenaSound := hg.toArenaSound.popFrame htop
  toStackSound := hg.toStackSound.popFrame htop
  toEdgesSound := hg.toEdgesSound.popFrame htop hg.toStackSound
  toReferencesSound := hg.toReferencesSound.popFrame htop hg.toStackSound
  idle := hg.idle

end Pop

end LiveHeap.Graph
