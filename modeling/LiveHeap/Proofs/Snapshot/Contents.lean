import LiveHeap.Graph.View
import LiveHeap.Proofs.Graph.Collect

/-!
# What snapshots contain

A snapshot lists vertices in ascending order and is searched by halving the
list.  The graph knows its vertices by their flags in an arena with empty
places.  Both answer alike for every place, so the edges that a snapshot shows
as visible are those between vertices that are live in the graph.
-/

namespace LiveHeap

/-! ## The orders -/

theorem Handle.lt_of_not_lt {v w : Handle} (hne : ¬ v = w) (hnot : ¬ w < v) :
    v < w := by
  have hindex : v.index ≠ w.index := fun h => hne (congrArg Handle.mk h)
  exact Nat.lt_of_le_of_ne (Nat.le_of_not_lt hnot) hindex

/-- A list that shows vertices in strictly ascending order. -/
def Ascending (vs : List SeenVertex) : Prop :=
  vs.Pairwise fun x y => x.id < y.id

namespace SeenEdge

theorem le_iff {a b : SeenEdge} :
    a.le b = true ↔ a.source < b.source ∨ a.source = b.source ∧
      (a.target < b.target ∨ a.target = b.target ∧ a.label ≤ b.label) := by
  have hless : ∀ {v w : Handle}, v = w → ¬ v < w := by
    rintro v _ rfl
    exact Nat.lt_irrefl v.index
  unfold le
  by_cases hsource : a.source = b.source
  · by_cases htarget : a.target = b.target
    · simp [hsource, htarget, hless]
    · simp [hsource, htarget, hless]
  · simp [hsource]

theorem le_trans (a b c : SeenEdge) (hab : a.le b = true)
    (hbc : b.le c = true) : a.le c = true := by
  have htrans : ∀ {u v w : Handle}, u < v → v < w → u < w :=
    fun h h' => Nat.lt_trans h h'
  rw [le_iff] at hab hbc ⊢
  rcases hab with hab | ⟨hsource, hab⟩
  · rcases hbc with hbc | ⟨hsource', _⟩
    · exact Or.inl (htrans hab hbc)
    · exact Or.inl (hsource' ▸ hab)
  · rw [hsource]
    refine hbc.imp id fun hbc => ⟨hbc.1, ?_⟩
    rcases hab with hab | ⟨htarget, hlabel⟩
    · rcases hbc.2 with hbc | ⟨htarget', _⟩
      · exact Or.inl (htrans hab hbc)
      · exact Or.inl (htarget' ▸ hab)
    · rw [htarget]
      exact hbc.2.imp id fun hbc => ⟨hbc.1, String.le_trans hlabel hbc.2⟩

theorem le_total (a b : SeenEdge) : (a.le b || b.le a) = true := by
  rw [Bool.or_eq_true, le_iff, le_iff]
  by_cases hsource : a.source = b.source
  · by_cases htarget : a.target = b.target
    · refine (String.le_total a.label b.label).imp ?_ ?_
      · exact fun hlabel => Or.inr ⟨hsource, Or.inr ⟨htarget, hlabel⟩⟩
      · exact fun hlabel =>
          Or.inr ⟨hsource.symm, Or.inr ⟨htarget.symm, hlabel⟩⟩
    · by_cases hless : b.target < a.target
      · exact Or.inr (Or.inr ⟨hsource.symm, Or.inl hless⟩)
      · exact Or.inl (Or.inr
          ⟨hsource, Or.inl (Handle.lt_of_not_lt htarget hless)⟩)
  · by_cases hless : b.source < a.source
    · exact Or.inr (Or.inl hless)
    · exact Or.inl (Or.inl (Handle.lt_of_not_lt hsource hless))

end SeenEdge

/-! ## Search -/

namespace Ascending

variable {before after : List SeenVertex} {v x : SeenVertex}

theorem split (h : Ascending (before ++ v :: after)) :
    Ascending before ∧ Ascending after ∧ (∀ x ∈ before, x.id < v.id) ∧
      ∀ x ∈ after, v.id < x.id := by
  obtain ⟨hbefore, hrest, hless⟩ := List.pairwise_append.mp h
  obtain ⟨hmore, hafter⟩ := List.pairwise_cons.mp hrest
  exact ⟨hbefore, hafter, fun x hx => hless x hx v List.mem_cons_self, hmore⟩

/-- The vertex in the middle is the only one with its id. -/
theorem eq_middle (h : Ascending (before ++ v :: after))
    (hx : x ∈ before ++ v :: after) (hid : x.id = v.id) : x = v := by
  obtain ⟨_, _, hbefore, hafter⟩ := h.split
  rcases List.mem_append.mp hx with hx | hx
  · exact absurd (hid ▸ hbefore x hx) (Nat.lt_irrefl _)
  · rcases List.mem_cons.mp hx with rfl | hx
    · rfl
    · exact absurd (hid ▸ hafter x hx) (Nat.lt_irrefl _)

theorem mem_before (h : Ascending (before ++ v :: after))
    (hx : x ∈ before ++ v :: after) (hid : x.id < v.id) : x ∈ before := by
  obtain ⟨_, _, _, hafter⟩ := h.split
  rcases List.mem_append.mp hx with hx | hx
  · exact hx
  · rcases List.mem_cons.mp hx with rfl | hx
    · exact absurd hid (Nat.lt_irrefl _)
    · exact absurd hid (Nat.lt_asymm (hafter x hx))

theorem mem_after (h : Ascending (before ++ v :: after))
    (hx : x ∈ before ++ v :: after) (hid : v.id < x.id) : x ∈ after := by
  obtain ⟨_, _, hbefore, _⟩ := h.split
  rcases List.mem_append.mp hx with hx | hx
  · exact absurd hid (Nat.lt_asymm (hbefore x hx))
  · rcases List.mem_cons.mp hx with rfl | hx
    · exact absurd hid (Nat.lt_irrefl _)
    · exact hx

end Ascending

theorem take_append_of_drop {vs after : List SeenVertex} {v : SeenVertex}
    {half : Nat} (hdrop : vs.drop half = v :: after) :
    vs.take half ++ v :: after = vs := by
  rw [← hdrop, List.take_append_drop]

/-- In a list that ascends by id, the search finds exactly the vertices of the
list. -/
theorem Snapshot.search_eq_some_iff {vs : List SeenVertex}
    (hvs : Ascending vs) {id : Handle} {x : SeenVertex} :
    search id vs = some x ↔ x ∈ vs ∧ x.id = id := by
  fun_induction search id vs with
  | case1 vs half hdrop =>
      have hlength := congrArg List.length hdrop
      rw [List.length_drop, List.length_nil] at hlength
      have hempty : vs = [] := List.length_eq_zero_iff.mp (by omega)
      simp [hempty]
  | case2 vs half v after hdrop hfound =>
      have hv : v ∈ vs := List.mem_of_mem_drop (hdrop ▸ List.mem_cons_self)
      have hall : vs.take half ++ v :: after = vs :=
        take_append_of_drop hdrop
      constructor
      · intro hsame
        obtain rfl := Option.some.inj hsame
        exact ⟨hv, hfound⟩
      · rintro ⟨hx, hid⟩
        rw [← hall] at hvs hx
        rw [hvs.eq_middle hx (hid.trans hfound.symm)]
  | case3 vs half v after hdrop hne hless ih =>
      have hall : vs.take half ++ v :: after = vs :=
        take_append_of_drop hdrop
      rw [← hall] at hvs
      rw [ih hvs.split.1]
      constructor
      · rintro ⟨hx, hid⟩
        exact ⟨List.mem_of_mem_take hx, hid⟩
      · rintro ⟨hx, hid⟩
        rw [← hall] at hx
        exact ⟨hvs.mem_before hx (hid ▸ hless), hid⟩
  | case4 vs half v after hdrop hne hnot ih =>
      have hall : vs.take half ++ v :: after = vs :=
        take_append_of_drop hdrop
      have hless : v.id < id := Handle.lt_of_not_lt hne hnot
      rw [← hall] at hvs
      rw [ih hvs.split.2.1]
      constructor
      · rintro ⟨hx, hid⟩
        refine ⟨?_, hid⟩
        rw [← hall]
        exact List.mem_append_right _ (List.mem_cons_of_mem v hx)
      · rintro ⟨hx, hid⟩
        rw [← hall] at hx
        exact ⟨hvs.mem_after hx (hid ▸ hless), hid⟩

namespace Graph

variable {g : Graph}

/-! ## Vertices -/

/-- A list shows the vertices that have a property: all of them, each once, in
ascending order and with its label. -/
structure Lists (g : Graph) (member : Handle → Bool)
    (shown : List SeenVertex) : Prop where
  ids : shown.map SeenVertex.id = g.handles.filter member
  ascending : Ascending shown
  mem_iff : ∀ x, x ∈ shown ↔
    member x.id = true ∧ g.label? x.id = some x.label
  labelled : ∀ v, member v = true → ∃ label, g.label? v = some label

theorem seenVertex?_eq_some_iff {v : Handle} {x : SeenVertex} :
    g.seenVertex? v = some x ↔ x.id = v ∧ g.label? v = some x.label := by
  obtain ⟨id, label⟩ := x
  unfold seenVertex?
  rw [Option.map_eq_some_iff]
  constructor
  · rintro ⟨label', hlabel, heq⟩
    obtain ⟨rfl, rfl⟩ := SeenVertex.mk.inj heq
    exact ⟨rfl, hlabel⟩
  · rintro ⟨rfl, hlabel⟩
    exact ⟨label, hlabel, rfl⟩

/-- Whatever only occupied places have is shown with labels. -/
theorem lists_filter {member : Handle → Bool}
    (hmember : ∀ v, member v = true → g.slot? v ≠ none) :
    g.Lists member ((g.handles.filter member).filterMap g.seenVertex?) := by
  have hlabelled : ∀ v, member v = true →
      ∃ label, g.label? v = some label := by
    intro v hv
    obtain ⟨slot, hslot⟩ := Option.ne_none_iff_exists'.mp (hmember v hv)
    exact ⟨slot.vertex.label, by simp [label?, vertex?, hslot]⟩
  constructor
  · rw [List.map_filterMap]
    have hid : ∀ v ∈ g.handles.filter member,
        (g.seenVertex? v).map SeenVertex.id = some v := by
      intro v hv
      obtain ⟨label, hlabel⟩ := hlabelled v (List.mem_filter.mp hv).2
      simp [seenVertex?, hlabel]
    rw [List.filterMap_congr hid, List.filterMap_some]
  · refine (g.handles_ascending.filter member).filterMap _ ?_
    intro v w hless x hx y hy
    rw [(seenVertex?_eq_some_iff.mp hx).1, (seenVertex?_eq_some_iff.mp hy).1]
    exact hless
  · intro x
    simp only [List.mem_filterMap, List.mem_filter, seenVertex?_eq_some_iff]
    constructor
    · rintro ⟨v, ⟨_, hv⟩, rfl, hlabel⟩
      exact ⟨hv, hlabel⟩
    · rintro ⟨hv, hlabel⟩
      obtain ⟨vertex, hvertex, _⟩ := Option.map_eq_some_iff.mp hlabel
      exact ⟨x.id, ⟨mem_handles.mpr (lt_of_vertex? hvertex), hv⟩, rfl, hlabel⟩
  · exact hlabelled

theorem lists_live (g : Graph) : g.Lists g.isLive g.snapshot.vertices := by
  apply lists_filter
  intro v hlive hnone
  simp [isLive, hnone] at hlive

theorem lists_builtins (g : Graph) :
    g.Lists g.isBuiltin (g.builtins.filterMap g.seenVertex?) := by
  apply lists_filter
  intro v hbuiltin hnone
  simp [isBuiltin, hnone] at hbuiltin

section Lists

variable {member : Handle → Bool} {shown : List SeenVertex}

theorem Lists.search_eq_some_iff (h : g.Lists member shown) {id : Handle}
    {x : SeenVertex} :
    Snapshot.search id shown = some x ↔
      x.id = id ∧ member id = true ∧ g.label? id = some x.label := by
  rw [Snapshot.search_eq_some_iff h.ascending, h.mem_iff]
  constructor
  · rintro ⟨hx, rfl⟩
    exact ⟨rfl, hx⟩
  · rintro ⟨rfl, hx⟩
    exact ⟨hx, rfl⟩

theorem Lists.isSome_search (h : g.Lists member shown) (id : Handle) :
    (Snapshot.search id shown).isSome = member id := by
  rw [Bool.eq_iff_iff, Option.isSome_iff_exists]
  constructor
  · rintro ⟨x, hx⟩
    exact (h.search_eq_some_iff.mp hx).2.1
  · intro hid
    obtain ⟨label, hlabel⟩ := h.labelled id hid
    exact ⟨⟨id, label⟩, h.search_eq_some_iff.mpr ⟨rfl, hid, hlabel⟩⟩

end Lists

/-! ## Whole snapshots -/

/-- The snapshot shows the live vertices of the graph and all its edges as
texts, and answers the queries as the graph does. -/
structure ShownBy (g : Graph) (s : Snapshot) : Prop where
  vertices : g.Lists g.isLive s.vertices
  containsVertex : ∀ id, s.containsVertex id = g.isLive id
  vertex? : ∀ id x, s.vertex? id = some x ↔
    x.id = id ∧ g.isLive id = true ∧ g.label? id = some x.label
  sorted : s.edges.Pairwise fun a b => a.le b = true
  /-- Edges are told apart by their labels, and shown by the texts of them. -/
  count_edges : ∀ e, s.edges.count e = g.edges.countP fun edge =>
    edge.source = e.source ∧ edge.target = e.target ∧ edge.label.text = e.label
  visibleEdges : s.visibleEdges =
    s.edges.filter fun e => g.isLive e.source && g.isLive e.target

/-- Of a snapshot, the vertices and the edges matter. -/
theorem shownBy_of_eq {s : Snapshot}
    (hvertices : s.vertices = g.snapshot.vertices)
    (hedges : s.edges = g.snapshot.edges) : g.ShownBy s := by
  have hlists : g.Lists g.isLive s.vertices := hvertices ▸ g.lists_live
  have hcontains : ∀ id, s.containsVertex id = g.isLive id :=
    hlists.isSome_search
  constructor
  · exact hlists
  · exact hcontains
  · intro id x
    exact hlists.search_eq_some_iff
  · rw [hedges]
    exact List.pairwise_mergeSort SeenEdge.le_trans SeenEdge.le_total _
  · intro e
    have hperm : s.edges.Perm (g.edges.map seenEdge) := by
      rw [hedges]
      exact List.mergeSort_perm _ _
    rw [hperm.count_eq, List.count, List.countP_map]
    refine List.countP_congr fun edge _ => ?_
    rw [Function.comp_apply, beq_iff_eq, decide_eq_true_eq]
    exact SeenEdge.mk.injEq .. ▸ Iff.rfl
  · unfold Snapshot.visibleEdges
    simp only [hcontains]

/-- Two maybe edges between the same vertices are shown twice. -/
theorem ShownBy.two_le_count {s : Snapshot} (h : g.ShownBy s) {v w : Handle}
    {i j : Nat} (hne : i ≠ j) (hi : ⟨v, w, .maybe i⟩ ∈ g.edges)
    (hj : ⟨v, w, .maybe j⟩ ∈ g.edges) : 2 ≤ s.edges.count ⟨v, w, "maybe"⟩ := by
  have hpair : List.Subperm [⟨v, w, .maybe i⟩, ⟨v, w, .maybe j⟩] g.edges := by
    apply List.subperm_of_subset
    · simp [hne]
    · simp [hi, hj]
  rw [h.count_edges]
  refine Nat.le_trans ?_ (hpair.countP_le _)
  simp [Label.text]

/-- Both snapshots of every graph that operations make show its live vertices,
in ascending order and with their labels, and each of its edges once as a text,
in order.  The search in a snapshot answers like the flags in the graph, so the
visible edges are those between live vertices.  The final snapshot shows all
builtins as well, live or hidden. -/
theorem snapshots_agree_with_graph (ops : List Operation) :
    let g := new.run ops
    g.edges.Nodup ∧
    (∀ s ∈ [g.snapshot, g.finalSnapshot], g.ShownBy s ∧
      ∀ v w i j, i ≠ j → ⟨v, w, .maybe i⟩ ∈ g.edges →
        ⟨v, w, .maybe j⟩ ∈ g.edges → 2 ≤ s.edges.count ⟨v, w, "maybe"⟩) ∧
    ∃ shown, g.finalSnapshot.builtins = some shown ∧
      g.Lists g.isBuiltin shown ∧ shown.map SeenVertex.id = g.builtins := by
  intro g
  have hg : g.WellFormed := wellFormed_run_new ops
  refine ⟨hg.edges_nodup, fun s hs => ?_, _, rfl, g.lists_builtins,
    g.lists_builtins.ids⟩
  have hshown : g.ShownBy s := by
    rcases List.mem_pair.mp hs with rfl | rfl
    · exact shownBy_of_eq rfl rfl
    · exact shownBy_of_eq rfl rfl
  exact ⟨hshown, fun v w i j hne hi hj => hshown.two_le_count hne hi hj⟩

end Graph

end LiveHeap
