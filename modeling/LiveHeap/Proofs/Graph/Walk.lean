import LiveHeap.Proofs.Graph.Edges

/-!
# What a collection walks over

`Leaf` and `Walked` say which vertices a collection reaches without a word
about the order in which it goes.  The worklist `leavesOf` finds exactly the
leaves of a child, since the outcomes of an expanded union never get lost: each
of them was expanded or is pending.  The scene of a graph therefore traces
exactly the walked vertices.  None of them is pinned, because no edge and no
outcome list leads to the stack.
-/

namespace LiveHeap.Graph

/-- The second vertex is no union, and unions alone lead to it from the
first. -/
inductive Leaf (g : Graph) : Handle → Handle → Prop
  | here {v : Handle} : g.outcomes? v = none → g.Leaf v v
  | through {v w leaf : Handle} {outcomes : List Handle} :
      g.outcomes? v = some outcomes → w ∈ outcomes → g.Leaf w leaf →
      g.Leaf v leaf

/-- The least set with the root, the root scope and the values on the stack
that is closed under the outcomes of unions and the property children of
enumerable vertices, where a union met on the way gives its leaves. -/
inductive Walked (g : Graph) : Handle → Prop
  | root : g.Walked root
  | global {v : Handle} : g.global = some v → g.Walked v
  | frame {v : Handle} {f : Frame} : (v, f) ∈ g.frames → g.Walked f.value
  | outcome {v w leaf : Handle} {outcomes : List Handle} :
      g.Walked v → g.outcomes? v = some outcomes → w ∈ outcomes →
      g.Leaf w leaf → g.Walked leaf
  | child {v w leaf : Handle} {x : Vertex} {name : String} :
      g.Walked v → g.vertex? v = some x → x.isEnumerable = true →
      g.outgoing? v (.property name) = some w → g.Leaf w leaf → g.Walked leaf

variable {g g' : Graph}

/-! ## Leaves -/

theorem Leaf.outcomes? {v leaf : Handle} (hleaf : g.Leaf v leaf) :
    g.outcomes? leaf = none := by
  induction hleaf with
  | here hnone => exact hnone
  | through _ _ _ ih => exact ih

section Worklist

variable {v leaf : Handle} {pending expanded outcomes : List Handle}

theorem leavesOf_of_mem (hv : v ∈ expanded) :
    g.leavesOf (v :: pending) expanded = g.leavesOf pending expanded := by
  rw [leavesOf, dif_pos hv]

theorem leavesOf_of_union (hv : v ∉ expanded)
    (hout : g.outcomes? v = some outcomes) :
    g.leavesOf (v :: pending) expanded =
      g.leavesOf (outcomes ++ pending) (v :: expanded) := by
  rw [leavesOf, dif_neg hv]
  split
  next os hos =>
    rw [hout] at hos
    rw [Option.some.inj hos]
  next hnone => simp [hout] at hnone

theorem leavesOf_of_leaf (hv : v ∉ expanded) (hout : g.outcomes? v = none) :
    g.leavesOf (v :: pending) expanded =
      v :: g.leavesOf pending (v :: expanded) := by
  rw [leavesOf, dif_neg hv]
  split
  next os hos => simp [hout] at hos
  next => rfl

theorem leaf_of_mem_leavesOf (hmem : leaf ∈ g.leavesOf pending expanded) :
    ∃ v ∈ pending, g.Leaf v leaf := by
  induction pending, expanded using leavesOf.induct g with
  | case1 expanded => simp [leavesOf] at hmem
  | case2 v pending expanded hv ih =>
      rw [leavesOf_of_mem hv] at hmem
      obtain ⟨w, hw, hleaf⟩ := ih hmem
      exact ⟨w, List.mem_cons_of_mem v hw, hleaf⟩
  | case3 v pending expanded hv outcomes hout ih =>
      rw [leavesOf_of_union hv hout] at hmem
      obtain ⟨w, hw, hleaf⟩ := ih hmem
      rcases List.mem_append.mp hw with hw | hw
      · exact ⟨v, List.mem_cons_self .., .through hout hw hleaf⟩
      · exact ⟨w, List.mem_cons_of_mem v hw, hleaf⟩
  | case4 v pending expanded hv hout ih =>
      rw [leavesOf_of_leaf hv hout] at hmem
      rcases List.mem_cons.mp hmem with rfl | hmem
      · exact ⟨leaf, List.mem_cons_self .., .here hout⟩
      · obtain ⟨w, hw, hleaf⟩ := ih hmem
        exact ⟨w, List.mem_cons_of_mem v hw, hleaf⟩

/-- No outcome of an expanded union is lost. -/
def Covered (g : Graph) (pending expanded : List Handle) : Prop :=
  ∀ v ∈ expanded, ∀ outcomes, g.outcomes? v = some outcomes →
    ∀ w ∈ outcomes, w ∈ expanded ∨ w ∈ pending

theorem Covered.skip (h : g.Covered (v :: pending) expanded)
    (hv : v ∈ expanded) : g.Covered pending expanded := by
  intro u hu outcomes hout w hw
  rcases h u hu outcomes hout w hw with hold | hold
  · exact Or.inl hold
  · rcases List.mem_cons.mp hold with rfl | hrest
    · exact Or.inl hv
    · exact Or.inr hrest

/-- A vertex counts as expanded when all its outcomes are pending. -/
theorem Covered.expand {next : List Handle}
    (h : g.Covered (v :: pending) expanded) (hkeep : pending ⊆ next)
    (hnext : ∀ outcomes, g.outcomes? v = some outcomes → outcomes ⊆ next) :
    g.Covered next (v :: expanded) := by
  intro u hu outcomes hout w hw
  rcases List.mem_cons.mp hu with rfl | hu
  · exact Or.inr (hnext outcomes hout hw)
  · rcases h u hu outcomes hout w hw with hold | hold
    · exact Or.inl (List.mem_cons_of_mem v hold)
    · rcases List.mem_cons.mp hold with rfl | hrest
      · exact Or.inl (List.mem_cons_self ..)
      · exact Or.inr (hkeep hrest)

theorem mem_leavesOf_of_leaf (hcovered : g.Covered pending expanded)
    (hv : v ∈ expanded ∨ v ∈ pending) (hleaf : g.Leaf v leaf) :
    leaf ∈ expanded ∨ leaf ∈ g.leavesOf pending expanded := by
  induction pending, expanded using leavesOf.induct g generalizing v with
  | case1 expanded =>
      left
      induction hleaf with
      | here => simpa using hv
      | through hout hw _ ih =>
          exact ih (hcovered _ (by simpa using hv) _ hout _ hw)
  | case2 u pending expanded hu ih =>
      rw [leavesOf_of_mem hu]
      refine ih (hcovered.skip hu) ?_ hleaf
      rw [List.mem_cons] at hv
      rcases hv with hv | rfl | hv
      · exact Or.inl hv
      · exact Or.inl hu
      · exact Or.inr hv
  | case3 u pending expanded hu outcomes hout ih =>
      have hopen : g.Covered (outcomes ++ pending) (u :: expanded) := by
        refine hcovered.expand (List.subset_append_right ..) ?_
        intro os hos
        obtain rfl : outcomes = os := by simpa [hout] using hos
        exact List.subset_append_left ..
      have hne : leaf ≠ u := by
        rintro rfl
        rw [hleaf.outcomes?] at hout
        contradiction
      have hnext : v ∈ u :: expanded ∨ v ∈ outcomes ++ pending := by
        simp only [List.mem_cons, List.mem_append] at hv ⊢
        tauto
      rw [leavesOf_of_union hu hout]
      simpa [hne] using ih hopen hnext hleaf
  | case4 u pending expanded hu hout ih =>
      have hopen : g.Covered pending (u :: expanded) :=
        hcovered.expand (List.Subset.refl pending) (by simp [hout])
      have hnext : v ∈ u :: expanded ∨ v ∈ pending := by
        simp only [List.mem_cons] at hv ⊢
        tauto
      have hfound := ih hopen hnext hleaf
      rw [leavesOf_of_leaf hu hout]
      simp only [List.mem_cons] at hfound ⊢
      tauto

end Worklist

theorem mem_leaves {v leaf : Handle} :
    leaf ∈ g.leaves v ↔ g.Leaf v leaf := by
  unfold leaves
  constructor
  · intro hmem
    obtain ⟨w, hw, hleaf⟩ := leaf_of_mem_leavesOf hmem
    rw [List.mem_singleton.mp hw] at hleaf
    exact hleaf
  · intro hleaf
    have hcovered : g.Covered [v] [] := by
      intro w hw
      simp at hw
    simpa using mem_leavesOf_of_leaf hcovered (Or.inr (List.mem_cons_self ..))
      hleaf

/-! ## The walk -/

theorem mem_successors {v w : Handle} :
    w ∈ g.successors v ↔ ∃ l, g.outgoing? v l = some w := by
  unfold successors outgoing?
  simp only [Table.get?_eq_some_iff, List.mem_map, List.mem_filter,
    decide_eq_true_eq]
  constructor
  · rintro ⟨⟨⟨s, l⟩, t⟩, ⟨hmem, rfl⟩, rfl⟩
    exact ⟨l, hmem⟩
  · rintro ⟨l, hmem⟩
    exact ⟨((v, l), w), ⟨hmem, rfl⟩, rfl⟩

theorem mem_namedChildren {v w : Handle} :
    w ∈ g.namedChildren v ↔
      ∃ name, g.outgoing? v (.property name) = some w := by
  unfold namedChildren outgoing?
  simp only [Table.get?_eq_some_iff, List.mem_map, List.mem_filter,
    Bool.and_eq_true, decide_eq_true_eq]
  constructor
  · rintro ⟨⟨⟨s, l⟩, t⟩, ⟨hmem, rfl, hl⟩, rfl⟩
    cases l with
    | property name => exact ⟨name, hmem⟩
    | _ => contradiction
  · rintro ⟨name, hmem⟩
    exact ⟨((v, .property name), w), ⟨hmem, rfl, rfl⟩, rfl⟩

theorem mem_walkFrom {v leaf : Handle} :
    leaf ∈ g.walkFrom v ↔
      (∃ outcomes, g.outcomes? v = some outcomes ∧
        ∃ w ∈ outcomes, g.Leaf w leaf) ∨
      ∃ x, g.vertex? v = some x ∧ x.isEnumerable = true ∧
        ∃ name w, g.outgoing? v (.property name) = some w ∧
          g.Leaf w leaf := by
  unfold walkFrom outcomes?
  cases hx : g.vertex? v with
  | none => simp
  | some x =>
      cases hout : x.outcomes? <;> cases henum : x.isEnumerable <;>
        simp [mem_leaves, mem_namedChildren, List.mem_flatMap, hout, henum]
      all_goals grind

theorem childrenOf_scene (g : Graph) (v : Handle) :
    g.scene.childrenOf v = g.walkFrom v := by
  unfold Scene.childrenOf
  cases hget : g.scene.children.get? v with
  | some vs =>
      rw [Table.get?_eq_some_iff] at hget
      obtain ⟨w, _, heq⟩ := List.mem_map.mp hget
      obtain ⟨rfl, rfl⟩ := Prod.mk.inj heq
      rfl
  | none =>
      have hout : v ∉ g.handles := by
        intro hv
        have hentry : g.scene.children.get? v = some (g.walkFrom v) :=
          (Table.get?_eq_some_iff _).mpr (List.mem_map.mpr ⟨v, hv, rfl⟩)
        rw [hget] at hentry
        contradiction
      cases hx : g.vertex? v with
      | none => simp [walkFrom, hx]
      | some x => exact absurd (mem_handles.mpr (lt_of_vertex? hx)) hout

theorem visit_mem_rootCalls {v : Handle} :
    .visit v ∈ g.rootCalls ↔
      v = root ∨ g.global = some v ∨
        ∃ w f, (w, f) ∈ g.frames ∧ f.value = v := by
  unfold rootCalls
  simp [List.mem_flatMap, eq_comm]

theorem pin_mem_rootCalls {v : Handle} :
    .pin v ∈ g.rootCalls ↔ v = stack ∨ v ∈ g.frames.map Prod.fst := by
  unfold rootCalls
  simp [List.mem_flatMap, eq_comm]

theorem walked_of_traced {v : Handle} (htraced : g.scene.Traced v) :
    g.Walked v := by
  induction htraced with
  | root hfirst =>
      rcases visit_mem_rootCalls.mp hfirst.mem with
        rfl | hglobal | ⟨w, f, hmem, rfl⟩
      · exact .root
      · exact .global hglobal
      · exact .frame hmem
  | child _ hmem _ ih =>
      rw [childrenOf_scene] at hmem
      rcases mem_walkFrom.mp hmem with
        ⟨outcomes, hout, w, hw, hleaf⟩ | ⟨x, hx, henum, name, w, hw, hleaf⟩
      · exact .outcome ih hout hw hleaf
      · exact .child ih hx henum hw hleaf

/-! ## Well-formed graphs -/

theorem WellFormed.isEnd_of_leaf (hg : g.WellFormed) {v leaf : Handle}
    (hleaf : g.Leaf v leaf) (hv : g.IsEnd v) : g.IsEnd leaf := by
  induction hleaf with
  | here => exact hv
  | through hout hw _ ih => exact ih (Or.inr (hg.outcome_value _ _ hout _ hw))

/-- The walk never gets to the stack sentinel or to a frame. -/
theorem WellFormed.isEnd_of_walked (hg : g.WellFormed) {v : Handle}
    (hv : g.Walked v) : g.IsEnd v := by
  induction hv with
  | root => exact Or.inl rfl
  | global hglobal => exact Or.inr (hg.global_value _ hglobal)
  | frame hmem => exact Or.inr (hg.frame_value _ _ hmem)
  | outcome _ hout hw hleaf _ =>
      exact hg.isEnd_of_leaf hleaf (Or.inr (hg.outcome_value _ _ hout _ hw))
  | child _ _ _ hw hleaf _ =>
      exact hg.isEnd_of_leaf hleaf (hg.index_ends _ _ _ hw).2.2

theorem WellFormed.not_pinned (hg : g.WellFormed) {v : Handle}
    (hv : g.IsEnd v) : ¬ g.scene.Pinned v := by
  intro hpin
  obtain ⟨hstack, hframe, _⟩ := hg.isEnd_unstructural hv
  rcases pin_mem_rootCalls.mp hpin with hv | hv
  · exact hstack hv
  · exact hframe hv

theorem WellFormed.traced_of_visit (hg : g.WellFormed) {v : Handle}
    (hv : g.IsEnd v) (hvisit : .visit v ∈ g.rootCalls) : g.scene.Traced v :=
  .root (firstVisit_of_not_pin hvisit (hg.not_pinned hv))

theorem WellFormed.traced_of_mem_walkFrom (hg : g.WellFormed) {v w : Handle}
    (hv : g.scene.Traced v) (hw : g.IsEnd w) (hmem : w ∈ g.walkFrom v) :
    g.scene.Traced w := by
  refine .child hv ?_ (hg.not_pinned hw)
  rw [childrenOf_scene]
  exact hmem

theorem WellFormed.traced_iff_walked (hg : g.WellFormed) {v : Handle} :
    g.scene.Traced v ↔ g.Walked v := by
  constructor
  · exact walked_of_traced
  · intro hv
    have hend := hg.isEnd_of_walked hv
    induction hv with
    | root => exact hg.traced_of_visit hend (visit_mem_rootCalls.mpr (Or.inl rfl))
    | global hglobal =>
        exact hg.traced_of_visit hend
          (visit_mem_rootCalls.mpr (Or.inr (Or.inl hglobal)))
    | frame hmem =>
        exact hg.traced_of_visit hend
          (visit_mem_rootCalls.mpr (Or.inr (Or.inr ⟨_, _, hmem, rfl⟩)))
    | outcome hv hout hw hleaf ih =>
        refine hg.traced_of_mem_walkFrom (ih (hg.isEnd_of_walked hv)) hend ?_
        exact mem_walkFrom.mpr (Or.inl ⟨_, hout, _, hw, hleaf⟩)
    | child hv hx henum hw hleaf ih =>
        refine hg.traced_of_mem_walkFrom (ih (hg.isEnd_of_walked hv)) hend ?_
        exact mem_walkFrom.mpr (Or.inr ⟨_, hx, henum, _, _, hw, hleaf⟩)

end LiveHeap.Graph
