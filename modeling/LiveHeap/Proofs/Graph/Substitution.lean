import LiveHeap.Proofs.Graph.Walk

/-!
# Substituting unions

A named child that is a union gives way to the vertices at the end of its
outcome lists.  They are found by a loop over pending vertices that expands no
vertex twice.  Unions may have each other as outcomes and share outcomes, so
that a vertex may be pending several times and the list may grow while the loop
runs.  But no turn makes the outcomes of the vertices that were not expanded yet
and the pending vertices more, counted together, so the loop ends, whichever
pending vertex it takes next.  Whatever the order, it has then visited each leaf
once.
-/

namespace LiveHeap.Graph

/-- The vertices that the loop has yet to look at, those that it looked at, and
those of them that it visited, in order. -/
structure Unfolding where
  pending : List Handle
  expanded : List Handle
  visited : List Handle

/-- One turn takes any pending vertex.  A vertex that was expanded before is
passed over.  Otherwise a union makes its outcomes pending, and any other vertex
is visited. -/
inductive Unfolds (g : Graph) : Unfolding → Unfolding → Prop
  | skip {v : Handle} {pending rest expanded visited : List Handle} :
      pending.Perm (v :: rest) → v ∈ expanded →
      g.Unfolds ⟨pending, expanded, visited⟩ ⟨rest, expanded, visited⟩
  | union {v : Handle} {pending rest expanded visited outcomes : List Handle} :
      pending.Perm (v :: rest) → v ∉ expanded →
      g.outcomes? v = some outcomes →
      g.Unfolds ⟨pending, expanded, visited⟩
        ⟨outcomes ++ rest, v :: expanded, visited⟩
  | leaf {v : Handle} {pending rest expanded visited : List Handle} :
      pending.Perm (v :: rest) → v ∉ expanded → g.outcomes? v = none →
      g.Unfolds ⟨pending, expanded, visited⟩
        ⟨rest, v :: expanded, visited ++ [v]⟩

abbrev UnfoldsTo (g : Graph) : Unfolding → Unfolding → Prop :=
  Relation.ReflTransGen g.Unfolds

/-- The loop starts with one child pending. -/
def Unfolding.start (child : Handle) : Unfolding := ⟨[child], [], []⟩

variable {g : Graph} {child v : Handle} {before after : Unfolding}

/-! ## The loop ends -/

theorem wellFounded_unfolds (g : Graph) :
    WellFounded fun after before => g.Unfolds before after := by
  let measure : Unfolding → Nat :=
    fun u => g.unexpandedWeight u.expanded + u.pending.length
  apply Subrelation.wf _ (InvImage.wf measure Nat.lt_wfRel.wf)
  intro after before hturn
  change measure after < measure before
  cases hturn with
  | skip hperm _ =>
      have hlength := hperm.length_eq
      rw [List.length_cons] at hlength
      simp only [measure]
      omega
  | @union v _ _ expanded _ outcomes hperm hnew hout =>
      have hlength := hperm.length_eq
      have hless := totalWeight_filter_cons_add_le g.expansionWeight
        (mem_handles_of_outcomes? hout) hnew
      have hweight : g.expansionWeight v = outcomes.length + 1 := by
        simp [expansionWeight, hout]
      rw [List.length_cons] at hlength
      simp only [measure, unexpandedWeight, List.length_append]
      omega
  | @leaf v _ _ expanded _ hperm _ _ =>
      have hlength := hperm.length_eq
      have hle := totalWeight_filter_cons_le g.expansionWeight v expanded
        g.handles
      rw [List.length_cons] at hlength
      simp only [measure, unexpandedWeight]
      omega

/-- The loop stops only when nothing is pending. -/
theorem exists_unfolds (g : Graph) {u : Unfolding} (hpending : u.pending ≠ []) :
    ∃ after, g.Unfolds u after := by
  obtain ⟨pending, expanded, visited⟩ := u
  obtain ⟨v, rest, rfl⟩ := List.exists_cons_of_ne_nil hpending
  by_cases hv : v ∈ expanded
  · exact ⟨_, .skip (.refl _) hv⟩
  · cases hout : g.outcomes? v with
    | none => exact ⟨_, .leaf (.refl _) hv hout⟩
    | some outcomes => exact ⟨_, .union (.refl _) hv hout⟩

/-! ## What it visits -/

/-- What holds throughout the loop.  Each outcome of an expanded union was
expanded or is pending, so that no leaf of the child gets lost, and nothing else
comes in. -/
structure UnfoldsFrom (g : Graph) (child : Handle) (u : Unfolding) : Prop where
  nodup : u.visited.Nodup
  mem_visited : ∀ v, v ∈ u.visited ↔
    v ∈ u.expanded ∧ g.outcomes? v = none
  covered : g.Covered u.pending u.expanded
  kept : child ∈ u.expanded ∨ child ∈ u.pending
  sound : ∀ v, v ∈ u.expanded ∨ v ∈ u.pending →
    ∀ leaf, g.Leaf v leaf → g.Leaf child leaf

theorem unfoldsFrom_start (g : Graph) (child : Handle) :
    g.UnfoldsFrom child (.start child) := by
  constructor
  · exact List.nodup_nil
  · simp [Unfolding.start]
  · intro v hv
    exact absurd hv List.not_mem_nil
  · exact Or.inr (List.mem_singleton_self child)
  · intro v hv leaf hleaf
    have heq : v = child := by simpa [Unfolding.start] using hv
    rwa [← heq]

theorem Covered.perm {pending rest expanded : List Handle}
    (h : g.Covered pending expanded) (hperm : pending.Perm rest) :
    g.Covered rest expanded := by
  intro u hu outcomes hout w hw
  exact (h u hu outcomes hout w hw).imp id hperm.mem_iff.mp

section Turn

variable {pending rest expanded visited : List Handle}
  (h : g.UnfoldsFrom child ⟨pending, expanded, visited⟩)
  (hperm : pending.Perm (v :: rest))

include h hperm

theorem UnfoldsFrom.skip (hv : v ∈ expanded) :
    g.UnfoldsFrom child ⟨rest, expanded, visited⟩ := by
  have hmem : ∀ w, w ∈ expanded ∨ w ∈ rest → w ∈ expanded ∨ w ∈ pending :=
    fun w hw => hw.imp id fun hrest =>
      hperm.mem_iff.mpr (List.mem_cons_of_mem v hrest)
  refine ⟨h.nodup, h.mem_visited, (h.covered.perm hperm).skip hv, ?_,
    fun w hw => h.sound w (hmem w hw)⟩
  rcases h.kept with hold | hwait
  · exact Or.inl hold
  · rcases List.mem_cons.mp (hperm.mem_iff.mp hwait) with rfl | hrest
    · exact Or.inl hv
    · exact Or.inr hrest

/-- What is left of the loop's invariant when a vertex is expanded. -/
theorem UnfoldsFrom.kept_expand {next : List Handle} (hkeep : rest ⊆ next) :
    child ∈ v :: expanded ∨ child ∈ next := by
  rcases h.kept with hold | hwait
  · exact Or.inl (List.mem_cons_of_mem v hold)
  · rcases List.mem_cons.mp (hperm.mem_iff.mp hwait) with rfl | hrest
    · exact Or.inl List.mem_cons_self
    · exact Or.inr (hkeep hrest)

theorem UnfoldsFrom.sound_expand {w leaf : Handle}
    (hw : w ∈ v :: expanded ∨ w ∈ rest) (hleaf : g.Leaf w leaf) :
    g.Leaf child leaf := by
  refine h.sound w ?_ leaf hleaf
  rw [List.mem_cons] at hw
  rcases hw with (rfl | hold) | hrest
  · exact Or.inr (hperm.mem_iff.mpr List.mem_cons_self)
  · exact Or.inl hold
  · exact Or.inr (hperm.mem_iff.mpr (List.mem_cons_of_mem v hrest))

theorem UnfoldsFrom.union {outcomes : List Handle}
    (hout : g.outcomes? v = some outcomes) :
    g.UnfoldsFrom child ⟨outcomes ++ rest, v :: expanded, visited⟩ := by
  constructor
  · exact h.nodup
  · intro w
    rw [h.mem_visited, List.mem_cons]
    constructor
    · exact fun hw => ⟨Or.inr hw.1, hw.2⟩
    · rintro ⟨rfl | hold, hnone⟩
      · rw [hout] at hnone
        contradiction
      · exact ⟨hold, hnone⟩
  · refine (h.covered.perm hperm).expand (List.subset_append_right ..) ?_
    intro os hos
    obtain rfl : outcomes = os := by simpa [hout] using hos
    exact List.subset_append_left ..
  · exact h.kept_expand hperm (List.subset_append_right ..)
  · intro w hw leaf hleaf
    rw [List.mem_append] at hw
    rcases hw with hold | houtcome | hrest
    · exact h.sound_expand hperm (Or.inl hold) hleaf
    · have hself : v ∈ v :: expanded ∨ v ∈ rest := Or.inl List.mem_cons_self
      exact h.sound_expand hperm hself (.through hout houtcome hleaf)
    · exact h.sound_expand hperm (Or.inr hrest) hleaf

theorem UnfoldsFrom.leaf (hv : v ∉ expanded) (hout : g.outcomes? v = none) :
    g.UnfoldsFrom child ⟨rest, v :: expanded, visited ++ [v]⟩ := by
  constructor
  · have hnew : v ∉ visited := fun hmem =>
      hv ((h.mem_visited v).mp hmem).1
    rw [List.nodup_append', List.disjoint_singleton]
    exact ⟨h.nodup, List.nodup_singleton v, hnew⟩
  · intro w
    rw [List.mem_append, List.mem_singleton, h.mem_visited, List.mem_cons]
    constructor
    · rintro (hw | rfl)
      · exact ⟨Or.inr hw.1, hw.2⟩
      · exact ⟨Or.inl rfl, hout⟩
    · rintro ⟨rfl | hold, hnone⟩
      · exact Or.inr rfl
      · exact Or.inl ⟨hold, hnone⟩
  · exact (h.covered.perm hperm).expand (List.Subset.refl rest) (by simp [hout])
  · exact h.kept_expand hperm (List.Subset.refl rest)
  · exact fun w hw leaf => h.sound_expand hperm hw

end Turn

theorem UnfoldsFrom.turn (h : g.UnfoldsFrom child before)
    (hturn : g.Unfolds before after) : g.UnfoldsFrom child after := by
  cases hturn with
  | skip hperm hv => exact h.skip hperm hv
  | union hperm _ hout => exact h.union hperm hout
  | leaf hperm hv hout => exact h.leaf hperm hv hout

theorem UnfoldsFrom.run (h : g.UnfoldsFrom child before)
    (hrun : g.UnfoldsTo before after) : g.UnfoldsFrom child after := by
  induction hrun with
  | refl => exact h
  | tail _ hturn ih => exact ih.turn hturn

/-- When nothing is pending any more, the leaves of the child were visited. -/
theorem UnfoldsFrom.mem_visited_iff (h : g.UnfoldsFrom child after)
    (hpending : after.pending = []) {leaf : Handle} :
    leaf ∈ after.visited ↔ g.Leaf child leaf := by
  have hcovered := h.covered
  rw [hpending] at hcovered
  constructor
  · intro hmem
    obtain ⟨hexpanded, hnone⟩ := (h.mem_visited leaf).mp hmem
    exact h.sound leaf (Or.inl hexpanded) leaf (.here hnone)
  · intro hleaf
    have hchild : child ∈ after.expanded := by simpa [hpending] using h.kept
    have hfound := mem_leavesOf_of_leaf hcovered (Or.inl hchild) hleaf
    rw [leavesOf] at hfound
    exact (h.mem_visited leaf).mpr ⟨by simpa using hfound, hleaf.outcomes?⟩

/-! ## The order that the graph takes -/

theorem unfoldsTo_leavesOf (g : Graph)
    (pending expanded visited : List Handle) :
    ∃ expanded', g.UnfoldsTo ⟨pending, expanded, visited⟩
      ⟨[], expanded', visited ++ g.leavesOf pending expanded⟩ := by
  induction pending, expanded using leavesOf.induct g generalizing visited with
  | case1 expanded =>
      rw [leavesOf, List.append_nil]
      exact ⟨expanded, .refl⟩
  | case2 v pending expanded hv ih =>
      obtain ⟨expanded', hrest⟩ := ih visited
      rw [leavesOf_of_mem hv]
      exact ⟨expanded', .head (.skip (.refl _) hv) hrest⟩
  | case3 v pending expanded hv outcomes hout ih =>
      obtain ⟨expanded', hrest⟩ := ih visited
      rw [leavesOf_of_union hv hout]
      exact ⟨expanded', .head (.union (.refl _) hv hout) hrest⟩
  | case4 v pending expanded hv hout ih =>
      obtain ⟨expanded', hrest⟩ := ih (visited ++ [v])
      rw [leavesOf_of_leaf hv hout, List.append_cons]
      exact ⟨expanded', .head (.leaf (.refl _) hv hout) hrest⟩

/-- The loop that starts at a child ends in every order, and in every order it
has then visited the same vertices, which are the leaves of the child, each of
them once. -/
structure SubstitutesBy (g : Graph) (child : Handle) (visited : List Handle) :
    Prop where
  terminates : Acc (fun after before => g.Unfolds before after) (.start child)
  reached : ∃ expanded, g.UnfoldsTo (.start child) ⟨[], expanded, visited⟩
  result : ∀ after, g.UnfoldsTo (.start child) after →
    (∀ next, ¬ g.Unfolds after next) →
      after.pending = [] ∧ after.visited.Perm visited
  nodup : visited.Nodup
  mem_iff : ∀ v, v ∈ visited ↔ g.Leaf child v
  no_union : ∀ v ∈ visited, g.outcomes? v = none
  of_leaf : g.outcomes? child = none → visited = [child]

/-- Whatever the graph, a child gives way to exactly its leaves, also where
unions are outcomes of each other. -/
theorem substitution_exact (g : Graph) (child : Handle) :
    g.SubstitutesBy child (g.leaves child) := by
  have hfrom := unfoldsFrom_start g child
  obtain ⟨expanded, hrun⟩ := g.unfoldsTo_leavesOf [child] [] []
  have hends := hfrom.run hrun
  have hnodup : (g.leaves child).Nodup := hends.nodup
  constructor
  · exact (wellFounded_unfolds g).apply _
  · exact ⟨expanded, hrun⟩
  · intro after hafter hstop
    have hinv := hfrom.run hafter
    have hpending : after.pending = [] := by
      by_contra hmore
      obtain ⟨next, hturn⟩ := exists_unfolds g hmore
      exact hstop next hturn
    refine ⟨hpending, (List.perm_ext_iff_of_nodup hinv.nodup hnodup).mpr ?_⟩
    intro v
    rw [hinv.mem_visited_iff hpending, mem_leaves]
  · exact hnodup
  · exact fun v => mem_leaves
  · exact fun v hv => (mem_leaves.mp hv).outcomes?
  · intro hout
    have hone : g.leavesOf [child] [] = child :: g.leavesOf [] [child] :=
      leavesOf_of_leaf List.not_mem_nil hout
    rwa [leavesOf] at hone

end LiveHeap.Graph
