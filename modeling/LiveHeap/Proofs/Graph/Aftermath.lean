import LiveHeap.Proofs.Collection.FullCycle
import LiveHeap.Proofs.Graph.SurfacingLoop

/-!
# What a collection leaves behind

A collection takes the vertices that it answers out of the live set and resets
what asked for it.  All else stays: vertices, builtins, edges, also at the ends
of what was released, known values, the stack and the phase.  The walk that
decides what to release does not look at the live set, so that a second
collection finds nothing more to release, as long as only snapshots, call
boundaries and changes of the phase come in between.
-/

namespace LiveHeap.Graph

variable {g g' : Graph} {v : Handle}

/-- The second graph is what a collection that answered the list makes of the
first one. -/
structure Collected (g g' : Graph) (removed : List Handle) : Prop where
  rest : g' =
    { g with
      slots := g'.slots
      changed := g.changed || !removed.isEmpty
      mutated := false
      collectionDue := false
      collector := g'.collector }
  length : g'.slots.length = g.slots.length
  slot : ∀ v, g'.slot? v =
    if v ∈ removed then (g.slot? v).map Slot.dim else g.slot? v
  frames : g'.frames = g.frames
  collector : g'.collector.AtRest
  collections : g'.collections = g.collections + 1

/-! ## One collection -/

theorem relit_release (g : Graph) (vs : List Handle) :
    g.Relit (g.release vs) := by
  apply List.foldlRecOn (motive := g.Relit)
  · exact .refl g
  · exact fun g' h v _ => h.trans (.setLive g' v false)

theorem slot?_release (g : Graph) (vs : List Handle) (v : Handle) :
    (g.release vs).slot? v =
      if v ∈ vs then (g.slot? v).map Slot.dim else g.slot? v := by
  unfold release
  induction vs generalizing g with
  | nil => simp
  | cons w vs ih =>
      rw [List.foldl_cons, ih, slot?_setLive]
      by_cases hv : v = w
      · have htwice : ((g.slot? v).map Slot.dim).map Slot.dim =
            (g.slot? v).map Slot.dim := by
          cases g.slot? v <;> rfl
        have hdim : (fun s : Slot =>
            { s with flags := { s.flags with live := false } }) = Slot.dim :=
          rfl
        rw [if_pos hv, hdim, htwice, ite_self, if_pos (by simp [hv])]
      · simp [hv]

section Collect

variable (hg : g.WellFormed)

include hg

theorem WellFormed.slots_collect :
    g.collect.1.slots = (g.release g.collect.2).slots := by
  have hslots := congrArg Graph.slots (collect_released hg.idle).1
  exact hslots

theorem WellFormed.collections_collect :
    g.collect.1.collections = g.collections + 1 := by
  let b : Bench := ⟨g.collector, g.scene, [], []⟩
  have hstart := Bench.cycleOn_start b hg.idle
  have hcycles := ((Bench.booksOn_start b hg.idle).finish hstart).cycles
  rw [if_pos hstart.finish.2] at hcycles
  exact hcycles

theorem WellFormed.collected : g.Collected g.collect.1 g.collect.2 where
  rest := by
    have hall := (collect_released hg.idle).1
    rw [(relit_release g g.collect.2).rest] at hall
    rw [hg.slots_collect]
    exact hall
  length := (alike_of_core hg.core_collect).length
  slot v := by
    rw [slot?, hg.slots_collect]
    exact slot?_release g g.collect.2 v
  frames := (edits_collect hg).frames_eq hg
  collector := Bench.atRest_collect ⟨g.collector, g.scene, [], []⟩ hg.idle
  collections := hg.collections_collect

end Collect

/-! ## A second collection -/

/-- Snapshots, call boundaries and changes of the phase. -/
def Operation.isQuiet : Operation → Bool
  | .event .callBoundary => true
  | .beginBootstrap => true
  | .endBootstrap => true
  | .takeSnapshot => true
  | _ => false

/-- The graphs differ in the phase, and in whether a snapshot or a collection is
due, at most. -/
def Undisturbed (g g' : Graph) : Prop :=
  ∃ bootstrapping changed collectionDue,
    g' = { g with bootstrapping, changed, collectionDue }

theorem Undisturbed.slots (h : g.Undisturbed g') : g'.slots = g.slots := by
  have ⟨phase, changed, due, heq⟩ := h
  rw [heq]

theorem Undisturbed.slot? (h : g.Undisturbed g') (v : Handle) :
    g'.slot? v = g.slot? v := by
  rw [Graph.slot?, Graph.slot?, h.slots]

theorem Undisturbed.apply (h : g.Undisturbed g') {op : Operation}
    (hquiet : op.isQuiet = true) : g.Undisturbed (g'.apply op) := by
  have ⟨phase, changed, due, heq⟩ := h
  rw [heq]
  cases op with
  | event e =>
      cases e with
      | callBoundary => exact ⟨phase, changed, true, rfl⟩
      | _ => contradiction
  | beginBootstrap => exact ⟨true, changed, due, rfl⟩
  | endBootstrap => exact ⟨false, changed, due, rfl⟩
  | takeSnapshot => exact ⟨phase, false, due, rfl⟩
  | _ => contradiction

theorem undisturbed_run {ops : List Operation}
    (hquiet : ∀ op ∈ ops, op.isQuiet = true) (g : Graph) :
    g.Undisturbed (g.run ops) := by
  apply List.foldlRecOn (motive := g.Undisturbed)
  · exact ⟨_, _, _, rfl⟩
  · exact fun g' h op hop => h.apply (hquiet op hop)

section CollectAgain

variable (hg : g.WellFormed) (h : g.collect.1.Undisturbed g')

include hg h

theorem WellFormed.vertex?_undisturbed (v : Handle) :
    g'.vertex? v = g.vertex? v := by
  rw [← hg.vertex?_collect v, vertex?, vertex?, h.slot?]

/-- Nothing that the walk looks at was released. -/
theorem WellFormed.walked_undisturbed (hv : g.Walked v) : g'.Walked v := by
  have ⟨phase, changed, due, heq⟩ := h
  have hcollected := hg.collected
  have hindex : g'.index = g.index := by
    rw [heq, hcollected.rest]
  have htop : g'.stackTop = g.stackTop := by
    rw [heq, hcollected.rest]
  have hglobal : g'.global = g.global := by
    rw [heq, hcollected.rest]
  have hlength : g'.slots.length = g.slots.length := by
    rw [h.slots, hcollected.length]
  have hvertex := hg.vertex?_undisturbed h
  have hframes : g'.frames = g.frames := by
    unfold frames
    rw [hlength, htop]
    exact framesFrom_congr hvertex _ _
  have hout : ∀ s l, g'.outgoing? s l = g.outgoing? s l := by
    intro s l
    rw [outgoing?, hindex]
    rfl
  exact hv.of_views hout hvertex hframes hglobal

/-- A value that is live after the first collection was walked then, and the
second collection walks it again. -/
theorem WellFormed.collect_again (hg' : g'.WellFormed) :
    g'.collect.2 = [] ∧ g'.collect.1.slots = g.collect.1.slots := by
  have hnone : g'.collect.2 = [] := by
    rw [List.eq_nil_iff_forall_not_mem]
    intro v hv
    have ⟨⟨x, hx, hvalue⟩, hlive, hunwalked⟩ := hg'.mem_collect.mp hv
    rw [hg.vertex?_undisturbed h] at hx
    rw [isLive_congr (h.slot? v), hg.isLive_collect_iff ⟨x, hx, hvalue⟩]
      at hlive
    exact hunwalked (hg.walked_undisturbed h hlive.2)
  constructor
  · exact hnone
  · rw [hg'.slots_collect, hnone]
    exact h.slots

end CollectAgain

/-- In every graph that operations make, a collection clears the liveness of the
vertices that it answers, resets the flags that asked for it, notes a change if
it answers any vertex, and counts itself.  It changes nothing else, and after
quiet operations only, a second collection answers nothing and leaves the live
set alone. -/
theorem collection_leaves_rest (ops : List Operation) :
    let g := new.run ops
    g.Collected g.collect.1 g.collect.2 ∧
    ∀ between : List Operation, (∀ op ∈ between, op.isQuiet = true) →
      let h := g.collect.1.run between
      h.collect.2 = [] ∧ h.collect.1.slots = g.collect.1.slots := by
  intro g
  have hg : g.WellFormed := wellFormed_run_new ops
  constructor
  · exact hg.collected
  · intro between hquiet
    have hh := (hg.apply .collect).run between
    exact hg.collect_again (undisturbed_run hquiet g.collect.1) hh

end LiveHeap.Graph
